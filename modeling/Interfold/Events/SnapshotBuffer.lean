import Interfold.Library.BigEndian
import Mathlib.Data.List.Sort
import Mathlib.Data.Prod.Lex

/-!
# Snapshot batches and their cursor

Every event opens a batch of writes. A later event of the same aggregate starts the timelocks of the
batches before it, and a tick flushes the batches whose timelocks have expired. The store keeps for
every aggregate the sequence of the last batch, and it drops a batch that is older than that.

The timelocks are ordered by their expiry, which is read from a wall clock. The store expects the
batches in the order of their sequences. The two agree as long as the clock is not set back while
timelocks are waiting.
-/

namespace Interfold.SnapshotBuffer

open List Function

variable {κ : Type}

/-- Batches belong to an event: an aggregate and a sequence. -/
structure SnapshotKey where
  aggregate : ℕ
  seq : ℕ
deriving DecidableEq

/-- The keys of the store: the cursor, block and timestamp of an aggregate, or the state of an
actor. -/
inductive StoreKey (κ : Type) where
  | aggregateSeq (aggregate : ℕ)
  | aggregateBlock (aggregate : ℕ)
  | aggregateTs (aggregate : ℕ)
  | state (key : κ)
deriving DecidableEq

structure Insert (κ : Type) where
  key : StoreKey κ
  value : List UInt8
  ctx : Option SnapshotKey
deriving DecidableEq

/-- `to_le_bytes` of a number of `width` bytes. -/
def toLeBytes (width n : ℕ) : List UInt8 := (BigEndian.encode width n).reverse

def fromLeBytes (bytes : List UInt8) : ℕ := BigEndian.decode bytes.reverse

/-! ## The store -/

abbrev Tree (κ : Type) := StoreKey κ → Option (List UInt8)

inductive BatchError where
  | combinesRevisions
  | mixesDirectWrites
  | invalidCursorLength (length : ℕ)
deriving DecidableEq

/-- The loop of `snapshot_revision`: the revision so far, and whether a direct write was seen. -/
def revisionLoop : Option SnapshotKey → Bool → List (Insert κ) →
    Except BatchError (Option SnapshotKey × Bool)
  | revision, sawDirect, [] => .ok (revision, sawDirect)
  | revision, sawDirect, command :: commands =>
    match command.ctx with
    | none => revisionLoop revision true commands
    | some candidate =>
      match revision with
      | none => revisionLoop (some candidate) sawDirect commands
      | some current =>
        if current = candidate then revisionLoop revision sawDirect commands
        else .error .combinesRevisions

def snapshotRevision (commands : List (Insert κ)) : Except BatchError (Option SnapshotKey) :=
  match revisionLoop none false commands with
  | .error error => .error error
  | .ok (revision, sawDirect) =>
    if revision.isNone || !sawDirect then .ok revision else .error .mixesDirectWrites

section

variable [DecidableEq κ]

def writeAll (tree : Tree κ) (commands : List (Insert κ)) : Tree κ :=
  commands.foldl (fun tree command => update tree command.key (some command.value)) tree

/-- `SledDb::insert_batch`: whether the batch was applied, and the tree after it. -/
def insertBatch (tree : Tree κ) (commands : List (Insert κ)) : Except BatchError (Bool × Tree κ) :=
  match snapshotRevision commands with
  | .error error => .error error
  | .ok none => .ok (true, writeAll tree commands)
  | .ok (some revision) =>
    match tree (.aggregateSeq revision.aggregate) with
    | none => .ok (true, writeAll tree commands)
    | some raw =>
      if raw.length ≠ 8 then .error (.invalidCursorLength raw.length)
      else if revision.seq < fromLeBytes raw then .ok (false, tree)
      else .ok (true, writeAll tree commands)

/-! ## The buffer -/

structure PendingBatch (κ : Type) where
  key : SnapshotKey
  inserts : List (Insert κ)
  scheduled : Bool

structure Timelock where
  expiry : ℕ
  key : SnapshotKey
deriving DecidableEq

/-- The order of timelocks: by expiry, then by key. -/
def Timelock.rank (lock : Timelock) : ℕ ×ₗ ℕ ×ₗ ℕ :=
  toLex (lock.expiry, toLex (lock.key.aggregate, lock.key.seq))

/-- `BinaryHeap::push`. The heap is listed in the order in which it is popped. -/
def pushTimelock (lock : Timelock) : List Timelock → List Timelock
  | [] => [lock]
  | head :: locks =>
    if lock.rank ≤ head.rank then lock :: head :: locks else head :: pushTimelock lock locks

inductive Outcome where
  | applied
  | stale
  | failed (error : BatchError)
deriving DecidableEq

/-- A batch that reached the store. -/
structure Write (κ : Type) where
  key : SnapshotKey
  inserts : List (Insert κ)
  outcome : Outcome

structure Event where
  aggregate : ℕ
  seq : ℕ
  ts : ℕ
  block : Option ℕ
  shutdown : Bool

def Event.key (e : Event) : SnapshotKey := ⟨e.aggregate, e.seq⟩

/-- The router, the timelock queue, what is on the way between them, and the store. The last three
fields record what happened. -/
structure State (κ : Type) where
  /-- The open batches. They are listed in the order in which they were opened, which is the order
  the router sorts them by. -/
  batches : List (PendingBatch κ)
  blockHeightSeen : ℕ → Option ℕ
  /-- Started timelocks that have not reached the queue. -/
  starts : List Timelock
  timelocks : List Timelock
  /-- Flushes that have not reached the router. -/
  flushes : List SnapshotKey
  tree : Tree κ
  delivered : List SnapshotKey
  admitted : List (Insert κ)
  writes : List (Write κ)

def State.init : State κ := ⟨[], fun _ => none, [], [], [], fun _ => none, [], [], []⟩

section

variable (s : State κ)

/-- `get_highest_block`. -/
def highestBlock (aggregate : ℕ) (block : Option ℕ) : ℕ :=
  max (block.getD 0) ((s.blockHeightSeen aggregate).getD 0)

/-- The batches that an event starts the timelocks of. -/
def PendingBatch.isOlder (e : Event) (batch : PendingBatch κ) : Bool :=
  batch.key.aggregate = e.aggregate && batch.key.seq < e.seq && !batch.scheduled

def scheduleOlderBatches (delay : ℕ → ℕ) (now : ℕ) (e : Event) : State κ :=
  { s with
    batches := s.batches.map fun batch =>
      if batch.isOlder e then { batch with scheduled := true } else batch
    starts := s.starts ++ (s.batches.filter (·.isOlder e)).map fun batch =>
      ⟨now + delay e.aggregate, batch.key⟩ }

/-- The writes that a new batch starts with. -/
def metadata (e : Event) (block : ℕ) : List (Insert κ) :=
  [⟨.aggregateSeq e.aggregate, toLeBytes 8 e.seq, some e.key⟩,
    ⟨.aggregateBlock e.aggregate, toLeBytes 8 block, some e.key⟩,
    ⟨.aggregateTs e.aggregate, toLeBytes 16 e.ts, some e.key⟩]

/-- The event handler of the router. -/
def handleEvent (delay : ℕ → ℕ) (now : ℕ) (e : Event) : State κ :=
  let s := { s with delivered := s.delivered ++ [e.key] }
  if e.shutdown then s
  else
    let s := scheduleOlderBatches s delay now e
    if s.batches.any (·.key = e.key) then s
    else
      let block := highestBlock s e.aggregate e.block
      { s with
        batches := s.batches ++ [⟨e.key, metadata e block, false⟩]
        blockHeightSeen := update s.blockHeightSeen e.aggregate (some block) }

/-- A batch reaches the store. -/
def commit (key : SnapshotKey) (inserts : List (Insert κ)) : State κ :=
  match insertBatch s.tree inserts with
  | .error error => { s with writes := s.writes ++ [⟨key, inserts, .failed error⟩] }
  | .ok (false, tree) => { s with tree, writes := s.writes ++ [⟨key, inserts, .stale⟩] }
  | .ok (true, tree) => { s with tree, writes := s.writes ++ [⟨key, inserts, .applied⟩] }

/-- The insert handler of the router, for an insert with a context. It goes to the open batch of its
event, or to the store if there is none. -/
def handleInsert (key : SnapshotKey) (insert : Insert κ) : State κ :=
  if s.batches.any (·.key = key) then
    { s with
      batches := s.batches.map fun batch =>
        if batch.key = key then { batch with inserts := batch.inserts ++ [insert] } else batch
      admitted := s.admitted ++ [insert] }
  else commit s key [insert]

/-- The queue receives a started timelock. -/
def handleStart : State κ :=
  match s.starts with
  | [] => s
  | lock :: starts => { s with starts, timelocks := pushTimelock lock s.timelocks }

/-- The queue pops the timelocks that have expired. -/
def handleTick (now : ℕ) : State κ :=
  { s with
    timelocks := s.timelocks.dropWhile fun lock => lock.expiry ≤ now
    flushes := s.flushes ++ (s.timelocks.takeWhile fun lock => lock.expiry ≤ now).map Timelock.key }

/-- A batch is flushed. The router waits until the store has it. -/
def flushBatch (batch : PendingBatch κ) : State κ :=
  if batch.inserts.isEmpty then s else commit s batch.key batch.inserts

/-- The router receives a flush. -/
def handleFlush : State κ :=
  match s.flushes with
  | [] => s
  | key :: flushes =>
    match s.batches.find? (·.key = key) with
    | none => { s with flushes }
    | some batch => flushBatch { s with flushes, batches := s.batches.filter (·.key ≠ key) } batch

/-- `FlushPendingSnapshots`: all open batches, in order. -/
def flushPendingSnapshots : State κ :=
  s.batches.foldl flushBatch { s with batches := [] }

end

/-- The steps of the buffer: each aggregate's events come in the order of their sequences, inserts
come while the batch of their event is open, and the clock reads anything that is allowed at the
event. -/
inductive Step (allowed : ℕ → Event → State κ → Prop) (delay : ℕ → ℕ) (s : State κ) :
    State κ → Prop where
  | event (now : ℕ) (e : Event) (hseq : e.seq < 2 ^ 64)
      (hincreasing : ∀ key ∈ s.delivered, key.aggregate = e.aggregate → key.seq < e.seq)
      (hclock : allowed now e s) : Step allowed delay s (handleEvent s delay now e)
  | insert (key : SnapshotKey) (name : κ) (value : List UInt8)
      (hopen : ∃ batch ∈ s.batches, batch.key = key) :
      Step allowed delay s (handleInsert s key ⟨.state name, value, some key⟩)
  | start : Step allowed delay s (handleStart s)
  | tick (now : ℕ) : Step allowed delay s (handleTick s now)
  | flush : Step allowed delay s (handleFlush s)
  | flushPending : Step allowed delay s (flushPendingSnapshots s)

inductive Reachable (allowed : ℕ → Event → State κ → Prop) (delay : ℕ → ℕ) : State κ → Prop where
  | init : Reachable allowed delay .init
  | step {s s' : State κ} (h : Reachable allowed delay s) (hstep : Step allowed delay s s') :
      Reachable allowed delay s'

end

/-- The stored cursor of an aggregate. -/
def storedSeq (s : State κ) (aggregate : ℕ) : Option ℕ :=
  (s.tree (.aggregateSeq aggregate)).map fromLeBytes

/-! ## The store's side -/

section

variable {tree : Tree κ} {key : SnapshotKey} {inserts rest : List (Insert κ)}

/-- A batch of one event: the cursor first, then writes of the same event to other keys. -/
structure BatchOf (key : SnapshotKey) (inserts : List (Insert κ)) : Prop where
  seq_lt : key.seq < 2 ^ 64
  writes : ∃ rest, inserts = ⟨.aggregateSeq key.aggregate, toLeBytes 8 key.seq, some key⟩ :: rest ∧
    ∀ insert ∈ rest, insert.ctx = some key ∧ ∀ a, insert.key ≠ .aggregateSeq a

lemma length_toLeBytes (width n : ℕ) : (toLeBytes width n).length = width := by
  simp [toLeBytes]

lemma fromLeBytes_toLeBytes (h : n < 2 ^ 64) : fromLeBytes (toLeBytes 8 n) = n := by
  unfold fromLeBytes toLeBytes
  rw [reverse_reverse]
  exact BigEndian.decode_encode (lt_of_lt_of_le h (by decide))

lemma revisionLoop_same (h : ∀ insert ∈ inserts, insert.ctx = some key) (sawDirect : Bool) :
    revisionLoop (some key) sawDirect inserts = .ok (some key, sawDirect) := by
  induction inserts with
  | nil => rfl
  | cons insert inserts ih =>
    rw [revisionLoop, h insert mem_cons_self]
    simp only [if_true]
    exact ih fun i hi => h i (mem_cons_of_mem _ hi)

lemma BatchOf.revision (h : BatchOf key inserts) : snapshotRevision inserts = .ok (some key) := by
  obtain ⟨rest, rfl, hrest⟩ := h.writes
  simp only [snapshotRevision, revisionLoop, revisionLoop_same fun i hi => (hrest i hi).1]
  rfl

variable [DecidableEq κ]

lemma writeAll_of_ne {k : StoreKey κ} (h : ∀ insert ∈ inserts, insert.key ≠ k) :
    writeAll tree inserts k = tree k := by
  induction inserts generalizing tree with
  | nil => rfl
  | cons insert inserts ih =>
    have hrest := @ih (update tree insert.key (some insert.value)) fun i hi =>
      h i (mem_cons_of_mem _ hi)
    refine hrest.trans (update_of_ne ?_ _ _)
    exact (h insert mem_cons_self).symm

lemma BatchOf.writeAll_cursor (h : BatchOf key inserts) (tree : Tree κ) (a : ℕ) :
    writeAll tree inserts (.aggregateSeq a) =
      if a = key.aggregate then some (toLeBytes 8 key.seq) else tree (.aggregateSeq a) := by
  obtain ⟨rest, rfl, hrest⟩ := h.writes
  have hoth := @writeAll_of_ne κ (update tree (.aggregateSeq key.aggregate)
    (some (toLeBytes 8 key.seq))) rest _ (.aggregateSeq a) fun i hi => (hrest i hi).2 a
  refine hoth.trans ?_
  split_ifs with ha
  · rw [ha, update_self]
  · rw [update_of_ne]
    exact fun heq => ha (StoreKey.aggregateSeq.inj heq)

/-- A batch is applied when the stored cursor is not ahead of it. -/
lemma BatchOf.insertBatch_eq (h : BatchOf key inserts)
    (hcurs : ∀ raw, tree (.aggregateSeq key.aggregate) = some raw →
      ∃ n ≤ key.seq, raw = toLeBytes 8 n) :
    insertBatch tree inserts = .ok (true, writeAll tree inserts) := by
  unfold insertBatch
  rw [h.revision]
  simp only
  cases hraw : tree (.aggregateSeq key.aggregate) with
  | none => rfl
  | some raw =>
    obtain ⟨n, hn, rfl⟩ := hcurs raw hraw
    have hlt : n < 2 ^ 64 := lt_of_le_of_lt hn h.seq_lt
    simp [length_toLeBytes, fromLeBytes_toLeBytes hlt, if_neg (Nat.not_lt.2 hn)]

end

/-! ## The order of batches -/

/-- Of two batches of one aggregate, the first one has the smaller sequence. -/
def Before (key later : SnapshotKey) : Prop := key.aggregate = later.aggregate → key.seq < later.seq

/-- The timelocks of an event's older batches do not expire before those that wait already. -/
def Timely (delay : ℕ → ℕ) (now : ℕ) (e : Event) (s : State κ) : Prop :=
  (∃ batch ∈ s.batches, batch.isOlder e) → ∀ lock ∈ s.timelocks ++ s.starts,
    lock.key.aggregate = e.aggregate → lock.expiry ≤ now + delay e.aggregate

/-- The keys that are waiting for their flush, in the order in which they will be flushed. -/
def line (s : State κ) : List SnapshotKey :=
  s.flushes ++ (s.timelocks.map Timelock.key ++ s.starts.map Timelock.key)

/-- Everything happens in the order of the sequences. -/
structure Lined (s : State κ) : Prop where
  ordered : (line s).Pairwise Before
  sorted : s.timelocks.Pairwise fun lock later => lock.rank ≤ later.rank
  expiry : ∀ lock ∈ s.timelocks ++ s.starts, ∀ later ∈ s.timelocks ++ s.starts,
    lock.key.aggregate = later.key.aggregate → lock.key.seq < later.key.seq →
      lock.expiry ≤ later.expiry
  batches : (s.batches.map PendingBatch.key).Pairwise Before
  scheduled : ∀ batch ∈ s.batches, batch.scheduled = true → batch.key ∈ line s
  unscheduled : ∀ batch ∈ s.batches, batch.scheduled = false → ∀ key ∈ line s, Before key batch.key
  writes : (s.writes.map Write.key).Pairwise Before
  writes_batches : ∀ write ∈ s.writes, ∀ batch ∈ s.batches, Before write.key batch.key
  line_delivered : ∀ key ∈ line s, key ∈ s.delivered
  batches_delivered : ∀ batch ∈ s.batches, batch.key ∈ s.delivered
  writes_delivered : ∀ write ∈ s.writes, write.key ∈ s.delivered

/-- Every batch is applied, and nothing of what was admitted is lost. -/
structure Kept (s : State κ) : Prop where
  batches : ∀ batch ∈ s.batches, BatchOf batch.key batch.inserts
  applied : ∀ write ∈ s.writes, write.outcome = .applied
  cursor : ∀ a, s.tree (.aggregateSeq a) =
    (s.writes.filter (·.key.aggregate = a)).getLast?.map fun write => toLeBytes 8 write.key.seq
  bounded : ∀ write ∈ s.writes, write.key.seq < 2 ^ 64
  admitted : ∀ insert ∈ s.admitted, ∃ key, insert.ctx = some key ∧
    ((∃ batch ∈ s.batches, batch.key = key ∧ insert ∈ batch.inserts) ∨
      ∃ write ∈ s.writes, write.key = key ∧ insert ∈ write.inserts)

section

variable {s : State κ}

lemma forall_mem_snoc {α : Type} {l : List α} {a : α} {P : α → Prop} :
    (∀ x ∈ l ++ [a], P x) ↔ (∀ x ∈ l, P x) ∧ P a := by
  simp [or_imp, forall_and]

lemma Before.ne (h : Before key later) : key ≠ later := by
  rintro rfl
  exact Nat.lt_irrefl _ (h rfl)

lemma lined_init : Lined (State.init : State κ) := by
  constructor <;> simp [State.init, line]

lemma kept_init : Kept (State.init : State κ) := by
  constructor <;> simp [State.init]

/-! ### Events -/

lemma mem_line_schedule : key ∈ line (scheduleOlderBatches s delay now e) ↔
      key ∈ line s ∨ ∃ batch ∈ s.batches, batch.isOlder e ∧ batch.key = key := by
  simp [line, scheduleOlderBatches, or_assoc, and_assoc]

lemma isOlder_iff {e : Event} {batch : PendingBatch κ} : batch.isOlder e = true ↔
    batch.key.aggregate = e.aggregate ∧ batch.key.seq < e.seq ∧ batch.scheduled = false := by
  simp [PendingBatch.isOlder, and_assoc]

/-- The batches with their marks: the keys and the contents stay, and an unscheduled one is left only
if the event does not schedule it. -/
lemma mem_schedule (h : batch ∈ (scheduleOlderBatches s delay now e).batches) :
    ∃ old ∈ s.batches, batch.key = old.key ∧ batch.inserts = old.inserts ∧
      (batch.scheduled = true → old.scheduled = true ∨ old.isOlder e = true) ∧
      (batch.scheduled = false → old.scheduled = false ∧ old.isOlder e = false) := by
  obtain ⟨old, hold, rfl⟩ := mem_map.1 h
  refine ⟨old, hold, ?_⟩
  by_cases holder : old.isOlder e = true
  · simp [holder]
  · simp [holder]

lemma Lined.schedule (h : Lined s) {delay : ℕ → ℕ} {now : ℕ} {e : Event}
    (htimely : Timely delay now e s)
    (hincr : ∀ batch ∈ s.batches, batch.key.aggregate = e.aggregate → batch.key.seq < e.seq) :
    Lined (scheduleOlderBatches s delay now e) where
  ordered := by
    have hline : line (scheduleOlderBatches s delay now e) =
        line s ++ (s.batches.filter (·.isOlder e)).map PendingBatch.key := by
      simp [line, scheduleOlderBatches, comp_def]
    rw [hline]
    refine pairwise_append.2 ⟨h.ordered, h.batches.sublist (filter_sublist.map _), ?_⟩
    intro key hkey later hlater
    obtain ⟨batch, hbatch, rfl⟩ := mem_map.1 hlater
    obtain ⟨hmem, holder⟩ := mem_filter.1 hbatch
    exact h.unscheduled batch hmem (isOlder_iff.1 holder).2.2 key hkey
  sorted := h.sorted
  expiry := by
    -- A new timelock expires last, and it has the greatest sequence.
    have hnew : ∀ lock ∈ (s.batches.filter (·.isOlder e)).map
        (fun batch => (⟨now + delay e.aggregate, batch.key⟩ : Timelock)),
        lock.expiry = now + delay e.aggregate ∧ ∃ batch ∈ s.batches, batch.isOlder e ∧
          batch.key = lock.key := by
      intro lock hlock
      obtain ⟨batch, hbatch, rfl⟩ := mem_map.1 hlock
      exact ⟨rfl, batch, (mem_filter.1 hbatch).1, (mem_filter.1 hbatch).2, rfl⟩
    have hwait : ∀ lock ∈ s.timelocks ++ s.starts, lock.key ∈ line s := by
      intro lock hlock
      refine mem_append_right _ ?_
      rw [← map_append]
      exact mem_map_of_mem hlock
    intro lock hlock later hlater hagg hseq
    simp only [scheduleOlderBatches, ← append_assoc] at hlock hlater
    rcases mem_append.1 hlock with hlock | hlock <;> rcases mem_append.1 hlater with hlater | hlater
    · exact h.expiry lock hlock later hlater hagg hseq
    · obtain ⟨hexp, batch, hbatch, holder, hkey⟩ := hnew later hlater
      rw [hexp]
      refine htimely ⟨batch, hbatch, holder⟩ lock hlock ?_
      rw [hagg, ← hkey, (isOlder_iff.1 holder).1]
    · obtain ⟨-, batch, hbatch, holder, hkey⟩ := hnew lock hlock
      have hbef := h.unscheduled batch hbatch (isOlder_iff.1 holder).2.2 _ (hwait later hlater)
      rw [hkey] at hbef
      exact absurd (hbef hagg.symm) (Nat.not_lt.2 hseq.le)
    · rw [(hnew lock hlock).1, (hnew later hlater).1]
  batches := by
    have hkeys : (scheduleOlderBatches s delay now e).batches.map PendingBatch.key =
        s.batches.map PendingBatch.key := by
      simp only [scheduleOlderBatches, map_map]
      refine map_congr_left fun batch _ => ?_
      simp only [comp]
      split_ifs <;> rfl
    rw [hkeys]
    exact h.batches
  scheduled := by
    intro batch hbatch hsched
    obtain ⟨old, hold, hkey, -, hmark, -⟩ := mem_schedule hbatch
    rw [hkey, mem_line_schedule]
    rcases hmark hsched with hold' | holder
    · exact .inl (h.scheduled old hold hold')
    · exact .inr ⟨old, hold, holder, rfl⟩
  unscheduled := by
    intro batch hbatch hsched key hkey
    obtain ⟨old, hold, hkey', -, -, hmark⟩ := mem_schedule hbatch
    obtain ⟨hunsc, holder⟩ := hmark hsched
    rw [hkey']
    rcases mem_line_schedule.1 hkey with hkey | ⟨other, -, hother, rfl⟩
    · exact h.unscheduled old hold hunsc key hkey
    · intro hagg
      have hsame : old.key.aggregate = e.aggregate := hagg ▸ (isOlder_iff.1 hother).1
      have holds := isOlder_iff.2 ⟨hsame, hincr old hold hsame, hunsc⟩
      rw [holder] at holds
      cases holds
  writes := h.writes
  writes_batches write hwrite batch hbatch := by
    obtain ⟨old, hold, hkey, -⟩ := mem_schedule hbatch
    exact hkey ▸ h.writes_batches write hwrite old hold
  line_delivered := by
    intro key hkey
    rcases mem_line_schedule.1 hkey with hkey | ⟨batch, hbatch, -, rfl⟩
    · exact h.line_delivered key hkey
    · exact h.batches_delivered batch hbatch
  batches_delivered batch hbatch := by
    obtain ⟨old, hold, hkey, -⟩ := mem_schedule hbatch
    exact hkey ▸ h.batches_delivered old hold
  writes_delivered := h.writes_delivered

lemma Lined.deliver (h : Lined s) (key : SnapshotKey) :
    Lined { s with delivered := s.delivered ++ [key] } :=
  { h with
    line_delivered := fun k hk => mem_append_left _ (h.line_delivered k hk)
    batches_delivered := fun b hb => mem_append_left _ (h.batches_delivered b hb)
    writes_delivered := fun w hw => mem_append_left _ (h.writes_delivered w hw) }

/-- A batch is opened for a new event. -/
lemma Lined.openBatch (h : Lined s) {key : SnapshotKey} {inserts : List (Insert κ)}
    {seen : ℕ → Option ℕ} (hfresh : ∀ old ∈ s.delivered, Before old key) : Lined { s with
      batches := s.batches ++ [⟨key, inserts, false⟩]
      blockHeightSeen := seen
      delivered := s.delivered ++ [key] } :=
  { h.deliver key with
    batches := by
      rw [map_append]
      refine pairwise_append.2 ⟨h.batches, pairwise_singleton _ _, ?_⟩
      intro old hold new hnew
      obtain ⟨batch, hbatch, rfl⟩ := mem_map.1 hold
      rw [map_singleton, mem_singleton] at hnew
      subst hnew
      exact hfresh _ (h.batches_delivered batch hbatch)
    scheduled := forall_mem_snoc.2 ⟨h.scheduled, fun hsched => nomatch hsched⟩
    unscheduled := forall_mem_snoc.2
      ⟨h.unscheduled, fun _ old hold => hfresh old (h.line_delivered old hold)⟩
    writes_batches := fun write hwrite => forall_mem_snoc.2
      ⟨h.writes_batches write hwrite, hfresh _ (h.writes_delivered write hwrite)⟩
    batches_delivered := forall_mem_snoc.2 ⟨(h.deliver key).batches_delivered, by simp⟩ }

lemma Kept.schedule (h : Kept s) : Kept (scheduleOlderBatches s delay now e) :=
  { h with
    batches := by
      intro batch hbatch
      obtain ⟨old, hold, hkey, hinss, -⟩ := mem_schedule hbatch
      rw [hkey, hinss]
      exact h.batches old hold
    admitted := by
      intro insert hins
      obtain ⟨key, hctx, hwhere⟩ := h.admitted insert hins
      refine ⟨key, hctx, hwhere.imp_left ?_⟩
      rintro ⟨batch, hbatch, hkey, hmem⟩
      refine ⟨if batch.isOlder e then { batch with scheduled := true } else batch,
        mem_map_of_mem hbatch, ?_⟩
      split_ifs <;> exact ⟨hkey, hmem⟩ }

lemma Kept.openBatch (h : Kept s) (hbatch : BatchOf key inserts) : Kept { s with
      batches := s.batches ++ [⟨key, inserts, false⟩]
      blockHeightSeen := seen
      delivered } :=
  { h with
    batches := forall_mem_snoc.2 ⟨h.batches, hbatch⟩
    admitted := by
      intro insert hins
      obtain ⟨key, hctx, hwhere⟩ := h.admitted insert hins
      refine ⟨key, hctx, hwhere.imp_left ?_⟩
      rintro ⟨batch, hmem, hkey⟩
      exact ⟨batch, mem_append_left _ hmem, hkey⟩ }

lemma batchOf_metadata (hseq : e.seq < 2 ^ 64) (block : ℕ) :
    BatchOf e.key (metadata e block : List (Insert κ)) := by
  refine ⟨hseq, _, rfl, ?_⟩
  intro insert hins
  simp only [mem_cons, not_mem_nil, or_false] at hins
  rcases hins with rfl | rfl
  · exact ⟨rfl, fun a heq => (nomatch heq)⟩
  · exact ⟨rfl, fun a heq => (nomatch heq)⟩

lemma event_spec (h : Lined s) (hkept : Kept s) (hseq : e.seq < 2 ^ 64)
    (hincr : ∀ key ∈ s.delivered, key.aggregate = e.aggregate → key.seq < e.seq)
    (htimely : Timely delay now e s) :
    Lined (handleEvent s delay now e) ∧ Kept (handleEvent s delay now e) := by
  unfold handleEvent
  by_cases hshut : e.shutdown = true
  · simp only [hshut, if_true]
    exact ⟨h.deliver e.key, { hkept with }⟩
  · simp only [hshut]
    have hlined := h.schedule htimely fun batch hbatch =>
      hincr _ (h.batches_delivered batch hbatch)
    have hfresh : ∀ old ∈ s.delivered, Before old e.key := hincr
    have hclos : ¬(scheduleOlderBatches { s with delivered := s.delivered ++ [e.key] } delay now
        e).batches.any (·.key = e.key) = true := by
      simp only [any_eq_true, decide_eq_true_eq, not_exists, not_and]
      exact fun batch hbatch => (hfresh _ (hlined.batches_delivered batch hbatch)).ne
    rw [if_neg hclos]
    exact ⟨hlined.openBatch hfresh, hkept.schedule.openBatch (batchOf_metadata hseq _)⟩

/-! ### The queue -/

lemma pushTimelock_eq (lock : Timelock) (locks : List Timelock) : pushTimelock lock locks =
    locks.orderedInsert (fun lock later => lock.rank ≤ later.rank) lock := by
  induction locks with
  | nil => rfl
  | cons head locks ih => simp only [pushTimelock, orderedInsert_cons, ih]

lemma perm_pushTimelock (lock : Timelock) (locks : List Timelock) :
    (pushTimelock lock locks).Perm (lock :: locks) :=
  pushTimelock_eq lock locks ▸ perm_orderedInsert ..

lemma mem_pushTimelock : other ∈ pushTimelock lock locks ↔ other = lock ∨ other ∈ locks := by
  rw [(perm_pushTimelock lock locks).mem_iff, mem_cons]

lemma sorted_pushTimelock {lock : Timelock} {locks : List Timelock}
    (h : locks.Pairwise fun lock later => lock.rank ≤ later.rank) :
    (pushTimelock lock locks).Pairwise fun lock later => lock.rank ≤ later.rank :=
  pushTimelock_eq lock locks ▸ h.orderedInsert ..

lemma Timelock.rank_le_iff {lock later : Timelock} : lock.rank ≤ later.rank ↔
    lock.expiry < later.expiry ∨ lock.expiry = later.expiry ∧
      (lock.key.aggregate < later.key.aggregate ∨
        lock.key.aggregate = later.key.aggregate ∧ lock.key.seq ≤ later.key.seq) := by
  unfold Timelock.rank
  rw [Prod.Lex.toLex_le_toLex, Prod.Lex.toLex_le_toLex]

/-- Among timelocks whose expiries follow the sequences, the order of the heap is that of the
sequences. -/
lemma pairwise_before_of_sorted {locks : List Timelock}
    (hsort : locks.Pairwise fun lock later => lock.rank ≤ later.rank)
    (hnodup : (locks.map Timelock.key).Nodup)
    (hexp : ∀ lock ∈ locks, ∀ later ∈ locks, lock.key.aggregate = later.key.aggregate →
      lock.key.seq < later.key.seq → lock.expiry ≤ later.expiry) :
    (locks.map Timelock.key).Pairwise Before := by
  induction locks with
  | nil => exact List.Pairwise.nil
  | cons lock locks ih =>
    obtain ⟨hlock, hrest⟩ := pairwise_cons.1 hsort
    obtain ⟨hfresh, hnodup⟩ := nodup_cons.1 hnodup
    refine pairwise_cons.2 ⟨?_, ih hrest hnodup fun x hx y hy =>
      hexp x (mem_cons_of_mem _ hx) y (mem_cons_of_mem _ hy)⟩
    intro key hkey hagg
    obtain ⟨later, hlater, rfl⟩ := mem_map.1 hkey
    have hle := Timelock.rank_le_iff.1 (hlock later hlater)
    have hne : lock.key.seq ≠ later.key.seq := by
      intro hseq
      have hsame : lock.key = later.key := by
        obtain ⟨_, _, _⟩ := lock
        obtain ⟨_, _, _⟩ := later
        simp_all
      exact hfresh (hsame ▸ hkey)
    have hback := hexp later (mem_cons_of_mem _ hlater) lock mem_cons_self hagg.symm
    omega

lemma Lined.start (h : Lined s) : Lined (handleStart s) := by
  unfold handleStart
  cases hstar : s.starts with
  | nil => exact h
  | cons lock starts =>
    have hord := h.ordered
    have hexp := h.expiry
    have hmem : ∀ key, key ∈ line { s with starts, timelocks := pushTimelock lock s.timelocks } ↔
        key ∈ line s := by
      intro key
      simp only [line, hstar, mem_append, mem_map, mem_pushTimelock, map_cons, mem_cons]
      grind
    have hwait : ∀ other, other ∈ pushTimelock lock s.timelocks ++ starts →
        other ∈ s.timelocks ++ s.starts := by
      intro other
      simp only [hstar, mem_append, mem_pushTimelock, mem_cons]
      grind
    have hsort := @sorted_pushTimelock lock _ h.sorted
    simp only [line, hstar, map_cons] at hord
    obtain ⟨hflus, hrest, hcross⟩ := pairwise_append.1 hord
    obtain ⟨htimel, hstart, hcross'⟩ := pairwise_append.1 hrest
    obtain ⟨hlock, hstart⟩ := pairwise_cons.1 hstart
    have hkeys : ((pushTimelock lock s.timelocks).map Timelock.key).Perm
        (s.timelocks.map Timelock.key ++ [lock.key]) :=
      ((perm_pushTimelock lock s.timelocks).map _).trans (perm_append_singleton _ _).symm
    have hnodup : ((pushTimelock lock s.timelocks).map Timelock.key).Nodup := by
      refine hkeys.nodup_iff.2 ((hrest.imp Before.ne).sublist ?_)
      exact List.Sublist.append_left (cons_sublist_cons.2 (nil_sublist _)) _
    refine { h with
      sorted := hsort
      ordered := pairwise_append.2 ⟨hflus, pairwise_append.2 ⟨?_, hstart, ?_⟩, ?_⟩
      expiry := fun x hx y hy => hexp x (hwait x hx) y (hwait y hy)
      scheduled := fun b hb hs => (hmem _).2 (h.scheduled b hb hs)
      unscheduled := fun b hb hs key hkey => h.unscheduled b hb hs key ((hmem key).1 hkey)
      line_delivered := fun key hkey => h.line_delivered key ((hmem key).1 hkey) }
    · refine pairwise_before_of_sorted hsort hnodup fun x hx y hy => ?_
      exact hexp x (hwait x (mem_append_left _ hx)) y (hwait y (mem_append_left _ hy))
    · simp only [hkeys.mem_iff]
      exact forall_mem_snoc.2 ⟨fun key hkey later hlater =>
        hcross' key hkey later (mem_cons_of_mem _ hlater), hlock⟩
    · intro key hkey later hlater
      refine hcross key hkey later ?_
      simp only [mem_append, hkeys.mem_iff, mem_cons, not_mem_nil] at hlater ⊢
      grind

/-- Ticks move keys on along the line. -/
lemma line_tick (s : State κ) (now : ℕ) : line (handleTick s now) = line s := by
  simp only [line, handleTick]
  rw [append_assoc, ← append_assoc (map _ _), ← map_append, takeWhile_append_dropWhile]

lemma Lined.tick (h : Lined s) (now : ℕ) : Lined (handleTick s now) := by
  have hsub : ∀ lock, lock ∈ (handleTick s now).timelocks ++ (handleTick s now).starts →
      lock ∈ s.timelocks ++ s.starts := by
    intro lock hlock
    rcases mem_append.1 hlock with hlock | hlock
    · exact mem_append_left _ ((dropWhile_sublist _).subset hlock)
    · exact mem_append_right _ hlock
  exact { h with
    ordered := by rw [line_tick]; exact h.ordered
    sorted := h.sorted.sublist (dropWhile_sublist _)
    expiry := fun x hx y hy => h.expiry x (hsub x hx) y (hsub y hy)
    scheduled := by rw [line_tick]; exact h.scheduled
    unscheduled := by rw [line_tick]; exact h.unscheduled
    line_delivered := by rw [line_tick]; exact h.line_delivered }

lemma Kept.queue (h : Kept s) (now : ℕ) : Kept (handleStart s) ∧ Kept (handleTick s now) := by
  refine ⟨?_, { h with }⟩
  unfold handleStart
  split
  · exact h
  · exact { h with }

/-! ### Inserts and flushes -/

/-- Only the contents of the batches change. -/
lemma Lined.contents (h : Lined s)
    (hf : ∀ batch, (f batch).key = batch.key ∧ (f batch).scheduled = batch.scheduled) :
    Lined { s with batches := s.batches.map f, admitted } :=
  { h with
    batches := by
      rw [map_map, show PendingBatch.key ∘ f = PendingBatch.key from funext fun b => (hf b).1]
      exact h.batches
    scheduled := by
      simp only [forall_mem_map, hf]
      exact h.scheduled
    unscheduled := by
      simp only [forall_mem_map, hf]
      exact h.unscheduled
    writes_batches := by simpa only [forall_mem_map, hf] using h.writes_batches
    batches_delivered := by simpa only [forall_mem_map, hf] using h.batches_delivered }

/-- A flush leaves the line when its batch is not open any more. -/
lemma Lined.pop (h : Lined s) (hflus : s.flushes = key :: flushes)
    (hclos : ∀ batch ∈ s.batches, batch.key ≠ key) : Lined { s with flushes } := by
  have hline : line s = key :: line { s with flushes } := by simp [line, hflus]
  have hsub : ∀ k, k ∈ line { s with flushes } → k ∈ line s := by
    intro k hk
    rw [hline]
    exact mem_cons_of_mem _ hk
  have hord := h.ordered
  rw [hline] at hord
  refine { h with
    ordered := (pairwise_cons.1 hord).2
    scheduled := fun b hb hs => ?_
    unscheduled := fun b hb hs k hk => h.unscheduled b hb hs k (hsub k hk)
    line_delivered := fun k hk => h.line_delivered k (hsub k hk) }
  have hmem := h.scheduled b hb hs
  rw [hline] at hmem
  exact (mem_cons.1 hmem).resolve_left (hclos b hb)

/-- The stored cursor is the sequence of the last write. -/
lemma Kept.storedSeq_eq (h : Kept s) (a : ℕ) :
    storedSeq s a = (s.writes.filter (·.key.aggregate = a)).getLast?.map (·.key.seq) := by
  unfold storedSeq
  rw [h.cursor, Option.map_map]
  cases hlast : (s.writes.filter (·.key.aggregate = a)).getLast? with
  | none => rfl
  | some write =>
    have hmem := mem_of_mem_filter (mem_of_getLast? hlast)
    simp [fromLeBytes_toLeBytes (h.bounded write hmem)]

lemma storedSeq_mono (hkept : Kept s) (h' : Lined s') (hkept' : Kept s')
    (hext : s.writes <+: s'.writes) (hn : storedSeq s a = some n) :
    ∃ m, storedSeq s' a = some m ∧ n ≤ m := by
  obtain ⟨more, hmore⟩ := hext
  rw [hkept.storedSeq_eq, Option.map_eq_some_iff] at hn
  obtain ⟨last, hlast, rfl⟩ := hn
  rw [hkept'.storedSeq_eq, ← hmore, filter_append, getLast?_append]
  cases hnew : (more.filter (·.key.aggregate = a)).getLast? with
  | none => exact ⟨_, by simp [hlast], Nat.le_refl _⟩
  | some write =>
    refine ⟨write.key.seq, by simp, ?_⟩
    obtain ⟨hold, hsame⟩ := mem_filter.1 (mem_of_getLast? hlast)
    obtain ⟨hmem, hsame'⟩ := mem_filter.1 (mem_of_getLast? hnew)
    have hwr := h'.writes
    rw [← hmore, map_append] at hwr
    have hbef := (pairwise_append.1 hwr).2.2 _ (mem_map_of_mem hold) _ (mem_map_of_mem hmem)
    exact (hbef ((of_decide_eq_true hsame).trans (of_decide_eq_true hsame').symm)).le

variable [DecidableEq κ]

/-- An insert changes what is in a batch and nothing else about it. -/
lemma insert_spec (h : Lined s) (hkept : Kept s) {key : SnapshotKey}
    (hopen : ∃ batch ∈ s.batches, batch.key = key) :
    Lined (handleInsert s key ⟨.state name, value, some key⟩) ∧
      Kept (handleInsert s key ⟨.state name, value, some key⟩) := by
  have hany : s.batches.any (·.key = key) = true := by simpa using hopen
  unfold handleInsert
  rw [if_pos hany]
  set insert : Insert κ := ⟨.state name, value, some key⟩
  set add : PendingBatch κ → PendingBatch κ := fun batch =>
    if batch.key = key then { batch with inserts := batch.inserts ++ [insert] } else batch with hadd
  have hsame : ∀ batch, (add batch).key = batch.key ∧ (add batch).scheduled = batch.scheduled := by
    intro batch
    simp only [hadd]
    split_ifs <;> exact ⟨rfl, rfl⟩
  have hinss : ∀ batch i, i ∈ batch.inserts → i ∈ (add batch).inserts := by
    intro batch i hi
    simp only [hadd]
    split_ifs
    · exact mem_append_left _ hi
    · exact hi
  constructor
  · exact h.contents hsame
  · exact { hkept with
      batches := by
        intro batch hbatch
        obtain ⟨old, hold, rfl⟩ := mem_map.1 hbatch
        rw [(hsame old).1]
        have hof := hkept.batches old hold
        simp only [hadd]
        split_ifs with heq
        · obtain ⟨rest, hrest, hoth⟩ := hof.writes
          refine ⟨hof.seq_lt, rest ++ [insert], by rw [hrest, cons_append], ?_⟩
          exact forall_mem_snoc.2 ⟨hoth, by rw [heq], fun a hk => (nomatch hk)⟩
        · exact hof
      admitted := by
        refine forall_mem_snoc.2 ⟨fun i hi => ?_, ?_⟩
        · obtain ⟨k, hctx, hwhere⟩ := hkept.admitted i hi
          refine ⟨k, hctx, hwhere.imp_left ?_⟩
          rintro ⟨batch, hbatch, hk, hmem⟩
          exact ⟨add batch, mem_map_of_mem hbatch, (hsame batch).1.trans hk, hinss batch i hmem⟩
        · obtain ⟨batch, hbatch, hk⟩ := hopen
          refine ⟨key, rfl, .inl ⟨add batch, mem_map_of_mem hbatch, (hsame batch).1.trans hk, ?_⟩⟩
          simp only [hadd, if_pos hk]
          exact mem_append_right _ mem_cons_self }

/-- The state after a batch was applied. -/
def flushed (s : State κ) (batch : PendingBatch κ) : State κ :=
  { s with
    batches := s.batches.filter (·.key ≠ batch.key)
    tree := writeAll s.tree batch.inserts
    writes := s.writes ++ [⟨batch.key, batch.inserts, .applied⟩] }

/-- The store applies an open batch. -/
lemma flushBatch_eq (h : Lined s) (hkept : Kept s) (hbatch : batch ∈ s.batches)
    (batches : List (PendingBatch κ)) (flushes : List SnapshotKey) :
    flushBatch { s with batches, flushes } batch = { flushed s batch with batches, flushes } := by
  have hof := hkept.batches batch hbatch
  have hne : batch.inserts.isEmpty = false := by
    obtain ⟨rest, hrest, -⟩ := hof.writes
    rw [hrest]
    rfl
  unfold flushBatch commit
  rw [hne]
  simp only [Bool.false_eq_true, if_false]
  rw [hof.insertBatch_eq]
  · rfl
  · intro raw hraw
    rw [hkept.cursor, Option.map_eq_some_iff] at hraw
    obtain ⟨write, hwrite, rfl⟩ := hraw
    obtain ⟨hmem, hagg⟩ := mem_filter.1 (mem_of_getLast? hwrite)
    have hbef := h.writes_batches write hmem batch hbatch
    exact ⟨_, (hbef (of_decide_eq_true hagg)).le, rfl⟩

lemma Lined.flushed (h : Lined s) {batch : PendingBatch κ} (hbatch : batch ∈ s.batches)
    (hfirst : ∀ other ∈ s.batches, other.key ≠ batch.key → Before batch.key other.key) :
    Lined (flushed s batch) := by
  have hopen : ∀ other ∈ (SnapshotBuffer.flushed s batch).batches,
      other ∈ s.batches ∧ other.key ≠ batch.key := by
    intro other hother
    obtain ⟨hmem, hne⟩ := mem_filter.1 hother
    exact ⟨hmem, of_decide_eq_true hne⟩
  refine { h with
    batches := h.batches.sublist (filter_sublist.map _)
    scheduled := fun b hb => h.scheduled b (hopen b hb).1
    unscheduled := fun b hb => h.unscheduled b (hopen b hb).1
    writes := ?_
    writes_batches := ?_
    batches_delivered := fun b hb => h.batches_delivered b (hopen b hb).1
    writes_delivered := ?_ }
  · simp only [SnapshotBuffer.flushed, map_append]
    refine pairwise_append.2 ⟨h.writes, pairwise_singleton _ _, ?_⟩
    intro key hkey later hlater
    obtain ⟨write, hwrite, rfl⟩ := mem_map.1 hkey
    rw [map_singleton, mem_singleton] at hlater
    subst hlater
    exact h.writes_batches write hwrite batch hbatch
  · refine forall_mem_snoc.2 ⟨fun write hwrite other hother => ?_, fun other hother => ?_⟩
    · exact h.writes_batches write hwrite other (hopen other hother).1
    · exact hfirst other (hopen other hother).1 (hopen other hother).2
  · exact forall_mem_snoc.2 ⟨h.writes_delivered, h.batches_delivered batch hbatch⟩

lemma Kept.flushed (hkept : Kept s) (h : Lined s) (hbatch : batch ∈ s.batches) :
    Kept (flushed s batch) where
  batches other hother := hkept.batches other (mem_of_mem_filter hother)
  applied := forall_mem_snoc.2 ⟨hkept.applied, rfl⟩
  cursor := by
    intro a
    simp only [SnapshotBuffer.flushed, (hkept.batches batch hbatch).writeAll_cursor, hkept.cursor,
      filter_append]
    by_cases ha : a = batch.key.aggregate
    · simp [ha]
    · simp [ha, Ne.symm ha]
  bounded := forall_mem_snoc.2 ⟨hkept.bounded, (hkept.batches batch hbatch).seq_lt⟩
  admitted := by
    intro insert hins
    obtain ⟨key, hctx, ⟨open', hopen, hkey, hmem⟩ | ⟨write, hwrite, hkey⟩⟩ :=
      hkept.admitted insert hins
    · refine ⟨key, hctx, ?_⟩
      by_cases hsame : open'.key = batch.key
      · -- The keys of open batches are distinct.
        have heq : open' = batch :=
          inj_on_of_nodup_map (h.batches.imp Before.ne) hopen hbatch hsame
        subst heq
        exact .inr ⟨_, mem_append_right _ mem_cons_self, hkey, hmem⟩
      · exact .inl ⟨open', mem_filter.2 ⟨hopen, decide_eq_true hsame⟩, hkey, hmem⟩
    · exact ⟨key, hctx, .inr ⟨write, mem_append_left _ hwrite, hkey⟩⟩

/-- The next flush is for the first open batch of its aggregate. -/
lemma flush_spec (h : Lined s) (hkept : Kept s) : Lined (handleFlush s) ∧ Kept (handleFlush s) := by
  unfold handleFlush
  split
  · exact ⟨h, hkept⟩
  · rename_i key flushes hflus
    split
    · rename_i hnone
      refine ⟨h.pop hflus fun batch hbatch heq => ?_, { hkept with }⟩
      exact absurd (decide_eq_true heq) (find?_eq_none.1 hnone batch hbatch)
    · rename_i batch hfind
      have hbatch := mem_of_find?_eq_some hfind
      have hkey : batch.key = key := by simpa using find?_some hfind
      subst hkey
      have hline : line s = batch.key :: line { s with flushes } := by simp [line, hflus]
      have hfirst : ∀ other ∈ s.batches, other.key ≠ batch.key → Before batch.key other.key := by
        intro other hother hne
        cases hsched : other.scheduled with
        | true =>
          have hmem := h.scheduled other hother hsched
          have hord := h.ordered
          rw [hline] at hmem hord
          exact (pairwise_cons.1 hord).1 _ ((mem_cons.1 hmem).resolve_left hne)
        | false =>
          refine h.unscheduled other hother hsched _ ?_
          rw [hline]
          exact mem_cons_self
      rw [flushBatch_eq h hkept hbatch]
      refine ⟨(h.flushed hbatch hfirst).pop hflus fun other hother => ?_,
        { hkept.flushed h hbatch with }⟩
      exact of_decide_eq_true (mem_filter.1 hother).2

/-- The drain flushes the batches in their order. -/
lemma flushPending_spec (h : Lined s) (hkept : Kept s) :
    Lined (flushPendingSnapshots s) ∧ Kept (flushPendingSnapshots s) := by
  unfold flushPendingSnapshots
  induction hbats : s.batches generalizing s with
  | nil =>
    have hsame : ({ s with batches := [] } : State κ) = s := by rw [← hbats]
    rw [foldl_nil, hsame]
    exact ⟨h, hkept⟩
  | cons batch batches ih =>
    have hbatch : batch ∈ s.batches := by rw [hbats]; exact mem_cons_self
    have hord := h.batches
    rw [hbats, map_cons] at hord
    have hlater : ∀ other ∈ batches, Before batch.key other.key := fun other hother =>
      (pairwise_cons.1 hord).1 _ (mem_map_of_mem hother)
    have hfirst : ∀ other ∈ s.batches, other.key ≠ batch.key → Before batch.key other.key := by
      intro other hother hne
      rw [hbats] at hother
      rcases mem_cons.1 hother with rfl | hother
      · exact absurd rfl hne
      · exact hlater other hother
    have hrest : (flushed s batch).batches = batches := by
      simp only [flushed, hbats]
      rw [filter_cons_of_neg (by simp), filter_eq_self.2]
      exact fun other hother => decide_eq_true (hlater other hother).ne.symm
    have hflush := flushBatch_eq h hkept hbatch [] s.flushes
    rw [foldl_cons]
    refine (congrArg (fun t => Lined (batches.foldl flushBatch t) ∧ Kept (batches.foldl flushBatch t))
      hflush).mpr ?_
    exact ih (h.flushed hbatch hfirst) (hkept.flushed h hbatch) hrest

/-! ### Runs -/

lemma Step.kept (hstep : Step (Timely delay) delay s s') (h : Lined s) (hkept : Kept s) :
    Lined s' ∧ Kept s' := by
  cases hstep with
  | event now e hseq hincr hclock => exact event_spec h hkept hseq hincr hclock
  | insert key name value hopen => exact insert_spec h hkept hopen
  | start => exact ⟨h.start, (hkept.queue 0).1⟩
  | tick now => exact ⟨h.tick now, (hkept.queue now).2⟩
  | flush => exact flush_spec h hkept
  | flushPending => exact flushPending_spec h hkept

lemma Reachable.kept (h : Reachable (Timely delay) delay s) : Lined s ∧ Kept s := by
  induction h with
  | init => exact ⟨lined_init, kept_init⟩
  | step _ hstep ih => exact hstep.kept ih.1 ih.2

lemma commit_writes (s : State κ) (key : SnapshotKey) (inserts : List (Insert κ)) :
    s.writes <+: (commit s key inserts).writes := by
  unfold commit
  split <;> exact prefix_append _ _

lemma flushBatch_writes (s : State κ) (batch : PendingBatch κ) :
    s.writes <+: (flushBatch s batch).writes := by
  unfold flushBatch
  split_ifs
  · exact prefix_rfl
  · exact commit_writes s _ _

lemma foldl_flushBatch_writes (batches : List (PendingBatch κ)) (s : State κ) :
    s.writes <+: (batches.foldl flushBatch s).writes := by
  induction batches generalizing s with
  | nil => exact prefix_rfl
  | cons batch batches ih => exact (flushBatch_writes s batch).trans (ih _)

/-- Writes are only added. -/
lemma Step.writes_prefix (hstep : Step allowed delay s s') : s.writes <+: s'.writes := by
  cases hstep with
  | event now e =>
    unfold handleEvent
    dsimp only
    split_ifs <;> exact prefix_rfl
  | insert key name value hopen =>
    unfold handleInsert
    split_ifs
    · exact prefix_rfl
    · exact commit_writes s _ _
  | start =>
    unfold handleStart
    split <;> exact prefix_rfl
  | tick now => exact prefix_rfl
  | flush =>
    unfold handleFlush
    split
    · exact prefix_rfl
    · rename_i key flushes _
      split
      · exact prefix_rfl
      · exact flushBatch_writes { s with flushes, batches := s.batches.filter (·.key ≠ key) } _
  | flushPending => exact foldl_flushBatch_writes s.batches { s with batches := [] }

/-- As long as no event starts timelocks that expire before waiting ones of its aggregate, batches
reach the store in the order of their sequences, none is rejected, the stored cursor does not go
back, and it has passed an event only if everything admitted for the event was applied. -/
theorem timely_snapshots_kept (delay : ℕ → ℕ) (h : Reachable (Timely delay) delay s) :
    (s.writes.map Write.key).Pairwise Before ∧
    (∀ write ∈ s.writes, write.outcome = .applied) ∧
    (∀ a n, storedSeq s a = some n → ∀ insert ∈ s.admitted, ∀ key, insert.ctx = some key →
      key.aggregate = a → key.seq ≤ n →
      ∃ write ∈ s.writes, write.key = key ∧ write.outcome = .applied ∧ insert ∈ write.inserts) ∧
    ∀ s', Step (Timely delay) delay s s' → ∀ a n, storedSeq s a = some n →
      ∃ m, storedSeq s' a = some m ∧ n ≤ m := by
  obtain ⟨hlined, hkept⟩ := h.kept
  refine ⟨hlined.writes, hkept.applied, ?_, fun s' hstep a n hn => ?_⟩
  · intro a n hn insert hinsert key hctx ha hle
    obtain ⟨key', hctx', hwhere⟩ := hkept.admitted insert hinsert
    obtain rfl := Option.some.inj (hctx.symm.trans hctx')
    rcases hwhere with ⟨batch, hbatch, rfl, hmem⟩ | ⟨write, hwrite, hkey, hmem⟩
    · -- The batch is still open, so the last write was before it.
      rw [hkept.storedSeq_eq, Option.map_eq_some_iff] at hn
      obtain ⟨last, hlast, rfl⟩ := hn
      obtain ⟨hwrite, hsame⟩ := mem_filter.1 (mem_of_getLast? hlast)
      have hbefore := hlined.writes_batches last hwrite batch hbatch
        ((of_decide_eq_true hsame).trans ha.symm)
      omega
    · exact ⟨write, hwrite, hkey, hkept.applied write hwrite, hmem⟩
  · obtain ⟨hlined', hkept'⟩ := hstep.kept hlined hkept
    exact storedSeq_mono hkept hlined' hkept' hstep.writes_prefix hn

end

/-! ### Two runs -/

/-- An event of the first aggregate. -/
def sampleEvent (seq : ℕ) : Event := ⟨0, seq, seq, none, false⟩

def sampleInsert : Insert Unit := ⟨.state (), [7], some ⟨0, 1⟩⟩

/-- The first event with a write, and the second event, which starts the timelock of the first. -/
def twoEvents : State Unit :=
  let s := handleEvent .init (fun _ => 10) 100 (sampleEvent 1)
  handleEvent (handleInsert s ⟨0, 1⟩ sampleInsert) (fun _ => 10) 100 (sampleEvent 2)

lemma twoEvents_reachable {allowed : ℕ → Event → State Unit → Prop}
    (hfirst : allowed 100 (sampleEvent 1) .init) (hsnd : allowed 100 (sampleEvent 2) (handleInsert
      (handleEvent .init (fun _ => 10) 100 (sampleEvent 1)) ⟨0, 1⟩ sampleInsert)) :
    Reachable allowed (fun _ => 10) twoEvents := by
  have hinit : Reachable allowed (fun _ => 10) .init := .init
  have hone := hinit.step (.event 100 (sampleEvent 1) (by decide) (by decide) hfirst)
  have htwo := hone.step (.insert ⟨0, 1⟩ () [7] (by decide))
  exact htwo.step (.event 100 (sampleEvent 2) (by decide) (by decide) hsnd)

theorem timely_snapshots_kept_sample :
    let s := handleFlush (handleTick (handleStart twoEvents) 110)
    storedSeq s 0 = some 1 ∧ sampleInsert ∈ s.admitted ∧
      ∃ write ∈ s.writes, write.key = ⟨0, 1⟩ ∧ write.outcome = .applied ∧
        sampleInsert ∈ write.inserts := by
  have hreachable : Reachable (Timely fun _ => 10) (fun _ => 10)
      (handleFlush (handleTick (handleStart twoEvents) 110)) :=
    (((twoEvents_reachable (by unfold Timely; decide) (by unfold Timely; decide)).step .start).step
      (.tick 110)).step .flush
  have hstored : storedSeq (handleFlush (handleTick (handleStart twoEvents) 110)) 0 = some 1 := by
    decide +kernel
  have hadmitted : sampleInsert ∈
      (handleFlush (handleTick (handleStart twoEvents) 110)).admitted := by
    decide +kernel
  exact ⟨hstored, hadmitted, (timely_snapshots_kept _ hreachable).2.2.1 0 1 hstored sampleInsert
    hadmitted ⟨0, 1⟩ rfl rfl (Nat.le_refl 1)⟩

/-- The clock is set back before the third event, so the second batch is flushed first. -/
def setBack : State Unit :=
  let s := handleEvent twoEvents (fun _ => 10) 50 (sampleEvent 3)
  handleFlush (handleTick (handleFlush (handleTick (handleStart (handleStart s)) 60)) 110)

/-- The batch of the first event is dropped although the cursor has passed it. -/
theorem clock_set_back_loses_insert :
    Reachable (fun _ _ _ => True) (fun _ => 10) setBack ∧ storedSeq setBack 0 = some 2 ∧
      sampleInsert ∈ setBack.admitted ∧
      (∃ write ∈ setBack.writes, write.key = ⟨0, 1⟩ ∧ write.outcome = .stale) ∧
      ∀ write ∈ setBack.writes, sampleInsert ∈ write.inserts → write.outcome ≠ .applied := by
  refine ⟨?_, by decide +kernel, by decide +kernel, by decide +kernel, by decide +kernel⟩
  have hthird := (@twoEvents_reachable (fun _ _ _ => True) trivial trivial).step
    (.event 50 (sampleEvent 3) (by decide) (by decide) trivial)
  exact (((((hthird.step .start).step .start).step (.tick 60)).step .flush).step (.tick 110)).step
    .flush

end Interfold.SnapshotBuffer
