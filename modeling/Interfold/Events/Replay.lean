import Interfold.Events.EventStore
import Interfold.Library.GreedyMerge
import Mathlib.Data.Prod.Lex

/-!
# Replay of stored events

After a restart the events behind the snapshot cursors are replayed. Every aggregate has its own
store; its events are read page by page into one run, in sequence order. The runs are then merged by
the least head. When there are more runs than a merge may read at once, groups of runs are merged
first, round by round.

Runs are temporary files of encoded events. A stored event always fits a record of such a file.
-/

namespace Interfold.Replay

open EventStore GreedyMerge List Nat

/-- An event as it lies in the store of its aggregate. -/
structure Stored (δ : Type) where
  ts : ℕ
  aggregate : ℕ
  data : δ

/-- An event with the sequence that its store gave it. -/
structure Sequenced (δ : Type) extends Stored δ where
  seq : ℕ

/-- `event_order_key`. -/
def orderKey {δ : Type} (event : Sequenced δ) : ℕ ×ₗ ℕ ×ₗ ℕ :=
  toLex (event.ts, toLex (event.aggregate, event.seq))

inductive ReplayError where
  | noStore (aggregate : ℕ)
  | cursorAhead (query head : ℕ)
  | endedEarly (seq aggregate required : ℕ)
  | pageTooLong (length aggregate limit : ℕ)
  | wrongAggregate (found aggregate : ℕ)
  | sequenceGap (aggregate expected got : ℕ)
  | sequenceOverflow
  | countOverflow
  | pageSizeZero
  | pageBytesZero
  | outOfFuel
deriving DecidableEq

/-- A range of sequences of one aggregate, up to the end of the log if it has no last one. -/
structure Range where
  aggregate : ℕ
  first : ℕ
  last : Option ℕ

/-! ## Merging -/

section

variable {α K : Type} [LinearOrder K]

/-- `REPLAY_MERGE_FAN_IN`. -/
def mergeFanIn : ℕ := 32

structure HeapItem (α K : Type) where
  key : K
  run : ℕ
  event : α

/-- The heap's order: the least key is on top, and of equal keys the one of the first run. -/
def HeapItem.before (item other : HeapItem α K) : Prop :=
  item.key < other.key ∨ item.key = other.key ∧ item.run ≤ other.run

instance (item other : HeapItem α K) : Decidable (item.before other) :=
  inferInstanceAs (Decidable (_ ∨ _ ∧ _))

/-- `BinaryHeap::pop`. -/
def popHeap : List (HeapItem α K) → Option (HeapItem α K × List (HeapItem α K))
  | [] => none
  | item :: items =>
    match popHeap items with
    | none => some (item, items)
    | some (top, rest) => if item.before top then some (item, items) else some (top, item :: rest)

/-- What is left of the runs, and the heads that were read. -/
structure RunMerger (α K : Type) where
  readers : List (List α)
  heap : List (HeapItem α K)

variable (key : α → K)

def RunMerger.new (runs : List (List α)) : RunMerger α K where
  readers := runs.map tail
  heap := runs.zipIdx.filterMap fun (run, i) => run.head?.map fun event => ⟨key event, i, event⟩

def RunMerger.nextEvent (m : RunMerger α K) : Option (α × RunMerger α K) :=
  (popHeap m.heap).map fun (item, heap) =>
    match m.readers[item.run]? with
    | some (event :: rest) =>
      (item.event, ⟨m.readers.set item.run rest, ⟨key event, item.run, event⟩ :: heap⟩)
    | _ => (item.event, ⟨m.readers, heap⟩)

/-- All events of a merger, in its order. -/
def RunMerger.drain (key : α → K) : ℕ → RunMerger α K → List α
  | 0, _ => []
  | n + 1, m =>
    match m.nextEvent key with
    | none => []
    | some (event, m) => event :: drain key n m

def mergeToRun (runs : List (List α)) : List α :=
  (RunMerger.new key runs).drain key runs.flatten.length

/-- Groups of at most `n`, in order. -/
def groups (n : ℕ) : ℕ → List α → List (List α)
  | 0, _ => []
  | _ + 1, [] => []
  | rounds + 1, l@(_ :: _) => l.take n :: groups n rounds (l.drop n)

/-- A group of one run is kept as it is. -/
def compactGroup (group : List (List α)) : List α :=
  match group with
  | [run] => run
  | _ => mergeToRun key group

def compactRound (runs : List (List α)) : List (List α) :=
  (groups mergeFanIn runs.length runs).map (compactGroup key)

/-- The loop of `compact_runs`. Every round leaves fewer runs. -/
def compactRuns (key : α → K) : ℕ → List (List α) → List (List α)
  | 0, runs => runs
  | rounds + 1, runs =>
    if mergeFanIn < runs.length then compactRuns key rounds (compactRound key runs) else runs

end

/-! ## Loading -/

section

variable {δ : Type}

/-- What was spooled so far. -/
structure Spool (δ : Type) where
  runs : List (List (Sequenced δ))
  totalEvents : ℕ
  maxTimestamp : Option ℕ

/-- A page of one store, through the router, which drops events of other aggregates. -/
def queryPage (cfg : LogConfig (Stored δ)) (stores : ℕ → Option (List (Stored δ)))
    (aggregate cursor pageSize pageBytes : ℕ) : Except ReplayError (List (Sequenced δ)) :=
  match stores aggregate with
  | none => .error (.noStore aggregate)
  | some log =>
    if log.length + 1 < cursor then .error (.cursorAhead cursor log.length)
    else
      let events := readFromBoundedByBytes cfg log (max cursor 1) pageSize pageBytes
      let events := events.map fun entry => (⟨entry.2, entry.1⟩ : Sequenced δ)
      .ok ((events.take pageSize).filter fun event => event.aggregate = aggregate)

/-- The check of a page. Returns the sequence after it. -/
def checkPage (aggregate : ℕ) : ℕ → List (Sequenced δ) → Except ReplayError ℕ
  | expected, [] => .ok expected
  | expected, event :: page =>
    if event.aggregate ≠ aggregate then .error (.wrongAggregate event.aggregate aggregate)
    else if event.seq ≠ expected then .error (.sequenceGap aggregate expected event.seq)
    else if expected + 1 < 2 ^ 64 then checkPage aggregate (expected + 1) page
    else .error .sequenceOverflow

/-- What is kept of a page. -/
def Range.retain (range : Range) (page : List (Sequenced δ)) : List (Sequenced δ) :=
  match range.last with
  | some last => page.filter fun event => event.seq ≤ last
  | none => page

/-- The run of an aggregate while it is loaded. -/
structure Loading (δ : Type) where
  run : List (Sequenced δ)
  totalEvents : ℕ
  maxTimestamp : Option ℕ

/-- The loop over the pages of one aggregate. -/
def loadPages (cfg : LogConfig (Stored δ)) (stores : ℕ → Option (List (Stored δ)))
    (pageSize pageBytes : ℕ) (range : Range) : ℕ → ℕ → Loading δ → Except ReplayError (Loading δ)
  | 0, _, _ => .error .outOfFuel
  | rounds + 1, cursor, s =>
    if range.last.any (· < cursor) then .ok s
    else match queryPage cfg stores range.aggregate cursor pageSize pageBytes with
      | .error error => .error error
      | .ok [] =>
        match range.last with
        | some last => .error (.endedEarly (cursor - 1) range.aggregate last)
        | none => .ok s
      | .ok (event :: events) =>
        let page := event :: events
        if pageSize < page.length then .error (.pageTooLong page.length range.aggregate pageSize)
        else match checkPage range.aggregate cursor page with
          | .error error => .error error
          | .ok expected =>
            let kept := range.retain page
            let next := (kept.getLast?.map fun event => saturatingAdd event.seq 1).getD expected
            if s.totalEvents + kept.length < 2 ^ 64 then
              let s : Loading δ :=
                ⟨s.run ++ kept, s.totalEvents + kept.length,
                  kept.foldl (fun max event => laterTimestamp max event.ts) s.maxTimestamp⟩
              if range.last.any (· < next) then .ok s
              else loadPages cfg stores pageSize pageBytes range rounds next s
            else .error .countOverflow

/-- The loop over the ranges. An aggregate without events has no run. -/
def loadEach (cfg : LogConfig (Stored δ)) (stores : ℕ → Option (List (Stored δ)))
    (pageSize pageBytes : ℕ) : List Range → Spool δ → Except ReplayError (Spool δ)
  | [], spool => .ok spool
  | range :: ranges, spool =>
    -- Every page moves on, and the last query finds nothing.
    let rounds := (stores range.aggregate).elim 0 length + 2
    match loadPages cfg stores pageSize pageBytes range rounds range.first
      ⟨[], spool.totalEvents, spool.maxTimestamp⟩ with
    | .error error => .error error
    | .ok s => loadEach cfg stores pageSize pageBytes ranges
      ⟨if s.run.isEmpty then spool.runs else spool.runs ++ [s.run], s.totalEvents, s.maxTimestamp⟩

def loadRanges (cfg : LogConfig (Stored δ)) (stores : ℕ → Option (List (Stored δ)))
    (ranges : List Range) (pageSize pageBytes : ℕ) : Except ReplayError (Spool δ) :=
  if pageSize = 0 then .error .pageSizeZero
  else if pageBytes = 0 then .error .pageBytesZero
  else
    let ranges := ranges.mergeSort fun range range' => range.aggregate ≤ range'.aggregate
    match loadEach cfg stores pageSize pageBytes ranges ⟨[], 0, none⟩ with
    | .error error => .error error
    | .ok spool => .ok { spool with runs := compactRuns orderKey spool.runs.length spool.runs }

/-- The events of a spool in the order `project` and `replay` see them. -/
def Spool.events (spool : Spool δ) : List (Sequenced δ) := mergeToRun orderKey spool.runs

end

/-! ## The merge -/

section

variable {α K : Type} [LinearOrder K] {key : α → K} {runs runs' : List (List α)}
  {item top : HeapItem α K} {heap rest : List (HeapItem α K)} {m : RunMerger α K}

lemma HeapItem.before_trans (h : item.before top) (h' : top.before other) : item.before other := by
  unfold HeapItem.before at *
  grind

lemma HeapItem.before_total (h : ¬ item.before top) : top.before item := by
  unfold HeapItem.before at *
  grind

lemma popHeap_eq_none (h : popHeap heap = none) : heap = [] := by
  cases heap with
  | nil => rfl
  | cons item items =>
    simp only [popHeap] at h
    split at h
    · cases h
    · split_ifs at h

/-- The top of the heap comes before everything in it. -/
lemma popHeap_spec (h : popHeap heap = some (top, rest)) :
    heap.Perm (top :: rest) ∧ ∀ item ∈ heap, top.before item := by
  induction heap generalizing top rest with
  | nil => cases h
  | cons item items ih =>
    have hself : ∀ item : HeapItem α K, item.before item := fun _ => .inr ⟨rfl, le_refl _⟩
    simp only [popHeap] at h
    cases hpop : popHeap items with
    | none =>
      rw [hpop] at h
      obtain ⟨rfl, rfl⟩ := h
      rw [popHeap_eq_none hpop]
      refine ⟨.refl _, fun other hother => ?_⟩
      rw [mem_singleton.1 hother]
      exact hself item
    | some next =>
      obtain ⟨best, others⟩ := next
      obtain ⟨hperm, hbest⟩ := ih hpop
      rw [hpop] at h
      simp only at h
      split_ifs at h with hbef
      · obtain ⟨rfl, rfl⟩ := h
        refine ⟨.refl _, fun other hother => ?_⟩
        rcases mem_cons.1 hother with rfl | hother
        · exact hself other
        · exact HeapItem.before_trans hbef (hbest other hother)
      · obtain ⟨rfl, rfl⟩ := h
        refine ⟨(hperm.cons item).trans (.swap _ _ _), fun other hother => ?_⟩
        rcases mem_cons.1 hother with rfl | hother
        · exact HeapItem.before_total hbef
        · exact hbest other hother

/-- A merger over what is left of the runs: it has read the head of each. -/
structure Reads (key : α → K) (m : RunMerger α K) (runs : List (List α)) : Prop where
  readers : m.readers = runs.map tail
  nodup : m.heap.Nodup
  mem_heap : ∀ item, item ∈ m.heap ↔
    item.key = key item.event ∧ ∃ rest, runs[item.run]? = some (item.event :: rest)

omit [LinearOrder K] in
lemma reads_new (key : α → K) (runs : List (List α)) : Reads key (.new key runs) runs where
  readers := rfl
  nodup := by
    have hindic : runs.zipIdx.Pairwise fun p q => p.2 ≠ q.2 := by
      apply pairwise_map.1
      rw [zipIdx_map_snd]
      exact nodup_range'
    apply hindic.filterMap
    rintro ⟨run, i⟩ ⟨run', j⟩ hij item hitem item' hitem' rfl
    simp only [Option.map_eq_some_iff] at hitem hitem'
    obtain ⟨event, -, rfl⟩ := hitem
    obtain ⟨event', -, heq⟩ := hitem'
    exact hij (congrArg HeapItem.run heq).symm
  mem_heap item := by
    simp only [RunMerger.new, mem_filterMap, Prod.exists, Option.map_eq_some_iff,
      mk_mem_zipIdx_iff_getElem?, head?_eq_some_iff]
    constructor
    · rintro ⟨run, i, hrun, event, ⟨rest, rfl⟩, rfl⟩
      exact ⟨rfl, rest, hrun⟩
    · rintro ⟨hkey, rest, hrun⟩
      exact ⟨_, item.run, hrun, item.event, ⟨rest, rfl⟩, by rw [← hkey]⟩

variable {a : α} {n rounds : ℕ} {l : List α}

/-- Among the heads that were read, the least one of the first run is on top. -/
lemma Reads.popHeap_eq (h : Reads key m runs) (hpop : popLeast key runs = some (a, runs')) :
    ∃ n tail heap, runs[n]? = some (a :: tail) ∧ runs' = runs.set n tail ∧
      popHeap m.heap = some (⟨key a, n, a⟩, heap) := by
  obtain ⟨n, tail, hn, hruns, hleast⟩ := popLeast_spec hpop
  have hmem : (⟨key a, n, a⟩ : HeapItem α K) ∈ m.heap := (h.mem_heap _).2 ⟨rfl, tail, hn⟩
  cases hheap : popHeap m.heap with
  | none =>
    rw [popHeap_eq_none hheap] at hmem
    cases hmem
  | some next =>
    obtain ⟨top, heap⟩ := next
    obtain ⟨hperm, htop⟩ := popHeap_spec hheap
    obtain ⟨hkey, rest, hrun⟩ := (h.mem_heap top).1 (hperm.mem_iff.2 mem_cons_self)
    have hbef := htop _ hmem
    have hrest := hleast _ _ _ hrun
    obtain ⟨topKey, topRun, event⟩ := top
    unfold HeapItem.before at hbef
    simp only at hkey hrun hbef hrest
    -- The two orders agree, so both choose the same run.
    have hsame : topRun = n := by grind
    subst hsame
    obtain ⟨rfl, -⟩ := cons.inj (Option.some.inj (hn.symm.trans hrun))
    exact ⟨topRun, tail, heap, hn, hruns, by rw [hkey]⟩

lemma Reads.next (h : Reads key m runs) (hpop : popLeast key runs = some (a, runs')) :
    ∃ m', m.nextEvent key = some (a, m') ∧ Reads key m' runs' := by
  obtain ⟨n, tail, heap, hn, rfl, hheap⟩ := h.popHeap_eq hpop
  have hperm := (popHeap_spec hheap).1
  obtain ⟨hfresh, hnodup⟩ := nodup_cons.1 (hperm.nodup_iff.1 h.nodup)
  have hlt := (List.getElem?_eq_some_iff.1 hn).1
  -- What stays in the heap are the heads of the other runs.
  have hoth : ∀ item, item ∈ heap ↔ item.run ≠ n ∧ item.key = key item.event ∧
      ∃ rest, runs[item.run]? = some (item.event :: rest) := by
    intro item
    have hitem := h.mem_heap item
    rw [hperm.mem_iff, mem_cons] at hitem
    obtain ⟨itemKey, itemRun, event⟩ := item
    constructor
    · intro hmem
      refine ⟨?_, hitem.1 (.inr hmem)⟩
      rintro rfl
      obtain ⟨hkey, rest, hrun⟩ := hitem.1 (.inr hmem)
      simp only at hkey hrun
      obtain ⟨rfl, -⟩ := cons.inj (Option.some.inj (hn.symm.trans hrun))
      subst hkey
      exact hfresh hmem
    · rintro ⟨hne, hread⟩
      rcases hitem.2 hread with heq | hmem
      · exact absurd (congrArg HeapItem.run heq) hne
      · exact hmem
  have hreader : m.readers[n]? = some tail := by simp [h.readers, hn]
  unfold RunMerger.nextEvent
  simp only [hheap, Option.map_some, hreader]
  cases tail with
  | nil =>
    refine ⟨_, rfl, ?_, hnodup, fun item => ?_⟩
    · refine ext_getElem? fun i => ?_
      simp only [h.readers, getElem?_map, getElem?_set]
      split_ifs with hi
      · subst hi
        simp [hn]
      · rfl
    · rw [hoth, getElem?_set]
      grind
  | cons event rest =>
    refine ⟨_, rfl, ?_, ?_, fun item => ?_⟩
    · simp [h.readers, map_set]
    · refine nodup_cons.2 ⟨fun hmem => ?_, hnodup⟩
      exact ((hoth _).1 hmem).1 rfl
    · rw [mem_cons, hoth, getElem?_set]
      obtain ⟨itemKey, itemRun, itemEvent⟩ := item
      grind

/-- The heap merges as the least heads do. -/
lemma Reads.drain_eq (h : Reads key m runs) (n : ℕ) : m.drain key n = mergeFor key n runs := by
  induction n generalizing m runs with
  | zero => rfl
  | succ n ih =>
    unfold RunMerger.drain mergeFor
    cases hpop : popLeast key runs with
    | none =>
      have hempty : m.heap = [] := by
        refine eq_nil_iff_forall_not_mem.2 fun item hitem => ?_
        obtain ⟨-, rest, hrun⟩ := (h.mem_heap item).1 hitem
        have hnil := flatten_eq_nil_iff.1 (popLeast_eq_none hpop) _ (mem_of_getElem? hrun)
        cases hnil
      simp [RunMerger.nextEvent, hempty, popHeap]
    | some next =>
      obtain ⟨a, runs'⟩ := next
      obtain ⟨m', hnext, hreads⟩ := h.next hpop
      simp only [hnext, ih hreads]

/-- The heap merger is the merge by least heads. -/
lemma mergeToRun_eq (key : α → K) (runs : List (List α)) : mergeToRun key runs = merge key runs :=
  (reads_new key runs).drain_eq _

/-! ### Compaction -/

lemma groups_flatten (hn : 0 < n) (hrnds : l.length ≤ rounds) :
    (groups n rounds l).flatten = l := by
  induction rounds generalizing l with
  | zero => rw [length_eq_zero_iff.1 (le_zero.1 hrnds)]; rfl
  | succ rounds ih =>
    cases l with
    | nil => rfl
    | cons a l =>
      rw [groups, flatten_cons, ih, take_append_drop]
      simp only [length_drop, length_cons] at hrnds ⊢
      omega

lemma length_groups (hn : 0 < n) : n * (groups n rounds l).length < l.length + n := by
  induction rounds generalizing l with
  | zero => exact lt_of_lt_of_le hn (le_add_left n l.length)
  | succ rounds ih =>
    cases l with
    | nil => simp [groups, hn]
    | cons a l =>
      have hrest := @ih ((a :: l).drop n)
      rw [groups, length_cons, mul_succ]
      rw [length_drop] at hrest
      rcases lt_or_ge (a :: l).length n with hlt | hge
      · have hnone : n * (groups n rounds ((a :: l).drop n)).length = 0 := by
          rw [drop_eq_nil_of_le hlt.le]
          cases rounds <;> simp [groups]
        simp only [length_cons] at *
        omega
      · omega

lemma compactGroup_eq (key : α → K) (group : List (List α)) :
    compactGroup key group = merge key group := by
  unfold compactGroup
  split
  · rw [merge_singleton]
  · rw [mergeToRun_eq]

/-- A round of compaction does not change the merge. -/
lemma merge_compactRound (key : α → K) (runs : List (List α)) :
    merge key (compactRound key runs) = merge key runs := by
  have hgroup : compactGroup key = merge key := funext (compactGroup_eq key)
  rw [compactRound, hgroup, merge_map_merge, groups_flatten (by decide) (le_refl _)]

lemma merge_compactRuns (key : α → K) (rounds : ℕ) (runs : List (List α)) :
    merge key (compactRuns key rounds runs) = merge key runs := by
  induction rounds generalizing runs with
  | zero => rfl
  | succ rounds ih =>
    rw [compactRuns]
    split_ifs
    · rw [ih, merge_compactRound]
    · rfl

/-- The loop of compaction ends. -/
lemma length_compactRuns (h : runs.length ≤ rounds) :
    (compactRuns key rounds runs).length ≤ mergeFanIn := by
  induction rounds generalizing runs with
  | zero => exact h.trans (zero_le _)
  | succ rounds ih =>
    rw [compactRuns]
    split_ifs with hmany
    · apply ih
      have hgroups := @length_groups _ mergeFanIn runs.length runs (by decide)
      rw [compactRound, length_map]
      unfold mergeFanIn at *
      omega
    · exact not_lt.1 hmany

end

/-! ## The loads -/

section

variable {δ : Type} {cfg : LogConfig (Stored δ)} {stores : ℕ → Option (List (Stored δ))}
  {log : List (Stored δ)} {range : Range} {a c k pageSize pageBytes : ℕ} {l page : List (Sequenced δ)}

/-- Every store holds the events of its own aggregate. -/
def Homed (stores : ℕ → Option (List (Stored δ))) : Prop :=
  ∀ a log, stores a = some log → ∀ e ∈ log, e.aggregate = a

section

variable (log : List (Stored δ))

/-- The events of a log from a sequence on. -/
def sequenced (start : ℕ) : List (Sequenced δ) :=
  (readFrom log start).map fun entry => ⟨entry.2, entry.1⟩

/-- The sequences of a list of events are consecutive, from `c` on. -/
def Consecutive : ℕ → List (Sequenced δ) → Prop
  | _, [] => True
  | c, event :: l => event.seq = c ∧ Consecutive (c + 1) l

lemma sequenced_succ (i : ℕ) : sequenced log (i + 1) = match log[i]? with
      | none => []
      | some e => ⟨e, i + 1⟩ :: sequenced log (i + 2) := by
  unfold sequenced
  rw [readFrom_succ]
  cases log[i]? <;> rfl

lemma length_sequenced (c : ℕ) : (sequenced log c).length = log.length - (c - 1) := by
  simp [sequenced, readFrom]

lemma consecutive_sequenced (c : ℕ) : Consecutive c (sequenced log c) := by
  have hzip : ∀ (l : List (Stored δ)) (c : ℕ),
      Consecutive c ((l.zipIdx c).map fun p => (⟨p.1, p.2⟩ : Sequenced δ)) := by
    intro l
    induction l with
    | nil => intro c; trivial
    | cons e l ih => exact fun c => ⟨rfl, ih (c + 1)⟩
  unfold sequenced readFrom
  rw [map_map]
  exact hzip _ c

lemma drop_sequenced (hc : 1 ≤ c) (k : ℕ) : (sequenced log c).drop k = sequenced log (c + k) := by
  induction k with
  | zero => rfl
  | succ k ih =>
    obtain ⟨i, hi⟩ : ∃ i, c + k = i + 1 := ⟨c + k - 1, by omega⟩
    rw [← drop_drop, ih, ← add_assoc, hi, sequenced_succ]
    cases hlog : log[i]? with
    | none =>
      have hlen := getElem?_eq_none_iff.1 hlog
      refine (length_eq_zero_iff.1 ?_).symm
      rw [length_sequenced]
      omega
    | some e => rfl

end

variable {event : Sequenced δ} {rounds aggregate : ℕ} {s : Loading δ}

lemma mem_sequenced (h : event ∈ sequenced log c) : event.toStored ∈ log := by
  simp only [sequenced, readFrom, map_map, mem_map] at h
  obtain ⟨⟨e, i⟩, hmem, rfl⟩ := h
  exact mem_of_mem_drop (fst_mem_of_mem_zipIdx hmem)

lemma consecutive_iff : Consecutive c l ↔ l.map Sequenced.seq = range' c l.length := by
  induction l generalizing c with
  | nil => exact iff_of_true trivial rfl
  | cons event l ih => simp [Consecutive, ih, range'_succ]

lemma Consecutive.take (h : Consecutive c l) (n : ℕ) : Consecutive c (l.take n) := by
  rw [consecutive_iff] at *
  rw [map_take, h, length_take]
  apply ext_getElem?
  grind

lemma Consecutive.filter_le (h : Consecutive c l) (last : ℕ) :
    l.filter (fun event => event.seq ≤ last) = l.take (last + 1 - c) := by
  induction l generalizing c with
  | nil => simp
  | cons event l ih =>
    obtain ⟨rfl, hrest⟩ := h
    rcases lt_or_ge last event.seq with hlt | hge
    · have hnone := ih hrest
      rw [Nat.sub_eq_zero_of_le (by omega)] at hnone ⊢
      simp [hnone, hlt]
    · have hsucc : last + 1 - event.seq = last + 1 - (event.seq + 1) + 1 := by omega
      simp [hsucc, hge, ih hrest]

lemma Consecutive.getLast (h : Consecutive c l) (hl : l ≠ []) :
    ∃ event, l.getLast? = some event ∧ event.seq + 1 = c + l.length := by
  have hlast := congrArg getLast? (consecutive_iff.1 h)
  have hpos := length_pos_iff.2 hl
  rw [getLast?_map, getLast?_range', if_neg hpos.ne', Option.map_eq_some_iff] at hlast
  obtain ⟨event, hevent, hseq⟩ := hlast
  exact ⟨event, hevent, by omega⟩

/-! ### Pages -/

lemma queryPage_ok (cfg : LogConfig (Stored δ)) (pageBytes : ℕ) (hhome : Homed stores)
    (hlog : stores a = some log) (hcurs : c ≤ log.length + 1) (hsize : 0 < pageSize) :
    ∃ k ≤ (sequenced log (max c 1)).length, k ≤ pageSize ∧ (k = 0 → sequenced log (max c 1) = []) ∧
      queryPage cfg stores a c pageSize pageBytes = .ok ((sequenced log (max c 1)).take k) := by
  set entries := readFromBoundedByBytes cfg log (max c 1) pageSize pageBytes with hents
  have hcut : entries <+: (readFrom log (max c 1)).take pageSize := cutAtBytes_prefix ..
  have hpage := (hcut.trans (List.take_prefix _ _)).map fun entry =>
    (⟨entry.2, entry.1⟩ : Sequenced δ)
  have hsmall : entries.length ≤ pageSize := hcut.length_le.trans (length_take_le _ _)
  refine ⟨entries.length, ?_, hsmall, fun hzero => ?_, ?_⟩
  · simpa [sequenced] using hpage.length_le
  · cases hread : readFrom log (max c 1) with
    | nil => rw [sequenced, hread]; rfl
    | cons entry rest =>
      obtain ⟨n, rfl⟩ := exists_eq_succ_of_ne_zero hsize.ne'
      simp [hents, readFromBoundedByBytes, readFromBounded, hread, cutAtBytes] at hzero
  · have hown : ∀ event ∈ sequenced log (max c 1), event.aggregate = a := fun event hmem =>
      hhome a log hlog _ (mem_sequenced hmem)
    have hext : (entries.map fun entry => (⟨entry.2, entry.1⟩ : Sequenced δ)) =
        (sequenced log (max c 1)).take entries.length := by
      simpa [sequenced] using prefix_iff_eq_take.1 hpage
    unfold queryPage
    simp only [hlog, ← hents, hext, if_neg (not_lt.2 hcurs)]
    rw [take_of_length_le (by rw [length_take]; omega), filter_eq_self.2]
    intro event hmem
    exact decide_eq_true (hown event (mem_of_mem_take hmem))

lemma queryPage_inv (h : queryPage cfg stores a c pageSize pageBytes = .ok page) :
    ∃ log, stores a = some log ∧ c ≤ log.length + 1 := by
  unfold queryPage at h
  cases hlog : stores a with
  | none => simp [hlog] at h
  | some log =>
    simp only [hlog] at h
    split_ifs at h with hcurs
    exact ⟨log, rfl, not_lt.1 hcurs⟩

lemma checkPage_ok (h : checkPage a c page = .ok n) :
    n = c + page.length ∧ Consecutive c page ∧ (page ≠ [] → n < 2 ^ 64) := by
  induction page generalizing c with
  | nil =>
    cases h
    exact ⟨rfl, trivial, fun hne => absurd rfl hne⟩
  | cons event page ih =>
    rw [checkPage] at h
    split_ifs at h with _ hseq hlt
    obtain ⟨rfl, hrest, hsmall⟩ := ih h
    refine ⟨by rw [length_cons]; omega, ⟨not_not.1 hseq, hrest⟩, fun _ => ?_⟩
    cases page with
    | nil => exact hlt
    | cons next page => exact hsmall (cons_ne_nil _ _)

lemma checkPage_returns (hown : ∀ event ∈ page, event.aggregate = a) (h : Consecutive c page)
    (hlt : c + page.length < 2 ^ 64) : checkPage a c page = .ok (c + page.length) := by
  induction page generalizing c with
  | nil => rfl
  | cons event page ih =>
    rw [length_cons] at hlt
    have hrest := ih (fun e he => hown e (mem_cons_of_mem _ he)) h.2 (by omega)
    rw [checkPage, if_neg (not_not.2 (hown event mem_cons_self)), if_neg (not_not.2 h.1),
      if_pos (by omega), hrest, length_cons]
    congr 1
    omega

/-! ### One aggregate -/

lemma Range.retain_eq_nil (hlast : range.last.any (· < c) = true) (hc : c ≤ start)
    (h : Consecutive start l) : range.retain l = [] := by
  cases hr : range.last with
  | none => simp [hr] at hlast
  | some last =>
    have hlt : last < c := by simpa [hr] using hlast
    simp only [Range.retain, hr, h.filter_le]
    rw [Nat.sub_eq_zero_of_le (by omega), take_zero]

/-- A page and where it ends: nothing is skipped and nothing is read twice, also when the page goes
beyond the last sequence. -/
lemma Range.advance (hc : 1 ≤ c) (hk : 0 < k) (hle : k ≤ (sequenced log c).length)
    (hopen : ¬ range.last.any (· < c) = true) (hlt : c + k < 2 ^ 64) : ∃ n, 0 < n ∧ n ≤ k ∧
      ((range.retain ((sequenced log c).take k)).getLast?.map
        fun event => saturatingAdd event.seq 1).getD (c + k) = c + n ∧
      range.retain (sequenced log c) =
        range.retain ((sequenced log c).take k) ++ range.retain (sequenced log (c + n)) := by
  have hall := consecutive_sequenced log c
  obtain ⟨n, hpos, hnk, hpage, hsplit⟩ : ∃ n, 0 < n ∧ n ≤ k ∧
      range.retain ((sequenced log c).take k) = (sequenced log c).take n ∧
      range.retain (sequenced log c) =
        (sequenced log c).take n ++ range.retain (sequenced log (c + n)) := by
    cases hr : range.last with
    | none =>
      refine ⟨k, hk, le_refl k, by simp only [Range.retain, hr], ?_⟩
      simp [Range.retain, hr, ← drop_sequenced log hc]
    | some last =>
      have hlast : c ≤ last := by simpa [hr] using hopen
      refine ⟨min (last + 1 - c) k, by omega, by omega, ?_, ?_⟩
      · simp only [Range.retain, hr, (hall.take k).filter_le, take_take]
      · simp only [Range.retain, hr, hall.filter_le, (consecutive_sequenced log _).filter_le]
        rw [← drop_sequenced log hc, ← take_add]
        congr 1
        omega
  refine ⟨n, hpos, hnk, ?_, by rw [hpage, hsplit]⟩
  have hlen : ((sequenced log c).take n).length = n := by
    rw [length_take]
    omega
  obtain ⟨event, hevent, hseq⟩ := (hall.take n).getLast (by
    intro hnil
    rw [hnil] at hlen
    exact hpos.ne hlen)
  rw [hlen] at hseq
  rw [hpage, hevent, Option.map_some, Option.getD_some, saturatingAdd]
  omega

/-- A load of one aggregate that returns has the events of the range, once each and in order. -/
lemma loadPages_ok (hhome : Homed stores) (hsize : 0 < pageSize)
    (h : loadPages cfg stores pageSize pageBytes range rounds c s = .ok s') :
    s'.run = s.run ++ range.retain (sequenced ((stores range.aggregate).getD []) (max c 1)) ∧
      s'.totalEvents + s.run.length = s.totalEvents + s'.run.length := by
  induction rounds generalizing c s with
  | zero => cases h
  | succ rounds ih =>
    rw [loadPages] at h
    split_ifs at h with hdone
    · cases h
      rw [Range.retain_eq_nil hdone (le_max_left c 1) (consecutive_sequenced _ _), append_nil]
      exact ⟨rfl, rfl⟩
    · cases hpage : queryPage cfg stores range.aggregate c pageSize pageBytes with
      | error error => simp [hpage] at h
      | ok page =>
        obtain ⟨log, hlog, hcurs⟩ := queryPage_inv hpage
        obtain ⟨k, hle, hlimit, hend, hquery⟩ :=
          queryPage_ok cfg pageBytes hhome hlog hcurs hsize
        obtain rfl := Except.ok.inj (hpage.symm.trans hquery)
        rw [hlog, Option.getD_some]
        cases htake : (sequenced log (max c 1)).take k with
        | nil =>
          have hnil : sequenced log (max c 1) = [] := (take_eq_nil_iff.1 htake).elim hend id
          cases hr : range.last with
          | some last => simp [hpage, htake, hr] at h
          | none =>
            simp only [hpage, htake, hr, Except.ok.injEq] at h
            subst h
            simp [Range.retain, hr, hnil]
        | cons event events =>
          have hlen : (event :: events).length = k := by
            rw [← htake, length_take]
            omega
          simp only [hpage, htake, hlen, if_neg (not_lt.2 hlimit)] at h
          cases hcheck : checkPage range.aggregate c (event :: events) with
          | error error => simp [hcheck] at h
          | ok expected =>
            obtain ⟨rfl, hconsec, hsmall⟩ := checkPage_ok hcheck
            -- The first event has the sequence of the cursor, so the cursor is not zero.
            have hseq : event.seq = max c 1 := by
              have htaken := (consecutive_sequenced log (max c 1)).take k
              rw [htake] at htaken
              exact htaken.1
            have hmax : max c 1 = c := hseq.symm.trans hconsec.1
            have hc : 1 ≤ c := by omega
            rw [hmax] at hle htake ⊢
            rw [hlen] at hsmall hcheck
            obtain ⟨n, -, -, hnext, hsplit⟩ := Range.advance hc (hlen ▸ succ_pos _) hle hdone
              (hsmall (cons_ne_nil _ _))
            rw [htake] at hnext hsplit
            simp only [hcheck, hnext] at h
            split_ifs at h with hcount hlast
            · cases h
              rw [hsplit, Range.retain_eq_nil hlast (le_refl _) (consecutive_sequenced _ _)]
              refine ⟨by rw [append_nil], ?_⟩
              simp only [length_append]
              omega
            · obtain ⟨hrun, htotal⟩ := ih h
              rw [hlog, Option.getD_some, max_eq_left (le_add_right_of_le hc)] at hrun
              refine ⟨by rw [hrun, hsplit, append_assoc], ?_⟩
              simp only [length_append] at htotal
              omega

/-- A load of one aggregate returns when its range is there. -/
lemma loadPages_returns (hhome : Homed stores) (hsize : 0 < pageSize)
    (hlog : stores range.aggregate = some log) (hlast : ∀ last ∈ range.last, last ≤ log.length)
    (hlen : log.length + 1 < 2 ^ 64) (hc : 1 ≤ c) (hcurs : c ≤ log.length + 1)
    (hrnds : log.length + 2 ≤ rounds + c)
    (hcount : s.totalEvents + (range.retain (sequenced log c)).length < 2 ^ 64) :
    ∃ s', loadPages cfg stores pageSize pageBytes range rounds c s = .ok s' := by
  induction rounds generalizing c s with
  | zero => omega
  | succ rounds ih =>
    rw [loadPages]
    split_ifs with hdone
    · exact ⟨s, rfl⟩
    obtain ⟨k, hle, hlimit, hend, hquery⟩ := queryPage_ok cfg pageBytes hhome hlog hcurs hsize
    rw [max_eq_left hc] at hle hend hquery
    have hall := length_sequenced log c
    simp only [hquery]
    cases htake : (sequenced log c).take k with
    | nil =>
      have hnil : sequenced log c = [] := (take_eq_nil_iff.1 htake).elim hend id
      rw [hnil, length_nil] at hall
      cases hr : range.last with
      | none => exact ⟨s, rfl⟩
      | some last =>
        have hsmall := hlast last hr
        have hge : c ≤ last := by simpa [hr] using hdone
        omega
    | cons event events =>
      have hpage : (event :: events).length = k := by
        rw [← htake, length_take]
        omega
      have hk : 0 < k := hpage ▸ succ_pos _
      have hcheck : checkPage range.aggregate c (event :: events) = .ok (c + k) := by
        rw [← hpage]
        apply checkPage_returns
        · intro e he
          rw [← htake] at he
          exact hhome _ log hlog _ (mem_sequenced (mem_of_mem_take he))
        · rw [← htake]
          exact (consecutive_sequenced log c).take k
        · omega
      obtain ⟨n, hpos, hnk, hnext, hsplit⟩ := Range.advance hc hk hle hdone (by omega)
      rw [htake] at hnext hsplit
      rw [hsplit, length_append] at hcount
      simp only [hpage, if_neg (not_lt.2 hlimit), hcheck, hnext]
      rw [if_pos (by omega)]
      split_ifs
      · exact ⟨_, rfl⟩
      · exact ih (by omega) (by omega) (by omega) (by simpa [add_assoc] using hcount)

/-! ### All aggregates -/

section

variable (stores : ℕ → Option (List (Stored δ)))

/-- The events that a range asks for. -/
def requested (range : Range) : List (Sequenced δ) :=
  (sequenced ((stores range.aggregate).getD []) 1).filter fun event =>
    range.first ≤ event.seq ∧ ∀ last ∈ range.last, event.seq ≤ last

/-- The events that some ranges ask for, by aggregate. -/
def requestedOf (ranges : List Range) (aggregate : ℕ) : List (Sequenced δ) :=
  (ranges.filter (·.aggregate = aggregate)).flatMap (requested stores)

/-- The store has the events of a range. A range that ends before it begins asks for none. -/
def Range.Available (range : Range) : Prop :=
  (∃ last ∈ range.last, last < range.first) ∨
    ∃ log, stores range.aggregate = some log ∧ 1 ≤ range.first ∧ range.first ≤ log.length + 1 ∧
      ∀ last ∈ range.last, last ≤ log.length

lemma Consecutive.filter_ge (h : Consecutive c l) (n : ℕ) :
    l.filter (fun event => n ≤ event.seq) = l.drop (n - c) := by
  induction l generalizing c with
  | nil => simp
  | cons event l ih =>
    obtain ⟨rfl, hrest⟩ := h
    rcases lt_or_ge event.seq n with hlt | hge
    · have hsucc : n - event.seq = n - (event.seq + 1) + 1 := by omega
      simp [hsucc, ih hrest, not_le.2 hlt]
    · have hall := ih hrest
      rw [Nat.sub_eq_zero_of_le (by omega)] at hall ⊢
      simpa [hge] using hall

lemma requested_eq (range : Range) : requested stores range =
      range.retain (sequenced ((stores range.aggregate).getD []) (max range.first 1)) := by
  have hfrom : ∀ log : List (Stored δ), (sequenced log 1).filter (fun e => range.first ≤ e.seq) =
      sequenced log (max range.first 1) := by
    intro log
    rw [(consecutive_sequenced log 1).filter_ge, drop_sequenced log (le_refl 1)]
    congr 1
    omega
  rw [← hfrom, requested]
  cases hr : range.last with
  | none => simp [Range.retain, hr]
  | some last =>
    simp only [Range.retain, hr, filter_filter]
    congr 1
    funext event
    simp [Bool.and_comm]

end

lemma loadPages_requested (hhome : Homed stores) (hsize : 0 < pageSize)
    (h : loadPages cfg stores pageSize pageBytes range rounds range.first ⟨[], total, timestamp⟩ =
      .ok s) : s.run = requested stores range ∧
      s.totalEvents = total + (requested stores range).length := by
  obtain ⟨hrun, htotal⟩ := loadPages_ok hhome hsize h
  rw [← requested_eq, nil_append] at hrun
  exact ⟨hrun, hrun ▸ htotal⟩

variable {ranges : List Range} {spool : Spool δ}

lemma loadEach_ok (hhome : Homed stores) (hsize : 0 < pageSize)
    (h : loadEach cfg stores pageSize pageBytes ranges spool = .ok spool') :
    spool'.runs = spool.runs ++ (ranges.map (requested stores)).filter (!·.isEmpty) ∧
      spool'.totalEvents = spool.totalEvents + (ranges.flatMap (requested stores)).length := by
  induction ranges generalizing spool with
  | nil =>
    cases h
    simp
  | cons range ranges ih =>
    rw [loadEach] at h
    split at h
    · cases h
    · rename_i s hload
      obtain ⟨hrun, htotal⟩ := loadPages_requested hhome hsize hload
      obtain ⟨hruns, hcount⟩ := ih h
      simp only at hruns hcount
      rw [hruns, hcount, htotal, hrun, map_cons, filter_cons, flatMap_cons, length_append]
      refine ⟨?_, by omega⟩
      cases (requested stores range).isEmpty <;> simp

lemma loadEach_returns (cfg : LogConfig (Stored δ)) (pageBytes : ℕ) (hhome : Homed stores)
    (hsize : 0 < pageSize) (hlen : ∀ a log, stores a = some log → log.length + 1 < 2 ^ 64)
    (havail : ∀ range ∈ ranges, range.Available stores)
    (hcount : spool.totalEvents + (ranges.flatMap (requested stores)).length < 2 ^ 64) :
    ∃ spool', loadEach cfg stores pageSize pageBytes ranges spool = .ok spool' := by
  induction ranges generalizing spool with
  | nil => exact ⟨spool, rfl⟩
  | cons range ranges ih =>
    rw [flatMap_cons, length_append] at hcount
    obtain ⟨s, hs⟩ : ∃ s, loadPages cfg stores pageSize pageBytes range
        ((stores range.aggregate).elim 0 length + 2) range.first
        ⟨[], spool.totalEvents, spool.maxTimestamp⟩ = .ok s := by
      rcases havail range mem_cons_self with ⟨last, hlast, hlt⟩ | ⟨log, hlog, hone, hle, hend⟩
      · refine ⟨⟨[], spool.totalEvents, spool.maxTimestamp⟩, ?_⟩
        rw [loadPages, if_pos]
        simpa [Option.mem_def.1 hlast] using hlt
      · rw [hlog]
        refine loadPages_returns hhome hsize hlog hend (hlen _ _ hlog) hone hle ?_ ?_
        · exact le_add_right_of_le (le_refl _)
        · rw [requested_eq, hlog, Option.getD_some, max_eq_left hone] at hcount
          simp only
          omega
    have htotal := (loadPages_requested hhome hsize hs).2
    rw [loadEach]
    simp only [hs]
    exact ih (fun r hr => havail r (mem_cons_of_mem _ hr)) (by simp only; omega)

/-! ### Delivery -/

lemma requested_aggregate (hhome : Homed stores) (h : event ∈ requested stores range) :
    event.aggregate = range.aggregate := by
  cases hlog : stores range.aggregate with
  | none =>
    rw [requested, hlog] at h
    exact absurd (mem_of_mem_filter h) (not_mem_nil)
  | some log =>
    rw [requested, hlog] at h
    exact hhome _ log hlog _ (mem_sequenced (mem_of_mem_filter h))

lemma requestedOf_eq_nil
    (h : ∀ range ∈ ranges, range.aggregate = aggregate → requested stores range = []) :
    requestedOf stores ranges aggregate = [] := by
  refine flatMap_eq_nil_iff.2 fun range hmem => ?_
  obtain ⟨hmem, heq⟩ := mem_filter.1 hmem
  exact h range hmem (of_decide_eq_true heq)

lemma requestedOf_aggregate (hdist : (ranges.map Range.aggregate).Nodup)
    (hmem : range ∈ ranges) : requestedOf stores ranges range.aggregate = requested stores range := by
  induction ranges with
  | nil => cases hmem
  | cons head ranges ih =>
    obtain ⟨hfresh, hrest⟩ := nodup_cons.1 hdist
    have hcons : ∀ a, requestedOf stores (head :: ranges) a =
        (if head.aggregate = a then requested stores head else []) ++
          requestedOf stores ranges a := by
      intro a
      by_cases ha : head.aggregate = a <;> simp [requestedOf, ha]
    rw [hcons]
    rcases mem_cons.1 hmem with rfl | hmem
    · rw [if_pos rfl, requestedOf_eq_nil, append_nil]
      intro other hother heq
      exact absurd (heq ▸ mem_map_of_mem hother) hfresh
    · rw [if_neg, nil_append, ih hrest hmem]
      intro heq
      exact hfresh (heq ▸ mem_map_of_mem hmem)

lemma consecutive_requested (stores : ℕ → Option (List (Stored δ))) (range : Range) :
    Consecutive (max range.first 1) (requested stores range) := by
  rw [requested_eq]
  unfold Range.retain
  have hall := consecutive_sequenced ((stores range.aggregate).getD []) (max range.first 1)
  split
  · rw [hall.filter_le]
    exact hall.take _
  · exact hall

lemma loadRanges_ok (hhome : Homed stores) (hdist : (ranges.map Range.aggregate).Nodup)
    (h : loadRanges cfg stores ranges pageSize pageBytes = .ok spool) :
    Greedy orderKey (requestedOf stores ranges) spool.events ∧ spool.runs.length ≤ mergeFanIn ∧
      spool.events.Perm (ranges.flatMap (requested stores)) ∧
      spool.totalEvents = spool.events.length := by
  unfold loadRanges at h
  split_ifs at h with hsize hbytes
  simp only at h
  split at h
  · cases h
  · rename_i loaded hload
    cases h
    obtain ⟨hruns, htotal⟩ := loadEach_ok hhome (pos_of_ne_zero hsize) hload
    rw [nil_append] at hruns
    rw [zero_add] at htotal
    set sorted := ranges.mergeSort fun range range' => range.aggregate ≤ range'.aggregate
    have hsort : sorted.Perm ranges := mergeSort_perm _ _
    have hevs : mergeToRun orderKey (compactRuns orderKey loaded.runs.length loaded.runs) =
        merge orderKey loaded.runs := by
      rw [mergeToRun_eq, merge_compactRuns]
    -- The runs are those of the aggregates that have events.
    let nonempty := sorted.filter fun range => !(requested stores range).isEmpty
    have hmap : loaded.runs = (nonempty.map Range.aggregate).map (requestedOf stores ranges) := by
      rw [hruns, filter_map, map_map]
      refine map_congr_left fun range hmem => ?_
      have hmem := hsort.mem_iff.1 (mem_of_mem_filter hmem)
      exact (requestedOf_aggregate hdist hmem).symm
    have hperm : (merge orderKey loaded.runs).Perm (ranges.flatMap (requested stores)) := by
      refine (merge_perm _ _).trans ?_
      rw [hruns, flatten_filter_not_isEmpty]
      exact hsort.flatMap_right _
    refine ⟨?_, length_compactRuns (le_refl _), ?_, ?_⟩
    · unfold Spool.events
      rw [hevs, hmap]
      apply merge_greedy
      · refine List.Nodup.sublist ?_ ((hsort.map _).nodup_iff.2 hdist)
        exact filter_sublist.map _
      · intro a ha
        refine requestedOf_eq_nil fun range hmem heq => ?_
        by_contra hne
        refine ha (mem_map.2 ⟨range, mem_filter.2 ⟨hsort.mem_iff.2 hmem, ?_⟩, heq⟩)
        simpa using hne
    · unfold Spool.events
      rw [hevs]
      exact hperm
    · unfold Spool.events
      rw [hevs, hperm.length_eq, htotal]
      exact (hsort.flatMap_right _).length_eq

lemma requested_nodup (hhome : Homed stores) (hdist : (ranges.map Range.aggregate).Nodup) :
    ((ranges.flatMap (requested stores)).map fun event => (event.aggregate, event.seq)).Nodup := by
  rw [map_flatMap]
  refine nodup_flatMap.2 ⟨fun range _ => ?_, ?_⟩
  · apply List.Nodup.of_map Prod.snd
    rw [map_map]
    exact consecutive_iff.1 (consecutive_requested stores range) ▸ nodup_range'
  · refine (pairwise_map.1 hdist).imp fun hne => ?_
    intro id hid hid'
    obtain ⟨event, hevent, rfl⟩ := mem_map.1 hid
    obtain ⟨event', hevent', heq⟩ := mem_map.1 hid'
    apply hne
    rw [← requested_aggregate hhome hevent, ← requested_aggregate hhome hevent']
    exact (congrArg Prod.fst heq).symm

lemma mem_requestedOf (hhome : Homed stores) (h : event ∈ requestedOf stores ranges aggregate) :
    event.aggregate = aggregate := by
  obtain ⟨range, hrange, hevent⟩ := mem_flatMap.1 h
  rw [requested_aggregate hhome hevent]
  exact of_decide_eq_true (mem_filter.1 hrange).2

/-- Replay delivers the requested events, each once, those of an aggregate in sequence order, and
all of them as one greedy merge of the aggregates. Neither the pages nor the rounds of compaction
are visible. It delivers whenever the stores have the ranges. -/
theorem replay_is_greedy_merge (cfg : LogConfig (Stored δ)) (hhome : Homed stores)
    (hdistinct : (ranges.map Range.aggregate).Nodup) (hsize : 0 < pageSize)
    (hbytes : 0 < pageBytes) : ((∀ range ∈ ranges, range.Available stores) →
      (∀ a log, stores a = some log → log.length + 1 < 2 ^ 64) →
      (ranges.flatMap (requested stores)).length < 2 ^ 64 →
      ∃ spool, loadRanges cfg stores ranges pageSize pageBytes = .ok spool) ∧
    ∀ spool, loadRanges cfg stores ranges pageSize pageBytes = .ok spool →
      spool.runs.length ≤ mergeFanIn ∧
      spool.events.Perm (ranges.flatMap (requested stores)) ∧
      (spool.events.map fun event => (event.aggregate, event.seq)).Nodup ∧
      (∀ range ∈ ranges, spool.events.filter (fun event => event.aggregate = range.aggregate) =
            requested stores range ∧
          Consecutive (max range.first 1) (requested stores range)) ∧
      ∀ out, Greedy orderKey (requestedOf stores ranges) out ↔ out = spool.events := by
  constructor
  · intro havailable hlen hcount
    have hsorted : (ranges.mergeSort fun range range' => range.aggregate ≤ range'.aggregate).Perm
        ranges := mergeSort_perm _ _
    obtain ⟨spool, hspool⟩ := loadEach_returns cfg pageBytes hhome hsize hlen
      (fun range hmem => havailable range (hsorted.mem_iff.1 hmem))
      (show (⟨[], 0, none⟩ : Spool δ).totalEvents + _ < _ by
        rw [(hsorted.flatMap_right _).length_eq]
        simpa using hcount)
    refine ⟨{ spool with runs := compactRuns orderKey spool.runs.length spool.runs }, ?_⟩
    rw [loadRanges, if_neg hsize.ne', if_neg hbytes.ne']
    simp only [hspool]
  · intro spool h
    obtain ⟨hgreedy, hruns, hperm, -⟩ := loadRanges_ok hhome hdistinct h
    refine ⟨hruns, hperm, ?_, fun range hmem => ⟨?_, consecutive_requested stores range⟩, fun out => ?_⟩
    · exact (hperm.map _).nodup_iff.2 (requested_nodup hhome hdistinct)
    · rw [hgreedy.filter_eq (fun a event hevent => mem_requestedOf hhome hevent),
        requestedOf_aggregate hdistinct hmem]
    · constructor
      · intro hout
        refine hout.unique hgreedy fun a a' event hevent event' hevent' heq => ?_
        have hkey := (Prod.mk.injEq _ _ _ _).mp (congrArg ofLex heq)
        have haggregate := congrArg (fun p => (ofLex p).1) hkey.2
        rw [← mem_requestedOf hhome hevent, ← mem_requestedOf hhome hevent']
        exact haggregate
      · rintro rfl
        exact hgreedy

/-- Two stores. The timestamps of the first one go back. -/
def sampleStores : ℕ → Option (List (Stored Unit))
  | 0 => some [⟨5, 0, ()⟩, ⟨2, 0, ()⟩, ⟨9, 0, ()⟩]
  | 1 => some [⟨3, 1, ()⟩, ⟨8, 1, ()⟩]
  | _ => none

def sampleRanges : List Range := [⟨1, 1, none⟩, ⟨0, 1, some 2⟩]

lemma sampleStores_homed : Homed sampleStores := by
  intro a log hlog e he
  unfold sampleStores at hlog
  split at hlog
  · cases hlog
    simp only [mem_cons, not_mem_nil, or_false] at he
    rcases he with rfl | rfl | rfl <;> rfl
  · cases hlog
    simp only [mem_cons, not_mem_nil, or_false] at he
    rcases he with rfl | rfl <;> rfl
  · cases hlog

lemma sampleStores_available : ∀ range ∈ sampleRanges, range.Available sampleStores := by
  intro range hmem
  simp only [sampleRanges, mem_cons, not_mem_nil, or_false] at hmem
  rcases hmem with rfl | rfl
  · exact .inr ⟨_, rfl, by decide, by decide, by decide⟩
  · exact .inr ⟨_, rfl, by decide, by decide, by decide⟩

/-- An event with an old timestamp waits for those before it in its aggregate. -/
theorem replay_is_greedy_merge_sample :
    ∃ spool, loadRanges ⟨fun _ => 1, fun _ => true⟩ sampleStores sampleRanges 1 1 = .ok spool ∧
      spool.events = [⟨⟨3, 1, ()⟩, 1⟩, ⟨⟨5, 0, ()⟩, 1⟩, ⟨⟨2, 0, ()⟩, 2⟩, ⟨⟨8, 1, ()⟩, 2⟩] := by
  have hreplay := @replay_is_greedy_merge Unit sampleStores 1 1 sampleRanges
    ⟨fun _ => 1, fun _ => true⟩ sampleStores_homed (by decide) (by decide) (by decide)
  obtain ⟨spool, hspool⟩ := hreplay.1 sampleStores_available (by
    intro a log hlog
    unfold sampleStores at hlog
    split at hlog <;> cases hlog <;> decide) (by decide)
  obtain ⟨-, -, -, -, hgreedy⟩ := hreplay.2 spool hspool
  refine ⟨spool, hspool, ((hgreedy _).1 ?_).symm⟩
  have hmerge := @merge_greedy _ _ _ orderKey _ _ (requestedOf sampleStores sampleRanges) [0, 1]
    (by decide) (by
      refine fun a ha => requestedOf_eq_nil fun range hmem heq => absurd ?_ ha
      simp only [sampleRanges, mem_cons, not_mem_nil, or_false] at hmem
      rcases hmem with rfl | rfl <;> simp [← heq])
  exact hmerge

end

end Interfold.Replay
