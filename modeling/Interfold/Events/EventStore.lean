import Interfold.Library.CrashIo
import Mathlib.Data.List.Basic

/-!
# Event store

Events are appended to a log, which is the source of truth, and found by timestamp through an index
from timestamps to log sequences. The two are written one after the other. When the store starts,
it walks the log page by page and fills in the index rows that are missing.

The log gives out consecutive sequences from 1 and keeps what was flushed; an append that was not
flushed may be lost in a crash. Index rows may be lost in a crash at any time. What survives a crash
is on disk, and is what the next start finds.
-/

namespace Interfold.EventStore

open CrashIo List Triple

/-- An event: its identity, its payload, its timestamp, and the transport context that is no part
of either. -/
structure Event (ι δ κ : Type) where
  id : ι
  data : δ
  ts : ℕ
  context : κ

/-- What the log implementation decides: the encoded size of an event, and which events it takes. -/
structure LogConfig (α : Type) where
  size : α → ℕ
  accepts : α → Bool

/-- What is stored: the log, how much of it was flushed, and the index. -/
structure Disk (α : Type) where
  log : List α
  flushed : ℕ
  index : ℕ → Option ℕ

def Disk.empty {α : Type} : Disk α := ⟨[], 0, fun _ => none⟩

inductive StoreError (ι : Type) where
  | logRefused
  | sequenceMissing (ts seq : ℕ)
  | sequenceMismatch (ts requested returned : ℕ)
  | timestampCollision (ts seq : ℕ) (existing incoming : ι)
  | unexpectedSequence (expected got : ℕ)
  | headChanged (head seq : ℕ)
  | sequenceOverflow (seq : ℕ)
  | eventMissing (head next : ℕ)
  | pageTooLong (length : ℕ)
  | outOfFuel
deriving DecidableEq

section

variable {ι δ κ : Type} [DecidableEq ι] [DecidableEq δ]

/-! ## Log and index -/

namespace Disk

def append (e : Event ι δ κ) (d : Disk (Event ι δ κ)) : Disk (Event ι δ κ) :=
  { d with log := d.log ++ [e] }

def flush (d : Disk (Event ι δ κ)) : Disk (Event ι δ κ) := { d with flushed := d.log.length }

def insert (ts seq : ℕ) (d : Disk (Event ι δ κ)) : Disk (Event ι δ κ) :=
  { d with index := Function.update d.index ts (some seq) }

end Disk

/-- `read_from`: the events from a sequence on, with their sequences. -/
def readFrom {α : Type} (log : List α) (start : ℕ) : List (ℕ × α) :=
  ((log.drop (start - 1)).zipIdx start).map Prod.swap

def readFromBounded {α : Type} (log : List α) (start limit : ℕ) : List (ℕ × α) :=
  (readFrom log start).take limit

/-- `usize::saturating_add`. -/
def saturatingAdd (a b : ℕ) : ℕ := min (a + b) (2 ^ 64 - 1)

/-- Cuts a page where it would exceed the byte budget. The first event always fits. -/
def cutAtBytes {α : Type} (size : α → ℕ) (maxBytes : ℕ) : Bool → ℕ → List (ℕ × α) → List (ℕ × α)
  | _, _, [] => []
  | first, bytes, entry :: rest =>
    let bytes' := saturatingAdd bytes (size entry.2)
    if first = false ∧ maxBytes < bytes' then []
    else entry :: cutAtBytes size maxBytes false bytes' rest

def readFromBoundedByBytes {α : Type} (cfg : LogConfig α) (log : List α)
    (start limit maxBytes : ℕ) : List (ℕ × α) :=
  cutAtBytes cfg.size maxBytes true 0 (readFromBounded log start limit)

/-- `INDEX_RECONCILE_PAGE_SIZE`. -/
def indexReconcilePageSize : ℕ := 1024

/-- `INDEX_RECONCILE_PAGE_BYTES`. -/
def indexReconcilePageBytes : ℕ := 256 * 1024 * 1024

/-! ## Storing -/

abbrev StoreIo (ι δ κ α : Type) := Io (Disk (Event ι δ κ)) (StoreError ι) α

def laterTimestamp (maxTimestamp : Option ℕ) (ts : ℕ) : Option ℕ :=
  some (maxTimestamp.elim ts (max · ts))

/-- Returns the sequenced event, or nothing for a duplicate, with the new greatest timestamp. -/
def storeEvent (cfg : LogConfig (Event ι δ κ)) (event : Event ι δ κ) (maxTimestamp : Option ℕ) :
    StoreIo ι δ κ (Option (ℕ × Event ι δ κ) × Option ℕ) := do
  let d ← read
  match d.index event.ts with
  | some indexedSeq =>
    match (readFromBounded d.log indexedSeq 1).head? with
    | none => fail (.sequenceMissing event.ts indexedSeq)
    | some (loggedSeq, existing) =>
      if loggedSeq ≠ indexedSeq then
        fail (.sequenceMismatch event.ts indexedSeq loggedSeq)
      else if existing.id = event.id ∧ existing.data = event.data then pure (none, maxTimestamp)
      else fail (.timestampCollision event.ts indexedSeq existing.id event.id)
  | none =>
    if cfg.accepts event then do
      write (Disk.append event)
      let appended ← read
      let seq := appended.log.length
      write Disk.flush
      write (Disk.insert event.ts seq)
      pure (some (seq, event), laterTimestamp maxTimestamp event.ts)
    else fail .logRefused

/-! ## Starting -/

/-- Where the walk over the log stands. -/
structure Scan where
  nextSequence : ℕ
  maxTimestamp : Option ℕ

/-- One event of the walk: its row is filled in if it is missing. -/
def reconcileEvent (head : ℕ) (entry : ℕ × Event ι δ κ) (s : Scan) : StoreIo ι δ κ Scan :=
  if entry.1 ≠ s.nextSequence then fail (.unexpectedSequence s.nextSequence entry.1)
  else if head < entry.1 then fail (.headChanged head entry.1)
  else do
    let d ← read
    (match d.index entry.2.ts with
      | some _ => pure ()
      | none => write (Disk.insert entry.2.ts entry.1))
    if entry.1 + 1 < 2 ^ 64 then pure ⟨entry.1 + 1, laterTimestamp s.maxTimestamp entry.2.ts⟩
    else fail (.sequenceOverflow entry.1)

def reconcilePage (head : ℕ) : List (ℕ × Event ι δ κ) → Scan → StoreIo ι δ κ Scan
  | [], s => pure s
  | entry :: page, s => do
    let s ← reconcileEvent head entry s
    reconcilePage head page s

/-- The loop over pages. Every page moves on, so as many rounds as the log has events are enough. -/
def reconcileLoop (cfg : LogConfig (Event ι δ κ)) (head : ℕ) : ℕ → Scan → StoreIo ι δ κ Scan
  | 0, s => if s.nextSequence ≤ head then fail .outOfFuel else pure s
  | rounds + 1, s =>
    if s.nextSequence ≤ head then do
      let d ← read
      let page := readFromBoundedByBytes cfg d.log s.nextSequence indexReconcilePageSize
        indexReconcilePageBytes
      let s ← reconcilePage head page s
      if page.length = 0 then fail (.eventMissing head s.nextSequence)
      else if indexReconcilePageSize < page.length then fail (.pageTooLong page.length)
      else reconcileLoop cfg head rounds s
    else pure s

/-- `EventStore::new`: returns the greatest timestamp of the log. -/
def new (cfg : LogConfig (Event ι δ κ)) : StoreIo ι δ κ (Option ℕ) := do
  let d ← read
  let head := d.log.length
  if head = 0 then pure none
  else do
    let s ← reconcileLoop cfg head head ⟨1, none⟩
    pure s.maxTimestamp

end

/-! ## Reading the log -/

section

variable {α : Type} {log : List α} {i : ℕ}

lemma readFrom_succ (log : List α) (i : ℕ) : readFrom log (i + 1) = match log[i]? with
      | none => []
      | some e => (i + 1, e) :: readFrom log (i + 2) := by
  unfold readFrom
  cases h : log[i]? with
  | none =>
    have hlen : log.length ≤ i := getElem?_eq_none_iff.1 h
    simp [drop_eq_nil_of_le hlen]
  | some e =>
    obtain ⟨hlt, rfl⟩ := List.getElem?_eq_some_iff.1 h
    rw [Nat.add_sub_cancel, drop_eq_getElem_cons hlt, zipIdx_cons, map_cons]
    rfl

lemma cutAtBytes_prefix (size : α → ℕ) (maxBytes : ℕ) (first : Bool) (bytes : ℕ)
    (l : List (ℕ × α)) : cutAtBytes size maxBytes first bytes l <+: l := by
  induction l generalizing first bytes with
  | nil => exact nil_prefix
  | cons entry rest ih =>
    simp only [cutAtBytes]
    split_ifs
    · exact nil_prefix
    · exact (prefix_cons_inj entry).2 (ih _ _)

/-- A page is a part of what is left of the log, and it is not empty while something is left. -/
lemma page_spec (cfg : LogConfig α) (hlt : i < log.length) :
    readFromBoundedByBytes cfg log (i + 1) indexReconcilePageSize indexReconcilePageBytes <+:
        readFrom log (i + 1) ∧
      0 < (readFromBoundedByBytes cfg log (i + 1) indexReconcilePageSize
        indexReconcilePageBytes).length ∧
      (readFromBoundedByBytes cfg log (i + 1) indexReconcilePageSize
        indexReconcilePageBytes).length ≤ indexReconcilePageSize := by
  have hcut := cutAtBytes_prefix cfg.size indexReconcilePageBytes true 0
    (readFromBounded log (i + 1) indexReconcilePageSize)
  refine ⟨hcut.trans (List.take_prefix _ _), ?_, hcut.length_le.trans (length_take_le _ _)⟩
  have hfirst : readFrom log (i + 1) = (i + 1, log[i]) :: readFrom log (i + 2) := by
    rw [readFrom_succ, getElem?_eq_getElem hlt]
  rw [readFromBoundedByBytes, readFromBounded, hfirst, indexReconcilePageSize, take_succ_cons,
    cutAtBytes]
  simp

end

/-! ## Agreement -/

section

variable {ι δ κ : Type}

/-- The index row that belongs to a logged event. -/
def Row (log : List (Event ι δ κ)) (ts seq : ℕ) : Prop :=
  ∃ i e, log[i]? = some e ∧ seq = i + 1 ∧ e.ts = ts

/-- What holds of a disk at any time: no two events at one timestamp, and only rows of flushed
events. -/
structure Sound (d : Disk (Event ι δ κ)) : Prop where
  distinct : (d.log.map Event.ts).Nodup
  flushed_le : d.flushed ≤ d.log.length
  row : ∀ ts seq, d.index ts = some seq → Row d.log ts seq ∧ seq ≤ d.flushed

/-- What holds while the store is up: everything is flushed and has its row. -/
structure Agrees (d : Disk (Event ι δ κ)) (maxTimestamp : Option ℕ) : Prop extends Sound d where
  synced : d.flushed = d.log.length
  complete : ∀ ts seq, Row d.log ts seq → d.index ts = some seq
  greatest : maxTimestamp = (d.log.map Event.ts).max?

/-- What may be left after a crash. -/
structure Survives (d d' : Disk (Event ι δ κ)) : Prop where
  log : ∃ kept, d.flushed ≤ kept ∧ d'.log = d.log.take kept
  flushed : d'.flushed = d'.log.length
  index : ∀ ts, d'.index ts = none ∨ d'.index ts = d.index ts

variable {d d' : Disk (Event ι δ κ)} {log : List (Event ι δ κ)} {m : Option ℕ} {ts seq seq' : ℕ}
  {e : Event ι δ κ}

lemma Row.unique (hlog : (log.map Event.ts).Nodup) (h : Row log ts seq) (h' : Row log ts seq') :
    seq = seq' := by
  obtain ⟨i, e, hi, rfl, rfl⟩ := h
  obtain ⟨j, e', hj, rfl, hts⟩ := h'
  have hlt : i < (log.map Event.ts).length := by
    rw [length_map]
    exact (List.getElem?_eq_some_iff.1 hi).1
  have hij : (log.map Event.ts)[i]? = (log.map Event.ts)[j]? := by
    simp [getElem?_map, hi, hj, hts]
  rw [(getElem?_inj hlt hlog).1 hij]

lemma row_append_self (log : List (Event ι δ κ)) (e : Event ι δ κ) :
    Row (log ++ [e]) e.ts (log.length + 1) :=
  ⟨log.length, e, by simp, rfl, rfl⟩

lemma Row.append (h : Row log ts seq) (e : Event ι δ κ) : Row (log ++ [e]) ts seq := by
  obtain ⟨i, e', hi, hseq, hts⟩ := h
  have hlt := (List.getElem?_eq_some_iff.1 hi).1
  exact ⟨i, e', by rw [getElem?_append_left hlt]; exact hi, hseq, hts⟩

lemma Row.of_append (h : Row (log ++ [e]) ts seq) :
    Row log ts seq ∨ ts = e.ts ∧ seq = log.length + 1 := by
  obtain ⟨i, e', hi, rfl, rfl⟩ := h
  rcases Nat.lt_or_ge i log.length with hlt | hge
  · rw [getElem?_append_left hlt] at hi
    exact .inl ⟨i, e', hi, rfl, rfl⟩
  · rw [getElem?_append_right hge, getElem?_singleton] at hi
    split_ifs at hi with hzero
    obtain rfl := Option.some.inj hi
    exact .inr ⟨rfl, by omega⟩

lemma Row.le_length (h : Row log ts seq) : seq ≤ log.length := by
  obtain ⟨i, e, hi, rfl, -⟩ := h
  exact (List.getElem?_eq_some_iff.1 hi).1

/-- What a crash leaves is sound again, and all of it is on disk. -/
lemma Sound.survives (h : Sound d) (hs : Survives d d') :
    Sound d' ∧ d'.flushed = d'.log.length := by
  obtain ⟨kept, hkept, hlog⟩ := hs.log
  have hflshd := hs.flushed
  refine ⟨⟨?_, hflshd.le, ?_⟩, hflshd⟩
  · rw [hlog, map_take]
    exact h.distinct.sublist (take_sublist _ _)
  · intro ts seq hrow
    rcases hs.index ts with hnone | hsame
    · rw [hnone] at hrow
      cases hrow
    · rw [hsame] at hrow
      obtain ⟨⟨i, e, hi, rfl, rfl⟩, hle⟩ := h.row ts seq hrow
      -- The row is of a flushed event, which survived.
      have hkeep : d'.log[i]? = some e := by
        rw [hlog, getElem?_take, if_pos (by omega)]
        exact hi
      refine ⟨⟨i, e, hkeep, rfl, rfl⟩, ?_⟩
      rw [hflshd]
      exact (List.getElem?_eq_some_iff.1 hkeep).1

/-! ## Storing keeps agreement -/

/-- An event at a new timestamp, appended but neither flushed nor indexed. -/
lemma Agrees.append_sound (h : Agrees d m) (hnew : d.index e.ts = none) : Sound (d.append e) where
  distinct := by
    rw [Disk.append, map_append, nodup_append]
    refine ⟨h.distinct, by simp, ?_⟩
    intro ts hts ts' hts'
    simp only [map_cons, map_nil, mem_singleton] at hts'
    rintro rfl
    obtain ⟨e', he', heq⟩ := mem_map.1 hts
    obtain ⟨i, hi⟩ := mem_iff_getElem?.1 he'
    have hrow := h.complete e.ts (i + 1) ⟨i, e', hi, rfl, heq.trans hts'⟩
    rw [hnew] at hrow
    cases hrow
  flushed_le := by
    simp only [Disk.append, length_append]
    exact h.flushed_le.trans (Nat.le_add_right _ _)
  row ts seq hrow := by
    obtain ⟨hold, hle⟩ := h.row ts seq hrow
    exact ⟨hold.append e, hle⟩

lemma Sound.flush_sound (h : Sound d) : Sound d.flush where
  distinct := h.distinct
  flushed_le := le_rfl
  row ts seq hrow := ⟨(h.row ts seq hrow).1, ((h.row ts seq hrow).2).trans h.flushed_le⟩

lemma Sound.insert_sound (h : Sound d) (hrow : Row d.log ts seq) (hle : seq ≤ d.flushed) :
    Sound (d.insert ts seq) where
  distinct := h.distinct
  flushed_le := h.flushed_le
  row ts' seq' hrow' := by
    by_cases hts : ts' = ts
    · subst hts
      simp only [Disk.insert, Function.update_self, Option.some.injEq] at hrow'
      subst hrow'
      exact ⟨hrow, hle⟩
    · simp only [Disk.insert, Function.update_of_ne hts] at hrow'
      exact h.row ts' seq' hrow'

lemma max?_append_singleton (l : List ℕ) (n : ℕ) : (l ++ [n]).max? = laterTimestamp l.max? n := by
  cases l with
  | nil => rfl
  | cons a l =>
    rw [cons_append, max?_cons', max?_cons', foldl_append]
    rfl

lemma Agrees.stored (h : Agrees d m) (hnew : d.index e.ts = none) :
    Agrees ((d.append e).flush.insert e.ts (d.log.length + 1)) (laterTimestamp m e.ts) where
  toSound := by
    refine (h.append_sound hnew).flush_sound.insert_sound (row_append_self d.log e) ?_
    simp [Disk.flush, Disk.append]
  synced := rfl
  complete ts seq hrow := by
    by_cases hts : ts = e.ts
    · subst hts
      have huniq := Row.unique (h.append_sound hnew).distinct hrow (row_append_self d.log e)
      simp [Disk.insert, huniq]
    · rcases Row.of_append hrow with hold | ⟨heq, -⟩
      · simp only [Disk.insert, Function.update_of_ne hts]
        exact h.complete ts seq hold
      · exact absurd heq hts
  greatest := by
    change _ = ((d.log ++ [e]).map Event.ts).max?
    rw [map_append, map_cons, map_nil, max?_append_singleton, ← h.greatest]

end

section

variable {ι δ κ : Type} [DecidableEq ι] [DecidableEq δ] {cfg : LogConfig (Event ι δ κ)}
  {d : Disk (Event ι δ κ)} {m : Option ℕ} {e : Event ι δ κ}

omit [DecidableEq ι] [DecidableEq δ] in
/-- A new event goes through three disks before it is stored. -/
lemma store_new_spec (h : Agrees d m) (hnew : d.index e.ts = none) : Triple (· = d) (do
        write (Disk.append e)
        let appended ← read
        write Disk.flush
        write (Disk.insert e.ts appended.log.length)
        pure (some (appended.log.length, e), laterTimestamp m e.ts) :
        StoreIo ι δ κ (Option (ℕ × Event ι δ κ) × Option ℕ))
      (fun r s => Agrees s r.2 ∧ s.log = d.log ++ [e] ∧ r.1 = some (d.log.length + 1, e))
      (fun stop s => Sound s ∧ stop = .crash) := by
  have happ := h.append_sound hnew
  have hleng : (d.append e).log.length = d.log.length + 1 := by simp [Disk.append]
  refine bind (Q := fun _ s => s = d.append e) (write ?_ ?_) fun _ => ?_
  · rintro _ rfl
    rfl
  · rintro _ rfl
    exact ⟨h.toSound, rfl⟩
  refine read_bind fun s hs => ?_
  subst hs
  refine bind (Q := fun _ s => s = (d.append e).flush) (write ?_ ?_) fun _ => ?_
  · rintro _ rfl
    rfl
  · rintro _ rfl
    exact ⟨happ, rfl⟩
  rw [hleng]
  refine bind (Q := fun _ s => s = (d.append e).flush.insert e.ts (d.log.length + 1))
    (write ?_ ?_) fun _ => pure ?_
  · rintro _ rfl
    rfl
  · rintro _ rfl
    exact ⟨happ.flush_sound, rfl⟩
  · rintro _ rfl
    exact ⟨h.stored hnew, rfl, rfl⟩

/-- What a call to `storeEvent` leaves behind: a new event with its row, or nothing new. An error
changes nothing, and a crash leaves a sound disk. -/
lemma storeEvent_spec (h : Agrees d m) : Triple (· = d) (storeEvent cfg e m)
      (fun r s => Agrees s r.2 ∧ (s = d ∧ r = (none, m) ∨
        s.log = d.log ++ [e] ∧ r.1 = some (d.log.length + 1, e)))
      (fun stop s => Sound s ∧ ∀ err, stop = .error err → s = d) := by
  refine read_bind fun s hs => ?_
  subst hs
  cases hindex : s.index e.ts with
  | none =>
    by_cases hacc : cfg.accepts e = true
    · simp only [hacc, if_true]
      intro n s' hs'
      have hrun := store_new_spec h hindex n s' hs'
      revert hrun
      split
      · rintro ⟨hagrees, hlog, hr⟩
        exact ⟨hagrees, .inr ⟨hlog, hr⟩⟩
      · rintro ⟨hsound, rfl⟩
        exact ⟨hsound, by simp⟩
    · simp only [hacc]
      refine fail ?_
      rintro _ rfl
      exact ⟨h.toSound, fun _ _ => rfl⟩
  | some seq =>
    have hsame : ∀ stop : Stop (StoreError ι), Sound s ∧ ∀ err, stop = .error err → s = s :=
      fun _ => ⟨h.toSound, fun _ _ => rfl⟩
    dsimp only
    split
    · refine fail ?_
      rintro _ rfl
      exact hsame _
    · split_ifs
      · refine fail ?_
        rintro _ rfl
        exact hsame _
      · refine pure ?_
        rintro _ rfl
        exact ⟨h, .inl ⟨rfl, rfl⟩⟩
      · refine fail ?_
        rintro _ rfl
        exact hsame _

end

/-! ## Starting restores agreement -/

section

variable {ι δ κ : Type} {cfg : LogConfig (Event ι δ κ)} {log : List (Event ι δ κ)}

/-- The walk has indexed the events before its next sequence. -/
structure Scanned (log : List (Event ι δ κ)) (s : Scan) (d : Disk (Event ι δ κ)) : Prop
    extends Sound d where
  log_eq : d.log = log
  synced : d.flushed = log.length
  pos : 1 ≤ s.nextSequence
  bound : s.nextSequence ≤ log.length + 1
  complete : ∀ ts seq, Row log ts seq → seq < s.nextSequence → d.index ts = some seq
  greatest : s.maxTimestamp = ((log.take (s.nextSequence - 1)).map Event.ts).max?

/-- What is left when the start is cut or fails. -/
def Cut (log : List (Event ι δ κ)) (stop : Stop (StoreError ι)) (d : Disk (Event ι δ κ)) : Prop :=
  Sound d ∧ d.log = log ∧ d.flushed = log.length ∧ (log.length + 1 < 2 ^ 64 → stop = .crash)

variable {s : Scan} {d : Disk (Event ι δ κ)} {e : Event ι δ κ}

lemma Scanned.cut (h : Scanned log s d) : Cut log .crash d :=
  ⟨h.toSound, h.log_eq, h.synced, fun _ => rfl⟩

/-- Once the row of the next event is there, the walk stands one further. -/
lemma Scanned.advance (h : Scanned log s d) (he : log[s.nextSequence - 1]? = some e)
    (hsound : Sound d') (hlog : d'.log = d.log) (hflshd : d'.flushed = d.flushed)
    (hrow : d'.index e.ts = some s.nextSequence)
    (hkeep : ∀ ts seq, d.index ts = some seq → d'.index ts = some seq) :
    Scanned log ⟨s.nextSequence + 1, laterTimestamp s.maxTimestamp e.ts⟩ d' where
  toSound := hsound
  log_eq := hlog.trans h.log_eq
  synced := hflshd.trans h.synced
  pos := Nat.le_add_left 1 s.nextSequence
  bound := by
    have hlt := (List.getElem?_eq_some_iff.1 he).1
    have hpos := h.pos
    dsimp only
    omega
  complete ts seq hr hlt := by
    rcases Nat.lt_or_ge seq s.nextSequence with hold | hge
    · exact hkeep ts seq (h.complete ts seq hr hold)
    · -- The row of the event itself.
      obtain rfl : seq = s.nextSequence := by
        dsimp only at hlt
        omega
      obtain ⟨i, e', hi, hseq, rfl⟩ := hr
      have hindex : s.nextSequence - 1 = i := by omega
      rw [hindex, hi] at he
      obtain rfl := Option.some.inj he
      exact hrow
  greatest := by
    have hsucc : s.nextSequence + 1 - 1 = (s.nextSequence - 1) + 1 := by
      have hpos := h.pos
      omega
    dsimp only
    rw [hsucc, take_add_one, he, Option.toList_some, map_append, map_cons, map_nil,
      max?_append_singleton, ← h.greatest]

/-- The row of the next event is there after its turn, whether it was before or not. -/
lemma backfill_spec (h : Scanned log s d) (he : log[s.nextSequence - 1]? = some e) : Triple (· = d)
      (match d.index e.ts with
        | some _ => pure ()
        | none => write (Disk.insert e.ts s.nextSequence) : StoreIo ι δ κ Unit)
      (fun _ => Scanned log ⟨s.nextSequence + 1, laterTimestamp s.maxTimestamp e.ts⟩)
      (Cut log) := by
  have hpos := h.pos
  have hrow : Row d.log e.ts s.nextSequence := by
    rw [h.log_eq]
    exact ⟨s.nextSequence - 1, e, he, by omega, rfl⟩
  cases hindex : d.index e.ts with
  | some seq =>
    refine pure ?_
    rintro _ rfl
    obtain rfl := Row.unique h.distinct (h.row e.ts seq hindex).1 hrow
    exact h.advance he h.toSound rfl rfl hindex fun _ _ => id
  | none =>
    refine write ?_ ?_
    · rintro d rfl
      have hle : s.nextSequence ≤ d.flushed := by
        rw [h.synced, ← h.log_eq]
        exact hrow.le_length
      refine h.advance he (h.insert_sound hrow hle) rfl rfl (Function.update_self ..) ?_
      intro ts seq hts
      have hne : ts ≠ e.ts := by
        rintro rfl
        rw [hindex] at hts
        cases hts
      simpa only [Disk.insert, Function.update_of_ne hne] using hts
    · rintro _ rfl
      exact h.cut

lemma reconcileEvent_spec (he : log[s.nextSequence - 1]? = some e) :
    Triple (Scanned log s) (reconcileEvent log.length (s.nextSequence, e) s)
      (fun s' d => Scanned log s' d ∧ s'.nextSequence = s.nextSequence + 1) (Cut log) := by
  have hlt := (List.getElem?_eq_some_iff.1 he).1
  have hle : s.nextSequence ≤ log.length := by omega
  simp only [reconcileEvent, ne_eq, not_true, if_false, Nat.not_lt.2 hle]
  refine read_bind fun d h => ?_
  refine bind (backfill_spec h he) fun _ => ?_
  split_ifs with hfits
  · exact pure fun _ hd => ⟨hd, rfl⟩
  · refine fail fun d hd => ⟨hd.toSound, hd.log_eq, hd.synced, fun hsmall => ?_⟩
    omega

/-- A page is walked from its first event to its last. -/
lemma reconcilePage_spec (page : List (ℕ × Event ι δ κ)) (s : Scan)
    (hpage : page <+: readFrom log s.nextSequence) :
    Triple (Scanned log s) (reconcilePage log.length page s)
      (fun s' d => Scanned log s' d ∧ s'.nextSequence = s.nextSequence + page.length)
      (Cut log) := by
  induction page generalizing s with
  | nil => exact pure fun _ hd => ⟨hd, rfl⟩
  | cons entry page ih =>
    intro n d hd
    obtain ⟨i, hi⟩ : ∃ i, s.nextSequence = i + 1 := ⟨s.nextSequence - 1, by
      have := hd.pos
      omega⟩
    rw [hi, readFrom_succ] at hpage
    cases he : log[i]? with
    | none =>
      rw [he] at hpage
      exact absurd (prefix_nil.1 hpage) (cons_ne_nil _ _)
    | some e =>
      rw [he] at hpage
      obtain ⟨rfl, hrest⟩ := cons_prefix_cons.1 hpage
      have hevent : log[s.nextSequence - 1]? = some e := by
        rw [hi]
        exact he
      rw [← hi]
      refine bind (reconcileEvent_spec hevent) (fun s' => ?_) n d hd
      intro n' d' ⟨hd', hnext⟩
      have hwalk := ih s' (by rw [hnext, hi]; exact hrest) n' d' hd'
      revert hwalk
      split
      · rintro ⟨hscan, hleng⟩
        refine ⟨hscan, ?_⟩
        rw [hleng, hnext, length_cons]
        omega
      · exact id

/-- The loop ends past the last event when it has a round for every event that is left. -/
lemma reconcileLoop_spec (cfg : LogConfig (Event ι δ κ)) (rounds : ℕ) (s : Scan)
    (hrnds : log.length + 1 ≤ s.nextSequence + rounds) :
    Triple (Scanned log s) (reconcileLoop cfg log.length rounds s)
      (fun s' d => Scanned log s' d ∧ s'.nextSequence = log.length + 1) (Cut log) := by
  induction rounds generalizing s with
  | zero =>
    have hdone : ¬ s.nextSequence ≤ log.length := by omega
    rw [reconcileLoop, if_neg hdone]
    refine pure fun d hd => ⟨hd, ?_⟩
    have hbound := hd.bound
    omega
  | succ rounds ih =>
    rw [reconcileLoop]
    by_cases hmore : s.nextSequence ≤ log.length
    · rw [if_pos hmore]
      refine read_bind fun d hd => ?_
      obtain ⟨i, hi⟩ : ∃ i, s.nextSequence = i + 1 := ⟨s.nextSequence - 1, by
        have := hd.pos
        omega⟩
      rw [hd.log_eq, hi]
      obtain ⟨hpage, hpos, hsize⟩ := page_spec cfg (show i < log.length by omega)
      generalize readFromBoundedByBytes cfg log (i + 1) indexReconcilePageSize
        indexReconcilePageBytes = page at hpage hpos hsize
      rw [← hi] at hpage
      refine bind ((reconcilePage_spec page s hpage).weaken ?_ fun _ _ => id) fun s' => ?_
      · rintro _ rfl
        exact hd
      rw [if_neg (by omega), if_neg (by omega)]
      intro n d' ⟨hd', hnext⟩
      exact ih s' (by omega) n d' hd'
    · rw [if_neg hmore]
      refine pure fun d hd => ⟨hd, ?_⟩
      have hbound := hd.bound
      omega

/-- The store starts on any sound disk: the log is as it was, and every event has its row. -/
lemma new_spec (cfg : LogConfig (Event ι δ κ)) :
    Triple (fun d => Sound d ∧ d.log = log ∧ d.flushed = log.length) (new cfg)
      (fun m d => Agrees d m ∧ d.log = log) (Cut log) := by
  refine read_bind fun d h => ?_
  obtain ⟨hsound, rfl, hsync⟩ := h
  dsimp only
  by_cases hempty : d.log.length = 0
  · rw [if_pos hempty]
    refine pure ?_
    rintro d rfl
    have hnil : d.log = [] := eq_nil_of_length_eq_zero hempty
    refine ⟨⟨hsound, hsync, ?_, ?_⟩, rfl⟩
    · rintro ts seq ⟨i, e, hi, -⟩
      rw [hnil] at hi
      cases hi
    · rw [hnil]
      rfl
  · rw [if_neg hempty]
    have hstart : Scanned d.log ⟨1, none⟩ d :=
      { hsound with
        log_eq := rfl
        synced := hsync
        pos := le_rfl
        bound := Nat.le_add_left 1 _
        complete := by
          rintro ts seq ⟨i, e, -, rfl, -⟩ hlt
          dsimp only at hlt
          omega
        greatest := rfl }
    refine bind ((reconcileLoop_spec cfg d.log.length ⟨1, none⟩ (by dsimp only; omega)).weaken ?_
        fun _ _ => id) fun s => pure ?_
    · rintro _ rfl
      exact hstart
    · rintro d' ⟨hd', hnext⟩
      refine ⟨⟨hd'.toSound, ?_, ?_, ?_⟩, hd'.log_eq⟩
      · rw [hd'.synced, hd'.log_eq]
      · intro ts seq hrow
        rw [hd'.log_eq] at hrow
        exact hd'.complete ts seq hrow (by have := hrow.le_length; omega)
      · rw [hd'.greatest, hnext, hd'.log_eq, Nat.add_sub_cancel, take_length]

end

/-! ## Runs -/

/-- The process is down, or up with the greatest timestamp it knows of. -/
inductive Status where
  | down
  | up (maxTimestamp : Option ℕ)

section

variable {ι δ κ : Type} [DecidableEq ι] [DecidableEq δ]

/-- Runs of the store: calls and starts, any of which can be cut after any number of writes, and
crashes between them. A crash keeps what `Survives` allows. -/
inductive Reachable (cfg : LogConfig (Event ι δ κ)) : Disk (Event ι δ κ) → Status → Prop where
  | create : Reachable cfg .empty .down
  | boot {d d' m n n'} :
      Reachable cfg d .down → new cfg n d = (.ok m, n', d') → Reachable cfg d' (.up m)
  | bootStop {d d' d'' n n' stop} :
      Reachable cfg d .down → new cfg n d = (.error stop, n', d') → Survives d' d'' →
      Reachable cfg d'' .down
  | store {d d' e m m' n n' r} :
      Reachable cfg d (.up m) → storeEvent cfg e m n d = (.ok (r, m'), n', d') →
      Reachable cfg d' (.up m')
  | refuse {d d' e m n n' err} :
      Reachable cfg d (.up m) → storeEvent cfg e m n d = (.error (.error err), n', d') →
      Reachable cfg d' (.up m)
  | cut {d d' d'' e m n n'} :
      Reachable cfg d (.up m) → storeEvent cfg e m n d = (.error .crash, n', d') →
      Survives d' d'' → Reachable cfg d'' .down
  | crash {d d' m} : Reachable cfg d (.up m) → Survives d d' → Reachable cfg d' .down

/-- What a run keeps: agreement while the process is up, soundness on disk while it is down. -/
def Consistent (d : Disk (Event ι δ κ)) : Status → Prop
  | .down => Sound d ∧ d.flushed = d.log.length
  | .up m => Agrees d m

omit [DecidableEq ι] [DecidableEq δ] in
lemma sound_empty : Sound (Disk.empty : Disk (Event ι δ κ)) where
  distinct := nodup_nil
  flushed_le := le_rfl
  row _ _ h := by cases h

lemma Reachable.consistent {cfg : LogConfig (Event ι δ κ)} {d : Disk (Event ι δ κ)}
    {status : Status} (h : Reachable cfg d status) : Consistent d status := by
  induction h with
  | create => exact ⟨sound_empty, rfl⟩
  | boot _ hrun ih => exact ((new_spec cfg).ok ⟨ih.1, rfl, ih.2⟩ hrun).1
  | bootStop _ hrun hkept ih =>
    obtain ⟨hsound, -⟩ := (new_spec cfg).stop ⟨ih.1, rfl, ih.2⟩ hrun
    exact hsound.survives hkept
  | store _ hrun ih => exact ((storeEvent_spec ih).ok rfl hrun).1
  | refuse _ hrun ih =>
    obtain rfl := ((storeEvent_spec ih).stop rfl hrun).2 _ rfl
    exact ih
  | cut _ hrun hkept ih => exact ((storeEvent_spec ih).stop rfl hrun).1.survives hkept
  | crash _ hkept ih => exact ih.toSound.survives hkept

end

def sampleEvent (ts : ℕ) : Event Bool Bool Unit := ⟨true, true, ts, ()⟩

end Interfold.EventStore
