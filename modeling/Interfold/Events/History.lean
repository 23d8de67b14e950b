import Interfold.Events.EventStore
import Mathlib.Data.List.Perm.Subperm

/-!
# History pages

A reader asks the store for its events in timestamp order, page by page, and hands the last
timestamp of a page back as the start of the next one. The log is not in timestamp order, so a page
walks the index and reads every record by its sequence. A page ends at its limit, before a record
that exceeds the byte budget, or with the index.

Records are those that decode; damaged frames are found when the log is opened.
-/

namespace Interfold.EventStore

open List Nat

/-- The index from timestamps to sequences, in the order of its keys. -/
structure SequenceIndex where
  rows : List (ℕ × ℕ)
  ascending : rows.Pairwise fun row row' => row.1 < row'.1

/-- `range_from`: the first rows at or after a key. -/
def SequenceIndex.rangeFrom (index : SequenceIndex) (key limit : ℕ) : List (ℕ × ℕ) :=
  (index.rows.filter fun row => key ≤ row.1).take limit

inductive HistoryError where
  | readFailed (seq : ℕ)
  | wrongSequence (seq returned : ℕ)
  | sequenceMissing (ts seq : ℕ)
  | timestampMismatch (ts seq held : ℕ)
  | cursorOverflow (ts : ℕ)
  | noProgress (since : ℕ)
  | outOfFuel
deriving DecidableEq

/-! ## One record -/

/-- `MAX_MESSAGE_BYTES`. -/
def maxMessageBytes : ℕ := 32 * 1024 * 1024

/-- `SINGLE_RECORD_READ_BYTES`. -/
def singleRecordReadBytes : ℕ := 64 * 1024

/-- How records lie in the commit log: the bytes of a frame, and the encoded size of the event. The
two differ for an event that is kept in a blob. A frame above the limit is never appended. -/
structure Layout (α : Type) where
  frame : α → ℕ
  recordLen : α → ℕ
  frame_le : ∀ a, frame a ≤ maxMessageBytes

inductive LogRecord (α : Type) where
  | event (event : α) (bytes : ℕ)
  | tooLarge (bytes : ℕ)

section

variable {α : Type}

/-- The messages of the commit log from an offset on. -/
def messagesFrom (log : List α) (offset : ℕ) : List (ℕ × α) :=
  ((log.drop offset).zipIdx offset).map Prod.swap

/-- As many whole messages as fit. -/
def fitting (frame : α → ℕ) : ℕ → List (ℕ × α) → List (ℕ × α)
  | _, [] => []
  | window, msg :: rest =>
    if frame msg.2 ≤ window then msg :: fitting frame (window - frame msg.2) rest else []

/-- `CommitLog::read`. It refuses a window that the first message does not fit in. -/
def commitLogRead (frame : α → ℕ) (log : List α) (offset window : ℕ) : Option (List (ℕ × α)) :=
  match messagesFrom log offset with
  | [] => some []
  | msg :: rest => if frame msg.2 ≤ window then some (fitting frame window (msg :: rest)) else none

/-- The loop of `read_one_within`: a refused window is doubled, up to the message limit. -/
def readGrowing (frame : α → ℕ) (log : List α) (offset : ℕ) :
    ℕ → ℕ → Except HistoryError (List (ℕ × α))
  | 0, _ => .error .outOfFuel
  | rounds + 1, window =>
    match commitLogRead frame log offset window with
    | some buf => .ok buf
    | none =>
      if window < maxMessageBytes then
        readGrowing frame log offset rounds (min (window * 2) maxMessageBytes)
      else .error (.readFailed (offset + 1))

/-- The window reaches the message limit in this many rounds. -/
def windowRounds : ℕ := 10

def readOneWithin (layout : Layout α) (log : List α) (seq : ℕ) (maxBytes : Option ℕ) :
    Except HistoryError (Option (LogRecord α)) :=
  if seq = 0 then .ok none
  else match readGrowing layout.frame log (seq - 1) windowRounds singleRecordReadBytes with
    | .error error => .error error
    | .ok [] => .ok none
    | .ok ((offset, event) :: _) =>
      if offset ≠ seq - 1 then .error (.wrongSequence seq (offset + 1))
      else if maxBytes.any (· < layout.recordLen event) then
        .ok (some (.tooLarge (layout.recordLen event)))
      else .ok (some (.event event (layout.recordLen event)))

end

/-! ## One page -/

/-- How far a page read, and whether the store holds more. -/
structure HistoryProgress where
  lastScannedTs : Option ℕ
  exhausted : Bool
deriving DecidableEq

section

variable {ι δ κ : Type}

/-- The loop of `query_history_page` over the rows of a page. -/
def scanHistory (layout : Layout (Event ι δ κ)) (log : List (Event ι δ κ)) (maxBytes : ℕ)
    (exhausted : Bool) : List (ℕ × ℕ) → List (ℕ × Event ι δ κ) → ℕ → Option ℕ →
    Except HistoryError (List (ℕ × Event ι δ κ) × HistoryProgress)
  | [], events, _, last => .ok (events, ⟨last, exhausted⟩)
  | (ts, seq) :: rows, events, bytes, last =>
    -- The first record is read whatever its size.
    let budget := if events.isEmpty then none else some (maxBytes - bytes)
    match readOneWithin layout log seq budget with
    | .error error => .error error
    | .ok none => .error (.sequenceMissing ts seq)
    | .ok (some (.tooLarge _)) => .ok (events, ⟨last, false⟩)
    | .ok (some (.event event eventBytes)) =>
      if event.ts ≠ ts then .error (.timestampMismatch ts seq event.ts)
      else scanHistory layout log maxBytes exhausted rows (events ++ [(seq, event)])
        (saturatingAdd bytes eventBytes) (some ts)

def queryHistoryPage (layout : Layout (Event ι δ κ)) (index : SequenceIndex)
    (log : List (Event ι δ κ)) (since limit maxBytes : ℕ) :
    Except HistoryError (List (ℕ × Event ι δ κ) × HistoryProgress) :=
  let entries := index.rangeFrom since (saturatingAdd limit 1)
  scanHistory layout log maxBytes (decide (entries.length ≤ limit)) (entries.take limit) [] 0 none

/-- The reader: pages until the store says that it is exhausted. -/
def historyPages (layout : Layout (Event ι δ κ)) (index : SequenceIndex)
    (log : List (Event ι δ κ)) (limit maxBytes : ℕ) :
    ℕ → ℕ → Except HistoryError (List (List (ℕ × Event ι δ κ)))
  | 0, _ => .error .outOfFuel
  | rounds + 1, since =>
    match queryHistoryPage layout index log since limit maxBytes with
    | .error error => .error error
    | .ok (events, ⟨_, true⟩) => .ok [events]
    | .ok (_, ⟨none, false⟩) => .error (.noProgress since)
    | .ok (events, ⟨some ts, false⟩) =>
      if ts + 1 < 2 ^ 128 then
        (historyPages layout index log limit maxBytes rounds (ts + 1)).map (events :: ·)
      else .error (.cursorOverflow ts)

end

/-! ## Reading back one record -/

section

variable {α : Type} {log : List α} {i : ℕ} {a : α}

lemma messagesFrom_eq_cons (h : log[i]? = some a) :
    ∃ rest, messagesFrom log i = (i, a) :: rest := by
  obtain ⟨hlt, rfl⟩ := List.getElem?_eq_some_iff.1 h
  refine ⟨messagesFrom log (i + 1), ?_⟩
  rw [messagesFrom, drop_eq_getElem_cons hlt, zipIdx_cons, map_cons]
  rfl

/-- A window that the record fits in is found, because the last one is the message limit. -/
lemma readGrowing_returns (layout : Layout α) (h : log[i]? = some a)
    (hreach : maxMessageBytes ≤ window * 2 ^ rounds) :
    ∃ rest, readGrowing layout.frame log i (rounds + 1) window = .ok ((i, a) :: rest) := by
  obtain ⟨rest, hmsgs⟩ := messagesFrom_eq_cons h
  have hframe := layout.frame_le a
  induction rounds generalizing window with
  | zero =>
    have hfits : layout.frame a ≤ window := by omega
    refine ⟨fitting layout.frame (window - layout.frame a) rest, ?_⟩
    simp only [readGrowing, commitLogRead, hmsgs, if_pos hfits, fitting]
  | succ rounds ih =>
    rw [readGrowing, commitLogRead, hmsgs]
    by_cases hfits : layout.frame a ≤ window
    · refine ⟨fitting layout.frame (window - layout.frame a) rest, ?_⟩
      simp only [if_pos hfits, fitting]
    · simp only [if_neg hfits]
      rw [if_pos (by omega)]
      apply ih
      rw [pow_succ] at hreach
      rcases le_total (window * 2) maxMessageBytes with hle | hle
      · rw [min_eq_left hle]
        calc maxMessageBytes ≤ window * (2 ^ rounds * 2) := hreach
          _ = window * 2 * 2 ^ rounds := by rw [mul_comm (2 ^ rounds), ← mul_assoc]
      · rw [min_eq_right hle]
        exact Nat.le_mul_of_pos_right _ (Nat.two_pow_pos rounds)

lemma readOneWithin_eq (layout : Layout α) (h : log[i]? = some a) (mb : Option ℕ) :
    readOneWithin layout log (i + 1) mb = .ok (some
      (if mb.any (· < layout.recordLen a) then .tooLarge (layout.recordLen a)
      else .event a (layout.recordLen a))) := by
  have hreach : maxMessageBytes ≤ singleRecordReadBytes * 2 ^ 9 := by decide
  obtain ⟨rest, hread⟩ := readGrowing_returns layout h hreach
  simp only [readOneWithin, Nat.add_one_ne_zero, if_false, Nat.add_sub_cancel, windowRounds, hread,
    ne_eq, not_true_eq_false]
  split_ifs <;> rfl

end

/-! ## Reading back one page -/

section

variable {ι δ κ : Type} {layout : Layout (Event ι δ κ)} {index : SequenceIndex}
  {log : List (Event ι δ κ)} {mb limit since : ℕ} {exhausted : Bool}

/-- The records that index rows point to. -/
def resolve (log : List (Event ι δ κ)) (rows : List (ℕ × ℕ)) : List (ℕ × Event ι δ κ) :=
  rows.filterMap fun row => log[row.2 - 1]?.map (row.2, ·)

/-- The encoded bytes of a list of records. -/
def recordBytes (layout : Layout (Event ι δ κ)) (events : List (ℕ × Event ι δ κ)) : ℕ :=
  (events.map fun entry => layout.recordLen entry.2).sum

variable {row : ℕ × ℕ} {e : Event ι δ κ} {ts seq : ℕ} {rows : List (ℕ × ℕ)}
  {events : List (ℕ × Event ι δ κ)}

lemma resolve_cons (h : log[row.2 - 1]? = some e) (rows : List (ℕ × ℕ)) :
    resolve log (row :: rows) = (row.2, e) :: resolve log rows := by
  simp [resolve, h]

lemma sub_saturatingAdd (hbytes : mb < 2 ^ 64) (a b : ℕ) : mb - saturatingAdd a b = mb - a - b := by
  unfold saturatingAdd
  omega

lemma scanHistory_event (he : log[i]? = some e) (hts : e.ts = ts) :
    scanHistory layout log mb exhausted ((ts, i + 1) :: rows) events bytes last =
      if events ≠ [] ∧ mb - bytes < layout.recordLen e then .ok (events, ⟨last, false⟩)
      else scanHistory layout log mb exhausted rows (events ++ [(i + 1, e)])
        (saturatingAdd bytes (layout.recordLen e)) (some ts) := by
  rw [scanHistory, readOneWithin_eq layout he]
  cases events with
  | nil => simp [hts]
  | cons entry events =>
    by_cases hlarge : mb - bytes < layout.recordLen e
    · simp [hlarge]
    · simp [hlarge, hts]

variable (layout : Layout (Event ι δ κ))

/-- A page has the records of the first rows, up to one that exceeds the budget. The first record is
always in it. -/
lemma scanHistory_spec (exhausted : Bool) (hbytes : mb < 2 ^ 64)
    (hrows : ∀ row ∈ rows, Row log row.1 row.2) (events : List (ℕ × Event ι δ κ)) (bytes : ℕ)
    (last : Option ℕ) : ∃ page rest, rows = page ++ rest ∧
      scanHistory layout log mb exhausted rows events bytes last = .ok (events ++ resolve log page,
          ⟨(page.getLast?.map Prod.fst).or last, exhausted && rest.isEmpty⟩) ∧
      (events = [] → page = [] → rest = []) ∧
      recordBytes layout ((resolve log page).drop (1 - events.length)) ≤
        mb - bytes - recordBytes layout ((resolve log page).take (1 - events.length)) := by
  induction rows generalizing events bytes last with
  | nil =>
    refine ⟨[], [], rfl, ?_, fun _ _ => rfl, by simp [resolve, recordBytes]⟩
    simp [scanHistory, resolve]
  | cons row rows ih =>
    obtain ⟨i, e, he, hseq, hts⟩ := hrows row mem_cons_self
    obtain ⟨ts, seq⟩ := row
    simp only at hseq hts
    subst hseq
    rw [scanHistory_event he hts]
    by_cases hlarge : events ≠ [] ∧ mb - bytes < layout.recordLen e
    · refine ⟨[], (ts, i + 1) :: rows, rfl, ?_, fun h => absurd h hlarge.1, ?_⟩
      · simp [hlarge, resolve]
      · simp [resolve, recordBytes]
    · obtain ⟨page, rest, rfl, hscan, -, hle⟩ :=
        ih (fun row hrow => hrows row (mem_cons_of_mem _ hrow)) (events ++ [(i + 1, e)])
          (saturatingAdd bytes (layout.recordLen e)) (some ts)
      have hreso : resolve log ((ts, i + 1) :: page) = (i + 1, e) :: resolve log page :=
        resolve_cons he page
      refine ⟨(ts, i + 1) :: page, rest, rfl, ?_, fun _ hnil => absurd hnil (cons_ne_nil _ _), ?_⟩
      · rw [if_neg hlarge, hscan, hreso]
        cases hlast : page.getLast? <;> simp [getLast?_cons, hlast]
      · rw [sub_saturatingAdd hbytes] at hle
        cases events with
        | nil => simpa [hreso, recordBytes] using hle
        | cons entry events =>
          simp [hreso, recordBytes] at hle hlarge ⊢
          omega

/-! ## Pages -/

/-- The index has a row for every event of the log, and no other rows. -/
def IndexAgrees (index : SequenceIndex) (log : List (Event ι δ κ)) : Prop :=
  ∀ ts seq, (ts, seq) ∈ index.rows ↔ Row log ts seq

/-- The rows a reader that starts at a timestamp has yet to see. -/
def SequenceIndex.rowsFrom (index : SequenceIndex) (since : ℕ) : List (ℕ × ℕ) :=
  index.rows.filter fun row => since ≤ row.1

lemma rowsFrom_row (h : IndexAgrees index log) (hrow : row ∈ index.rowsFrom since) :
    Row log row.1 row.2 ∧ since ≤ row.1 := by
  simp only [SequenceIndex.rowsFrom, mem_filter, decide_eq_true_eq] at hrow
  exact ⟨(h row.1 row.2).1 hrow.1, hrow.2⟩

lemma rowsFrom_length_le (h : IndexAgrees index log) (since : ℕ) :
    (index.rowsFrom since).length ≤ log.length := by
  have hnodup : ((index.rowsFrom since).map Prod.fst).Nodup := by
    rw [List.Nodup, pairwise_map]
    exact (index.ascending.filter _).imp fun hlt heq => ne_of_lt hlt heq
  have hsub : (index.rowsFrom since).map Prod.fst ⊆ log.map Event.ts := by
    intro ts hts
    obtain ⟨row, hrow, rfl⟩ := mem_map.1 hts
    obtain ⟨i, e, he, -, hets⟩ := (rowsFrom_row h hrow).1
    exact mem_map.2 ⟨e, mem_of_getElem? he, hets⟩
  simpa using (subperm_of_subset hnodup hsub).length_le

/-- Rows are in timestamp order, so those after the last row of a page are those of the pages to
come. -/
lemma rowsFrom_succ (hsplit : index.rowsFrom since = page ++ rest)
    (hlast : page.getLast? = some (ts, seq)) : index.rowsFrom (ts + 1) = rest := by
  have hasc : (page ++ rest).Pairwise fun row row' => row.1 < row'.1 := by
    rw [← hsplit]
    exact index.ascending.filter _
  obtain ⟨init, rfl⟩ := getLast?_eq_some_iff.1 hlast
  have hsince : since ≤ ts := by
    have hmem : (ts, seq) ∈ index.rowsFrom since := by
      rw [hsplit]
      simp
    simp only [SequenceIndex.rowsFrom, mem_filter, decide_eq_true_eq] at hmem
    exact hmem.2
  have hnarr : index.rowsFrom (ts + 1) =
      (index.rowsFrom since).filter fun row => ts + 1 ≤ row.1 := by
    simp only [SequenceIndex.rowsFrom, filter_filter]
    refine filter_congr fun row _ => ?_
    rw [← Bool.decide_and, decide_eq_decide]
    omega
  obtain ⟨hpage, hrest, hbetw⟩ := pairwise_append.1 hasc
  rw [hnarr, hsplit, filter_append]
  have hnone : (init ++ [(ts, seq)]).filter (fun row => ts + 1 ≤ row.1) = [] := by
    rw [filter_eq_nil_iff]
    intro row hrow
    obtain ⟨-, -, hbef⟩ := pairwise_append.1 hpage
    rcases mem_append.1 hrow with hinit | hself
    · have := hbef row hinit (ts, seq) (mem_singleton_self _)
      simp only [decide_eq_true_eq]
      omega
    · simp [mem_singleton.1 hself]
  have hall : rest.filter (fun row => ts + 1 ≤ row.1) = rest := by
    rw [filter_eq_self]
    intro row hrow
    exact decide_eq_true (hbetw (ts, seq) (by simp) row hrow)
  rw [hnone, hall, nil_append]

lemma take_rangeFrom (hlen : (index.rowsFrom since).length < 2 ^ 64) (limit : ℕ) :
    (index.rangeFrom since (saturatingAdd limit 1)).take limit = (index.rowsFrom since).take limit ∧
      ((index.rangeFrom since (saturatingAdd limit 1)).length ≤ limit ↔
        (index.rowsFrom since).length ≤ limit) := by
  have hrange : index.rangeFrom since (saturatingAdd limit 1) =
      (index.rowsFrom since).take (saturatingAdd limit 1) := rfl
  rw [hrange, take_take, length_take, saturatingAdd]
  constructor
  · rcases le_total limit (min (limit + 1) (2 ^ 64 - 1)) with hle | hle
    · rw [min_eq_left hle]
    · rw [take_of_length_le (by omega), take_of_length_le (by omega)]
  · omega

/-- A page: the records of the first rows that are left, at least one while there is one. -/
lemma queryHistoryPage_spec (h : IndexAgrees index log)
    (hlen : log.length < 2 ^ 64) (hbytes : mb < 2 ^ 64) (hlimit : 1 ≤ limit) (since : ℕ) :
    ∃ page rest, index.rowsFrom since = page ++ rest ∧
      queryHistoryPage layout index log since limit mb =
        .ok (resolve log page, ⟨page.getLast?.map Prod.fst, rest.isEmpty⟩) ∧
      (rest ≠ [] → page ≠ []) ∧ page.length ≤ limit ∧
      recordBytes layout (resolve log page).tail ≤
        mb - recordBytes layout ((resolve log page).take 1) := by
  obtain ⟨htake, hexhaus⟩ := take_rangeFrom ((rowsFrom_length_le h since).trans_lt hlen) limit
  have hrows : ∀ row ∈ index.rowsFrom since, Row log row.1 row.2 := fun row hrow =>
    (rowsFrom_row h hrow).1
  obtain ⟨page, rest, hpage, hscan, hfirst, hle⟩ :=
    scanHistory_spec layout (decide ((index.rowsFrom since).length ≤ limit)) hbytes
      (fun row hrow => hrows row (mem_of_mem_take hrow)) [] 0 none
  refine ⟨page, rest ++ (index.rowsFrom since).drop limit, ?_, ?_, fun hrest hnil => ?_, ?_,
    by simpa using hle⟩
  · rw [← append_assoc, ← hpage, take_append_drop]
  · have hend : (decide ((index.rowsFrom since).length ≤ limit) && rest.isEmpty) =
        (rest ++ (index.rowsFrom since).drop limit).isEmpty := by
      rw [Bool.eq_iff_iff]
      simp [and_comm]
    simp only [queryHistoryPage, htake, hexhaus]
    rw [hscan, hend, Option.or_none, nil_append]
  · obtain rfl := hfirst rfl hnil
    rw [hnil, nil_append, take_eq_nil_iff] at hpage
    have hall := hpage.resolve_left (by omega)
    simp [hall] at hrest
  · have hshort := congrArg length hpage
    simp only [length_take, length_append] at hshort
    omega

/-! ## Runs -/

/-- What the pages hold, for a reader that starts at a timestamp. -/
structure Pages (layout : Layout (Event ι δ κ)) (log : List (Event ι δ κ)) (limit maxBytes : ℕ)
    (rows : List (ℕ × ℕ)) (pages : List (List (ℕ × Event ι δ κ))) : Prop where
  complete : pages.flatten = resolve log rows
  progress : ∀ page ∈ pages.dropLast, page ≠ []
  bounded : ∀ page ∈ pages, page.length ≤ limit ∧
    recordBytes layout page.tail ≤ maxBytes - recordBytes layout (page.take 1)

lemma resolve_length_le (log : List (Event ι δ κ)) (rows : List (ℕ × ℕ)) :
    (resolve log rows).length ≤ rows.length :=
  length_filterMap_le _ _

lemma resolve_ne_nil (h : ∀ row ∈ rows, Row log row.1 row.2) (hrows : rows ≠ []) :
    resolve log rows ≠ [] := by
  cases rows with
  | nil => exact absurd rfl hrows
  | cons row rows =>
    obtain ⟨i, e, he, hseq, -⟩ := h row mem_cons_self
    have he' : log[row.2 - 1]? = some e := by rw [hseq]; exact he
    rw [resolve_cons he']
    exact cons_ne_nil _ _

/-- A page takes at least one of the rows that are left, so the pages run out with the rows. -/
lemma historyPages_spec (h : IndexAgrees index log)
    (hlen : log.length < 2 ^ 64) (hts : ∀ e ∈ log, e.ts < 2 ^ 128) (hbytes : mb < 2 ^ 64)
    (hlimit : 1 ≤ limit) (hrnds : (index.rowsFrom since).length < rounds) :
    ∃ pages, historyPages layout index log limit mb rounds since = .ok pages ∧
      Pages layout log limit mb (index.rowsFrom since) pages := by
  induction rounds generalizing since with
  | zero => exact absurd hrnds (not_lt_zero _)
  | succ rounds ih =>
    obtain ⟨page, rest, hsplit, hquery, hprog, hlimited, hbdd⟩ :=
      queryHistoryPage_spec layout h hlen hbytes hlimit since
    have hrow : ∀ row ∈ page ++ rest, Row log row.1 row.2 := by
      intro row hmem
      rw [← hsplit] at hmem
      exact (rowsFrom_row h hmem).1
    have hpage : (resolve log page).length ≤ limit := (resolve_length_le log page).trans hlimited
    rw [historyPages, hquery]
    cases rest with
    | nil =>
      refine ⟨[resolve log page], rfl, ?_, by simp, ?_⟩
      · simp [hsplit]
      · intro p hp
        rw [mem_singleton.1 hp]
        exact ⟨hpage, hbdd⟩
    | cons next rest =>
      have hne : page ≠ [] := hprog (cons_ne_nil _ _)
      obtain ⟨⟨ts, seq⟩, hlast⟩ : ∃ row, page.getLast? = some row :=
        ⟨_, getLast?_eq_getLast_of_ne_nil hne⟩
      have hrest := rowsFrom_succ hsplit hlast
      -- A later row exists, so the next cursor is in range.
      have hcurs : ts + 1 < 2 ^ 128 := by
        have hnext : next ∈ index.rowsFrom (ts + 1) := by
          rw [hrest]
          exact mem_cons_self
        obtain ⟨⟨i, e, he, -, hets⟩, hle⟩ := rowsFrom_row h hnext
        have := hts e (mem_of_getElem? he)
        omega
      have hshor : (index.rowsFrom (ts + 1)).length < rounds := by
        have hpos := length_pos_iff.2 hne
        rw [hsplit, length_append] at hrnds
        rw [hrest]
        omega
      obtain ⟨pages, hpages, hspec⟩ := ih hshor
      refine ⟨resolve log page :: pages, ?_, ?_, ?_, ?_⟩
      · simp only [hlast, Option.map_some, isEmpty_cons, hcurs, if_true, hpages]
        rfl
      · rw [flatten_cons, hspec.complete, hrest, hsplit]
        exact (filterMap_append ..).symm
      · intro p hp
        cases pages with
        | nil => cases hp
        | cons q qs =>
          rcases mem_cons.1 hp with rfl | hp
          · exact resolve_ne_nil (fun row hmem => hrow row (mem_append_left _ hmem)) hne
          · exact hspec.progress p hp
      · intro p hp
        rcases mem_cons.1 hp with rfl | hp
        · exact ⟨hpage, hbdd⟩
        · exact hspec.bounded p hp

lemma mem_resolve_rowsFrom (h : IndexAgrees index log) :
    (seq, e) ∈ resolve log (index.rowsFrom since) ↔
      1 ≤ seq ∧ log[seq - 1]? = some e ∧ since ≤ e.ts := by
  simp only [resolve, mem_filterMap, Option.map_eq_some_iff, Prod.mk.injEq]
  constructor
  · rintro ⟨⟨ts, seq⟩, hrow, e, he, rfl, rfl⟩
    obtain ⟨⟨i, e', he', hseq, hts⟩, hle⟩ := rowsFrom_row h hrow
    simp only at hseq hts hle he
    subst hseq
    obtain rfl : e' = e := Option.some.inj (he'.symm.trans he)
    exact ⟨succ_pos i, he, hts ▸ hle⟩
  · rintro ⟨hpos, he, hle⟩
    refine ⟨(e.ts, seq), ?_, e, he, rfl, rfl⟩
    simp only [SequenceIndex.rowsFrom, mem_filter, decide_eq_true_eq]
    exact ⟨(h e.ts seq).2 ⟨seq - 1, e, he, by omega, rfl⟩, hle⟩

lemma resolve_ascending (h : IndexAgrees index log) (since : ℕ) :
    (resolve log (index.rowsFrom since)).Pairwise fun a b => a.2.ts < b.2.ts := by
  have hts : ∀ row ∈ index.rowsFrom since, ∀ entry,
      log[row.2 - 1]?.map (row.2, ·) = some entry → entry.2.ts = row.1 := by
    intro row hrow entry hentry
    obtain ⟨⟨i, e, he, hseq, hets⟩, -⟩ := rowsFrom_row h hrow
    rw [hseq, Nat.add_sub_cancel, he] at hentry
    obtain rfl := Option.some.inj hentry
    exact hets
  have hpairs : (index.rowsFrom since).Pairwise fun row row' => ∀ a,
      log[row.2 - 1]?.map (row.2, ·) = some a → ∀ b,
      log[row'.2 - 1]?.map (row'.2, ·) = some b → a.2.ts < b.2.ts := by
    refine List.Pairwise.imp_of_mem ?_ (index.ascending.filter _)
    intro row row' hrow hrow' hlt a ha b hb
    rw [hts row hrow a ha, hts row' hrow' b hb]
    exact hlt
  exact hpairs.filterMap _ fun _ _ hlt => hlt

end

/-- Reading page by page from any timestamp on ends. Every page but the last one holds an event, and
together the pages are the stored events from that timestamp on, each once and in timestamp order. A
page keeps to its limit, and what follows its first event keeps to the byte budget. -/
theorem history_pages_complete {ι δ κ : Type} (layout : Layout (Event ι δ κ))
    {index : SequenceIndex} {log : List (Event ι δ κ)} (h : IndexAgrees index log)
    (hlen : log.length < 2 ^ 64) (hts : ∀ e ∈ log, e.ts < 2 ^ 128) (since limit maxBytes : ℕ)
    (hlimit : 1 ≤ limit) (hbytes : maxBytes < 2 ^ 64) :
    ∃ pages, historyPages layout index log limit maxBytes (log.length + 1) since = .ok pages ∧
      (∀ page ∈ pages.dropLast, page ≠ []) ∧
      (∀ seq e, (seq, e) ∈ pages.flatten ↔ 1 ≤ seq ∧ log[seq - 1]? = some e ∧ since ≤ e.ts) ∧
      pages.flatten.Pairwise (fun a b => a.2.ts < b.2.ts) ∧
      ∀ page ∈ pages, page.length ≤ limit ∧
        recordBytes layout page.tail ≤ maxBytes - recordBytes layout (page.take 1) := by
  obtain ⟨pages, hpages, hspec⟩ := historyPages_spec layout h hlen hts hbytes hlimit
    (lt_succ_of_le (rowsFrom_length_le h since))
  refine ⟨pages, hpages, hspec.progress, fun seq e => ?_, ?_, hspec.bounded⟩
  · rw [hspec.complete]
    exact mem_resolve_rowsFrom h
  · rw [hspec.complete]
    exact resolve_ascending h since

/-- Three events that were logged out of timestamp order. -/
def sampleHistory : List (Event ℕ ℕ Unit) := [⟨1, 1, 30, ()⟩, ⟨2, 2, 10, ()⟩, ⟨3, 3, 20, ()⟩]

def sampleIndex : SequenceIndex := ⟨[(10, 2), (20, 3), (30, 1)], by decide⟩

lemma sampleIndex_agrees : IndexAgrees sampleIndex sampleHistory := by
  intro ts seq
  simp only [sampleIndex, mem_cons, not_mem_nil, or_false, Prod.mk.injEq]
  constructor
  · rintro (⟨rfl, rfl⟩ | ⟨rfl, rfl⟩ | ⟨rfl, rfl⟩)
    · exact ⟨1, _, rfl, rfl, rfl⟩
    · exact ⟨2, _, rfl, rfl, rfl⟩
    · exact ⟨0, _, rfl, rfl, rfl⟩
  · rintro ⟨i, e, he, rfl, rfl⟩
    match i with
    | 0 => obtain rfl := Option.some.inj he; simp
    | 1 => obtain rfl := Option.some.inj he; simp
    | 2 => obtain rfl := Option.some.inj he; simp
    | n + 3 => simp [sampleHistory] at he

def sampleLayout : Layout (Event ℕ ℕ Unit) := ⟨fun _ => 100, fun _ => 100, fun _ => by decide⟩

/-- With no byte budget at all, every page holds one event. -/
theorem history_pages_complete_sample : ∃ pages,
    historyPages sampleLayout sampleIndex sampleHistory 2 0 4 15 = .ok pages ∧
      pages.map (fun page => page.map fun entry => entry.2.ts) = [[20], [30]] ∧
      ∀ page ∈ pages.dropLast, page ≠ [] := by
  obtain ⟨pages, hpages, hprogress, -⟩ := history_pages_complete sampleLayout sampleIndex_agrees
    (by decide) (by decide) 15 2 0 (by decide) (by decide)
  refine ⟨pages, hpages, ?_, hprogress⟩
  have hrun : historyPages sampleLayout sampleIndex sampleHistory 2 0 4 15 =
      .ok [[(3, ⟨3, 3, 20, ()⟩)], [(1, ⟨1, 1, 30, ()⟩)]] := rfl
  obtain rfl := Except.ok.inj (hrun.symm.trans hpages)
  rfl

end Interfold.EventStore
