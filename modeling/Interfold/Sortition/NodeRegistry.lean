import Interfold.Library.Checkpoints
import Interfold.Library.LatestRecord
import Mathlib.Data.List.TakeWhile
import Mathlib.Data.Prod.Lex

/-!
# Histories of operators

A node keeps the ticket balance and the activity of every operator by the time of the block that
changed it, as the contracts do. Logs carry the block's timestamp and their index in the block. A log
that is older than the last one of its history is dropped, because the backfill after a restart
delivers some logs again.

Blocks may share a timestamp, and the index starts again with every block. So a log of a later block
can look older than one of an earlier block.
-/

namespace Interfold.NodeRegistry

open List Prod

@[ext] structure ChainPosition where
  timepoint : ℕ
  logIndex : ℕ
deriving DecidableEq

/-- Positions compare by time first, as the derived order of the source. -/
instance : LinearOrder ChainPosition :=
  LinearOrder.lift' (fun p => toLex (p.timepoint, p.logIndex)) fun _ _ h =>
    ChainPosition.ext (congrArg (fun x => (ofLex x).1) h) (congrArg (fun x => (ofLex x).2) h)

structure StateCheckpoint (α : Type) where
  timepoint : ℕ
  value : α
deriving DecidableEq

/-- A history with the log index of its last entry. -/
structure History (α : Type) where
  checkpoints : List (StateCheckpoint α)
  latestLogIndex : ℕ
deriving DecidableEq

def History.empty {α : Type} : History α := ⟨[], 0⟩

/-- `checkpoint_value`: the entry before the partition point. -/
def checkpointValue {α : Type} (history : List (StateCheckpoint α)) (timepoint : ℕ) : Option α :=
  match (history.takeWhile fun checkpoint => checkpoint.timepoint ≤ timepoint).length with
  | 0 => none
  | index + 1 => history[index]?.map StateCheckpoint.value

/-- `push_checkpoint`. There is no result if the entry is stale. -/
def pushCheckpoint {α : Type} (history : History α) (position : ChainPosition) (value : α) :
    Option (History α) :=
  match history.checkpoints.getLast? with
  | some last =>
    if position < ⟨last.timepoint, history.latestLogIndex⟩ then none
    else if last.timepoint = position.timepoint then
      some ⟨history.checkpoints.dropLast ++ [⟨last.timepoint, value⟩], position.logIndex⟩
    else some ⟨history.checkpoints ++ [⟨position.timepoint, value⟩], position.logIndex⟩
  | none => some ⟨history.checkpoints ++ [⟨position.timepoint, value⟩], position.logIndex⟩

structure NodeState where
  ticketBalance : ℕ
  active : Bool
  ticketBalanceHistory : History ℕ
  activeHistory : History Bool

def NodeState.default : NodeState := ⟨0, false, .empty, .empty⟩

def NodeState.ticketBalanceAt (node : NodeState) (timepoint : ℕ) : ℕ :=
  (checkpointValue node.ticketBalanceHistory.checkpoints timepoint).getD 0

def NodeState.activeAt (node : NodeState) (timepoint : ℕ) : Bool :=
  (checkpointValue node.activeHistory.checkpoints timepoint).getD false

def NodeState.setActive (node : NodeState) (active : Bool) (position : ChainPosition) : NodeState :=
  match pushCheckpoint node.activeHistory position active with
  | none => node
  | some history => { node with activeHistory := history, active }

variable {ω : Type} [DecidableEq ω]

/-- `NodeStateStore`, as far as the logs change it. -/
structure NodeStateStore (ω : Type) where
  nodes : ω → Option NodeState
  ticketPrice : ℕ
  ticketPricePosition : ChainPosition

def NodeStateStore.default : NodeStateStore ω := ⟨fun _ => none, 0, ⟨0, 0⟩⟩

/-- The stores of all chains. A chain that was not seen has the default store. -/
abbrev Stores (ω : Type) := ℕ → NodeStateStore ω

section

variable (store : NodeStateStore ω)

def setTicketBalance (operator : ω) (newBalance : ℕ) (position : ChainPosition) :
    NodeStateStore ω :=
  let node := (store.nodes operator).getD .default
  let node := match pushCheckpoint node.ticketBalanceHistory position newBalance with
    | none => node
    | some history => { node with ticketBalanceHistory := history, ticketBalance := newBalance }
  { store with nodes := Function.update store.nodes operator (some node) }

def setOperatorActive (operator : ω) (active : Bool) (position : ChainPosition) :
    NodeStateStore ω :=
  let node := (store.nodes operator).getD .default
  { store with nodes := Function.update store.nodes operator (some (node.setActive active position)) }

def setTicketPrice (newPrice : ℕ) (position : ChainPosition) : NodeStateStore ω :=
  if position < store.ticketPricePosition then store
  else { store with ticketPrice := newPrice, ticketPricePosition := position }

def invalidateOperatorActivity (position : ChainPosition) : NodeStateStore ω :=
  { store with nodes := fun operator =>
      (store.nodes operator).map fun node => node.setActive false position }

/-- `ConfigurationUpdated::affects_eligibility`. -/
def affectsEligibility (parameter : String) : Bool :=
  parameter = "ticketPrice" || parameter = "requiredCiphernodeBond" ||
    parameter = "ciphernodeBondActiveBps" || parameter = "minTicketBalance"

def updateConfiguration (parameter : String) (newValue : ℕ) (position : ChainPosition) :
    NodeStateStore ω :=
  if affectsEligibility parameter then
    let store := if parameter = "ticketPrice" then setTicketPrice store newValue position else store
    invalidateOperatorActivity store position
  else store

def updateEligibilityVersion (position : ChainPosition) : NodeStateStore ω :=
  invalidateOperatorActivity store position

def updateBondingAssetConfig (ticketPrice : ℕ) (position : ChainPosition) : NodeStateStore ω :=
  setTicketPrice store ticketPrice position

end

/-- The logs that change a store. -/
inductive Log (ω : Type) where
  | ticketBalanceUpdated (operator : ω) (newBalance : ℕ)
  | operatorActivationChanged (operator : ω) (active : Bool)
  | configurationUpdated (parameter : String) (newValue : ℕ)
  | eligibilityConfigurationVersionUpdated
  | bondingAssetConfigUpdated (ticketPrice : ℕ)
deriving DecidableEq

def applyLog (store : NodeStateStore ω) (entry : ChainPosition × Log ω) : NodeStateStore ω :=
  match entry.2 with
  | .ticketBalanceUpdated operator newBalance => setTicketBalance store operator newBalance entry.1
  | .operatorActivationChanged operator active => setOperatorActive store operator active entry.1
  | .configurationUpdated parameter newValue => updateConfiguration store parameter newValue entry.1
  | .eligibilityConfigurationVersionUpdated => updateEligibilityVersion store entry.1
  | .bondingAssetConfigUpdated ticketPrice => updateBondingAssetConfig store ticketPrice entry.1

/-- A log with its chain, as it is delivered. -/
structure Delivery (ω : Type) where
  chainId : ℕ
  position : ChainPosition
  log : Log ω

def deliver (stores : Stores ω) (delivery : Delivery ω) : Stores ω :=
  Function.update stores delivery.chainId
    (applyLog (stores delivery.chainId) (delivery.position, delivery.log))

/-! ## One history -/

section

open LatestRecord

variable {α : Type} {entries : List (ChainPosition × α)} {e : ChainPosition × α} {t T : ℕ}

lemma lt_iff {p q : ChainPosition} :
    p < q ↔ p.timepoint < q.timepoint ∨ p.timepoint = q.timepoint ∧ p.logIndex < q.logIndex :=
  Lex.toLex_lt_toLex

lemma le_iff {p q : ChainPosition} :
    p ≤ q ↔ p.timepoint < q.timepoint ∨ p.timepoint = q.timepoint ∧ p.logIndex ≤ q.logIndex :=
  Lex.toLex_le_toLex

/-- An entry is recorded unless it is stale. -/
def record (history : History α) (e : ChainPosition × α) : History α :=
  (pushCheckpoint history e.1 e.2).getD history

section

variable (entries : List (ChainPosition × α))

/-- The entries that are recorded by a time. -/
def upTo (t : ℕ) : List (ChainPosition × α) :=
  entries.filter fun e => e.1.timepoint ≤ t

/-- The value of the last entry by a time. -/
def lastAt (t : ℕ) : Option α :=
  (upTo entries t).getLast?.map snd

/-- The times of the entries do not decrease. -/
def Timed : Prop :=
  entries.Pairwise fun e e' => e.1.timepoint ≤ e'.1.timepoint

/-- At every time, the last entry of those with the greatest log index has the value of the last
entry. -/
def Consistent : Prop :=
  ∀ T e last, IsLatest (fun e => e.1.logIndex) (entries.filter fun e => e.1.timepoint = T) e →
    (entries.filter fun e => e.1.timepoint = T).getLast? = some last → e.2 = last.2

/-- The same for the time of the last entry only. -/
def ConsistentAtEnd : Prop :=
  ∀ e last, entries.getLast? = some last →
    IsLatest (fun e => e.1.logIndex) (entries.filter fun e => e.1.timepoint = last.1.timepoint) e →
    e.2 = last.2

end

lemma checkpointValue_append {l : List (StateCheckpoint α)} {c : StateCheckpoint α}
    (hl : ∀ x ∈ l, x.timepoint ≤ c.timepoint) (t : ℕ) :
    checkpointValue (l ++ [c]) t = if c.timepoint ≤ t then some c.value else checkpointValue l t := by
  unfold checkpointValue
  split_ifs with hc
  · have hall : (l ++ [c]).takeWhile (fun x => x.timepoint ≤ t) = l ++ [c] := by
      apply takeWhile_eq_self_iff.2
      intro x hx
      rcases mem_append.1 hx with hx | hx
      · exact decide_eq_true ((hl x hx).trans hc)
      · rw [mem_singleton.1 hx]
        exact decide_eq_true hc
    simp [hall]
  · have hsame : (l ++ [c]).takeWhile (fun x => x.timepoint ≤ t) =
        l.takeWhile (fun x => x.timepoint ≤ t) := by
      rw [takeWhile_append]
      split_ifs with hlen
      · rw [takeWhile_cons_of_neg (by simpa using hc), append_nil,
          (List.takeWhile_prefix _).eq_of_length hlen]
      · rfl
    rw [hsame]
    split
    · rfl
    · rename_i index hindex
      have hlt : index < l.length := by
        have hle := (List.takeWhile_prefix (l := l) (fun x => decide (x.timepoint ≤ t))).length_le
        omega
      rw [getElem?_append_left hlt]

/-- A history after some entries: its last checkpoint is what was kept of them, and at every time it
answers with what was kept of the entries until then. -/
structure Recorded (entries : List (ChainPosition × α)) (history : History α) : Prop where
  last : match latest fst entries with
    | none => history.checkpoints = []
    | some e => (∃ older, history.checkpoints = older ++ [⟨e.1.timepoint, e.2⟩] ∧
        ∀ x ∈ older, x.timepoint < e.1.timepoint) ∧ history.latestLogIndex = e.1.logIndex
  value : ∀ t, checkpointValue history.checkpoints t = (latest fst (upTo entries t)).map snd

lemma upTo_append_of_lt (ht : t < e.1.timepoint) : upTo (entries ++ [e]) t = upTo entries t := by
  simp [upTo, Nat.not_le.2 ht]

lemma upTo_append_of_le (h : Timed (entries ++ [e])) (ht : e.1.timepoint ≤ t) :
    upTo (entries ++ [e]) t = entries ++ [e] ∧ upTo entries t = entries := by
  obtain ⟨-, -, hall⟩ := pairwise_append.1 h
  have hle : ∀ x ∈ entries, x.1.timepoint ≤ t := fun x hx =>
    (hall x hx e mem_cons_self).trans ht
  constructor
  · apply filter_eq_self.2
    intro x hx
    rcases mem_append.1 hx with hx | hx
    · exact decide_eq_true (hle x hx)
    · rw [mem_singleton.1 hx]
      exact decide_eq_true ht
  · exact filter_eq_self.2 fun x hx => decide_eq_true (hle x hx)

/-- An entry that counts closes the history, after checkpoints that answer as before. -/
lemma Recorded.close (h : Recorded entries history) (htimed : Timed (entries ++ [e]))
    (hlat : latest fst (entries ++ [e]) = some e) (older : List (StateCheckpoint α))
    (holder : ∀ x ∈ older, x.timepoint < e.1.timepoint)
    (hsame : ∀ t < e.1.timepoint, checkpointValue older t = checkpointValue history.checkpoints t) :
    Recorded (entries ++ [e]) ⟨older ++ [⟨e.1.timepoint, e.2⟩], e.1.logIndex⟩ where
  last := by
    rw [hlat]
    exact ⟨⟨older, rfl, holder⟩, rfl⟩
  value t := by
    rw [checkpointValue_append (fun x hx => (holder x hx).le)]
    split_ifs with ht
    · rw [(upTo_append_of_le htimed ht).1, hlat]
      rfl
    · have hlt := Nat.not_le.1 ht
      rw [hsame t hlt, upTo_append_of_lt hlt, h.value]

/-- One more entry. It is stale, or it replaces the last checkpoint of its time, or it is added. -/
lemma Recorded.record (h : Recorded entries history) (htimed : Timed (entries ++ [e])) :
    Recorded (entries ++ [e]) (record history e) := by
  have hlast := h.last
  unfold NodeRegistry.record pushCheckpoint
  cases hkept : latest fst entries with
  | none =>
    simp only [hkept] at hlast
    have hlat : latest fst (entries ++ [e]) = some e := by
      rw [latest_snoc, hkept]
      simp [step]
    simpa [hlast] using h.close htimed hlat [] (by simp) fun t _ => by rw [hlast]
  | some k =>
    simp only [hkept] at hlast
    obtain ⟨⟨older, hcps, holder⟩, hindex⟩ := hlast
    have hend : history.checkpoints.getLast? = some ⟨k.1.timepoint, k.2⟩ := by simp [hcps]
    have hposit : (⟨k.1.timepoint, history.latestLogIndex⟩ : ChainPosition) = k.1 := by rw [hindex]
    have htime : k.1.timepoint ≤ e.1.timepoint := by
      obtain ⟨-, -, hall⟩ := pairwise_append.1 htimed
      exact hall k (latest_eq_some_iff.1 hkept).mem e mem_cons_self
    simp only [hend, hposit]
    by_cases hstale : e.1 < k.1
    · have hlat : latest fst (entries ++ [e]) = some k := by
        rw [latest_snoc, hkept]
        simp [step, hstale]
      rw [if_pos hstale]
      refine ⟨?_, fun t => ?_⟩
      · rw [hlat]
        exact ⟨⟨older, hcps, holder⟩, hindex⟩
      · rcases Nat.lt_or_ge t e.1.timepoint with ht | ht
        · rw [upTo_append_of_lt ht]
          exact h.value t
        · rw [(upTo_append_of_le htimed ht).1, hlat, ← hkept, ← (upTo_append_of_le htimed ht).2]
          exact h.value t
    · have hlat : latest fst (entries ++ [e]) = some e := by
        rw [latest_snoc, hkept]
        simp [step, hstale]
      rw [if_neg hstale]
      by_cases hsame : k.1.timepoint = e.1.timepoint
      · rw [if_pos hsame, hcps, dropLast_concat, hsame]
        rw [hsame] at holder
        refine h.close htimed hlat older holder fun t ht => ?_
        rw [hcps, hsame, checkpointValue_append (fun x hx => (holder x hx).le),
          if_neg (Nat.not_le.2 ht)]
      · rw [if_neg hsame]
        refine h.close htimed hlat _ (fun x hx => ?_) fun _ _ => rfl
        rw [hcps] at hx
        rcases mem_append.1 hx with hx | hx
        · exact (holder x hx).trans_le htime
        · rw [mem_singleton.1 hx]
          exact lt_of_le_of_ne htime hsame

/-- A whole history. -/
lemma recorded_foldl (h : Timed entries) :
    Recorded entries (entries.foldl NodeRegistry.record .empty) := by
  induction entries using reverseRecOn with
  | nil => exact ⟨rfl, fun t => rfl⟩
  | append_singleton entries e ih =>
    rw [foldl_append]
    exact (ih (pairwise_append.1 h).1).record h

/-! ### Times that blocks share -/

section

variable (h : Timed entries)
include h

lemma Timed.le_last (hlast : entries.getLast? = some e) :
    ∀ x ∈ entries, x.1.timepoint ≤ e.1.timepoint := by
  obtain ⟨front, rfl⟩ := getLast?_eq_some_iff.1 hlast
  intro x hx
  rcases mem_append.1 hx with hx | hx
  · exact (pairwise_append.1 h).2.2 x hx e mem_cons_self
  · rw [mem_singleton.1 hx]

/-- The entries by a time end with those of the last time. -/
lemma Timed.upTo_eq (T : ℕ) : upTo entries T = entries.filter (fun e => e.1.timepoint < T) ++
      entries.filter (fun e => e.1.timepoint = T) := by
  induction entries with
  | nil => rfl
  | cons e entries ih =>
    obtain ⟨hle, hrest⟩ := pairwise_cons.1 h
    have hrest := ih hrest
    unfold upTo at hrest ⊢
    rcases Nat.lt_trichotomy e.1.timepoint T with hlt | heq | hgt
    · simp [hlt, hlt.le, hlt.ne, hrest]
    · have hnone : entries.filter (fun e => e.1.timepoint < T) = [] := by
        refine filter_eq_nil_iff.2 fun x hx => ?_
        have hx := hle x hx
        simp only [decide_eq_true_eq]
        omega
      rw [hnone, nil_append] at hrest
      simp [heq, hnone, hrest]
    · have hge : ∀ x ∈ entries, T < x.1.timepoint := fun x hx => hgt.trans_le (hle x hx)
      have hnone : entries.filter (fun e => e.1.timepoint < T) = [] :=
        filter_eq_nil_iff.2 fun x hx => by simpa using (hge x hx).le
      simp [Nat.not_le.2 hgt, Nat.not_lt.2 hgt.le, hgt.ne', hrest, hnone]

lemma Timed.filter (p : ChainPosition × α → Bool) : Timed (entries.filter p) :=
  h.sublist filter_sublist

/-- The entries by a time that ends with `last`. -/
lemma Timed.upTo_last (hlast : (upTo entries t).getLast? = some last) :
    upTo entries t = upTo entries last.1.timepoint ∧
      (entries.filter fun e => e.1.timepoint = last.1.timepoint).getLast? = some last := by
  have hmem : last ∈ upTo entries t := mem_of_getLast? hlast
  obtain ⟨hlastMem, hle⟩ := mem_filter.1 hmem
  have hsame : upTo entries t = upTo entries last.1.timepoint := by
    refine filter_congr fun x hx => ?_
    rw [decide_eq_decide]
    constructor
    · intro hxt
      exact (h.filter _).le_last hlast x (mem_filter.2 ⟨hx, decide_eq_true hxt⟩)
    · exact fun hxl => hxl.trans (of_decide_eq_true hle)
  refine ⟨hsame, ?_⟩
  rw [hsame, h.upTo_eq, getLast?_append] at hlast
  cases hend : (entries.filter fun e => e.1.timepoint = last.1.timepoint).getLast? with
  | none =>
    have hmem : last ∈ entries.filter fun e => e.1.timepoint = last.1.timepoint :=
      mem_filter.2 ⟨hlastMem, by simp⟩
    rw [getLast?_eq_none_iff.1 hend] at hmem
    cases hmem
  | some other => rwa [hend, Option.some_or] at hlast

/-- What is kept of the entries by a time is decided by those of the last time. -/
lemma Timed.isLatest_upTo
    (he : IsLatest (fun e => e.1.logIndex) (entries.filter fun e => e.1.timepoint = T) e) :
    IsLatest fst (upTo entries T) e := by
  have htime : ∀ x ∈ entries.filter (fun e => e.1.timepoint = T), x.1.timepoint = T := fun x hx =>
    of_decide_eq_true (mem_filter.1 hx).2
  have heT := htime e he.mem
  rw [h.upTo_eq]
  apply IsLatest.append_left
  · obtain ⟨front, back, heq, hfront, hback⟩ := he
    rw [heq] at htime ⊢
    refine ⟨front, back, rfl, fun x hx => ?_, fun x hx => ?_⟩
    · have hx' := htime x (mem_append_left _ hx)
      exact le_iff.2 (.inr ⟨hx'.trans heT.symm, hfront x hx⟩)
    · have hx' := htime x (mem_append_right _ (mem_cons_of_mem _ hx))
      exact lt_iff.2 (.inr ⟨hx'.trans heT.symm, hback x hx⟩)
  · intro x hx
    have hx' := of_decide_eq_true (mem_filter.1 hx).2
    exact le_iff.2 (.inl (heT.symm ▸ hx'))

/-- What is kept of the entries by a time is the one that decides those of the last time. -/
lemma Timed.kept (hlast : (upTo entries t).getLast? = some last) :
    ∃ e, latest fst (upTo entries t) = some e ∧
      IsLatest (fun e => e.1.logIndex) (entries.filter fun e => e.1.timepoint = last.1.timepoint)
        e := by
  obtain ⟨hsame, hend⟩ := h.upTo_last hlast
  rcases @latest_spec _ _ _ (fun e => e.1.logIndex)
    (entries.filter fun e => e.1.timepoint = last.1.timepoint) with ⟨hnil, -⟩ | ⟨e, -, he⟩
  · rw [hnil] at hend
    cases hend
  · exact ⟨e, hsame ▸ latest_eq_some_iff.2 (h.isLatest_upTo he), he⟩

/-- A history answers with the last entries exactly if the entries of every time are consistent. -/
lemma Timed.answers_iff (d : α) :
    (∀ t, ((latest fst (upTo entries t)).map snd).getD d = (lastAt entries t).getD d) ↔
      Consistent entries := by
  constructor
  · intro hans T e last he hlast
    have hend : (upTo entries T).getLast? = some last := by
      rw [h.upTo_eq, getLast?_append, hlast, Option.some_or]
    have hkept := latest_eq_some_iff.2 (h.isLatest_upTo he)
    simpa [lastAt, hend, hkept] using hans T
  · intro hcons t
    cases hlast : (upTo entries t).getLast? with
    | none =>
      rw [lastAt, hlast, getLast?_eq_none_iff.1 hlast]
      rfl
    | some last =>
      obtain ⟨e, hkept, he⟩ := h.kept hlast
      have hvalue := hcons _ e last he (h.upTo_last hlast).2
      rw [hkept, lastAt, hlast]
      simpa using hvalue

/-- The same for the value that is kept of all entries. -/
lemma Timed.end_iff (d : α) :
    ((latest fst entries).map snd).getD d = (entries.getLast?.map snd).getD d ↔
      ConsistentAtEnd entries := by
  cases hlast : entries.getLast? with
  | none =>
    rw [getLast?_eq_none_iff.1 hlast]
    exact ⟨fun _ e last hend => (nomatch hend), fun _ => rfl⟩
  | some last =>
    have hall : upTo entries last.1.timepoint = entries :=
      filter_eq_self.2 fun x hx => decide_eq_true (h.le_last hlast x hx)
    constructor
    · intro hvalue e last' hlast' he
      obtain rfl := Option.some.inj (hlast.symm.trans hlast')
      have hkept := latest_eq_some_iff.2 (h.isLatest_upTo he)
      rw [hall] at hkept
      simpa [hkept] using hvalue
    · intro hcons
      obtain ⟨e, hkept, he⟩ := h.kept (hall.symm ▸ hlast)
      rw [hall] at hkept
      simpa [hkept] using hcons e last hlast he

end

/-- The trace of the contracts: every entry is written at the time of its block. -/
def chainTrace (entries : List (ChainPosition × α)) : Option (Checkpoints.Trace α) :=
  entries.foldlM (fun trace e => trace.push e.1.timepoint e.2) []

/-- The contracts answer with the last entries. -/
lemma Timed.chainTrace_eq [Inhabited α] (h : Timed entries) :
    ∃ trace, chainTrace entries = some trace ∧
      ∀ t, trace.upperLookup t = (lastAt entries t).getD default := by
  suffices hstrong : ∃ trace, chainTrace entries = some trace ∧
      (∀ now, (∀ e ∈ entries, e.1.timepoint ≤ now) → trace.Ordered now) ∧
      ∀ t, trace.upperLookup t = (lastAt entries t).getD default by
    obtain ⟨trace, htrace, -, hlook⟩ := hstrong
    exact ⟨trace, htrace, hlook⟩
  induction entries using reverseRecOn with
  | nil => exact ⟨[], rfl, fun now _ => .nil now, fun t => rfl⟩
  | append_singleton entries e ih =>
    obtain ⟨hfront, -, hall⟩ := pairwise_append.1 h
    obtain ⟨trace, htrace, hord, hlook⟩ := ih hfront
    obtain ⟨trace', hpush, hord', hlook'⟩ :=
      (hord e.1.timepoint fun x hx => hall x hx e mem_cons_self).push e.2
    refine ⟨trace', ?_, fun now hnow => ?_, fun t => ?_⟩
    · unfold chainTrace at htrace ⊢
      simp [foldlM_append, htrace, hpush]
    · exact hord'.mono (hnow e (by simp))
    · rw [hlook', hlook]
      unfold lastAt
      split_ifs with ht
      · rw [(upTo_append_of_le h ht).1]
        simp
      · rw [upTo_append_of_lt (Nat.not_le.1 ht)]

end

/-! ## Runs -/

section

variable {store : NodeStateStore ω} {logs : List (ChainPosition × Log ω)}
  {entry : ChainPosition × Log ω} {operator : ω}

def balanceHistory (node : Option NodeState) : History ℕ := node.elim .empty (·.ticketBalanceHistory)

def activityHistory (node : Option NodeState) : History Bool := node.elim .empty (·.activeHistory)

/-- The entry that a log makes in the balance history of an operator. -/
def balanceEntry (operator : ω) (entry : ChainPosition × Log ω) : Option (ChainPosition × ℕ) :=
  match entry.2 with
  | .ticketBalanceUpdated op newBalance => if op = operator then some (entry.1, newBalance) else none
  | _ => none

/-- The entry that a log makes in the activity history of an operator, if the operator is known. -/
def activityEntry (operator : ω) (known : Bool) (entry : ChainPosition × Log ω) :
    Option (ChainPosition × Bool) :=
  match entry.2 with
  | .operatorActivationChanged op active => if op = operator then some (entry.1, active) else none
  | .configurationUpdated parameter _ =>
    if affectsEligibility parameter && known then some (entry.1, false) else none
  | .eligibilityConfigurationVersionUpdated => if known then some (entry.1, false) else none
  | _ => none

/-- A log that makes an operator known. -/
def Log.names (operator : ω) : Log ω → Bool
  | .ticketBalanceUpdated op _ => op = operator
  | .operatorActivationChanged op _ => op = operator
  | _ => false

def priceEntry (entry : ChainPosition × Log ω) : Option (ChainPosition × ℕ) :=
  match entry.2 with
  | .configurationUpdated parameter newValue =>
    if parameter = "ticketPrice" then some (entry.1, newValue) else none
  | .bondingAssetConfigUpdated ticketPrice => some (entry.1, ticketPrice)
  | _ => none

def balanceEntries (operator : ω) (logs : List (ChainPosition × Log ω)) : List (ChainPosition × ℕ) :=
  logs.filterMap (balanceEntry operator)

def activityEntries (operator : ω) : Bool → List (ChainPosition × Log ω) → List (ChainPosition × Bool)
  | _, [] => []
  | known, entry :: logs =>
    (activityEntry operator known entry).toList ++
      activityEntries operator (known || entry.2.names operator) logs

def priceEntries (logs : List (ChainPosition × Log ω)) : List (ChainPosition × ℕ) :=
  logs.filterMap priceEntry

lemma setActive_history (node : NodeState) (active : Bool) (pos : ChainPosition) :
    (node.setActive active pos).activeHistory = record node.activeHistory (pos, active) ∧
      (node.setActive active pos).ticketBalanceHistory = node.ticketBalanceHistory := by
  unfold NodeState.setActive record
  cases pushCheckpoint node.activeHistory pos active <;> exact ⟨rfl, rfl⟩

/-- What a log does to the histories of an operator, with the entries that it makes. -/
structure Changes (node : Option NodeState) (balance : Option (ChainPosition × ℕ))
    (activity : Option (ChainPosition × Bool)) (named : Bool) (node' : Option NodeState) :
    Prop where
  balances : balanceHistory node' = balance.toList.foldl record (balanceHistory node)
  activities : activityHistory node' = activity.toList.foldl record (activityHistory node)
  known : node'.isSome = (node.isSome || named)

lemma histories_getD (node : Option NodeState) :
    balanceHistory node = (node.getD .default).ticketBalanceHistory ∧
      activityHistory node = (node.getD .default).activeHistory := by
  cases node <;> exact ⟨rfl, rfl⟩

lemma Changes.refl (node : Option NodeState) : Changes node none none false node :=
  ⟨rfl, rfl, (Bool.or_false _).symm⟩

omit [DecidableEq ω] in
lemma invalidate_node (store : NodeStateStore ω) (pos : ChainPosition) (operator : ω) :
    Changes (store.nodes operator) none
      (if (store.nodes operator).isSome then some (pos, false) else none) false
      ((invalidateOperatorActivity store pos).nodes operator) := by
  unfold invalidateOperatorActivity
  cases hnode : store.nodes operator <;> constructor <;>
    simp [hnode, balanceHistory, activityHistory, setActive_history]

omit [DecidableEq ω] in
lemma setTicketPrice_nodes (store : NodeStateStore ω) (newPrice : ℕ) (pos : ChainPosition) :
    (setTicketPrice store newPrice pos).nodes = store.nodes := by
  unfold setTicketPrice
  split_ifs <;> rfl

lemma setTicketBalance_node (store : NodeStateStore ω) (op : ω) (newBalance : ℕ)
    (pos : ChainPosition) (operator : ω) :
    Changes (store.nodes operator) (if op = operator then some (pos, newBalance) else none) none
      (op = operator) ((setTicketBalance store op newBalance pos).nodes operator) := by
  unfold setTicketBalance
  by_cases hop : op = operator
  · subst hop
    generalize hnode : (store.nodes op).getD .default = node
    cases hpush : pushCheckpoint node.ticketBalanceHistory pos newBalance <;> constructor <;>
      simp [histories_getD, hnode, record, hpush]
  · simpa [Function.update_of_ne (Ne.symm hop), hop] using Changes.refl (store.nodes operator)

lemma setOperatorActive_node (store : NodeStateStore ω) (op : ω) (active : Bool)
    (pos : ChainPosition) (operator : ω) :
    Changes (store.nodes operator) none (if op = operator then some (pos, active) else none)
      (op = operator) ((setOperatorActive store op active pos).nodes operator) := by
  unfold setOperatorActive
  by_cases hop : op = operator
  · subst hop
    constructor <;> simp [histories_getD, setActive_history]
  · simpa [Function.update_of_ne (Ne.symm hop), hop] using Changes.refl (store.nodes operator)

lemma applyLog_node (store : NodeStateStore ω) (entry : ChainPosition × Log ω) (operator : ω) :
    Changes (store.nodes operator) (balanceEntry operator entry)
      (activityEntry operator (store.nodes operator).isSome entry) (entry.2.names operator)
      ((applyLog store entry).nodes operator) := by
  obtain ⟨pos, log⟩ := entry
  cases log with
  | ticketBalanceUpdated op newBalance => exact setTicketBalance_node store op newBalance pos operator
  | operatorActivationChanged op active => exact setOperatorActive_node store op active pos operator
  | configurationUpdated parameter newValue =>
    simp only [applyLog, balanceEntry, activityEntry, Log.names, updateConfiguration]
    by_cases haffec : affectsEligibility parameter = true
    · have hnodes : (if parameter = "ticketPrice" then setTicketPrice store newValue pos
          else store).nodes = store.nodes := by
        split_ifs
        · exact setTicketPrice_nodes store newValue pos
        · rfl
      simp only [haffec, if_true, Bool.true_and]
      exact hnodes ▸ invalidate_node _ pos operator
    · simpa [haffec] using Changes.refl (store.nodes operator)
  | eligibilityConfigurationVersionUpdated => exact invalidate_node store pos operator
  | bondingAssetConfigUpdated ticketPrice =>
    exact (setTicketPrice_nodes store ticketPrice pos).symm ▸ .refl _

/-- The histories of an operator after some logs. -/
lemma run_node (logs : List (ChainPosition × Log ω)) (store : NodeStateStore ω) (operator : ω) :
    balanceHistory ((logs.foldl applyLog store).nodes operator) =
        (balanceEntries operator logs).foldl record (balanceHistory (store.nodes operator)) ∧
      activityHistory ((logs.foldl applyLog store).nodes operator) =
        (activityEntries operator (store.nodes operator).isSome logs).foldl record
          (activityHistory (store.nodes operator)) := by
  induction logs generalizing store with
  | nil => exact ⟨rfl, rfl⟩
  | cons entry logs ih =>
    obtain ⟨hbal, hacty, hsome⟩ := applyLog_node store entry operator
    obtain ⟨hbalan, hactiv⟩ := ih (applyLog store entry)
    rw [foldl_cons, hbalan, hactiv, hbal, hacty, hsome, activityEntries, foldl_append]
    refine ⟨?_, rfl⟩
    unfold balanceEntries
    cases hentry : balanceEntry operator entry <;> simp [hentry]

/-- The price is kept with its position. -/
def keepPrice (kept e : ChainPosition × ℕ) : ChainPosition × ℕ := if e.1 < kept.1 then kept else e

omit [DecidableEq ω] in
lemma setTicketPrice_price (store : NodeStateStore ω) (newPrice : ℕ) (pos : ChainPosition) :
    ((setTicketPrice store newPrice pos).ticketPricePosition,
      (setTicketPrice store newPrice pos).ticketPrice) =
      keepPrice (store.ticketPricePosition, store.ticketPrice) (pos, newPrice) := by
  unfold setTicketPrice keepPrice
  split_ifs <;> rfl

lemma applyLog_price (store : NodeStateStore ω) (entry : ChainPosition × Log ω) :
    ((applyLog store entry).ticketPricePosition, (applyLog store entry).ticketPrice) =
      (priceEntry entry).toList.foldl keepPrice (store.ticketPricePosition, store.ticketPrice) := by
  obtain ⟨pos, log⟩ := entry
  cases log with
  | configurationUpdated parameter newValue =>
    simp only [applyLog, priceEntry, updateConfiguration]
    by_cases hprice : parameter = "ticketPrice"
    · have haffec : affectsEligibility parameter = true := by simp [affectsEligibility, hprice]
      simp only [haffec, if_pos hprice, if_true]
      exact setTicketPrice_price store newValue pos
    · simp only [if_neg hprice]
      split_ifs <;> rfl
  | bondingAssetConfigUpdated ticketPrice => exact setTicketPrice_price store ticketPrice pos
  | ticketBalanceUpdated op newBalance => rfl
  | operatorActivationChanged op active => rfl
  | eligibilityConfigurationVersionUpdated => rfl

lemma run_price (logs : List (ChainPosition × Log ω)) (store : NodeStateStore ω) :
    ((logs.foldl applyLog store).ticketPricePosition, (logs.foldl applyLog store).ticketPrice) =
      (priceEntries logs).foldl keepPrice (store.ticketPricePosition, store.ticketPrice) := by
  induction logs generalizing store with
  | nil => rfl
  | cons entry logs ih =>
    rw [foldl_cons, ih, applyLog_price]
    unfold priceEntries
    cases hentry : priceEntry entry <;> simp [hentry]

lemma foldl_keepPrice (entries : List (ChainPosition × ℕ)) : entries.foldl keepPrice (⟨0, 0⟩, 0) =
      (LatestRecord.latest fst entries).getD (⟨0, 0⟩, 0) := by
  induction entries using reverseRecOn with
  | nil => rfl
  | append_singleton entries e ih =>
    rw [foldl_append, ih, LatestRecord.latest_snoc]
    unfold keepPrice LatestRecord.step
    cases LatestRecord.latest fst entries with
    | none =>
      have hfirst : ¬ e.1 < ⟨0, 0⟩ := by simp [lt_iff]
      simp [hfirst]
    | some kept =>
      simp only [foldl_cons, foldl_nil, Option.getD_some, Option.any_some, decide_eq_true_eq]
      split_ifs <;> rfl

lemma timed_filterMap {β γ : Type} {l : List (ChainPosition × β)}
    {f : ChainPosition × β → Option (ChainPosition × γ)} (hf : ∀ x y, f x = some y → y.1 = x.1)
    (h : Timed l) : Timed (l.filterMap f) := by
  refine List.Pairwise.filterMap _ (fun x x' hle y hy y' hy' => ?_) h
  rw [hf x y hy, hf x' y' hy']
  exact hle

lemma balance_position {e : ChainPosition × ℕ} (h : balanceEntry operator entry = some e) :
    e.1 = entry.1 := by
  unfold balanceEntry at h
  grind

omit [DecidableEq ω] in
lemma price_position {e : ChainPosition × ℕ} (h : priceEntry entry = some e) : e.1 = entry.1 := by
  unfold priceEntry at h
  grind

lemma activity_position {e : ChainPosition × Bool}
    (h : activityEntry operator known entry = some e) : e.1 = entry.1 := by
  unfold activityEntry at h
  grind

lemma mem_activityEntries {e : ChainPosition × Bool}
    (h : e ∈ activityEntries operator known logs) : ∃ entry ∈ logs, e.1 = entry.1 := by
  induction logs generalizing known with
  | nil => cases h
  | cons entry logs ih =>
    rw [activityEntries, mem_append, Option.mem_toList] at h
    rcases h with h | h
    · exact ⟨entry, mem_cons_self, activity_position h⟩
    · obtain ⟨entry', hmem, heq⟩ := ih h
      exact ⟨entry', mem_cons_of_mem _ hmem, heq⟩

lemma timed_activityEntries (h : Timed logs) (operator : ω) (known : Bool) :
    Timed (activityEntries operator known logs) := by
  induction logs generalizing known with
  | nil => exact List.Pairwise.nil
  | cons entry logs ih =>
    obtain ⟨hle, hrest⟩ := pairwise_cons.1 h
    refine pairwise_append.2 ⟨?_, ih hrest _, fun e he e' he' => ?_⟩
    · cases activityEntry operator known entry <;> simp
    · obtain ⟨entry', hmem, heq⟩ := mem_activityEntries he'
      rw [activity_position (Option.mem_toList.1 he), heq]
      exact hle entry' hmem

end

/-! ## Chains -/

/-- A block with the logs of the contracts, by their indices in the block. -/
structure Block (ω : Type) where
  timestamp : ℕ
  logs : List (ℕ × Log ω)

/-- A chain. Later blocks do not have smaller timestamps. -/
structure Chain (ω : Type) where
  blocks : List (Block ω)
  timestamps : blocks.Pairwise fun block later => block.timestamp ≤ later.timestamp
  indices : ∀ block ∈ blocks, block.logs.Pairwise fun log later => log.1 < later.1

def Block.entries (block : Block ω) : List (ChainPosition × Log ω) :=
  block.logs.map fun log => (⟨block.timestamp, log.1⟩, log.2)

/-- The logs in chain order. -/
def Chain.logs (chain : Chain ω) : List (ChainPosition × Log ω) := chain.blocks.flatMap Block.entries

def ticketBalanceAt (store : NodeStateStore ω) (operator : ω) (t : ℕ) : ℕ :=
  (store.nodes operator).elim 0 (·.ticketBalanceAt t)

def activeAt (store : NodeStateStore ω) (operator : ω) (t : ℕ) : Bool :=
  (store.nodes operator).elim false (·.activeAt t)

/-- A store answers with the last logs of a chain. -/
def Mirrors (store : NodeStateStore ω) (logs : List (ChainPosition × Log ω)) : Prop :=
  (∀ operator t, ticketBalanceAt store operator t =
      (lastAt (balanceEntries operator logs) t).getD 0) ∧
    (∀ operator t, activeAt store operator t =
      (lastAt (activityEntries operator false logs) t).getD false) ∧
    store.ticketPrice = ((priceEntries logs).getLast?.map snd).getD 0

/-- The logs of every history are consistent at every time, those of the price at the last one. -/
def ConsistentLogs (logs : List (ChainPosition × Log ω)) : Prop :=
  (∀ operator, Consistent (balanceEntries operator logs)) ∧
    (∀ operator, Consistent (activityEntries operator false logs)) ∧
    ConsistentAtEnd (priceEntries logs)

omit [DecidableEq ω] in
lemma Chain.timed (chain : Chain ω) : Timed chain.logs := by
  refine pairwise_flatMap.2 ⟨fun block _ => ?_, ?_⟩
  · exact pairwise_map.2 (pairwise_of_forall fun _ _ => Nat.le_refl _)
  · refine chain.timestamps.imp fun hle e he e' he' => ?_
    obtain ⟨log, -, rfl⟩ := mem_map.1 he
    obtain ⟨log', -, rfl⟩ := mem_map.1 he'
    exact hle

/-- The logs of other chains do not matter. -/
lemma foldl_deliver (ds : List (Delivery ω)) (stores : Stores ω) (chainId : ℕ) :
    ds.foldl deliver stores chainId =
      ((ds.filter (·.chainId = chainId)).map fun d => (d.position, d.log)).foldl applyLog
        (stores chainId) := by
  induction ds generalizing stores with
  | nil => rfl
  | cons d ds ih =>
    rw [foldl_cons, ih]
    unfold deliver
    by_cases hchain : d.chainId = chainId
    · subst hchain
      simp
    · simp [hchain, Function.update_of_ne (Ne.symm hchain)]

/-- A node answers as the chain does exactly if the logs that share a timestamp are consistent: in
every history, the last log of those with the greatest index has the value of the last log. The
answers of the chain are those of its traces. -/
theorem mirrors_iff_consistent (chain : Chain ω) (chainId : ℕ) (deliveries : List (Delivery ω))
    (h : (deliveries.filter (·.chainId = chainId)).map (fun d => (d.position, d.log)) =
      chain.logs) : (Mirrors (deliveries.foldl deliver (fun _ => .default) chainId) chain.logs ↔
      ConsistentLogs chain.logs) ∧
    ∀ operator, (∃ trace, chainTrace (balanceEntries operator chain.logs) = some trace ∧
        ∀ t, trace.upperLookup t = (lastAt (balanceEntries operator chain.logs) t).getD 0) ∧
      ∃ trace, chainTrace (activityEntries operator false chain.logs) = some trace ∧
        ∀ t, trace.upperLookup t =
          (lastAt (activityEntries operator false chain.logs) t).getD false := by
  have hbalances : ∀ operator, Timed (balanceEntries operator chain.logs) := fun operator =>
    timed_filterMap (fun _ _ => balance_position) chain.timed
  have hactivities : ∀ operator, Timed (activityEntries operator false chain.logs) :=
    fun operator => timed_activityEntries chain.timed operator false
  have hprices : Timed (priceEntries chain.logs) :=
    timed_filterMap (fun _ _ => price_position) chain.timed
  refine ⟨?_, fun operator => ⟨(hbalances operator).chainTrace_eq, (hactivities operator).chainTrace_eq⟩⟩
  rw [foldl_deliver, h]
  set store := chain.logs.foldl applyLog (NodeStateStore.default : NodeStateStore ω)
  have hnode := fun operator => run_node chain.logs NodeStateStore.default operator
  have hbalance : ∀ operator t, ticketBalanceAt store operator t =
      ((LatestRecord.latest fst (upTo (balanceEntries operator chain.logs) t)).map snd).getD 0 := by
    intro operator t
    rw [← (recorded_foldl (hbalances operator)).value]
    refine Eq.trans ?_ (congrArg (fun h : History ℕ => (checkpointValue h.checkpoints t).getD 0)
      (hnode operator).1)
    unfold ticketBalanceAt balanceHistory
    cases store.nodes operator <;> rfl
  have hactivity : ∀ operator t, activeAt store operator t =
      ((LatestRecord.latest fst (upTo (activityEntries operator false chain.logs) t)).map
        snd).getD false := by
    intro operator t
    rw [← (recorded_foldl (hactivities operator)).value]
    refine Eq.trans ?_ (congrArg (fun h : History Bool =>
      (checkpointValue h.checkpoints t).getD false) (hnode operator).2)
    unfold activeAt activityHistory
    cases store.nodes operator <;> rfl
  have hprice : store.ticketPrice =
      ((LatestRecord.latest fst (priceEntries chain.logs)).map snd).getD 0 := by
    have hrun := (run_price chain.logs (NodeStateStore.default : NodeStateStore ω)).trans
      (foldl_keepPrice _)
    have hprice := congrArg snd hrun
    refine hprice.trans ?_
    cases LatestRecord.latest fst (priceEntries chain.logs) <;> rfl
  unfold Mirrors ConsistentLogs
  simp only [hbalance, hactivity, hprice]
  exact and_congr (forall_congr' fun operator => (hbalances operator).answers_iff 0)
    (and_congr (forall_congr' fun operator => (hactivities operator).answers_iff false)
      (hprices.end_iff 0))

/-- Logs whose positions do not decrease are consistent. -/
lemma Consistent.of_positions {α : Type} {entries : List (ChainPosition × α)}
    (h : entries.Pairwise fun e e' => e.1 ≤ e'.1) : Consistent entries := by
  intro T e last he hlast
  obtain ⟨front, back, heq, -, hback⟩ := he
  have hsort := h.sublist (filter_sublist (p := fun e => e.1.timepoint = T))
  rw [heq] at hsort hlast
  cases back with
  | nil =>
    rw [getLast?_append, getLast?_singleton, Option.some_or] at hlast
    rw [Option.some.inj hlast]
  | cons x back =>
    have hle := (pairwise_cons.1 (pairwise_append.1 hsort).2.1).1 x mem_cons_self
    have hlt : x.1.logIndex < e.1.logIndex := hback x mem_cons_self
    have hx : x ∈ entries.filter fun e => e.1.timepoint = T := by simp [heq]
    have he : e ∈ entries.filter fun e => e.1.timepoint = T := by simp [heq]
    have hxT := of_decide_eq_true (mem_filter.1 hx).2
    have heT := of_decide_eq_true (mem_filter.1 he).2
    rw [le_iff] at hle
    omega

/-- Two blocks with one timestamp. In the second one the index of the log is greater. -/
def increasingIndices : Chain Unit where
  blocks := [⟨10, [(0, .ticketBalanceUpdated () 100), (1, .operatorActivationChanged () true)]⟩,
    ⟨10, [(2, .ticketBalanceUpdated () 50), (3, .configurationUpdated "ticketPrice" 7)]⟩]
  timestamps := by decide
  indices := by decide

theorem mirrors_iff_consistent_increasing :
    Mirrors ((increasingIndices.logs.map fun e => (⟨1, e.1, e.2⟩ : Delivery Unit)).foldl deliver
      (fun _ => .default) 1) increasingIndices.logs := by
  refine (mirrors_iff_consistent increasingIndices 1 _ rfl).1.2 ⟨fun () => ?_, fun () => ?_, ?_⟩
  · exact Consistent.of_positions (by decide)
  · exact Consistent.of_positions (by decide)
  · intro e last hlast he
    exact Consistent.of_positions (by decide) _ e last he (by cases hlast; rfl)

/-- Two blocks with one timestamp. In the second one the index of the log is smaller. -/
def sharedTimestamp : Chain Unit where
  blocks := [⟨10, [(3, .ticketBalanceUpdated () 100)]⟩, ⟨10, [(0, .ticketBalanceUpdated () 0)]⟩]
  timestamps := by decide
  indices := by decide

/-- The log of the later block is dropped, and the old balance stays. -/
theorem later_block_dropped :
    ¬Mirrors ((sharedTimestamp.logs.map fun e => (⟨1, e.1, e.2⟩ : Delivery Unit)).foldl deliver
      (fun _ => .default) 1) sharedTimestamp.logs := by
  intro h
  have hbalance := h.1 () 10
  revert hbalance
  decide

end Interfold.NodeRegistry
