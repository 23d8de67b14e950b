import Interfold.Contracts.ExitQueue.Model
import Mathlib.Algebra.BigOperators.Group.List.Basic

/-!
# The exit queue keeps its totals

`WellFormed` is what the scans rely on: nothing of an asset lies below its head, both heads
stay inside the array, the live count is exact and the scanned span is capped. Taking assets
out breaks the equality of the pending totals with the tranche sums for a moment, so that
equality is carried separately and joined with `WellFormed` in `Valid`.
-/

namespace Interfold.ExitQueue

open Transaction

namespace OperatorQueue

/-- The amount of an asset over all tranches. -/
def held (q : OperatorQueue) (a : AssetType) : ℕ :=
  (q.operatorQueue.map (·.amount a)).sum

def liveTranches (ts : List ExitTranche) : ℕ :=
  ts.countP fun t => !t.isEmpty

@[simp] lemma liveTranches_nil : liveTranches [] = 0 := rfl

@[simp] lemma liveTranches_cons (t : ExitTranche) (ts : List ExitTranche) :
    liveTranches (t :: ts) = liveTranches ts + if t.isEmpty then 0 else 1 := by
  cases h : t.isEmpty <;> simp [liveTranches, h]

@[simp] lemma liveTranches_append (ts us : List ExitTranche) :
    liveTranches (ts ++ us) = liveTranches ts + liveTranches us :=
  List.countP_append

structure WellFormed (q : OperatorQueue) : Prop where
  drained : ∀ a, ∀ t ∈ q.operatorQueue.take (q.head a), t.amount a = 0
  live_eq : q.liveTrancheCount = liveTranches q.operatorQueue
  head_le : ∀ a, q.head a ≤ q.operatorQueue.length
  span_le : ∀ a, q.operatorQueue.length ≤ q.head a + maxActiveTranches

structure Valid (q : OperatorQueue) : Prop extends WellFormed q where
  pending_eq : ∀ a, q.pending a = q.held a

lemma empty_valid : Valid empty where
  drained := by simp [empty]
  live_eq := rfl
  head_le := by rintro (_ | _) <;> simp [empty, head]
  span_le := by simp [empty]
  pending_eq := by rintro (_ | _) <;> rfl

@[simp] lemma held_setHead (q : OperatorQueue) (a b : AssetType) (n : ℕ) :
    (q.setHead a n).held b = q.held b := by
  simp [held]

@[simp] lemma held_setPending (q : OperatorQueue) (a b : AssetType) (n : ℕ) :
    (q.setPending a n).held b = q.held b := by
  simp [held]

variable {q : OperatorQueue}

lemma WellFormed.setPending (h : q.WellFormed) (a : AssetType) (n : ℕ) :
    (q.setPending a n).WellFormed where
  drained := by simpa using h.drained
  live_eq := by simpa using h.live_eq
  head_le := by simpa using h.head_le
  span_le := by simpa using h.span_le

lemma WellFormed.setHead (h : q.WellFormed) (hle : q.head a ≤ n) (hn : n ≤ q.operatorQueue.length)
    (hd : ∀ t ∈ q.operatorQueue.take n, t.amount a = 0) : (q.setHead a n).WellFormed where
  drained := by
    intro b
    by_cases hab : a = b
    · subst hab
      simpa using hd
    · simpa [hab] using h.drained b
  live_eq := by simpa using h.live_eq
  head_le := by
    intro b
    have := h.head_le b
    simp only [head_setHead, queue_setHead]
    split_ifs <;> omega
  span_le := by
    intro b
    have := h.span_le b
    simp only [head_setHead, queue_setHead]
    split_ifs with hab
    · subst hab
      omega
    · omega

end OperatorQueue

open OperatorQueue

/-! ## Head and tail maintenance -/

lemma skipEmpty_spec (asset : AssetType) (ts : List ExitTranche) (head : ℕ) :
    ∃ k ≤ ts.length, skipEmpty asset ts head = head + k ∧ ∀ t ∈ ts.take k, t.amount asset = 0 := by
  induction ts generalizing head with
  | nil => exact ⟨0, by simp [skipEmpty]⟩
  | cons t ts ih =>
    by_cases ht : t.amount asset = 0
    · obtain ⟨k, hk, heq, hd⟩ := ih (head + 1)
      refine ⟨k + 1, by simpa using hk, by simp only [skipEmpty, ht, if_true, heq]; omega, ?_⟩
      simpa [ht] using hd
    · exact ⟨0, by simp [skipEmpty, ht]⟩

variable {q q' : OperatorQueue} {ts : List ExitTranche}
  {n unlock ta ba now maxTicket maxBond i : ℕ} {asset : AssetType}
  {amounts : AssetType → ℕ} {incl locked : Bool} {s : TakeState} {r : Revert ContractError}

lemma advanceHead_wf (asset : AssetType) (h : q.WellFormed) : (advanceHead asset q).WellFormed := by
  obtain ⟨k, hk, heq, hd⟩ :=
    skipEmpty_spec asset (q.operatorQueue.drop (q.head asset)) (q.head asset)
  have hle := h.head_le asset
  rw [List.length_drop] at hk
  unfold advanceHead
  rw [heq]
  refine h.setHead (by omega) (by omega) ?_
  intro t ht
  rw [List.take_add, List.mem_append] at ht
  exact ht.elim (h.drained asset t) (hd t)

@[simp] lemma queue_advanceHeads (q : OperatorQueue) :
    (advanceEmptyHeads q).operatorQueue = q.operatorQueue := by
  simp [advanceEmptyHeads, advanceHead]

@[simp] lemma pending_advanceHeads (q : OperatorQueue) (a : AssetType) :
    (advanceEmptyHeads q).pending a = q.pending a := by
  simp [advanceEmptyHeads, advanceHead]

@[simp] lemma held_advanceHeads (q : OperatorQueue) (a : AssetType) :
    (advanceEmptyHeads q).held a = q.held a := by
  simp [held]

lemma advanceHeads_wf (h : q.WellFormed) : (advanceEmptyHeads q).WellFormed :=
  advanceHead_wf _ (advanceHead_wf _ h)

/-- Pruning removes a suffix of drained tranches. -/
lemma pruneEmptyTail_split (q : OperatorQueue) :
    ∃ dead, q.operatorQueue = (pruneEmptyTail q).operatorQueue ++ dead ∧
      ∀ t ∈ dead, t.isEmpty = true := by
  refine ⟨q.operatorQueue.rtakeWhile ExitTranche.isEmpty, ?_, ?_⟩
  · exact (List.rdropWhile_append_rtakeWhile ..).symm
  · intro t ht
    exact List.mem_rtakeWhile_imp ht

@[simp] lemma pending_pruneEmptyTail (q : OperatorQueue) (a : AssetType) :
    (pruneEmptyTail q).pending a = q.pending a := by
  cases a <;> rfl

@[simp] lemma head_pruneEmptyTail (q : OperatorQueue) (a : AssetType) :
    (pruneEmptyTail q).head a = min (q.head a) (pruneEmptyTail q).operatorQueue.length := by
  cases a <;> rfl

@[simp] lemma held_pruneEmptyTail (q : OperatorQueue) (a : AssetType) :
    (pruneEmptyTail q).held a = q.held a := by
  obtain ⟨dead, heq, hdead⟩ := pruneEmptyTail_split q
  have hzero : (dead.map (·.amount a)).sum = 0 := by
    refine List.sum_eq_zero ?_
    simpa using fun t ht => (t.isEmpty_iff.1 (hdead t ht)) a
  simp [held, heq, hzero]

lemma pruneEmptyTail_wf (h : q.WellFormed) : (pruneEmptyTail q).WellFormed := by
  obtain ⟨dead, heq, hdead⟩ := pruneEmptyTail_split q
  have hlive : liveTranches dead = 0 := by
    simpa [liveTranches] using hdead
  have hlen : q.operatorQueue.length = (pruneEmptyTail q).operatorQueue.length + dead.length := by
    rw [heq, List.length_append]
  constructor
  · intro a t ht
    refine h.drained a t ?_
    rw [heq]
    rw [head_pruneEmptyTail] at ht
    have hsub := List.take_subset_take_left (pruneEmptyTail q).operatorQueue
      (Nat.min_le_left (q.head a) (pruneEmptyTail q).operatorQueue.length) ht
    rw [List.take_append]
    exact List.mem_append_left _ hsub
  · have := h.live_eq
    rw [heq, liveTranches_append, hlive] at this
    exact this
  · intro a
    simp
  · intro a
    have := h.span_le a
    rw [head_pruneEmptyTail]
    omega

/-- Whether a prefix is drained of an asset depends on the amounts of that asset only. -/
lemma drained_congr {us : List ExitTranche} (h : us.map (·.amount a) = ts.map (·.amount a))
    (hd : ∀ t ∈ ts.take n, t.amount a = 0) : ∀ t ∈ us.take n, t.amount a = 0 := by
  have hmap : ∀ vs : List ExitTranche, (∀ t ∈ vs.take n, t.amount a = 0) ↔
      ∀ m ∈ (vs.map (·.amount a)).take n, m = 0 := by
    intro vs
    rw [← List.map_take, List.forall_mem_map]
  rw [hmap] at hd ⊢
  rwa [h]

/-! ## Queueing -/

/-- The amount of each asset in a request. -/
def assetAmount (ticketAmount ciphernodeBondAmount : ℕ) : AssetType → ℕ
  | .ticket => ticketAmount
  | .ciphernodeBond => ciphernodeBondAmount

lemma mergeAsset_spec (h : mergeAsset asset n q last = .ok (q', last')) :
    q'.operatorQueue = q.operatorQueue ∧ (∀ b, q'.head b = if asset = b ∧ n ≠ 0 then
        min (q.head b) (q.operatorQueue.length - 1) else q.head b) ∧
      (∀ b, q'.pending b = q.pending b) ∧ q'.liveTrancheCount = q.liveTrancheCount ∧
      ∀ b, last'.amount b = last.amount b + if asset = b then n else 0 := by
  unfold mergeAsset at h
  split_ifs at h with hn
  · simp only [pure_ok, Prod.mk.injEq] at h
    obtain ⟨rfl, rfl⟩ := h
    simp [hn]
  · simp only [run_ok, Prod.mk.injEq] at h
    obtain ⟨total, ⟨-, rfl⟩, rfl, rfl⟩ := h
    refine ⟨by simp, ?_, by simp, by simp, ?_⟩ <;> intro b <;> by_cases hb : asset = b <;>
      simp [hb, hn]

/-- A merge into the tail: the tail grows by the requested amounts, and the head of an asset
that was queued is pulled back to the tail if it had passed it. -/
structure MergeSpec (amounts : AssetType → ℕ) (q q' : OperatorQueue) : Prop where
  tail : ∃ init last last', q.operatorQueue = init ++ [last] ∧
    q'.operatorQueue = init ++ [last'] ∧ last.isEmpty = false ∧
    (∀ a, last'.amount a = last.amount a + amounts a) ∧
    ∀ a, amounts a = 0 ∧ q'.head a = q.head a ∨ q'.head a = min (q.head a) init.length
  pending : ∀ a, q'.pending a = q.pending a
  live : q'.liveTrancheCount = q.liveTrancheCount

lemma mergeIntoTail_spec (h : mergeIntoTail unlock ta ba q = .ok (some q')) :
    MergeSpec (assetAmount ta ba) q q' := by
  unfold mergeIntoTail at h
  cases hlast : q.operatorQueue.getLast? with
  | none => simp [hlast, pure_ok] at h
  | some last =>
    obtain ⟨init, heq⟩ := List.getLast?_eq_some_iff.1 hlast
    simp only [hlast] at h
    split_ifs at h with hc
    · simp [pure_ok] at h
    simp only [run_ok, Prod.exists, Option.some.injEq] at h
    obtain ⟨q₁, last₁, h₁, q₂, last₂, h₂, rfl⟩ := h
    obtain ⟨hqueue₁, hhead₁, hpend₁, hlive₁, hamount₁⟩ := mergeAsset_spec h₁
    obtain ⟨hqueue₂, hhead₂, hpend₂, hlive₂, hamount₂⟩ := mergeAsset_spec h₂
    rw [not_or] at hc
    refine ⟨⟨init, last, last₂, heq, ?_, by simpa using hc.1, ?_, ?_⟩, ?_, ?_⟩
    · simp [hqueue₁, hqueue₂, heq]
    · rintro (_ | _) <;> simp [hamount₁, hamount₂, assetAmount]
    · rintro (_ | _)
      · by_cases hn : ta = 0 <;> simp [hhead₁, hhead₂, heq, assetAmount, hn]
      · by_cases hn : ba = 0 <;> simp [hhead₁, hhead₂, hqueue₁, heq, assetAmount, hn]
    · simp [hpend₁, hpend₂]
    · simp [hlive₁, hlive₂]

lemma MergeSpec.wellFormed (spec : MergeSpec amounts q q') (hq : q.WellFormed) : q'.WellFormed := by
  obtain ⟨init, last, last', heq, heq', hlive, hamount, hhead⟩ := spec.tail
  have hlive' : last'.isEmpty = false := by
    by_contra hc
    have hzero := last'.isEmpty_iff.1 (by simpa using hc)
    have : last.isEmpty = true := last.isEmpty_iff.2 fun a => by
      have := hzero a
      have := hamount a
      omega
    simp [this] at hlive
  constructor
  · intro a
    have hd := hq.drained a
    rw [heq] at hd
    rw [heq']
    rcases hhead a with ⟨hz, hh⟩ | hh <;> rw [hh]
    · exact drained_congr (by simp [hamount, hz]) hd
    · intro t ht
      refine hd t ?_
      rw [List.take_append_of_le_length (Nat.min_le_right ..)] at ht
      rw [List.take_append]
      exact List.mem_append_left _ (List.take_subset_take_left init (Nat.min_le_left ..) ht)
  · have := hq.live_eq
    rw [spec.live, this, heq, heq']
    simp [hlive, hlive']
  · intro a
    have := hq.head_le a
    rw [heq] at this
    rw [heq']
    simp only [List.length_append, List.length_singleton] at this ⊢
    rcases hhead a with ⟨-, hh⟩ | hh <;> omega
  · intro a
    have := hq.span_le a
    rw [heq] at this
    rw [heq']
    simp only [List.length_append, List.length_singleton, maxActiveTranches] at this ⊢
    rcases hhead a with ⟨-, hh⟩ | hh <;> omega

lemma MergeSpec.held (spec : MergeSpec amounts q q') (a : AssetType) :
    q'.held a = q.held a + amounts a := by
  obtain ⟨init, last, last', heq, heq', -, hamount, -⟩ := spec.tail
  simp [OperatorQueue.held, heq, heq', hamount]
  omega

lemma earliestHead_le (q : OperatorQueue) (a : AssetType) : q.earliestHead ≤ q.head a := by
  cases a
  · exact Nat.min_le_left ..
  · exact Nat.min_le_right ..

lemma pushTranche_wf (hq : q.WellFormed) (hpos : ¬(ta = 0 ∧ ba = 0))
    (h : pushTranche unlock ta ba q = .ok q') : q'.WellFormed := by
  simp only [pushTranche, run_ok] at h
  obtain ⟨-, ⟨-, hspan⟩, rfl⟩ := h
  have hfull : (ExitTranche.mk unlock ta ba).isEmpty = false := by
    simpa [ExitTranche.isEmpty] using hpos
  constructor
  · intro a
    simpa [List.take_append_of_le_length (hq.head_le a)] using hq.drained a
  · simp [hq.live_eq, hfull]
  · intro a
    have := hq.head_le a
    simp
    omega
  · intro a
    have := earliestHead_le q a
    simp only [queue_setTranches, head_setTranches, List.length_append, List.length_singleton]
    omega

lemma pushTranche_held (h : pushTranche unlock ta ba q = .ok q') (a : AssetType) :
    q'.held a = q.held a + assetAmount ta ba a ∧ q'.pending a = q.pending a := by
  simp only [pushTranche, run_ok] at h
  obtain ⟨-, -, rfl⟩ := h
  cases a <;> simp [OperatorQueue.held, assetAmount, ExitTranche.amount]

lemma increasePending_spec (h : increasePendingTotals ta ba q = .ok q') :
    (∀ a, q'.pending a = q.pending a + assetAmount ta ba a) ∧
      (∀ a, q'.held a = q.held a) ∧ (q.WellFormed → q'.WellFormed) := by
  simp only [increasePendingTotals, run_ok] at h
  obtain ⟨total, ⟨-, rfl⟩, total', ⟨-, rfl⟩, rfl⟩ := h
  refine ⟨?_, by simp, fun hq => (hq.setPending ..).setPending ..⟩
  rintro (_ | _) <;> simp [assetAmount]

/-- Queueing keeps the invariant and adds exactly the requested amounts. -/
lemma queueAssets_spec (hq : q.Valid) (h : queueAssetsForExit now delay ta ba q = .ok q') :
    q'.Valid ∧ ∀ a, q'.pending a = q.pending a + assetAmount ta ba a := by
  unfold queueAssetsForExit at h
  split_ifs at h with hpos
  · rw [pure_ok] at h
    subst h
    refine ⟨hq, ?_⟩
    rintro (_ | _) <;> simp [assetAmount, hpos]
  simp only [run_ok] at h
  obtain ⟨latest, -, -, -, merged, hmerge, q₁, hq₁, hq'⟩ := h
  have hq₀ := pruneEmptyTail_wf (advanceHeads_wf hq.toWellFormed)
  have hstep : q₁.WellFormed ∧ ∀ a, q₁.held a = q.held a + assetAmount ta ba a ∧
      q₁.pending a = q.pending a := by
    cases merged with
    | some q₂ =>
      rw [pure_ok] at hq₁
      subst hq₁
      have spec := mergeIntoTail_spec hmerge
      exact ⟨spec.wellFormed hq₀, fun a => by simp [spec.held, spec.pending]⟩
    | none =>
      exact ⟨pushTranche_wf hq₀ hpos hq₁, fun a => by simpa using pushTranche_held hq₁ a⟩
  obtain ⟨hpend, hheld, hwf⟩ := increasePending_spec hq'
  have hp : ∀ a, q'.pending a = q.pending a + assetAmount ta ba a := by
    intro a
    rw [hpend, (hstep.2 a).2]
  refine ⟨⟨hwf hstep.1, fun a => ?_⟩, hp⟩
  rw [hp, hheld, (hstep.2 a).1, hq.pending_eq]

/-! ## Taking assets out -/

/-- What the tranches that are not locked hold of an asset. -/
def available (includeLocked : Bool) (now : ℕ) (asset : AssetType) (ts : List ExitTranche) : ℕ :=
  ((ts.filter fun t => includeLocked || t.unlockTimestamp ≤ now).map (·.amount asset)).sum

@[simp] lemma available_nil (incl : Bool) (now : ℕ) (asset : AssetType) :
    available incl now asset [] = 0 := rfl

lemma available_cons (incl : Bool) (now : ℕ) (asset : AssetType) (t : ExitTranche)
    (ts : List ExitTranche) : available incl now asset (t :: ts) =
      (if incl || t.unlockTimestamp ≤ now then t.amount asset else 0) +
        available incl now asset ts := by
  unfold available
  split_ifs with h <;> simp [h]

lemma available_append (incl : Bool) (now : ℕ) (asset : AssetType)
    (ts us : List ExitTranche) : available incl now asset (ts ++ us) =
      available incl now asset ts + available incl now asset us := by
  simp [available]

lemma available_eq_zero (incl : Bool) (now : ℕ) (h : ∀ t ∈ ts, t.amount asset = 0) :
    available incl now asset ts = 0 :=
  List.sum_eq_zero (List.forall_mem_map.2 fun t ht => h t (List.mem_of_mem_filter ht))

lemma held_eq_available (q : OperatorQueue) (now : ℕ) (a : AssetType) :
    q.held a = available true now a q.operatorQueue := by
  simp [held, available]

/-- Only the amount of `asset` may fall, and nothing of a locked tranche changes. -/
structure Touched (includeLocked : Bool) (now : ℕ) (asset : AssetType) (t t' : ExitTranche) :
    Prop where
  unlock : t'.unlockTimestamp = t.unlockTimestamp
  others : ∀ b ≠ asset, t'.amount b = t.amount b
  le : t'.amount asset ≤ t.amount asset
  locked : includeLocked = false → now < t.unlockTimestamp → t' = t

section

variable {incl : Bool} {now i : ℕ} {asset : AssetType} {t t' : ExitTranche}
  {ts ts' : List ExitTranche} {s s₁ s' : TakeState}

lemma Touched.refl (t : ExitTranche) : Touched incl now asset t t :=
  ⟨rfl, fun _ _ => rfl, le_rfl, fun _ _ => rfl⟩

/-- What the loop does from index `i` on. The head moves only while every tranche behind it,
starting at `i`, has lost all of `asset`. -/
structure TakeSpec (includeLocked : Bool) (now : ℕ) (asset : AssetType) (i : ℕ)
    (ts ts' : List ExitTranche) (s s' : TakeState) : Prop where
  touched : List.Forall₂ (Touched includeLocked now asset) ts ts'
  total : (ts'.map (·.amount asset)).sum + s'.takenAmount =
    (ts.map (·.amount asset)).sum + s.takenAmount
  wanted : s'.remainingWanted + s'.takenAmount = s.remainingWanted + s.takenAmount
  taken : s'.takenAmount =
    s.takenAmount + min s.remainingWanted (available includeLocked now asset ts)
  live : s'.liveTrancheCount + liveTranches ts = s.liveTrancheCount + liveTranches ts'
  stuck : s.head < i → s'.head = s.head
  moved : s.head = i → ∃ k ≤ ts.length, s'.head = i + k ∧ ∀ t ∈ ts'.take k, t.amount asset = 0

lemma TakeSpec.others (h : TakeSpec incl now asset i ts ts' s s') (hb : b ≠ asset) :
    ts'.map (·.amount b) = ts.map (·.amount b) := by
  have htouch := h.touched
  clear h
  induction htouch with
  | nil => rfl
  | cons htouch _ ih => rw [List.map_cons, List.map_cons, ih, htouch.others b hb]

/-- The loop stops, or skips what it cannot take from. -/
lemma TakeSpec.refl (h : min s.remainingWanted (available incl now asset ts) = 0) :
    TakeSpec incl now asset i ts ts s s :=
  ⟨List.forall₂_same.2 fun t _ => .refl t, rfl, rfl, by rw [h, Nat.add_zero], rfl, fun _ => rfl,
    fun h => ⟨0, by simp [h]⟩⟩

/-- One iteration followed by the rest of the loop. -/
lemma TakeSpec.cons (first : TakeSpec incl now asset i [t] [t'] s s₁)
    (rest : TakeSpec incl now asset (i + 1) ts ts' s₁ s') :
    TakeSpec incl now asset i (t :: ts) (t' :: ts') s s' := by
  have hwant := first.wanted
  have htaken := first.taken
  rw [available_cons] at htaken
  constructor
  · exact .cons (List.forall₂_cons.1 first.touched).1 rest.touched
  · have h₁ := first.total
    have h₂ := rest.total
    simp only [List.map_cons, List.map_nil, List.sum_cons, List.sum_nil] at h₁ ⊢
    omega
  · rw [rest.wanted, first.wanted]
  · rw [rest.taken, available_cons]
    rw [available_nil] at htaken
    omega
  · have h₁ := first.live
    have h₂ := rest.live
    simp only [liveTranches_cons, liveTranches_nil] at h₁ ⊢
    omega
  · intro hlt
    have := first.stuck hlt
    rw [rest.stuck (by omega), this]
  · intro heq
    obtain ⟨k, hk, hhead, hd⟩ := first.moved heq
    obtain rfl | rfl : k = 0 ∨ k = 1 := by simp at hk; omega
    · exact ⟨0, by simp, by rw [rest.stuck (by omega), hhead], by simp⟩
    · obtain ⟨k, hk, hhead', hd'⟩ := rest.moved hhead
      refine ⟨k + 1, by simpa using hk, by omega, ?_⟩
      simp at hd
      simpa [hd] using hd'

lemma bumpHead_spec (spec : TakeSpec incl now asset i [t] [t'] s s') (hhead : s'.head = s.head)
    (hzero : t'.amount asset = 0) : TakeSpec incl now asset i [t] [t'] s (s'.bumpHead i) := by
  refine ⟨spec.touched, spec.total, spec.wanted, spec.taken, spec.live, ?_, ?_⟩
  · intro hlt
    simp [TakeState.bumpHead, hhead, hlt.ne']
  · intro heq
    exact ⟨1, by simp [TakeState.bumpHead, hhead, heq, hzero]⟩

lemma isEmpty_of_ne (h : t.amount asset ≠ 0) : t.isEmpty = false := by
  by_contra hc
  exact h ((t.isEmpty_iff.1 (by simpa using hc)) asset)

lemma takeTranche_spec (h : takeFromTranche asset i t s = .ok (t', s'))
    (hpos : t.amount asset ≠ 0) (hopen : incl || t.unlockTimestamp ≤ now) :
    TakeSpec incl now asset i [t] [t'] s s' := by
  simp only [takeFromTranche, run_ok, Prod.mk.injEq] at h
  obtain ⟨live, hlive, rfl, rfl⟩ := h
  have hmin := Nat.min_le_right s.remainingWanted (t.amount asset)
  have hmin' := Nat.min_le_left s.remainingWanted (t.amount asset)
  have htaken : min s.remainingWanted (t.amount asset) =
      min s.remainingWanted (available incl now asset [t]) := by
    rw [available_cons, if_pos hopen]
    rfl
  generalize min s.remainingWanted (t.amount asset) = m at *
  have hfull := isEmpty_of_ne hpos
  have hlive' : live + 1 = s.liveTrancheCount +
      if (t.setAmount asset (t.amount asset - m)).isEmpty then 0 else 1 := by
    split_ifs at hlive ⊢ with hc
    · rw [checkedSub_ok] at hlive
      omega
    · rw [pure_ok] at hlive
      omega
  have spec : TakeSpec incl now asset i [t] [t.setAmount asset (t.amount asset - m)] s
      { s with
        remainingWanted := s.remainingWanted - m
        takenAmount := s.takenAmount + m
        liveTrancheCount := live } := by
    refine ⟨.cons ⟨by cases asset <;> rfl, ?_, by simp, ?_⟩ .nil, ?_, ?_, ?_, ?_, fun _ => rfl,
      fun heq => ⟨0, by simp [heq]⟩⟩
    · intro b hb
      simp [hb.symm]
    · rintro rfl hlock
      simp only [Bool.false_or, decide_eq_true_eq] at hopen
      omega
    · simp
      omega
    · simp only
      omega
    · rw [← htaken]
    · simp only [liveTranches_cons, liveTranches_nil, hfull, Bool.false_eq_true, if_false]
      omega
  split_ifs with hz
  · exact bumpHead_spec spec rfl hz
  · exact spec

lemma takeLoop_spec (h : takeLoop asset incl now ts i s = .ok (ts', s')) :
    TakeSpec incl now asset i ts ts' s s' := by
  induction ts generalizing i s ts' s' with
  | nil =>
    simp only [takeLoop, pure_ok, Prod.mk.injEq] at h
    obtain ⟨rfl, rfl⟩ := h
    exact .refl (by simp)
  | cons t ts ih =>
    simp only [takeLoop] at h
    split_ifs at h with hzero hlock hdone <;> simp only [run_ok, Prod.exists, Prod.mk.injEq] at h
    · obtain ⟨us, s₁, hrec, rfl, rfl⟩ := h
      exact (bumpHead_spec (.refl (by simp [available_cons, hzero])) rfl hzero).cons (ih hrec)
    · obtain ⟨us, s₁, hrec, rfl, rfl⟩ := h
      exact TakeSpec.cons (.refl (by simp_all [available_cons])) (ih hrec)
    · obtain ⟨rfl, rfl⟩ := h
      exact .refl (by simp [hdone])
    · obtain ⟨t', s₁, htake, us, s₂, hrec, rfl, rfl⟩ := h
      exact (takeTranche_spec htake hzero (by grind)).cons (ih hrec)

end

/-- The queue right after the loop, before the heads and the tail are tidied. -/
lemma takeLoop_wf (hq : q.WellFormed) (hs : s.head = q.head asset)
    (hlive : s.liveTrancheCount = q.liveTrancheCount)
    (spec : TakeSpec incl now asset (q.head asset) (q.operatorQueue.drop (q.head asset)) ts s s') :
    ((q.setTranches (q.operatorQueue.take (q.head asset) ++ ts)
      s'.liveTrancheCount).setHead asset s'.head).WellFormed := by
  have hle := hq.head_le asset
  have hpref : (q.operatorQueue.take (q.head asset)).length = q.head asset := by
    rw [List.length_take, Nat.min_eq_left hle]
  have hlen : ts.length = q.operatorQueue.length - q.head asset := by
    rw [← spec.touched.length_eq, List.length_drop]
  obtain ⟨k, hk, hhead, hd⟩ := spec.moved hs
  have hoth : ∀ b ≠ asset, (q.operatorQueue.take (q.head asset) ++ ts).map (·.amount b) =
      q.operatorQueue.map (·.amount b) := by
    intro b hb
    rw [List.map_append, spec.others hb, ← List.map_append, List.take_append_drop]
  have hcount := congrArg liveTranches (List.take_append_drop (q.head asset) q.operatorQueue)
  rw [List.length_drop] at hk
  constructor
  · intro b
    by_cases hb : b = asset
    · subst hb
      intro t ht
      simp only [head_setHead, if_true, queue_setHead, queue_setTranches, hhead] at ht
      rw [List.take_append, hpref, List.take_take, Nat.min_eq_right (by omega),
        Nat.add_sub_cancel_left, List.mem_append] at ht
      exact ht.elim (hq.drained b t) (hd t)
    · simpa [Ne.symm hb] using drained_congr (hoth b hb) (hq.drained b)
  · have := spec.live
    have := hq.live_eq
    simp only [liveCount_setHead, queue_setHead, liveCount_setTranches,
      queue_setTranches, liveTranches_append] at hcount ⊢
    omega
  · intro b
    have := hq.head_le b
    simp only [head_setHead, head_setTranches, queue_setHead, queue_setTranches,
      List.length_append, hpref, hlen]
    split_ifs <;> omega
  · intro b
    have := hq.span_le b
    simp only [head_setHead, head_setTranches, queue_setHead, queue_setTranches,
      List.length_append, hpref, hlen]
    split_ifs with hb
    · subst hb
      omega
    · omega

/-- Tranches lose some of `asset` where they are not locked, and drained ones go from the tail. -/
def Shrinks (includeLocked : Bool) (now : ℕ) (asset : AssetType) (q q' : OperatorQueue) : Prop :=
  ∃ dead, (∀ t ∈ dead, t.isEmpty = true) ∧
    List.Forall₂ (Touched includeLocked now asset) q.operatorQueue (q'.operatorQueue ++ dead)

section

variable {now wanted taken : ℕ} {asset : AssetType} {incl : Bool} {q q' : OperatorQueue}

lemma Shrinks.refl (q : OperatorQueue) : Shrinks incl now asset q q :=
  ⟨[], by simp, by rw [List.append_nil]; exact List.forall₂_same.2 fun t _ => .refl t⟩

/-- The tranches below the head of an asset hold none of it. -/
lemma OperatorQueue.WellFormed.available_drop (h : q.WellFormed) (hn : n ≤ q.head asset) :
    available incl now asset q.operatorQueue =
      available incl now asset (q.operatorQueue.drop n) := by
  have hzero := available_eq_zero incl now fun t ht =>
    h.drained asset t (List.take_subset_take_left _ hn ht)
  nth_rewrite 1 [← List.take_append_drop n q.operatorQueue]
  rw [available_append, hzero, Nat.zero_add]

lemma takeAssets_spec (hq : q.WellFormed)
    (h : takeAssetsFromQueue now wanted asset incl q = .ok (taken, q')) :
    q'.WellFormed ∧ (∀ b, q'.pending b = q.pending b) ∧
      taken = min wanted (available incl now asset q.operatorQueue) ∧
      q'.held asset + taken = q.held asset ∧ (∀ b ≠ asset, q'.held b = q.held b) ∧
      Shrinks incl now asset q q' := by
  unfold takeAssetsFromQueue at h
  split_ifs at h with hw <;> simp only [run_ok, Prod.exists, Prod.mk.injEq] at h
  · obtain ⟨rfl, rfl⟩ := h
    simp [hq, hw, Shrinks.refl]
  obtain ⟨scanned, s, hloop, rfl, rfl⟩ := h
  have spec := takeLoop_spec hloop
  have hsplit := fun b => congrArg List.sum
    (congrArg (List.map (ExitTranche.amount · b)) (List.take_append_drop (q.head asset)
      q.operatorQueue))
  simp only [List.map_append, List.sum_append] at hsplit
  refine ⟨?_, ?_, ?_, ?_, ?_, ?_⟩
  · exact pruneEmptyTail_wf (advanceHeads_wf (takeLoop_wf hq rfl rfl spec))
  · simp
  · rw [spec.taken, Nat.zero_add, hq.available_drop le_rfl]
  · have htotal := spec.total
    have := hsplit asset
    simp only at htotal
    simp only [held_pruneEmptyTail, held_advanceHeads, held_setHead]
    simp only [held, queue_setTranches, List.map_append, List.sum_append]
    omega
  · intro b hb
    have := congrArg List.sum (spec.others hb)
    have := hsplit b
    simp only [held_pruneEmptyTail, held_advanceHeads, held_setHead]
    simp only [held, queue_setTranches, List.map_append, List.sum_append]
    omega
  · obtain ⟨dead, heq, hdead⟩ := pruneEmptyTail_split (advanceEmptyHeads ((q.setTranches
      (q.operatorQueue.take (q.head asset) ++ scanned) s.liveTrancheCount).setHead asset s.head))
    refine ⟨dead, hdead, ?_⟩
    rw [← heq, queue_advanceHeads, queue_setHead, queue_setTranches]
    nth_rewrite 1 [← List.take_append_drop (q.head asset) q.operatorQueue]
    exact List.rel_append (List.forall₂_same.2 fun t _ => .refl t) spec.touched

/-- Taking one asset keeps the invariant and lowers its total by the amount returned. -/
lemma takePending_spec (hq : q.Valid) (h : takePending now wanted asset incl q = .ok (taken, q')) :
    q'.Valid ∧ taken = min wanted (available incl now asset q.operatorQueue) ∧
      q'.pending asset + taken = q.pending asset ∧ (∀ b ≠ asset, q'.pending b = q.pending b) ∧
      Shrinks incl now asset q q' := by
  unfold takePending at h
  split_ifs at h with hmax
  · simp only [run_ok, Prod.exists, Prod.mk.injEq] at h
    obtain ⟨taken, q₁, htake, total, ⟨hle, rfl⟩, rfl, rfl⟩ := h
    obtain ⟨hwf, hpend, hwant, hheld, hoth, hshr⟩ :=
      takeAssets_spec hq.toWellFormed htake
    have htotal := hq.pending_eq asset
    rw [hpend] at hle
    refine ⟨⟨hwf.setPending _ _, fun b => ?_⟩, hwant, by simp [hpend]; omega, fun b hb => ?_, ?_⟩
    · simp only [pending_setPending, held_setPending, hpend]
      split_ifs with hb
      · subst hb
        omega
      · rw [hoth b (Ne.symm hb), hq.pending_eq]
    · simp [hpend, hb.symm]
    · unfold Shrinks at hshr ⊢
      rwa [queue_setPending]
  · simp only [pure_ok, Prod.mk.injEq] at h
    obtain ⟨rfl, rfl⟩ := h
    obtain rfl : wanted = 0 := by omega
    exact ⟨hq, by simp, rfl, fun _ _ => rfl, .refl q⟩

end

/-- A claim or slash keeps the invariant and lowers each total by the amount returned. -/
lemma takeBoth_spec (hq : q.Valid)
    (h : takeBoth now maxTicket maxBond incl q = .ok ((tickets, bonds), q')) :
    q'.Valid ∧ tickets ≤ maxTicket ∧ bonds ≤ maxBond ∧
      q'.pending .ticket + tickets = q.pending .ticket ∧
      q'.pending .ciphernodeBond + bonds = q.pending .ciphernodeBond := by
  simp only [takeBoth, run_ok, Prod.exists, Prod.mk.injEq] at h
  obtain ⟨tickets, q₁, h₁, bonds, q₂, h₂, ⟨rfl, rfl⟩, rfl⟩ := h
  obtain ⟨hq₁, rfl, htotal₁, hoth₁, -⟩ := takePending_spec hq h₁
  obtain ⟨hq₂, rfl, htotal₂, hoth₂, -⟩ := takePending_spec hq₁ h₂
  refine ⟨hq₂, Nat.min_le_left .., Nat.min_le_left .., ?_, ?_⟩
  · rw [hoth₂ _ (by decide), htotal₁]
  · rw [htotal₂, hoth₁ _ (by decide)]

/-! ## Every run -/

lemma exec_valid (hq : q.Valid) (h : exec now q c = .ok q') : q'.Valid := by
  cases c with
  | queueAssetsForExit delay ta ba => exact (queueAssets_spec hq h).1
  | claimAssets maxTicketAmount maxBondAmount =>
    simp only [exec, claimAssets, map_ok, Prod.exists] at h
    obtain ⟨tickets, bonds, q₁, h₁, rfl⟩ := h
    exact (takeBoth_spec hq h₁).1
  | slashPendingAssets ta ba incl =>
    simp only [exec, slashPendingAssets, map_ok, Prod.exists] at h
    obtain ⟨tickets, bonds, q₁, h₁, rfl⟩ := h
    exact (takeBoth_spec hq h₁).1

lemma ExitQueueState.Reachable.valid {s : ExitQueueState} (h : Reachable now s)
    (operator : Address) : (s operator).Valid := by
  induction h with
  | init now => exact empty_valid
  | wait _ _ ih => exact ih
  | @call now s op c q _ hexec ih =>
    by_cases hop : operator = op
    · subst hop
      simpa using exec_valid ih hexec
    · simpa [hop] using ih

/-- The representation invariant in the words of the storage fields. -/
structure Representation (q : OperatorQueue) : Prop where
  ticket_total : q.pendingTotals.ticketAmount = (q.operatorQueue.map (·.ticketAmount)).sum
  ticket_scanned : q.pendingTotals.ticketAmount =
    ((q.operatorQueue.drop q.queueHeadIndexTicket).map (·.ticketAmount)).sum
  bond_total : q.pendingTotals.ciphernodeBondAmount =
    (q.operatorQueue.map (·.ciphernodeBondAmount)).sum
  bond_scanned : q.pendingTotals.ciphernodeBondAmount =
    ((q.operatorQueue.drop q.queueHeadIndexCiphernodeBond).map (·.ciphernodeBondAmount)).sum
  live : q.liveTrancheCount =
    q.operatorQueue.countP fun t => t.ticketAmount ≠ 0 ∨ t.ciphernodeBondAmount ≠ 0
  ticketHead_le : q.queueHeadIndexTicket ≤ q.operatorQueue.length
  bondHead_le : q.queueHeadIndexCiphernodeBond ≤ q.operatorQueue.length
  span_le : q.operatorQueue.length - min q.queueHeadIndexTicket q.queueHeadIndexCiphernodeBond ≤ 64

/-! ## Reverts -/

lemma takeTranche_error (h : takeFromTranche asset i t s = .error r) :
    r = .panic ∧ s.liveTrancheCount = 0 := by
  simp only [takeFromTranche, run_error] at h
  exact ⟨h.2.2, by omega⟩

/-- Taking assets out of a queue declares no error: it can only panic, when more tranches are live
than the count says. -/
lemma takeLoop_error (h : takeLoop asset locked now ts i s = .error r) :
    r = .panic ∧ s.liveTrancheCount < liveTranches ts := by
  induction ts generalizing i s with
  | nil => simp [takeLoop, pure_error] at h
  | cons t ts ih =>
    simp only [takeLoop, run_error] at h
    rw [liveTranches_cons]
    rcases h with ⟨-, h⟩ | ⟨hpos, ⟨-, h⟩ | ⟨hopen, -, h | ⟨⟨t', s₁⟩, htake, h⟩⟩⟩
    · exact (ih h).imp_right (Nat.lt_add_right _)
    · exact (ih h).imp_right (Nat.lt_add_right _)
    · have hlive := takeTranche_error h
      simp only [isEmpty_of_ne hpos]
      grind
    · have hspec : TakeSpec locked now asset i [t] [t'] s s₁ :=
        takeTranche_spec htake hpos (by grind)
      have hlive := hspec.live
      simp only [liveTranches_cons, liveTranches_nil, isEmpty_of_ne hpos] at hlive ⊢
      grind

lemma takeAssets_error (h : takeAssetsFromQueue now n asset locked q = .error r) :
    r = .panic ∧ ¬q.WellFormed := by
  simp only [takeAssetsFromQueue, run_error] at h
  refine (takeLoop_error h.2).imp_right fun hlive hq => ?_
  have hcount := congrArg liveTranches (List.take_append_drop (q.head asset) q.operatorQueue)
  rw [liveTranches_append, ← hq.live_eq] at hcount
  dsimp only at hlive
  omega

lemma takePending_error (h : takePending now n asset locked q = .error r) :
    r = .panic ∧ ¬q.Valid := by
  simp only [takePending, run_error] at h
  obtain ⟨-, h | ⟨⟨taken, q'⟩, htake, hlt, rfl⟩⟩ := h
  · exact (takeAssets_error h).imp_right fun hn hq => hn hq.toWellFormed
  · refine ⟨rfl, fun hq => ?_⟩
    obtain ⟨-, hpend, -, hheld, -⟩ := takeAssets_spec hq.toWellFormed htake
    have htotal := hq.pending_eq asset
    rw [hpend] at hlt
    omega

lemma claimAssets_error (h : claimAssets now maxTicket maxBond q = .error r) : r = .panic := by
  simp only [claimAssets, takeBoth, run_error] at h
  rcases h with h | ⟨_, _, h⟩ <;> exact (takePending_error h).1

lemma OperatorQueue.WellFormed.held_eq (h : q.WellFormed) (a : AssetType) :
    q.held a = ((q.operatorQueue.drop (q.head a)).map (·.amount a)).sum := by
  rw [held_eq_available q 0, h.available_drop le_rfl]
  simp [available]

theorem reachable_representation {now : ℕ} {s : ExitQueueState}
    (h : ExitQueueState.Reachable now s) (operator : Address) : Representation (s operator) := by
  have hq := h.valid operator
  refine ⟨hq.pending_eq .ticket, ?_, hq.pending_eq .ciphernodeBond, ?_, ?_, hq.head_le .ticket,
    hq.head_le .ciphernodeBond, ?_⟩
  · exact (hq.pending_eq .ticket).trans (hq.held_eq .ticket)
  · exact (hq.pending_eq .ciphernodeBond).trans (hq.held_eq .ciphernodeBond)
  · rw [hq.live_eq, liveTranches]
    congr 1
    funext t
    by_cases ht : t.ticketAmount = 0 <;> simp [ExitTranche.isEmpty, ht]
  · have hticket := hq.span_le .ticket
    have hbond := hq.span_le .ciphernodeBond
    simp only [head, maxActiveTranches] at hticket hbond
    omega

/-- A tranche of five tickets and three bonds, of which four tickets are slashed while locked. -/
theorem reachable_representation_slash : ∃ s, ExitQueueState.Reachable 100 s ∧
      s 7 = ⟨[⟨110, 1, 3⟩], 0, 0, ⟨1, 3⟩, 1⟩ ∧ Representation (s 7) := by
  have h₁ : ExitQueueState.Reachable 100
      (Function.update ExitQueueState.empty 7 ⟨[⟨110, 5, 3⟩], 0, 0, ⟨5, 3⟩, 1⟩) :=
    .call (c := .queueAssetsForExit 10 5 3) (.init 100) rfl
  have h₂ := ExitQueueState.Reachable.call (q := ⟨[⟨110, 1, 3⟩], 0, 0, ⟨1, 3⟩, 1⟩)
    (c := .slashPendingAssets 4 0 true) h₁ (by rw [Function.update_self]; rfl)
  exact ⟨_, h₂, Function.update_self .., reachable_representation h₂ 7⟩

end Interfold.ExitQueue
