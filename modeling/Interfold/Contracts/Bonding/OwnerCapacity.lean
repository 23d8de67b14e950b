import Interfold.Contracts.Bonding.AdmissionPause
import Interfold.Library.Occupancy

/-!
# Owner capacity

The registry counts the owners that have an eligible operator. Eligibility changes with time, with
policies and with credentials, and none of that updates the count. The count is still never more
than the owners there are, because it is started anew whenever something could have made it too
large, and ignored when a credential it rests on may have ended.
-/

namespace Interfold.Bonding

open Transaction Checkpoints Function Occupancy

/-! ## The count -/

/-- Owners are never the zero address. -/
def seatOf (owner : Address) : Option Address := if owner = 0 then none else some owner

lemma seatOf_eq_some : seatOf own = some o ↔ own = o ∧ o ≠ 0 := by
  unfold seatOf
  split_ifs with h
  · constructor
    · simp
    · rintro ⟨rfl, hne⟩
      exact absurd h hne
  · constructor
    · intro heq
      obtain rfl := Option.some.inj heq
      exact ⟨rfl, h⟩
    · rintro ⟨rfl, -⟩
      rfl

namespace OwnerHistoryLayout

/-- The owner for which an operator is counted in the current capacity version. -/
def seat (h : OwnerHistoryLayout) (operator : Address) : Option Address :=
  if (h.countedOperators operator).version = h.capacityVersion then
    seatOf (h.countedOperators operator).owner
  else none

end OwnerHistoryLayout

structure CapacityBooks (now : ℕ) (h : OwnerHistoryLayout) : Prop where
  counts : h.activeOwnerCounts.Ordered now
  expiries : h.capacityIdentityExpiries.Ordered now
  revocations : h.capacityRevocationCounts.Ordered now
  version_le : ∀ x, (h.countedOperators x).version ≤ h.capacityVersion
  unused : ∀ v, h.capacityVersion < v → h.activeOperators v = fun _ => 0
  occupancy : Occupancy h.seat (h.activeOperators h.capacityVersion) h.activeOwnerCounts.latest

/-- What was counted in the past stays as it was. -/
structure Recount (now : ℕ) (h h' : OwnerHistoryLayout) : Prop where
  counts : ∀ t < now, h'.activeOwnerCounts.upperLookup t = h.activeOwnerCounts.upperLookup t
  expiries : ∀ t < now, h'.capacityIdentityExpiries.upperLookup t =
    h.capacityIdentityExpiries.upperLookup t
  revocations : ∀ t < now, h'.capacityRevocationCounts.upperLookup t =
    h.capacityRevocationCounts.upperLookup t

variable {now : ℕ} {h : OwnerHistoryLayout}

lemma Recount.rfl : Recount now h h :=
  ⟨fun _ _ => Eq.refl _, fun _ _ => Eq.refl _, fun _ _ => Eq.refl _⟩

lemma Recount.trans (hfirst : Recount now h h') (hsnd : Recount now h' h'') :
    Recount now h h'' where
  counts t ht := (hsnd.counts t ht).trans (hfirst.counts t ht)
  expiries t ht := (hsnd.expiries t ht).trans (hfirst.expiries t ht)
  revocations t ht := (hsnd.revocations t ht).trans (hfirst.revocations t ht)

namespace Capacity

section

variable {env : Env} {p p' : Pool} {op prv next : Address}

/-- Writing one row leaves the others. -/
lemma setActiveOperators_row (h : OwnerHistoryLayout) (own : Address) (n : ℕ) :
    (setActiveOperators h own n).activeOperators (setActiveOperators h own n).capacityVersion =
      update (h.activeOperators h.capacityVersion) own n :=
  update_self ..

lemma setActiveOperators_other (h : OwnerHistoryLayout) (own : Address) (n : ℕ)
    (hv : v ≠ h.capacityVersion) :
    (setActiveOperators h own n).activeOperators v = h.activeOperators v :=
  update_of_ne hv ..

/-- What `move` does after its two counters are written: only rows of the current version changed. -/
structure Moved (h h' : OwnerHistoryLayout) : Prop where
  same : h' = { h with activeOperators := h'.activeOperators }
  others : ∀ v, v ≠ h.capacityVersion → h'.activeOperators v = h.activeOperators v

variable {h h₁ : OwnerHistoryLayout} {seat : Address → Option Address} {total updated : ℕ}

lemma Moved.rfl : Moved h h := ⟨Eq.refl _, fun _ _ => Eq.refl _⟩

lemma Moved.setActiveOperators (hmoved : Moved h h') (own : Address) (n : ℕ) :
    Moved h (setActiveOperators h' own n) where
  same := by
    have hsame := hmoved.same
    unfold Capacity.setActiveOperators
    grind
  others v hv := by
    have hver : h'.capacityVersion = h.capacityVersion := by rw [hmoved.same]
    rw [setActiveOperators_other h' own n (hver ▸ hv)]
    exact hmoved.others v hv

lemma vacate_ok (hocc : Occupancy seat (h.activeOperators h.capacityVersion) total)
    (hseat : seat op = seatOf prv) (hrun : (if prv ≠ 0 then do
        let left ← checkedSub (h.activeOperators h.capacityVersion prv) 1
        let updated ← (if left = 0 then checkedSub total 1 else pure total)
        pure (setActiveOperators h prv left, updated)
      else pure (h, total) : Tx (OwnerHistoryLayout × ℕ)) = .ok (h₁, updated)) :
    Moved h h₁ ∧ Occupancy (update seat op none) (h₁.activeOperators h.capacityVersion)
      updated := by
  rcases ite_ok.1 hrun with ⟨hne, hrun⟩ | ⟨heq, hrun⟩
  · simp only [run_ok, Prod.mk.injEq] at hrun
    obtain ⟨left, ⟨-, rfl⟩, updated', htotal, rfl, rfl⟩ := hrun
    have hseat' : seat op = some prv := by
      rw [hseat, seatOf_eq_some]
      exact ⟨rfl, hne⟩
    have hleave := hocc.leave hseat'
    have hupdat : (if h.activeOperators h.capacityVersion prv - 1 = 0 then total - 1
        else total) = updated' := by
      split_ifs at htotal ⊢
      · exact (checkedSub_ok.1 htotal).2
      · exact pure_ok.1 htotal
    refine ⟨Moved.rfl.setActiveOperators prv _, ?_⟩
    rw [← hupdat]
    have hrow := setActiveOperators_row h prv (h.activeOperators h.capacityVersion prv - 1)
    exact hrow ▸ hleave
  · rw [not_not] at heq
    simp only [pure_ok, Prod.mk.injEq] at hrun
    obtain ⟨rfl, rfl⟩ := hrun
    have hnone : seat op = none := by
      rw [hseat, heq]
      rfl
    rw [← hnone, update_eq_self]
    exact ⟨.rfl, hocc⟩

lemma occupy_ok (hmoved : Moved h h₁)
    (hocc : Occupancy seat (h₁.activeOperators h.capacityVersion) total)
    (hseat : seat op = none) (hrun : (if next ≠ 0 then do
        let seen := h₁.activeOperators h₁.capacityVersion next
        let more ← checkedAdd seen 1
        pure (setActiveOperators h₁ next more, if seen = 0 then total + 1 else total)
      else pure (h₁, total) : Tx (OwnerHistoryLayout × ℕ)) = .ok (h₂, updated)) :
    Moved h h₂ ∧ Occupancy (update seat op (seatOf next))
      (h₂.activeOperators h.capacityVersion) updated := by
  have hver : h₁.capacityVersion = h.capacityVersion := by rw [hmoved.same]
  rcases ite_ok.1 hrun with ⟨hne, hrun⟩ | ⟨heq, hrun⟩
  · simp only [run_ok, Prod.mk.injEq] at hrun
    obtain ⟨more, ⟨-, rfl⟩, rfl, rfl⟩ := hrun
    have hjoin := hocc.join hseat next
    have hseat' : seatOf next = some next := seatOf_eq_some.2 ⟨rfl, hne⟩
    have hrow := setActiveOperators_row h₁ next (h₁.activeOperators h₁.capacityVersion next + 1)
    refine ⟨hmoved.setActiveOperators next _, ?_⟩
    rw [hseat', ← hver]
    rw [← hver] at hjoin
    exact hrow ▸ hjoin
  · rw [not_not] at heq
    simp only [pure_ok, Prod.mk.injEq] at hrun
    obtain ⟨rfl, rfl⟩ := hrun
    have hnone : seatOf next = seat op := by
      rw [hseat, heq]
      rfl
    rw [hnone, update_eq_self]
    exact ⟨hmoved, hocc⟩

/-- One operator is counted for another owner, or no longer, or from now on. -/
structure Reseated (now : ℕ) (operator next : Address) (h h' : OwnerHistoryLayout) : Prop where
  books : CapacityBooks now h'
  recount : Recount now h h'
  expiries : h'.capacityIdentityExpiries = h.capacityIdentityExpiries
  revocations : h'.capacityRevocationCounts = h.capacityRevocationCounts
  seat : h'.seat = update h.seat operator (seatOf next)

lemma Reseated.refl (hbooks : CapacityBooks now h) (hseat : h.seat op = seatOf next) :
    Reseated now op next h h :=
  ⟨hbooks, .rfl, rfl, rfl, by rw [← hseat, update_eq_self]⟩

section

variable (hbooks : CapacityBooks env.now p.ownerHistory)
  (hseat : p.ownerHistory.seat op = seatOf prv) (hne : prv ≠ next)
  (hrun : move env prv next p = .ok p')
include hbooks hseat hne hrun

/-- Only rows of the current version and the recorded total change. -/
lemma move_books : ∃ rows counts, p' = { p with ownerHistory := { p.ownerHistory with
        activeOperators := rows, activeOwnerCounts := counts } } ∧
      (∀ v, v ≠ p.ownerHistory.capacityVersion → rows v = p.ownerHistory.activeOperators v) ∧
      Occupancy (update p.ownerHistory.seat op (seatOf next))
        (rows p.ownerHistory.capacityVersion) counts.latest ∧
      Trace.Records env.now counts.latest p.ownerHistory.activeOwnerCounts counts := by
  unfold move at hrun
  rw [if_neg hne] at hrun
  simp only [run_ok, Prod.exists] at hrun
  obtain ⟨h₁, n₁, hvacate, h₂, n₂, hoccupy, counts, hcnts, rfl⟩ := hrun
  obtain ⟨hmoved₁, hocc₁⟩ := vacate_ok hbooks.occupancy hseat hvacate
  obtain ⟨⟨hsame, hoth⟩, hocc₂⟩ :=
    occupy_ok hmoved₁ hocc₁ (update_self ..) hoccupy
  obtain ⟨rows, rfl⟩ : ∃ rows, h₂ = { p.ownerHistory with activeOperators := rows } := ⟨_, hsame⟩
  rw [update_idem] at hocc₂
  -- The new total is recorded, if it differs from the old one.
  have hrecs : Trace.Records env.now n₂ p.ownerHistory.activeOwnerCounts counts := by
    split_ifs at hcnts with hsame
    · simp only [bind_ok, safeUint48_ok] at hcnts
      obtain ⟨-, ⟨-, rfl⟩, hpush⟩ := hcnts
      exact push_records hbooks.counts hpush
    · rw [not_not] at hsame
      rw [← pure_ok.1 hcnts]
      exact ⟨hbooks.counts, hsame.symm, fun _ _ => rfl⟩
  obtain rfl := hrecs.latest
  exact ⟨rows, counts, rfl, hoth, hocc₂, hrecs⟩

lemma move_ok : Reseated env.now op next p.ownerHistory
      (setCounted op ⟨p.ownerHistory.capacityVersion, next⟩ p').ownerHistory := by
  obtain ⟨rows, counts, rfl, hoth, hocc, hrecs⟩ := move_books hbooks hseat hne hrun
  have hseat' : (setCounted op ⟨p.ownerHistory.capacityVersion, next⟩ { p with
      ownerHistory := { p.ownerHistory with
        activeOperators := rows, activeOwnerCounts := counts } }).ownerHistory.seat =
      update p.ownerHistory.seat op (seatOf next) := by
    funext x
    unfold OwnerHistoryLayout.seat setCounted
    by_cases hx : x = op
    · subst hx
      simp
    · simp [hx]
  refine ⟨⟨hrecs.ordered, hbooks.expiries, hbooks.revocations, ?_, ?_, ?_⟩,
    ⟨hrecs.past, fun _ _ => rfl, fun _ _ => rfl⟩, rfl, rfl, hseat'⟩
  · intro x
    unfold setCounted
    by_cases hx : x = op
    · simp [hx]
    · simpa [hx] using hbooks.version_le x
  · intro v hv
    exact (hoth v (ne_of_gt hv)).trans (hbooks.unused v hv)
  · rw [hseat']
    exact hocc

end

end

/-! ## A fresh start -/

section

variable {env : Env} {r : Roster} {ids : Identities} {p' : Pool}

/-- The count was started anew, for the identity policy in force. -/
structure Restarted (now : ℕ) (W : View) (h h' : OwnerHistoryLayout) : Prop where
  books : CapacityBooks now h'
  recount : Recount now h h'
  empty : ∀ x, h'.seat x = none
  fresh : W.identity.required = true → 0 < h'.capacityIdentityExpiries.latest ∧
    h'.capacityRevocationCounts.latest = W.revocations W.identity.registry

variable {t now : ℕ} {W : View} {h h' : OwnerHistoryLayout} {own op : Address}

lemma windowEnd_pos (h : windowEnd t = .ok expiry) : 0 < expiry := by
  obtain ⟨-, rfl⟩ := safeUint48_ok.1 h
  have : 0 < t / identityCapacityWindow + 1 := Nat.succ_pos _
  unfold identityCapacityWindow at *
  omega

lemma revocations_of_answer (hans : Answers env ids) (ht : t < 2 ^ 48)
    (h : external (env.revocationCountAt reg t) = .ok n) : n = (r.view ids t).revocations reg := by
  cases hregy : ids reg with
  | none =>
    rw [external_ok, hans.revocations, hregy] at h
    cases h
  | some σ =>
    have heq := hans.revocationCountAt_eq (r := r) ht (Option.isSome_of_eq_some hregy)
    exact Except.ok.inj (h.symm.trans heq)

lemma reset_ok (hans : Answers env ids) (hbooks : CapacityBooks env.now r.pool.ownerHistory)
    (hrun : reset env r.pool = .ok p') :
    Restarted env.now (r.view ids env.now) r.pool.ownerHistory p'.ownerHistory := by
  have hnow := (reset_keeps hrun).2
  simp only [reset, run_ok, safeUint48_ok.2 ⟨hnow, rfl⟩, ok_bind,
    Identity.policyAt_eq ids hnow] at hrun
  obtain ⟨counts, hcnts, expiry, hexp, expiries, hexps, revocations, hrevs,
    revocationCounts, hrevoc, rfl⟩ := hrun
  have hcnts' := push_records hbooks.counts hcnts
  have hexps' := push_records hbooks.expiries hexps
  have hrevs' := push_records hbooks.revocations hrevoc
  have hempty : ∀ x, OwnerHistoryLayout.seat { r.pool.ownerHistory with
      capacityVersion := r.pool.ownerHistory.capacityVersion + 1
      activeOwnerCounts := counts
      capacityIdentityExpiries := expiries
      capacityRevocationCounts := revocationCounts } x = none := by
    intro x
    have hle := hbooks.version_le x
    unfold OwnerHistoryLayout.seat
    exact if_neg (by dsimp only; omega)
  refine ⟨⟨hcnts'.ordered, hexps'.ordered, hrevs'.ordered, ?_, ?_, ?_⟩,
    ⟨hcnts'.past, hexps'.past, hrevs'.past⟩, hempty, ?_⟩
  · exact fun x => (hbooks.version_le x).trans (Nat.le_succ _)
  · exact fun v hv => hbooks.unused v (Nat.lt_of_succ_lt hv)
  · rw [hcnts'.latest, hbooks.unused _ (Nat.lt_succ_self _)]
    exact Occupancy.empty hempty
  · intro hreq
    rw [if_pos hreq] at hexp hrevs
    rw [hexps'.latest, hrevs'.latest]
    exact ⟨windowEnd_pos hexp, revocations_of_answer hans hnow hrevs⟩

/-- The count is good as it is, or it was started anew. -/
def Prepared (now : ℕ) (W : View) (h h' : OwnerHistoryLayout) : Prop :=
  h' = h ∨ Restarted now W h h'

lemma prepareCapacity_ok (hans : Answers env ids)
    (hbooks : CapacityBooks env.now r.pool.ownerHistory)
    (hrun : prepareIdentityCapacity env r.pool = .ok (pol, p')) :
    pol = (r.view ids env.now).identity ∧
      Prepared env.now (r.view ids env.now) r.pool.ownerHistory p'.ownerHistory := by
  have hnow := (prepareCapacity_keeps hrun).2
  simp only [prepareIdentityCapacity, Identity.policyAt_eq ids hnow, ok_bind, run_ok,
    Prod.mk.injEq] at hrun
  obtain ⟨fresh, -, p₁, hreset, rfl, rfl⟩ := hrun
  refine ⟨rfl, ?_⟩
  cases fresh with
  | true =>
    obtain rfl := pure_ok.1 hreset
    exact .inl rfl
  | false => exact .inr (reset_ok hans hbooks hreset)

lemma Prepared.books (hprep : Prepared now W h h') (hbooks : CapacityBooks now h) :
    CapacityBooks now h' := by
  rcases hprep with rfl | hrst
  · exact hbooks
  · exact hrst.books

lemma Prepared.recount (hprep : Prepared now W h h') : Recount now h h' := by
  rcases hprep with rfl | hrst
  · exact .rfl
  · exact hrst.recount

/-- The credential of the owner lasts as long as the count. -/
def Covers (env : Env) (W : View) (h : OwnerHistoryLayout) (owner : Address) : Prop :=
  W.identity.required = true → ∃ expiry,
    env.identityExpiry W.identity.registry owner = some expiry ∧
      h.capacityIdentityExpiries.latest ≤ expiry

lemma coversWindow_ok (hrun : coversWindow env p W.identity own = .ok true) :
    Covers env W p.ownerHistory own := by
  intro hreq
  unfold coversWindow at hrun
  simp only [hreq, Bool.true_eq_false, if_false, run_ok, external_ok, decide_eq_true_eq] at hrun
  exact hrun

/-- After an update the operator is counted for its owner if it is admitted and its credential
lasts long enough, and not at all otherwise. -/
lemma sync_ok (hans : Answers env ids) (hbooks : CapacityBooks env.now r.pool.ownerHistory)
    (hrun : sync env op own active r.pool = .ok p') :
    ∃ h₁ next, Prepared env.now (r.view ids env.now) r.pool.ownerHistory h₁ ∧
      Reseated env.now op next h₁ p'.ownerHistory ∧
      (next ≠ 0 → next = own ∧ active = true ∧ Covers env (r.view ids env.now) h₁ own) := by
  simp only [sync, bind_ok, Prod.exists] at hrun
  obtain ⟨pol, p₁, hprepare, covers, hcovers, hrun⟩ := hrun
  obtain ⟨rfl, hprep⟩ := prepareCapacity_ok hans hbooks hprepare
  have hbooks₁ := hprep.books hbooks
  have hseat : p₁.ownerHistory.seat op = seatOf
      (if (p₁.ownerHistory.countedOperators op).version = p₁.ownerHistory.capacityVersion then
        (p₁.ownerHistory.countedOperators op).owner else 0) := by
    unfold OwnerHistoryLayout.seat
    split_ifs
    · rfl
    · rfl
  have hnext : (if covers then own else 0) ≠ 0 → (if covers then own else 0) = own ∧
      active = true ∧ Covers env (r.view ids env.now) p₁.ownerHistory own := by
    intro hne
    cases covers with
    | false => exact absurd rfl hne
    | true =>
      cases active with
      | false => cases hcovers
      | true => exact ⟨rfl, rfl, coversWindow_ok hcovers⟩
  refine ⟨p₁.ownerHistory, if covers then own else 0, hprep, ?_, hnext⟩
  rcases ite_ok.1 hrun with ⟨heq, hrun⟩ | ⟨hne, hrun⟩
  · obtain rfl := pure_ok.1 hrun
    exact .refl hbooks₁ (hseat.trans (congrArg seatOf heq))
  · simp only [run_ok] at hrun
    obtain ⟨p₂, hmove, rfl⟩ := hrun
    have hver : p₂.ownerHistory.capacityVersion = p₁.ownerHistory.capacityVersion := by
      obtain ⟨rows, counts, rfl, -⟩ := move_books hbooks₁ hseat hne hmove
      rfl
    rw [hver]
    exact move_ok hbooks₁ hseat hne hmove

/-- A transfer moves a counted operator to the new owner or drops it. -/
lemma transfer_ok (hans : Answers env ids) (hbooks : CapacityBooks env.now r.pool.ownerHistory)
    (hrun : transfer env op own r.pool = .ok p')
    (hchg : ∀ o, r.pool.ownerHistory.seat op = some o → o ≠ own) :
    ∃ h₁ next, Prepared env.now (r.view ids env.now) r.pool.ownerHistory h₁ ∧
      Reseated env.now op next h₁ p'.ownerHistory ∧
      (next ≠ 0 → next = own ∧ h₁.seat op ≠ none ∧ Covers env (r.view ids env.now) h₁ own) := by
  simp only [transfer, bind_ok, Prod.exists] at hrun
  obtain ⟨pol, p₁, hprepare, hrun⟩ := hrun
  obtain ⟨rfl, hprep⟩ := prepareCapacity_ok hans hbooks hprepare
  have hbooks₁ := hprep.books hbooks
  rcases ite_ok.1 hrun with ⟨hnone, hrun⟩ | ⟨hcnt, hrun⟩
  · obtain rfl := pure_ok.1 hrun
    have hseat : p₁.ownerHistory.seat op = seatOf 0 := by
      unfold OwnerHistoryLayout.seat seatOf
      grind
    exact ⟨p₁.ownerHistory, 0, hprep, .refl hbooks₁ hseat, fun hne => absurd rfl hne⟩
  · rw [not_or, not_not] at hcnt
    obtain ⟨hver, howner⟩ := hcnt
    simp only [run_ok] at hrun
    obtain ⟨covers, hcovers, p₂, hmove, rfl⟩ := hrun
    have hseat : p₁.ownerHistory.seat op =
        seatOf (p₁.ownerHistory.countedOperators op).owner := if_pos hver
    have hsome : p₁.ownerHistory.seat op = some (p₁.ownerHistory.countedOperators op).owner :=
      hseat.trans (seatOf_eq_some.2 ⟨rfl, howner⟩)
    refine ⟨p₁.ownerHistory, if covers then own else 0, hprep, ?_, ?_⟩
    · rw [hver]
      refine move_ok hbooks₁ hseat ?_ hmove
      -- A counted operator was not reset, so it is counted for another owner.
      rcases hprep with hsame | hrst
      · rw [hsame] at hsome howner
        have hne := hchg _ hsome
        rw [hsame]
        split_ifs
        · exact hne
        · exact howner
      · rw [hrst.empty op] at hsome
        cases hsome
    · intro hne
      cases covers with
      | false => exact absurd rfl hne
      | true =>
        refine ⟨rfl, ?_, coversWindow_ok hcovers⟩
        rw [hsome]
        exact Option.some_ne_none _

end

end Capacity

end Interfold.Bonding
