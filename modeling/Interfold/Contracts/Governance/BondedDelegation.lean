import Interfold.Contracts.Governance.BondedVotes
import Mathlib.Algebra.BigOperators.Fin

/-!
# Bonded delegation over time

At every recorded time the delegates and the slots agree, so the bonded weight of every owner is
counted at one account. A call writes at the present time, and only from there on.
-/

namespace Interfold.BondedVotes

open Transaction Checkpoints Function Representation Finset Assignment

/-- The account an address in storage stands for. -/
def toAccount (a : Address) : Option Address := if a = 0 then none else some a

@[simp]
lemma toAccount_zero : toAccount 0 = none := rfl

variable {a : Address}

lemma toAccount_of_ne (h : a ≠ 0) : toAccount a = some a := if_neg h

@[simp]
lemma toAccount_eq_some : toAccount a = some b ↔ a = b ∧ b ≠ 0 := by
  unfold toAccount
  split_ifs <;> grind

lemma toAccount_injective : Injective toAccount := by
  intro a b h
  unfold toAccount at h
  split_ifs at h <;> grind

@[simp]
lemma toAccount_eq_none : toAccount a = none ↔ a = 0 := by
  unfold toAccount
  split_ifs <;> grind

/-- Who represented whom at a time. -/
def assignmentAt (s : State) (key : ℕ) : Assignment Address (Fin maxBondedOwners) where
  delegate owner := toAccount ((s.bondedDelegates owner).upperLookup key)
  slot delegatee i := toAccount ((s.bondedOwners delegatee i).upperLookup key)

/-- Nothing is recorded after `now`. -/
structure Ordered (now : ℕ) (s : State) : Prop where
  delegates : ∀ o, (s.bondedDelegates o).Ordered now
  owners : ∀ d i, (s.bondedOwners d i).Ordered now

section

variable {now key : ℕ} {s : State} {o d : Address} {i : Fin maxBondedOwners}

lemma Ordered.delegate_latest (h : Ordered now s) (hle : now ≤ key) :
    (assignmentAt s key).delegate o = toAccount (bondedDelegate o s) :=
  congrArg toAccount ((h.delegates o).lookup_latest hle)

lemma Ordered.slot_latest (h : Ordered now s) (hle : now ≤ key) :
    (assignmentAt s key).slot d i = toAccount (s.bondedOwners d i).latest :=
  congrArg toAccount ((h.owners d i).lookup_latest hle)

lemma Ordered.assignment_later (h : Ordered now s) (hle : now ≤ key) :
    assignmentAt s key = assignmentAt s now := by
  ext o d
  · rw [h.delegate_latest hle, h.delegate_latest le_rfl]
  · rw [h.slot_latest hle, h.slot_latest le_rfl]

/-- The effect of a pair of checkpoints: from now on one delegate and one slot are different. -/
lemma Ordered.record (h : Ordered now s) {slots delegates : Trace Address}
    (hslot : pushCheckpoint (s.bondedOwners dlg i) now seated = .ok slots)
    (hdel : pushCheckpoint (s.bondedDelegates owner) now named = .ok delegates) :
    Ordered now ((s.setSlot dlg i slots).setDelegates owner delegates) ∧
      ∀ key, assignmentAt ((s.setSlot dlg i slots).setDelegates owner delegates) key =
        if now ≤ key then
          ⟨update (assignmentAt s now).delegate owner (toAccount named),
            Ledger.update₂ (assignmentAt s now).slot dlg i (toAccount seated)⟩
        else assignmentAt s key := by
  obtain ⟨hslots, hslotAt⟩ := push_ok (h.owners dlg i) hslot
  obtain ⟨hdels, hdelegat⟩ := push_ok (h.delegates owner) hdel
  refine ⟨⟨?_, ?_⟩, ?_⟩
  · intro o
    by_cases ho : o = owner
    · subst ho
      simpa [State.setDelegates] using hdels
    · simpa [State.setDelegates, State.setSlot, ho] using h.delegates o
  · intro d j
    simp only [State.setDelegates, State.setSlot, Ledger.update₂_apply]
    split_ifs
    · exact hslots
    · exact h.owners d j
  · intro key
    split_ifs with hle
    · rw [← h.assignment_later hle]
      refine Assignment.ext (funext fun o => ?_) (funext fun d => funext fun j => ?_)
      · by_cases ho : o = owner
        · subst ho
          simp [assignmentAt, State.setDelegates, hdelegat, hle]
        · simp [assignmentAt, State.setDelegates, State.setSlot, ho]
      · simp only [assignmentAt, State.setDelegates, State.setSlot, Ledger.update₂_apply]
        split_ifs
        · simp [hslotAt, hle]
        · rfl
    · refine Assignment.ext (funext fun o => ?_) (funext fun d => funext fun j => ?_)
      · by_cases ho : o = owner
        · subst ho
          simp [assignmentAt, State.setDelegates, hdelegat, hle]
        · simp [assignmentAt, State.setDelegates, State.setSlot, ho]
      · simp only [assignmentAt, State.setDelegates, State.setSlot, Ledger.update₂_apply]
        split_ifs with hsame
        · obtain ⟨rfl, rfl⟩ := hsame
          simp [hslotAt, hle]
        · rfl

end

/-! ## Agreement at every time -/

/-- The delegates and the slots agree at every time, and excluded accounts take no part. An owner
with a delegate has no request pending. -/
structure Sound (now : ℕ) (s : State) : Prop extends Ordered now s where
  consistent : ∀ key, (assignmentAt s key).Consistent
  excluded : ∀ key o, s.isExcluded o = true → (assignmentAt s key).delegate o = none ∧
    ∀ i, (assignmentAt s key).slot o i = none
  pending : ∀ o, bondedDelegate o s ≠ 0 → s.pendingBondedDelegate o = 0
  requested : ∀ o, s.pendingBondedDelegate o ≠ 0 →
    o ≠ 0 ∧ s.isExcluded o = false ∧ s.isExcluded (s.pendingBondedDelegate o) = false

section

variable {now : ℕ} {s s' : State} {owner dlg sender : Address}

lemma Sound.mono (h : Sound now s) (hle : now ≤ later) : Sound later s :=
  { h with
    delegates := fun o => (h.delegates o).mono hle
    owners := fun d i => (h.owners d i).mono hle }

variable {slot : Fin maxBondedOwners} {requests : Address → Address}

lemma latest_of_findSlot (h : findSlot dlg owner s = some slot) :
    (s.bondedOwners dlg slot).latest = owner := by
  have hfound := List.find?_some h
  simpa using hfound

lemma findSlot_isSome (h : (s.bondedOwners dlg slot).latest = owner) :
    ∃ slot', findSlot dlg owner s = some slot' := by
  rw [← Option.isSome_iff_exists, findSlot, List.find?_isSome]
  exact ⟨slot, List.mem_finRange slot, by simpa using h⟩

/-- One delegate and one slot are recorded, and the requests change. -/
lemma Sound.recorded {slots delegates : Trace Address} (h : Sound now s)
    (hslot : pushCheckpoint (s.bondedOwners dlg i) now seated = .ok slots)
    (hdel : pushCheckpoint (s.bondedDelegates owner) now named = .ok delegates)
    (hcons : Consistent ⟨update (assignmentAt s now).delegate owner (toAccount named),
        Ledger.update₂ (assignmentAt s now).slot dlg i (toAccount seated)⟩)
    (hnamed : s.isExcluded owner = true → named = 0)
    (hseated : s.isExcluded dlg = true → seated = 0)
    (hpend : ∀ o, (if o = owner then named else bondedDelegate o s) ≠ 0 → requests o = 0)
    (hreqd : ∀ o, requests o ≠ 0 →
      o ≠ 0 ∧ s.isExcluded o = false ∧ s.isExcluded (requests o) = false) :
    Sound now { (s.setSlot dlg i slots).setDelegates owner delegates with
        pendingBondedDelegate := requests } ∧
      ∀ key < now, assignmentAt { (s.setSlot dlg i slots).setDelegates owner delegates with
        pendingBondedDelegate := requests } key = assignmentAt s key := by
  obtain ⟨hord, hat⟩ := h.record hslot hdel
  refine ⟨⟨⟨hord.delegates, hord.owners⟩, ?_, ?_, ?_, hreqd⟩, ?_⟩
  · intro key
    change (assignmentAt ((s.setSlot dlg i slots).setDelegates owner delegates) key).Consistent
    rw [hat]
    split_ifs
    · exact hcons
    · exact h.consistent key
  · intro key o ho
    change (assignmentAt ((s.setSlot dlg i slots).setDelegates owner delegates)
      key).delegate o = none ∧ ∀ j, (assignmentAt ((s.setSlot dlg i slots).setDelegates owner
        delegates) key).slot o j = none
    rw [hat]
    split_ifs
    · obtain ⟨hdels, hslots⟩ := h.excluded now o ho
      constructor
      · by_cases heq : o = owner
        · subst heq
          simp [hnamed ho]
        · simpa [heq] using hdels
      · intro j
        simp only [Ledger.update₂_apply]
        split_ifs with hsame
        · rw [hseated (hsame.1 ▸ ho), toAccount_zero]
        · exact hslots j
    · exact h.excluded key o ho
  · intro o ho
    refine hpend o ?_
    -- The newest record is what the assignment says from now on.
    have hlat := congrArg (fun A => delegate A o) (hat now)
    simp only [le_rfl, if_true] at hlat
    rw [hord.delegate_latest le_rfl] at hlat
    by_cases heq : o = owner
    · subst heq
      rw [update_self] at hlat
      rw [if_pos rfl, ← toAccount_injective hlat]
      exact ho
    · rw [update_of_ne heq, h.delegate_latest le_rfl] at hlat
      rw [if_neg heq, ← toAccount_injective hlat]
      exact ho
  · intro key hkey
    change assignmentAt ((s.setSlot dlg i slots).setDelegates owner delegates) key = _
    rw [hat, if_neg (Nat.not_le.2 hkey)]

/-- What a call keeps. -/
def Keeps (now : ℕ) (s s' : State) : Prop :=
  Sound now s' ∧ s'.isExcluded = s.isExcluded ∧
    ∀ key < now, assignmentAt s' key = assignmentAt s key

lemma unlink_frame (hrun : unlink now owner dlg s = .ok s') :
    s'.pendingBondedDelegate = s.pendingBondedDelegate := by
  simp only [BondedVotes.unlink, run_ok] at hrun
  obtain ⟨s₁, hslot, delegates, -, rfl⟩ := hrun
  split at hslot
  · simp only [run_ok] at hslot
    obtain ⟨slots, -, rfl⟩ := hslot
    rfl
  · obtain rfl := pure_ok.1 hslot
    rfl

/-- Removing the delegate of an owner: both records are closed at the present time. The owner may
request another delegate. -/
lemma Sound.unlink (h : Sound now s) (hnow : now < 2 ^ 48) (hdel : dlg ≠ 0)
    (hcur : bondedDelegate owner s = dlg)
    (hother : ∀ o ≠ owner, requests o = s.pendingBondedDelegate o)
    (howner : requests owner ≠ 0 → s.isExcluded owner = false ∧
      s.isExcluded (requests owner) = false) (hrun : unlink now owner dlg s = .ok s') :
    Keeps now s { s' with pendingBondedDelegate := requests } := by
  have hnamed : (assignmentAt s now).delegate owner = some dlg := by
    rw [h.delegate_latest le_rfl, hcur, toAccount_of_ne hdel]
  obtain ⟨i, hseat⟩ := (h.consistent now).seated owner dlg hnamed
  rw [h.slot_latest le_rfl, toAccount_eq_some] at hseat
  obtain ⟨slot, hslot⟩ := findSlot_isSome hseat.1
  have hseated : (assignmentAt s now).slot dlg slot = some owner := by
    rw [h.slot_latest le_rfl, latest_of_findSlot hslot, toAccount_of_ne hseat.2]
  rw [BondedVotes.unlink, hslot, toUint48_of_lt hnow] at hrun
  simp only [run_ok] at hrun
  obtain ⟨_, ⟨slots, hslots, rfl⟩, delegates, hdels, rfl⟩ := hrun
  have hpend : ∀ o, (if o = owner then 0 else bondedDelegate o s) ≠ 0 → requests o = 0 := by
    intro o ho
    split_ifs at ho with heq
    · exact absurd rfl ho
    · rw [hother o heq]
      exact h.pending o ho
  have hreqd : ∀ o, requests o ≠ 0 →
      o ≠ 0 ∧ s.isExcluded o = false ∧ s.isExcluded (requests o) = false := by
    intro o ho
    by_cases heq : o = owner
    · subst heq
      exact ⟨hseat.2, howner ho⟩
    · rw [hother o heq] at ho ⊢
      exact h.requested o ho
  obtain ⟨hsound, hpast⟩ := h.recorded hslots hdels ((h.consistent now).unlink hseated)
    (fun _ => rfl) (fun _ => rfl) hpend hreqd
  exact ⟨hsound, rfl, hpast⟩

section

variable (h : Sound now s) (hnow : now < 2 ^ 48) (hsender : sender ≠ 0)
include h hnow hsender

lemma Sound.dropBonded (hrun : dropBonded sender now owner s = .ok s') : Keeps now s s' := by
  simp only [BondedVotes.dropBonded, run_ok] at hrun
  obtain ⟨-, hcur, hrun⟩ := hrun
  have hframe : s'.pendingBondedDelegate = s.pendingBondedDelegate := unlink_frame hrun
  have hkeeps := h.unlink hnow hsender hcur (fun _ _ => rfl)
    (fun hpend => (h.requested owner hpend).2) hrun
  rw [← hframe] at hkeeps
  exact hkeeps

lemma Sound.delegateBonded (hrun : delegateBonded sender now dlg s = .ok s') : Keeps now s s' := by
  simp only [BondedVotes.delegateBonded, run_ok] at hrun
  obtain ⟨-, hsend, -, hdeleg, hrun⟩ := hrun
  generalize (if dlg = sender then 0 else dlg) = target at hdeleg hrun
  split_ifs at hrun with hsame hcur
  · obtain rfl := pure_ok.1 hrun
    exact ⟨h, rfl, fun _ _ => rfl⟩
  · simp only [run_ok] at hrun
    obtain ⟨s₁, hunlink, rfl⟩ := hrun
    rw [unlink_frame hunlink]
    refine h.unlink hnow hcur rfl (fun o ho => update_of_ne ho _ _) ?_ hunlink
    rw [update_self]
    exact fun _ => ⟨hsend, hdeleg⟩
  · -- Without a delegate only the request changes.
    simp only [run_ok] at hrun
    obtain ⟨_, rfl, rfl⟩ := hrun
    refine ⟨⟨⟨h.delegates, h.owners⟩, h.consistent, h.excluded, ?_, ?_⟩, rfl, fun _ _ => rfl⟩
    · intro o ho
      have hne : o ≠ sender := by
        rintro rfl
        exact hcur ho
      simp only [update_of_ne hne]
      exact h.pending o ho
    · intro o ho
      by_cases heq : o = sender
      · subst heq
        simp only [update_self]
        exact ⟨hsender, hsend, hdeleg⟩
      · simp only [update_of_ne heq] at ho ⊢
        exact h.requested o ho

lemma Sound.acceptBonded (hrun : acceptBonded sender now owner s = .ok s') : Keeps now s s' := by
  simp only [BondedVotes.acceptBonded, run_ok] at hrun
  obtain ⟨-, hrequest, hrun⟩ := hrun
  subst hrequest
  obtain ⟨howner, hownerIn, hsend⟩ := h.requested owner hsender
  cases hslot : findSlot (s.pendingBondedDelegate owner) 0 s with
  | none =>
    simp only [hslot, revertWith_ok] at hrun
  | some slot =>
    simp only [hslot, run_ok, toUint48_of_lt hnow] at hrun
    obtain ⟨slots, hslots, delegates, hdels, rfl⟩ := hrun
    have hfree : (assignmentAt s now).slot (s.pendingBondedDelegate owner) slot = none := by
      rw [h.slot_latest le_rfl, latest_of_findSlot hslot, toAccount_zero]
    have hnone : (assignmentAt s now).delegate owner = none := by
      rw [h.delegate_latest le_rfl, toAccount_eq_none]
      by_contra hcur
      exact hsender (h.pending owner hcur)
    have hlink := (h.consistent now).link hnone hfree
    rw [link, ← toAccount_of_ne howner, ← toAccount_of_ne hsender] at hlink
    have hpend : ∀ o, (if o = owner then s.pendingBondedDelegate owner
        else bondedDelegate o s) ≠ 0 → update s.pendingBondedDelegate owner 0 o = 0 := by
      intro o ho
      by_cases heq : o = owner
      · rw [heq, update_self]
      · rw [if_neg heq] at ho
        rw [update_of_ne heq]
        exact h.pending o ho
    have hreqd : ∀ o, update s.pendingBondedDelegate owner 0 o ≠ 0 → o ≠ 0 ∧
        s.isExcluded o = false ∧
          s.isExcluded (update s.pendingBondedDelegate owner 0 o) = false := by
      intro o ho
      by_cases heq : o = owner
      · rw [heq, update_self] at ho
        exact absurd rfl ho
      · rw [update_of_ne heq] at ho ⊢
        exact h.requested o ho
    obtain ⟨hsound, hpast⟩ := h.recorded hslots hdels hlink
      (fun hex => by rw [hownerIn] at hex; cases hex)
      (fun hex => by rw [hsend] at hex; cases hex) hpend hreqd
    exact ⟨hsound, rfl, hpast⟩

lemma Sound.exec (hexec : exec sender now s call = .ok s') : Keeps now s s' := by
  cases call with
  | delegateBonded dlg => exact h.delegateBonded hnow hsender hexec
  | acceptBonded owner => exact h.acceptBonded hnow hsender hexec
  | dropBonded owner => exact h.dropBonded hnow hsender hexec

end

lemma Run.keeps (h : Run start s now s') (hnow : now < 2 ^ 48) (hstart : Sound start s) :
    Sound now s' ∧ start ≤ now ∧ s'.isExcluded = s.isExcluded ∧
      ∀ key < start, assignmentAt s' key = assignmentAt s key := by
  induction h with
  | refl => exact ⟨hstart, le_rfl, rfl, fun _ _ => rfl⟩
  | wait _ hle ih =>
    obtain ⟨hsound, hstar, hsame, hpast⟩ := ih (by omega) hstart
    exact ⟨hsound.mono hle, hstar.trans hle, hsame, hpast⟩
  | call _ hsender hexec ih =>
    obtain ⟨hsound, hstar, hsame, hpast⟩ := ih hnow hstart
    obtain ⟨hsound', hsame', hpast'⟩ := hsound.exec hnow hsender hexec
    refine ⟨hsound', hstar, hsame'.trans hsame, ?_⟩
    intro key hkey
    rw [hpast' key (by omega), hpast key hkey]

lemma sound_deploy (h : deploy accounts = .ok s) : Sound now s := by
  simp only [deploy, run_ok] at h
  obtain ⟨excluded, -, rfl⟩ := h
  refine ⟨⟨fun _ => .nil now, fun _ _ => .nil now⟩, ?_, ?_, ?_, ?_⟩
  · exact fun _ => consistent_empty
  · exact fun _ _ _ => ⟨rfl, fun _ => rfl⟩
  · exact fun _ _ => rfl
  · exact fun _ h => absurd rfl h

lemma Reachable.sound (h : Reachable now s) (hnow : now < 2 ^ 48) : Sound now s := by
  obtain ⟨_, start, s₀, hdepl, hrun⟩ := h
  exact (hrun.keeps hnow (sound_deploy hdepl)).1

end

/-! ## Votes -/

section

variable {views : Views} {now tp key votes total : ℕ} {acct : Address} {s s' : State}

/-- The bonded weight of an account, or nothing where the views revert. -/
def weightAt (views : Views) (timepoint : ℕ) (account : Address) : ℕ :=
  match bondedWeight views account timepoint with
  | .ok weight => weight
  | .error _ => 0

lemma weightAt_of_ok {weight : ℕ} (h : bondedWeight views acct tp = .ok weight) :
    weightAt views tp acct = weight := by
  rw [weightAt, h]

variable {slots : List (Fin maxBondedOwners)} {owner : Address} {weight : Address → ℕ}

lemma settled_past (hnow : now < 2 ^ 48) (ht : tp < now) : settled now tp = .ok tp := by
  have hkey : toUint48 tp = tp := toUint48_of_lt (ht.trans hnow)
  simp only [settled, run_ok, toUint48_of_lt hnow, hkey]
  exact ⟨(), ht, trivial⟩

lemma addSlotVotes_ok (h : addSlotVotes views acct tp key s slots votes = .ok total) :
    total = votes + (slots.map fun i =>
      ((assignmentAt s key).slot acct i).elim 0 (weightAt views tp)).sum := by
  induction slots generalizing votes with
  | nil =>
    simp only [addSlotVotes, pure_ok] at h
    simp [h]
  | cons i slots ih =>
    simp only [addSlotVotes, bind_ok] at h
    obtain ⟨next, hadd, hrest⟩ := h
    rw [List.map_cons, List.sum_cons, ih hrest, ← Nat.add_assoc]
    congr 1
    split_ifs at hadd with hseated
    · simp only [run_ok] at hadd
      obtain ⟨weight, hwt, -, rfl⟩ := hadd
      simp [assignmentAt, toAccount_of_ne hseated, weightAt_of_ok hwt]
    · rw [not_not] at hseated
      simp [assignmentAt, hseated, pure_ok.1 hadd]

/-- The votes of an account at a past time: those of the votes source and the bonded weight of
everybody it represents. -/
lemma pastVotes_ok (hnow : now < 2 ^ 48) (h : getPastVotes views now acct tp s = .ok total) :
    tp < now ∧ total = if s.isExcluded acct then 0 else
      (views.pastVotes acct tp).getD 0 +
        ∑ o, (assignmentAt s tp).counted acct o * weightAt views tp o := by
  simp only [getPastVotes, settled, run_ok, toUint48_of_lt hnow] at h
  obtain ⟨key, ⟨-, hlt, rfl⟩, h⟩ := h
  refine ⟨hlt, ?_⟩
  rw [toUint48_of_lt (hlt.trans hnow)] at h
  by_cases hexcl : s.isExcluded acct = true
  · rw [if_pos hexcl] at h ⊢
    exact (pure_ok.1 h).symm
  · rw [if_neg hexcl] at h ⊢
    simp only [bind_ok] at h
    obtain ⟨source, hsrc, own, hown, hslots⟩ := h
    rw [addSlotVotes_ok hslots, sum_counted_mul, Fin.sum_univ_def, ← Nat.add_assoc]
    congr 1
    cases hvotes : views.pastVotes acct tp with
    | none =>
      rw [hvotes] at hsrc
      cases hsrc
    | some n =>
      rw [hvotes, external, pure_ok] at hsrc
      subst hsrc
      split_ifs at hown with hself
      · simp only [run_ok] at hown
        obtain ⟨weight, hwt, -, rfl⟩ := hown
        simp [assignmentAt, hself, weightAt_of_ok hwt]
      · simp [assignmentAt, hself, pure_ok.1 hown]

lemma addSlotVotes_congr (hslots : ∀ i, (s'.bondedOwners acct i).upperLookup key =
    (s.bondedOwners acct i).upperLookup key) (slots : List (Fin maxBondedOwners)) (votes : ℕ) :
    addSlotVotes views acct tp key s' slots votes =
      addSlotVotes views acct tp key s slots votes := by
  induction slots generalizing votes with
  | nil => rfl
  | cons i slots ih => simp only [addSlotVotes, hslots, ih]

/-- How often `getPastVotes` of an account counts the bonded weight of an owner. -/
def countedAt (s : State) (timepoint : ℕ) (account owner : Address) : ℕ :=
  if s.isExcluded account then 0 else (assignmentAt s timepoint).counted account owner

/-- An excluded account represents nobody else. -/
lemma Sound.representative_in (h : Sound now s) (tp : ℕ) (howner : s.isExcluded owner = false) :
    s.isExcluded (((assignmentAt s tp).delegate owner).getD owner) = false := by
  cases hdel : (assignmentAt s tp).delegate owner with
  | none => exact howner
  | some d =>
    obtain ⟨i, hseat⟩ := (h.consistent tp).seated owner d hdel
    rw [Option.getD_some, ← Bool.not_eq_true]
    intro hexcl
    rw [(h.excluded tp d hexcl).2 i] at hseat
    cases hseat

/-- The weight of an owner that takes part is counted once, at its representative. -/
lemma Sound.countedAt_eq (h : Sound now s) (tp : ℕ) (howner : s.isExcluded owner = false)
    (acct : Address) : countedAt s tp acct owner =
      if acct = ((assignmentAt s tp).delegate owner).getD owner then 1 else 0 := by
  have hrepr := h.representative_in tp howner
  rw [countedAt, (h.consistent tp).counted_eq]
  by_cases hsame : acct = ((assignmentAt s tp).delegate owner).getD owner
  · rw [hsame, if_pos rfl, hrepr]
    rfl
  · rw [if_neg hsame, ite_self]

lemma Sound.countedAt_excluded (h : Sound now s) (tp : ℕ) (howner : s.isExcluded owner = true)
    (acct : Address) : countedAt s tp acct owner = 0 ∧ countedAt s tp owner acct = 0 := by
  constructor
  · rw [countedAt, (h.consistent tp).counted_eq, (h.excluded tp owner howner).1]
    split_ifs with hexcl hsame
    · rfl
    · rw [Option.getD_none] at hsame
      rw [hsame] at hexcl
      exact absurd howner hexcl
    · rfl
  · rw [countedAt, if_pos howner]

/-- No weight is counted twice. -/
lemma Sound.sum_countedAt_le (h : Sound now s) (tp : ℕ) (owner : Address) :
    ∑ acct, countedAt s tp acct owner ≤ 1 := by
  cases howner : s.isExcluded owner with
  | false => simp [h.countedAt_eq tp howner]
  | true => simp [fun acct => (h.countedAt_excluded tp howner acct).1]

/-- All votes together are at most those of the votes source and all bonded weight. -/
lemma Sound.sum_pastVotes_le (h : Sound now s) (hnow : now < 2 ^ 48) {votes : Address → ℕ}
    (hvotes : ∀ acct, getPastVotes views now acct tp s = .ok (votes acct)) :
    ∑ acct, votes acct ≤ ∑ acct, (views.pastVotes acct tp).getD 0 +
      ∑ owner, weightAt views tp owner := by
  have hle : ∀ acct, votes acct ≤ (views.pastVotes acct tp).getD 0 +
      ∑ owner, countedAt s tp acct owner * weightAt views tp owner := by
    intro acct
    rw [(pastVotes_ok hnow (hvotes acct)).2]
    unfold countedAt
    split_ifs
    · exact Nat.zero_le _
    · exact le_rfl
  have hweig : ∑ acct, ∑ owner, countedAt s tp acct owner *
      weightAt views tp owner ≤ ∑ owner, weightAt views tp owner := by
    rw [sum_comm]
    refine sum_le_sum fun owner _ => ?_
    rw [← sum_mul]
    exact (Nat.mul_le_mul_right _ (h.sum_countedAt_le tp owner)).trans (Nat.one_mul _).le
  calc ∑ acct, votes acct ≤ ∑ acct, ((views.pastVotes acct tp).getD 0 +
          ∑ owner, countedAt s tp acct owner * weightAt views tp owner) :=
        sum_le_sum fun acct _ => hle acct
    _ ≤ _ := by
        rw [sum_add_distrib]
        exact Nat.add_le_add_left hweig _

lemma addSlotVotes_returns (hwt : ∀ o, bondedWeight views o tp = .ok (weight o))
    (hfits : votes + (slots.map fun i =>
      ((assignmentAt s key).slot acct i).elim 0 weight).sum < wordSize) :
    ∃ total, addSlotVotes views acct tp key s slots votes = .ok total := by
  induction slots generalizing votes with
  | nil => exact ⟨votes, rfl⟩
  | cons i slots ih =>
    rw [List.map_cons, List.sum_cons, ← Nat.add_assoc] at hfits
    obtain ⟨total, hrest⟩ := ih hfits
    refine ⟨total, ?_⟩
    simp only [addSlotVotes, bind_ok]
    refine ⟨_, ?_, hrest⟩
    split_ifs with hseated
    · have hweigh : ((assignmentAt s key).slot acct i).elim 0 weight =
          weight ((s.bondedOwners acct i).upperLookup key) := by
        simp [assignmentAt, toAccount_of_ne hseated]
      simp only [hwt, ok_bind, hweigh] at hfits ⊢
      exact checkedAdd_ok.2 ⟨by omega, rfl⟩
    · rw [not_not] at hseated
      simp [assignmentAt, hseated, pure_ok]

/-- The votes of an account can be read at every past time, if they fit a word. -/
lemma pastVotes_returns (hnow : now < 2 ^ 48) (ht : tp < now)
    (hsrc : views.pastVotes acct tp = some source)
    (hwt : ∀ o, bondedWeight views o tp = .ok (weight o)) (hfits : s.isExcluded acct = false →
      source + ∑ o, (assignmentAt s tp).counted acct o * weight o < wordSize) :
    ∃ total, getPastVotes views now acct tp s = .ok total := by
  simp only [getPastVotes, settled_past hnow ht, ok_bind]
  cases hexcl : s.isExcluded acct with
  | true => exact ⟨0, rfl⟩
  | false =>
    have hself : (assignmentAt s tp).delegate acct = none ↔
        (s.bondedDelegates acct).upperLookup tp = 0 := by
      simp [assignmentAt]
    have hfits := hfits hexcl
    rw [sum_counted_mul, Fin.sum_univ_def, ← Nat.add_assoc] at hfits
    obtain ⟨total, hrest⟩ := addSlotVotes_returns hwt hfits
    simp only [hself] at hfits hrest
    refine ⟨total, ?_⟩
    simp only [hsrc, external, Bool.false_eq_true, if_false, hwt, ok_bind, run_ok]
    refine ⟨source, rfl, _, ?_, hrest⟩
    by_cases hkept : (s.bondedDelegates acct).upperLookup tp = 0
    · simp only [if_pos hkept] at hfits ⊢
      exact checkedAdd_ok.2 ⟨by omega, rfl⟩
    · simp only [if_neg hkept]
      rfl

end

section

variable {now tp : ℕ} {s s' : State}

variable {o d : Address} {later : ℕ}

lemma Sound.delegate_iff (h : Sound now s) (tp : ℕ) (ho : o ≠ 0) (hd : d ≠ 0) :
    (s.bondedDelegates o).upperLookup tp = d ↔ ∃! i, (s.bondedOwners d i).upperLookup tp = o := by
  have hiff := (h.consistent tp).delegate_iff (o := o) (d := d)
  simp only [assignmentAt, toAccount_eq_some, ne_eq, hd, ho, not_false_eq_true, and_true] at hiff
  exact hiff

lemma Sound.not_seated_elsewhere (h : Sound now s) (tp : ℕ) (ho : o ≠ 0)
    (hd : (s.bondedDelegates o).upperLookup tp = d) (hne : d' ≠ d)
    (i : Fin maxBondedOwners) : (s.bondedOwners d' i).upperLookup tp ≠ o := by
  intro hi
  have hnamed := (h.consistent tp).named d' i o (toAccount_eq_some.2 ⟨hi, ho⟩)
  exact hne ((toAccount_eq_some.1 hnamed).1.symm.trans hd)

/-- The owners an account represents at a time. -/
def representedAt (s : State) (timepoint : ℕ) (d : Address) : Finset Address :=
  univ.filter fun o => o ≠ 0 ∧ ∃ i, (s.bondedOwners d i).upperLookup timepoint = o

lemma card_representedAt_le (s : State) (tp : ℕ) (d : Address) :
    (representedAt s tp d).card ≤ maxBondedOwners := by
  have hsub : representedAt s tp d ⊆ univ.image fun i => (s.bondedOwners d i).upperLookup tp := by
    intro o ho
    obtain ⟨-, -, i, hi⟩ := mem_filter.1 ho
    exact mem_image.2 ⟨i, mem_univ i, hi⟩
  calc (representedAt s tp d).card
      ≤ (univ.image fun i => (s.bondedOwners d i).upperLookup tp).card :=
        card_le_card hsub
    _ ≤ (univ : Finset (Fin maxBondedOwners)).card := card_image_le
    _ = maxBondedOwners := card_fin _

/-- A later run leaves the records of a past time as they were. -/
lemma Run.past (hrun : Run now s later s') (hlater : later < 2 ^ 48) (h : Sound now s)
    (ht : tp < now) : (∀ o, (s'.bondedDelegates o).upperLookup tp =
        (s.bondedDelegates o).upperLookup tp) ∧
      ∀ d i, (s'.bondedOwners d i).upperLookup tp = (s.bondedOwners d i).upperLookup tp := by
  obtain ⟨-, -, -, hpast⟩ := hrun.keeps hlater h
  have hsame := hpast tp ht
  constructor
  · intro o
    exact toAccount_injective (congrArg (fun A => delegate A o) hsame)
  · intro d i
    exact toAccount_injective (congrArg (fun A => slot A d i) hsame)

lemma Run.pastVotes_eq (hrun : Run now s later s') (hlater : later < 2 ^ 48)
    (h : Sound now s) (ht : tp < now) (views : Views) (acct : Address) :
    getPastVotes views later acct tp s' = getPastVotes views now acct tp s := by
  obtain ⟨hdels, howns⟩ := hrun.past hlater h ht
  obtain ⟨-, hle, hexcl, -⟩ := hrun.keeps hlater h
  have hslots : ∀ votes, addSlotVotes views acct tp tp s'
      (List.finRange maxBondedOwners) votes = addSlotVotes views acct tp tp s
      (List.finRange maxBondedOwners) votes :=
    addSlotVotes_congr (howns acct) _
  simp only [getPastVotes, settled_past hlater (ht.trans_le hle),
    settled_past (hle.trans_lt hlater) ht, ok_bind, hexcl, hdels, hslots]

/-- At every time that is over, the delegate of an owner is the account with the owner in one of
its slots. The bonded weight of an owner that is not excluded is counted once, excluded accounts
neither give nor receive weight, no account represents more owners than it has slots, and later
calls change no answer. -/
theorem bonded_delegation_partition {now t : ℕ} {s : State} (hnow : now < 2 ^ 48)
    (h : Reachable now s) (ht : t < now) : (∀ o d, o ≠ 0 → d ≠ 0 →
      ((s.bondedDelegates o).upperLookup t = d ↔ ∃! i, (s.bondedOwners d i).upperLookup t = o) ∧
      ((s.bondedDelegates o).upperLookup t = d →
        ∀ d' ≠ d, ∀ i, (s.bondedOwners d' i).upperLookup t ≠ o)) ∧
    (∀ views account total, getPastVotes views now account t s = .ok total →
      total = if s.isExcluded account then 0 else (views.pastVotes account t).getD 0 +
        ∑ o, countedAt s t account o * weightAt views t o) ∧
    (∀ o, s.isExcluded o = false → ∃ a, s.isExcluded a = false ∧
      ∀ b, countedAt s t b o = if b = a then 1 else 0) ∧
    (∀ o, s.isExcluded o = true → ∀ b, countedAt s t b o = 0 ∧ countedAt s t o b = 0) ∧
    (∀ d, (representedAt s t d).card ≤ maxBondedOwners) ∧
    ∀ later s', later < 2 ^ 48 → Run now s later s' →
      (∀ o, (s'.bondedDelegates o).upperLookup t = (s.bondedDelegates o).upperLookup t) ∧
      (∀ d i, (s'.bondedOwners d i).upperLookup t = (s.bondedOwners d i).upperLookup t) ∧
      ∀ views account,
        getPastVotes views later account t s' = getPastVotes views now account t s := by
  have hsound := h.sound hnow
  refine ⟨?_, ?_, ?_, ?_, card_representedAt_le s t, ?_⟩
  · intro o d ho hd
    refine ⟨hsound.delegate_iff t ho hd, ?_⟩
    intro hdelegate d' hne i
    exact hsound.not_seated_elsewhere t ho hdelegate hne i
  · intro views account total hvotes
    rw [(pastVotes_ok hnow hvotes).2]
    split_ifs with hexcluded
    · rfl
    · simp only [countedAt, if_neg hexcluded]
  · intro o ho
    exact ⟨_, hsound.representative_in t ho, hsound.countedAt_eq t ho⟩
  · intro o ho b
    exact hsound.countedAt_excluded t ho b
  · intro later s' hlater hrun
    obtain ⟨hdelegates, howners⟩ := hrun.past hlater hsound ht
    exact ⟨hdelegates, howners, hrun.pastVotes_eq hlater hsound ht⟩

end

/-- Owner `1` asked for delegate `2`; account `9` is excluded. -/
def sampleRequest : State :=
  ⟨update (fun _ => false) 9 true, update (fun _ => 0) 1 2, fun _ => [], fun _ _ => []⟩

/-- The request and its acceptance, at one time. -/
lemma sample_reachable : ∃ s, Reachable 11 s ∧ (s.bondedDelegates 1).upperLookup 10 = 2 := by
  have hdepl : deploy [9] = .ok { sampleRequest with pendingBondedDelegate := fun _ => 0 } := rfl
  have hrequest : exec 1 10 { sampleRequest with pendingBondedDelegate := fun _ => 0 }
      (.delegateBonded 2) = .ok sampleRequest := rfl
  obtain ⟨s, hacc, hdel⟩ : ∃ s, exec 2 10 sampleRequest (.acceptBonded 1) = .ok s ∧
      (s.bondedDelegates 1).upperLookup 10 = 2 := ⟨_, rfl, rfl⟩
  have hrun := ((Run.refl 10 _).call (by decide) hrequest).call (by decide) hacc
  exact ⟨s, ⟨[9], 10, _, hdepl, hrun.wait (Nat.le_succ 10)⟩, hdel⟩

theorem bonded_delegation_partition_sample : ∃ s, Reachable 11 s ∧
    (s.bondedDelegates 1).upperLookup 10 = 2 ∧ ∃! i, (s.bondedOwners 2 i).upperLookup 10 = 1 := by
  obtain ⟨s, hreach, hdelegate⟩ := sample_reachable
  obtain ⟨hpartition, -⟩ := bonded_delegation_partition (by decide) hreach (Nat.lt_succ_self 10)
  exact ⟨s, hreach, hdelegate, (hpartition 1 2 (by decide) (by decide)).1.1 hdelegate⟩

end Interfold.BondedVotes
