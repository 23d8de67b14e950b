import Interfold.Contracts.Bonding.Effects
import Interfold.Contracts.Identity.Registry
import Mathlib.Data.Set.Card

/-!
# The timeline of a registry

What the checkpoints of the registry and of the identity registries say about one timepoint is a
`View`. Eligibility and owner capacity are functions of the views, and the views of the code answer
its own queries.
-/

namespace Interfold.Bonding

open Transaction Checkpoints Eligibility Identity

/-- The identity registries by address. -/
abbrev Identities := Address → Option IdentityRegistry.State

/-- Everything that is recorded about one timepoint. -/
@[ext]
structure View where
  configuration : ℕ
  active : Address → ℕ
  owner : Address → Address
  admission : AdmissionPolicy
  since : Address → ℕ
  identity : IdentityPolicy
  /-- The expiry of an owner's credential at a registry. -/
  expiry : Address → Address → ℕ
  revocations : Address → ℕ
  countedUntil : ℕ
  countedRevocations : ℕ
  ownerCount : ℕ

abbrev Timeline := ℕ → View

/-! ## Eligibility on a timeline -/

namespace Timeline

section

variable (V : Timeline)

def Verified (operator : Address) (t : ℕ) : Prop :=
  (V t).identity.required = true → (V t).expiry (V t).identity.registry ((V t).owner operator) ≠ 0 ∧
    t ≤ (V t).expiry (V t).identity.registry ((V t).owner operator)

def Recorded (operator : Address) (t : ℕ) : Prop :=
  (V t).configuration ≠ 0 ∧ (V t).active operator = (V t).configuration

/-- The position is old enough at a boundary. -/
def Seasoned (since boundary : ℕ) (enabled : Bool) (duration : ℕ) : Prop :=
  since ≤ boundary ∧ (since = 0 ∨ enabled = false ∨ duration ≤ boundary - since)

/-- A pause admits only those that were admitted right before it. -/
def Admitted (operator : Address) (t : ℕ) : Prop :=
  if (V t).admission.admissionsPaused then
    Seasoned ((V t).since operator) (V t).admission.pauseTimepoint
      (V t).admission.pauseCooldownEnabled (V t).admission.pauseCooldownDuration ∧
    V.Recorded operator (V t).admission.pauseTimepoint ∧
    V.Verified operator (V t).admission.pauseTimepoint
  else Seasoned ((V t).since operator) t (V t).admission.cooldownEnabled
    (V t).admission.cooldownDuration

/-- `Admitted`, for any notion of being verified. -/
def AdmittedBy (verified : ℕ → Prop) (operator : Address) (t : ℕ) : Prop :=
  if (V t).admission.admissionsPaused then
    Seasoned ((V t).since operator) (V t).admission.pauseTimepoint
      (V t).admission.pauseCooldownEnabled (V t).admission.pauseCooldownDuration ∧
    V.Recorded operator (V t).admission.pauseTimepoint ∧ verified (V t).admission.pauseTimepoint
  else Seasoned ((V t).since operator) t (V t).admission.cooldownEnabled
    (V t).admission.cooldownDuration

def Eligible (operator : Address) (t : ℕ) : Prop :=
  V.Recorded operator t ∧ V.Admitted operator t ∧ V.Verified operator t

/-- The count of owners still rests on valid credentials. -/
def Fresh (t : ℕ) : Prop :=
  (V t).identity.required = true → t ≤ (V t).countedUntil ∧
    (V t).revocations (V t).identity.registry = (V t).countedRevocations

/-- The owners of the eligible operators. -/
def owners (t : ℕ) : Set Address :=
  {o | ∃ operator, V.Eligible operator t ∧ (V t).owner operator = o}

/-- The count of owners is not more than there are. -/
def Covered (t : ℕ) : Prop :=
  V.Fresh t → (V t).ownerCount ≤ (V.owners t).ncard

/-- A pause refers to the time before it. -/
def PausedBefore (t : ℕ) : Prop :=
  (V t).admission.admissionsPaused = true → (V t).admission.pauseTimepoint < t

end

section

variable {V V' : Timeline} {t : ℕ}

lemma Eligible.congr (h : ∀ u ≤ t, V' u = V u) (hpause : V.PausedBefore t) (op : Address) :
    V'.Eligible op t ↔ V.Eligible op t := by
  have hadm : V'.Admitted op t ↔ V.Admitted op t := by
    unfold Admitted
    rw [h t (le_refl t)]
    split_ifs with hpaus
    · have hbef := h _ (hpause hpaus).le
      unfold Recorded Verified
      rw [hbef]
    · exact Iff.rfl
  unfold Eligible Recorded Verified
  rw [h t (le_refl t), hadm]

lemma Covered.congr (h : ∀ u ≤ t, V' u = V u) (hpause : V.PausedBefore t) (hcov : V.Covered t) :
    V'.Covered t := by
  have howns : V'.owners t = V.owners t := by
    ext o
    simp [owners, h t (le_refl t), Eligible.congr h hpause]
  intro hfresh
  unfold Fresh at hfresh
  rw [h t (le_refl t)] at hfresh
  rw [h t (le_refl t), howns]
  exact hcov hfresh

end

end Timeline

/-! ## The views of the code -/

/-- What is recorded about every timepoint. -/
def Roster.view (r : Roster) (ids : Identities) : Timeline := fun t =>
  { configuration := r.pool.eligibility.configurationVersions.upperLookup t
    active := fun operator => (r.pool.eligibility.operatorActiveVersions operator).upperLookup t
    owner := fun operator =>
      if (r.pool.ownerHistory.history operator).length = 0 then r.bondOwnerOf operator
      else (r.pool.ownerHistory.history operator).upperLookup t
    admission := r.pool.admission.policies (r.pool.admission.policyVersions.upperLookup t)
    since := fun operator => (r.pool.admission.positionStarts operator).upperLookup t
    identity := r.pool.identity.policies (r.pool.identity.policyVersions.upperLookup t)
    expiry := fun registry o => (ids registry).elim 0 fun σ => (σ.history o).upperLookup t
    revocations := fun registry => (ids registry).elim 0 fun σ => σ.revocationCounts.upperLookup t
    countedUntil := r.pool.ownerHistory.capacityIdentityExpiries.upperLookup t
    countedRevocations := r.pool.ownerHistory.capacityRevocationCounts.upperLookup t
    ownerCount := r.pool.ownerHistory.activeOwnerCounts.upperLookup t }

/-- The identity registries answer the calls of the environment. -/
structure Answers (env : Env) (ids : Identities) : Prop where
  verified : ∀ registry o t, env.isVerifiedAt registry o t =
    (ids registry).bind fun σ => (IdentityRegistry.isVerifiedAt σ o t).toOption
  expiry : ∀ registry o, env.identityExpiry registry o =
    (ids registry).map fun σ => (IdentityRegistry.identityOf σ o).2
  revocations : ∀ registry t, env.revocationCountAt registry t =
    (ids registry).bind fun σ => (IdentityRegistry.revocationCountAt σ t).toOption

section

variable {env : Env} {r : Roster} {ids : Identities} {t : ℕ} {op : Address}

lemma bondOwnerAt_eq (ids : Identities) (op : Address) (ht : t < 2 ^ 48) :
    bondOwnerAt r.bondOwnerOf r.pool op t = .ok ((r.view ids t).owner op) := by
  unfold bondOwnerAt Roster.view
  dsimp only
  split_ifs
  · rfl
  · rw [safeUint48_ok.2 ⟨ht, rfl⟩]
    rfl

lemma Identity.policyAt_eq (ids : Identities) (ht : t < 2 ^ 48) :
    policyAt r.pool t = .ok (r.view ids t).identity := by
  unfold policyAt
  rw [safeUint48_ok.2 ⟨ht, rfl⟩]
  rfl

lemma Admission.policyAt_eq (ids : Identities) (ht : t < 2 ^ 48) :
    Admission.policyAt r.pool t = .ok (r.view ids t).admission := by
  unfold Admission.policyAt
  rw [safeUint48_ok.2 ⟨ht, rfl⟩]
  rfl

lemma Answers.isVerifiedAt_iff (h : Answers env ids) (ht : t < 2 ^ 48) :
    external (env.isVerifiedAt reg o t) = .ok true ↔
      (r.view ids t).expiry reg o ≠ 0 ∧ t ≤ (r.view ids t).expiry reg o := by
  rw [external_ok, h.verified]
  unfold Roster.view
  cases hregy : ids reg with
  | none => simp [hregy]
  | some σ =>
    have hcast : safeUint48 t = .ok t := safeUint48_ok.2 ⟨ht, rfl⟩
    simp [hregy, IdentityRegistry.isVerifiedAt, hcast, ok_bind, pure, Except.pure, Except.toOption]

lemma Identity.allows_iff (h : Answers env ids) (op : Address) (ht : t < 2 ^ 48) :
    allows env r.bondOwnerOf r.pool op t = .ok true ↔ (r.view ids).Verified op t := by
  unfold allows Timeline.Verified
  rw [policyAt_eq ids ht, ok_bind]
  cases hreq : (r.view ids t).identity.required with
  | false => simp [pure, Except.pure]
  | true =>
    rw [bondOwnerAt_eq ids op ht]
    simp [ok_bind, h.isVerifiedAt_iff (r := r) ht]

lemma Admission.allows_iff (ids : Identities) (op : Address) (pol : AdmissionPolicy)
    (ht : t < 2 ^ 48) : Admission.allows r.pool op t pol = .ok true ↔ if pol.admissionsPaused then
        Timeline.Seasoned ((r.view ids t).since op) pol.pauseTimepoint
          pol.pauseCooldownEnabled pol.pauseCooldownDuration
      else Timeline.Seasoned ((r.view ids t).since op) t pol.cooldownEnabled
        pol.cooldownDuration := by
  unfold Admission.allows Timeline.Seasoned
  rw [safeUint48_ok.2 ⟨ht, rfl⟩, ok_bind]
  cases pol.admissionsPaused <;> simp [pure, Except.pure, Roster.view, or_assoc]

/-- The code admits who is old enough, was in and verified when a pause began, and is verified. -/
lemma Eligibility.admissionAllowed_ok (ids : Identities) (op : Address) (ht : t < 2 ^ 48) :
    admissionAllowed env r.bondOwnerOf r.pool op t = .ok true ↔ (r.view ids).AdmittedBy
        (fun u => allows env r.bondOwnerOf r.pool op u = .ok true) op t ∧
      allows env r.bondOwnerOf r.pool op t = .ok true := by
  simp only [admissionAllowed, Admission.policyAt_eq ids ht, ok_bind, bind_ok, Timeline.AdmittedBy]
  have hfinal : ∀ b, (if b = true then allows env r.bondOwnerOf r.pool op t
      else pure false) = .ok true ↔
      b = true ∧ allows env r.bondOwnerOf r.pool op t = .ok true := by
    intro b
    cases b <;> simp [pure, Except.pure]
  simp only [hfinal]
  have hallows := Admission.allows_iff (r := r) ids op (r.view ids t).admission ht
  by_cases hpaus : (r.view ids t).admission.admissionsPaused = true
  · rw [if_pos hpaus] at hallows ⊢
    simp only [hpaus, Bool.and_true]
    constructor
    · rintro ⟨allowed, hrun, _, hin, rfl, hverif⟩
      cases allowed with
      | false => simp [pure, Except.pure] at hin
      | true =>
        simp only [if_true] at hin
        split_ifs at hin with hrec
        · simp [pure, Except.pure] at hin
        · rw [not_or, not_not] at hrec
          exact ⟨⟨hallows.1 hrun, hrec, hin⟩, hverif⟩
    · rintro ⟨⟨hseas, hrec, hthen⟩, hverif⟩
      refine ⟨true, hallows.2 hseas, true, ?_, rfl, hverif⟩
      have hnot : ¬((r.view ids (r.view ids t).admission.pauseTimepoint).configuration = 0 ∨
          (r.view ids (r.view ids t).admission.pauseTimepoint).active op ≠
            (r.view ids (r.view ids t).admission.pauseTimepoint).configuration) := by
        rw [not_or, not_not]
        exact hrec
      rw [if_pos rfl]
      exact (if_neg hnot).trans hthen
  · rw [if_neg hpaus] at hallows ⊢
    rw [Bool.not_eq_true] at hpaus
    simp only [hpaus, Bool.and_false, Bool.false_eq_true, if_false, pure_ok]
    constructor
    · rintro ⟨_, hrun, _, rfl, rfl, hverif⟩
      exact ⟨hallows.1 hrun, hverif⟩
    · rintro ⟨hseas, hverif⟩
      exact ⟨true, hallows.2 hseas, true, rfl, rfl, hverif⟩

/-- The code admits exactly those that the timeline admits, unless a query reverts. -/
lemma Eligibility.admissionAllowed_iff (h : Answers env ids) (op : Address)
    (ht : t < 2 ^ 48) (hpause : (r.view ids).PausedBefore t) :
    admissionAllowed env r.bondOwnerOf r.pool op t = .ok true ↔
      (r.view ids).Admitted op t ∧ (r.view ids).Verified op t := by
  rw [admissionAllowed_ok ids op ht, allows_iff h op ht]
  simp only [Timeline.AdmittedBy, Timeline.Admitted]
  split_ifs with hpaus
  · rw [allows_iff h op ((hpause hpaus).trans ht)]
  · rfl

lemma Eligibility.eligibilityAt_ok (ids : Identities) (op : Address) (ht : t < 2 ^ 48) :
    (∃ n, eligibilityAt env r.bondOwnerOf r.pool op t = .ok (true, n)) ↔
      (r.view ids).Recorded op t ∧
      admissionAllowed env r.bondOwnerOf r.pool op t = .ok true := by
  simp only [eligibilityAt, safeUint48_ok.2 ⟨ht, rfl⟩, ok_bind, run_ok, Prod.mk.injEq]
  constructor
  · rintro ⟨n, _, hact, rfl, -⟩
    rw [ite_ok] at hact
    rcases hact with hact | ⟨-, hact⟩
    · exact hact
    · simp [pure, Except.pure] at hact
  · rintro ⟨hrec, hadm⟩
    exact ⟨_, true, (if_pos hrec).trans hadm, rfl, rfl⟩

lemma Eligibility.eligibilityAt_iff (h : Answers env ids) (op : Address)
    (ht : t < 2 ^ 48) (hpause : (r.view ids).PausedBefore t) :
    (∃ n, eligibilityAt env r.bondOwnerOf r.pool op t = .ok (true, n)) ↔
      (r.view ids).Eligible op t := by
  rw [eligibilityAt_ok ids op ht, admissionAllowed_iff h op ht hpause]
  rfl

lemma Answers.revocationCountAt_eq (h : Answers env ids) (ht : t < 2 ^ 48)
    (hregy : (ids reg).isSome) :
    external (env.revocationCountAt reg t) = .ok ((r.view ids t).revocations reg) := by
  obtain ⟨σ, hσ⟩ := Option.isSome_iff_exists.1 hregy
  have hcast : safeUint48 t = .ok t := safeUint48_ok.2 ⟨ht, rfl⟩
  rw [external_ok, h.revocations]
  simp [hσ, IdentityRegistry.revocationCountAt, hcast, ok_bind, pure, Except.pure,
    Except.toOption, Roster.view]

/-- The registries of the policies that require one exist. -/
def Served (i : IdentityLayout) (ids : Identities) : Prop :=
  ∀ version, (i.policies version).required = true → (ids (i.policies version).registry).isSome

/-- A count is fresh in the code exactly when it is fresh on the timeline. -/
lemma Capacity.capacityIsFresh_eq (h : Answers env ids)
    (hserv : Served r.pool.identity ids) (ht : t < 2 ^ 48) :
    ∃ fresh, Capacity.identityCapacityIsFresh env r.pool (r.view ids t).identity t = .ok fresh ∧
      (fresh = true ↔ (r.view ids).Fresh t) := by
  unfold Capacity.identityCapacityIsFresh Timeline.Fresh
  cases hreq : (r.view ids t).identity.required with
  | false => exact ⟨true, rfl, by simp⟩
  | true =>
    have hsome : (ids (r.view ids t).identity.registry).isSome := hserv _ hreq
    simp only [Bool.true_eq_false, if_false, safeUint48_ok.2 ⟨ht, rfl⟩, ok_bind,
      h.revocationCountAt_eq (r := r) ht hsome, true_implies]
    by_cases hexpd : (r.view ids t).countedUntil < t
    · exact ⟨false, if_pos hexpd, by simp [hexpd]⟩
    · refine ⟨_, if_neg hexpd, ?_⟩
      rw [decide_eq_true_eq]
      exact ⟨fun heq => ⟨not_lt.1 hexpd, heq⟩, fun hboth => hboth.2⟩

/-- The capacity view returns, and never more than the fresh count. -/
lemma Eligibility.ownerCapacity_le (h : Answers env ids) (hserv : Served r.pool.identity ids)
    (ht : t < 2 ^ 48) : ∃ n, committeeOwnerCapacity env r.pool t = .ok n ∧
      (n = 0 ∨ (r.view ids).Fresh t ∧ n = (r.view ids t).ownerCount) := by
  obtain ⟨fresh, hfresh, hiff⟩ := Capacity.capacityIsFresh_eq h hserv ht
  have hcast : safeUint48 t = .ok t := safeUint48_ok.2 ⟨ht, rfl⟩
  have hcount : ∃ n, Capacity.countAt env r.pool t = .ok n ∧
      (n = 0 ∨ (r.view ids).Fresh t ∧ n = (r.view ids t).ownerCount) := by
    simp only [Capacity.countAt, policyAt_eq ids ht, ok_bind, hfresh, hcast]
    cases fresh with
    | false => exact ⟨0, rfl, .inl rfl⟩
    | true => exact ⟨_, rfl, .inr ⟨hiff.1 rfl, rfl⟩⟩
  simp only [committeeOwnerCapacity, Admission.capacityPolicyMatches,
    capacityPolicyMatches, hcast, ok_bind, pure_bind]
  split_ifs
  · exact ⟨0, rfl, .inl rfl⟩
  · exact ⟨0, rfl, .inl rfl⟩
  · exact ⟨0, rfl, .inl rfl⟩
  · exact hcount

end

end Interfold.Bonding
