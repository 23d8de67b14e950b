import Interfold.Contracts.Bonding.EligibilityHistory
import Interfold.Contracts.Bonding.Timeline

/-!
# Admission pauses

Owners, position starts and policies are recorded with the time they changed at, and only at the
present. A pause refers to the last second before it, so it admits the operators that were eligible
then and nobody else, and later transactions do not change who they are.
-/

namespace Interfold.Bonding

open Transaction Checkpoints Function Eligibility Admission Roster

variable {env : Env} {now : ℕ} {r r' : Roster} {p p' pool : Pool} {op no : Address}
  {s : State}

/-! ## Recorded policies -/

/-- The latest version is the largest. -/
structure Versioned (now : ℕ) (versions : Trace ℕ) : Prop where
  ordered : versions.Ordered now
  le : ∀ t, versions.upperLookup t ≤ versions.latest

/-- A new version is recorded from now on, and the policies of the past are the same. -/
lemma Versioned.next {α : Type} (policies : ℕ → α) (pol : α) {vs vs' : Trace ℕ}
    (h : Versioned now vs) (hpush : pushCheckpoint vs now (vs.latest + 1) = .ok vs') :
    Versioned now vs' ∧ ∀ t, update policies (vs.latest + 1) pol (vs'.upperLookup t) =
        if now ≤ t then pol else policies (vs.upperLookup t) := by
  obtain ⟨hord, hlook⟩ := push_ok h.ordered hpush
  have hlat : vs'.latest = vs.latest + 1 := by
    rw [← hord.lookup_now, hlook, if_pos (le_refl _)]
  refine ⟨⟨hord, fun t => ?_⟩, fun t => ?_⟩
  · have := h.le t
    rw [hlook, hlat]
    split_ifs <;> omega
  · have hold := h.le t
    rw [hlook]
    split_ifs
    · rw [update_self]
    · rw [update_of_ne (by omega)]

def AdmissionLayout.policyAt (a : AdmissionLayout) (t : ℕ) : AdmissionPolicy :=
  a.policies (a.policyVersions.upperLookup t)

/-- A pause that began before `t` and froze the policy of the last second before it. -/
structure Freezes (P : ℕ → AdmissionPolicy) (t : ℕ) (policy : AdmissionPolicy) : Prop where
  before : policy.pauseTimepoint < t
  unpaused : (P policy.pauseTimepoint).admissionsPaused = false
  enabled : policy.pauseCooldownEnabled = (P policy.pauseTimepoint).cooldownEnabled
  duration : policy.pauseCooldownDuration = (P policy.pauseTimepoint).cooldownDuration

/-- The cutoff and the cooldown of a pause are those of another. -/
structure SamePause (policy policy' : AdmissionPolicy) : Prop where
  timepoint : policy'.pauseTimepoint = policy.pauseTimepoint
  enabled : policy'.pauseCooldownEnabled = policy.pauseCooldownEnabled
  duration : policy'.pauseCooldownDuration = policy.pauseCooldownDuration

/-- A pause froze the policy before it and goes on unchanged, and a position that started has
started at every time since. -/
structure AdmissionLayout.Sound (now : ℕ) (a : AdmissionLayout) : Prop where
  versions : Versioned now a.policyVersions
  pauses : ∀ t, (a.policyAt t).admissionsPaused = true → Freezes a.policyAt t (a.policyAt t)
  continues : ∀ t, (a.policyAt t).admissionsPaused = true →
    (a.policyAt (t + 1)).admissionsPaused = true → SamePause (a.policyAt t) (a.policyAt (t + 1))
  starts : ∀ x, (a.positionStarts x).Ordered now
  started : ∀ x t u, (a.positionStarts x).upperLookup t ≤ u → u ≤ t →
    (a.positionStarts x).upperLookup u = (a.positionStarts x).upperLookup t

lemma Freezes.congr (h : Freezes P t pol) (hsame : ∀ u < t, Q u = P u) (hle : t ≤ later) :
    Freezes Q later pol := by
  have heq := hsame _ h.before
  exact ⟨h.before.trans_le hle, heq ▸ h.unpaused, heq ▸ h.enabled, heq ▸ h.duration⟩

/-- A pause refers to the last second before it, or to the pause that was in force then. -/
lemma Admission.nextPolicy_freezes (h : p.admission.Sound env.now)
    (hrun : nextPolicy env p (p.admission.policyAt env.now) enabled duration paused = .ok pol)
    (hpaus : pol.admissionsPaused = true) : Freezes p.admission.policyAt env.now pol ∧
      ∀ t, t + 1 = env.now → (p.admission.policyAt t).admissionsPaused = true →
        SamePause (p.admission.policyAt t) pol := by
  simp only [nextPolicy, run_ok] at hrun
  obtain ⟨frozen, hfroz, rfl⟩ := hrun
  dsimp only at hpaus
  subst hpaus
  rcases ite_ok.1 hfroz with ⟨-, hfroz⟩ | ⟨hwas, hfroz⟩
  · simp only [run_ok, safeUint48_ok, policyAt] at hfroz
    obtain ⟨_, ⟨hpos, rfl⟩, _, ⟨-, rfl⟩, _, ⟨_, ⟨-, rfl⟩, hbef⟩, rfl⟩ := hfroz
    change p.admission.policyAt (env.now - 1) = _ at hbef
    subst hbef
    by_cases hthen : (p.admission.policyAt (env.now - 1)).admissionsPaused = true
    · have hfrz := h.pauses _ hthen
      simp only [hthen, if_true]
      refine ⟨⟨hfrz.before.trans_le (Nat.sub_le _ _), hfrz.unpaused, hfrz.enabled,
        hfrz.duration⟩, fun t ht _ => ?_⟩
      rw [← ht, Nat.add_sub_cancel]
      exact ⟨rfl, rfl, rfl⟩
    · simp only [hthen, Bool.false_eq_true, if_false]
      refine ⟨⟨Nat.sub_lt hpos Nat.one_pos, Bool.not_eq_true _ ▸ hthen, rfl, rfl⟩,
        fun t ht hpaus => ?_⟩
      rw [← ht, Nat.add_sub_cancel] at hthen
      exact absurd hpaus hthen
  · simp only [Bool.not_true, Bool.false_eq_true, if_false, pure_ok] at hfroz
    subst hfroz
    simp only [Bool.true_and, Bool.not_eq_true', Bool.not_eq_false] at hwas
    have hfrz := h.pauses _ hwas
    refine ⟨⟨hfrz.before, hfrz.unpaused, hfrz.enabled, hfrz.duration⟩, fun t ht hpaus => ?_⟩
    have hsame := h.continues t hpaus (ht ▸ hwas)
    rw [ht] at hsame
    exact ⟨hsame.timepoint, hsame.enabled, hsame.duration⟩

/-- A new policy that froze what it had to keeps the layout sound. -/
lemma AdmissionLayout.Sound.next {a : AdmissionLayout} {pol : AdmissionPolicy}
    {vs : Trace ℕ} (h : a.Sound now)
    (hpush : pushCheckpoint a.policyVersions now (a.policyVersions.latest + 1) = .ok vs)
    (hpol : pol.admissionsPaused = true → Freezes a.policyAt now pol ∧
      ∀ t, t + 1 = now → (a.policyAt t).admissionsPaused = true → SamePause (a.policyAt t) pol) :
    let a' : AdmissionLayout := { a with
      policies := update a.policies (a.policyVersions.latest + 1) pol
      policyVersions := vs }
    a'.Sound now ∧ ∀ t < now, a'.policyAt t = a.policyAt t := by
  intro a'
  obtain ⟨hvers, hlook⟩ := h.versions.next a.policies pol hpush
  have hnew : ∀ t, now ≤ t → a'.policyAt t = pol := fun t ht => (hlook t).trans (if_pos ht)
  have hold : ∀ t < now, a'.policyAt t = a.policyAt t :=
    fun t ht => (hlook t).trans (if_neg (not_le.2 ht))
  refine ⟨{ h with versions := hvers, pauses := ?_, continues := ?_ }, hold⟩
  · intro t
    rcases Nat.lt_or_ge t now with ht | ht
    · rw [hold t ht]
      exact fun hpaus =>
        (h.pauses t hpaus).congr (fun u hu => hold u (hu.trans ht)) (le_refl t)
    · rw [hnew t ht]
      exact fun hpaus => (hpol hpaus).1.congr hold ht
  · intro t
    rcases Nat.lt_trichotomy (t + 1) now with ht | ht | ht
    · rw [hold t (Nat.lt_of_succ_lt ht), hold (t + 1) ht]
      exact h.continues t
    · rw [hold t (by omega), hnew (t + 1) ht.ge]
      exact fun hwas hpaus => (hpol hpaus).2 t ht hwas
    · rw [hnew t (by omega), hnew (t + 1) ht.le]
      exact fun _ _ => ⟨rfl, rfl, rfl⟩

lemma AdmissionLayout.Sound.start (h : p.admission.Sound env.now)
    (hrun : start env op p = .ok p') : ∃ starts, p' = { p with admission := { p.admission with
        positionStarts := update p.admission.positionStarts op starts } } ∧
      p'.admission.Sound env.now ∧ ∀ t, starts.upperLookup t =
        if env.now ≤ t then env.now else (p.admission.positionStarts op).upperLookup t := by
  simp only [Admission.start, run_ok, safeUint48_ok] at hrun
  obtain ⟨-, ⟨-, rfl⟩, starts, hpush, rfl⟩ := hrun
  obtain ⟨hord, hlook⟩ := push_ok (h.starts op) hpush
  refine ⟨starts, rfl, { h with starts := ?_, started := ?_ }, hlook⟩
  · exact (forall_update_iff _ fun _ => Trace.Ordered env.now).2 ⟨hord, fun x _ => h.starts x⟩
  · refine (forall_update_iff _ fun _ (trace : Trace ℕ) => ∀ t u, trace.upperLookup t ≤ u → u ≤ t →
      trace.upperLookup u = trace.upperLookup t).2 ⟨fun t u => ?_, fun x _ => h.started x⟩
    rw [hlook, hlook]
    have hstar := h.started op t u
    split_ifs <;> omega

/-! ## The present -/

/-- The records of owners, positions and policies. -/
structure Policies (now : ℕ) (r : Roster) : Prop where
  owners : ∀ x, (r.pool.ownerHistory.history x).Ordered now
  owned : ∀ x, (r.pool.ownerHistory.history x).length ≠ 0 →
    (r.pool.ownerHistory.history x).latest = r.bondOwnerOf x
  admission : r.pool.admission.Sound now
  identities : Versioned now r.pool.identity.policyVersions

/-- What is recorded about owners, positions and policies before `now` is the same. -/
structure Settled (now : ℕ) (V V' : Timeline) : Prop where
  owner : ∀ t < now, (V' t).owner = (V t).owner
  admission : ∀ t < now, (V' t).admission = (V t).admission
  since : ∀ t < now, (V' t).since = (V t).since
  identity : ∀ t < now, (V' t).identity = (V t).identity

lemma Settled.rfl : Settled now V V :=
  ⟨fun _ _ => Eq.refl _, fun _ _ => Eq.refl _, fun _ _ => Eq.refl _, fun _ _ => Eq.refl _⟩

lemma Settled.trans (h : Settled now V V') (h' : Settled later V' V'') (hle : now ≤ later) :
    Settled now V V'' where
  owner t ht := (h'.owner t (ht.trans_le hle)).trans (h.owner t ht)
  admission t ht := (h'.admission t (ht.trans_le hle)).trans (h.admission t ht)
  since t ht := (h'.since t (ht.trans_le hle)).trans (h.since t ht)
  identity t ht := (h'.identity t (ht.trans_le hle)).trans (h.identity t ht)

/-- Owners, positions and policies stay as they are. -/
structure Roster.Same (r r' : Roster) : Prop where
  owners : r'.bondOwnerOf = r.bondOwnerOf
  history : r'.pool.ownerHistory.history = r.pool.ownerHistory.history
  admission : r'.pool.admission = r.pool.admission
  identity : r'.pool.identity = r.pool.identity

/-- Counting the owners leaves the owners. -/
lemma Roster.Same.of_keeps (h : Capacity.Keeps r.pool r'.pool)
    (howns : r'.bondOwnerOf = r.bondOwnerOf) : r.Same r' :=
  ⟨howns, h.history, h.admission, h.identity⟩

lemma Roster.Same.policies (hsame : r.Same r') (h : Policies now r) : Policies now r' where
  owners := hsame.history ▸ h.owners
  owned := hsame.owners ▸ hsame.history ▸ h.owned
  admission := hsame.admission ▸ h.admission
  identities := hsame.identity ▸ h.identities

lemma Roster.Same.view (hsame : r.Same r') (ids : Identities) (t : ℕ) :
    (r'.view ids t).owner = (r.view ids t).owner ∧
    (r'.view ids t).admission = (r.view ids t).admission ∧
    (r'.view ids t).since = (r.view ids t).since ∧
    (r'.view ids t).identity = (r.view ids t).identity := by
  simp only [Roster.view, hsame.owners, hsame.history, hsame.admission, hsame.identity, and_self]

lemma Roster.Same.settled (hsame : r.Same r') (ids : Identities) :
    Settled now (r.view ids) (r'.view ids) where
  owner t _ := (hsame.view ids t).1
  admission t _ := (hsame.view ids t).2.1
  since t _ := (hsame.view ids t).2.2.1
  identity t _ := (hsame.view ids t).2.2.2

lemma Roster.Updates.same (h : r.Updates env op pool n active)
    (hstar : r.pool.eligibility.refreshEpoch ≠ 0) : r.Same (r.setStatus op pool n active) := by
  obtain ⟨this, requirements, -, hrun⟩ := h
  obtain ⟨p₁, p₂, admitted, hrefr, -, hsync, -, hcases⟩ := updateOperator_ok hrun
  have hkeeps := (Capacity.sync_keeps hsync).1
  have hpool : pool = { p₂ with eligibility := pool.eligibility } := by
    rcases hcases with ⟨-, rfl, -⟩ | ⟨-, heq, -⟩
    · rfl
    · exact heq
  rw [hpool]
  split_ifs at hrefr
  · obtain ⟨rfl, -⟩ := completeRefresh_ok hstar hrefr
    exact ⟨rfl, hkeeps.history, hkeeps.admission, hkeeps.identity⟩
  · obtain rfl := pure_ok.1 hrefr
    exact ⟨rfl, hkeeps.history, hkeeps.admission, hkeeps.identity⟩

lemma Policies.owner_eq (h : Policies now r) (ids : Identities) (x : Address) :
    (r.view ids now).owner x = r.bondOwnerOf x := by
  simp only [view]
  split_ifs with hempty
  · rfl
  · rw [(h.owners x).lookup_now, h.owned x hempty]

/-! ## Owners -/

/-- The registry after an owner was recorded and the position was started anew. -/
def Roster.relocate (r : Roster) (operator newOwner : Address) (newer : Trace Address)
    (starts : Trace ℕ) : Roster :=
  { r with
    pool := { r.pool with
      ownerHistory := { r.pool.ownerHistory with
        history := update r.pool.ownerHistory.history operator newer }
      admission := { r.pool.admission with
        positionStarts := update r.pool.admission.positionStarts operator starts } }
    bondOwnerOf := update r.bondOwnerOf operator newOwner }

/-- The owner and the start of one position are new from now on. -/
structure Relocated (now : ℕ) (operator newOwner : Address) (V V' : Timeline) : Prop where
  owner : ∀ t x, (V' t).owner x = if x = operator ∧ now ≤ t then newOwner else (V t).owner x
  since : ∀ t x, (V' t).since x = if x = operator ∧ now ≤ t then now else (V t).since x

/-- What is done about the position before the owners are counted again. -/
lemma recordOwner_relocates (h : Policies env.now r) (hne : no ≠ 0) (hchg : r.bondOwnerOf op ≠ no)
    (hrun : recordOwner env r.bondOwnerOf op (r.bondOwnerOf op) no r.pool = .ok pool) :
    ∃ newer starts admitted allowed, let r₁ := r.relocate op no newer starts
      Policies env.now r₁ ∧
      (∀ ids, Relocated env.now op no (r.view ids) (r₁.view ids)) ∧
      env.now < 2 ^ 48 ∧
      allows r₁.pool op env.now (r₁.pool.admission.policyAt env.now) = .ok admitted ∧
      (allowed = true → admitted = true) ∧
      Capacity.transfer env op (if allowed then no else 0) r₁.pool = .ok pool := by
  simp only [recordOwner, if_neg hchg, run_ok, safeUint48_ok, policyAt] at hrun
  obtain ⟨older, holder, _, ⟨hnow, rfl⟩, newer, hnewer, p₁, hstart, _, ⟨_, ⟨-, rfl⟩, rfl⟩,
    admitted, hadm, allowed, halwd, htrans⟩ := hrun
  -- The first change of an owner also records the owner from the beginning on.
  have holder' : older.Ordered env.now ∧ ∀ ids t, older.upperLookup t =
      (r.view ids t).owner op := by
    rcases ite_ok.1 holder with ⟨hempty, holder⟩ | ⟨hsome, holder⟩
    · have hnil : r.pool.ownerHistory.history op = [] := List.length_eq_zero_iff.1 hempty
      have hrun : pushCheckpoint ([] : Trace Address) 0 (r.bondOwnerOf op) = .ok older :=
        hnil ▸ holder
      obtain ⟨hord, hlook⟩ := push_ok (.nil 0) hrun
      refine ⟨hord.mono (Nat.zero_le _), fun ids t => ?_⟩
      rw [hlook, if_pos (Nat.zero_le _)]
      exact (if_pos hempty).symm
    · obtain rfl := pure_ok.1 holder
      exact ⟨h.owners op, fun ids t => (if_neg hsome).symm⟩
  obtain ⟨hord, hlook⟩ := push_ok holder'.1 hnewer
  have hsome : newer.length ≠ 0 := by
    intro hzero
    have hlast := hlook env.now
    rw [if_pos (le_refl _), List.length_eq_zero_iff.1 hzero] at hlast
    exact hne hlast.symm
  obtain ⟨starts, rfl, hsound, hstarts⟩ := AdmissionLayout.Sound.start
    (p := { r.pool with ownerHistory := { r.pool.ownerHistory with
      history := update r.pool.ownerHistory.history op newer } }) h.admission hstart
  refine ⟨newer, starts, admitted, allowed, ⟨?_, fun x => ?_, hsound, h.identities⟩,
    fun ids => ⟨?_, ?_⟩, hnow, hadm, ?_, htrans⟩
  · exact (forall_update_iff _ fun _ => Trace.Ordered env.now).2 ⟨hord, fun x _ => h.owners x⟩
  · by_cases hx : x = op
    · subst hx
      simp [relocate, ← hord.lookup_now, hlook]
    · simpa [relocate, hx] using h.owned x
  · intro t x
    by_cases hx : x = op
    · subst hx
      simp only [view, relocate, update_self, if_neg hsome, hlook, true_and]
      rw [holder'.2 ids]
      rfl
    · simp [view, relocate, hx]
  · intro t x
    by_cases hx : x = op
    · subst hx
      simp [view, relocate, hstarts]
    · simp [view, relocate, hx]
  · rintro rfl
    cases admitted with
    | false => cases pure_ok.1 halwd
    | true => rfl

/-! ## Moves -/

lemma Policies.own (ids : Identities) (h : Policies env.now r) (hne : no ≠ 0)
    (hrun : recordOwner env r.bondOwnerOf op (r.bondOwnerOf op) no r.pool = .ok pool) :
    let r' : Roster := { r with pool, bondOwnerOf := update r.bondOwnerOf op no }
    Policies env.now r' ∧ Settled env.now (r.view ids) (r'.view ids) := by
  intro r'
  by_cases hchg : r.bondOwnerOf op = no
  · subst hchg
    unfold recordOwner at hrun
    rw [if_pos rfl] at hrun
    obtain rfl := pure_ok.1 hrun
    have hsame : r.Same r' := ⟨update_eq_self .., rfl, rfl, rfl⟩
    exact ⟨hsame.policies h, hsame.settled ids⟩
  · obtain ⟨newer, starts, admitted, allowed, hpols, hreloc, -, -, -, htrans⟩ :=
      recordOwner_relocates h hne hchg hrun
    have hsame : (r.relocate op no newer starts).Same r' :=
      .of_keeps (Capacity.transfer_keeps htrans).1 rfl
    refine ⟨hsame.policies hpols, Settled.trans ?_ (hsame.settled ids) (le_refl _)⟩
    have hold : ∀ t < env.now, ∀ x, ¬(x = op ∧ env.now ≤ t) :=
      fun t ht x hboth => absurd hboth.2 (not_le.2 ht)
    exact {
      owner t ht := funext fun x => ((hreloc ids).owner t x).trans (if_neg (hold t ht x))
      admission _ _ := rfl
      since t ht := funext fun x => ((hreloc ids).since t x).trans (if_neg (hold t ht x))
      identity _ _ := rfl }

lemma Policies.admissionPolicy (ids : Identities) (h : Policies env.now r)
    (hrun : setPolicy env enabled duration paused r.pool = .ok pool) :
    Policies env.now { r with pool } ∧
      Settled env.now (r.view ids) (({ r with pool } : Roster).view ids) := by
  unfold setPolicy at hrun
  rcases ite_ok.1 hrun with ⟨-, hrun⟩ | ⟨-, hrun⟩
  · obtain rfl := pure_ok.1 hrun
    exact ⟨h, .rfl⟩
  · simp only [bind_ok, safeUint48_ok] at hrun
    obtain ⟨pol, hnext, _, ⟨-, rfl⟩, vs, hpush, hreset⟩ := hrun
    rw [← h.admission.versions.ordered.lookup_now] at hnext
    obtain ⟨hsound, hpast⟩ :=
      h.admission.next hpush fun hpaus => nextPolicy_freezes h.admission hnext hpaus
    have hkeeps := (Capacity.reset_keeps hreset).1
    have hsame : Same { r with pool := _ } { r with pool } := .of_keeps hkeeps rfl
    refine ⟨hsame.policies ⟨h.owners, h.owned, hsound, h.identities⟩,
      Settled.trans ?_ (hsame.settled ids) (le_refl _)⟩
    exact { owner _ _ := rfl, admission := hpast, since _ _ := rfl, identity _ _ := rfl }

lemma Policies.identityPolicy {reg : Address} {required : Bool} (ids : Identities)
    (h : Policies env.now r) (hrun : Identity.setPolicy env reg required r.pool = .ok pool) :
    Policies env.now { r with pool } ∧
      Settled env.now (r.view ids) (({ r with pool } : Roster).view ids) := by
  simp only [Identity.setPolicy, bind_ok] at hrun
  obtain ⟨_, -, hrun⟩ := hrun
  split_ifs at hrun
  · obtain rfl := pure_ok.1 hrun
    exact ⟨h, .rfl⟩
  · simp only [bind_ok, safeUint48_ok] at hrun
    obtain ⟨_, ⟨-, rfl⟩, vs, hpush, hreset⟩ := hrun
    obtain ⟨hvers, hlook⟩ :=
      h.identities.next r.pool.identity.policies ⟨reg, required⟩ hpush
    have hkeeps := (Capacity.reset_keeps hreset).1
    have hadmis : pool.admission = r.pool.admission := hkeeps.admission
    have hhist : pool.ownerHistory.history = r.pool.ownerHistory.history := hkeeps.history
    refine ⟨⟨hhist ▸ h.owners, hhist ▸ h.owned, hadmis ▸ h.admission, hkeeps.identity ▸ hvers⟩, ?_⟩
    exact {
      owner t _ := by simp only [view, hhist]
      admission t _ := by simp only [view, hadmis]
      since t _ := by simp only [view, hadmis]
      identity t ht := by
        simp only [view, hkeeps.identity]
        exact (hlook t).trans (if_neg (not_le.2 ht)) }

/-- Every move records at the present only. -/
lemma Policies.move (ids : Identities) (h : Policies env.now r) (hhist : r.History env.now)
    (hmove : Move env r r') : Policies env.now r' ∧ Settled env.now (r.view ids) (r'.view ids) := by
  have hkeep : r.Same r' → Policies env.now r' ∧ Settled env.now (r.view ids) (r'.view ids) :=
    fun hsame => ⟨hsame.policies h, hsame.settled ids⟩
  cases hmove with
  | @enter op p₁ p₂ _ hexcl hstart =>
    simp only [excludeNewRegistration, run_ok] at hexcl
    obtain ⟨l, -, rfl⟩ := hexcl
    obtain ⟨starts, rfl, hsound, hlook⟩ :=
      AdmissionLayout.Sound.start (by exact h.admission) hstart
    refine ⟨⟨h.owners, h.owned, hsound, h.identities⟩, ?_⟩
    refine ⟨fun _ _ => rfl, fun _ _ => rfl, fun t ht => funext fun x => ?_, fun _ _ => rfl⟩
    by_cases hx : x = op
    · subst hx
      simp [view, enter, hlook, not_le.2 ht]
    · simp [view, enter, hx]
  | update hupd => exact hkeep (hupd.same hhist.started)
  | leave hold hcompl hupd =>
    obtain ⟨rfl, -⟩ := completeRefresh_ok hhist.started hcompl
    have hsame := hupd.same (Bonding.History.refreshed hhist hold).1.started
    exact hkeep ⟨hsame.owners, hsame.history, hsame.admission, hsame.identity⟩
  | invalidate hrun =>
    simp only [invalidateConfiguration, run_ok, Prod.mk.injEq] at hrun
    obtain ⟨-, -, vs, -, counts, -, l, -, p₁, hreset, -, rfl⟩ := hrun
    have hkeeps := (Capacity.reset_keeps hreset).1
    exact hkeep ⟨rfl, hkeeps.history, hkeeps.admission, hkeeps.identity⟩
  | own hne hrun => exact h.own ids hne hrun
  | admissionPolicy hrun => exact h.admissionPolicy ids hrun
  | identityPolicy hrun => exact h.identityPolicy ids hrun

lemma Policies.moves (ids : Identities) (h : Policies env.now r) (hhist : r.History env.now)
    (hmoves : Moves env r r') :
    Policies env.now r' ∧ Settled env.now (r.view ids) (r'.view ids) := by
  induction hmoves with
  | refl => exact ⟨h, .rfl⟩
  | tail hmoves hmove ih =>
    obtain ⟨hpols, hsettled⟩ := ih
    obtain ⟨hpols', hsettled'⟩ := hpols.move ids (hhist.moves hmoves).1 hmove
    exact ⟨hpols', hsettled.trans hsettled' (le_refl _)⟩

lemma Policies.mono (h : Policies now r) (hle : now ≤ later) : Policies later r where
  owners x := (h.owners x).mono hle
  owned := h.owned
  admission := { h.admission with
    versions := ⟨h.admission.versions.ordered.mono hle, h.admission.versions.le⟩
    starts := fun x => (h.admission.starts x).mono hle }
  identities := ⟨h.identities.ordered.mono hle, h.identities.le⟩

/-- Nothing is recorded when the first configuration starts. -/
lemma Policies.init {this : Address} {v : ℕ}
    (hrun : invalidateConfiguration env 0 0 .blank = .ok (v, pool)) :
    Policies env.now { (State.blank this env.sender).roster with
      configurationVersion := v, pool, numActive := 0 } := by
  simp only [invalidateConfiguration, run_ok, Prod.mk.injEq] at hrun
  obtain ⟨-, -, vs, -, counts, -, l, -, p₁, hreset, -, rfl⟩ := hrun
  have hsame : (State.blank this env.sender).roster.Same { (State.blank this env.sender).roster with
      configurationVersion := v, pool := p₁, numActive := 0 } :=
    have hkeeps := (Capacity.reset_keeps hreset).1
    ⟨rfl, hkeeps.history, hkeeps.admission, hkeeps.identity⟩
  have hempty : Versioned env.now [] := ⟨.nil _, fun _ => le_refl _⟩
  refine hsame.policies ⟨fun _ => .nil _, fun _ hsome => absurd rfl hsome, ?_, hempty⟩
  exact {
    versions := hempty
    pauses := fun _ hpaus => by cases hpaus
    continues := fun _ hpaus => by cases hpaus
    starts := fun _ => .nil _
    started := fun _ _ _ _ _ => rfl }

lemma Reachable.policies (h : Reachable now s) : s.roster.History now ∧ Policies now s.roster := by
  refine Reachable.roster_induction (P := fun now r => r.History now ∧ Policies now r) ?_ ?_ ?_ h
  · exact fun env this v pool hrun => ⟨((records_blank env.now).invalidate hrun).1, .init hrun⟩
  · exact fun now later r hle hr => ⟨hr.1.mono hle, hr.2.mono hle⟩
  · exact fun env r r' hmove hr =>
      ⟨(hr.1.move hmove).1, (hr.2.move (fun _ => none) hr.1 hmove).1⟩

lemma Later.settled (ids : Identities) (hlater : Later now s later s') (h : Reachable now s) :
    Policies later s'.roster ∧ Settled now (s.roster.view ids) (s'.roster.view ids) := by
  induction hlater with
  | refl => exact ⟨h.policies.2, .rfl⟩
  | wait _ hle ih => exact ⟨ih.1.mono hle, ih.2⟩
  | call hlater hsender hexec ih =>
    obtain ⟨hnow, hhist, -⟩ := hlater.past h
    obtain ⟨hpols, hsettled⟩ := ih.1.moves ids hhist (exec_step hsender hexec).moves
    exact ⟨hpols, ih.2.trans hsettled hnow⟩
  | transfers _ _ _ ih => exact ih

/-! ## Eligibility -/

section

variable {env' : Env} {t : ℕ} {ids : Identities}

lemma Identity.allows_congr (ht : t < 2 ^ 48)
    (howner : (r'.view ids t).owner = (r.view ids t).owner)
    (hident : (r'.view ids t).identity = (r.view ids t).identity)
    (hverif : ∀ reg o, env'.isVerifiedAt reg o t = env.isVerifiedAt reg o t) :
    Identity.allows env' r'.bondOwnerOf r'.pool op t =
      Identity.allows env r.bondOwnerOf r.pool op t := by
  unfold Identity.allows
  rw [Identity.policyAt_eq (r := r) ids ht, Identity.policyAt_eq ids ht,
    bondOwnerAt_eq (r := r) ids op ht, bondOwnerAt_eq ids op ht, howner, hident]
  simp only [hverif]

/-- Eligibility is a function of what is recorded. -/
lemma Eligibility.eligibilityAt_congr (hsettled : Settled now (r.view ids) (r'.view ids))
    (hpast : ∀ u < now, (∀ x, (r'.pool.eligibility.operatorActiveVersions x).upperLookup u =
        (r.pool.eligibility.operatorActiveVersions x).upperLookup u) ∧
      r'.pool.eligibility.configurationVersions.upperLookup u =
        r.pool.eligibility.configurationVersions.upperLookup u ∧
      r'.pool.eligibility.activeOperatorCounts.upperLookup u =
        r.pool.eligibility.activeOperatorCounts.upperLookup u)
    (hpause : (r.view ids).PausedBefore t) (ht : t < now)
    (hverif : ∀ reg o u, u ≤ t → env'.isVerifiedAt reg o u = env.isVerifiedAt reg o u) :
    eligibilityAt env' r'.bondOwnerOf r'.pool op t =
      eligibilityAt env r.bondOwnerOf r.pool op t := by
  by_cases hlt : t < 2 ^ 48
  swap
  · have hrefus : safeUint48 t = revertWith .safeCastOverflow := if_neg hlt
    simp only [eligibilityAt, hrefus]
    rfl
  have hident : ∀ u ≤ t, Identity.allows env' r'.bondOwnerOf r'.pool op u =
      Identity.allows env r.bondOwnerOf r.pool op u := fun u hu =>
    Identity.allows_congr (hu.trans_lt hlt) (hsettled.owner u (hu.trans_lt ht))
      (hsettled.identity u (hu.trans_lt ht)) fun reg o => hverif reg o u hu
  have hsince : (r'.pool.admission.positionStarts op).upperLookup t =
      (r.pool.admission.positionStarts op).upperLookup t :=
    congrFun (hsettled.since t ht) op
  have hadmis : admissionAllowed env' r'.bondOwnerOf r'.pool op t =
      admissionAllowed env r.bondOwnerOf r.pool op t := by
    simp only [admissionAllowed, policyAt_eq ids hlt, ok_bind,
      hsettled.admission t ht, allows, safeUint48_ok.2 ⟨hlt, rfl⟩, hsince,
      hident t (le_refl t)]
    by_cases hpaus : (r.view ids t).admission.admissionsPaused = true
    · have hbef := hpause hpaus
      obtain ⟨hact, hconf, -⟩ := hpast _ (hbef.trans ht)
      simp only [hact op, hconf, hident _ hbef.le]
    · simp only [hpaus, Bool.and_false, Bool.false_eq_true, if_false]
  obtain ⟨hact, hconf, hcount⟩ := hpast t ht
  simp only [eligibilityAt, safeUint48_ok.2 ⟨hlt, rfl⟩, ok_bind, hact op, hconf, hcount, hadmis]

/-- Whoever is eligible during a pause was eligible when it began. -/
lemma Policies.eligible_before (ids : Identities) (h : Policies now r)
    (hpaus : (r.view ids t).admission.admissionsPaused = true)
    (helig : eligibilityAt env r.bondOwnerOf r.pool op t = .ok (true, n)) :
    ∃ m, eligibilityAt env r.bondOwnerOf r.pool op
      (r.view ids t).admission.pauseTimepoint = .ok (true, m) := by
  have hlt : t < 2 ^ 48 := by
    simp only [eligibilityAt, bind_ok, safeUint48_ok] at helig
    obtain ⟨-, ⟨hlt, -⟩, -⟩ := helig
    exact hlt
  have hfrz : Freezes (fun u => (r.view ids u).admission) t (r.view ids t).admission :=
    h.admission.pauses t hpaus
  have hlt' := hfrz.before.trans hlt
  have hadm := ((eligibilityAt_ok ids op hlt).1 ⟨n, helig⟩).2
  rw [admissionAllowed_ok ids op hlt, Timeline.AdmittedBy, if_pos hpaus] at hadm
  obtain ⟨⟨hseas, hrec, hallows⟩, -⟩ := hadm
  rw [eligibilityAt_ok ids op hlt', admissionAllowed_ok ids op hlt', Timeline.AdmittedBy,
    if_neg (Bool.not_eq_true _ ▸ hfrz.unpaused), ← hfrz.enabled, ← hfrz.duration]
  -- The position had started before the pause, so it has the same age on both sides.
  have hsince : (r.view ids (r.view ids t).admission.pauseTimepoint).since op =
      (r.view ids t).since op :=
    h.admission.started op t _ hseas.1 hfrz.before.le
  rw [hsince]
  exact ⟨hrec, hseas, hallows⟩

end

/-- A pause freezes the pool: nobody enters who was not eligible when it began, toggling it within
a block keeps the cutoff, and later transactions do not change the past. -/
theorem admission_pause_freezes {now : ℕ} {s : State} (h : Reachable now s) :
    (∀ env t policy, policyAt s.pool t = .ok policy → policy.admissionsPaused = true →
      policy.pauseTimepoint < t ∧ ∀ operator n,
        eligibilityAt env s.bondOwnerOf s.pool operator t = .ok (true, n) →
        ∃ m, eligibilityAt env s.bondOwnerOf s.pool operator policy.pauseTimepoint =
          .ok (true, m)) ∧
    (∀ t before policy, policyAt s.pool t = .ok before →
      before.admissionsPaused = true → policyAt s.pool (t + 1) = .ok policy →
      policy.admissionsPaused = true → SamePause before policy) ∧
    (∀ t < now, ∀ later s', Later now s later s' → ∀ env env', (∀ registry o u, u ≤ t →
        env'.isVerifiedAt registry o u = env.isVerifiedAt registry o u) →
      ∀ operator, eligibilityAt env' s'.bondOwnerOf s'.pool operator t =
        eligibilityAt env s.bondOwnerOf s.pool operator t) := by
  have hpolicies := h.policies.2
  have hpolicy : ∀ {t policy}, policyAt s.pool t = .ok policy →
      s.pool.admission.policyAt t = policy := by
    intro t policy hrun
    simp only [policyAt, run_ok, safeUint48_ok] at hrun
    obtain ⟨_, ⟨-, rfl⟩, hrun⟩ := hrun
    exact hrun
  refine ⟨?_, ?_, ?_⟩
  · rintro env t policy hrun hpaused
    obtain rfl := hpolicy hrun
    refine ⟨(hpolicies.admission.pauses t hpaused).before, fun operator n heligible => ?_⟩
    exact hpolicies.eligible_before (fun _ => none) hpaused heligible
  · rintro t before policy hbefore hwas hrun hpaused
    obtain rfl := hpolicy hbefore
    obtain rfl := hpolicy hrun
    exact hpolicies.admission.continues t hwas hpaused
  · intro t ht later s' hlater env env' hverified operator
    exact eligibilityAt_congr (hlater.settled (fun _ => none) h).2 (hlater.past h).2.2
      (fun hpaused => (hpolicies.admission.pauses t hpaused).before) ht hverified

/-- The pool is paused while the operator 7 is active. -/
theorem admission_pause_freezes_active : ∃ s₀ s₁ s, deployed [] = .ok s₀ ∧
    runCalls s₀ activeOperatorCalls = .ok s₁ ∧
    exec { readyEnv 9 with now := 2000 } s₁ (.setAdmissionPolicy false 0 true) = .ok s ∧
    eligibilityAt (readyEnv 9) s.bondOwnerOf s.pool 7 2000 = .ok (true, 1) ∧
    ∃ m, eligibilityAt (readyEnv 9) s.bondOwnerOf s.pool 7 1999 = .ok (true, m) := by
  have hrun : ∃ s₀ s₁ s policy, deployed [] = .ok s₀ ∧ runCalls s₀ activeOperatorCalls = .ok s₁ ∧
      exec { readyEnv 9 with now := 2000 } s₁ (.setAdmissionPolicy false 0 true) = .ok s ∧
      eligibilityAt (readyEnv 9) s.bondOwnerOf s.pool 7 2000 = .ok (true, 1) ∧
      policyAt s.pool 2000 = .ok policy ∧ policy.admissionsPaused = true ∧
      policy.pauseTimepoint = 1999 := ⟨_, _, _, _, rfl, rfl, rfl, rfl, rfl, rfl, rfl⟩
  obtain ⟨s₀, s₁, s, policy, hdeployed, hcalls, hexec, heligible, hpolicy, hpaused, hbefore⟩ := hrun
  have hactive := (Reachable.deployed (by simp) hdeployed).runCalls (by decide) hcalls
  have hwaited : Reachable ({ readyEnv 9 with now := 2000 } : Env).now s₁ :=
    hactive.wait (by decide)
  have hreachable := hwaited.call (by decide) hexec
  refine ⟨s₀, s₁, s, hdeployed, hcalls, hexec, heligible, hbefore ▸ ?_⟩
  exact ((admission_pause_freezes hreachable).1 (readyEnv 9) 2000 policy hpolicy hpaused).2 7 1
    heligible

end Interfold.Bonding
