import Interfold.Contracts.Bonding.Effects

/-!
# The eligibility history

A configuration change makes every cached status stale at once, by raising the version that the
statuses are compared with. The counters still agree with the statuses, and what is recorded about
a past timepoint stays as it is.
-/

namespace Interfold.Bonding

open Transaction Checkpoints Function Ledger Eligibility EligibilityLayout

/-! ## Frames -/

/-- Only the count of owners differs. -/
structure Capacity.Keeps (p p' : Pool) : Prop where
  admission : p'.admission = p.admission
  identity : p'.identity = p.identity
  eligibility : p'.eligibility = p.eligibility
  history : p'.ownerHistory.history = p.ownerHistory.history

namespace Capacity

variable {env : Env} {p p' : Pool} {op o : Address}

lemma Keeps.rfl : Keeps p p := ⟨Eq.refl _, Eq.refl _, Eq.refl _, Eq.refl _⟩

lemma Keeps.trans (h : Keeps p p') (h' : Keeps p' p'') : Keeps p p'' :=
  ⟨h'.admission.trans h.admission, h'.identity.trans h.identity,
    h'.eligibility.trans h.eligibility, h'.history.trans h.history⟩

lemma reset_keeps (h : reset env p = .ok p') : Keeps p p' ∧ env.now < 2 ^ 48 := by
  simp only [reset, run_ok, safeUint48_ok] at h
  obtain ⟨-, ⟨hnow, rfl⟩, -, -, -, -, -, -, -, -, -, -, -, -, rfl⟩ := h
  exact ⟨⟨rfl, rfl, rfl, rfl⟩, hnow⟩

lemma prepareCapacity_keeps (h : prepareIdentityCapacity env p = .ok (pol, p')) :
    Keeps p p' ∧ env.now < 2 ^ 48 := by
  simp only [prepareIdentityCapacity, Identity.policyAt, run_ok, safeUint48_ok, Prod.mk.injEq] at h
  obtain ⟨-, ⟨-, ⟨hnow, rfl⟩, -⟩, fresh, -, p₁, hreset, -, rfl⟩ := h
  refine ⟨?_, hnow⟩
  cases fresh with
  | true =>
    obtain rfl := pure_ok.1 hreset
    exact .rfl
  | false => exact (reset_keeps hreset).1

lemma move_keeps (h : move env previous next p = .ok p') : Keeps p p' := by
  unfold move at h
  rcases ite_ok.1 h with ⟨-, h⟩ | ⟨-, h⟩
  · obtain rfl := pure_ok.1 h
    exact .rfl
  · simp only [run_ok, Prod.exists] at h
    obtain ⟨h₁, n₁, hvacate, h₂, n₂, hocc, counts, -, rfl⟩ := h
    refine ⟨rfl, rfl, rfl, ?_⟩
    rw [ite_ok] at hvacate hocc
    simp only [run_ok, Prod.mk.injEq] at hvacate hocc
    rcases hvacate with ⟨-, _, -, _, -, rfl, -⟩ | ⟨-, rfl, -⟩ <;>
      rcases hocc with ⟨-, _, -, rfl, -⟩ | ⟨-, rfl, -⟩ <;> rfl

lemma setCounted_keeps (c : CountedOperator) : Keeps p (setCounted op c p) :=
  ⟨rfl, rfl, rfl, rfl⟩

lemma sync_keeps (h : sync env op o active p = .ok p') : Keeps p p' ∧ env.now < 2 ^ 48 := by
  simp only [sync, bind_ok, Prod.exists] at h
  obtain ⟨pol, p₁, hprep, covers, -, h⟩ := h
  obtain ⟨hkeeps, hnow⟩ := prepareCapacity_keeps hprep
  refine ⟨hkeeps.trans ?_, hnow⟩
  rcases ite_ok.1 h with ⟨-, h⟩ | ⟨-, h⟩
  · obtain rfl := pure_ok.1 h
    exact .rfl
  · simp only [run_ok] at h
    obtain ⟨p₂, hmove, rfl⟩ := h
    exact (move_keeps hmove).trans (setCounted_keeps _)

lemma transfer_keeps (h : transfer env op o p = .ok p') : Keeps p p' ∧ env.now < 2 ^ 48 := by
  simp only [transfer, bind_ok, Prod.exists] at h
  obtain ⟨pol, p₁, hprep, h⟩ := h
  obtain ⟨hkeeps, hnow⟩ := prepareCapacity_keeps hprep
  refine ⟨hkeeps.trans ?_, hnow⟩
  split_ifs at h
  · obtain rfl := pure_ok.1 h
    exact .rfl
  · simp only [run_ok] at h
    obtain ⟨covers, -, p₂, hmove, rfl⟩ := h
    exact (move_keeps hmove).trans (setCounted_keeps _)

end Capacity

section

variable {env : Env} {p p' : Pool} {op : Address}

lemma Admission.start_eligibility (h : Admission.start env op p = .ok p') :
    p'.eligibility = p.eligibility := by
  simp only [Admission.start, run_ok] at h
  obtain ⟨-, -, -, -, rfl⟩ := h
  rfl

lemma Admission.setPolicy_eligibility
    (h : Admission.setPolicy env enabled duration paused p = .ok p') :
    p'.eligibility = p.eligibility := by
  unfold Admission.setPolicy at h
  rcases ite_ok.1 h with ⟨-, h⟩ | ⟨-, h⟩
  · rw [pure_ok.1 h]
  · simp only [bind_ok] at h
    obtain ⟨pol, -, key, -, vs, -, hreset⟩ := h
    exact (Capacity.reset_keeps hreset).1.eligibility

lemma Identity.setPolicy_eligibility (h : Identity.setPolicy env registry required p = .ok p') :
    p'.eligibility = p.eligibility := by
  simp only [Identity.setPolicy, bind_ok] at h
  obtain ⟨-, -, h⟩ := h
  split_ifs at h
  · rw [pure_ok.1 h]
  · simp only [bind_ok] at h
    obtain ⟨key, -, vs, -, hreset⟩ := h
    exact (Capacity.reset_keeps hreset).1.eligibility

lemma recordOwner_eligibility (h : recordOwner env bondOwnerOf op previous next p = .ok p') :
    p'.eligibility = p.eligibility := by
  unfold recordOwner at h
  split_ifs at h
  · rw [pure_ok.1 h]
  · simp only [bind_ok] at h
    obtain ⟨older, -, key, -, newer, -, p₁, hstart, pol, -, admitted, -, allowed, -, htrans⟩ := h
    rw [(Capacity.transfer_keeps htrans).1.eligibility, Admission.start_eligibility hstart]

end

/-! ## What status updates do to the layout -/

namespace EligibilityLayout

/-- The layout after an operator was refreshed. -/
def refreshed (l : EligibilityLayout) (now : ℕ) (operator : Address) : EligibilityLayout :=
  if l.refreshedEpochs operator = l.refreshEpoch then l
  else { l with
    refreshedEpochs := update l.refreshedEpochs operator l.refreshEpoch
    pendingRefreshes := l.pendingRefreshes - 1
    refreshCompletedAt := if l.pendingRefreshes - 1 = 0 then now else l.refreshCompletedAt }

/-- The layout after the status of an operator changed. -/
structure Recorded (now : ℕ) (operator : Address) (version n : ℕ) (l l' : EligibilityLayout) :
    Prop where
  versions : ∀ key, (l'.operatorActiveVersions operator).upperLookup key =
    if now ≤ key then version else (l.operatorActiveVersions operator).upperLookup key
  versions_ordered : (l'.operatorActiveVersions operator).Ordered now
  others : ∀ x, x ≠ operator → l'.operatorActiveVersions x = l.operatorActiveVersions x
  counts : ∀ key, l'.activeOperatorCounts.upperLookup key =
    if now ≤ key then n else l.activeOperatorCounts.upperLookup key
  counts_ordered : l'.activeOperatorCounts.Ordered now
  configurations : l'.configurationVersions = l.configurationVersions
  epoch : l'.refreshEpoch = l.refreshEpoch
  pending : l'.pendingRefreshes = l.pendingRefreshes
  completed : l'.refreshCompletedAt = l.refreshCompletedAt
  epochs : l'.refreshedEpochs = l.refreshedEpochs

end EligibilityLayout

namespace Eligibility

variable {env : Env} {p p' : Pool} {op : Address} {n : ℕ}

lemma completeRefresh_ok (hstar : p.eligibility.refreshEpoch ≠ 0)
    (h : completeOperatorRefresh env n op p = .ok p') :
    p' = { p with eligibility := p.eligibility.refreshed env.now op } ∧
      (p.eligibility.refreshedEpochs op ≠ p.eligibility.refreshEpoch →
        0 < p.eligibility.pendingRefreshes) := by
  simp only [completeOperatorRefresh, ensureRefreshStarted, if_neg hstar, pure_bind] at h
  split_ifs at h with hdone
  · obtain rfl := pure_ok.1 h
    simp [refreshed, hdone]
  · simp only [run_ok] at h
    obtain ⟨pending, ⟨hpos, rfl⟩, completed, hcompl, rfl⟩ := h
    have hcompl' : completed = if p.eligibility.pendingRefreshes - 1 = 0 then env.now
        else p.eligibility.refreshCompletedAt := by
      split_ifs at hcompl ⊢
      · exact (safeUint48_ok.1 hcompl).2.symm
      · exact (pure_ok.1 hcompl).symm
    simp only [refreshed, if_neg hdone, hcompl', true_and]
    exact fun _ => hpos

lemma completeRefresh_returns (hstar : p.eligibility.refreshEpoch ≠ 0)
    (hpos : p.eligibility.refreshedEpochs op ≠ p.eligibility.refreshEpoch →
      0 < p.eligibility.pendingRefreshes) (hnow : env.now < 2 ^ 48) :
    ∃ p', completeOperatorRefresh env n op p = .ok p' := by
  simp only [completeOperatorRefresh, ensureRefreshStarted, if_neg hstar, pure_bind]
  split_ifs with hdone
  · exact ⟨_, rfl⟩
  · have hsub : checkedSub p.eligibility.pendingRefreshes 1 =
        (.ok (p.eligibility.pendingRefreshes - 1) : Tx ℕ) :=
      checkedSub_ok.2 ⟨hpos hdone, rfl⟩
    have hcast : safeUint48 env.now = .ok env.now := safeUint48_ok.2 ⟨hnow, rfl⟩
    simp only [hsub, ok_bind, hcast]
    split_ifs
    · exact ⟨_, rfl⟩
    · exact ⟨_, rfl⟩

variable {this : Address} {r : OperatorRequirements} {active : Bool}

lemma meets_registered (h : meetsRequirements env this op r = .ok active)
    (hact : active = true) : r.registered = true := by
  subst hact
  simp only [meetsRequirements, bind_ok] at h
  obtain ⟨releaseRegistry, -, h⟩ := h
  rcases ite_ok.1 h with ⟨-, h⟩ | ⟨-, h⟩
  · simp only [bind_ok] at h
    obtain ⟨ready, -, h⟩ := h
    rw [ite_ok] at h
    rcases h with ⟨hall, -⟩ | ⟨-, h⟩
    · simp only [Bool.and_eq_true] at hall
      exact hall.1.1.2
    · cases pure_ok.1 h
  · cases pure_ok.1 h

/-- A status update refreshes a registered operator, counts its owner, and records a status that
differs from the old one. -/
lemma updateOperator_ok {bondOwnerOf : Address → Address} {old : Bool} {v count count' : ℕ}
    (h : updateOperator env this op bondOwnerOf n old r v count p = .ok (p', count', active)) :
    ∃ p₁ p₂ admitted,
      (if r.registered then completeOperatorRefresh env n op p else pure p) = .ok p₁ ∧
      (if active then admissionAllowed env bondOwnerOf p₁ op env.now else pure false) =
        .ok admitted ∧
      Capacity.sync env op (bondOwnerOf op) admitted p₁ = .ok p₂ ∧
      (active = true → r.registered = true) ∧
      (old = active ∧ p' = p₂ ∧ count' = count ∨
        old ≠ active ∧ p' = { p₂ with eligibility := p'.eligibility } ∧
        (if active then count' = count + 1 else count = count' + 1) ∧
        ((∀ x, (p₂.eligibility.operatorActiveVersions x).Ordered env.now) →
          p₂.eligibility.activeOperatorCounts.Ordered env.now →
          p₂.eligibility.Recorded env.now op (if active then v + 1 else 0) count'
            p'.eligibility)) := by
  simp only [updateOperator, bind_ok] at h
  obtain ⟨p₁, hrefr, active', hmeets, admitted, hadm, p₂, hsync, h⟩ := h
  have hregis := meets_registered hmeets
  have hnow := (Capacity.sync_keeps hsync).2
  rcases ite_ok.1 h with ⟨heq, h⟩ | ⟨hne, h⟩
  · simp only [pure_ok, Prod.mk.injEq] at h
    obtain ⟨rfl, rfl, rfl⟩ := h
    exact ⟨p₁, p₂, admitted, hrefr, hadm, hsync, hregis, .inl ⟨heq, rfl, rfl⟩⟩
  · simp only [run_ok, Prod.mk.injEq, toUint48_of_lt hnow] at h
    obtain ⟨count'', hcount, vs, hvers, counts, hcnts, rfl, rfl, rfl⟩ := h
    refine ⟨p₁, p₂, admitted, hrefr, hadm, hsync, hregis, .inr ⟨hne, rfl, ?_, ?_⟩⟩
    · cases active' with
      | true => exact (checkedAdd_ok.1 hcount).2.symm
      | false =>
        obtain ⟨hpos, rfl⟩ := checkedSub_ok.1 hcount
        exact (Nat.sub_add_cancel hpos).symm
    · intro hord hord'
      obtain ⟨hvers', hlook⟩ := push_ok (hord op) hvers
      obtain ⟨hcnts', hlook'⟩ := push_ok hord' hcnts
      exact {
        versions := by simpa using hlook
        versions_ordered := by simpa using hvers'
        others := fun x hx => by simp [hx]
        counts := hlook'
        counts_ordered := hcnts'
        configurations := rfl
        epoch := rfl
        pending := rfl
        completed := rfl
        epochs := rfl }

end Eligibility

/-! ## The invariant -/

/-- The operator is recorded as active under the configuration of that timepoint. -/
def EligibilityLayout.ActiveAt (l : EligibilityLayout) (t : ℕ) (operator : Address) : Prop :=
  (l.operatorActiveVersions operator).upperLookup t ≠ 0 ∧
    (l.operatorActiveVersions operator).upperLookup t = l.configurationVersions.upperLookup t

instance (l : EligibilityLayout) (t : ℕ) : DecidablePred (l.ActiveAt t) :=
  fun _ => inferInstanceAs (Decidable (_ ∧ _))

/-- What the records satisfy from the start. -/
structure Records (now : ℕ) (l : EligibilityLayout) (registered : Address → Bool)
    (status : Address → ℕ × Bool) (version numRegistered : ℕ) : Prop where
  registered_count : numRegistered = count fun x => registered x = true
  epochs_le : ∀ x, l.refreshedEpochs x ≤ l.refreshEpoch
  versions : ∀ x, (l.operatorActiveVersions x).Ordered now
  configurations : l.configurationVersions.Ordered now
  counts : l.activeOperatorCounts.Ordered now
  status_le : ∀ x, (status x).1 ≤ version
  recorded_le : ∀ x, (l.operatorActiveVersions x).latest ≤ version + 1
  active_count : ∀ t, l.activeOperatorCounts.upperLookup t = count (l.ActiveAt t)

/-- What they satisfy once a configuration is in force. -/
structure History (now : ℕ) (l : EligibilityLayout) (registered : Address → Bool)
    (status : Address → ℕ × Bool) (version numRegistered numActive : ℕ) : Prop extends
    Records now l registered status version numRegistered where
  current : l.configurationVersions.latest = version + 1
  recorded : ∀ x, (l.operatorActiveVersions x).latest = version + 1 ↔ status x = (version, true)
  latest_count : l.activeOperatorCounts.latest = numActive
  started : l.refreshEpoch ≠ 0
  pending : l.pendingRefreshes = count fun x =>
    registered x = true ∧ l.refreshedEpochs x ≠ l.refreshEpoch
  completed : l.pendingRefreshes ≠ 0 → l.refreshCompletedAt = 0

/-- What happens at `now` to the answers about the past and to the refresh epoch. -/
structure Evolves (now : ℕ) (l l' : EligibilityLayout) : Prop where
  versions : ∀ x, ∀ t < now, (l'.operatorActiveVersions x).upperLookup t =
    (l.operatorActiveVersions x).upperLookup t
  configurations : ∀ t < now, l'.configurationVersions.upperLookup t =
    l.configurationVersions.upperLookup t
  counts : ∀ t < now, l'.activeOperatorCounts.upperLookup t = l.activeOperatorCounts.upperLookup t
  epoch_le : l.refreshEpoch ≤ l'.refreshEpoch
  pending_le : l'.refreshEpoch = l.refreshEpoch → l'.pendingRefreshes ≤ l.pendingRefreshes
  completes : l'.pendingRefreshes = 0 → l'.refreshCompletedAt =
    if l.pendingRefreshes = 0 ∧ l'.refreshEpoch = l.refreshEpoch then l.refreshCompletedAt else now

variable {now : ℕ} {l : EligibilityLayout} {s : State}

lemma Evolves.rfl : Evolves now l l where
  versions _ _ _ := Eq.refl _
  configurations _ _ := Eq.refl _
  counts _ _ := Eq.refl _
  epoch_le := le_refl _
  pending_le _ := le_refl _
  completes hzero := by rw [if_pos ⟨hzero, Eq.refl _⟩]

lemma Evolves.trans (h : Evolves now l l') (h' : Evolves now l' l'') : Evolves now l l'' where
  versions x t ht := (h'.versions x t ht).trans (h.versions x t ht)
  configurations t ht := (h'.configurations t ht).trans (h.configurations t ht)
  counts t ht := (h'.counts t ht).trans (h.counts t ht)
  epoch_le := h.epoch_le.trans h'.epoch_le
  pending_le hepoch := by
    have := h.epoch_le
    have := h'.epoch_le
    have := h.pending_le (by omega)
    have := h'.pending_le (by omega)
    omega
  completes hzero := by
    have := h.epoch_le
    have := h'.epoch_le
    have hpend := h.pending_le
    have hcomp := h.completes
    have hcomp' := h'.completes hzero
    grind

section

variable {now : ℕ} {l l' : EligibilityLayout} {reg : Address → Bool}
  {status : Address → ℕ × Bool} {v nr numActive : ℕ} {op : Address} {active : Bool}

/-- The number of pending operators without one that is up to date now. -/
lemma count_refreshed (hregis : reg op = true)
    (hstale : l.refreshedEpochs op ≠ l.refreshEpoch) : (count fun x => reg x = true ∧
        update l.refreshedEpochs op l.refreshEpoch x ≠ l.refreshEpoch) + 1 =
      count fun x => reg x = true ∧ l.refreshedEpochs x ≠ l.refreshEpoch := by
  have hcount := count_write (a := op)
    (p := fun x => reg x = true ∧ l.refreshedEpochs x ≠ l.refreshEpoch)
    (q := fun x => reg x = true ∧ update l.refreshedEpochs op l.refreshEpoch x ≠ l.refreshEpoch)
    (fun x hx => by simp only [update_of_ne hx])
  simpa [hregis, hstale] using hcount

lemma Records.epochs_le_update (h : Records now l reg status v nr) (op : Address) :
    ∀ x, update l.refreshedEpochs op l.refreshEpoch x ≤ l.refreshEpoch :=
  (forall_update_iff l.refreshedEpochs fun _ n => n ≤ l.refreshEpoch).2
    ⟨le_rfl, fun x _ => h.epochs_le x⟩

lemma refreshed_epoch (l : EligibilityLayout) :
    (l.refreshed now op).refreshedEpochs op = (l.refreshed now op).refreshEpoch := by
  unfold refreshed
  by_cases hdone : l.refreshedEpochs op = l.refreshEpoch
  · rw [if_pos hdone]
    exact hdone
  · rw [if_neg hdone]
    exact update_self ..

lemma Records.status_le_update (h : Records now l reg status v nr) (op : Address) (active : Bool) :
    ∀ x, (update status op (v, active) x).1 ≤ v :=
  (forall_update_iff status fun _ s => s.1 ≤ v).2 ⟨le_rfl, fun x _ => h.status_le x⟩

variable (h : History now l reg status v nr numActive)
include h

lemma History.numActive_eq : numActive = count fun x => status x = (v, true) := by
  have hcount := h.active_count now
  rw [h.counts.lookup_now, h.latest_count] at hcount
  rw [hcount]
  apply count_congr
  intro x
  rw [← h.recorded x, ActiveAt, (h.versions x).lookup_now, h.configurations.lookup_now, h.current]
  omega

lemma History.pending_pos (hregis : reg op = true)
    (hstale : l.refreshedEpochs op ≠ l.refreshEpoch) : 0 < l.pendingRefreshes := by
  rw [h.pending]
  exact count_pos (a := op) ⟨hregis, hstale⟩

lemma History.refreshed (hregis : reg op = true) :
    History now (l.refreshed now op) reg status v nr numActive ∧
      Evolves now l (l.refreshed now op) := by
  unfold EligibilityLayout.refreshed
  by_cases hdone : l.refreshedEpochs op = l.refreshEpoch
  · rw [if_pos hdone]
    exact ⟨h, .rfl⟩
  have hpos := h.pending_pos hregis hdone
  rw [if_neg hdone]
  constructor
  · refine { h with
      epochs_le := h.epochs_le_update op, active_count := h.active_count, pending := ?_
      completed := ?_ }
    · have hcount := count_refreshed hregis hdone
      rw [← h.pending] at hcount
      dsimp only
      omega
    · intro hne
      dsimp only at hne ⊢
      rw [if_neg hne]
      exact h.completed (by omega)
  · refine { Evolves.rfl (l := l) with pending_le := fun _ => Nat.sub_le _ _, completes := ?_ }
    intro hzero
    dsimp only at hzero ⊢
    rw [if_pos hzero, if_neg (by omega)]

lemma History.leave (hold : reg op = true) (hdone : l.refreshedEpochs op = l.refreshEpoch) :
    History now l (update reg op false) status v (nr - 1) numActive := by
  refine { h with registered_count := ?_, pending := ?_ }
  · have hcount := count_write (a := op) (p := fun x => reg x = true)
      (q := fun x => update reg op false x = true)
      (fun x hx => by simp only [update_of_ne hx])
    rw [← h.registered_count] at hcount
    simp only [hold, if_true, update_self, Bool.false_eq_true, if_false] at hcount
    omega
  · have hcount := count_write (a := op)
      (p := fun x => reg x = true ∧ l.refreshedEpochs x ≠ l.refreshEpoch)
      (q := fun x => update reg op false x = true ∧ l.refreshedEpochs x ≠ l.refreshEpoch)
      (fun x hx => by simp only [update_of_ne hx])
    rw [← h.pending] at hcount
    simpa [hdone] using hcount.symm

lemma History.enter (hnew : reg op = false) :
    History now { l with refreshedEpochs := update l.refreshedEpochs op l.refreshEpoch }
      (update reg op true) status v (nr + 1) numActive := by
  refine { h with
    registered_count := ?_, epochs_le := h.epochs_le_update op
    active_count := h.active_count, pending := ?_ }
  · have hcount := count_write (a := op) (p := fun x => reg x = true)
      (q := fun x => update reg op true x = true)
      (fun x hx => by simp only [update_of_ne hx])
    rw [← h.registered_count] at hcount
    simpa [hnew] using hcount.symm
  · have hcount := count_write (a := op)
      (p := fun x => reg x = true ∧ l.refreshedEpochs x ≠ l.refreshEpoch)
      (q := fun x => update reg op true x = true ∧
        update l.refreshedEpochs op l.refreshEpoch x ≠ l.refreshEpoch)
      (fun x hx => by simp only [update_of_ne hx])
    rw [← h.pending] at hcount
    simpa [hnew] using hcount.symm

/-- A status that did not change is cached under the current version. -/
lemma History.setStatus_same (hsame : (decide ((status op).1 = v) && (status op).2) = active) :
    History now l reg (update status op (v, active)) v nr numActive := by
  have hold : status op = (v, true) ↔ active = true := by
    rw [← hsame, Bool.and_eq_true, decide_eq_true_eq, Prod.ext_iff]
  refine { h with status_le := h.status_le_update op active, recorded := ?_ }
  intro x
  by_cases hx : x = op
  · subst hx
    rw [h.recorded x, hold]
    simp
  · simpa [hx] using h.recorded x

/-- A status that changed is recorded from now on. -/
lemma History.setStatus_changed (hchg : (decide ((status op).1 = v) && (status op).2) ≠ active)
    (hn : if active then n = numActive + 1 else numActive = n + 1)
    (hrec : l.Recorded now op (if active then v + 1 else 0) n l') :
    History now l' reg (update status op (v, active)) v nr n ∧ Evolves now l l' := by
  have hold : status op = (v, true) ↔ active = false := by
    cases active <;> simp_all [Prod.ext_iff]
  have hvers : ∀ x, (l'.operatorActiveVersions x).Ordered now := by
    intro x
    by_cases hx : x = op
    · exact hx ▸ hrec.versions_ordered
    · exact hrec.others x hx ▸ h.versions x
  have hlat : (l'.operatorActiveVersions op).latest = if active then v + 1 else 0 := by
    rw [← (hvers op).lookup_now, hrec.versions, if_pos (le_refl now)]
  have hact : ∀ t, l'.activeOperatorCounts.upperLookup t = count (l'.ActiveAt t) := by
    intro t
    have hoth : ∀ x, x ≠ op → (l'.ActiveAt t x ↔ l.ActiveAt t x) := by
      intro x hx
      simp only [ActiveAt, hrec.others x hx, hrec.configurations]
    rw [hrec.counts]
    by_cases ht : now ≤ t
    · -- From now on the count moves with the operator.
      have hcount := count_write (a := op) hoth
      have hbef : l.ActiveAt t op ↔ active = false := by
        rw [← hold, ← h.recorded op, ActiveAt, (h.versions op).lookup_latest ht,
          h.configurations.lookup_latest ht, h.current]
        omega
      have hafter : l'.ActiveAt t op ↔ active = true := by
        rw [ActiveAt, (hvers op).lookup_latest ht, hlat,
          hrec.configurations, h.configurations.lookup_latest ht, h.current]
        cases active <;> simp
      rw [if_pos ht]
      simp only [hbef, hafter, ← h.active_count t, h.counts.lookup_latest ht,
        h.latest_count] at hcount
      cases active <;> simp at hcount hn <;> omega
    · rw [if_neg ht, h.active_count t]
      apply count_congr
      intro x
      by_cases hx : x = op
      · rw [hx, ActiveAt, ActiveAt, hrec.versions, if_neg ht, hrec.configurations]
      · exact (hoth x hx).symm
  have hpast : ∀ x, ∀ t < now, (l'.operatorActiveVersions x).upperLookup t =
      (l.operatorActiveVersions x).upperLookup t := by
    intro x t ht
    by_cases hx : x = op
    · rw [hx, hrec.versions, if_neg (Nat.not_le.2 ht)]
    · rw [hrec.others x hx]
  have hle : ∀ x, (l'.operatorActiveVersions x).latest ≤ v + 1 := by
    intro x
    by_cases hx : x = op
    · rw [hx, hlat]
      split_ifs <;> omega
    · rw [hrec.others x hx]
      exact h.recorded_le x
  have hstat : ∀ x, (l'.operatorActiveVersions x).latest = v + 1 ↔
      update status op (v, active) x = (v, true) := by
    intro x
    by_cases hx : x = op
    · rw [hx, hlat, update_self]
      cases active <;> simp
    · rw [hrec.others x hx, update_of_ne hx]
      exact h.recorded x
  have hcount : l'.activeOperatorCounts.latest = n := by
    rw [← hrec.counts_ordered.lookup_now, hrec.counts, if_pos (le_refl now)]
  obtain ⟨-, -, -, hcnts, hord, hconf, hepoch, hpend, hcompl, hepoc⟩ :=
    hrec
  cases l'
  subst hconf hepoch hpend hcompl hepoc
  constructor
  · exact { h with
      versions := hvers, counts := hord, status_le := h.status_le_update op active
      recorded_le := hle, active_count := hact, recorded := hstat, latest_count := hcount }
  · exact { Evolves.rfl (l := l) with
      versions := hpast
      counts := fun t ht => by rw [hcnts, if_neg (Nat.not_le.2 ht)] }

end

/-! ## Moves -/

/-- The invariant of a roster. -/
def Roster.History (now : ℕ) (r : Roster) : Prop :=
  Bonding.History now r.pool.eligibility r.registered r.status r.configurationVersion
    r.numRegistered r.numActive

section

variable {env : Env} {r r' : Roster} {op : Address} {pool : Pool} {n : ℕ} {active : Bool}

lemma Roster.History.updates (h : r.History env.now) (hupd : r.Updates env op pool n active) :
    (r.setStatus op pool n active).History env.now ∧
      Evolves env.now r.pool.eligibility pool.eligibility := by
  obtain ⟨this, requirements, hregis, hupd⟩ := hupd
  obtain ⟨p₁, p₂, admitted, hrefr, -, hsync, -, hcases⟩ := updateOperator_ok hupd
  have hfirst : Bonding.History env.now p₁.eligibility r.registered r.status
      r.configurationVersion r.numRegistered r.numActive ∧
      Evolves env.now r.pool.eligibility p₁.eligibility := by
    split_ifs at hrefr with hreg
    · obtain ⟨rfl, -⟩ := completeRefresh_ok h.started hrefr
      exact Bonding.History.refreshed h (hregis ▸ hreg)
    · obtain rfl := pure_ok.1 hrefr
      exact ⟨h, .rfl⟩
  obtain ⟨hhist, hevol⟩ := hfirst
  rw [← (Capacity.sync_keeps hsync).1.eligibility] at hhist hevol
  rcases hcases with ⟨hsame, rfl, rfl⟩ | ⟨hchg, -, hn, hrec⟩
  · exact ⟨hhist.setStatus_same hsame, hevol⟩
  · obtain ⟨hhist', hevol'⟩ := hhist.setStatus_changed hchg hn (hrec hhist.versions hhist.counts)
    exact ⟨hhist', hevol.trans hevol'⟩

/-- A new configuration makes every status stale. -/
lemma Records.invalidate (h : Records env.now p.eligibility reg status v nr)
    (hrun : invalidateConfiguration env v nr p = .ok (v', p')) :
    History env.now p'.eligibility reg status v' nr 0 ∧
      Evolves env.now p.eligibility p'.eligibility := by
  simp only [invalidateConfiguration, beginRefresh, run_ok, Prod.mk.injEq] at hrun
  obtain ⟨-, ⟨-, rfl⟩, vs, hvers, counts, hcnts, l, ⟨completed, hcompl, rfl⟩, p₁,
    hreset, rfl, rfl⟩ := hrun
  obtain ⟨hkeeps, hnow⟩ := Capacity.reset_keeps hreset
  rw [toUint48_of_lt hnow] at hvers hcnts
  have hvers' := push_records h.configurations hvers
  have hcnts' := push_records h.counts hcnts
  have hcompl' : completed = if nr = 0 then env.now else 0 := by
    split_ifs at hcompl ⊢
    · exact (safeUint48_ok.1 hcompl).2.symm
    · exact (pure_ok.1 hcompl).symm
  rw [hkeeps.eligibility]
  constructor
  · refine { h with
      epochs_le := fun x => (h.epochs_le x).trans (Nat.le_succ _)
      configurations := hvers'.ordered
      counts := hcnts'.ordered
      status_le := fun x => (h.status_le x).trans (Nat.le_succ _)
      recorded_le := fun x => (h.recorded_le x).trans (Nat.le_succ _)
      active_count := ?_
      current := hvers'.latest
      recorded := ?_
      latest_count := hcnts'.latest
      started := Nat.succ_ne_zero _
      pending := ?_
      completed := fun hne => hcompl'.trans (if_neg hne) }
    · intro t
      dsimp only
      by_cases ht : env.now ≤ t
      · rw [hcnts'.ordered.lookup_latest ht, hcnts'.latest]
        symm
        apply Finset.card_eq_zero.2
        apply Finset.filter_false_of_mem
        rintro x - ⟨-, heq⟩
        dsimp only at heq
        rw [(h.versions x).lookup_latest ht, hvers'.ordered.lookup_latest ht, hvers'.latest] at heq
        have := h.recorded_le x
        omega
      · rw [not_le] at ht
        rw [hcnts'.past t ht, h.active_count t]
        apply count_congr
        intro x
        simp only [ActiveAt, hvers'.past t ht]
    · intro x
      have hle := h.recorded_le x
      have hle' := h.status_le x
      constructor
      · intro heq
        dsimp only at heq
        omega
      · intro heq
        rw [heq] at hle'
        dsimp only at hle'
        omega
    · dsimp only
      rw [h.registered_count]
      apply count_congr
      intro x
      have := h.epochs_le x
      have hne : p.eligibility.refreshedEpochs x ≠ p.eligibility.refreshEpoch + 1 := by omega
      simp [hne]
  · exact {
      versions := fun _ _ _ => rfl
      configurations := hvers'.past
      counts := hcnts'.past
      epoch_le := Nat.le_succ _
      pending_le := fun heq => absurd heq (Nat.succ_ne_self _)
      completes := fun hzero => by
        dsimp only at hzero ⊢
        rw [hcompl', if_pos hzero, if_neg (fun hboth => Nat.succ_ne_self _ hboth.2)] }

lemma Roster.History.move (h : r.History env.now) (hmove : Move env r r') :
    r'.History env.now ∧ Evolves env.now r.pool.eligibility r'.pool.eligibility := by
  have keep : ∀ l, l = r.pool.eligibility →
      Bonding.History env.now l r.registered r.status r.configurationVersion r.numRegistered
        r.numActive ∧ Evolves env.now r.pool.eligibility l := by
    rintro - rfl
    exact ⟨h, .rfl⟩
  cases hmove with
  | @enter op p₁ p₂ hnew hexcl hstart =>
    simp only [excludeNewRegistration, ensureRefreshStarted,
      if_neg h.started, pure_bind, pure_ok] at hexcl
    have helig : p₂.eligibility = { r.pool.eligibility with
        refreshedEpochs := update r.pool.eligibility.refreshedEpochs op
          r.pool.eligibility.refreshEpoch } := by
      rw [Admission.start_eligibility hstart, ← hexcl]
    have henter := Bonding.History.enter h hnew
    rw [← helig] at henter
    refine ⟨henter, ?_⟩
    change Evolves env.now r.pool.eligibility p₂.eligibility
    rw [helig]
    exact { Evolves.rfl (l := r.pool.eligibility) with }
  | update hupd => exact h.updates hupd
  | @leave op p₁ p₂ n active hold hcomplete hupd =>
    obtain ⟨rfl, -⟩ := completeRefresh_ok h.started hcomplete
    obtain ⟨hhist, hevol⟩ := Bonding.History.refreshed h hold
    have hleave : (r.leave op { r.pool with
        eligibility := r.pool.eligibility.refreshed env.now op }).History env.now :=
      hhist.leave hold (refreshed_epoch _)
    obtain ⟨hhist', hevol'⟩ := hleave.updates hupd
    exact ⟨hhist', hevol.trans hevol'⟩
  | invalidate hrun => exact h.toRecords.invalidate hrun
  | own _ hrecord => exact keep _ (recordOwner_eligibility hrecord)
  | admissionPolicy hset => exact keep _ (Admission.setPolicy_eligibility hset)
  | identityPolicy hset => exact keep _ (Identity.setPolicy_eligibility hset)

lemma Roster.History.moves (h : r.History env.now) (hmoves : Moves env r r') :
    r'.History env.now ∧ Evolves env.now r.pool.eligibility r'.pool.eligibility := by
  induction hmoves with
  | refl => exact ⟨h, .rfl⟩
  | tail _ hmove ih =>
    obtain ⟨hhist, hevol⟩ := ih
    obtain ⟨hhist', hevol'⟩ := hhist.move hmove
    exact ⟨hhist', hevol.trans hevol'⟩

lemma Roster.History.mono (h : r.History now) (hle : now ≤ later) : r.History later :=
  { h with
    versions := fun x => (h.versions x).mono hle
    configurations := h.configurations.mono hle
    counts := h.counts.mono hle }

end

lemma records_blank (now : ℕ) :
    Records now Pool.blank.eligibility (fun _ => false) (fun _ => (0, false)) 0 0 where
  registered_count := by simp [count]
  epochs_le _ := le_refl _
  versions _ := .nil now
  configurations := .nil now
  counts := .nil now
  status_le _ := le_refl _
  recorded_le _ := Nat.zero_le _
  active_count t := by
    symm
    apply Finset.card_eq_zero.2
    apply Finset.filter_false_of_mem
    rintro x - ⟨hne, -⟩
    exact hne rfl

lemma Reachable.history (h : Reachable now s) : s.roster.History now := by
  refine h.roster_induction ?_ ?_ ?_
  · intro env this v pool hrun
    exact ((records_blank env.now).invalidate hrun).1
  · intro now later r hle hr
    exact hr.mono hle
  · intro env r r' hmove hr
    exact (hr.move hmove).1

/-- What may become of a state: time passes, calls return, and other accounts move the tokens. -/
inductive Later (now : ℕ) (s : State) : ℕ → State → Prop
  | refl : Later now s now s
  | wait (h : Later now s t s') (hle : t ≤ later) : Later now s later s'
  | call {env : Env} {s' s'' : State} {c : Call} (h : Later now s env.now s')
      (hsender : env.sender ≠ 0) (hexec : exec env s' c = .ok s'') : Later now s env.now s''
  | transfers {t : ℕ} {s' : State} {bondToken underlying : Erc20} (h : Later now s t s')
      (hbond : s'.bondToken s'.this ≤ bondToken s'.this)
      (hunderlying : s'.ticketToken.underlying s'.ticketToken.this ≤
        underlying s'.ticketToken.this) :
      Later now s t { s' with
        bondToken, ticketToken := { s'.ticketToken with underlying } }

/-- The records about the past stay as they are. -/
lemma Later.past (hlater : Later now s later s') (h : Reachable now s) :
    now ≤ later ∧ s'.roster.History later ∧ ∀ t < now,
      (∀ x, (s'.pool.eligibility.operatorActiveVersions x).upperLookup t =
        (s.pool.eligibility.operatorActiveVersions x).upperLookup t) ∧
      s'.pool.eligibility.configurationVersions.upperLookup t =
        s.pool.eligibility.configurationVersions.upperLookup t ∧
      s'.pool.eligibility.activeOperatorCounts.upperLookup t =
        s.pool.eligibility.activeOperatorCounts.upperLookup t := by
  induction hlater with
  | refl => exact ⟨le_refl _, h.history, fun t _ => ⟨fun _ => rfl, rfl, rfl⟩⟩
  | wait _ hle ih =>
    obtain ⟨hnow, hhist, hpast⟩ := ih
    exact ⟨hnow.trans hle, hhist.mono hle, hpast⟩
  | call _ hsender hexec ih =>
    obtain ⟨hnow, hhist, hpast⟩ := ih
    obtain ⟨hhist', hevol⟩ := hhist.moves (exec_step hsender hexec).moves
    refine ⟨hnow, hhist', fun t ht => ?_⟩
    obtain ⟨hvers, hconf, hcnts⟩ := hpast t ht
    have ht' := ht.trans_le hnow
    exact ⟨fun x => (hevol.versions x t ht').trans (hvers x),
      (hevol.configurations t ht').trans hconf, (hevol.counts t ht').trans hcnts⟩
  | transfers _ _ _ ih => exact ih

/-- The counters agree with the statuses they count, a refresh can always be booked and completes
when nobody is left, and the recorded counts of the past are right and final. -/
theorem eligibility_history_consistent {now : ℕ} {s : State} (h : Reachable now s) :
    s.numActiveOperators = (count fun x =>
      (s.operators x).eligibilityVersion = s.eligibilityConfigurationVersion ∧
        (s.operators x).active = true) ∧
    s.pool.eligibility.pendingRefreshes = (count fun x => (s.operators x).registered = true ∧
      s.pool.eligibility.refreshedEpochs x ≠ s.pool.eligibility.refreshEpoch) ∧
    (∀ env x, (s.operators x).registered = true → env.now < 2 ^ 48 →
      ∃ p, completeOperatorRefresh env s.numRegisteredOperators x s.pool = .ok p) ∧
    (s.pool.eligibility.pendingRefreshes ≠ 0 → s.pool.eligibility.refreshCompletedAt = 0) ∧
    (∀ env c s', env.now = now → env.sender ≠ 0 → exec env s c = .ok s' →
      s'.pool.eligibility.pendingRefreshes = 0 → s'.pool.eligibility.refreshCompletedAt =
        if s.pool.eligibility.pendingRefreshes = 0 ∧
          s'.pool.eligibility.refreshEpoch = s.pool.eligibility.refreshEpoch then
        s.pool.eligibility.refreshCompletedAt else now) ∧
    (∀ t < now, s.pool.eligibility.activeOperatorCounts.upperLookup t =
        count (s.pool.eligibility.ActiveAt t) ∧
      (s.pool.eligibility.configurationVersions.upperLookup t ≠ 0 →
        s.pool.eligibility.activeOperatorCounts.upperLookup t = count fun x =>
          (s.pool.eligibility.operatorActiveVersions x).upperLookup t =
            s.pool.eligibility.configurationVersions.upperLookup t)) ∧
    (∀ later s', Later now s later s' → ∀ t < now,
      (∀ x, (s'.pool.eligibility.operatorActiveVersions x).upperLookup t =
        (s.pool.eligibility.operatorActiveVersions x).upperLookup t) ∧
      s'.pool.eligibility.configurationVersions.upperLookup t =
        s.pool.eligibility.configurationVersions.upperLookup t ∧
      s'.pool.eligibility.activeOperatorCounts.upperLookup t =
        s.pool.eligibility.activeOperatorCounts.upperLookup t) := by
  have hhistory := h.history
  refine ⟨?_, hhistory.pending, ?_, hhistory.completed, ?_, ?_, ?_⟩
  · refine hhistory.numActive_eq.trans (count_congr fun x => ?_)
    simp [State.roster]
  · intro env x hregistered hnow
    exact completeRefresh_returns hhistory.started
      (fun hstale => hhistory.pending_pos hregistered hstale) hnow
  · rintro env c s' rfl hsender hexec hzero
    exact (hhistory.moves (exec_step hsender hexec).moves).2.completes hzero
  · intro t _
    refine ⟨hhistory.active_count t, fun hne => (hhistory.active_count t).trans ?_⟩
    refine count_congr fun x => ⟨fun hactive => hactive.2, fun heq => ⟨?_, heq⟩⟩
    exact fun hzero => hne (heq.symm.trans hzero)
  · intro later s' hlater t ht
    exact (hlater.past h).2.2 t ht

/-- The environment of a deployment in which every node runs a released version. -/
def readyEnv (sender : Address) : Env :=
  { deploymentEnv sender 1000 with nodeReleaseRegistry := fun _ => some 4 }

/-- The operator 7 becomes active. -/
def activeOperatorCalls : List (Env × Call) :=
  [(readyEnv 7, .setBondOwner 8), (readyEnv 8, .bondCiphernodeFor 7 100),
    (readyEnv 9, .setSlashingManager 6), (readyEnv 8, .registerOperatorFor 7),
    (readyEnv 8, .addTicketBalanceFor 7 100)]

theorem eligibility_history_consistent_active :
    ∃ s₀ s, deployed [] = .ok s₀ ∧ runCalls s₀ activeOperatorCalls = .ok s ∧
      s.numActiveOperators = 1 ∧ (count fun x =>
        (s.operators x).eligibilityVersion = s.eligibilityConfigurationVersion ∧
          (s.operators x).active = true) = 1 := by
  have hrun : ∃ s₀ s, deployed [] = .ok s₀ ∧ runCalls s₀ activeOperatorCalls = .ok s ∧
      s.numActiveOperators = 1 := ⟨_, _, rfl, rfl, rfl⟩
  obtain ⟨s₀, s, hdeployed, hcalls, hactive⟩ := hrun
  have hreachable := (Reachable.deployed (by simp) hdeployed).runCalls (by decide) hcalls
  have hcount := (eligibility_history_consistent hreachable).1
  exact ⟨s₀, s, hdeployed, hcalls, hactive, hcount.symm.trans hactive⟩

end Interfold.Bonding
