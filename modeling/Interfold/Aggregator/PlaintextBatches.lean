import Interfold.Aggregator.PlaintextSteps

/-!
# The batches of a plaintext

Every batch that does not lead to a plaintext loses a member of the roster for good, so there are
at most as many batches as the roster has members beyond the threshold.
-/

namespace Interfold.PlaintextAggregation

open Links AssocList List OrderedMap

/-! ## The roster -/

namespace Context

variable (ctx : Context)

end Context

/-! ## What holds of every phase -/

def State.rejected : State → Finset ℕ
  | .collecting c => c.rejectedParties
  | .verifyingC6 v => v.rejectedParties
  | .computing _ => ∅

/-- The shares and the proofs of the same parties, all of them of the roster. -/
structure Paired (ctx : Context) (shares : OrderedMap ℕ (List Bytes)) (c6Proofs : C6Proofs) :
    Prop where
  same : shares.keys = c6Proofs.keys
  roster : shares.keys ⊆ ctx.roster

def Sound (ctx : Context) (T : ℕ) : State → Prop
  | .collecting c => c.thresholdM = T ∧ Paired ctx c.shares c.c6Proofs ∧
      Disjoint c.shares.keys c.rejectedParties
  | .verifyingC6 v => v.thresholdM = T ∧ Paired ctx v.shares v.c6Proofs ∧
      v.queuedShares.keys ⊆ ctx.roster ∧ T < v.shares.keys.card
  | .computing _ => True

section

variable {ctx : Context} {T : ℕ} {recorded : C6Proofs → Option (Finset ℕ)} {state state' : State}

lemma startVerification_sound (h : Sound ctx T (.collecting c)) :
    Sound ctx T (startVerificationIfReady c) := by
  obtain ⟨hT, hpair, hdisj⟩ := h
  unfold startVerificationIfReady
  split_ifs with hready
  · exact ⟨hT, hpair, hdisj⟩
  · refine ⟨hT, hpair, Finset.empty_subset _, ?_⟩
    rw [card_keys, ← hT]
    exact not_le.1 hready

lemma keys_foldl_orInsert {α β : Type} (f : β → α) (m : OrderedMap ℕ α) (l : List (ℕ × β)) :
    (l.foldl (fun m e => m.orInsert e.1 (f e.2)) m).keys = m.keys ∪ (l.map Prod.fst).toFinset := by
  induction l generalizing m with
  | nil => simp
  | cons e l ih =>
    rw [foldl_cons, ih, keys_orInsert, map_cons, toFinset_cons]
    grind

/-- What is collected again after a retry. -/
lemma retryCollection_eq (v : VerifyingC6) (rejected : Finset ℕ) :
    ∃ c, retryCollection v rejected = startVerificationIfReady c ∧
      c.thresholdM = v.thresholdM ∧ c.rejectedParties = v.rejectedParties ∪ rejected ∧
      c.shares.keys = (v.shares.keys ∪ v.queuedShares.keys) \ c.rejectedParties ∧
      c.c6Proofs.keys = (v.c6Proofs.keys ∪ v.queuedShares.keys) \ c.rejectedParties := by
  refine ⟨_, rfl, rfl, rfl, ?_, ?_⟩
  · dsimp only
    rw [keys_retain, keys_foldl_orInsert QueuedDecryptionShare.share]
    ext party
    simp [OrderedMap.keys]
  · dsimp only
    rw [keys_retain, keys_foldl_orInsert QueuedDecryptionShare.proofs]
    ext party
    simp [OrderedMap.keys]

/-- The moves of a sound phase, by what becomes of the batch. -/
inductive Follows (ctx : Context) (T : ℕ) : State → State → Prop
  | same (state : State) : Follows ctx T state state
  /-- The next batch is still collected, or begins. -/
  | collected (c c' : Collecting) (hsound : Sound ctx T (.collecting c'))
      (hrejected : c.rejectedParties ⊆ c'.rejectedParties) :
      Follows ctx T (.collecting c) (startVerificationIfReady c')
  | kept (v v' : VerifyingC6) (hsound : Sound ctx T (.verifyingC6 v'))
      (hshares : v'.shares = v.shares) (hproofs : v'.c6Proofs = v.c6Proofs)
      (hrejected : v.rejectedParties ⊆ v'.rejectedParties) :
      Follows ctx T (.verifyingC6 v) (.verifyingC6 v')
  /-- A batch is given up, and one of its members is rejected. -/
  | retried (v : VerifyingC6) (c' : Collecting) (hsound : Sound ctx T (.collecting c'))
      (hrejected : v.rejectedParties ⊆ c'.rejectedParties) (party : ℕ)
      (hmember : party ∈ v.shares.keys) (hparty : party ∈ c'.rejectedParties) :
      Follows ctx T (.verifyingC6 v) (startVerificationIfReady c')
  | computed (v : VerifyingC6) (c : Computing) : Follows ctx T (.verifyingC6 v) (.computing c)

/-- A batch with too few good members has one that is excluded. -/
lemma exists_excluded (hfew : (ctx.computingOf v out).shares.length ≤ v.thresholdM)
    (hsize : v.thresholdM < v.shares.keys.card) :
    ∃ party ∈ v.shares.keys, party ∈ ctx.excluded v out := by
  by_contra hnone
  push Not at hnone
  have hall : (ctx.computingOf v out).shares = v.shares.entries := by
    refine filter_eq_self.2 fun e he => decide_eq_true (hnone e.1 ?_)
    exact mem_keys_of_get (get_eq_some.2 he)
  rw [hall, ← size, ← card_keys] at hfew
  omega

lemma Moves.follows (hmoves : Moves ctx recorded state state') (h : Sound ctx T state) :
    Follows ctx T state state' := by
  cases hmoves with
  | stay => exact .same _
  | arrive c partyId share proofs hrost hrej =>
    obtain ⟨hT, hpair, hdisj⟩ := h
    refine .collected c _ ⟨hT, ⟨?_, ?_⟩, ?_⟩ subset_rfl
    · simp only [keys_insert, hpair.same]
    · simp only [keys_insert]
      exact Finset.insert_subset hrost hpair.roster
    · simp only [keys_insert]
      exact Finset.disjoint_insert_left.2 ⟨hrej, hdisj⟩
  | queue v partyId queued hrost =>
    obtain ⟨hT, hpair, hqueued, hsize⟩ := h
    refine .kept v _ ⟨hT, hpair, ?_, hsize⟩ rfl rfl subset_rfl
    simp only [keys_orInsert]
    exact Finset.insert_subset hrost hqueued
  | expel _ partyId =>
    cases state with
    | collecting c =>
      obtain ⟨hT, hpair, hdisj⟩ := h
      refine .collected c _ ⟨hT, ⟨?_, ?_⟩, ?_⟩ (Finset.subset_insert _ _)
      · simp only [keys_remove, hpair.same]
      · simp only [keys_remove]
        exact (Finset.erase_subset _ _).trans hpair.roster
      · simp only [keys_remove]
        exact Finset.disjoint_insert_right.2
          ⟨Finset.notMem_erase _ _, hdisj.mono_left (Finset.erase_subset _ _)⟩
    | verifyingC6 v =>
      obtain ⟨hT, hpair, hqueued, hsize⟩ := h
      refine .kept v _ ⟨hT, hpair, ?_, hsize⟩ rfl rfl (Finset.subset_insert _ _)
      simp only [keys_remove]
      exact (Finset.erase_subset _ _).trans hqueued
    | computing c => exact .same _
  | retry v out hrec hfew havail =>
    obtain ⟨hT, hpair, hqueued, hsize⟩ := h
    obtain ⟨c, heq, hM, hrej, hshrs, hproofs⟩ :=
      retryCollection_eq v (ctx.excluded v out)
    obtain ⟨party, hmember, hparty⟩ := exists_excluded hfew (hT.symm ▸ hsize)
    rw [heq]
    refine .retried v c ⟨hM.trans hT, ⟨?_, ?_⟩, ?_⟩ ?_ party hmember ?_
    · rw [hshrs, hproofs, hpair.same]
    · rw [hshrs]
      exact Finset.sdiff_subset.trans (Finset.union_subset hpair.roster hqueued)
    · rw [hshrs]
      exact Finset.sdiff_disjoint
    · rw [hrej]
      exact Finset.subset_union_left
    · rw [hrej]
      exact Finset.mem_union_right _ hparty
  | compute v out hrec hmany => exact .computed v _

lemma start_verifying (h : startVerificationIfReady c = .verifyingC6 v) :
    v.shares = c.shares ∧ v.c6Proofs = c.c6Proofs ∧ v.rejectedParties = c.rejectedParties := by
  unfold startVerificationIfReady at h
  split_ifs at h
  cases h
  exact ⟨rfl, rfl, rfl⟩

lemma start_rejected (c : Collecting) :
    (startVerificationIfReady c).rejected = c.rejectedParties := by
  unfold startVerificationIfReady
  split_ifs <;> rfl

lemma Follows.sound (hfol : Follows ctx T state state') (h : Sound ctx T state) :
    Sound ctx T state' := by
  cases hfol with
  | same => exact h
  | collected c c' hsound => exact startVerification_sound hsound
  | kept v v' hsound => exact hsound
  | retried v c' hsound => exact startVerification_sound hsound
  | computed => trivial

lemma Follows.of_computing (hfol : Follows ctx T (.computing c) state') :
    state' = .computing c := by
  cases hfol
  rfl

/-- Who is rejected stays so until the plaintext is computed. -/
lemma Follows.rejected (hfol : Follows ctx T state state') :
    state.rejected ⊆ state'.rejected ∨ ∃ c, state' = .computing c := by
  cases hfol with
  | same => exact .inl subset_rfl
  | collected c c' _ hrej => exact .inl (start_rejected c' ▸ hrej)
  | kept v v' _ _ _ hrej => exact .inl hrej
  | retried v c' _ hrej => exact .inl (start_rejected c' ▸ hrej)
  | computed v c => exact .inr ⟨c, rfl⟩

/-- A batch that was not in flight before has none of the parties that are rejected. -/
lemma Follows.batch (hfol : Follows ctx T state state') (hv : state' = .verifyingC6 v) :
    (∃ u, state = .verifyingC6 u ∧ u.shares = v.shares ∧ u.c6Proofs = v.c6Proofs) ∨
      Disjoint v.shares.keys v.rejectedParties := by
  have hnew : ∀ c, Sound ctx T (.collecting c) → startVerificationIfReady c = .verifyingC6 v →
      Disjoint v.shares.keys v.rejectedParties := by
    intro c hsound hstart
    obtain ⟨hshrs, -, hrej⟩ := start_verifying hstart
    rw [hshrs, hrej]
    exact hsound.2.2
  cases hfol with
  | same => exact .inl ⟨v, hv, rfl, rfl⟩
  | collected c c' hsound => exact .inr (hnew c' hsound hv)
  | kept u v' _ hshrs hproofs =>
    cases hv
    exact .inl ⟨u, rfl, hshrs.symm, hproofs.symm⟩
  | retried u c' hsound => exact .inr (hnew c' hsound hv)
  | computed => cases hv

end

/-! ## The number of batches -/

/-- The batches that were in flight, with the one that is. -/
def State.visit (visited : Finset C6Proofs) : State → Finset C6Proofs
  | .verifyingC6 v => insert v.c6Proofs visited
  | .collecting _ | .computing _ => visited

/-- Every batch that is over has cost the roster a member, and no member of the batch in flight. -/
def Counted (ctx : Context) (visited : Finset C6Proofs) : State → Prop
  | .collecting c => visited.card ≤ (ctx.roster ∩ c.rejectedParties).card
  | .verifyingC6 v => ∃ lost ⊆ ctx.roster ∩ v.rejectedParties, Disjoint lost v.shares.keys ∧
      (visited.erase v.c6Proofs).card ≤ lost.card
  | .computing _ => True

section

variable {ctx : Context} {T : ℕ} {vis : Finset C6Proofs} {state state' : State}

lemma start_counted (hsound : Sound ctx T (.collecting c))
    (hcount : vis.card ≤ (ctx.roster ∩ c.rejectedParties).card) :
    Counted ctx ((startVerificationIfReady c).visit vis) (startVerificationIfReady c) := by
  unfold startVerificationIfReady
  split_ifs
  · exact hcount
  · refine ⟨ctx.roster ∩ c.rejectedParties, subset_rfl, ?_, ?_⟩
    · exact (hsound.2.2.mono_right Finset.inter_subset_right).symm
    · refine le_trans ?_ hcount
      simp only [State.visit, Finset.erase_insert_eq_erase]
      exact Finset.card_erase_le

/-- The batches together are not more than the members of the roster beyond the threshold. -/
lemma card_visit_le (hsound : Sound ctx T (.verifyingC6 v))
    (hcount : Counted ctx vis (.verifyingC6 v)) : vis.card ≤ ctx.roster.card - T := by
  obtain ⟨-, hpair, -, hsize⟩ := hsound
  obtain ⟨lost, hlost, hdisj, hcard⟩ := hcount
  have hrost : lost.card + v.shares.keys.card ≤ ctx.roster.card := by
    rw [← Finset.card_union_of_disjoint hdisj]
    apply Finset.card_le_card
    exact Finset.union_subset (hlost.trans Finset.inter_subset_left) hpair.roster
  have herase := Finset.pred_card_le_card_erase (s := vis) (a := v.c6Proofs)
  omega

lemma Follows.counted (hfol : Follows ctx T state state') (hsound : Sound ctx T state)
    (hcount : Counted ctx vis state) (hvisit : state.visit vis = vis) :
    Counted ctx (state'.visit vis) state' := by
  cases hfol with
  | same => rwa [hvisit]
  | collected c c' hsound' hrej =>
    refine start_counted hsound' (hcount.trans (Finset.card_le_card ?_))
    exact Finset.inter_subset_inter_left hrej
  | kept v v' hsound' hshrs hproofs hrej =>
    obtain ⟨lost, hlost, hdisj, hcard⟩ := hcount
    refine ⟨lost, hlost.trans (Finset.inter_subset_inter_left hrej), hshrs ▸ hdisj, ?_⟩
    simpa only [State.visit, hproofs, Finset.erase_insert_eq_erase] using hcard
  | retried v c' hsound' hrej party hmember hparty =>
    -- The member that is rejected now was not lost before.
    obtain ⟨lost, hlost, hdisj, hcard⟩ := hcount
    have hnew : party ∉ lost := fun hmem => Finset.disjoint_left.1 hdisj hmem hmember
    have hmore : insert party lost ⊆ ctx.roster ∩ c'.rejectedParties := by
      refine Finset.insert_subset (Finset.mem_inter.2 ⟨hsound.2.1.roster hmember, hparty⟩) ?_
      exact hlost.trans (Finset.inter_subset_inter_left hrej)
    have herase := Finset.pred_card_le_card_erase (s := vis) (a := v.c6Proofs)
    have hlarg := Finset.card_le_card hmore
    rw [Finset.card_insert_of_notMem hnew] at hlarg
    exact start_counted hsound' (by omega)
  | computed => trivial

end

/-! ## Runs -/

section

variable (ctx : Context)

/-- The states that are reached by events that are allowed, with the batches on the way. -/
inductive Runs (allowed : Finset C6Proofs → Event → Prop) (start : Aggregator) :
    Aggregator → Finset C6Proofs → Prop
  | start : Runs allowed start start (start.state.visit ∅)
  | step {s : Aggregator} {visited : Finset C6Proofs} (input : Input)
      (hrun : Runs allowed start s visited) (hallowed : allowed visited input.event) :
      Runs allowed start (s.step ctx input).2 ((s.step ctx input).2.state.visit visited)

/-- An aggregator that begins to collect. -/
structure Starts (T : ℕ) (s : Aggregator) : Prop where
  state : ∃ thresholdN seed ciphertextOutput params,
    s.state = .init T thresholdN seed ciphertextOutput params
  c6Outcomes : s.c6Outcomes = []

variable {ctx} {T : ℕ} {allowed : Finset C6Proofs → Event → Prop} {start s : Aggregator}
  {vis : Finset C6Proofs}

/-- What holds in every state of a run. -/
structure RunInvariant (ctx : Context) (T : ℕ) (s : Aggregator) (visited : Finset C6Proofs) :
    Prop where
  sound : Sound ctx T s.state
  counted : Counted ctx visited s.state
  current : s.state.visit visited = visited
  bound : visited.card ≤ ctx.roster.card - T

lemma visit_visit (state : State) (vis : Finset C6Proofs) :
    state.visit (state.visit vis) = state.visit vis := by
  cases state with
  | collecting _ => rfl
  | verifyingC6 v => exact Finset.insert_idem _ _
  | computing _ => rfl

lemma RunInvariant.init (hstart : Starts T start) :
    RunInvariant ctx T start (start.state.visit ∅) := by
  obtain ⟨n, seed, outputs, params, hstate⟩ := hstart.state
  refine ⟨?_, ?_, ?_, ?_⟩
  · rw [hstate]
    exact ⟨rfl, ⟨rfl, Finset.empty_subset _⟩, Finset.disjoint_empty_left _⟩
  · rw [hstate]
    exact Nat.zero_le _
  · exact visit_visit _ _
  · rw [hstate]
    exact Nat.zero_le _

lemma RunInvariant.step (h : RunInvariant ctx T s vis) (input : Input) :
    RunInvariant ctx T (s.step ctx input).2 ((s.step ctx input).2.state.visit vis) := by
  have hfol := (Aggregator.step_spec input).moves.follows h.sound
  have hsound := hfol.sound h.sound
  have hcnt := hfol.counted h.sound h.counted h.current
  refine ⟨hsound, hcnt, visit_visit _ _, ?_⟩
  cases hstate : (s.step ctx input).2.state with
  | collecting c => exact h.bound
  | verifyingC6 v =>
    rw [hstate] at hsound hcnt
    exact card_visit_le hsound hcnt
  | computing c => exact h.bound

/-- A party that was rejected is in a batch only if that batch was in flight when it was. -/
lemma Runs.rejected (hsound : Sound ctx T start.state) (hrun : Runs ctx allowed start s vis)
    (hparty : party ∈ start.state.rejected) :
    Sound ctx T s.state ∧ (party ∈ s.state.rejected ∨ ∃ c, s.state = .computing c) ∧
      ∀ v, s.state = .verifyingC6 v → party ∈ v.shares.keys →
        ∃ u, start.state = .verifyingC6 u ∧ u.shares = v.shares ∧ u.c6Proofs = v.c6Proofs := by
  induction hrun with
  | start => exact ⟨hsound, .inl hparty, fun v hv _ => ⟨v, hv, rfl, rfl⟩⟩
  | @step s vis input _ _ ih =>
    obtain ⟨hs, hrej, hbatch⟩ := ih
    have hfol := (Aggregator.step_spec input).moves.follows hs
    have hrej' : party ∈ (s.step ctx input).2.state.rejected ∨
        ∃ c, (s.step ctx input).2.state = .computing c := by
      rcases hrej with hrej | ⟨c, hc⟩
      · exact hfol.rejected.imp_left fun hsub => hsub hrej
      · exact .inr ⟨c, (hc ▸ hfol).of_computing⟩
    refine ⟨hfol.sound hs, hrej', ?_⟩
    intro v hv hmember
    rcases hfol.batch hv with ⟨u, hu, hshrs, hproofs⟩ | hdisj
    · obtain ⟨w, hw, hshrs', hproofs'⟩ := hbatch u hu (hshrs ▸ hmember)
      exact ⟨w, hw, hshrs'.trans hshrs, hproofs'.trans hproofs⟩
    · rcases hrej' with hrej' | ⟨c, hc⟩
      · rw [hv] at hrej'
        exact absurd hrej' (Finset.disjoint_left.1 hdisj hmember)
      · rw [hv] at hc
        cases hc

end

end Interfold.PlaintextAggregation
