import Interfold.Aggregator.PlaintextAggregation

/-!
# What a step of the aggregation does

A step leaves the phase as it is, adds or rejects one party, or acts on the outcome that is recorded
for the batch in flight. Everything about runs follows from `step_spec`.
-/

namespace Interfold.PlaintextAggregation

open Links AssocList

namespace Context

variable (ctx : Context) (v : VerifyingC6) (outcome : Finset ℕ)

/-- The parties that are not used after an outcome: the rejected ones, those that the outcome names
and those whose shares do not match. -/
def excluded : Finset ℕ :=
  v.rejectedParties ∪ outcome ∪ ctx.shareMismatchParties
      (v.shares.entries.filter fun e => e.1 ∉ v.rejectedParties ∪ outcome) v.c6Proofs

def computingOf : Computing where
  thresholdM := v.thresholdM
  thresholdN := v.thresholdN
  shares := v.shares.entries.filter fun e => e.1 ∉ ctx.excluded v outcome
  ciphertextOutput := v.ciphertextOutput
  params := v.params

/-- The proofs that are kept with the shares. -/
def honestC6Of : List (ℕ × List Proof) :=
  (v.c6Proofs.entries.filter fun e => e.1 ∉ ctx.excluded v outcome).map
    fun e => (e.1, e.2.map fun signed => signed.payload.proof)

lemma filter_excluded :
    (v.shares.entries.filter fun e => e.1 ∉ v.rejectedParties ∪ outcome).filter (fun e =>
      e.1 ∉ ctx.shareMismatchParties
        (v.shares.entries.filter fun e => e.1 ∉ v.rejectedParties ∪ outcome) v.c6Proofs) =
      (ctx.computingOf v outcome).shares := by
  unfold computingOf excluded
  rw [List.filter_filter]
  apply List.filter_congr
  intro e _
  grind

end Context

/-- What can become of a phase, where `recorded` are the outcomes that are known of batches. -/
inductive Moves (ctx : Context) (recorded : C6Proofs → Option (Finset ℕ)) : State → State → Prop
  | stay (state : State) : Moves ctx recorded state state
  | arrive (c : Collecting) (partyId : ℕ) (share : List Bytes) (proofs : List SignedProofPayload)
      (hroster : partyId ∈ ctx.roster) (hrejected : partyId ∉ c.rejectedParties) :
      Moves ctx recorded (.collecting c) (startVerificationIfReady
        { c with
          shares := c.shares.insert partyId share
          c6Proofs := c.c6Proofs.insert partyId proofs })
  | queue (v : VerifyingC6) (partyId : ℕ) (queued : QueuedDecryptionShare)
      (hroster : partyId ∈ ctx.roster) :
      Moves ctx recorded (.verifyingC6 v)
        (.verifyingC6 { v with queuedShares := v.queuedShares.orInsert partyId queued })
  | expel (state : State) (partyId : ℕ) :
      Moves ctx recorded state (handleMemberExpelled partyId state)
  | retry (v : VerifyingC6) (outcome : Finset ℕ) (hrecorded : recorded v.c6Proofs = some outcome)
      (hfew : (ctx.computingOf v outcome).shares.length ≤ v.thresholdM)
      (havailable : v.thresholdM < ctx.available (ctx.excluded v outcome)) :
      Moves ctx recorded (.verifyingC6 v) (retryCollection v (ctx.excluded v outcome))
  | compute (v : VerifyingC6) (outcome : Finset ℕ) (hrecorded : recorded v.c6Proofs = some outcome)
      (hmany : v.thresholdM < (ctx.computingOf v outcome).shares.length) :
      Moves ctx recorded (.verifyingC6 v) (.computing (ctx.computingOf v outcome))

/-- The outcomes that an aggregator has recorded, by batch. -/
def Aggregator.recorded (ctx : Context) (s : Aggregator) (c6Proofs : C6Proofs) :
    Option (Finset ℕ) :=
  get s.c6Outcomes (ctx.requestId c6Proofs)

/-- The spec of a step from `s`. -/
structure StepSpec (ctx : Context) (s : Aggregator) (r : List Published × Aggregator) : Prop where
  moves : Moves ctx (r.2.recorded ctx) s.state r.2.state
  /-- A round that fails has too few parties left. -/
  failed : .e3Failed ∈ r.1 → ∃ v outcome, s.state = .verifyingC6 v ∧
    r.2.recorded ctx v.c6Proofs = some outcome ∧
    ctx.available (ctx.excluded v outcome) ≤ v.thresholdM
  /-- With the shares the proofs of the same batch are kept. -/
  retained : ∀ v outcome, s.state = .verifyingC6 v → r.2.recorded ctx v.c6Proofs = some outcome →
    r.2.state = .computing (ctx.computingOf v outcome) →
    r.2.honestC6Proofs = ctx.honestC6Of v outcome ∧
      r.2.honestC6ProofsForAgg = some (ctx.honestC6Of v outcome)

/-- A step that adds no outcome. -/
structure Keeps (ctx : Context) (s : Aggregator) (r : List Published × Aggregator) : Prop
    extends StepSpec ctx s r where
  outcomes : r.2.c6Outcomes = s.c6Outcomes

/-- A result of the C6 proofs that the aggregator listens to. -/
structure Context.Accepts (ctx : Context) (msg : VerificationComplete) : Prop where
  kind : msg.kind = .thresholdDecryptionProofs
  isLocal : msg.isLocal = true
  e3Id : msg.e3Id = ctx.e3Id

def Event.IsShareOrExpulsion : Event → Prop
  | .share .. | .expulsion _ => True
  | _ => False

/-- The spec of a step by its event. -/
structure StepEffect (ctx : Context) (s : Aggregator) (event : Event)
    (r : List Published × Aggregator) : Prop extends StepSpec ctx s r where
  /-- Outcomes are only added by results that the aggregator listens to. -/
  outcomes : r.2.c6Outcomes = s.c6Outcomes ∨ ∃ msg, event = .verificationComplete msg ∧
    ctx.Accepts msg ∧
      r.2.c6Outcomes = (s.recordC6Outcome ctx msg.causationId msg.dishonestParties).c6Outcomes
  /-- A share or an expulsion acts on no outcome. -/
  plain : event.IsShareOrExpulsion → ∀ recorded, Moves ctx recorded s.state r.2.state

lemma Keeps.effect (h : Keeps ctx s r) (hevent : ¬event.IsShareOrExpulsion) :
    StepEffect ctx s event r :=
  ⟨h.toStepSpec, .inl h.outcomes, fun hplain => absurd hplain hevent⟩

/-- A batch that is being verified stays until there is an outcome. -/
lemma Moves.undisturbed (h : Moves ctx (fun _ => none) (.verifyingC6 v) state) :
    ∃ v', state = .verifyingC6 v' ∧ v'.shares = v.shares ∧ v'.c6Proofs = v.c6Proofs := by
  cases h with
  | stay | queue | expel => exact ⟨_, rfl, rfl, rfl⟩
  | retry _ _ hrec | compute _ _ hrec => cases hrec

/-- A step that only publishes. -/
structure Frames (s : Aggregator) (r : List Published × Aggregator) : Prop where
  state : r.2.state = s.state
  c6Outcomes : r.2.c6Outcomes = s.c6Outcomes
  failed : .e3Failed ∉ r.1

namespace Frames

variable {s : Aggregator} {r : List Published × Aggregator}

lemma refl (s : Aggregator) : Frames s ([], s) := ⟨rfl, rfl, List.not_mem_nil⟩

lemma after (h : Frames s r) (hout : .e3Failed ∉ out) : Frames s (Emission.after out r) :=
  ⟨h.state, h.c6Outcomes, by simp [Emission.after, hout, h.failed]⟩

variable {ctx : Context}

/-- A step of the phase, followed by publications. -/
lemma spec {next : Aggregator} (h : Frames next r) (hkeep : next.c6Outcomes = s.c6Outcomes)
    (hmoves : Moves ctx (next.recorded ctx) s.state next.state)
    (hcomp : ∀ v c, s.state = .verifyingC6 v → next.state ≠ .computing c) : Keeps ctx s r := by
  have hrec : r.2.recorded ctx = next.recorded ctx := by
    unfold Aggregator.recorded
    rw [h.c6Outcomes]
  refine ⟨⟨?_, fun hfail => absurd hfail h.failed, ?_⟩, h.c6Outcomes.trans hkeep⟩
  · rw [hrec, h.state]
    exact hmoves
  · intro v outcome hstate _ hnext
    exact absurd (h.state ▸ hnext) (hcomp v _ hstate)

lemma spec_refl (h : Frames s r) : Keeps ctx s r := by
  refine h.spec rfl (.stay _) ?_
  intro v c hv
  simp [hv]

lemma plain_effect {next : Aggregator} (h : Frames next r) (hkeep : next.c6Outcomes = s.c6Outcomes)
    (hmoves : ∀ recorded, Moves ctx recorded s.state next.state) : StepEffect ctx s event r := by
  have hspec := h.spec hkeep (hmoves _) fun v c hv hc => by
    obtain ⟨v', hv', -⟩ := (hv ▸ hmoves fun _ => none).undisturbed
    cases hv'.symm.trans hc
  exact ⟨hspec.toStepSpec, .inl hspec.outcomes, fun _ => h.state ▸ hmoves⟩

end Frames

namespace Aggregator

variable {ctx : Context} {bus : Published → Bool} {cid : ℕ} {s : Aggregator}

lemma markStarted_frames (s : Aggregator) : s.markStartedAsAggregator.state = s.state ∧
      s.markStartedAsAggregator.c6Outcomes = s.c6Outcomes := by
  unfold markStartedAsAggregator
  split_ifs <;> exact ⟨rfl, rfl⟩

lemma publishInputsReady_quiet (h : s.publishInputsReady bus = some out) : .e3Failed ∉ out := by
  unfold publishInputsReady at h
  split_ifs at h <;> cases h <;> simp

lemma dispatchC6_frames (c6Proofs : C6Proofs) :
    Frames s (s.dispatchC6Verification ctx bus c6Proofs) := by
  refine ⟨(markStarted_frames s).1, (markStarted_frames s).2, ?_⟩
  have hevent : .e3Failed ≠ s.markStartedAsAggregator.verificationEvent ctx c6Proofs := by
    unfold verificationEvent
    cases get s.markStartedAsAggregator.c6Outcomes (ctx.requestId c6Proofs) <;> simp
  unfold dispatchC6Verification
  dsimp only
  split_ifs
  · simpa using hevent
  · simp

lemma afterChange_frames (wasReady : Bool) : Frames s (s.afterChange ctx bus wasReady) := by
  unfold afterChange
  by_cases hready : wasReady = true ∨ ¬s.aggregationInputsReady = true
  · rw [if_pos hready]
    exact .refl s
  · rw [if_neg hready]
    cases hout : s.publishInputsReady bus with
    | none => exact .refl s
    | some out =>
      refine Frames.after ?_ (publishInputsReady_quiet hout)
      split_ifs
      · cases s.state with
        | collecting _ => exact .refl s
        | verifyingC6 current => exact dispatchC6_frames current.c6Proofs
        | computing _ => exact .refl s
      · exact .refl s

/-! ## Shares and expulsions -/

variable {partyId : ℕ} {proofs : List SignedProofPayload} {share : List Bytes} {next state : State}

lemma mem_roster_of_authenticated
    (h : ctx.shareIsAuthenticated partyId shares proofs ciphertexts = .ok true) :
    partyId ∈ ctx.roster := by
  unfold Context.shareIsAuthenticated at h
  cases haddr : ctx.committeeAddresses[partyId]? with
  | none => simp [haddr] at h
  | some address =>
    obtain ⟨hlt, -⟩ := List.getElem?_eq_some_iff.1 haddr
    by_cases hhonest : address ∈ ctx.honestCommitteeAddresses
    · exact Finset.mem_filter.2 ⟨Finset.mem_range.2 hlt, address, haddr, hhonest⟩
    · simp [haddr, hhonest] at h

lemma checkCounts_ok (h : checkCounts partyId share proofs expected next = .ok state) :
    state = next := by
  unfold checkCounts at h
  split_ifs at h
  exact (Except.ok.inj h).symm

lemma addShare_moves_state (recorded : C6Proofs → Option (Finset ℕ))
    (hrost : partyId ∈ ctx.roster) (hclos : ¬state.isClosedFor partyId = true)
    (h : PlaintextAggregation.addShare partyId share proofs state = .ok next) :
    Moves ctx recorded state next := by
  cases state with
  | collecting c =>
    simp only [State.isClosedFor, decide_eq_true_eq, not_or] at hclos
    have hnext := checkCounts_ok h
    rw [if_pos ⟨hclos.2, hclos.1⟩] at hnext
    subst hnext
    exact .arrive c partyId share proofs hrost hclos.2
  | verifyingC6 v =>
    simp only [State.isClosedFor, decide_eq_true_eq, not_or] at hclos
    have hnext := checkCounts_ok h
    rw [if_pos ⟨hclos.2.2, hclos.1⟩] at hnext
    subst hnext
    exact .queue v partyId ⟨share, proofs⟩ hrost
  | computing c => simp [State.isClosedFor] at hclos

/-- A share that is accepted is added to the batch that is collected, or waits. -/
lemma addShare_moves {next : Aggregator} (h : s.addShare ctx partyId share proofs = .ok next) :
    next.c6Outcomes = s.c6Outcomes ∧ ∀ recorded, Moves ctx recorded s.state next.state := by
  unfold addShare at h
  by_cases hclos : s.state.isClosedFor partyId = true
  · rw [if_pos hclos] at h
    cases h
    exact ⟨rfl, fun _ => .stay _⟩
  rw [if_neg hclos] at h
  split_ifs at h
  cases hauth :
      ctx.shareIsAuthenticated partyId share proofs s.state.ciphertextOutput with
  | error e => simp [hauth] at h
  | ok authenticated =>
    cases authenticated with
    | false =>
      simp only [hauth, Except.ok.injEq] at h
      subst h
      exact ⟨rfl, fun _ => .stay _⟩
    | true =>
      have hrost := mem_roster_of_authenticated hauth
      cases hadd : PlaintextAggregation.addShare partyId share proofs s.state with
      | error e => simp [hauth, hadd] at h
      | ok state =>
        simp only [hauth, hadd, Except.ok.injEq] at h
        subst h
        exact ⟨rfl, fun recorded => addShare_moves_state recorded hrost hclos hadd⟩

lemma decryptionShare_spec (found : Bool) (node : Option Address) (partyId : ℕ)
    (share : List Bytes) (proofs : List SignedProofPayload) :
    StepEffect ctx s event (s.handleDecryptionShare ctx bus found node partyId share proofs) := by
  have hsame : StepEffect ctx s event ([], s) := (Frames.refl s).plain_effect rfl fun _ => .stay _
  unfold handleDecryptionShare
  split_ifs
  · cases hnext : s.addShare ctx partyId share proofs with
    | error e => exact hsame
    | ok next =>
      obtain ⟨hkeep, hmoves⟩ := addShare_moves hnext
      exact (afterChange_frames _).plain_effect hkeep hmoves
  · exact hsame
  · exact hsame

lemma expulsion_spec (partyId : Option ℕ) :
    StepEffect ctx s event (s.handleExpulsion ctx bus partyId) := by
  cases partyId with
  | none => exact (Frames.refl s).plain_effect rfl fun _ => .stay _
  | some partyId => exact (afterChange_frames _).plain_effect rfl fun _ => .expel s.state partyId

/-! ## Outcomes -/

lemma startVerification_ne_computing : startVerificationIfReady current ≠ .computing c := by
  unfold startVerificationIfReady
  split_ifs <;> simp

/-- What is done with an outcome of the batch in flight. -/
lemma applyOutcome_spec {v : VerifyingC6} {outcome : Finset ℕ}
    (hstate : s.state = .verifyingC6 v) (hrec : s.recorded ctx v.c6Proofs = some outcome) :
    Keeps ctx s (s.applyC6VerificationOutcome ctx bus cid v outcome) := by
  unfold applyC6VerificationOutcome
  dsimp only
  rw [Context.filter_excluded]
  change Keeps ctx s (if (ctx.computingOf v outcome).shares.length ≤ v.thresholdM then
    s.retryC6WithBackups ctx bus v (ctx.excluded v outcome) else _)
  split_ifs with hfew
  · unfold retryC6WithBackups
    split_ifs with havail
    · -- The round fails; the batch stays in flight.
      unfold failDecryptionRound
      split_ifs
      · refine ⟨⟨.stay _, fun _ => ⟨v, outcome, hstate, hrec, havail⟩, ?_⟩, rfl⟩
        intro v' outcome' _ _ hnext
        rw [hstate] at hnext
        cases hnext
      · exact (Frames.refl s).spec_refl
    · have hmoves : Moves ctx (s.recorded ctx) s.state
          (retryCollection v (ctx.excluded v outcome)) :=
        hstate ▸ .retry v outcome hrec hfew (not_le.1 havail)
      have hnext : ∀ c, retryCollection v (ctx.excluded v outcome) ≠ .computing c :=
        fun c => startVerification_ne_computing
      suffices hfram : Frames
          { s with state := retryCollection v (ctx.excluded v outcome) } _ from
        hfram.spec rfl hmoves fun _ c _ => hnext c
      dsimp only
      cases retryCollection v (ctx.excluded v outcome) with
      | collecting _ => exact .refl _
      | computing _ => exact .refl _
      | verifyingC6 next =>
        dsimp only
        cases hout : publishInputsReady bus { s with state := .verifyingC6 next } with
        | none => exact .refl _
        | some out =>
          exact (dispatchC6_frames next.c6Proofs).after (publishInputsReady_quiet hout)
  · have hmoves : Moves ctx (s.recorded ctx) s.state (.computing (ctx.computingOf v outcome)) :=
      hstate ▸ .compute v outcome hrec (not_le.1 hfew)
    unfold dispatchThresholdDecryption
    split_ifs
    · refine ⟨⟨hmoves, by simp, ?_⟩, rfl⟩
      intro v' outcome' hv' hrec' _
      obtain rfl : v = v' := State.verifyingC6.inj (hstate.symm.trans hv')
      obtain rfl : outcome = outcome' := Option.some.inj (hrec.symm.trans hrec')
      exact ⟨rfl, rfl⟩
    · refine ⟨⟨.stay _, by simp, ?_⟩, rfl⟩
      intro v' outcome' hv' _ hnext
      simp [hstate] at hnext

lemma applyCached_spec : Keeps ctx s (s.applyCachedC6Outcome ctx bus cid) := by
  unfold applyCachedC6Outcome
  split_ifs
  · cases hstate : s.state with
    | collecting _ => exact (Frames.refl s).spec_refl
    | computing _ => exact (Frames.refl s).spec_refl
    | verifyingC6 v =>
      dsimp only
      cases hrec : get s.c6Outcomes (ctx.requestId v.c6Proofs) with
      | none => exact (Frames.refl s).spec_refl
      | some outcome => exact applyOutcome_spec hstate hrec
  · exact (Frames.refl s).spec_refl

lemma recordC6_state (causationId : Key) (dishonest : Finset ℕ) :
    (s.recordC6Outcome ctx causationId dishonest).state = s.state := by
  unfold recordC6Outcome
  split_ifs
  · cases get s.c6Outcomes causationId <;> rfl
  · rfl

/-- A spec of the step after the outcome was recorded is one of the whole step. -/
lemma StepSpec.of_state (h : StepSpec ctx s' r) (hstate : s'.state = s.state) :
    StepSpec ctx s r :=
  ⟨hstate ▸ h.moves, fun hfail => hstate ▸ h.failed hfail,
    fun v outcome hv => h.retained v outcome (hstate.trans hv)⟩

lemma Keeps.of_state (h : Keeps ctx s' r) (hstate : s'.state = s.state)
    (hkeep : s'.c6Outcomes = s.c6Outcomes) : Keeps ctx s r :=
  ⟨StepSpec.of_state h.toStepSpec hstate, h.outcomes.trans hkeep⟩

lemma c6Complete_spec (msg : VerificationComplete) : StepEffect ctx s (.verificationComplete msg)
    (s.handleC6VerificationComplete ctx bus cid msg) := by
  have hsame : StepEffect ctx s (.verificationComplete msg) ([], s) :=
    (Frames.refl s).spec_refl.effect id
  unfold handleC6VerificationComplete
  split_ifs with hign
  · exact hsame
  · simp only [not_or, not_not] at hign
    have hcach : StepEffect ctx s (.verificationComplete msg)
        ((s.recordC6Outcome ctx msg.causationId msg.dishonestParties).applyCachedC6Outcome ctx bus
          cid) :=
      ⟨StepSpec.of_state applyCached_spec.toStepSpec (recordC6_state _ _),
        .inr ⟨msg, rfl, ⟨hign.1, hign.2.1, hign.2.2⟩, applyCached_spec.outcomes⟩, False.elim⟩
    cases s.state with
    | computing _ => exact hsame
    | collecting _ => exact hcach
    | verifyingC6 _ => exact hcach

lemma c6Resume_spec (msg : VerificationResumed) :
    Keeps ctx s (s.handleC6Resume ctx bus cid msg) := by
  unfold handleC6Resume
  split_ifs
  · exact (Frames.refl s).spec_refl
  · cases hstate : s.state with
    | collecting _ => exact (Frames.refl s).spec_refl
    | computing _ => exact (Frames.refl s).spec_refl
    | verifyingC6 v =>
      dsimp only
      split_ifs
      · exact (Frames.refl s).spec_refl
      · exact applyCached_spec

/-! ## Roles -/

lemma resumeWork_frames : Frames s (s.resumeInFlightWork ctx bus cid) := by
  have hmark := markStarted_frames s
  have hquiet : Frames s ([], s.markStartedAsAggregator) :=
    ⟨hmark.1, hmark.2, List.not_mem_nil⟩
  unfold resumeInFlightWork
  by_cases hrun : s.canRunAggregationEffects = true ∨
      s.aggregationStarted = true ∧ s.canContinueAggregationEffects = true
  · rw [if_neg (not_not.2 hrun)]
    dsimp only
    cases hstate : s.markStartedAsAggregator.state with
    | collecting _ => exact hquiet
    | verifyingC6 v =>
      have hdisp : Frames s.markStartedAsAggregator
          (s.markStartedAsAggregator.dispatchC6Verification ctx bus v.c6Proofs) :=
        dispatchC6_frames v.c6Proofs
      exact ⟨hdisp.state.trans hmark.1, hdisp.c6Outcomes.trans hmark.2, hdisp.failed⟩
    | computing c =>
      unfold dispatchThresholdDecryption
      dsimp only
      split_ifs
      · exact hquiet
      · exact ⟨hstate.symm.trans hmark.1, hmark.2, by simp⟩
      · exact hquiet
  · rw [if_pos hrun]
    exact .refl s

lemma aggregatorChanged_spec (e3Id : E3Id) (isAggregator : Bool) :
    Keeps ctx s (s.handleAggregatorChanged ctx bus cid e3Id isAggregator) := by
  unfold handleAggregatorChanged
  dsimp only
  split_ifs
  · exact (Frames.refl s).spec_refl
  · exact Keeps.of_state resumeWork_frames.spec_refl rfl rfl
  · exact Keeps.of_state (Frames.refl _).spec_refl rfl rfl

lemma effectsEnabled_spec : Keeps ctx s (s.handleEffectsEnabled ctx bus cid) := by
  unfold handleEffectsEnabled
  dsimp only
  cases hout : publishInputsReady bus { s with effectsEnabled := true } with
  | none => exact Keeps.of_state (Frames.refl _).spec_refl rfl rfl
  | some out =>
    have hresum : Frames { s with effectsEnabled := true } (Emission.after out
        (resumeInFlightWork ctx bus cid { s with effectsEnabled := true })) :=
      resumeWork_frames.after (publishInputsReady_quiet hout)
    exact Keeps.of_state hresum.spec_refl rfl rfl

lemma step_spec (input : Input) : StepEffect ctx s input.event (s.step ctx input) := by
  unfold step
  cases input.event with
  | share found node partyId share proofs =>
    exact decryptionShare_spec found node partyId share proofs
  | expulsion partyId => exact expulsion_spec partyId
  | verificationComplete msg => exact c6Complete_spec msg
  | verificationResumed msg => exact (c6Resume_spec msg).effect id
  | aggregatorChanged e3Id isAggregator => exact (aggregatorChanged_spec e3Id isAggregator).effect id
  | effectsEnabled => exact effectsEnabled_spec.effect id

end Aggregator

end Interfold.PlaintextAggregation
