import Interfold.Library.Emission
import Interfold.Library.OrderedMap
import Interfold.Prover.ShareVerification

/-!
# Aggregation of a plaintext

The parties of the roster send their decryption shares, each with a C6 proof. As soon as there are
more than `T` of them they form a batch, whose proofs are verified. Shares that come later wait for
the next batch, which is needed when too many of the batch turn out to be bad.

The phases after the threshold decryption was asked for do not come back and are left out.
-/

namespace Interfold.PlaintextAggregation

open Links AssocList
open ShareVerification (BfvPreset PartyProofsToVerify ShareVerificationDispatched)
open CommitmentConsistency (VerificationKind)

/-! ## Phases -/

structure QueuedDecryptionShare where
  share : List Bytes
  proofs : List SignedProofPayload

abbrev C6Proofs : Type := OrderedMap ℕ (List SignedProofPayload)

structure Collecting where
  thresholdM : ℕ
  thresholdN : ℕ
  shares : OrderedMap ℕ (List Bytes)
  c6Proofs : C6Proofs
  seed : Bytes
  ciphertextOutput : List Bytes
  params : Bytes
  rejectedParties : Finset ℕ

structure VerifyingC6 where
  thresholdM : ℕ
  thresholdN : ℕ
  shares : OrderedMap ℕ (List Bytes)
  c6Proofs : C6Proofs
  ciphertextOutput : List Bytes
  params : Bytes
  seed : Bytes
  rejectedParties : Finset ℕ
  queuedShares : OrderedMap ℕ QueuedDecryptionShare

structure Computing where
  thresholdM : ℕ
  thresholdN : ℕ
  shares : List (ℕ × List Bytes)
  ciphertextOutput : List Bytes
  params : Bytes

/-- `ThresholdPlaintextAggregatorState`. -/
inductive State where
  | collecting (current : Collecting)
  | verifyingC6 (current : VerifyingC6)
  | computing (current : Computing)

def State.init (thresholdM thresholdN : ℕ) (seed : Bytes) (ciphertextOutput : List Bytes)
    (params : Bytes) : State :=
  .collecting
    { thresholdM
      thresholdN
      shares := .empty
      c6Proofs := .empty
      seed
      ciphertextOutput
      params
      rejectedParties := ∅ }

/-! ## Transitions -/

inductive Error where
  | shareCount (partyId supplied expectedOutputs : ℕ)
  | proofCount (partyId supplied expectedOutputs : ℕ)
  | noHonestCommittee
  | ciphertextCommitment

def startVerificationIfReady (current : Collecting) : State :=
  if current.shares.size ≤ current.thresholdM then .collecting current
  else .verifyingC6
    { thresholdM := current.thresholdM
      thresholdN := current.thresholdN
      shares := current.shares
      c6Proofs := current.c6Proofs
      ciphertextOutput := current.ciphertextOutput
      params := current.params
      seed := current.seed
      rejectedParties := current.rejectedParties
      queuedShares := .empty }

/-- The check that a bundle has a share and a proof for every output. -/
def checkCounts (partyId : ℕ) (share : List Bytes) (proofs : List SignedProofPayload)
    (expectedOutputs : ℕ) (next : State) : Except Error State :=
  if share.length ≠ expectedOutputs then
    .error (.shareCount partyId share.length expectedOutputs)
  else if proofs.length ≠ expectedOutputs then
    .error (.proofCount partyId proofs.length expectedOutputs)
  else .ok next

def addShare (partyId : ℕ) (share : List Bytes) (proofs : List SignedProofPayload) :
    State → Except Error State
  | .collecting current =>
    checkCounts partyId share proofs current.ciphertextOutput.length <| startVerificationIfReady <|
        if partyId ∉ current.rejectedParties ∧ partyId ∉ current.shares.keys then
          { current with
            shares := current.shares.insert partyId share
            c6Proofs := current.c6Proofs.insert partyId proofs }
        else current
  | .verifyingC6 current =>
    checkCounts partyId share proofs current.ciphertextOutput.length <| .verifyingC6 <|
        if partyId ∉ current.rejectedParties ∧ partyId ∉ current.shares.keys then
          { current with queuedShares := current.queuedShares.orInsert partyId ⟨share, proofs⟩ }
        else current
  | .computing current => .ok (.computing current)

/-- The batch is collected again without the rejected parties and with the shares that waited. -/
def retryCollection (current : VerifyingC6) (rejected : Finset ℕ) : State :=
  let rejectedParties := current.rejectedParties ∪ rejected
  let shares := current.queuedShares.entries.foldl
    (fun m e => m.orInsert e.1 e.2.share) current.shares
  let c6Proofs := current.queuedShares.entries.foldl
    (fun m e => m.orInsert e.1 e.2.proofs) current.c6Proofs
  startVerificationIfReady
    { thresholdM := current.thresholdM
      thresholdN := current.thresholdN
      shares := shares.retain fun party => party ∉ rejectedParties
      c6Proofs := c6Proofs.retain fun party => party ∉ rejectedParties
      seed := current.seed
      ciphertextOutput := current.ciphertextOutput
      params := current.params
      rejectedParties }

def handleMemberExpelled (partyId : ℕ) : State → State
  | .collecting current =>
    startVerificationIfReady
      { current with
        rejectedParties := insert partyId current.rejectedParties
        shares := current.shares.remove partyId
        c6Proofs := current.c6Proofs.remove partyId }
  | .verifyingC6 current =>
    .verifyingC6
      { current with
        rejectedParties := insert partyId current.rejectedParties
        queuedShares := current.queuedShares.remove partyId }
  | .computing current => .computing current

/-- No further share of the party is taken. -/
def State.isClosedFor (partyId : ℕ) : State → Bool
  | .collecting current =>
    partyId ∈ current.shares.keys ∨ partyId ∈ current.rejectedParties
  | .verifyingC6 current =>
    partyId ∈ current.shares.keys ∨ partyId ∈ current.queuedShares.keys ∨
      partyId ∈ current.rejectedParties
  | .computing _ => true

def State.ciphertextOutput : State → List Bytes
  | .collecting current => current.ciphertextOutput
  | .verifyingC6 current => current.ciphertextOutput
  | .computing current => current.ciphertextOutput

def planC6Dispatch (c6Proofs : C6Proofs) : List PartyProofsToVerify :=
  c6Proofs.entries.map fun e => ⟨e.1, e.2⟩

/-! ## The aggregator -/

/-- What is fixed for an aggregator: its committee, and the checks of signatures, domains and
commitments. -/
structure Context where
  e3Id : E3Id
  paramsPreset : BfvPreset
  committeeSize : CiphernodesCommitteeSize
  proofAggregationEnabled : Bool
  committeeAddresses : List Address
  committee_nodup : committeeAddresses.Nodup
  honestCommitteeAddresses : List Address
  /-- `SignedProofPayload::verify_address`; a signature that is malformed counts as wrong. -/
  verifyAddress : SignedProofPayload → Address → Bool
  c6HasCanonicalDomain : Proof → Bytes → Bool
  /-- `compute_ct_commitment_with_params`. -/
  ciphertextCommitment : Bytes → Option Key
  /-- The field `ct_commitment` of the public signals. -/
  ctCommitmentField : Proof → Option Key
  /-- `C6ShareVerifier`, which may not be available for the parameters. -/
  shareMatches : Option (Bytes → Proof → Bool)
  /-- `EventId::hash` of a request. -/
  eventId : ShareVerificationDispatched → Key

namespace Context

variable (ctx : Context)

/-- The parties whose owners belong to the honest committee. -/
def roster : Finset ℕ :=
  (Finset.range ctx.committeeAddresses.length).filter fun party =>
    ∃ address ∈ ctx.committeeAddresses[party]?, address ∈ ctx.honestCommitteeAddresses

/-- `node_owns_committee_party_slot`; `none` stands for a node that is not an address. -/
def nodeOwnsCommitteePartySlot (node : Option Address) (partyId : ℕ) : Bool :=
  match ctx.committeeAddresses[partyId]? with
  | none => false
  | some expected => node.any fun address =>
    address = expected ∧ address ∈ ctx.honestCommitteeAddresses

/-- `C6ShareVerifier::matches`. -/
def sharesMatch (shareMatches : Bytes → Proof → Bool) (shares : List Bytes)
    (proofs : List SignedProofPayload) : Bool :=
  !shares.isEmpty && shares.length = proofs.length &&
    (shares.zip proofs).all fun (share, proof) => shareMatches share proof.payload.proof

def shareIsAuthenticated (partyId : ℕ) (shares : List Bytes) (proofs : List SignedProofPayload)
    (ciphertexts : List Bytes) : Except Error Bool :=
  match ctx.committeeAddresses[partyId]? with
  | none => .ok false
  | some address =>
    if shares.isEmpty ∨ shares.length ≠ ciphertexts.length ∨
        proofs.length ≠ ciphertexts.length then .ok false
    else if address ∉ ctx.honestCommitteeAddresses ∨ ¬proofs.all fun proof =>
        proof.payload.e3Id = ctx.e3Id ∧ proof.payload.proofType = .c6ThresholdShareDecryption ∧
        proof.payload.proof.circuit = .thresholdShareDecryption ∧
        ctx.verifyAddress proof address then .ok false
    else if ¬(proofs.zip ciphertexts).all fun (proof, ciphertext) =>
        ctx.c6HasCanonicalDomain proof.payload.proof ciphertext then .ok false
    else match ciphertexts.mapM ctx.ciphertextCommitment with
      | none => .error .ciphertextCommitment
      | some commitments =>
        if commitments.length ≠ proofs.length ∨
            ¬(proofs.zip commitments).all fun (proof, expected) =>
              ctx.ctCommitmentField proof.payload.proof = some expected then .ok false
        else match ctx.shareMatches with
          | none => .ok false
          | some shareMatches => .ok (sharesMatch shareMatches shares proofs)

/-- `verify_shares_match_c6_commitments`: the parties whose shares do not match. -/
def shareMismatchParties (honestShares : List (ℕ × List Bytes)) (c6Proofs : C6Proofs) :
    Finset ℕ :=
  match ctx.shareMatches with
  | none => (honestShares.map Prod.fst).toFinset
  | some shareMatches => ((honestShares.filter fun e => !(c6Proofs.get e.1).any fun proofs =>
      sharesMatch shareMatches e.2 proofs).map Prod.fst).toFinset

def c6VerificationRequest (c6Proofs : C6Proofs) : ShareVerificationDispatched where
  e3Id := ctx.e3Id
  kind := .thresholdDecryptionProofs
  shareProofs := planC6Dispatch c6Proofs
  decryptionProofs := []
  preDishonest := ∅
  paramsPreset := ctx.paramsPreset
  committeeSize := ctx.committeeSize

def requestId (c6Proofs : C6Proofs) : Key := ctx.eventId (ctx.c6VerificationRequest c6Proofs)

/-- The parties of the honest committee that are not among `dishonest`. -/
def available (dishonest : Finset ℕ) : ℕ :=
  (ctx.committeeAddresses.zipIdx.filter fun (address, party) =>
    address ∈ ctx.honestCommitteeAddresses ∧ party ∉ dishonest).length

end Context

/-- `ThresholdPlaintextAggregator`, with what it keeps for a restart. -/
structure Aggregator where
  state : State
  honestC6Proofs : List (ℕ × List Proof)
  c6Outcomes : List (Key × Finset ℕ)
  honestC6ProofsForAgg : Option (List (ℕ × List Proof))
  thresholdDecryptionCorrelation : Option ℕ
  isAggregator : Bool
  startedAsAggregator : Bool
  effectsEnabled : Bool

inductive Published where
  | aggregationInputsReady
  | shareVerificationDispatched (request : ShareVerificationDispatched)
  | plaintextVerificationResumed (requestId : Key)
  | calculateThresholdDecryption (computing : Computing) (correlationId : ℕ)
  /-- The round fails at `CiphertextReady` with `DecryptionInvalidShares`. -/
  | e3Failed

structure VerificationComplete where
  e3Id : E3Id
  kind : VerificationKind
  dishonestParties : Finset ℕ
  causationId : Key
  isLocal : Bool

structure VerificationResumed where
  e3Id : E3Id
  requestId : Key
  isLocal : Bool

namespace Aggregator

variable (ctx : Context) (bus : Published → Bool) (correlationId : ℕ) (s : Aggregator)

def aggregationInputsReady : Bool :=
  match s.state with
  | .collecting _ => false
  | .verifyingC6 _ | .computing _ => true

/-- `aggregation_started`. -/
def aggregationStarted : Bool :=
  match s.state with
  | .collecting _ | .verifyingC6 _ => false
  | .computing _ => true

def canRunAggregationEffects : Bool := s.effectsEnabled && s.isAggregator

def canContinueAggregationEffects : Bool :=
  s.effectsEnabled && (s.isAggregator || s.startedAsAggregator)

def markStartedAsAggregator : Aggregator :=
  if s.canRunAggregationEffects then { s with startedAsAggregator := true } else s

/-- What `publish_inputs_ready` publishes, or `none` if the bus refuses it. -/
def publishInputsReady : Option (List Published) :=
  if ¬s.effectsEnabled ∨ ¬s.aggregationInputsReady then some []
  else if bus .aggregationInputsReady then some [.aggregationInputsReady] else none

/-- A batch whose outcome is known is resumed, another one is verified. -/
def verificationEvent (c6Proofs : C6Proofs) : Published :=
  match get s.c6Outcomes (ctx.requestId c6Proofs) with
  | some _ => .plaintextVerificationResumed (ctx.requestId c6Proofs)
  | none => .shareVerificationDispatched (ctx.c6VerificationRequest c6Proofs)

def dispatchC6Verification (c6Proofs : C6Proofs) : List Published × Aggregator :=
  let s := s.markStartedAsAggregator
  let event := s.verificationEvent ctx c6Proofs
  (if bus event then [event] else [], s)

/-- What the handlers do after a change that may have completed a batch. -/
def afterChange (wasReady : Bool) : List Published × Aggregator :=
  if wasReady ∨ ¬s.aggregationInputsReady then ([], s)
  else match s.publishInputsReady bus with
    | none => ([], s)
    | some out =>
      Emission.after out <|
        if s.canRunAggregationEffects then
          match s.state with
          | .verifyingC6 current => s.dispatchC6Verification ctx bus current.c6Proofs
          | .collecting _ | .computing _ => ([], s)
        else ([], s)

def addShare (partyId : ℕ) (share : List Bytes) (proofs : List SignedProofPayload) :
    Except Error Aggregator :=
  if s.state.isClosedFor partyId then .ok s
  else if ctx.honestCommitteeAddresses.isEmpty then .error .noHonestCommittee
  else match ctx.shareIsAuthenticated partyId share proofs s.state.ciphertextOutput with
    | .error e => .error e
    | .ok false => .ok s
    | .ok true => match PlaintextAggregation.addShare partyId share proofs s.state with
      | .error e => .error e
      | .ok state => .ok { s with state }

/-- A share that came with the answer whether its node is in the committee. -/
def handleDecryptionShare (found : Bool) (node : Option Address) (partyId : ℕ)
    (share : List Bytes) (proofs : List SignedProofPayload) : List Published × Aggregator :=
  if ¬found then ([], s)
  else if ¬ctx.nodeOwnsCommitteePartySlot node partyId then ([], s)
  else match s.addShare ctx partyId share proofs with
    | .error _ => ([], s)
    | .ok next => next.afterChange ctx bus s.aggregationInputsReady

/-- A member that was expelled or excluded. -/
def handleExpulsion (partyId : Option ℕ) : List Published × Aggregator :=
  match partyId with
  | none => ([], s)
  | some partyId =>
    let next := { s with state := handleMemberExpelled partyId s.state }
    next.afterChange ctx bus s.aggregationInputsReady

def failDecryptionRound : List Published × Aggregator :=
  if bus .e3Failed then
    ([.e3Failed],
      { s with
        honestC6ProofsForAgg := none
        thresholdDecryptionCorrelation := none })
  else ([], s)

def retryC6WithBackups (current : VerifyingC6) (dishonestParties : Finset ℕ) :
    List Published × Aggregator :=
  if ctx.available dishonestParties ≤ current.thresholdM then s.failDecryptionRound bus
  else
    let s := { s with state := retryCollection current dishonestParties }
    match s.state with
    | .verifyingC6 next => match s.publishInputsReady bus with
      | none => ([], s)
      | some out => Emission.after out (s.dispatchC6Verification ctx bus next.c6Proofs)
    | .collecting _ | .computing _ => ([], s)

def dispatchThresholdDecryption (computing : Computing) : Option (List Published) :=
  if bus (.calculateThresholdDecryption computing correlationId) then
    some [.calculateThresholdDecryption computing correlationId]
  else none

def applyC6VerificationOutcome (current : VerifyingC6) (outcome : Finset ℕ) :
    List Published × Aggregator :=
  let dishonestParties := current.rejectedParties ∪ outcome
  let honestShares := current.shares.entries.filter fun e => e.1 ∉ dishonestParties
  let mismatch := ctx.shareMismatchParties honestShares current.c6Proofs
  let dishonestParties := dishonestParties ∪ mismatch
  let honestShares := honestShares.filter fun e => e.1 ∉ mismatch
  if honestShares.length ≤ current.thresholdM then
    s.retryC6WithBackups ctx bus current dishonestParties
  else
    let honestC6 := (current.c6Proofs.entries.filter fun e => e.1 ∉ dishonestParties).map
      fun e => (e.1, e.2.map fun signed => signed.payload.proof)
    let s := { s with honestC6Proofs := honestC6 }
    let computing : Computing :=
      { thresholdM := current.thresholdM
        thresholdN := current.thresholdN
        shares := honestShares
        ciphertextOutput := current.ciphertextOutput
        params := current.params }
    match dispatchThresholdDecryption bus correlationId computing with
    | none => ([], s)
    | some out => (out,
      { s with
        thresholdDecryptionCorrelation := some correlationId
        honestC6ProofsForAgg := some honestC6
        state := .computing computing })

def applyCachedC6Outcome : List Published × Aggregator :=
  if ¬s.canContinueAggregationEffects then ([], s)
  else match s.state with
    | .collecting _ | .computing _ => ([], s)
    | .verifyingC6 current =>
      match get s.c6Outcomes (ctx.requestId current.c6Proofs) with
      | none => ([], s)
      | some outcome => s.applyC6VerificationOutcome ctx bus correlationId current outcome

/-- The first result for a request is kept, while there are not too many. -/
def recordC6Outcome (causationId : Key) (dishonestParties : Finset ℕ) : Aggregator :=
  if s.c6Outcomes.length < ctx.honestCommitteeAddresses.length + 1 then
    match get s.c6Outcomes causationId with
    | some _ => s
    | none => { s with c6Outcomes := put s.c6Outcomes causationId dishonestParties }
  else s

def handleC6VerificationComplete (msg : VerificationComplete) : List Published × Aggregator :=
  if msg.kind ≠ .thresholdDecryptionProofs ∨ ¬msg.isLocal ∨ msg.e3Id ≠ ctx.e3Id then ([], s)
  else match s.state with
    | .computing _ => ([], s)
    | .collecting _ | .verifyingC6 _ =>
      (s.recordC6Outcome ctx msg.causationId msg.dishonestParties).applyCachedC6Outcome ctx bus
        correlationId

def handleC6Resume (msg : VerificationResumed) : List Published × Aggregator :=
  if ¬s.canContinueAggregationEffects ∨ msg.e3Id ≠ ctx.e3Id ∨ ¬msg.isLocal then ([], s)
  else match s.state with
    | .collecting _ | .computing _ => ([], s)
    | .verifyingC6 batch =>
      if ctx.requestId batch.c6Proofs ≠ msg.requestId then ([], s)
      else s.applyCachedC6Outcome ctx bus correlationId

def resumeInFlightWork : List Published × Aggregator :=
  if ¬(s.canRunAggregationEffects ∨ (s.aggregationStarted ∧ s.canContinueAggregationEffects)) then
    ([], s)
  else
    let s := s.markStartedAsAggregator
    match s.state with
    | .collecting _ => ([], s)
    | .verifyingC6 current => s.dispatchC6Verification ctx bus current.c6Proofs
    | .computing current =>
      if ctx.proofAggregationEnabled ∧ s.honestC6ProofsForAgg = none then ([], s)
      else match dispatchThresholdDecryption bus correlationId current with
        | none => ([], s)
        | some out => (out, { s with thresholdDecryptionCorrelation := some correlationId })

def handleAggregatorChanged (e3Id : E3Id) (isAggregator : Bool) : List Published × Aggregator :=
  if e3Id ≠ ctx.e3Id ∨ isAggregator = s.isAggregator then ([], s)
  else
    let s := { s with isAggregator }
    if s.canRunAggregationEffects then s.resumeInFlightWork ctx bus correlationId else ([], s)

def handleEffectsEnabled : List Published × Aggregator :=
  let s := { s with effectsEnabled := true }
  match s.publishInputsReady bus with
  | none => ([], s)
  | some out => Emission.after out (s.resumeInFlightWork ctx bus correlationId)

end Aggregator

/-! ## Runs -/

inductive Event where
  | share (found : Bool) (node : Option Address) (partyId : ℕ) (share : List Bytes)
      (proofs : List SignedProofPayload)
  | expulsion (partyId : Option ℕ)
  | verificationComplete (msg : VerificationComplete)
  | verificationResumed (msg : VerificationResumed)
  | aggregatorChanged (e3Id : E3Id) (isAggregator : Bool)
  | effectsEnabled

/-- One event, with the correlation id of a request that it leads to and what the bus accepts. -/
structure Input where
  event : Event
  bus : Published → Bool
  correlationId : ℕ

def Aggregator.step (ctx : Context) (s : Aggregator) (input : Input) :
    List Published × Aggregator :=
  match input.event with
  | .share found node partyId share proofs =>
    s.handleDecryptionShare ctx input.bus found node partyId share proofs
  | .expulsion partyId => s.handleExpulsion ctx input.bus partyId
  | .verificationComplete msg =>
    s.handleC6VerificationComplete ctx input.bus input.correlationId msg
  | .verificationResumed msg => s.handleC6Resume ctx input.bus input.correlationId msg
  | .aggregatorChanged e3Id isAggregator =>
    s.handleAggregatorChanged ctx input.bus input.correlationId e3Id isAggregator
  | .effectsEnabled => s.handleEffectsEnabled ctx input.bus input.correlationId

end Interfold.PlaintextAggregation
