import Interfold.Events.SignedProof
import Interfold.Library.AssocList
import Interfold.Library.Replays
import Interfold.Slashing.CommitmentConsistency

/-!
# Share verification

A batch of proof bundles goes through three stages: the signatures and the shape of every bundle,
the consistency of the commitments, and the proofs themselves. The stages run in other actors, so
what is known of a batch is kept between them.

Both kinds of bundles, of shares and of decryptions, are checked alike.
-/

namespace Interfold.ShareVerification

open Links AssocList
open CommitmentConsistency (VerificationKind PartyProofData CheckRequested CheckComplete
  ProofVerificationPassed)

/-! ## Inputs -/

inductive BfvPreset where
  | insecureThreshold64
  | insecureDkg64
  | secureThreshold8192
  | secureDkg8192
deriving DecidableEq

def BfvPreset.thresholdCounterpart : BfvPreset → Option BfvPreset
  | insecureDkg64 => some insecureThreshold64
  | secureDkg8192 => some secureThreshold8192
  | insecureThreshold64 | secureThreshold8192 => none

/-- `metadata().num_moduli`. -/
def BfvPreset.numModuli : BfvPreset → ℕ
  | insecureThreshold64 | secureThreshold8192 => 3
  | insecureDkg64 | secureDkg8192 => 2

structure PartyProofsToVerify where
  senderPartyId : ℕ
  signedProofs : List SignedProofPayload
deriving DecidableEq

structure PartyShareDecryptionProofsToVerify where
  senderPartyId : ℕ
  signedSkDecryptionProof : SignedProofPayload
  signedESmDecryptionProofs : List SignedProofPayload
deriving DecidableEq

/-- `VerifiableParty`. -/
inductive Party where
  | share (p : PartyProofsToVerify)
  | decryption (p : PartyShareDecryptionProofsToVerify)
deriving DecidableEq

def Party.partyId : Party → ℕ
  | share p => p.senderPartyId
  | decryption p => p.senderPartyId

def Party.signedProofs : Party → List SignedProofPayload
  | share p => p.signedProofs
  | decryption p => p.signedSkDecryptionProof :: p.signedESmDecryptionProofs

structure ShareVerificationDispatched where
  e3Id : E3Id
  kind : VerificationKind
  shareProofs : List PartyProofsToVerify
  decryptionProofs : List PartyShareDecryptionProofsToVerify
  preDishonest : Finset ℕ
  paramsPreset : BfvPreset
  committeeSize : CiphernodesCommitteeSize

/-- The bundles that the kind of a dispatch is about. -/
def ShareVerificationDispatched.parties (data : ShareVerificationDispatched) : List Party :=
  match data.kind with
  | .shareProofs | .thresholdDecryptionProofs | .pkGenerationProofs => data.shareProofs.map .share
  | .decryptionProofs => data.decryptionProofs.map .decryption

structure PartyVerificationResult where
  senderPartyId : ℕ
  allVerified : Bool
  failedSignedPayload : Option SignedProofPayload
  recoveredAddress : Option Address
deriving DecidableEq

/-- The recovery of signers, the hash and the encoding of a proof. -/
structure Crypto where
  recoverAddress : SignedProofPayload → Option Address
  keccak256 : Bytes → Key
  abiEncode : Bytes → Bytes → Bytes

def Crypto.proofDataHash (crypto : Crypto) (signed : SignedProofPayload) : Key :=
  crypto.keccak256 (crypto.abiEncode signed.payload.proof.data signed.payload.proof.publicSignals)

/-! ## Signatures -/

def hasCanonicalProofShape (kind : VerificationKind) (signedProofs : List SignedProofPayload)
    (paramsPreset : BfvPreset) : Bool :=
  let types := signedProofs.map fun signed => signed.payload.proofType
  match kind with
  | .pkGenerationProofs => types.length = 1 ∧ types[0]? = some .c1PkGeneration
  | .shareProofs =>
    let numShareRows := (paramsPreset.thresholdCounterpart.getD paramsPreset).numModuli
    types.length = 2 + 2 * numShareRows ∧
      types[0]? = some .c2aSkShareComputation ∧ types[1]? = some .c2bESmShareComputation ∧
      (∀ type ∈ (types.drop 2).take numShareRows, type = .c3aSkShareEncryption) ∧
      ∀ type ∈ types.drop (2 + numShareRows), type = .c3bESmShareEncryption
  | .decryptionProofs =>
    2 ≤ types.length ∧ types[0]? = some .c4aSkShareDecryption ∧
      ∀ type ∈ types.drop 1, type = .c4bESmShareDecryption
  | .thresholdDecryptionProofs =>
    types ≠ [] ∧ ∀ type ∈ types, type = .c6ThresholdShareDecryption

structure EcdsaPartyResult where
  passed : Bool
  failedPayload : Option (SignedProofPayload × Option Address)

section

variable (crypto : Crypto)

/-- The loop of `ecdsa_validate_signed_proofs`. -/
def ecdsaLoop (e3Id : E3Id) (expectedSigner : Address) :
    Option Address → List SignedProofPayload → EcdsaPartyResult
  | _, [] => ⟨true, none⟩
  | expectedAddr, signed :: rest =>
    if signed.payload.e3Id ≠ e3Id then ⟨false, none⟩
    else match crypto.recoverAddress signed with
      | none => ⟨false, none⟩
      | some addr =>
        if addr ≠ expectedSigner then ⟨false, none⟩
        else if expectedAddr.any fun expected => expected ≠ addr then ⟨false, none⟩
        else if signed.payload.proof.circuit ∉ signed.payload.proofType.circuitNames then
          ⟨false, none⟩
        else ecdsaLoop e3Id expectedSigner (some addr) rest

def ecdsaValidateSignedProofs (signedProofs : List SignedProofPayload) (e3Id : E3Id)
    (expectedSigner : Option Address) : EcdsaPartyResult :=
  if signedProofs.isEmpty then ⟨false, none⟩
  else match expectedSigner with
    | none => ⟨false, none⟩
    | some expectedSigner => ecdsaLoop crypto e3Id expectedSigner none signedProofs

structure EcdsaFailure where
  partyId : ℕ
  signed : SignedProofPayload
  recovered : Option Address

/-- What the loop over the parties collects. -/
structure Validated where
  ecdsaDishonest : Finset ℕ
  failures : List EcdsaFailure
  passed : List Party

/-- A committee that gives every slot to one member and has as many as it should. -/
def usableCommittee (committeeSize : CiphernodesCommitteeSize) (committee : Option (List Address)) :
    Option (List Address) :=
  committee.filter fun members => members.Nodup ∧ members.length = committeeSize.values.n

def validateParty (data : ShareVerificationDispatched) (committee : Option (List Address))
    (conflicting : Finset ℕ) (v : Validated) (party : Party) : Validated :=
  let id := party.partyId
  let proofs := party.signedProofs
  if id ∈ conflicting then { v with ecdsaDishonest := insert id v.ecdsaDishonest }
  else if ¬hasCanonicalProofShape data.kind proofs data.paramsPreset then
    { v with ecdsaDishonest := insert id v.ecdsaDishonest }
  else
    let expectedSigner := committee.bind fun members => members[id]?
    let result := ecdsaValidateSignedProofs crypto proofs data.e3Id expectedSigner
    if result.passed then { v with passed := v.passed ++ [party] }
    else
      { v with
        ecdsaDishonest := insert id v.ecdsaDishonest
        failures := v.failures ++ match result.failedPayload with
          | some (signed, recovered) => [⟨id, signed, recovered⟩]
          | none => [] }

def validate (data : ShareVerificationDispatched) (committee : Option (List Address)) :
    Validated :=
  let unique := Replays.collapse Party.partyId data.parties
  unique.kept.foldl
    (validateParty crypto data (usableCommittee data.committeeSize committee) unique.conflicting)
    ⟨∅, [], []⟩

/-- `EcdsaValidationOutcome`: the result with what is cached of every party that passed. -/
structure EcdsaValidationOutcome where
  ecdsaDishonest : Finset ℕ
  failures : List EcdsaFailure
  ecdsaPassedParties : List Party
  partyAddresses : List (ℕ × Address)
  partyProofHashes : List (ℕ × List (ProofType × Key))
  partyPublicSignals : List (ℕ × List (ProofType × Bytes))
  partyProofData : List (ℕ × List (ProofType × Bytes))
  consistencyPartyData : List PartyProofData

def proofHashes (party : Party) : List (ProofType × Key) :=
  party.signedProofs.map fun signed => (signed.payload.proofType, crypto.proofDataHash signed)

def publicSignals (party : Party) : List (ProofType × Bytes) :=
  party.signedProofs.map fun signed =>
    (signed.payload.proofType, signed.payload.proof.publicSignals)

def proofData (party : Party) : List (ProofType × Bytes) :=
  party.signedProofs.map fun signed => (signed.payload.proofType, signed.payload.proof.data)

/-- The signer of the first proof. -/
def firstSigner (party : Party) : Option Address :=
  party.signedProofs.head?.bind crypto.recoverAddress

def validateAndPrepare (data : ShareVerificationDispatched) (committee : Option (List Address)) :
    EcdsaValidationOutcome :=
  let v := validate crypto data committee
  let addresses := ofList (v.passed.filterMap fun party =>
    (firstSigner crypto party).map fun addr => (party.partyId, addr))
  let hashes := ofList (v.passed.map fun party => (party.partyId, proofHashes crypto party))
  let signals := ofList (v.passed.map fun party => (party.partyId, publicSignals party))
  let datas := ofList (v.passed.map fun party => (party.partyId, proofData party))
  { ecdsaDishonest := v.ecdsaDishonest
    failures := v.failures
    ecdsaPassedParties := v.passed
    partyAddresses := addresses
    partyProofHashes := hashes
    partyPublicSignals := signals
    partyProofData := datas
    consistencyPartyData := v.passed.map fun party =>
      { partyId := party.partyId
        address := (get addresses party.partyId).getD 0
        proofs := ((((get signals party.partyId).getD []).zip
            ((get hashes party.partyId).getD [])).zip ((get datas party.partyId).getD [])).map
          fun ((signal, hash), data) => (signal.1, signal.2, hash.2, data.2) } }

/-! ## Results of the workers -/

inductive ZkPartyEmission where
  | failed (partyId : ℕ) (signed : SignedProofPayload)
  | passed (partyId : ℕ)

structure ZkTallyOutcome where
  dishonest : Finset ℕ
  emissions : List ZkPartyEmission

def tallyResult (conflicting : Finset ℕ) (t : ZkTallyOutcome) (result : PartyVerificationResult) :
    ZkTallyOutcome :=
  let id := result.senderPartyId
  if id ∈ conflicting then { t with dishonest := insert id t.dishonest }
  else if ¬result.allVerified then
    { dishonest := insert id t.dishonest
      emissions := t.emissions ++ match result.failedSignedPayload with
        | some signed => [.failed id signed]
        | none => [] }
  else { t with emissions := t.emissions ++ [.passed id] }

/-- `tally_zk_results`. Parties without a result count as dishonest. -/
def tallyZkResults (preDishonest ecdsaDishonest dispatchedPartyIds : Finset ℕ)
    (zkResults : List PartyVerificationResult) : ZkTallyOutcome :=
  let unique := Replays.collapse PartyVerificationResult.senderPartyId
    (zkResults.filter fun result => result.senderPartyId ∈ dispatchedPartyIds)
  let missing := dispatchedPartyIds.filter fun id =>
    id ∉ unique.kept.map PartyVerificationResult.senderPartyId
  unique.kept.foldl (tallyResult unique.conflicting) ⟨preDishonest ∪ ecdsaDishonest ∪ missing, []⟩

end

/-! ## The actor -/

structure PendingConsistencyCheck where
  e3Id : E3Id
  kind : VerificationKind
  ecdsaDishonest : Finset ℕ
  preDishonest : Finset ℕ
  partyAddresses : List (ℕ × Address)
  partyProofHashes : List (ℕ × List (ProofType × Key))
  partyPublicSignals : List (ℕ × List (ProofType × Bytes))
  partyProofData : List (ℕ × List (ProofType × Bytes))
  ecdsaPassedProofs : List Party
  paramsPreset : BfvPreset
  committeeSize : CiphernodesCommitteeSize

/-- What is kept of a batch for the consistency check. -/
def PendingConsistencyCheck.ofOutcome (data : ShareVerificationDispatched)
    (outcome : EcdsaValidationOutcome) : PendingConsistencyCheck where
  e3Id := data.e3Id
  kind := data.kind
  ecdsaDishonest := outcome.ecdsaDishonest
  preDishonest := data.preDishonest
  partyAddresses := outcome.partyAddresses
  partyProofHashes := outcome.partyProofHashes
  partyPublicSignals := outcome.partyPublicSignals
  partyProofData := outcome.partyProofData
  ecdsaPassedProofs := outcome.ecdsaPassedParties
  paramsPreset := data.paramsPreset
  committeeSize := data.committeeSize

structure PendingVerification where
  e3Id : E3Id
  kind : VerificationKind
  ecdsaDishonest : Finset ℕ
  preDishonest : Finset ℕ
  dispatchedPartyIds : Finset ℕ
  partyAddresses : List (ℕ × Address)
  partyProofHashes : List (ℕ × List (ProofType × Key))
  partyPublicSignals : List (ℕ × List (ProofType × Bytes))
  partyProofData : List (ℕ × List (ProofType × Bytes))
  paramsPreset : BfvPreset
  committeeSize : CiphernodesCommitteeSize

/-- What is kept of a batch for the proofs: the data of the parties that go on, and all parties that
were found dishonest before. -/
def PendingVerification.ofCheck (pending : PendingConsistencyCheck)
    (dishonestSoFar ids : Finset ℕ) : PendingVerification where
  e3Id := pending.e3Id
  kind := pending.kind
  ecdsaDishonest := ∅
  preDishonest := dishonestSoFar
  dispatchedPartyIds := ids
  partyAddresses := pending.partyAddresses.filter fun e => e.1 ∈ ids
  partyProofHashes := pending.partyProofHashes.filter fun e => e.1 ∈ ids
  partyPublicSignals := pending.partyPublicSignals.filter fun e => e.1 ∈ ids
  partyProofData := pending.partyProofData.filter fun e => e.1 ∈ ids
  paramsPreset := pending.paramsPreset
  committeeSize := pending.committeeSize

/-- `ShareVerificationActor`. -/
structure Actor where
  committees : List (E3Id × List Address)
  pending : List (ℕ × PendingVerification)
  pendingConsistency : List (ℕ × PendingConsistencyCheck)

structure SignedProofFailed where
  e3Id : E3Id
  faultingNode : Address
  proofType : ProofType
  signedPayload : SignedProofPayload

/-- What the actor publishes. -/
inductive Published where
  | signedProofFailed (event : SignedProofFailed)
  | proofVerificationFailed (event : ProofVerificationFailed)
  | proofVerificationPassed (event : ProofVerificationPassed E3Id)
  | shareVerificationComplete (e3Id : E3Id) (kind : VerificationKind) (dishonestParties : Finset ℕ)
  | consistencyCheckRequested (request : CheckRequested E3Id)
  | zkRequest (e3Id : E3Id) (kind : VerificationKind) (partyProofs : List Party)
      (paramsPreset : BfvPreset) (committeeSize : CiphernodesCommitteeSize) (correlationId : ℕ)

inductive ComputeResponseKind where
  | verifyShareProofs (partyResults : List PartyVerificationResult)
  | verifyShareDecryptionProofs (partyResults : List PartyVerificationResult)
  | other

namespace Actor

variable (crypto : Crypto) (s : Actor)

def emitSignedProofFailed (e3Id : E3Id) (signedPayload : SignedProofPayload)
    (recoveredAddr : Option Address) (partyId : ℕ) : List Published :=
  match crypto.recoverAddress signedPayload with
  | none => []
  | some faultingNode =>
    let expected := (get s.committees e3Id).bind fun committee => committee[partyId]?
    if signedPayload.payload.e3Id ≠ e3Id ∨ expected ≠ some faultingNode ∨
        recoveredAddr.any fun address => address ≠ faultingNode then []
    else
      [.signedProofFailed ⟨e3Id, faultingNode, signedPayload.payload.proofType, signedPayload⟩,
        .proofVerificationFailed ⟨e3Id, partyId, faultingNode, signedPayload.payload.proofType,
          crypto.proofDataHash signedPayload, signedPayload⟩]

/-- The events for the proofs of a party that passed. -/
def emitPassed (pending : PendingVerification) (partyId : ℕ) : List Published :=
  match get pending.partyProofHashes partyId with
  | none => []
  | some hashes =>
    let signals := (get pending.partyPublicSignals partyId).getD []
    let datas := (get pending.partyProofData partyId).getD []
    hashes.zipIdx.map fun ((proofType, dataHash), i) => .proofVerificationPassed
      { e3Id := pending.e3Id
        partyId
        address := (get pending.partyAddresses partyId).getD 0
        proofType
        dataHash
        publicSignals := (signals[i]?.map Prod.snd).getD []
        proofData := (datas[i]?.map Prod.snd).getD [] }

def emit (pending : PendingVerification) : ZkPartyEmission → List Published
  | .failed partyId signed => s.emitSignedProofFailed crypto pending.e3Id signed
      (get pending.partyAddresses partyId) partyId
  | .passed partyId => emitPassed pending partyId

/-- The results in a response of the kind that was asked for. -/
def zkResults : VerificationKind → ComputeResponseKind → Option (List PartyVerificationResult)
  | .shareProofs, .verifyShareProofs results
  | .thresholdDecryptionProofs, .verifyShareProofs results
  | .pkGenerationProofs, .verifyShareProofs results
  | .decryptionProofs, .verifyShareDecryptionProofs results => some results
  | _, _ => none

/-- A committee that was finalized; `none` stands for one with an address that does not parse. -/
def handleCommitteeFinalized (e3Id : E3Id) (committee : Option (List Address)) : Actor :=
  match committee with
  | none => s
  | some members =>
    { s with committees := put s.committees e3Id (Collections.stable.sortByKey id members) }

def handleE3RequestComplete (e3Id : E3Id) : Actor where
  committees := remove s.committees e3Id
  pending := s.pending.filter fun e => e.2.e3Id ≠ e3Id
  pendingConsistency := s.pendingConsistency.filter fun e => e.2.e3Id ≠ e3Id

end Actor

end Interfold.ShareVerification
