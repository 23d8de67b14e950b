import Interfold.Contracts.Slashing.Evidence
import Interfold.Events.SignedProof
import Interfold.Library.AssocList
import Interfold.Library.Emission
import Interfold.Slashing.CommitmentConsistency

/-!
# Accusation voting

A node that sees the proof of a committee member fail accuses the member, and the others vote for
the accusation when they have seen the same failure. Where enough votes of one window are there, the
node publishes them with the evidence.

Votes reach a tally on five ways: with an own accusation, in agreement with a peer's accusation,
after the re-verification of a forwarded proof, from the buffer of votes that came too early, and
when a later window is adopted. A state is changed by one event at a time, at the time of the clock.
-/

namespace Interfold.AccusationVoting

open Links AssocList Emission
open CommitmentConsistency (ProofVerificationPassed Violation)
open Evidence (word packedAddress addressWord)

structure ProofFailureAccusation where
  e3Id : E3Id
  accuser : Address
  accused : Address
  accusedPartyId : ℕ
  proofType : ProofType
  dataHash : Key
  issuedAt : ℕ
  deadline : ℕ
  signedPayload : Option SignedProofPayload
  signature : Bytes

structure AccusationVote where
  e3Id : E3Id
  accusationId : Key
  voter : Address
  dataHash : Key
  issuedAt : ℕ
  deadline : ℕ
  signature : Bytes
deriving DecidableEq

inductive AccusationOutcome where
  | accusedFaulted
  | equivocation
  | inconclusive
deriving DecidableEq

structure AccusationQuorumReached where
  e3Id : E3Id
  accuser : Address
  accused : Address
  proofType : ProofType
  votesFor : List AccusationVote
  outcome : AccusationOutcome
  evidence : Bytes
deriving DecidableEq

/-! ## Digests -/

/-- The hash, the recovery of signers, this node's signer and the encoding of evidence. A signature
over a message wraps the message, a signature over a hash does not. -/
structure Crypto where
  keccak256 : Bytes → Key
  recoverMsg : Key → Bytes → Option Address
  recoverPrehash : Key → Bytes → Option Address
  recoverPayload : SignedProofPayload → Option Address
  signMsg : Key → Option Bytes
  signHash : Key → Option Bytes
  abiEncode : Bytes → Bytes → Bytes

def u256 (n : ℕ) : Key := Fin.ofNat _ n

def utf8 (text : String) : Bytes := text.toUTF8.data.toList

/-- Addition of 64-bit numbers that stops at the largest. -/
def saturatingAdd (a b : ℕ) : ℕ := min (a + b) (2 ^ 64 - 1)

namespace Crypto

variable (crypto : Crypto)

/-- The identifier of the accusations of one proof type of a node. -/
def accusationKey (e3Id : E3Id) (accused : Address) (proofType : ProofType) : Key :=
  crypto.keccak256 (word e3Id.chainId ++ (word e3Id.id ++
    (packedAddress accused ++ word (u256 proofType.code))))

def accusationId (accusation : ProofFailureAccusation) : Key :=
  crypto.accusationKey accusation.e3Id accusation.accused accusation.proofType

def accusationDigest (accusation : ProofFailureAccusation) : Key :=
  let typehash := crypto.keccak256 (utf8 ("ProofFailureAccusation(uint256 chainId,uint256 e3Id," ++
    "address accuser,address accused,uint256 proofType,bytes32 dataHash,uint256 issuedAt," ++
    "uint256 deadline)"))
  crypto.keccak256 (word typehash ++ word accusation.e3Id.chainId ++ word accusation.e3Id.id ++
    addressWord accusation.accuser ++ addressWord accusation.accused ++
    word (u256 accusation.proofType.code) ++ word accusation.dataHash ++
    word (u256 accusation.issuedAt) ++ word (u256 accusation.deadline))

def verifyAccusationSignature (accusation : ProofFailureAccusation) : Bool :=
  crypto.recoverMsg (crypto.accusationDigest accusation) accusation.signature =
    some accusation.accuser

def voteDomainSeparator (chainId : Key) (verifyingContract : Address) : Key :=
  let domainTypehash := crypto.keccak256
    (utf8 "EIP712Domain(string name,string version,uint256 chainId,address verifyingContract)")
  let nameHash := crypto.keccak256 (utf8 "InterfoldSlashing")
  let versionHash := crypto.keccak256 (utf8 "1")
  crypto.keccak256 (word domainTypehash ++ (word nameHash ++ (word versionHash ++
    (word chainId ++ addressWord verifyingContract))))

def voteDigest (vote : AccusationVote) (verifyingContract : Address) : Key :=
  let typehash := crypto.keccak256 (utf8 ("AccusationVote(uint256 e3Id,bytes32 accusationId," ++
    "address voter,bytes32 dataHash,uint256 issuedAt,uint256 deadline)"))
  let structHash := crypto.keccak256 (word typehash ++ (word vote.e3Id.id ++
    (word vote.accusationId ++ (addressWord vote.voter ++ (word vote.dataHash ++
      (word (u256 vote.issuedAt) ++ word (u256 vote.deadline)))))))
  let domain := crypto.voteDomainSeparator vote.e3Id.chainId verifyingContract
  crypto.keccak256 ([0x19, 0x01] ++ (word domain ++ word structHash))

def payloadEvidence (signed : SignedProofPayload) : Bytes :=
  crypto.abiEncode signed.payload.proof.data signed.payload.proof.publicSignals

def computePayloadHash (signed : SignedProofPayload) : Key :=
  crypto.keccak256 (crypto.payloadEvidence signed)

end Crypto

/-! ## State -/

inductive VoteAction where
  | publishAccusation (accusation : ProofFailureAccusation) (dedupKey : Address × ProofType)
  | publishVote (vote : AccusationVote)
  | publishQuorum (quorum : AccusationQuorumReached)
  | dispatchZk (senderPartyId : ℕ) (signedProof : SignedProofPayload)
      (committeeSize : CiphernodesCommitteeSize) (correlationId : ℕ)
  | startTimeout (accusationId : Key)
  | cancelTimeout (accusationId : Key)

structure DeferredAccusation where
  accusedAddress : Address
  accusedPartyId : ℕ
  proofType : ProofType
  dataHash : Key
  forwardedPayload : Option SignedProofPayload

structure PendingAccusation where
  accusation : ProofFailureAccusation
  votesFor : List AccusationVote
  timeoutAt : ℕ

structure ReceivedProofData where
  dataHash : Key
  verificationPassed : Bool
  evidence : Bytes

structure PendingReVerification where
  accusationId : Key
  dataHash : Key
  accused : Address
  proofType : ProofType
  evidence : Bytes

def defaultVoteTimeout : ℕ := 300

/-- `AccusationVoting`. -/
structure Voting where
  e3Id : E3Id
  myAddress : Address
  slashingManager : Address
  committee : List Address
  /-- The party slots, which stay when a member is expelled. -/
  finalizedCommittee : List Address
  circuitThresholdT : ℕ
  voteQuorumH : ℕ
  committeeN : ℕ
  pending : List (Key × PendingAccusation)
  accusedProofs : Finset (Address × ProofType)
  receivedData : List ((Address × ProofType) × ReceivedProofData)
  bufferedVotes : List (Key × List AccusationVote)
  windowMovers : Finset (Key × Address)
  pendingReverifications : List (ℕ × PendingReVerification)
  voteTimeout : ℕ
  voteValiditySecs : ℕ
  accusationDeadlineSkewSecs : ℕ
  effectsEnabled : Bool
  deferredAccusations : List DeferredAccusation
  restoredTimeouts : List Key

/-- `AccusationVoting::new`. -/
def Voting.new (e3Id : E3Id) (signer slashingManager : Address) (committee : List Address)
    (circuitThresholdT voteQuorumH voteValiditySecs accusationDeadlineSkewSecs : ℕ) : Voting where
  e3Id
  myAddress := signer
  slashingManager
  committee
  finalizedCommittee := committee
  circuitThresholdT
  voteQuorumH
  committeeN := committee.length
  pending := []
  accusedProofs := ∅
  receivedData := []
  bufferedVotes := []
  windowMovers := ∅
  pendingReverifications := []
  voteTimeout := defaultVoteTimeout
  voteValiditySecs
  accusationDeadlineSkewSecs
  effectsEnabled := true
  deferredAccusations := []
  restoredTimeouts := []

namespace Voting

variable (crypto : Crypto) (now : ℕ) (s : Voting)

/-- `committee_party_ids`: a node that is there twice has its last slot. -/
def partyId (a : Address) : Option ℕ :=
  (s.finalizedCommittee.zipIdx.reverse.find? fun slot => slot.1 = a).map Prod.snd

def timeoutFromNow : ℕ := saturatingAdd now s.voteTimeout

/-- `sign_vote_digest`, into the vote. -/
def signVote (vote : AccusationVote) : Option AccusationVote :=
  (crypto.signHash (crypto.voteDigest vote s.slashingManager)).map fun signature =>
    { vote with signature }

def verifyVoteSignature (vote : AccusationVote) : Bool :=
  crypto.recoverPrehash (crypto.voteDigest vote s.slashingManager) vote.signature = some vote.voter

/-! ## Admission -/

inductive Rejection where
  | otherE3
  | selfAccusation
  | own
  | unforwardableProof
  | unsignedFailure
  | violationAgainstNonMember (accused : Address) (e3Id : E3Id)
  | deadlineOutsideWindow (accuser : Address) (deadline now voteValiditySecs skewSecs : ℕ)
  | accuserNotInCommittee (accuser : Address)
  | accusedNotInCommittee (accused : Address)
  | invalidAccusationSignature (accuser : Address)
  | voterNotInCommittee (voter : Address)
  | invalidVoteSignature (voter : Address)
deriving DecidableEq

def canForwardProof : ProofType → Bool
  | .c3aSkShareEncryption | .c3bESmShareEncryption => true
  | _ => false

def isSelfAccusation (accuser accused : Address) (accusedPartyId : ℕ) : Bool :=
  accuser = accused ∨ s.partyId accuser = some accusedPartyId

def admitLocalFailure (event : ProofVerificationFailed) :
    Except Rejection ProofVerificationFailed :=
  let accused := event.accusedAddress
  if event.e3Id ≠ s.e3Id then .error .otherE3
  else if accused ∉ s.committee ∨ s.finalizedCommittee[event.accusedPartyId]? ≠ some accused ∨
      event.signedPayload.payload.e3Id ≠ s.e3Id ∨
      event.signedPayload.payload.proofType ≠ event.proofType ∨
      crypto.recoverPayload event.signedPayload ≠ some accused ∨
      crypto.computePayloadHash event.signedPayload ≠ event.dataHash then .error .unsignedFailure
  else if s.isSelfAccusation s.myAddress accused event.accusedPartyId then .error .selfAccusation
  else .ok event

def admitViolation (data : Violation E3Id) : Except Rejection (Violation E3Id) :=
  if data.e3Id ≠ s.e3Id then .error .otherE3
  else if data.accusedAddress ∉ s.committee then
    .error (.violationAgainstNonMember data.accusedAddress s.e3Id)
  else if s.isSelfAccusation s.myAddress data.accusedAddress data.accusedPartyId then
    .error .selfAccusation
  else .ok data

def admitOwnReplayedAccusation (accusation : ProofFailureAccusation) :
    Option (Address × ProofType) :=
  if s.effectsEnabled = false ∧ accusation.e3Id = s.e3Id ∧ accusation.accuser = s.myAddress ∧
      crypto.verifyAccusationSignature accusation then
    some (accusation.accused, accusation.proofType)
  else none

def isPeerDeadlineAcceptable (issuedAt deadline now voteValiditySecs skewSecs : ℕ) : Bool :=
  if voteValiditySecs = 0 then false
  else issuedAt ≤ saturatingAdd now skewSecs ∧ issuedAt ≤ deadline ∧
    deadline - issuedAt ≤ voteValiditySecs ∧ now < deadline

def admitAccusation (accusation : ProofFailureAccusation) :
    Except Rejection ProofFailureAccusation :=
  if accusation.e3Id ≠ s.e3Id then .error .otherE3
  else if accusation.accuser = accusation.accused then .error .selfAccusation
  else if accusation.signedPayload.isSome ∧ ¬canForwardProof accusation.proofType then
    .error .unforwardableProof
  else if ¬isPeerDeadlineAcceptable accusation.issuedAt accusation.deadline now
      s.voteValiditySecs s.accusationDeadlineSkewSecs then
    .error (.deadlineOutsideWindow accusation.accuser accusation.deadline now s.voteValiditySecs
      s.accusationDeadlineSkewSecs)
  else if accusation.accuser ∉ s.committee then .error (.accuserNotInCommittee accusation.accuser)
  else if accusation.accused ∉ s.committee then .error (.accusedNotInCommittee accusation.accused)
  else if accusation.accuser = s.myAddress then .error .own
  else if ¬crypto.verifyAccusationSignature accusation then
    .error (.invalidAccusationSignature accusation.accuser)
  else .ok accusation

def admitVote (vote : AccusationVote) : Except Rejection AccusationVote :=
  if vote.e3Id ≠ s.e3Id then .error .otherE3
  else if vote.voter ∉ s.committee then .error (.voterNotInCommittee vote.voter)
  else if vote.voter = s.myAddress then .error .own
  else if ¬s.verifyVoteSignature crypto vote then .error (.invalidVoteSignature vote.voter)
  else .ok vote

/-! ## Votes -/

/-- The actions of a transition and the state after it. -/
abbrev Effect := List VoteAction × Voting

/-- Enough votes agree on the data or show that it was not one. -/
def agreedOutcome (votesFor : List AccusationVote) : AccusationOutcome :=
  if 1 < (votesFor.map AccusationVote.dataHash).dedup.length then .equivocation
  else .accusedFaulted

def quorumReached (p : PendingAccusation) (outcome : AccusationOutcome) :
    AccusationQuorumReached where
  e3Id := s.e3Id
  accuser := p.accusation.accuser
  accused := p.accusation.accused
  proofType := p.accusation.proofType
  votesFor := p.votesFor
  outcome
  evidence := match get s.receivedData (p.accusation.accused, p.accusation.proofType) with
    | some received => received.evidence
    | none => []

def emitQuorumReached (accusationId : Key) (outcome : AccusationOutcome) : Effect :=
  match get s.pending accusationId with
  | none => ([], s)
  | some p => ([.cancelTimeout accusationId, .publishQuorum (s.quorumReached p outcome)],
      { s with pending := remove s.pending accusationId })

def checkQuorum (accusationId : Key) : Effect :=
  match get s.pending accusationId with
  | none => ([], s)
  | some p =>
    if p.votesFor.length < s.voteQuorumH then ([], s)
    else s.emitQuorumReached accusationId (agreedOutcome p.votesFor)

def buffered (accusationId : Key) : List AccusationVote :=
  (get s.bufferedVotes accusationId).getD []

def onVoteReceived (vote : AccusationVote) : Effect :=
  match s.admitVote crypto vote with
  | .error _ => ([], s)
  | .ok vote =>
    let buf := s.buffered vote.accusationId
    match get s.pending vote.accusationId with
    | none =>
      let buf := if buf.length < s.committee.length then buf ++ [vote] else buf
      ([], { s with bufferedVotes := put s.bufferedVotes vote.accusationId buf })
    | some p =>
      if (vote.issuedAt, vote.deadline) ≠ (p.accusation.issuedAt, p.accusation.deadline) then
        if p.accusation.issuedAt < vote.issuedAt ∧ p.accusation.deadline < vote.deadline ∧
            vote.voter ≠ p.accusation.accused then
          -- A vote of a later window waits for the accusation that the node adopts it from.
          let buf := (buf.filter fun v => v.voter ≠ vote.voter) ++ [vote]
          ([], { s with bufferedVotes := put s.bufferedVotes vote.accusationId buf })
        else ([], s)
      else if vote.voter = p.accusation.accused then ([], s)
      else if ∃ v ∈ p.votesFor, v.voter = vote.voter then ([], s)
      else if vote.voter = p.accusation.accuser ∧ vote.dataHash ≠ p.accusation.dataHash then
        ([], s)
      else
        let p := { p with votesFor := p.votesFor ++ [vote] }
        checkQuorum { s with pending := put s.pending vote.accusationId p } vote.accusationId

/-- The votes that came before their accusation. -/
def replayBuffered (accusationId : Key) : Effect :=
  each (fun vote s => onVoteReceived crypto s vote) (s.buffered accusationId)
    { s with bufferedVotes := remove s.bufferedVotes accusationId }

def onVoteTimeout (accusationId : Key) : Effect :=
  match get s.pending accusationId with
  | none => ([], s)
  | some p =>
    let s := { s with pending := remove s.pending accusationId }
    let outcome := if s.voteQuorumH ≤ p.votesFor.length then agreedOutcome p.votesFor
      else .inconclusive
    ([.publishQuorum (s.quorumReached p outcome)], s)

/-! ## Accusations -/

/-- The vote of this node, before it is signed. -/
def ownVote (accusationId dataHash : Key) (issuedAt deadline : ℕ) : AccusationVote where
  e3Id := s.e3Id
  accusationId
  voter := s.myAddress
  dataHash
  issuedAt
  deadline
  signature := []

/-- The collection of votes starts: the ones that are there already are counted. -/
def startCollecting (accusationId : Key) (p : PendingAccusation) : Effect :=
  andThen (replayBuffered crypto { s with pending := put s.pending accusationId p } accusationId)
    fun s => s.checkQuorum accusationId

/-- The accusation that this node makes now, before it is signed. -/
def accusationNow (d : DeferredAccusation) : ProofFailureAccusation where
  e3Id := s.e3Id
  accuser := s.myAddress
  accused := d.accusedAddress
  accusedPartyId := d.accusedPartyId
  proofType := d.proofType
  dataHash := d.dataHash
  issuedAt := now
  deadline := saturatingAdd now s.voteValiditySecs
  signedPayload := d.forwardedPayload
  signature := []

/-- The rest of `initiate_accusation`, from the signature on. -/
def publishOwnAccusation (accusation : ProofFailureAccusation) : Effect :=
  let key := (accusation.accused, accusation.proofType)
  let id := crypto.accusationId accusation
  -- A re-verification that a peer's accusation started is no longer needed.
  let s := { s with pendingReverifications :=
    s.pendingReverifications.filter fun e => e.2.accusationId ≠ id }
  match s.signVote crypto
      (s.ownVote id accusation.dataHash accusation.issuedAt accusation.deadline) with
  | none => ([.publishAccusation accusation key], s)
  | some vote =>
    let s := { s with accusedProofs := insert key s.accusedProofs }
    after [.publishAccusation accusation key, .publishVote vote, .startTimeout id]
      (startCollecting crypto s id ⟨accusation, [vote], s.timeoutFromNow now⟩)

/-- `initiate_accusation`. The key of the proof is marked as accused before anything is signed, and
a failure takes the mark back. -/
def initiateAccusation (d : DeferredAccusation) : Effect :=
  if d.accusedAddress ∉ s.committee then ([], s)
  else if (d.accusedAddress, d.proofType) ∈ s.accusedProofs then ([], s)
  else if s.voteValiditySecs = 0 then ([], s)
  else
    let accusation := s.accusationNow now d
    match crypto.signMsg (crypto.accusationDigest accusation) with
    | none => ([], s)
    | some signature => publishOwnAccusation crypto now s { accusation with signature }

def accuseWhenEffectsRun (d : DeferredAccusation) : Effect :=
  if s.effectsEnabled then initiateAccusation crypto now s d
  else if ∃ held ∈ s.deferredAccusations,
      (held.accusedAddress, held.proofType) = (d.accusedAddress, d.proofType) then ([], s)
  else ([], { s with deferredAccusations := s.deferredAccusations ++ [d] })

def cacheVerificationResult (accused : Address) (proofType : ProofType) (dataHash : Key)
    (passed : Bool) (evidence : Bytes) : Voting :=
  { s with receivedData := put s.receivedData (accused, proofType) ⟨dataHash, passed, evidence⟩ }

def onLocalProofFailure (event : ProofVerificationFailed) : Effect :=
  match s.admitLocalFailure crypto event with
  | .error _ => ([], s)
  | .ok event =>
    let s := s.cacheVerificationResult event.accusedAddress event.proofType event.dataHash false
      (crypto.payloadEvidence event.signedPayload)
    accuseWhenEffectsRun crypto now s ⟨event.accusedAddress, event.accusedPartyId, event.proofType,
      event.dataHash, if canForwardProof event.proofType then some event.signedPayload else none⟩

def onConsistencyViolation (data : Violation E3Id) : Effect :=
  match s.admitViolation data with
  | .error _ => ([], s)
  | .ok data =>
    let s := s.cacheVerificationResult data.accusedAddress data.proofType data.dataHash false
      data.evidence
    accuseWhenEffectsRun crypto now s ⟨data.accusedAddress, data.accusedPartyId, data.proofType,
      data.dataHash, none⟩

def onProofVerificationPassed (data : ProofVerificationPassed E3Id) : Voting :=
  if data.e3Id ≠ s.e3Id then s
  else if data.address ∉ s.committee then s
  else s.cacheVerificationResult data.address data.proofType data.dataHash true
    (crypto.abiEncode data.proofData data.publicSignals)

def holdAccusationsUntilEffects : Voting := { s with effectsEnabled := false }

/-- A pending accusation of a proof has this node's vote. -/
def votedFor (key : Address × ProofType) : Bool :=
  s.pending.any fun e => (e.2.accusation.accused, e.2.accusation.proofType) = key ∧
    ∃ vote ∈ e.2.votesFor, vote.voter = s.myAddress

/-- An accusation that was held. -/
def accuseDeferred (d : DeferredAccusation) : Effect :=
  let key := (d.accusedAddress, d.proofType)
  if s.votedFor key then ([], { s with accusedProofs := insert key s.accusedProofs })
  else initiateAccusation crypto now s d

def startRestoredTimeouts : Effect :=
  ((s.restoredTimeouts.filter fun id => (get s.pending id).isSome).map .startTimeout,
    { s with restoredTimeouts := [] })

def onEffectsEnabled : Effect :=
  if s.effectsEnabled then ([], s)
  else
    let held := s.deferredAccusations
    let s := { s with effectsEnabled := true, deferredAccusations := [] }
    andThen (each (fun d s => accuseDeferred crypto now s d) held s) startRestoredTimeouts

/-- `adopt_later_vote_window`. -/
def adoptLaterVoteWindow (accusationId : Key) (incoming : ProofFailureAccusation) : Effect :=
  match get s.pending accusationId with
  | none => ([], s)
  | some p =>
    if incoming.issuedAt ≤ p.accusation.issuedAt ∨ incoming.deadline ≤ p.accusation.deadline ∨
        (accusationId, incoming.accuser) ∈ s.windowMovers then ([], s)
    else
      let s := { s with windowMovers := insert (accusationId, incoming.accuser) s.windowMovers }
      let restart (actions : List VoteAction) (votesFor : List AccusationVote) : Effect :=
        after (actions ++ [.cancelTimeout accusationId, .startTimeout accusationId])
          (startCollecting crypto s accusationId ⟨incoming, votesFor, s.timeoutFromNow now⟩)
      match p.votesFor.find? fun v => v.voter = s.myAddress with
      | none => restart [] []
      | some vote =>
        match s.signVote crypto
            { vote with issuedAt := incoming.issuedAt, deadline := incoming.deadline } with
        | none => ([], s)
        | some vote => restart [.publishVote vote] [vote]

/-- A forwarded proof that the accused signed for this E3 with a circuit of its type. -/
def forwardedValid (accused : Address) (forwarded : SignedProofPayload) : Bool :=
  crypto.recoverPayload forwarded = some accused ∧ forwarded.payload.e3Id = s.e3Id ∧
    forwarded.payload.proof.circuit ∈ forwarded.payload.proofType.circuitNames

/-- A proof that came with an accusation is verified before this node votes. -/
def reverifyForwarded (accusation : ProofFailureAccusation) (forwarded : SignedProofPayload)
    (correlationId : ℕ) : Effect :=
  let id := crypto.accusationId accusation
  if ¬s.forwardedValid crypto accusation.accused forwarded then ([], s)
  else if forwarded.payload.proofType ≠ accusation.proofType then ([], s)
  else if crypto.computePayloadHash forwarded ≠ accusation.dataHash then ([], s)
  else match CiphernodesCommitteeSize.fromThreshold s.circuitThresholdT s.committeeN with
    | none => ([], s)
    | some committeeSize =>
      let pending := put s.pending id ⟨accusation, [], s.timeoutFromNow now⟩
      let reverification : PendingReVerification := ⟨id, crypto.computePayloadHash forwarded,
        accusation.accused, accusation.proofType, crypto.payloadEvidence forwarded⟩
      andThen (after [.startTimeout id] (replayBuffered crypto { s with pending } id)) fun s =>
          ([.dispatchZk accusation.accusedPartyId forwarded committeeSize correlationId],
            { s with
              pendingReverifications :=
                put s.pendingReverifications correlationId reverification })

/-- The node saw the proof fail. -/
def agreeWith (accusation : ProofFailureAccusation) (dataHash : Key) : Effect :=
  let id := crypto.accusationId accusation
  match s.signVote crypto (s.ownVote id dataHash accusation.issuedAt accusation.deadline) with
  | none => ([], s)
  | some vote =>
    after [.publishVote vote, .startTimeout id]
      (startCollecting crypto s id ⟨accusation, [vote], s.timeoutFromNow now⟩)

/-- A peer's accusation; `correlationId` is the fresh one of a re-verification. -/
def onAccusationReceived (correlationId : ℕ) (accusation : ProofFailureAccusation) : Effect :=
  match s.admitOwnReplayedAccusation crypto accusation with
  | some key => ([], { s with accusedProofs := insert key s.accusedProofs })
  | none =>
    match s.admitAccusation crypto now accusation with
    | .error _ => ([], s)
    | .ok accusation =>
      let id := crypto.accusationId accusation
      if (get s.pending id).isSome then adoptLaterVoteWindow crypto now s id accusation
      else match get s.receivedData (accusation.accused, accusation.proofType) with
        | some received =>
          if received.verificationPassed then ([], s)
          else agreeWith crypto now s accusation received.dataHash
        | none =>
          match accusation.signedPayload with
          | none => ([], s)
          | some forwarded => reverifyForwarded crypto now s accusation forwarded correlationId

/-! ## Expulsions and re-verifications -/

def onMemberExpelled (e3Id : E3Id) (node : Address) : Voting :=
  if e3Id ≠ s.e3Id then s
  else
    let committee := s.committee.filter fun a => a ≠ node
    if committee.length < s.committee.length then
      let purge (votes : List AccusationVote) := votes.filter fun v => v.voter ≠ node
      { s with
        committee
        pending := mapValues (fun p => { p with votesFor := purge p.votesFor }) s.pending
        bufferedVotes := mapValues purge s.bufferedVotes }
    else { s with committee }

/-- A response to a compute request: for every party whether all its proofs verified. -/
inductive ComputeResponse where
  | verifyShareProofs (partyResults : List Bool)
  | other

/-- The vote that follows from a re-verification that failed. -/
def voteAfterReverification (r : PendingReVerification) : Effect :=
  match get s.pending r.accusationId with
  | none => ([], s)
  | some p =>
    match s.signVote crypto (s.ownVote r.accusationId r.dataHash p.accusation.issuedAt
        p.accusation.deadline) with
    | none => ([], s)
    | some vote =>
      let p := { p with votesFor := p.votesFor ++ [vote] }
      after [.publishVote vote]
        (checkQuorum { s with pending := put s.pending r.accusationId p } r.accusationId)

def handleReverificationResponse (correlationId : ℕ) (response : ComputeResponse) : Effect :=
  match get s.pendingReverifications correlationId with
  | none => ([], s)
  | some r =>
    let s := { s with pendingReverifications := remove s.pendingReverifications correlationId }
    match response with
    | .other | .verifyShareProofs [] => ([], s)
    | .verifyShareProofs (zkPassed :: _) =>
      let s := s.cacheVerificationResult r.accused r.proofType r.dataHash zkPassed r.evidence
      if zkPassed then ([], s) else voteAfterReverification crypto s r

def rollbackInitiation (key : Address × ProofType) : Voting :=
  { s with accusedProofs := s.accusedProofs.erase key }

def discardReverification (correlationId : ℕ) : Voting :=
  { s with pendingReverifications := remove s.pendingReverifications correlationId }

end Voting

/-! ## Runs -/

/-- What changes the state: events of the node and its peers, timers, and effects that failed. -/
inductive Event where
  | localProofFailure (event : ProofVerificationFailed)
  | consistencyViolation (data : Violation E3Id)
  | proofVerificationPassed (data : ProofVerificationPassed E3Id)
  | accusationReceived (correlationId : ℕ) (accusation : ProofFailureAccusation)
  | voteReceived (vote : AccusationVote)
  | voteTimeout (accusationId : Key)
  | memberExpelled (e3Id : E3Id) (node : Address)
  | reverificationResponse (correlationId : ℕ) (response : Voting.ComputeResponse)
  | holdAccusations
  | effectsEnabled
  | publishFailed (dedupKey : Address × ProofType)
  | dispatchFailed (correlationId : ℕ)

def Event.handle (crypto : Crypto) (now : ℕ) (s : Voting) : Event → Voting.Effect
  | localProofFailure event => s.onLocalProofFailure crypto now event
  | consistencyViolation data => s.onConsistencyViolation crypto now data
  | proofVerificationPassed data => ([], s.onProofVerificationPassed crypto data)
  | accusationReceived correlationId accusation =>
    s.onAccusationReceived crypto now correlationId accusation
  | voteReceived vote => s.onVoteReceived crypto vote
  | voteTimeout accusationId => s.onVoteTimeout accusationId
  | memberExpelled e3Id node => ([], s.onMemberExpelled e3Id node)
  | reverificationResponse correlationId response =>
    s.handleReverificationResponse crypto correlationId response
  | holdAccusations => ([], s.holdAccusationsUntilEffects)
  | effectsEnabled => s.onEffectsEnabled crypto now
  | publishFailed dedupKey => ([], s.rollbackInitiation dedupKey)
  | dispatchFailed correlationId => ([], s.discardReverification correlationId)

/-- The states that a new node reaches by events that meet a condition, each at some time. -/
inductive Reachable (crypto : Crypto) (Meets : Voting → Event → Prop) (start : Voting) :
    Voting → Prop
  | start : Reachable crypto Meets start start
  | step {s : Voting} (now : ℕ) (event : Event) :
    Reachable crypto Meets start s → Meets s event →
      Reachable crypto Meets start (event.handle crypto now s).2

end Interfold.AccusationVoting
