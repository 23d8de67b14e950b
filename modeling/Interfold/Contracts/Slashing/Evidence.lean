import Interfold.Contracts.Basic
import Interfold.Library.BigEndian

/-!
# Attested evidence

A slash is proposed with the votes of a committee: the voters, their signatures, and the evidence
whose hash they signed. The votes are accepted as a whole or not at all. What was accepted is then
related to what the members of the committee signed, under the usual assumptions on signatures and
hashes.
-/

namespace Interfold.Evidence

open Transaction List

/-- The errors of the library. -/
inductive EvidenceError where
  | invalidProof
  | invalidProposal
  | insufficientAttestations
  | duplicateVoter
  | voterIsAccused
  | equivocationDetected
  | voterNotInCommittee
  | accusationSlashingDisabled
  | slashSubmissionDeadlinePassed
  | accusationIssuedInFuture
  | invalidAccusationWindow
  | signatureExpired
  | invalidVoteSignature
  | ecdsaInvalidSignature
  | abiDecodingFailed
deriving DecidableEq

abbrev Bytes := List UInt8

/-- `AttestationEvidence`. -/
structure AttestationEvidence where
  proofType : Key
  voters : List Address
  dataHashes : List Key
  evidence : Bytes
  issuedAt : Key
  deadline : Key
  signatures : List Bytes

/-- What the machine provides: the hash, signature recovery, the decoder of calldata and the chain. -/
structure Evm where
  keccak256 : Bytes → Key
  recover : Key → Bytes → Option Address
  abiDecode : Bytes → Option AttestationEvidence
  chainId : Key

/-- The registry's views that the verification reads. -/
structure RegistryViews where
  accusationVoteValidity : ℕ
  thresholdM : Key → ℕ
  isCommitteeMemberActive : Key → Address → Bool

structure AttestationContext where
  e3Id : Key
  operator : Address
  accusationId : Key
  sharedDataHash : Key
  issuedAt : Key
  deadline : Key
  domainSeparator : Key

/-- A word of 32 bytes. -/
def word (k : Key) : Bytes := BigEndian.encode 32 (Fin.val k)

/-- The 20 bytes of a packed address. -/
def packedAddress (a : Address) : Bytes := BigEndian.encode 20 (Fin.val a)

/-- An address as a word. -/
def addressWord (a : Address) : Bytes := BigEndian.encode 32 (Fin.val a)

/-- `CLOCK_SKEW`, in seconds. -/
def clockSkew : ℕ := 30

/-- The text that `VOTE_TYPEHASH` hashes. -/
def voteType : Bytes :=
  ("AccusationVote(uint256 e3Id,bytes32 accusationId," ++
    "address voter,bytes32 dataHash,uint256 issuedAt,uint256 deadline)").toUTF8.data.toList

section

variable (evm : Evm) (registry : RegistryViews)

/-- The bytes behind an accusation's identifier. -/
def accusationBytes (chainId e3Id : Key) (operator : Address) (proofType : Key) : Bytes :=
  word chainId ++ (word e3Id ++ (packedAddress operator ++ word proofType))

variable (context : AttestationContext)

def structBytes (voter : Address) : Bytes :=
  word (evm.keccak256 voteType) ++ (word context.e3Id ++ (word context.accusationId ++
    (addressWord voter ++ (word context.sharedDataHash ++
      (word context.issuedAt ++ word context.deadline)))))

def digestBytes (domainSeparator structHash : Key) : Bytes :=
  [0x19, 0x01] ++ (word domainSeparator ++ word structHash)

/-- The digest that `_verifyVote` builds. -/
def voteDigest (voter : Address) : Key :=
  evm.keccak256 (digestBytes context.domainSeparator (evm.keccak256 (structBytes evm context voter)))

/-- `_verifyVote`. -/
def verifyVote (voter : Address) (signature : Bytes) : Transaction.Tx EvidenceError Unit :=
  match evm.recover (voteDigest evm context voter) signature with
  | none => revertWith .ecdsaInvalidSignature
  | some signer => require (signer = voter) .invalidVoteSignature

/-- The element at an index, or a panic. -/
def index {α : Type} (l : List α) (i : ℕ) : Transaction.Tx EvidenceError α :=
  match l[i]? with
  | none => .error .panic
  | some a => .ok a

/-- The loop of `_verifyVotes`, from the vote `i` on. -/
def verifyVotes (attestation : AttestationEvidence) (context : AttestationContext) :
    ℕ → Address → List Address → Transaction.Tx EvidenceError Unit
  | _, _, [] => pure ()
  | i, previousVoter, voter :: voters => do
    require (¬voter ≤ previousVoter) .duplicateVoter
    require (voter ≠ context.operator) .voterIsAccused
    let dataHash ← index attestation.dataHashes i
    require (dataHash = context.sharedDataHash) .equivocationDetected
    require (registry.isCommitteeMemberActive context.e3Id voter = true) .voterNotInCommittee
    let signature ← index attestation.signatures i
    verifyVote evm context voter signature
    verifyVotes attestation context (i + 1) voter voters

/-- `_validateWindow`. -/
def validateWindow (now voteValidity slashSubmissionDeadline issuedAt deadline : ℕ) :
    Transaction.Tx EvidenceError Unit := do
  require (¬(voteValidity = 0 ∨ registry.accusationVoteValidity = 0)) .accusationSlashingDisabled
  require (now ≤ slashSubmissionDeadline) .slashSubmissionDeadlinePassed
  let latest ← checkedAdd now clockSkew
  require (issuedAt ≤ latest) .accusationIssuedInFuture
  require (¬(deadline < issuedAt ∨ voteValidity < deadline - issuedAt)) .invalidAccusationWindow
  require (now ≤ deadline) .signatureExpired

/-- The context that the votes are checked in. -/
def attestationContext (attestation : AttestationEvidence) (e3Id : Key) (operator : Address)
    (sharedDataHash domainSeparator : Key) : AttestationContext where
  e3Id
  operator
  accusationId :=
    evm.keccak256 (accusationBytes evm.chainId e3Id operator attestation.proofType)
  sharedDataHash
  issuedAt := attestation.issuedAt
  deadline := attestation.deadline
  domainSeparator

def verifyAttestationEvidence (now : ℕ) (proof : Bytes) (e3Id : Key) (operator : Address)
    (voteValidity slashSubmissionDeadline : ℕ) (domainSeparator : Key) :
    Transaction.Tx EvidenceError Unit :=
  match evm.abiDecode proof with
  | none => revertWith .abiDecodingFailed
  | some attestation => do
    let numVotes := attestation.voters.length
    require (¬(numVotes ≠ attestation.dataHashes.length ∨
      numVotes ≠ attestation.signatures.length)) .invalidProof
    validateWindow registry now voteValidity slashSubmissionDeadline
      (Fin.val attestation.issuedAt) (Fin.val attestation.deadline)
    require (registry.thresholdM e3Id ≠ 0) .invalidProposal
    require (registry.thresholdM e3Id ≤ numVotes) .insufficientAttestations
    let sharedDataHash ← index attestation.dataHashes 0
    require (evm.keccak256 attestation.evidence = sharedDataHash) .invalidProof
    verifyVotes evm registry attestation
      (attestationContext evm attestation e3Id operator sharedDataHash domainSeparator) 0 0
      attestation.voters

end

/-! ## What is accepted -/

section

variable {evm : Evm} {registry : RegistryViews} {att : AttestationEvidence}
  {context : AttestationContext}

variable {i : ℕ} {r : Unit} {previousVoter : Address} {voters : List Address}

lemma index_ok {α : Type} {l : List α} {a : α} : index l i = .ok a ↔ l[i]? = some a := by
  unfold index
  cases l[i]? <;> simp

lemma verifyVote_ok : verifyVote evm context voter sig = .ok r ↔
    evm.recover (voteDigest evm context voter) sig = some voter := by
  unfold verifyVote
  cases evm.recover (voteDigest evm context voter) sig with
  | none => simp [revertWith_ok]
  | some signer => simp [require_ok]

/-- The voters that are accepted ascend, and every one of them passes the checks at its own index. -/
lemma verifyVotes_ok : verifyVotes evm registry att context i previousVoter voters = .ok r ↔
    (previousVoter :: voters).Pairwise (· < ·) ∧ ∀ k voter, voters[k]? = some voter →
        voter ≠ context.operator ∧
        registry.isCommitteeMemberActive context.e3Id voter = true ∧
        att.dataHashes[i + k]? = some context.sharedDataHash ∧
        ∃ sig, att.signatures[i + k]? = some sig ∧
          evm.recover (voteDigest evm context voter) sig = some voter := by
  induction voters generalizing i previousVoter with
  | nil => simp [verifyVotes, pure_ok]
  | cons voter voters ih =>
    rw [← Nat.and_forall_add_one]
    simp only [verifyVotes, run_ok, index_ok, verifyVote_ok, ih, Nat.add_assoc, Nat.add_comm 1,
      getElem?_cons_zero, getElem?_cons_succ, Nat.add_zero]
    constructor
    · rintro ⟨-, hlt, -, haccd, hash, hhash, -, rfl, -, hact, sig, hsig, -, hrecov, hsort, hrest⟩
      have hprev : previousVoter < voter := lt_of_not_ge hlt
      refine ⟨pairwise_cons.2 ⟨fun later hlater => ?_, hsort⟩, ?_, hrest⟩
      · rcases mem_cons.1 hlater with rfl | hlater
        · exact hprev
        · exact hprev.trans ((pairwise_cons.1 hsort).1 later hlater)
      · rintro _ ⟨⟩
        exact ⟨haccd, hact, hhash, sig, hsig, hrecov⟩
    · rintro ⟨hsort, hfirst, hrest⟩
      obtain ⟨hprev, hsort⟩ := pairwise_cons.1 hsort
      obtain ⟨haccd, hact, hhash, sig, hsig, hrecov⟩ := hfirst voter rfl
      exact ⟨(), not_le_of_gt (hprev voter mem_cons_self), (), haccd, _, hhash, (), rfl,
        (), hact, sig, hsig, (), hrecov, hsort, hrest⟩

lemma validateWindow_ok
    (h : validateWindow registry now voteValidity slashSubmissionDeadline issuedAt dl = .ok r) :
    issuedAt ≤ dl ∧ dl - issuedAt ≤ voteValidity ∧
      now ≤ min dl slashSubmissionDeadline ∧ issuedAt ≤ now + clockSkew := by
  simp only [validateWindow, run_ok] at h
  obtain ⟨-, -, -, hsubm, latest, ⟨-, rfl⟩, -, hiss, -, hwin, hexpd⟩ := h
  rw [not_or, Nat.not_lt, Nat.not_lt] at hwin
  exact ⟨hwin.1, hwin.2, le_min hexpd hsubm, hiss⟩

end

/-! ## What was signed -/

/-- Everything that a vote is about. -/
@[ext] structure Ballot where
  domainSeparator : Key
  chainId : Key
  e3Id : Key
  operator : Address
  proofType : Key
  voter : Address
  evidence : Bytes
  issuedAt : Key
  deadline : Key

namespace Ballot

variable (evm : Evm)

def context (b : Ballot) : AttestationContext where
  e3Id := b.e3Id
  operator := b.operator
  accusationId := evm.keccak256 (accusationBytes b.chainId b.e3Id b.operator b.proofType)
  sharedDataHash := evm.keccak256 b.evidence
  issuedAt := b.issuedAt
  deadline := b.deadline
  domainSeparator := b.domainSeparator

/-- The digest that a voter signs. -/
def digest (b : Ballot) : Key := voteDigest evm (b.context evm) b.voter

/-- The strings that are hashed on the way to the digest. -/
def hashed (b : Ballot) : List Bytes :=
  [accusationBytes b.chainId b.e3Id b.operator b.proofType, b.evidence,
    structBytes evm (b.context evm) b.voter,
    digestBytes b.domainSeparator (evm.keccak256 (structBytes evm (b.context evm) b.voter))]

end Ballot

section

variable {evm : Evm}

variable {k k' : Key} {a a' : Address}

lemma word_inj (h : word k = word k') : k = k' :=
  Fin.ext (BigEndian.encode_inj (lt_of_lt_of_le (Fin.isLt k) (by decide))
    (lt_of_lt_of_le (Fin.isLt k') (by decide)) h)

lemma packedAddress_inj (h : packedAddress a = packedAddress a') : a = a' :=
  Fin.ext (BigEndian.encode_inj (lt_of_lt_of_le (Fin.isLt a) (by decide))
    (lt_of_lt_of_le (Fin.isLt a') (by decide)) h)

lemma addressWord_inj (h : addressWord a = addressWord a') : a = a' :=
  Fin.ext (BigEndian.encode_inj (lt_of_lt_of_le (Fin.isLt a) (by decide))
    (lt_of_lt_of_le (Fin.isLt a') (by decide)) h)

lemma word_append_inj (h : word k ++ rest = word k' ++ rest') : k = k' ∧ rest = rest' := by
  obtain ⟨hword, hrest⟩ := append_inj h (by simp [word])
  exact ⟨word_inj hword, hrest⟩

lemma accusationBytes_inj
    (h : accusationBytes chainId e3Id op ty = accusationBytes chainId' e3Id' op' ty') :
    chainId = chainId' ∧ e3Id = e3Id' ∧ op = op' ∧ ty = ty' := by
  obtain ⟨hchain, h⟩ := word_append_inj h
  obtain ⟨he3, h⟩ := word_append_inj h
  obtain ⟨hoper, htype⟩ := append_inj h (by simp [packedAddress])
  exact ⟨hchain, he3, packedAddress_inj hoper, word_inj htype⟩

/-- Where the hash has no collisions, a digest belongs to one ballot. -/
lemma Ballot.digest_inj {strings : Set Bytes} (hinj : strings.InjOn evm.keccak256)
    {b b' : Ballot} (hb : ∀ s ∈ b.hashed evm, s ∈ strings) (hb' : ∀ s ∈ b'.hashed evm, s ∈ strings)
    (h : b.digest evm = b'.digest evm) : b = b' := by
  simp only [Ballot.hashed, mem_cons, not_mem_nil, or_false, forall_eq_or_imp, forall_eq] at hb hb'
  obtain ⟨haccn, hevid, hstruct, hdig⟩ := hb
  obtain ⟨haccn', hevid', hstruct', hdig'⟩ := hb'
  have hbytes := append_cancel_left (hinj hdig hdig' h)
  obtain ⟨hdom, hhash⟩ := word_append_inj hbytes
  have hstrs := hinj hstruct hstruct' (word_inj hhash)
  obtain ⟨-, hstrs⟩ := word_append_inj hstrs
  obtain ⟨-, hstrs⟩ := word_append_inj hstrs
  obtain ⟨hid, hstrs⟩ := word_append_inj hstrs
  obtain ⟨hvoter, hstrs⟩ := append_inj hstrs (by simp [addressWord])
  obtain ⟨hdata, hstrs⟩ := word_append_inj hstrs
  obtain ⟨hiss, hdead⟩ := word_append_inj hstrs
  obtain ⟨hchain, he3, hoper, htype⟩ :=
    accusationBytes_inj (hinj haccn haccn' hid)
  exact Ballot.ext hdom hchain he3 hoper htype (addressWord_inj hvoter)
    (hinj hevid hevid' hdata) hiss (word_inj hdead)

/-- Signatures that are not forged and hashes without collisions. The honest keys sign only the
digests of the ballots that were cast with them. -/
structure Signing (evm : Evm) where
  honest : Set Address
  cast : Address → Set Ballot
  strings : Set Bytes
  unforgeable : ∀ voter ∈ honest, ∀ digest signature, evm.recover digest signature = some voter →
    ∃ b ∈ cast voter, b.digest evm = digest
  injective : strings.InjOn evm.keccak256
  cast_hashed : ∀ voter ∈ honest, ∀ b ∈ cast voter, ∀ s ∈ b.hashed evm, s ∈ strings

/-- The ballot that an attestation claims for one of its voters. -/
def AttestationEvidence.ballot (evm : Evm) (attestation : AttestationEvidence) (e3Id : Key)
    (operator : Address) (domainSeparator : Key) (voter : Address) : Ballot where
  domainSeparator
  chainId := evm.chainId
  e3Id
  operator
  proofType := attestation.proofType
  voter
  evidence := attestation.evidence
  issuedAt := attestation.issuedAt
  deadline := attestation.deadline

/-- Accepted evidence is signed by a quorum of other active members, each over this accusation,
this evidence and this window, within the time it is valid for. An honest voter cast this very
ballot, so members that collude reach the quorum by themselves if nobody else accuses the
operator. -/
theorem attestation_evidence_sound (evm : Evm) (registry : RegistryViews)
    {now voteValidity slashSubmissionDeadline : ℕ} {proof : Bytes} {e3Id domainSeparator : Key}
    {operator : Address}
    (h : verifyAttestationEvidence evm registry now proof e3Id operator voteValidity
      slashSubmissionDeadline domainSeparator = .ok ()) :
    ∃ attestation, evm.abiDecode proof = some attestation ∧
      1 ≤ registry.thresholdM e3Id ∧ registry.thresholdM e3Id ≤ attestation.voters.length ∧
      attestation.voters.Nodup ∧
      (∀ (i : ℕ) (voter : Address), attestation.voters[i]? = some voter →
        voter ≠ operator ∧ registry.isCommitteeMemberActive e3Id voter = true ∧
        attestation.dataHashes[i]? = some (evm.keccak256 attestation.evidence) ∧
        ∃ signature, attestation.signatures[i]? = some signature ∧
          evm.recover ((attestation.ballot evm e3Id operator domainSeparator voter).digest evm)
            signature = some voter) ∧
      Fin.val attestation.issuedAt ≤ Fin.val attestation.deadline ∧
      Fin.val attestation.deadline - Fin.val attestation.issuedAt ≤ voteValidity ∧
      now ≤ min (Fin.val attestation.deadline) slashSubmissionDeadline ∧
      Fin.val attestation.issuedAt ≤ now + clockSkew ∧
      ∀ s : Signing evm, (∀ voter ∈ attestation.voters,
          ∀ string ∈ (attestation.ballot evm e3Id operator domainSeparator voter).hashed evm,
            string ∈ s.strings) →
        (∀ voter ∈ attestation.voters, voter ∈ s.honest →
          attestation.ballot evm e3Id operator domainSeparator voter ∈ s.cast voter) ∧
        ∀ colluders : Finset Address,
          (∀ voter, voter ∉ colluders → voter ∈ s.honest ∧ ∀ b ∈ s.cast voter,
            ¬(b.domainSeparator = domainSeparator ∧ b.e3Id = e3Id ∧ b.operator = operator)) →
          registry.thresholdM e3Id ≤ (colluders.filter fun voter =>
            voter ≠ operator ∧ registry.isCommitteeMemberActive e3Id voter = true).card := by
  unfold verifyAttestationEvidence at h
  cases hdecode : evm.abiDecode proof with
  | none => simp [hdecode, revertWith] at h
  | some attestation =>
    simp only [hdecode, run_ok, index_ok] at h
    obtain ⟨-, -, _, hwindow, -, hthreshold, -, hquorum, sharedDataHash, -, -, rfl, hvotes⟩ := h
    obtain ⟨hsorted, hvotes⟩ := verifyVotes_ok.1 hvotes
    obtain ⟨horder, hvalid, hnow, hissued⟩ := validateWindow_ok hwindow
    have hnodup : attestation.voters.Nodup :=
      (pairwise_cons.1 hsorted).2.imp fun hlt => hlt.ne
    simp only [Nat.zero_add] at hvotes
    refine ⟨attestation, rfl, Nat.one_le_iff_ne_zero.2 hthreshold, hquorum, hnodup, hvotes, horder,
      hvalid, hnow, hissued, fun s hstrings => ?_⟩
    have hcast : ∀ voter ∈ attestation.voters, voter ∈ s.honest →
        attestation.ballot evm e3Id operator domainSeparator voter ∈ s.cast voter := by
      intro voter hmem hhonest
      obtain ⟨i, hi⟩ := mem_iff_getElem?.1 hmem
      obtain ⟨-, -, -, signature, -, hrecover⟩ := hvotes i voter hi
      obtain ⟨b, hb, hdigest⟩ := s.unforgeable voter hhonest _ _ hrecover
      have hsame : b = attestation.ballot evm e3Id operator domainSeparator voter :=
        Ballot.digest_inj s.injective (s.cast_hashed voter hhonest b hb) (hstrings voter hmem) hdigest
      exact hsame ▸ hb
    refine ⟨hcast, fun colluders hothers => ?_⟩
    have hsubset : attestation.voters.toFinset ⊆ colluders.filter fun voter =>
        voter ≠ operator ∧ registry.isCommitteeMemberActive e3Id voter = true := by
      intro voter hvoter
      have hmem := mem_toFinset.1 hvoter
      obtain ⟨i, hi⟩ := mem_iff_getElem?.1 hmem
      obtain ⟨haccused, hactive, -⟩ := hvotes i voter hi
      refine Finset.mem_filter.2 ⟨?_, haccused, hactive⟩
      by_contra hout
      obtain ⟨hhonest, hnone⟩ := hothers voter hout
      exact hnone _ (hcast voter hmem hhonest) ⟨rfl, rfl, rfl⟩
    calc registry.thresholdM e3Id ≤ attestation.voters.length := hquorum
      _ = attestation.voters.toFinset.card := (toFinset_card_of_nodup hnodup).symm
      _ ≤ _ := Finset.card_le_card hsubset

/-- Two votes of a committee of three against its third member. -/
def sampleAttestation : AttestationEvidence where
  proofType := 7
  voters := [1, 2]
  dataHashes := [9, 9]
  evidence := [9]
  issuedAt := 100
  deadline := 160
  signatures := [[1], [2]]

def sampleHash (bytes : Bytes) : Key := Fin.ofNat _ (BigEndian.decode bytes % (2 ^ 256 - 189))

/-- The ballots of the two voters on this machine. -/
def sampleBallot (voter : Address) : Ballot :=
  sampleAttestation.ballot ⟨sampleHash, fun _ _ => none, fun _ => none, 1⟩ 4 3 11 voter

/-- A signature names its signer, and it is good for the signer's own ballot only. -/
def sampleEvm : Evm where
  keccak256 := sampleHash
  recover digest signature :=
    let signer : Address := Fin.ofNat _ (BigEndian.decode signature)
    let evm : Evm := ⟨sampleHash, fun _ _ => none, fun _ => none, 1⟩
    if signature.length = 1 ∧ (sampleBallot signer).digest evm = digest then some signer else none
  abiDecode _ := some sampleAttestation
  chainId := 1

def sampleViews : RegistryViews := ⟨3600, fun _ => 2, fun _ voter => voter ≤ 3⟩

def sampleSigning : Signing sampleEvm where
  honest := {1, 2}
  cast voter := {sampleBallot voter}
  strings := {s | s ∈ (sampleBallot 1).hashed sampleEvm ++ (sampleBallot 2).hashed sampleEvm}
  unforgeable voter _ digest signature h := by
    simp only [sampleEvm] at h
    split_ifs at h with hsigned
    obtain rfl := Option.some.inj h
    exact ⟨_, rfl, hsigned.2⟩
  injective := by
    have hall : ∀ s ∈ (sampleBallot 1).hashed sampleEvm ++ (sampleBallot 2).hashed sampleEvm,
        ∀ s' ∈ (sampleBallot 1).hashed sampleEvm ++ (sampleBallot 2).hashed sampleEvm,
          sampleHash s = sampleHash s' → s = s' := by
      decide +kernel
    exact fun s hs s' hs' => hall s hs s' hs'
  cast_hashed voter hvoter b hb s hs := by
    obtain rfl := Set.mem_singleton_iff.1 hb
    rcases hvoter with rfl | rfl
    · exact mem_append_left _ hs
    · exact mem_append_right _ hs

theorem attestation_evidence_sound_sample :
    sampleAttestation.voters.Nodup ∧ sampleViews.thresholdM 4 ≤ sampleAttestation.voters.length ∧
      ∀ voter ∈ sampleAttestation.voters, voter ∈ sampleSigning.honest →
        sampleBallot voter ∈ sampleSigning.cast voter := by
  have haccepted : verifyAttestationEvidence sampleEvm sampleViews 120 [] 4 3 3600 500 11 = .ok () := by
    decide +kernel
  obtain ⟨attestation, hdecode, -, hquorum, hnodup, -, -, -, -, -, hsigning⟩ :=
    attestation_evidence_sound sampleEvm sampleViews haccepted
  obtain rfl := Option.some.inj hdecode
  refine ⟨hnodup, hquorum, (hsigning sampleSigning ?_).1⟩
  intro voter hvoter string hstring
  simp only [sampleAttestation, mem_cons, not_mem_nil, or_false] at hvoter
  rcases hvoter with rfl | rfl
  · exact mem_append_left _ hstring
  · exact mem_append_right _ hstring

end

end Interfold.Evidence
