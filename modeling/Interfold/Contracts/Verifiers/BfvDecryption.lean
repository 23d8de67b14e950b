import Interfold.Library.Transaction

/-!
# The verifier of decryption proofs

`BfvDecryptionVerifier` checks a proof of the decryption aggregator against the call and against the
DKG anchors that the registry recorded for the E3. Words of 32 bytes are natural numbers. A proof is
the pair into which the calldata is decoded.
-/

namespace Interfold.BfvDecryption

open Transaction

inductive VerifierError where
  | invalidPublicInputsLength
  | nonCanonicalPublicInput (index : ℕ)
  | messageCoefficientOutOfRange (index : ℕ)
  | vkHashMismatch
  | domainBindingMismatch
  | ciphertextCommitmentMismatch
  | plaintextHashMismatch
  | committeeNotPublished
  | dkgAnchorNotFound
  | dkgAnchorMismatch
  | invalidProof
deriving DecidableEq

def bn254ScalarModulus : ℕ :=
  21888242871839275222246405745257275088548364400416034343698204186575808495617

def messageCoeffsCount : ℕ := 50
def messageCoeffByteLen : ℕ := 8

/-! ### The layout of the public inputs -/

def partyIdOffset : ℕ := 7 + 1
section

variable (threshold : ℕ)

def skOffset : ℕ := partyIdOffset + (threshold + 1)
def esmOffset : ℕ := skOffset threshold + (threshold + 1)
def messageOffset : ℕ := partyIdOffset + 3 * (threshold + 1)
def publicInputsLength : ℕ := messageOffset threshold + messageCoeffsCount

/-- The high 128 bits. -/
def hi (w : ℕ) : ℕ := w / 2 ^ 128

/-- The low 128 bits. -/
def lo (w : ℕ) : ℕ := w % 2 ^ 128

/-- What the registry recorded at the DKG of an E3. -/
structure DkgAnchors where
  partyIds : List ℕ
  skAggCommits : List ℕ
  esmAggCommits : List ℕ

/-- The immutables of the contract. -/
structure Verifier where
  threshold : ℕ
  expectedC6FoldKeyHash : ℕ
  expectedC7KeyHash : ℕ

/-- What the contract calls: the verifier of the circuit, the registry and the hash. -/
structure Env (Proof : Type) where
  circuitVerify : Proof → List ℕ → Bool
  getDkgAnchors : ℕ → Option DkgAnchors
  keccak256 : List ℕ → ℕ

structure Call (Proof : Type) where
  e3Id : ℕ
  decryptionDomain : ℕ
  plaintextOutputHash : ℕ
  committeeHash : ℕ
  ciphertextCommitment : ℕ
  rawProof : Proof
  publicInputs : List ℕ

/-- An element of an array; reading behind the end panics. -/
def index (xs : List ℕ) (i : ℕ) : Transaction.Tx VerifierError ℕ :=
  match xs[i]? with
  | some x => .ok x
  | none => .error .panic

def validatePublicInput (threshold i : ℕ) (value : ℕ) : Transaction.Tx VerifierError Unit := do
  require (value < bn254ScalarModulus) (.nonCanonicalPublicInput i)
  require (i < messageOffset threshold ∨ value < 2 ^ 64) (.messageCoefficientOutOfRange i)

def validatePublicInputs (publicInputs : List ℕ) : Transaction.Tx VerifierError Unit :=
  forUpTo (fun i => do
    let value ← index publicInputs i
    validatePublicInput threshold i value) publicInputs.length

/-- The bytes of the message: every coefficient with its least significant byte first. -/
def plaintextBytes (publicInputs : List ℕ) : List ℕ :=
  (List.range messageCoeffsCount).flatMap fun i =>
    (List.range messageCoeffByteLen).map fun j =>
      publicInputs.getD (messageOffset threshold + i) 0 % 2 ^ 64 / 2 ^ (j * 8) % 2 ^ 8

/-- One turn of the loop of `_verifyDkgAnchors`. The registry counts parties from zero. -/
def verifyDkgAnchor (anchors : DkgAnchors) (publicInputs : List ℕ) (i : ℕ) :
    Transaction.Tx VerifierError Unit := do
  let circuitPartyId ← index publicInputs (partyIdOffset + i)
  let registryPartyId ← checkedSub circuitPartyId 1
  match anchors.partyIds.idxOf? registryPartyId with
  | none => revertWith .dkgAnchorNotFound
  | some matchedIdx => do
    let sk ← index publicInputs (skOffset threshold + i)
    let skAnchor ← index anchors.skAggCommits matchedIdx
    require (sk = skAnchor) .dkgAnchorMismatch
    let esm ← index publicInputs (esmOffset threshold + i)
    let esmAnchor ← index anchors.esmAggCommits matchedIdx
    require (esm = esmAnchor) .dkgAnchorMismatch

end

section

variable {Proof : Type} (v : Verifier) (env : Env Proof)

def verifyDkgAnchors (e3Id : ℕ) (publicInputs : List ℕ) : Transaction.Tx VerifierError Unit :=
  match env.getDkgAnchors e3Id with
  | none => revertWith .committeeNotPublished
  | some anchors =>
    forUpTo (verifyDkgAnchor v.threshold anchors publicInputs) (v.threshold + 1)

def verify (call : Call Proof) : Transaction.Tx VerifierError Bool := do
  let publicInputs := call.publicInputs
  require (publicInputs.length = publicInputsLength v.threshold) .invalidPublicInputsLength
  validatePublicInputs v.threshold publicInputs
  require (publicInputs[0]? = some v.expectedC6FoldKeyHash) .vkHashMismatch
  require (publicInputs[1]? = some v.expectedC7KeyHash) .vkHashMismatch
  require (publicInputs[2]? = some (hi call.committeeHash)) .domainBindingMismatch
  require (publicInputs[3]? = some (lo call.committeeHash)) .domainBindingMismatch
  require (publicInputs[4]? = some (hi call.decryptionDomain)) .domainBindingMismatch
  require (publicInputs[5]? = some (lo call.decryptionDomain)) .domainBindingMismatch
  require (publicInputs[6]? = some call.ciphertextCommitment) .ciphertextCommitmentMismatch
  require (env.keccak256 (plaintextBytes v.threshold publicInputs) = call.plaintextOutputHash)
    .plaintextHashMismatch
  verifyDkgAnchors v env call.e3Id publicInputs
  require (env.circuitVerify call.rawProof publicInputs) .invalidProof
  return true

/-! ### What an accepted call shows -/

/-- The anchor that the public inputs of position `i` were compared with. -/
structure AnchorMatch (threshold : ℕ) (anchors : DkgAnchors) (publicInputs : List ℕ) (i j : ℕ) :
    Prop where
  partyId : ∃ party, publicInputs[partyIdOffset + i]? = some (party + 1) ∧
    anchors.partyIds[j]? = some party
  sk : ∃ sk, publicInputs[skOffset threshold + i]? = some sk ∧ anchors.skAggCommits[j]? = some sk
  esm : ∃ esm, publicInputs[esmOffset threshold + i]? = some esm ∧
    anchors.esmAggCommits[j]? = some esm

/-- The checks of an accepted call. -/
structure Accepts (call : Call Proof) : Prop where
  length : call.publicInputs.length = publicInputsLength v.threshold
  canonical : ∀ value ∈ call.publicInputs, value < bn254ScalarModulus
  c6FoldKeyHash : call.publicInputs[0]? = some v.expectedC6FoldKeyHash
  c7KeyHash : call.publicInputs[1]? = some v.expectedC7KeyHash
  domainHi : call.publicInputs[4]? = some (hi call.decryptionDomain)
  domainLo : call.publicInputs[5]? = some (lo call.decryptionDomain)
  ciphertext : call.publicInputs[6]? = some call.ciphertextCommitment
  plaintext : env.keccak256 (plaintextBytes v.threshold call.publicInputs) =
    call.plaintextOutputHash
  anchors : ∃ anchors, env.getDkgAnchors call.e3Id = some anchors ∧
    ∀ i < v.threshold + 1, ∃ j, AnchorMatch v.threshold anchors call.publicInputs i j
  proof : env.circuitVerify call.rawProof call.publicInputs = true

variable {v env}

variable {i threshold : ℕ} {publicInputs : List ℕ} {r : Unit}

lemma index_ok : index xs i = .ok x ↔ xs[i]? = some x := by
  unfold index
  cases xs[i]? <;> simp

lemma verifyDkgAnchor_ok (h : verifyDkgAnchor threshold anchors publicInputs i = .ok r) :
    ∃ j, AnchorMatch threshold anchors publicInputs i j := by
  unfold verifyDkgAnchor at h
  obtain ⟨circuitPartyId, hparty, h⟩ := bind_ok.1 h
  obtain ⟨registryPartyId, hsub, h⟩ := bind_ok.1 h
  obtain ⟨hpos, rfl⟩ := checkedSub_ok.1 hsub
  cases hfind : anchors.partyIds.idxOf? (circuitPartyId - 1) with
  | none =>
    rw [hfind] at h
    cases h
  | some j =>
    rw [hfind] at h
    obtain ⟨sk, hsk, h⟩ := bind_ok.1 h
    obtain ⟨skAnchor, hskAn, h⟩ := bind_ok.1 h
    obtain ⟨_, hskEq, h⟩ := bind_ok.1 h
    obtain ⟨esm, hesm, h⟩ := bind_ok.1 h
    obtain ⟨esmAnchor, hesmAn, hesmEq⟩ := bind_ok.1 h
    obtain rfl := require_ok.1 hskEq
    obtain rfl := require_ok.1 hesmEq
    obtain ⟨hj, hget, -⟩ := List.idxOf?_eq_some_iff.1 hfind
    refine ⟨j, ⟨circuitPartyId - 1, ?_, ?_⟩, ⟨sk, index_ok.1 hsk, index_ok.1 hskAn⟩,
      ⟨esm, index_ok.1 hesm, index_ok.1 hesmAn⟩⟩
    · rw [Nat.sub_add_cancel hpos]
      exact index_ok.1 hparty
    · rw [List.getElem?_eq_getElem hj, hget]

lemma validatePublicInputs_ok (h : validatePublicInputs threshold publicInputs = .ok r) :
    ∀ value ∈ publicInputs, value < bn254ScalarModulus := by
  intro value hvalue
  obtain ⟨i, hi, rfl⟩ := List.getElem_of_mem hvalue
  obtain ⟨value, hread, hcheck⟩ := bind_ok.1 (forUpTo_ok h hi)
  obtain ⟨_, hcanon, -⟩ := bind_ok.1 hcheck
  rw [index_ok, List.getElem?_eq_getElem hi] at hread
  rw [Option.some.inj hread]
  exact require_ok.1 hcanon

lemma verifyDkgAnchors_ok (h : verifyDkgAnchors v env e3Id publicInputs = .ok r) :
    ∃ anchors, env.getDkgAnchors e3Id = some anchors ∧
      ∀ i < v.threshold + 1, ∃ j, AnchorMatch v.threshold anchors publicInputs i j := by
  unfold verifyDkgAnchors at h
  cases hanchs : env.getDkgAnchors e3Id with
  | none =>
    rw [hanchs] at h
    cases h
  | some anchors =>
    rw [hanchs] at h
    exact ⟨anchors, rfl, fun i hi => verifyDkgAnchor_ok (forUpTo_ok h hi)⟩

lemma verify_ok (h : verify v env call = .ok accepted) : Accepts v env call := by
  unfold verify at h
  obtain ⟨_, hlen, h⟩ := bind_ok.1 h
  obtain ⟨_, hcanon, h⟩ := bind_ok.1 h
  obtain ⟨_, hc6, h⟩ := bind_ok.1 h
  obtain ⟨_, hc7, h⟩ := bind_ok.1 h
  obtain ⟨_, -, h⟩ := bind_ok.1 h
  obtain ⟨_, -, h⟩ := bind_ok.1 h
  obtain ⟨_, hdomain, h⟩ := bind_ok.1 h
  obtain ⟨_, hdomainLo, h⟩ := bind_ok.1 h
  obtain ⟨_, hct, h⟩ := bind_ok.1 h
  obtain ⟨_, hplain, h⟩ := bind_ok.1 h
  obtain ⟨_, hanchs, h⟩ := bind_ok.1 h
  obtain ⟨_, hproof, -⟩ := bind_ok.1 h
  exact ⟨require_ok.1 hlen, validatePublicInputs_ok hcanon, require_ok.1 hc6,
    require_ok.1 hc7, require_ok.1 hdomain, require_ok.1 hdomainLo,
    require_ok.1 hct, require_ok.1 hplain, verifyDkgAnchors_ok hanchs,
    require_ok.1 hproof⟩

end

end Interfold.BfvDecryption
