import Interfold.Slashing.CommitmentLinks

/-!
# Signed proofs

The proofs of a party go through the committee with the party's signature over the payload: the E3,
the type of the proof and the proof itself.
-/

namespace Interfold

open Links

structure E3Id where
  chainId : Key
  id : Key
deriving DecidableEq

structure Proof where
  circuit : CircuitName
  data : Bytes
  publicSignals : Bytes
deriving DecidableEq

structure ProofPayload where
  e3Id : E3Id
  proofType : ProofType
  proof : Proof
deriving DecidableEq

structure SignedProofPayload where
  payload : ProofPayload
  signature : Bytes
deriving DecidableEq

structure ProofVerificationFailed where
  e3Id : E3Id
  accusedPartyId : ℕ
  accusedAddress : Address
  proofType : ProofType
  dataHash : Key
  signedPayload : SignedProofPayload

inductive CiphernodesCommitteeSize where
  | minimum
  | micro
  | small
deriving DecidableEq

structure CiphernodesCommittee where
  n : ℕ
  h : ℕ
  threshold : ℕ

def CiphernodesCommitteeSize.values : CiphernodesCommitteeSize → CiphernodesCommittee
  | minimum => ⟨3, 2, 1⟩
  | micro => ⟨9, 5, 4⟩
  | small => ⟨19, 14, 9⟩

def CiphernodesCommitteeSize.fromThreshold (thresholdM thresholdN : ℕ) :
    Option CiphernodesCommitteeSize :=
  [minimum, micro, small].find? fun size =>
    (size.values.threshold, size.values.n) = (thresholdM, thresholdN)

def Links.ProofType.circuitNames : ProofType → List CircuitName
  | .c0PkBfv => [.pkBfv]
  | .c1PkGeneration => [.pkGeneration]
  | .c2aSkShareComputation => [.skShareComputation]
  | .c2bESmShareComputation => [.eSmShareComputation]
  | .c3aSkShareEncryption => [.shareEncryption]
  | .c3bESmShareEncryption => [.shareEncryption]
  | .c4aSkShareDecryption | .c4bESmShareDecryption => [.dkgShareDecryption]
  | .c5PkAggregation => [.pkAggregation]
  | .c6ThresholdShareDecryption => [.thresholdShareDecryption]
  | .c7DecryptedSharesAggregation => [.decryptedSharesAggregation]

end Interfold
