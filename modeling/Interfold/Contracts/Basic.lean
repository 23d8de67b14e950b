import Interfold.Library.Checkpoints
import Interfold.Library.Transaction
import Mathlib.Data.Fintype.Basic

/-!
# Words, addresses and errors of the contracts

Keys of storage mappings are finite types, so that a contract-wide total is a sum over all
keys. Amounts and timestamps are natural numbers with checked arithmetic.
-/

namespace Interfold

open Transaction

/-- A 160-bit account address. -/
def Address : Type := Fin (2 ^ 160)

namespace Address

instance : DecidableEq Address := inferInstanceAs (DecidableEq (Fin (2 ^ 160)))
instance : LinearOrder Address := inferInstanceAs (LinearOrder (Fin (2 ^ 160)))
-- Irreducible, so that no unification enumerates all addresses.
@[irreducible] instance fintype : Fintype Address := inferInstanceAs (Fintype (Fin (2 ^ 160)))
instance : NeZero (2 ^ 160) := ⟨by decide⟩
instance (n : ℕ) : OfNat Address n := inferInstanceAs (OfNat (Fin (2 ^ 160)) n)
instance : Inhabited Address := ⟨0⟩

end Address

/-- A 256-bit word used as a key: an E3, proposal or committee identifier, or a hash. -/
def Key : Type := Fin (2 ^ 256)

namespace Key

instance : DecidableEq Key := inferInstanceAs (DecidableEq (Fin (2 ^ 256)))
@[irreducible] instance fintype : Fintype Key := inferInstanceAs (Fintype (Fin (2 ^ 256)))
instance : NeZero (2 ^ 256) := ⟨by decide⟩
instance (n : ℕ) : OfNat Key n := inferInstanceAs (OfNat (Fin (2 ^ 256)) n)
instance : Inhabited Key := ⟨0⟩

end Key

/-- The largest value of a `uint64`. -/
def uint64Max : ℕ := 2 ^ 64 - 1

/-- The cast `uint64(n)`, which drops the high bits. -/
def toUint64 (n : ℕ) : ℕ := n % 2 ^ 64

/-- The cast `uint48(n)`, which drops the high bits. -/
def toUint48 (n : ℕ) : ℕ := n % 2 ^ 48

variable {n r now : ℕ} {α : Type} {t t' : Checkpoints.Trace α} {value : α}

lemma toUint48_of_lt (h : n < 2 ^ 48) : toUint48 n = n :=
  Nat.mod_eq_of_lt h

/-- The custom errors and revert reasons the modelled functions use. -/
inductive ContractError where
  -- exit queue
  | timestampOverflow
  | tooManyTranches
  -- tokens
  | erc20Refused
  | erc20InsufficientBalance (account : Address)
  | erc20ExceededSafeSupply
  | assetTransferMismatch (expected actual : ℕ)
  | underlyingTransferMismatch (expected actual : ℕ)
  | exceedsPayableBalance
  | notRegistry
  | registryChangePending
  -- checkpoints and casts
  | safeCastOverflow
  | checkpointUnorderedInsertion
  -- external contracts
  | externalCallReverted
  -- bonding registry
  | unauthorized
  | ownableUnauthorizedAccount (account : Address)
  | zeroAddress
  | zeroAmount
  | insufficientBalance
  | invalidConfiguration
  | exitInProgress
  | exitNotReady
  | exitDelayMustExceedSortitionWindow (exitDelay floor : ℕ)
  | exitDelayOutOfRange (exitDelay : ℕ)
  | operatorUnderSlash
  | operatorInActiveCommittee
  | notBondOwner (sender operator : Address)
  | bondOwnerAlreadySet (operator owner : Address)
  | bondOwnerTransferViolatesLock (owner : Address) (locked controlled : ℕ)
  | incompatibleCiphernodeBondToken
  | invalidBondingAsset (token : Address)
  | bondingAssetDecimalsUnavailable (token : Address)
  | bondingAssetDecimalsMismatch (token : Address) (expected actual : ℕ)
  | ticketTokenRegistryMismatch (configured expected : Address)
  | outstandingAssetLiabilities (token : Address) (amount : ℕ)
  | assetConfigurationInUse (manager : Address) (assignments locks routes : ℕ)
  | notRegistered
  | alreadyRegistered
  | ciphernodeBanned
  | notCiphernodeBonded
  | onlyNodeReleaseRegistry
  | invalidIdentityRegistry (registry : Address)
  | reservedSlashedFunds
  | slashRouteDestinationNotFound (manager : Address) (e3Id : Key)
  | slashReservationAlreadyExists (manager : Address) (proposalId : Key)
  | slashReservationNotFound (manager : Address) (proposalId : Key)
  | slashLockAlreadyExists (manager : Address) (proposalId : Key)
  | slashLockNotFound (manager : Address) (proposalId : Key)
  | e3AssignmentNotFound (manager : Address) (e3Id : Key)
  | e3AssignmentNotTerminal (e3Id : Key)
  | incompatibleSlashingManager (manager : Address)
  | slashingManagerBondingMismatch (manager configured : Address)
  | managerHasPendingSlashRoutes (manager : Address) (routes : ℕ)
  | managerHasOpenSlashLocks (manager : Address) (locks : ℕ)
  | managerHasActiveBans (manager : Address) (bans : ℕ)
  | managerHasE3Assignments (manager : Address) (assignments : ℕ)
  -- a `require` with a text
  | message (text : String)
  -- ciphernode registry
  | notOwnerOrBondingRegistry
  | ciphernodeTreeExhausted
  | ciphernodeNotEnabled (node : Address)
  -- bond and governance token
  | erc20InvalidSender (sender : Address)
  | erc20InvalidReceiver (receiver : Address)
  | erc20InvalidApprover (approver : Address)
  | erc20InvalidSpender (spender : Address)
  | erc20InsufficientAllowance (spender : Address) (allowance needed : ℕ)
  | accessControlUnauthorizedAccount (account : Address)
  | accessControlBadConfirmation
  | renounceRoleDisabledForOwner
  | invalidCcaWindow (ccaStart ccaEnd : ℕ)
  | invalidNoMoreLocks (noMoreLocks minimum : ℕ)
  | invalidBondingRegistry (registry : Address)
  | maxSupplyExceeded
  | mintingClosed
  | alreadyLive
  | tgeTooEarly (current notBefore : ℕ)
  | claimSourceAlreadySet (current : Address)
  | transferRestricted (sender recipient : Address)
  | insufficientUnlockedBalance (account : Address) (spendable value : ℕ)
  | claimLockExemptQueuedLocks (account : Address)
  | invalidPolicy
  | policyAlreadyDefined (policyId : Key)
  | policyNotDefined (policyId : Key)
  | relinkAmountExceeded
  | relinkSourceAlreadyVested (policyId : Key)
  | tooManyLocks
  | tooManyQueuedLocks
  | conflictingQueuedClaimPolicy (existing incoming : Key)
  | erc5805FutureLookup (timepoint clock : ℕ)
  -- bonded votes and checkpoints
  | futureLookup (timepoint clock : ℕ)
  | onlyRegistry (sender : Address)
  | excludedAccount (account : Address)
  | bondedDelegationNotRequested (owner delegatee : Address)
  | bondedDelegateFull (delegatee : Address)
  | notBondedDelegate (owner delegatee : Address)
  -- owner identity registry
  | verifierNotSet
  | verifierHasNoCode (verifier : Address)
  | identityExpired (identityId : Key) (expiresAt : ℕ)
  | identityIsRevoked (identityId : Key)
  | identityInUse (identityId : Key) (owner : Address)
  | identityExpiryReduced (current next : ℕ)
  | unknownIdentity (identityId : Key)
  -- ciphernode registry
  | nodeNotEligible
deriving DecidableEq

/-- A contract call that returns or reverts. -/
abbrev Tx (α : Type) := Transaction.Tx ContractError α

/-- `SafeCast.toUint208`. -/
def safeUint208 (n : ℕ) : Tx ℕ :=
  if n < 2 ^ 208 then pure n else revertWith .safeCastOverflow

/-- `SafeCast.toUint48`. -/
def safeUint48 (n : ℕ) : Tx ℕ :=
  if n < 2 ^ 48 then pure n else revertWith .safeCastOverflow

lemma safeUint48_ok : safeUint48 n = .ok r ↔ n < 2 ^ 48 ∧ n = r := by
  unfold safeUint48
  split_ifs with h
  · rw [pure_ok]
    exact ⟨fun heq => ⟨h, heq⟩, fun hr => hr.2⟩
  · rw [revertWith_ok]
    exact ⟨fun hr => hr.elim, fun hr => h hr.1⟩

/-- The value an external view returned, or a revert if the call failed. -/
def external {α : Type} : Option α → Tx α
  | some a => pure a
  | none => Transaction.revertWith .externalCallReverted

/-- `Checkpoints.push`, which reverts on a key older than the newest one. -/
def pushCheckpoint {α : Type} (t : Checkpoints.Trace α) (key : ℕ) (value : α) :
    Tx (Checkpoints.Trace α) :=
  match t.push key value with
  | some t => pure t
  | none => revertWith .checkpointUnorderedInsertion

lemma external_ok : external o = .ok a ↔ o = some a := by
  cases o with
  | none => simp [external, Transaction.revertWith_ok]
  | some b => simp [external, Transaction.pure_ok]

/-- A checkpoint at the present time decides the value from then on. -/
lemma push_ok [Inhabited α] (ht : t.Ordered now) (h : pushCheckpoint t now value = .ok t') :
    t'.Ordered now ∧ ∀ key, t'.upperLookup key = if now ≤ key then value else t.upperLookup key := by
  obtain ⟨t₁, hpush, hord, hlook⟩ := ht.push value
  simp only [pushCheckpoint, hpush, Transaction.pure_ok] at h
  subst h
  exact ⟨hord, hlook⟩

lemma push_records [Inhabited α] (ht : t.Ordered now)
    (h : pushCheckpoint t now value = .ok t') : t.Records now value t' := by
  obtain ⟨hord, hlook⟩ := push_ok ht h
  refine ⟨hord, ?_, fun key hkey => ?_⟩
  · rw [← hord.lookup_now, hlook, if_pos le_rfl]
  · rw [hlook, if_neg (Nat.not_le.2 hkey)]

lemma safeUint208_ok (h : safeUint208 n = .ok r) : n = r := by
  unfold safeUint208 at h
  split_ifs at h
  · exact pure_ok.1 h
  · cases h

/-- The stages of an E3. -/
inductive E3Stage where
  | none
  | requested
  | committeeFinalized
  | keyPublished
  | ciphertextReady
  | complete
  | failed
deriving DecidableEq, Repr

end Interfold
