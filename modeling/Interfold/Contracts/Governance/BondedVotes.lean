import Interfold.Contracts.Tokens
import Interfold.Library.Representation

/-!
# Bonded votes

Bonded tokens sit with the bonding registry and carry no votes there. `BondedVotes` gives their
weight back to the bond owners, or to a delegate that accepted an owner. A delegate has a fixed
number of slots. The delegate of an owner and the owners in the slots of a delegate are both
recorded over time, so that votes can be read at a past time.
-/

namespace Interfold.BondedVotes

open Transaction Checkpoints Function Representation

/-- `MAX_BONDED_OWNERS`. -/
abbrev maxBondedOwners : ℕ := 3

structure State where
  isExcluded : Address → Bool
  pendingBondedDelegate : Address → Address
  bondedDelegates : Address → Trace Address
  bondedOwners : Address → Fin maxBondedOwners → Trace Address

/-- The accounts the constructor excludes. -/
def exclude : List Address → (Address → Bool) → Tx (Address → Bool)
  | [], excluded => pure excluded
  | account :: accounts, excluded => do
    require (account ≠ 0) .zeroAddress
    exclude accounts (update excluded account true)

/-- The constructor, past its checks of the other contracts. -/
def deploy (excludedAccounts : List Address) : Tx State := do
  let excluded ← exclude excludedAccounts fun _ => false
  pure ⟨excluded, fun _ => 0, fun _ => [], fun _ _ => []⟩

/-! ## Delegation -/

/-- `bondedDelegate`. -/
def bondedDelegate (owner : Address) (s : State) : Address := (s.bondedDelegates owner).latest

def State.setSlot (s : State) (delegatee : Address) (slot : Fin maxBondedOwners)
    (trace : Trace Address) : State :=
  { s with bondedOwners := Ledger.update₂ s.bondedOwners delegatee slot trace }

def State.setDelegates (s : State) (owner : Address) (trace : Trace Address) : State :=
  { s with bondedDelegates := update s.bondedDelegates owner trace }

/-- The first slot whose newest entry is `owner`. -/
def findSlot (delegatee owner : Address) (s : State) : Option (Fin maxBondedOwners) :=
  (List.finRange maxBondedOwners).find? fun slot => (s.bondedOwners delegatee slot).latest = owner

/-- `_unlink`. -/
def unlink (now : ℕ) (owner delegatee : Address) (s : State) : Tx State := do
  let s ← (match findSlot delegatee owner s with
    | some slot => do
      let trace ← pushCheckpoint (s.bondedOwners delegatee slot) (toUint48 now) 0
      pure (s.setSlot delegatee slot trace)
    | none => pure s)
  let trace ← pushCheckpoint (s.bondedDelegates owner) (toUint48 now) 0
  pure (s.setDelegates owner trace)

def delegateBonded (sender : Address) (now : ℕ) (delegatee : Address) (s : State) :
    Tx State := do
  require (s.isExcluded sender = false) (.excludedAccount sender)
  let delegatee := if delegatee = sender then 0 else delegatee
  require (s.isExcluded delegatee = false) (.excludedAccount delegatee)
  let current := bondedDelegate sender s
  if delegatee ≠ 0 ∧ delegatee = current then pure s else do
    let s ← (if current ≠ 0 then unlink now sender current s else pure s)
    pure { s with pendingBondedDelegate := update s.pendingBondedDelegate sender delegatee }

def acceptBonded (sender : Address) (now : ℕ) (owner : Address) (s : State) : Tx State := do
  require (s.pendingBondedDelegate owner = sender) (.bondedDelegationNotRequested owner sender)
  match findSlot sender 0 s with
  | none => revertWith (.bondedDelegateFull sender)
  | some slot => do
    let s := { s with pendingBondedDelegate := update s.pendingBondedDelegate owner 0 }
    let owners ← pushCheckpoint (s.bondedOwners sender slot) (toUint48 now) owner
    let s := s.setSlot sender slot owners
    let delegates ← pushCheckpoint (s.bondedDelegates owner) (toUint48 now) sender
    pure (s.setDelegates owner delegates)

def dropBonded (sender : Address) (now : ℕ) (owner : Address) (s : State) : Tx State := do
  require (bondedDelegate owner s = sender) (.notBondedDelegate owner sender)
  unlink now owner sender s

inductive Call where
  | delegateBonded (delegatee : Address)
  | acceptBonded (owner : Address)
  | dropBonded (owner : Address)

def exec (sender : Address) (now : ℕ) (s : State) : Call → Tx State
  | .delegateBonded delegatee => delegateBonded sender now delegatee s
  | .acceptBonded owner => acceptBonded sender now owner s
  | .dropBonded owner => dropBonded sender now owner s

/-! ## Votes -/

/-- What the other contracts answer: the votes source, the checkpoints, and the token with its
voting escrow, if there is one. -/
structure Views where
  escrow : Address
  /-- `votesSource.getPastVotes(account, timepoint)`. -/
  pastVotes : Address → ℕ → Option ℕ
  /-- `checkpoints.getPastBonded(account, timepoint)`. -/
  pastBonded : Address → ℕ → Option ℕ
  lockedBalanceAt : Address → ℕ → Option ℕ
  balanceOf : Address → Option ℕ
  /-- `token.getPastTotalSupply(timepoint)`. -/
  pastTotalSupply : ℕ → Option ℕ

/-- `_lockedVotes`. -/
def lockedVotes (views : Views) (account : Address) (timestamp bonded : ℕ) : Tx ℕ :=
  if views.escrow = 0 then pure 0 else do
    let locked ← external (views.lockedBalanceAt account timestamp)
    if locked ≤ bonded then pure 0 else do
      let held ← external (views.balanceOf account)
      pure (min held (locked - bonded))

/-- `_bondedWeight`. -/
def bondedWeight (views : Views) (account : Address) (timepoint : ℕ) : Tx ℕ := do
  let bonded ← external (views.pastBonded account timepoint)
  require (timepoint < 2 ^ 64) .safeCastOverflow
  let locked ← lockedVotes views account timepoint bonded
  checkedAdd bonded locked

/-- `_settled`. -/
def settled (now timepoint : ℕ) : Tx ℕ := do
  require (timepoint < toUint48 now) (.futureLookup timepoint (toUint48 now))
  pure (toUint48 timepoint)

/-- The loop of `getPastVotes` over the slots. -/
def addSlotVotes (views : Views) (account : Address) (timepoint key : ℕ) (s : State) :
    List (Fin maxBondedOwners) → ℕ → Tx ℕ
  | [], votes => pure votes
  | slot :: slots, votes => do
    let owner := (s.bondedOwners account slot).upperLookup key
    let votes ← (if owner ≠ 0 then do
        let weight ← bondedWeight views owner timepoint
        checkedAdd votes weight
      else pure votes)
    addSlotVotes views account timepoint key s slots votes

def getPastVotes (views : Views) (now : ℕ) (account : Address) (timepoint : ℕ) (s : State) :
    Tx ℕ := do
  let key ← settled now timepoint
  if s.isExcluded account then pure 0 else do
    let votes ← external (views.pastVotes account timepoint)
    let votes ← (if (s.bondedDelegates account).upperLookup key = 0 then do
        let weight ← bondedWeight views account timepoint
        checkedAdd votes weight
      else pure votes)
    addSlotVotes views account timepoint key s (List.finRange maxBondedOwners) votes

/-- The supply of the token, whatever the votes source is. -/
def getPastTotalSupply (views : Views) (timepoint : ℕ) : Tx ℕ :=
  external (views.pastTotalSupply timepoint)

/-! ## Runs -/

/-- Calls by any accounts, at block times that never decrease. -/
inductive Run : ℕ → State → ℕ → State → Prop
  | refl (now : ℕ) (s : State) : Run now s now s
  | wait (h : Run start s now s') (hle : now ≤ later) : Run start s later s'
  | call {start now : ℕ} {s s₁ s₂ : State} {sender : Address} {call : Call}
      (h : Run start s now s₁) (hsender : sender ≠ 0) (hexec : exec sender now s₁ call = .ok s₂) :
      Run start s now s₂

def Reachable (now : ℕ) (s : State) : Prop :=
  ∃ excludedAccounts start s₀, deploy excludedAccounts = .ok s₀ ∧ Run start s₀ now s

end Interfold.BondedVotes
