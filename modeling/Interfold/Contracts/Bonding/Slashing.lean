import Interfold.Contracts.Bonding.Eligibility
import Interfold.Library.IndexedSet
import Interfold.Library.Ledger

/-!
# Slashing obligations

`BondingSlashingLib` records, for every slashing manager, its open locks, bans and E3
assignments, with counters at several granularities, and the committees whose members may not
leave. It also keeps the array of authorized managers with its one-based index map.
-/

namespace Interfold.Bonding

open Transaction Function Ledger

structure SlashingManagerObligations where
  e3Assignments : ℕ
  openSlashLocks : ℕ
  activeBans : ℕ
deriving DecidableEq

structure BondingSlashLock where
  e3Id : Key
  operator : Address
deriving DecidableEq

structure SlashingLayout where
  openSlashLocks : Address → ℕ
  activeBans : Address → ℕ
  managers : Address → SlashingManagerObligations
  slashLocks : Address → Key → BondingSlashLock
  managerBans : Address → Address → Bool
  e3Locks : Address → Key → ℕ
  e3Routes : Address → Key → ℕ
  e3Interfold : Address → Key → Address
  committeeRegistries : Key → Address
  committeeObligations : Key → Address → Bool
  committeeMemberCounts : Key → ℕ
  unresolvedCommittees : Address → ℕ
  unresolvedCommitteeCount : ℕ

/-- `_slashRouteDestinations`: the refund manager an E3 of a manager pays into. -/
abbrev Destinations := Address → Key → Address

namespace SlashingLayout

/-- Storage that was never written. -/
def blank : SlashingLayout where
  openSlashLocks _ := 0
  activeBans _ := 0
  managers _ := ⟨0, 0, 0⟩
  slashLocks _ _ := ⟨0, 0⟩
  managerBans _ _ := false
  e3Locks _ _ := 0
  e3Routes _ _ := 0
  e3Interfold _ _ := 0
  committeeRegistries _ := 0
  committeeObligations _ _ := false
  committeeMemberCounts _ := 0
  unresolvedCommittees _ := 0
  unresolvedCommitteeCount := 0

end SlashingLayout

/-! ## Committee obligations -/

/-- `validateExitClaim`: an operator under slash or in an unresolved committee cannot claim. -/
def validateExitClaim (operator : Address) (l : SlashingLayout) : Tx Unit := do
  require (l.openSlashLocks operator = 0) .operatorUnderSlash
  require (l.unresolvedCommittees operator = 0) .operatorInActiveCommittee

def openCommitteeObligation (sender currentRegistry : Address) (e3Id : Key) (operator : Address)
    (l : SlashingLayout) : Tx SlashingLayout := do
  let assignedRegistry := l.committeeRegistries e3Id
  let l ← (if assignedRegistry = 0 then do
      require (currentRegistry ≠ 0 ∧ sender = currentRegistry) .unauthorized
      let count ← checkedAdd l.unresolvedCommitteeCount 1
      pure { l with
        committeeRegistries := update l.committeeRegistries e3Id sender
        unresolvedCommitteeCount := count }
    else do
      require (sender = assignedRegistry) .unauthorized
      pure l)
  if operator = 0 ∨ l.committeeObligations e3Id operator = true then pure l else do
    let members ← checkedAdd (l.committeeMemberCounts e3Id) 1
    let committees ← checkedAdd (l.unresolvedCommittees operator) 1
    pure { l with
      committeeObligations := update₂ l.committeeObligations e3Id operator true
      committeeMemberCounts := update l.committeeMemberCounts e3Id members
      unresolvedCommittees := update l.unresolvedCommittees operator committees }

def releaseCommitteeObligation (sender : Address) (e3Id : Key) (operator : Address)
    (l : SlashingLayout) : Tx SlashingLayout := do
  let assignedRegistry := l.committeeRegistries e3Id
  require (assignedRegistry ≠ 0 ∧ sender = assignedRegistry) .unauthorized
  if operator = 0 then do
    require (l.committeeMemberCounts e3Id = 0) .invalidConfiguration
    let count ← checkedSub l.unresolvedCommitteeCount 1
    pure { l with
      committeeRegistries := update l.committeeRegistries e3Id 0
      unresolvedCommitteeCount := count }
  else if l.committeeObligations e3Id operator = true then do
    let members ← checkedSub (l.committeeMemberCounts e3Id) 1
    let committees ← checkedSub (l.unresolvedCommittees operator) 1
    pure { l with
      committeeObligations := update₂ l.committeeObligations e3Id operator false
      committeeMemberCounts := update l.committeeMemberCounts e3Id members
      unresolvedCommittees := update l.unresolvedCommittees operator committees }
  else pure l

def SlashingLayout.setCommitteeObligation (sender currentRegistry : Address) (e3Id : Key)
    (operator : Address) (active : Bool) (l : SlashingLayout) : Tx SlashingLayout :=
  if active then openCommitteeObligation sender currentRegistry e3Id operator l
  else releaseCommitteeObligation sender e3Id operator l

/-! ## E3 assignments, locks, bans and routes -/

def snapshotE3 (manager : Address) (e3Id : Key) (refundManager interfold : Address)
    (d : Destinations) (l : SlashingLayout) : Tx (Destinations × SlashingLayout) := do
  require (refundManager ≠ 0 ∧ interfold ≠ 0) .zeroAddress
  require (d manager e3Id = 0) .invalidConfiguration
  let o := l.managers manager
  let assignments ← checkedAdd o.e3Assignments 1
  pure (update₂ d manager e3Id refundManager, { l with
    e3Interfold := update₂ l.e3Interfold manager e3Id interfold
    managers := update l.managers manager { o with e3Assignments := assignments } })

def releaseE3 (env : Env) (manager : Address) (e3Id : Key) (d : Destinations)
    (l : SlashingLayout) : Tx (Destinations × SlashingLayout) := do
  let interfold := l.e3Interfold manager e3Id
  require (interfold ≠ 0) (.e3AssignmentNotFound manager e3Id)
  require (l.e3Locks manager e3Id = 0 ∧ l.e3Routes manager e3Id = 0) .invalidConfiguration
  let stage ← external (env.getE3Stage interfold e3Id)
  require (stage = .complete ∨ stage = .failed) (.e3AssignmentNotTerminal e3Id)
  let o := l.managers manager
  let assignments ← checkedSub o.e3Assignments 1
  pure (update₂ d manager e3Id 0, { l with
    e3Interfold := update₂ l.e3Interfold manager e3Id 0
    managers := update l.managers manager { o with e3Assignments := assignments } })

def openLock (manager : Address) (e3Id proposalId : Key) (operator : Address) (d : Destinations)
    (l : SlashingLayout) : Tx SlashingLayout := do
  require (operator ≠ 0) .zeroAddress
  require (d manager e3Id ≠ 0) (.e3AssignmentNotFound manager e3Id)
  require ((l.slashLocks manager proposalId).operator = 0)
    (.slashLockAlreadyExists manager proposalId)
  let o := l.managers manager
  let operatorLocks ← checkedAdd (l.openSlashLocks operator) 1
  let managerLocks ← checkedAdd o.openSlashLocks 1
  let e3Locks ← checkedAdd (l.e3Locks manager e3Id) 1
  pure { l with
    slashLocks := update₂ l.slashLocks manager proposalId ⟨e3Id, operator⟩
    openSlashLocks := update l.openSlashLocks operator operatorLocks
    managers := update l.managers manager { o with openSlashLocks := managerLocks }
    e3Locks := update₂ l.e3Locks manager e3Id e3Locks }

def closeLock (manager : Address) (proposalId : Key) (operator : Address) (l : SlashingLayout) :
    Tx SlashingLayout := do
  let lock := l.slashLocks manager proposalId
  require (lock.operator = operator ∧ operator ≠ 0) (.slashLockNotFound manager proposalId)
  let o := l.managers manager
  let operatorLocks ← checkedSub (l.openSlashLocks operator) 1
  let managerLocks ← checkedSub o.openSlashLocks 1
  let e3Locks ← checkedSub (l.e3Locks manager lock.e3Id) 1
  pure { l with
    slashLocks := update₂ l.slashLocks manager proposalId ⟨0, 0⟩
    openSlashLocks := update l.openSlashLocks operator operatorLocks
    managers := update l.managers manager { o with openSlashLocks := managerLocks }
    e3Locks := update₂ l.e3Locks manager lock.e3Id e3Locks }

/-- Returns whether the ban of the manager changed. -/
def setBan (manager operator : Address) (banned : Bool) (l : SlashingLayout) :
    Tx (Bool × SlashingLayout) := do
  require (operator ≠ 0) .zeroAddress
  if l.managerBans manager operator = banned then pure (false, l) else do
    let o := l.managers manager
    let bans ← (if banned then checkedAdd (l.activeBans operator) 1
      else checkedSub (l.activeBans operator) 1)
    let managerBans ← (if banned then checkedAdd o.activeBans 1 else checkedSub o.activeBans 1)
    pure (true, { l with
      managerBans := update₂ l.managerBans manager operator banned
      activeBans := update l.activeBans operator bans
      managers := update l.managers manager { o with activeBans := managerBans } })

def updateRouteCount (manager : Address) (e3Id : Key) (increase : Bool) (l : SlashingLayout) :
    Tx SlashingLayout := do
  let routes ← (if increase then checkedAdd (l.e3Routes manager e3Id) 1
    else checkedSub (l.e3Routes manager e3Id) 1)
  pure { l with e3Routes := update₂ l.e3Routes manager e3Id routes }

/-! ## Authorized managers -/

/-- The array `_authorizedSlashingManagers` and its one-based index map. -/
abbrev ManagerSet := IndexedSet Address

/-- `MAX_AUTHORIZED_SLASHING_MANAGERS`. -/
def maxAuthorizedSlashingManagers : ℕ := 32

/-- `SLASHING_MANAGER_API_VERSION` of a compatible manager. -/
def slashingManagerApiVersion : ℕ := 1

def validateManager (env : Env) (manager bonding : Address) : Tx Unit := do
  require (env.codeAt manager = true) (.incompatibleSlashingManager manager)
  require (env.slashingManagerApiVersion manager = some slashingManagerApiVersion)
    (.incompatibleSlashingManager manager)
  match env.slashingManagerBonding manager with
  | none => revertWith (.incompatibleSlashingManager manager)
  | some configured => do
    require (configured = bonding) (.slashingManagerBondingMismatch manager configured)
    require (env.supportsSlashingManager manager = some true) (.incompatibleSlashingManager manager)

def authorizeManager (env : Env) (manager bonding : Address) (m : ManagerSet) :
    Tx ManagerSet := do
  validateManager env manager bonding
  if m.indexPlusOne manager ≠ 0 then pure m else do
    require (m.items.length < maxAuthorizedSlashingManagers) .invalidConfiguration
    pure (m.push manager)

def revokeManager (manager currentManager : Address) (pendingRoutes : Address → ℕ)
    (l : SlashingLayout) (m : ManagerSet) : Tx ManagerSet := do
  require (manager ≠ currentManager) .invalidConfiguration
  require (m.indexPlusOne manager ≠ 0) .unauthorized
  let routes := pendingRoutes manager
  require (routes = 0) (.managerHasPendingSlashRoutes manager routes)
  let o := l.managers manager
  require (o.openSlashLocks = 0) (.managerHasOpenSlashLocks manager o.openSlashLocks)
  require (o.activeBans = 0) (.managerHasActiveBans manager o.activeBans)
  require (o.e3Assignments = 0) (.managerHasE3Assignments manager o.e3Assignments)
  pure (m.swapRemove manager)

end Interfold.Bonding
