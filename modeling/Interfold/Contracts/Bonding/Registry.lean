import Interfold.Contracts.Bonding.Slashing
import Interfold.Contracts.ExitQueue.Model

/-!
# Bonding registry

The storage of `BondingRegistry` together with the tokens it controls, and its entry points.
Each entry point takes the caller and the answers of other contracts in `Env` and returns the
new state or reverts. Events are not modelled, and neither is the reward distribution, which
moves a third token and writes no storage of the registry.
-/

namespace Interfold.Bonding

open Transaction Function Ledger ExitQueue

structure Operator where
  ciphernodeBond : ℕ
  exitUnlocksAt : ℕ
  registered : Bool
  exitRequested : Bool
  active : Bool
  eligibilityVersion : ℕ
deriving DecidableEq

structure SlashedTicketReservation where
  e3Id : Key
  refundManager : Address
  amount : ℕ
deriving DecidableEq

structure State where
  /-- The address of the registry itself. -/
  this : Address
  owner : Address
  ticketToken : TicketToken
  bondTokenAddress : Address
  bondToken : Erc20
  registry : Address
  slashingManager : Address
  slashedFundsTreasury : Address
  ticketPrice : ℕ
  requiredCiphernodeBond : ℕ
  minTicketBalance : ℕ
  exitDelay : ℕ
  ciphernodeBondActiveBps : ℕ
  numActiveOperators : ℕ
  operators : Address → Operator
  slashedTicketBalance : ℕ
  slashedCiphernodeBond : ℕ
  exits : ExitQueueState
  eligibilityConfigurationVersion : ℕ
  reservedSlashedTicketBalance : ℕ
  authorized : ManagerSet
  totalCiphernodeBondLiability : ℕ
  bondOwnerOf : Address → Address
  bondedByOwner : Address → ℕ
  pendingBondOwnerOf : Address → Address
  slashRouteDestinations : Destinations
  slashedTicketReservations : Address → Key → SlashedTicketReservation
  pendingSlashRouteCount : Address → ℕ
  ticketTokenDecimals : ℕ
  ciphernodeBondTokenDecimals : ℕ
  numRegisteredOperators : ℕ
  bondedCheckpoints : Address
  slashing : SlashingLayout
  pool : Pool

/-- A freshly deployed ticket token. -/
def freshTicketToken (token registry : Address) (underlying : Erc20) : TicketToken :=
  ⟨token, registry, 0, fun _ => 0, 0, 0, underlying⟩

/-- Storage before `initialize`, owned by the account that will call it. -/
def State.blank (this deployer : Address) : State where
  this
  owner := deployer
  ticketToken := freshTicketToken 0 0 fun _ => 0
  bondTokenAddress := 0
  bondToken _ := 0
  registry := 0
  slashingManager := 0
  slashedFundsTreasury := 0
  ticketPrice := 0
  requiredCiphernodeBond := 0
  minTicketBalance := 0
  exitDelay := 0
  ciphernodeBondActiveBps := 0
  numActiveOperators := 0
  operators _ := ⟨0, 0, false, false, false, 0⟩
  slashedTicketBalance := 0
  slashedCiphernodeBond := 0
  exits := .empty
  eligibilityConfigurationVersion := 0
  reservedSlashedTicketBalance := 0
  authorized := ⟨[], fun _ => 0⟩
  totalCiphernodeBondLiability := 0
  bondOwnerOf _ := 0
  bondedByOwner _ := 0
  pendingBondOwnerOf _ := 0
  slashRouteDestinations _ _ := 0
  slashedTicketReservations _ _ := ⟨0, 0, 0⟩
  pendingSlashRouteCount _ := 0
  ticketTokenDecimals := 0
  ciphernodeBondTokenDecimals := 0
  numRegisteredOperators := 0
  bondedCheckpoints := 0
  slashing := .blank
  pool := .blank

def State.setOperator (s : State) (operator : Address) (o : Operator) : State :=
  { s with operators := update s.operators operator o }

/-- Writes `operators[operator].ciphernodeBond`. -/
def State.setBond (s : State) (operator : Address) (n : ℕ) : State :=
  s.setOperator operator { s.operators operator with ciphernodeBond := n }

def State.setQueue (s : State) (operator : Address) (q : OperatorQueue) : State :=
  { s with exits := update s.exits operator q }

/-! ## Modifiers and internal helpers -/

variable (env : Env)

def onlyOwner (s : State) : Tx Unit :=
  require (env.sender = s.owner) (.ownableUnauthorizedAccount env.sender)

def onlyAuthorizedSlashingManager (s : State) : Tx Unit :=
  require (s.authorized.indexPlusOne env.sender ≠ 0) .unauthorized

variable (operator : Address)

def noExitInProgress (s : State) : Tx Unit :=
  let op := s.operators operator
  require (¬(op.exitRequested = true ∧ env.now < op.exitUnlocksAt)) .exitInProgress

def noOpenSlashProposal (s : State) : Tx Unit :=
  require (s.slashing.openSlashLocks operator = 0) .operatorUnderSlash

def checkBondOwner (s : State) : Tx Unit :=
  require (env.sender = s.bondOwnerOf operator) (.notBondOwner env.sender operator)

def checkBondOwnerOrOperator (s : State) : Tx Unit :=
  if env.sender = operator then pure () else checkBondOwner env operator s

/-- `_syncBondedCheckpoint`, of which only success or failure matters here. -/
def syncBondedCheckpoint (bondOwner : Address) (s : State) : Tx Unit :=
  if s.bondedCheckpoints = 0 then pure ()
  else require (env.checkpointsAccept bondOwner (s.bondedByOwner bondOwner) = true)
    .externalCallReverted

/-- A call to an unset bond token reverts. -/
def acceptsBondTransfer (env : Env) (s : State) : Bool :=
  s.bondTokenAddress ≠ 0 && env.acceptsBondTransfer

def isOperatorBanned (s : State) : Bool :=
  s.slashing.activeBans operator ≠ 0

def updateOperatorStatus (s : State) : Tx State := do
  let op := s.operators operator
  let version := s.eligibilityConfigurationVersion
  let (pool, activeCount, newActive) ← Eligibility.updateOperator env s.this operator
    s.bondOwnerOf s.numRegisteredOperators (decide (op.eligibilityVersion = version) && op.active)
    { registered := op.registered
      banned := isOperatorBanned operator s
      ciphernodeBond := op.ciphernodeBond
      requiredCiphernodeBond := s.requiredCiphernodeBond
      ciphernodeBondActiveBps := s.ciphernodeBondActiveBps
      registry := s.registry
      ticketToken := s.ticketToken
      ticketPrice := s.ticketPrice
      minTicketBalance := s.minTicketBalance }
    version s.numActiveOperators s.pool
  pure { s.setOperator operator { op with eligibilityVersion := version, active := newActive } with
    pool, numActiveOperators := activeCount }

def invalidateEligibilityStatuses (s : State) : Tx State := do
  let (version, pool) ← Eligibility.invalidateConfiguration env
    s.eligibilityConfigurationVersion s.numRegisteredOperators s.pool
  pure { s with
    eligibilityConfigurationVersion := version, pool, numActiveOperators := 0 }

/-! ## Bond ownership -/

def setBondOwner (bondOwner : Address) (s : State) : Tx State := do
  require (bondOwner ≠ 0) .zeroAddress
  let currentOwner := s.bondOwnerOf env.sender
  let op := s.operators env.sender
  let q := s.exits env.sender
  require (currentOwner = 0 ∨ (op.registered = false ∧ op.ciphernodeBond = 0 ∧
      q.pending .ciphernodeBond = 0 ∧ s.ticketToken.balanceOf env.sender = 0 ∧
      q.pending .ticket = 0)) (.bondOwnerAlreadySet env.sender currentOwner)
  let pool ← recordOwner env s.bondOwnerOf env.sender currentOwner bondOwner s.pool
  pure { s with
    pendingBondOwnerOf := update s.pendingBondOwnerOf env.sender 0
    pool
    bondOwnerOf := update s.bondOwnerOf env.sender bondOwner }

def proposeBondOwner (operator newOwner : Address) (s : State) : Tx State := do
  checkBondOwner env operator s
  require (newOwner ≠ 0) .zeroAddress
  pure { s with pendingBondOwnerOf := update s.pendingBondOwnerOf operator newOwner }

def validateBondOwnerTransfer (previousOwner : Address) (bonded delegatedBond : ℕ) (s : State) :
    Tx Unit :=
  if delegatedBond = 0 then pure () else do
    let remainingBonded ← checkedSub bonded delegatedBond
    match env.lockedBalanceOf s.bondTokenAddress previousOwner with
    | none => revertWith .incompatibleCiphernodeBondToken
    | some locked => do
      let controlled ← checkedAdd (s.bondToken previousOwner) remainingBonded
      require (locked ≤ controlled) (.bondOwnerTransferViolatesLock previousOwner locked controlled)

def acceptBondOwner (s : State) : Tx State := do
  require (env.sender = s.pendingBondOwnerOf operator) .unauthorized
  let previousOwner := s.bondOwnerOf operator
  let delegatedBond ← checkedAdd (s.operators operator).ciphernodeBond
    ((s.exits operator).pending .ciphernodeBond)
  validateBondOwnerTransfer env previousOwner (s.bondedByOwner previousOwner) delegatedBond s
  let pool ← recordOwner env s.bondOwnerOf operator previousOwner env.sender s.pool
  let left ← checkedSub (s.bondedByOwner previousOwner) delegatedBond
  let bonded := update s.bondedByOwner previousOwner left
  let gained ← checkedAdd (bonded env.sender) delegatedBond
  let s := { s with
    pendingBondOwnerOf := update s.pendingBondOwnerOf operator 0
    pool
    bondOwnerOf := update s.bondOwnerOf operator env.sender
    bondedByOwner := update bonded env.sender gained }
  syncBondedCheckpoint env previousOwner s
  syncBondedCheckpoint env env.sender s
  pure s

/-! ## Registration -/

def registerOperatorFor (s : State) : Tx State := do
  noExitInProgress env operator s
  checkBondOwner env operator s
  let op := s.operators operator
  let op := if op.exitRequested then { op with exitRequested := false, exitUnlocksAt := 0 } else op
  require (s.slashingManager ≠ 0) .zeroAddress
  require (isOperatorBanned operator s = false) .ciphernodeBanned
  require (op.registered = false) .alreadyRegistered
  require (s.requiredCiphernodeBond ≤ op.ciphernodeBond) .notCiphernodeBonded
  let pool ← Eligibility.excludeNewRegistration env s.numRegisteredOperators operator s.pool
  let pool ← Admission.start env operator pool
  let count ← checkedAdd s.numRegisteredOperators 1
  require (env.registryAccepts = true) .externalCallReverted
  updateOperatorStatus env operator { s.setOperator operator { op with registered := true } with
    pool, numRegisteredOperators := count }

/-- `BondingRegistrationLib.releaseAssets`. -/
def releaseAssets (s : State) : Tx State := do
  let ticketOut := s.ticketToken.balanceOf operator
  let ciphernodeBondOut := (s.operators operator).ciphernodeBond
  let token ← (if ticketOut ≠ 0 then s.ticketToken.burnTickets s.this operator ticketOut
    else pure s.ticketToken)
  let s := { s.setBond operator 0 with ticketToken := token }
  let q ← queueAssetsForExit env.now s.exitDelay ticketOut ciphernodeBondOut (s.exits operator)
  pure (s.setQueue operator q)

def deregisterOperatorFor (s : State) : Tx State := do
  noExitInProgress env operator s
  noOpenSlashProposal operator s
  checkBondOwnerOrOperator env operator s
  let op := s.operators operator
  require (op.registered = true) .notRegistered
  let pool ← Eligibility.completeOperatorRefresh env s.numRegisteredOperators operator s.pool
  -- The sum is a checked addition of two `uint64`.
  let exitUnlocksAt := toUint64 env.now + s.exitDelay
  (if exitUnlocksAt ≤ uint64Max then pure () else .error .panic)
  let count ← checkedSub s.numRegisteredOperators 1
  let s := { s.setOperator operator
      { op with registered := false, exitRequested := true, exitUnlocksAt } with
    pool, numRegisteredOperators := count }
  let s ← releaseAssets env operator s
  require (env.registryAccepts = true) .externalCallReverted
  updateOperatorStatus env operator s

/-! ## Tickets -/

def addTicketBalanceFor (amount : ℕ) (s : State) : Tx State := do
  noExitInProgress env operator s
  checkBondOwner env operator s
  require (amount ≠ 0) .zeroAmount
  require ((s.operators operator).registered = true) .notRegistered
  let token ← s.ticketToken.depositFrom env.acceptsUnderlyingTransfer s.this env.sender operator
    amount
  updateOperatorStatus env operator { s with ticketToken := token }

def removeTicketBalanceFor (amount : ℕ) (s : State) : Tx State := do
  noExitInProgress env operator s
  noOpenSlashProposal operator s
  checkBondOwner env operator s
  require (amount ≠ 0) .zeroAmount
  require ((s.operators operator).registered = true) .notRegistered
  require (amount ≤ s.ticketToken.balanceOf operator) .insufficientBalance
  let token ← s.ticketToken.burnTickets s.this operator amount
  let q ← queueAssetsForExit env.now s.exitDelay amount 0 (s.exits operator)
  updateOperatorStatus env operator ({ s with ticketToken := token }.setQueue operator q)

/-! ## Bonds -/

def bondCiphernodeFor (amount : ℕ) (s : State) : Tx State := do
  noExitInProgress env operator s
  require (operator ≠ 0) .zeroAddress
  require (amount ≠ 0) .zeroAmount
  let bondOwner := s.bondOwnerOf operator
  require (env.sender = bondOwner) (.notBondOwner env.sender operator)
  let bond ← checkedAdd (s.operators operator).ciphernodeBond amount
  let bonded ← checkedAdd (s.bondedByOwner bondOwner) amount
  let s := { s.setBond operator bond with
    bondedByOwner := update s.bondedByOwner bondOwner bonded }
  syncBondedCheckpoint env bondOwner s
  let token ← s.bondToken.transferFromExact (acceptsBondTransfer env s) s.this env.sender amount
  let liability ← checkedAdd s.totalCiphernodeBondLiability amount
  updateOperatorStatus env operator { s with
    bondToken := token, totalCiphernodeBondLiability := liability }

def unbondCiphernodeFor (amount : ℕ) (s : State) : Tx State := do
  noExitInProgress env operator s
  noOpenSlashProposal operator s
  checkBondOwner env operator s
  require (amount ≠ 0) .zeroAmount
  let bond := (s.operators operator).ciphernodeBond
  require (amount ≤ bond) .insufficientBalance
  let s := s.setBond operator (bond - amount)
  let q ← queueAssetsForExit env.now s.exitDelay 0 amount (s.exits operator)
  updateOperatorStatus env operator (s.setQueue operator q)

/-- `BondingAssetLib.claimExits`. It returns the bond claimed. -/
def claimExits (maxTicketAmount maxCiphernodeBondAmount : ℕ) (s : State) : Tx (ℕ × State) := do
  let ((ticketClaim, bondClaim), q) ← claimAssets env.now maxTicketAmount maxCiphernodeBondAmount
    (s.exits operator)
  require (¬(ticketClaim = 0 ∧ bondClaim = 0)) .exitNotReady
  let bondOwner := s.bondOwnerOf operator
  require (bondOwner ≠ 0) .zeroAddress
  let token ← (if ticketClaim ≠ 0 then
    s.ticketToken.payout env.acceptsUnderlyingTransfer s.this bondOwner ticketClaim
    else pure s.ticketToken)
  let s := { s.setQueue operator q with ticketToken := token }
  if bondClaim ≠ 0 then do
    let left ← checkedSub (s.bondedByOwner bondOwner) bondClaim
    let bondToken ← s.bondToken.transferExact (acceptsBondTransfer env s) s.this bondOwner bondClaim
    pure (bondClaim, { s with
      bondedByOwner := update s.bondedByOwner bondOwner left, bondToken })
  else pure (bondClaim, s)

def claimExitsFor (maxTicketAmount maxCiphernodeBondAmount : ℕ) (s : State) : Tx State := do
  (if maxCiphernodeBondAmount ≠ 0 then checkBondOwner env operator s else pure ())
  validateExitClaim operator s.slashing
  let (bondClaim, s) ← claimExits env operator maxTicketAmount maxCiphernodeBondAmount s
  let liability ← checkedSub s.totalCiphernodeBondLiability bondClaim
  let s := { s with totalCiphernodeBondLiability := liability }
  syncBondedCheckpoint env (s.bondOwnerOf operator) s
  pure s

/-! ## Slashing -/

/-- Returns the amount slashed. -/
def slashTicketBalance (requestedSlashAmount : ℕ) (s : State) : Tx (ℕ × State) := do
  onlyAuthorizedSlashingManager env s
  require (requestedSlashAmount ≠ 0) .zeroAmount
  let activeBalance := s.ticketToken.balanceOf operator
  let available ← checkedAdd activeBalance ((s.exits operator).pending .ticket)
  let actual := min requestedSlashAmount available
  if actual = 0 then pure (0, s) else do
    let fromActive := min actual activeBalance
    let token ← (if 0 < fromActive then s.ticketToken.burnTickets s.this operator fromActive
      else pure s.ticketToken)
    let remaining := actual - fromActive
    let q ← (if 0 < remaining then do
        let ((slashed, _), q) ← slashPendingAssets env.now remaining 0 true (s.exits operator)
        require (slashed = remaining) .insufficientBalance
        pure q
      else pure (s.exits operator))
    let total ← checkedAdd s.slashedTicketBalance actual
    let s ← updateOperatorStatus env operator
      ({ s with ticketToken := token, slashedTicketBalance := total }.setQueue operator q)
    pure (actual, s)

/-- Returns the amount slashed. -/
def slashCiphernodeBond (requestedSlashAmount : ℕ) (s : State) : Tx (ℕ × State) := do
  onlyAuthorizedSlashingManager env s
  require (requestedSlashAmount ≠ 0) .zeroAmount
  let bond := (s.operators operator).ciphernodeBond
  let available ← checkedAdd bond ((s.exits operator).pending .ciphernodeBond)
  let actual := min requestedSlashAmount available
  if actual = 0 then pure (0, s) else do
    let fromActive := min actual bond
    let remaining := actual - fromActive
    let q ← (if remaining ≠ 0 then do
        let ((_, slashed), q) ← slashPendingAssets env.now 0 remaining true (s.exits operator)
        require (slashed = remaining) .insufficientBalance
        pure q
      else pure (s.exits operator))
    let bondOwner := s.bondOwnerOf operator
    let left ← checkedSub (s.bondedByOwner bondOwner) actual
    let s := { (s.setBond operator (bond - fromActive)).setQueue operator q with
      bondedByOwner := update s.bondedByOwner bondOwner left }
    syncBondedCheckpoint env bondOwner s
    let total ← checkedAdd s.slashedCiphernodeBond actual
    let s ← updateOperatorStatus env operator { s with slashedCiphernodeBond := total }
    pure (actual, s)

def snapshotSlashRouteDestination (e3Id : Key) (refundManager interfold : Address) (s : State) :
    Tx State := do
  onlyAuthorizedSlashingManager env s
  let (d, l) ← snapshotE3 env.sender e3Id refundManager interfold s.slashRouteDestinations
    s.slashing
  pure { s with slashRouteDestinations := d, slashing := l }

def releaseSlashRouteDestination (e3Id : Key) (s : State) : Tx State := do
  onlyAuthorizedSlashingManager env s
  let (d, l) ← releaseE3 env env.sender e3Id s.slashRouteDestinations s.slashing
  pure { s with slashRouteDestinations := d, slashing := l }

def openSlashLock (e3Id proposalId : Key) (operator : Address) (s : State) : Tx State := do
  onlyAuthorizedSlashingManager env s
  let l ← openLock env.sender e3Id proposalId operator s.slashRouteDestinations s.slashing
  pure { s with slashing := l }

def closeSlashLock (proposalId : Key) (operator : Address) (s : State) : Tx State := do
  onlyAuthorizedSlashingManager env s
  let l ← closeLock env.sender proposalId operator s.slashing
  pure { s with slashing := l }

/-- The common end of `setOperatorBan` and `clearSlashingManagerBan`. -/
def applyBan (manager operator : Address) (banned : Bool) (s : State) : Tx State := do
  let (changed, l) ← setBan manager operator banned s.slashing
  let s := { s with slashing := l }
  if changed && (s.operators operator).registered then updateOperatorStatus env operator s
  else pure s

def setOperatorBan (banned : Bool) (s : State) : Tx State := do
  onlyAuthorizedSlashingManager env s
  applyBan env env.sender operator banned s

def clearSlashingManagerBan (manager operator : Address) (s : State) : Tx State := do
  onlyOwner env s
  require (manager ≠ s.slashingManager) .invalidConfiguration
  require (s.authorized.indexPlusOne manager ≠ 0) .unauthorized
  applyBan env manager operator false s

def reserveSlashedTicketFunds (proposalId e3Id : Key) (amount : ℕ) (s : State) : Tx State := do
  onlyAuthorizedSlashingManager env s
  require (0 < amount) .zeroAmount
  let refundManager := s.slashRouteDestinations env.sender e3Id
  require (refundManager ≠ 0) (.slashRouteDestinationNotFound env.sender e3Id)
  require ((s.slashedTicketReservations env.sender proposalId).amount = 0)
    (.slashReservationAlreadyExists env.sender proposalId)
  let unreserved ← checkedSub s.slashedTicketBalance s.reservedSlashedTicketBalance
  require (amount ≤ unreserved) .insufficientBalance
  let routes ← checkedAdd (s.pendingSlashRouteCount env.sender) 1
  let l ← updateRouteCount env.sender e3Id true s.slashing
  let reserved ← checkedAdd s.reservedSlashedTicketBalance amount
  pure { s with
    slashedTicketReservations := update₂ s.slashedTicketReservations env.sender proposalId
      ⟨e3Id, refundManager, amount⟩
    pendingSlashRouteCount := update s.pendingSlashRouteCount env.sender routes
    slashing := l
    reservedSlashedTicketBalance := reserved }

def redirectReservedSlashedTicketFunds (proposalId : Key) (s : State) : Tx State := do
  onlyAuthorizedSlashingManager env s
  let reservation := s.slashedTicketReservations env.sender proposalId
  require (reservation.amount ≠ 0) (.slashReservationNotFound env.sender proposalId)
  let routes ← checkedSub (s.pendingSlashRouteCount env.sender) 1
  let l ← updateRouteCount env.sender reservation.e3Id false s.slashing
  let reserved ← checkedSub s.reservedSlashedTicketBalance reservation.amount
  let total ← checkedSub s.slashedTicketBalance reservation.amount
  let token ← s.ticketToken.payout env.acceptsUnderlyingTransfer s.this
    reservation.refundManager reservation.amount
  pure { s with
    slashedTicketReservations := update₂ s.slashedTicketReservations env.sender proposalId ⟨0, 0, 0⟩
    pendingSlashRouteCount := update s.pendingSlashRouteCount env.sender routes
    slashing := l
    reservedSlashedTicketBalance := reserved
    slashedTicketBalance := total
    ticketToken := token }

def withdrawSlashedFunds (ticketAmount ciphernodeBondAmount : ℕ) (s : State) : Tx State := do
  onlyOwner env s
  let unreserved ← checkedSub s.slashedTicketBalance s.reservedSlashedTicketBalance
  require (ticketAmount ≤ unreserved) .reservedSlashedFunds
  require (ciphernodeBondAmount ≤ s.slashedCiphernodeBond) .insufficientBalance
  let s ← (if 0 < ticketAmount then do
      let total ← checkedSub s.slashedTicketBalance ticketAmount
      let token ← s.ticketToken.payout env.acceptsUnderlyingTransfer s.this
        s.slashedFundsTreasury ticketAmount
      pure { s with slashedTicketBalance := total, ticketToken := token }
    else pure s)
  if 0 < ciphernodeBondAmount then do
    let total ← checkedSub s.slashedCiphernodeBond ciphernodeBondAmount
    let liability ← checkedSub s.totalCiphernodeBondLiability ciphernodeBondAmount
    let token ← s.bondToken.transferExact (acceptsBondTransfer env s) s.this s.slashedFundsTreasury
      ciphernodeBondAmount
    pure { s with
      slashedCiphernodeBond := total
      totalCiphernodeBondLiability := liability
      bondToken := token }
  else pure s

def setCommitteeObligation (env : Env) (e3Id : Key) (operator : Address) (active : Bool)
    (s : State) : Tx State := do
  let l ← s.slashing.setCommitteeObligation env.sender s.registry e3Id operator active
  pure { s with slashing := l }

/-! ## Configuration -/

def refreshOperatorStatus (s : State) : Tx State :=
  if operator = 0 then do
    let releaseRegistry ← external (env.nodeReleaseRegistry s.registry)
    require (env.sender = releaseRegistry) .onlyNodeReleaseRegistry
    invalidateEligibilityStatuses env s
  else do
    require ((s.operators operator).registered = true) .notRegistered
    updateOperatorStatus env operator s

def refreshOperatorStatuses (env : Env) : List Address → State → Tx State
  | [], s => pure s
  | operator :: operators, s => do
    let s ← refreshOperatorStatus env operator s
    refreshOperatorStatuses env operators s

def setAdmissionPolicy (enabled : Bool) (duration : ℕ) (paused : Bool) (s : State) : Tx State := do
  onlyOwner env s
  let pool ← Admission.setPolicy env enabled duration paused s.pool
  pure { s with pool }

def setIdentityPolicy (registry : Address) (required : Bool) (s : State) : Tx State := do
  onlyOwner env s
  let pool ← Identity.setPolicy env registry required s.pool
  pure { s with pool }

/-- `_sweepCiphernodeBondSurplus`: sends what exceeds the liabilities to the treasury. -/
def sweepSurplus (s : State) : Tx State :=
  if s.bondTokenAddress = 0 ∨ s.bondToken s.this ≤ s.totalCiphernodeBondLiability then pure s
  else do
    let token ← s.bondToken.transferExact (acceptsBondTransfer env s) s.this s.slashedFundsTreasury
      (s.bondToken s.this - s.totalCiphernodeBondLiability)
    pure { s with bondToken := token }

def sweepCiphernodeBondSurplus (s : State) : Tx State := do
  onlyOwner env s
  sweepSurplus env s

/-- The struct `BondingAssetConfig`. The ledgers of tokens that are installed for the first time
come with it: the tickets start fresh, the other two with any balances. -/
structure BondingAssetConfig where
  ticketToken : Address
  ciphernodeBondToken : Address
  ticketPrice : ℕ
  requiredCiphernodeBond : ℕ
  expectedTicketDecimals : ℕ
  expectedCiphernodeBondDecimals : ℕ
  underlying : Erc20
  bondLedger : Erc20

def validateDecimals (token : Address) (expected : ℕ) : Tx Unit :=
  match env.decimals token with
  | none => revertWith (.bondingAssetDecimalsUnavailable token)
  | some actual => do
    require (actual < 256) (.bondingAssetDecimalsUnavailable token)
    require (actual = expected) (.bondingAssetDecimalsMismatch token expected actual)

def validateTicketAsset (next : Address) (expectedDecimals : ℕ) (s : State) : Tx Unit := do
  require (env.codeAt next = true) (.invalidBondingAsset next)
  validateDecimals env next expectedDecimals
  match env.ticketRegistry next with
  | none => revertWith (.invalidBondingAsset next)
  | some configured => do
    require (configured = s.this ∨ s.ticketToken.this = 0)
      (.ticketTokenRegistryMismatch configured s.this)
    if s.ticketToken.this = 0 ∨
        (s.ticketToken.this = next ∧ s.ticketTokenDecimals = expectedDecimals) then pure ()
    else do
      let liabilities ← checkedAdd s.ticketToken.totalSupply s.ticketToken.payableBalance
      require (liabilities = 0) (.outstandingAssetLiabilities s.ticketToken.this liabilities)

def validateCiphernodeBondAsset (next : Address) (expectedDecimals : ℕ) (s : State) : Tx Unit :=
  if next = 0 then
    require (s.bondTokenAddress = 0 ∧ expectedDecimals = 0) (.invalidBondingAsset next)
  else do
    require (env.codeAt next = true) (.invalidBondingAsset next)
    validateDecimals env next expectedDecimals
    (if s.bondTokenAddress ≠ 0 ∧
        (s.bondTokenAddress ≠ next ∨ s.ciphernodeBondTokenDecimals ≠ expectedDecimals) then
      require (s.bondToken s.this = 0)
        (.outstandingAssetLiabilities s.bondTokenAddress (s.bondToken s.this))
    else pure ())
    match env.lockedBalanceOf next s.this with
    | none => revertWith .incompatibleCiphernodeBondToken
    | some _ => pure ()

/-- `_requireNoAssetConfigurationObligations`. -/
def requireNoObligations (s : State) : List Address → Tx Unit
  | [] => pure ()
  | manager :: managers => do
    let o := s.slashing.managers manager
    let routes := s.pendingSlashRouteCount manager
    require (o.e3Assignments = 0 ∧ o.openSlashLocks = 0 ∧ routes = 0)
      (.assetConfigurationInUse manager o.e3Assignments o.openSlashLocks routes)
    requireNoObligations s managers

/-- `_setBondingAssetConfig`. -/
def installAssetConfig (config : BondingAssetConfig) (s : State) : Tx State := do
  let s ← sweepSurplus env s
  require (config.ticketPrice ≠ 0 ∧ config.requiredCiphernodeBond ≠ 0) .invalidConfiguration
  validateTicketAsset env config.ticketToken config.expectedTicketDecimals s
  validateCiphernodeBondAsset env config.ciphernodeBondToken config.expectedCiphernodeBondDecimals s
  let ticketChanged := s.ticketToken.this ≠ config.ticketToken
  let bondChanged := s.bondTokenAddress ≠ config.ciphernodeBondToken
  (if ticketChanged ∨ bondChanged ∨ s.ticketTokenDecimals ≠ config.expectedTicketDecimals ∨
      s.ciphernodeBondTokenDecimals ≠ config.expectedCiphernodeBondDecimals then
    requireNoObligations s s.authorized.items
  else pure ())
  invalidateEligibilityStatuses env { s with
    ticketToken := if ticketChanged then
      freshTicketToken config.ticketToken s.this config.underlying else s.ticketToken
    bondTokenAddress := config.ciphernodeBondToken
    bondToken := if bondChanged then config.bondLedger else s.bondToken
    ticketPrice := config.ticketPrice
    requiredCiphernodeBond := config.requiredCiphernodeBond
    ticketTokenDecimals := config.expectedTicketDecimals
    ciphernodeBondTokenDecimals := config.expectedCiphernodeBondDecimals
    bondedCheckpoints := if bondChanged then 0 else s.bondedCheckpoints }

def setBondingAssetConfig (config : BondingAssetConfig) (s : State) : Tx State := do
  onlyOwner env s
  installAssetConfig env config s

def setCiphernodeBondActiveBps (newBps : ℕ) (s : State) : Tx State := do
  onlyOwner env s
  require (0 < newBps ∧ newBps ≤ Eligibility.bpsBase) .invalidConfiguration
  if s.ciphernodeBondActiveBps = newBps then pure s
  else invalidateEligibilityStatuses env { s with ciphernodeBondActiveBps := newBps }

def setMinTicketBalance (newMinTicketBalance : ℕ) (s : State) : Tx State := do
  onlyOwner env s
  require (newMinTicketBalance ≠ 0) .invalidConfiguration
  if s.minTicketBalance = newMinTicketBalance then pure s
  else invalidateEligibilityStatuses env { s with minTicketBalance := newMinTicketBalance }

def setBondedCheckpoints (newCheckpoints : Address) (s : State) : Tx State := do
  onlyOwner env s
  require (s.bondedCheckpoints = 0) .invalidConfiguration
  let registry ← external (env.checkpointsRegistry newCheckpoints)
  require (registry = s.this) .invalidConfiguration
  let s := { s with bondedCheckpoints := newCheckpoints }
  syncBondedCheckpoint env 0 s
  pure s

def resyncBondedCheckpoint (bondOwner : Address) (s : State) : Tx State := do
  syncBondedCheckpoint env bondOwner s
  pure s

def setExitDelay (newExitDelay : ℕ) (s : State) : Tx State := do
  onlyOwner env s
  require (86400 ≤ newExitDelay ∧ newExitDelay ≤ 7776000) (.exitDelayOutOfRange newExitDelay)
  (if s.registry = 0 then pure () else do
    let floor ← external (env.exitDelayFloor s.registry)
    require (floor < newExitDelay) (.exitDelayMustExceedSortitionWindow newExitDelay floor))
  pure { s with exitDelay := newExitDelay }

def setSlashedFundsTreasury (newTreasury : Address) (s : State) : Tx State := do
  onlyOwner env s
  require (newTreasury ≠ 0) .zeroAddress
  pure { s with slashedFundsTreasury := newTreasury }

def setRegistry (newRegistry : Address) (s : State) : Tx State := do
  onlyOwner env s
  require (newRegistry ≠ 0) .zeroAddress
  let floor ← external (env.exitDelayFloor newRegistry)
  require (s.exitDelay = 0 ∨ floor < s.exitDelay)
    (.exitDelayMustExceedSortitionWindow s.exitDelay floor)
  (if s.registry = 0 ∨ s.registry = newRegistry then pure () else do
    require (s.numRegisteredOperators = 0 ∧ s.numActiveOperators = 0 ∧
      s.slashing.unresolvedCommitteeCount = 0) .invalidConfiguration
    let nodes ← external (env.numCiphernodes newRegistry)
    require (nodes = 0) .invalidConfiguration)
  pure { s with registry := newRegistry }

def setSlashingManager (newSlashingManager : Address) (s : State) : Tx State := do
  onlyOwner env s
  require (newSlashingManager ≠ 0) .zeroAddress
  let m ← authorizeManager env newSlashingManager s.this s.authorized
  pure { s with authorized := m, slashingManager := newSlashingManager }

def revokeSlashingManager (oldSlashingManager : Address) (s : State) : Tx State := do
  onlyOwner env s
  let m ← revokeManager oldSlashingManager s.slashingManager s.pendingSlashRouteCount s.slashing
    s.authorized
  pure { s with authorized := m }

/-- The effect of `Ownable2Step`'s two calls: the owner hands the contract to `newOwner`. -/
def transferOwnership (newOwner : Address) (s : State) : Tx State := do
  onlyOwner env s
  pure { s with owner := newOwner }

/-- The function `initialize`, called once on blank storage. -/
def initializeRegistry (owner : Address) (config : BondingAssetConfig) (registry treasury : Address)
    (minTicketBalance exitDelay : ℕ) (s : State) : Tx State := do
  let s ← installAssetConfig env config s
  let s ← setRegistry env registry s
  let s ← setSlashedFundsTreasury env treasury s
  let s ← setMinTicketBalance env minTicketBalance s
  let s ← setExitDelay env exitDelay s
  let s ← setCiphernodeBondActiveBps env 8000 s
  pure { s with owner }

/-! ## Runs -/

inductive Call where
  | setBondOwner (bondOwner : Address)
  | proposeBondOwner (operator newOwner : Address)
  | acceptBondOwner (operator : Address)
  | registerOperatorFor (operator : Address)
  | deregisterOperatorFor (operator : Address)
  | addTicketBalanceFor (operator : Address) (amount : ℕ)
  | removeTicketBalanceFor (operator : Address) (amount : ℕ)
  | bondCiphernodeFor (operator : Address) (amount : ℕ)
  | unbondCiphernodeFor (operator : Address) (amount : ℕ)
  | claimExitsFor (operator : Address) (maxTicketAmount maxCiphernodeBondAmount : ℕ)
  | slashTicketBalance (operator : Address) (requestedSlashAmount : ℕ)
  | slashCiphernodeBond (operator : Address) (requestedSlashAmount : ℕ)
  | snapshotSlashRouteDestination (e3Id : Key) (refundManager interfold : Address)
  | releaseSlashRouteDestination (e3Id : Key)
  | openSlashLock (e3Id proposalId : Key) (operator : Address)
  | closeSlashLock (proposalId : Key) (operator : Address)
  | setOperatorBan (operator : Address) (banned : Bool)
  | clearSlashingManagerBan (manager operator : Address)
  | reserveSlashedTicketFunds (proposalId e3Id : Key) (amount : ℕ)
  | redirectReservedSlashedTicketFunds (proposalId : Key)
  | withdrawSlashedFunds (ticketAmount ciphernodeBondAmount : ℕ)
  | setCommitteeObligation (e3Id : Key) (operator : Address) (active : Bool)
  | refreshOperatorStatus (operator : Address)
  | refreshOperatorStatuses (operators : List Address)
  | setAdmissionPolicy (enabled : Bool) (duration : ℕ) (paused : Bool)
  | setIdentityPolicy (registry : Address) (required : Bool)
  | sweepCiphernodeBondSurplus
  | setBondingAssetConfig (config : BondingAssetConfig)
  | setCiphernodeBondActiveBps (newBps : ℕ)
  | setMinTicketBalance (newMinTicketBalance : ℕ)
  | setBondedCheckpoints (newCheckpoints : Address)
  | resyncBondedCheckpoint (bondOwner : Address)
  | setExitDelay (newExitDelay : ℕ)
  | setSlashedFundsTreasury (newTreasury : Address)
  | setRegistry (newRegistry : Address)
  | setSlashingManager (newSlashingManager : Address)
  | revokeSlashingManager (oldSlashingManager : Address)
  | transferOwnership (newOwner : Address)

def exec (s : State) : Call → Tx State
  | .setBondOwner bondOwner => setBondOwner env bondOwner s
  | .proposeBondOwner operator newOwner => proposeBondOwner env operator newOwner s
  | .acceptBondOwner operator => acceptBondOwner env operator s
  | .registerOperatorFor operator => registerOperatorFor env operator s
  | .deregisterOperatorFor operator => deregisterOperatorFor env operator s
  | .addTicketBalanceFor operator amount => addTicketBalanceFor env operator amount s
  | .removeTicketBalanceFor operator amount => removeTicketBalanceFor env operator amount s
  | .bondCiphernodeFor operator amount => bondCiphernodeFor env operator amount s
  | .unbondCiphernodeFor operator amount => unbondCiphernodeFor env operator amount s
  | .claimExitsFor operator maxTicket maxBond => claimExitsFor env operator maxTicket maxBond s
  | .slashTicketBalance operator amount => Prod.snd <$> slashTicketBalance env operator amount s
  | .slashCiphernodeBond operator amount => Prod.snd <$> slashCiphernodeBond env operator amount s
  | .snapshotSlashRouteDestination e3Id refundManager interfold =>
    snapshotSlashRouteDestination env e3Id refundManager interfold s
  | .releaseSlashRouteDestination e3Id => releaseSlashRouteDestination env e3Id s
  | .openSlashLock e3Id proposalId operator => openSlashLock env e3Id proposalId operator s
  | .closeSlashLock proposalId operator => closeSlashLock env proposalId operator s
  | .setOperatorBan operator banned => setOperatorBan env operator banned s
  | .clearSlashingManagerBan manager operator => clearSlashingManagerBan env manager operator s
  | .reserveSlashedTicketFunds proposalId e3Id amount =>
    reserveSlashedTicketFunds env proposalId e3Id amount s
  | .redirectReservedSlashedTicketFunds proposalId =>
    redirectReservedSlashedTicketFunds env proposalId s
  | .withdrawSlashedFunds ticketAmount bondAmount =>
    withdrawSlashedFunds env ticketAmount bondAmount s
  | .setCommitteeObligation e3Id operator active =>
    setCommitteeObligation env e3Id operator active s
  | .refreshOperatorStatus operator => refreshOperatorStatus env operator s
  | .refreshOperatorStatuses operators => refreshOperatorStatuses env operators s
  | .setAdmissionPolicy enabled duration paused => setAdmissionPolicy env enabled duration paused s
  | .setIdentityPolicy registry required => setIdentityPolicy env registry required s
  | .sweepCiphernodeBondSurplus => sweepCiphernodeBondSurplus env s
  | .setBondingAssetConfig config => setBondingAssetConfig env config s
  | .setCiphernodeBondActiveBps newBps => setCiphernodeBondActiveBps env newBps s
  | .setMinTicketBalance newMinTicketBalance => setMinTicketBalance env newMinTicketBalance s
  | .setBondedCheckpoints newCheckpoints => setBondedCheckpoints env newCheckpoints s
  | .resyncBondedCheckpoint bondOwner => resyncBondedCheckpoint env bondOwner s
  | .setExitDelay newExitDelay => setExitDelay env newExitDelay s
  | .setSlashedFundsTreasury newTreasury => setSlashedFundsTreasury env newTreasury s
  | .setRegistry newRegistry => setRegistry env newRegistry s
  | .setSlashingManager newSlashingManager => setSlashingManager env newSlashingManager s
  | .revokeSlashingManager oldSlashingManager => revokeSlashingManager env oldSlashingManager s
  | .transferOwnership newOwner => transferOwnership env newOwner s

/-- States of an initialized registry after calls that did not revert, at block times that never
decrease. Between calls other accounts move the two tokens, but nobody except the registry and
the ticket token spends what these two hold. A message never comes from the zero address. -/
inductive Reachable : ℕ → State → Prop
  | init {env : Env} {this owner : Address} {config : BondingAssetConfig}
      {registry treasury : Address} {minTicketBalance exitDelay : ℕ} {s : State}
      (h : initializeRegistry env owner config registry treasury minTicketBalance exitDelay
        (.blank this env.sender) = .ok s) : Reachable env.now s
  | wait (h : Reachable now s) (hle : now ≤ later) : Reachable later s
  | call {env : Env} {s s' : State} {c : Call} (h : Reachable env.now s) (hsender : env.sender ≠ 0)
      (hexec : exec env s c = .ok s') : Reachable env.now s'
  | transfers {now : ℕ} {s : State} {bondToken underlying : Erc20} (h : Reachable now s)
      (hbond : s.bondToken s.this ≤ bondToken s.this)
      (hunderlying : s.ticketToken.underlying s.ticketToken.this ≤ underlying s.ticketToken.this) :
      Reachable now { s with
        bondToken, ticketToken := { s.ticketToken with underlying } }

/-- A sequence of calls, each with its own environment. -/
def runCalls (s : State) : List (Env × Call) → Tx State
  | [] => pure s
  | (env, c) :: calls => do
    let s ← exec env s c
    runCalls s calls

lemma Reachable.runCalls (h : Reachable now s)
    (hcalls : ∀ x ∈ calls, x.1.sender ≠ 0 ∧ x.1.now = now) (hrun : runCalls s calls = .ok s') :
    Reachable now s' := by
  induction calls generalizing s with
  | nil =>
    simp only [Bonding.runCalls, pure_ok] at hrun
    exact hrun ▸ h
  | cons x calls ih =>
    obtain ⟨env, c⟩ := x
    simp only [Bonding.runCalls, bind_ok] at hrun
    obtain ⟨s₁, hexec, hrun⟩ := hrun
    obtain ⟨hsender, rfl⟩ := hcalls (env, c) List.mem_cons_self
    exact ih (h.call hsender hexec) (fun y hy => hcalls y (List.mem_cons_of_mem _ hy)) hrun

/-! ## A small deployment -/

/-- Every other contract answers as a well-behaved deployment does. -/
def deploymentEnv (sender : Address) (now : ℕ) : Env where
  sender
  now
  hasCode _ := true
  isVerifiedAt _ _ _ := some true
  identityExpiry _ _ := some 0
  revocationCountAt _ _ := some 0
  nodeReleaseRegistry _ := some 0
  isNodeReleaseReady _ _ := some true
  getE3Stage _ _ := some .complete
  exitDelayFloor _ := some 0
  numCiphernodes _ := some 0
  registryAccepts := true
  checkpointsAccept _ _ := true
  checkpointsRegistry _ := some 1
  lockedBalanceOf _ _ := some 0
  decimals _ := some 6
  ticketRegistry _ := some 1
  acceptsBondTransfer := true
  acceptsUnderlyingTransfer := true
  slashingManagerApiVersion _ := some slashingManagerApiVersion
  slashingManagerBonding _ := some 1
  supportsSlashingManager _ := some true

/-- A registry at address 1, owned by account 9, that has executed `calls` at time 1000. Tickets
cost 10, the bond is 100 and everybody starts with 1000 of both tokens. -/
def deployed (calls : List (Address × Call)) : Tx State := do
  let s ← initializeRegistry (deploymentEnv 9 1000) 9
    ⟨2, 3, 10, 100, 6, 6, fun _ => 1000, fun _ => 1000⟩ 4 5 1 86400 (.blank 1 9)
  runCalls s (calls.map fun x => (deploymentEnv x.1 1000, x.2))

lemma Reachable.deployed (hcalls : ∀ x ∈ calls, x.1 ≠ 0) (h : deployed calls = .ok s) :
    Reachable 1000 s := by
  simp only [Bonding.deployed, bind_ok] at h
  obtain ⟨s₀, hinit, hrun⟩ := h
  refine (Reachable.init hinit).runCalls ?_ hrun
  intro x hx
  obtain ⟨y, hy, rfl⟩ := List.mem_map.1 hx
  exact ⟨hcalls y hy, rfl⟩

end Interfold.Bonding
