import Interfold.Contracts.Fold.Votes

/-!
# Bond and governance token

`InterfoldToken`: an `ERC20Votes` token whose balances can be locked under vesting policies. Locks
come with minted allocations and with transfers from the claim source. A claim that arrives before
its policy is known is locked as pending and linked later; a link that arrives before its claim is
queued. What an account has bonded counts towards its locks.

The bonding registry appears as the view `totalBonded` in `Env`; `none` stands for a call that
reverts. Events are not modelled.
-/

namespace Interfold.Fold

open Transaction Checkpoints Function

inductive Phase where
  | virtual
  | cca
  | cooldown
  | live
deriving DecidableEq, Repr

inductive Anchor where
  | absolute
  | tge
deriving DecidableEq, Repr

structure Curve where
  anchor : Anchor
  start : ℕ
  cliffDuration : ℕ
  vestDuration : ℕ
deriving DecidableEq, Repr

structure LockPolicy where
  holdUntil : ℕ
  unlock : Curve
deriving DecidableEq, Repr

structure Lock where
  policyId : Key
  amount : ℕ
deriving DecidableEq

structure MintAllocation where
  recipient : Address
  amount : ℕ
  policyId : Key
deriving DecidableEq

inductive Role where
  | defaultAdmin
  | minter
  | whitelist
  | lockManager
deriving DecidableEq, Repr

/-- `MAX_SUPPLY`. -/
def maxSupply : ℕ := 1200000000 * 10 ^ 18

/-- `TGE_COOLDOWN`, forty days. -/
def tgeCooldown : ℕ := 40 * 86400

/-- `PENDING_LOCK_POLICY_ID`: the seven letters at the high end of the word. -/
def pendingLockPolicyId : Key := (⟨0x50454E44494E47 * 2 ^ 200, by decide⟩ : Fin (2 ^ 256))

/-- `MAX_LOCKS_PER_ACCOUNT`. -/
def maxLocksPerAccount : ℕ := 8

/-- `MAX_QUEUED_LOCKS_PER_ACCOUNT`. -/
def maxQueuedLocksPerAccount : ℕ := 8

structure State where
  owner : Address
  hasRole : Role → Address → Bool
  ccaStart : ℕ
  ccaEnd : ℕ
  noMoreLocks : ℕ
  claimSource : Address
  bondingRegistry : Address
  tgeTimestamp : ℕ
  transferWhitelist : Address → Bool
  claimLockExempt : Address → Bool
  lockPolicies : Key → LockPolicy
  locks : Address → List Lock
  queuedLocks : Address → List Lock
  votes : Votes

/-- The caller, the block, and the bonds the registry reports. -/
structure Env where
  sender : Address
  now : ℕ
  /-- `BONDING_REGISTRY.totalBonded(account)`. -/
  totalBonded : Address → Option ℕ

/-! ## Locked balances -/

/-- `_policyDefined`. -/
def policyDefined (policyId : Key) (s : State) : Bool :=
  let unlock := (s.lockPolicies policyId).unlock
  unlock.cliffDuration ≠ 0 || unlock.vestDuration ≠ 0

/-- `_lockedAmount`: what is still locked of an amount. -/
def lockedAmount (tgeTimestamp : ℕ) (policy : LockPolicy) (amount timestamp : ℕ) : Tx ℕ :=
  if timestamp < policy.holdUntil then pure amount else
  let curve := policy.unlock
  let anchor := match curve.anchor with
    | .tge => tgeTimestamp
    | .absolute => curve.start
  if anchor = 0 ∨ timestamp < anchor + curve.cliffDuration then pure amount
  else if curve.vestDuration = 0 ∨ anchor + curve.vestDuration ≤ timestamp then pure 0
  else do
    let elapsed ← checkedSub timestamp anchor
    let product ← checkedMul amount elapsed
    let vested ← checkedDiv product curve.vestDuration
    checkedSub amount vested

/-- What is still locked of one lock. A pending lock does not vest. -/
def lockedOf (s : State) (timestamp : ℕ) (lock : Lock) : Tx ℕ :=
  if lock.policyId = pendingLockPolicyId then pure lock.amount
  else lockedAmount s.tgeTimestamp (s.lockPolicies lock.policyId) lock.amount timestamp

/-- The loop of `lockedBalanceAt`. -/
def sumLocked (s : State) (timestamp : ℕ) : List Lock → ℕ → Tx ℕ
  | [], lockedBalance => pure lockedBalance
  | lock :: entries, lockedBalance => do
    let locked ← lockedOf s timestamp lock
    let lockedBalance ← checkedAdd lockedBalance locked
    sumLocked s timestamp entries lockedBalance

def lockedBalanceAt (account : Address) (timestamp : ℕ) (s : State) : Tx ℕ :=
  if s.noMoreLocks ≤ timestamp then pure 0
  else sumLocked s timestamp (s.locks account) 0

def lockedBalanceOf (now : ℕ) (account : Address) (s : State) : Tx ℕ :=
  lockedBalanceAt account (toUint64 now) s

variable (env : Env)

def transferableBalanceOf (account : Address) (s : State) : Tx ℕ := do
  let balance := s.votes.balanceOf account
  let lockedBalance ← lockedBalanceOf env.now account s
  if lockedBalance = 0 then pure balance else do
    let bondedBalance ← external (env.totalBonded account)
    let mustRetain := lockedBalance - bondedBalance
    pure (balance - mustRetain)

/-! ## Lock entries -/

/-- `_findLockIndex`: the zero identifier matches the first entry. -/
def findLockIndex (entries : List Lock) (filterPolicyId : Key) : Option ℕ :=
  if filterPolicyId ≠ 0 then entries.findIdx? fun lock => lock.policyId = filterPolicyId
  else if 0 < entries.length then some 0 else none

/-- `_removeLockAt`: the last entry takes the place of the removed one. -/
def removeLockAt (entries : List Lock) (index : ℕ) : List Lock :=
  match entries.getLast? with
  | none => []
  | some last => (entries.set index last).dropLast

/-- `_consumeLock`. Returns what was consumed, from which policy, and the entries left. -/
def consumeLock (entries : List Lock) (filterPolicyId : Key) (amount : ℕ) :
    Tx (ℕ × Key × List Lock) :=
  match findLockIndex entries filterPolicyId with
  | none => pure (0, 0, entries)
  | some i =>
    match entries[i]? with
    | none => .error .panic
    | some lock =>
      -- The assertion `consumed > 0`.
      if lock.amount = 0 then .error .panic
      else
        let consumed := min lock.amount amount
        let remaining := lock.amount - consumed
        if remaining = 0 then pure (consumed, lock.policyId, removeLockAt entries i)
        else pure (consumed, lock.policyId, entries.set i ⟨lock.policyId, remaining⟩)

/-- `_pruneMaturedActiveLocks`: drops the entries of which nothing is locked any more. Every round
moves on or drops one, so as many rounds as there are entries are enough. -/
def pruneMaturedActiveLocks (s : State) (current : ℕ) : ℕ → ℕ → List Lock → Tx (List Lock)
  | 0, _, entries => pure entries
  | rounds + 1, i, entries =>
    match entries[i]? with
    | none => pure entries
    | some lock =>
      if lock.policyId = pendingLockPolicyId then
        pruneMaturedActiveLocks s current rounds (i + 1) entries
      else do
        let locked ← lockedAmount s.tgeTimestamp (s.lockPolicies lock.policyId) lock.amount current
        if locked ≠ 0 then pruneMaturedActiveLocks s current rounds (i + 1) entries
        else pruneMaturedActiveLocks s current rounds i (removeLockAt entries i)

/-- `_addOrIncrementLock`. -/
def addOrIncrementLock (s : State) (now : ℕ) (entries : List Lock) (policyId : Key) (amount : ℕ)
    (isActive : Bool) : Tx (List Lock) :=
  match entries.findIdx? fun lock => lock.policyId = policyId with
  | some i =>
    match entries[i]? with
    | none => .error .panic
    | some lock => do
      let total ← checkedAdd lock.amount amount
      pure (entries.set i ⟨policyId, total⟩)
  | none => do
    let entries ← (if isActive ∧ maxLocksPerAccount ≤ entries.length then
        pruneMaturedActiveLocks s (toUint64 now) entries.length 0 entries
      else pure entries)
    require (¬(isActive = true ∧ maxLocksPerAccount ≤ entries.length)) .tooManyLocks
    require (¬(isActive = false ∧ maxQueuedLocksPerAccount ≤ entries.length)) .tooManyQueuedLocks
    pure (entries ++ [⟨policyId, amount⟩])

def State.setLocks (s : State) (account : Address) (entries : List Lock) : State :=
  { s with locks := update s.locks account entries }

def State.setQueuedLocks (s : State) (account : Address) (entries : List Lock) : State :=
  { s with queuedLocks := update s.queuedLocks account entries }

def addActiveLock (now : ℕ) (account : Address) (policyId : Key) (amount : ℕ) (s : State) :
    Tx State := do
  let entries ← addOrIncrementLock s now (s.locks account) policyId amount true
  pure (s.setLocks account entries)

/-! ## Claims and links -/

/-- The loop of `_claim`: queued links first, and what is left is pending. A round uses up the
claim or a queued link, so one round more than there are links is enough. -/
def claimLoop (now : ℕ) (account : Address) : ℕ → ℕ → State → Tx State
  | 0, remaining, s => if remaining = 0 then pure s else .error .panic
  | rounds + 1, remaining, s =>
    if remaining = 0 then pure s else do
      let (consumed, policyId, queue) ← consumeLock (s.queuedLocks account) 0 remaining
      let s := s.setQueuedLocks account queue
      let (consumed, policyId) := if consumed = 0 then (remaining, pendingLockPolicyId)
        else (consumed, policyId)
      let s ← addActiveLock now account policyId consumed s
      let remaining ← checkedSub remaining consumed
      claimLoop now account rounds remaining s

/-- `_claim`. -/
def claim (now : ℕ) (account : Address) (amount : ℕ) (s : State) : Tx State :=
  claimLoop now account ((s.queuedLocks account).length + 1) amount s

/-- `_validateQueuedClaimPolicy`. -/
def validateQueuedClaimPolicy (policyId : Key) : List Lock → Tx Unit
  | [] => pure ()
  | lock :: entries => do
    require (lock.policyId = policyId) (.conflictingQueuedClaimPolicy lock.policyId policyId)
    validateQueuedClaimPolicy policyId entries

/-- `_linkClaim`, behind the checks of `linkClaim`. -/
def linkPending (now : ℕ) (account : Address) (amount : ℕ) (policyId : Key) (s : State) :
    Tx State := do
  let (consumed, _, entries) ← consumeLock (s.locks account) pendingLockPolicyId amount
  let s := s.setLocks account entries
  let remaining ← checkedSub amount consumed
  let s ← (if consumed ≠ 0 then addActiveLock now account policyId consumed s else pure s)
  if remaining ≠ 0 then do
    require (s.claimLockExempt account = false) (.claimLockExemptQueuedLocks account)
    validateQueuedClaimPolicy policyId (s.queuedLocks account)
    let queue ← addOrIncrementLock s now (s.queuedLocks account) policyId remaining false
    pure (s.setQueuedLocks account queue)
  else pure s

/-! ## Transfers -/

/-- `_isTransferRestricted`. -/
def isTransferRestricted (sender recipient : Address) (s : State) : Bool :=
  if s.tgeTimestamp ≠ 0 then false
  else if sender = 0 ∨ recipient = 0 then false
  else
    let isBonding := sender = s.bondingRegistry ∨ recipient = s.bondingRegistry
    let isCcaDistribution := s.claimSource ≠ 0 ∧ sender = s.claimSource
    let isWhitelisted := s.transferWhitelist sender || s.transferWhitelist recipient
    !isBonding && !isCcaDistribution && !isWhitelisted

/-- Whether a transfer before the end of the locks is a claim. -/
def isClaim (sender recipient : Address) (value : ℕ) (s : State) : Bool :=
  recipient ≠ 0 && value ≠ 0 && s.claimSource ≠ 0 && sender = s.claimSource &&
    !s.claimLockExempt recipient

/-- `_update`. -/
def updateBalances (sender recipient : Address) (value : ℕ) (s : State) : Tx State :=
  if s.noMoreLocks ≤ env.now then do
    let votes ← s.votes.update env.now sender recipient value
    pure { s with votes }
  else do
    require (isTransferRestricted sender recipient s = false) (.transferRestricted sender recipient)
    (if sender ≠ 0 then do
        let transferable ← transferableBalanceOf env sender s
        require (value ≤ transferable) (.insufficientUnlockedBalance sender transferable value)
      else pure ())
    let votes ← s.votes.update env.now sender recipient value
    let s := { s with votes }
    if isClaim sender recipient value s then claim env.now recipient value s else pure s

/-- `ERC20._transfer`. -/
def transferBetween (sender recipient : Address) (value : ℕ) (s : State) : Tx State := do
  require (sender ≠ 0) (.erc20InvalidSender 0)
  require (recipient ≠ 0) (.erc20InvalidReceiver 0)
  updateBalances env sender recipient value s

def transfer (recipient : Address) (value : ℕ) (s : State) : Tx State :=
  transferBetween env env.sender recipient value s

def transferFrom (sender recipient : Address) (value : ℕ) (s : State) : Tx State := do
  let votes ← s.votes.spendAllowance sender env.sender value
  transferBetween env sender recipient value { s with votes }

def approve (env : Env) (spender : Address) (value : ℕ) (s : State) : Tx State := do
  let votes ← s.votes.approve env.sender spender value
  pure { s with votes }

def delegate (env : Env) (delegatee : Address) (s : State) : Tx State := do
  let votes ← s.votes.delegate env.now env.sender delegatee
  pure { s with votes }

/-! ## Administration -/

def onlyRole (role : Role) (s : State) : Tx Unit :=
  require (s.hasRole role env.sender = true) (.accessControlUnauthorizedAccount env.sender)

def onlyOwner (s : State) : Tx Unit :=
  require (env.sender = s.owner) (.ownableUnauthorizedAccount env.sender)

def State.setRole (s : State) (role : Role) (account : Address) (granted : Bool) : State :=
  { s with hasRole := update s.hasRole role (update (s.hasRole role) account granted) }

def phase (s : State) : Phase :=
  let current := toUint64 env.now
  if s.tgeTimestamp ≠ 0 then .live
  else if current < s.ccaStart then .virtual
  else if current < s.ccaEnd then .cca
  else .cooldown

/-- `_mintTokens`. -/
def mintTokens (recipient : Address) (amount : ℕ) (s : State) : Tx State := do
  require (amount ≠ 0) .zeroAmount
  let supply ← checkedAdd s.votes.totalSupply amount
  require (supply ≤ maxSupply) .maxSupplyExceeded
  require (recipient ≠ 0) (.erc20InvalidReceiver 0)
  updateBalances env 0 recipient amount s

def mint (recipient : Address) (amount : ℕ) (s : State) : Tx State := do
  onlyRole env .defaultAdmin s
  require (phase env s ≠ .live) .mintingClosed
  mintTokens env recipient amount s

/-- `_mintAllocation`. -/
def mintAllocation (allocation : MintAllocation) (s : State) : Tx State := do
  require (allocation.policyId ≠ 0) .invalidPolicy
  require (policyDefined allocation.policyId s = true) (.policyNotDefined allocation.policyId)
  let s ← mintTokens env allocation.recipient allocation.amount s
  addActiveLock env.now allocation.recipient allocation.policyId allocation.amount s

def mintEach (env : Env) : List MintAllocation → State → Tx State
  | [], s => pure s
  | allocation :: allocations, s => do
    let s ← mintAllocation env allocation s
    mintEach env allocations s

def mintAllocations (allocations : List MintAllocation) (s : State) : Tx State := do
  onlyRole env .minter s
  require (phase env s ≠ .live) .mintingClosed
  mintEach env allocations s

/-- `CCA_END + TGE_COOLDOWN`, a checked addition of two `uint64`. -/
def earliestTge (s : State) : Tx ℕ :=
  if s.ccaEnd + tgeCooldown ≤ uint64Max then pure (s.ccaEnd + tgeCooldown) else .error .panic

def tge (s : State) : Tx State := do
  require (s.tgeTimestamp = 0) .alreadyLive
  let current := toUint64 env.now
  let earliest ← earliestTge s
  require (earliest ≤ current) (.tgeTooEarly current earliest)
  pure { s with tgeTimestamp := current }

def setClaimSource (claimSource : Address) (s : State) : Tx State := do
  onlyOwner env s
  require (claimSource ≠ 0) .zeroAddress
  require (s.claimSource = 0) (.claimSourceAlreadySet s.claimSource)
  pure { s with claimSource }

def setTransferWhitelisted (account : Address) (whitelisted : Bool) (s : State) : Tx State := do
  onlyRole env .whitelist s
  require (account ≠ 0) .zeroAddress
  pure { s with transferWhitelist := update s.transferWhitelist account whitelisted }

def setClaimLockExempt (account : Address) (exempt : Bool) (s : State) : Tx State := do
  onlyRole env .lockManager s
  require (account ≠ 0) .zeroAddress
  require (¬(exempt = true ∧ (s.queuedLocks account).length ≠ 0))
    (.claimLockExemptQueuedLocks account)
  pure { s with claimLockExempt := update s.claimLockExempt account exempt }

/-- `_validateCurve`. -/
def validateCurve (curve : Curve) : Tx Unit := do
  require (¬(curve.cliffDuration = 0 ∧ curve.vestDuration = 0)) .invalidPolicy
  require (¬(curve.anchor = .absolute ∧ curve.start = 0)) .invalidPolicy
  require (¬(curve.anchor = .tge ∧ curve.start ≠ 0)) .invalidPolicy
  require (¬(curve.vestDuration ≠ 0 ∧ curve.vestDuration < curve.cliffDuration)) .invalidPolicy

/-- `_validatePolicyMaturity`. -/
def validatePolicyMaturity (policy : LockPolicy) (s : State) : Tx Unit := do
  let curve := policy.unlock
  let curveEnd := if curve.vestDuration = 0 then curve.cliffDuration else curve.vestDuration
  let policyEnd := match curve.anchor with
    | .tge => s.ccaEnd + tgeCooldown + curveEnd
    | .absolute => curve.start + curveEnd
  require (policyEnd ≤ s.noMoreLocks) .invalidPolicy
  require (policy.holdUntil ≤ s.noMoreLocks) .invalidPolicy
  require (¬(curve.anchor = .absolute ∧ max policyEnd policy.holdUntil ≤ env.now)) .invalidPolicy

def createLockPolicy (policyId : Key) (policy : LockPolicy) (s : State) : Tx State := do
  onlyRole env .lockManager s
  require (policyId ≠ 0 ∧ policyId ≠ pendingLockPolicyId) .invalidPolicy
  require (policyDefined policyId s = false) (.policyAlreadyDefined policyId)
  validateCurve policy.unlock
  validatePolicyMaturity env policy s
  pure { s with lockPolicies := update s.lockPolicies policyId policy }

def linkClaim (account : Address) (amount : ℕ) (policyId : Key) (s : State) : Tx State := do
  onlyRole env .lockManager s
  require (account ≠ 0) .zeroAddress
  require (amount ≠ 0) .zeroAmount
  require (policyDefined policyId s = true) (.policyNotDefined policyId)
  linkPending env.now account amount policyId s

/-- `_validateRelinkParams`. -/
def validateRelinkParams (account : Address) (fromPolicyId toPolicyId : Key) (amount : ℕ)
    (s : State) : Tx Unit := do
  require (account ≠ 0) .zeroAddress
  require (amount ≠ 0) .zeroAmount
  require (fromPolicyId ≠ 0 ∧ toPolicyId ≠ 0) .invalidPolicy
  require (fromPolicyId ≠ toPolicyId) .invalidPolicy
  require (fromPolicyId ≠ pendingLockPolicyId ∧ toPolicyId ≠ pendingLockPolicyId) .invalidPolicy
  require (policyDefined fromPolicyId s = true) (.policyNotDefined fromPolicyId)
  require (policyDefined toPolicyId s = true) (.policyNotDefined toPolicyId)

/-- `_activeLockAmount`. -/
def activeLockAmount (account : Address) (policyId : Key) (s : State) : ℕ :=
  ((s.locks account).find? fun lock => lock.policyId = policyId).elim 0 Lock.amount

/-- `_validateRelinkSourceHasNoVestedPrincipal`. -/
def validateRelinkSourceHasNoVestedPrincipal (policyId : Key) (activeAmount : ℕ) (s : State) :
    Tx Unit :=
  let policy := s.lockPolicies policyId
  if policy.unlock.anchor ≠ .absolute then pure () else do
    let locked ← lockedAmount s.tgeTimestamp policy activeAmount (toUint64 env.now)
    require (activeAmount ≤ locked) (.relinkSourceAlreadyVested policyId)

def relinkActiveLock (account : Address) (fromPolicyId toPolicyId : Key) (amount : ℕ) (s : State) :
    Tx State := do
  onlyRole env .lockManager s
  require (s.tgeTimestamp = 0) .alreadyLive
  validateRelinkParams account fromPolicyId toPolicyId amount s
  let activeAmount := activeLockAmount account fromPolicyId s
  require (amount ≤ activeAmount) .relinkAmountExceeded
  validateRelinkSourceHasNoVestedPrincipal env fromPolicyId activeAmount s
  let (consumed, _, entries) ← consumeLock (s.locks account) fromPolicyId amount
  addActiveLock env.now account toPolicyId consumed (s.setLocks account entries)

def grantRole (role : Role) (account : Address) (s : State) : Tx State := do
  onlyRole env .defaultAdmin s
  pure (s.setRole role account true)

def revokeRole (role : Role) (account : Address) (s : State) : Tx State := do
  onlyRole env .defaultAdmin s
  pure (s.setRole role account false)

def renounceRole (role : Role) (callerConfirmation : Address) (s : State) : Tx State := do
  require (¬(callerConfirmation = env.sender ∧ callerConfirmation = s.owner))
    .renounceRoleDisabledForOwner
  require (callerConfirmation = env.sender) .accessControlBadConfirmation
  pure (s.setRole role callerConfirmation false)

/-- Gives all roles to an account, or takes them. -/
def State.setAllRoles (s : State) (account : Address) (granted : Bool) : State :=
  { s with hasRole := fun role => update (s.hasRole role) account granted }

/-- The effect of `Ownable2Step`'s two calls: the owner hands the contract with all roles to
`newOwner`. -/
def transferOwnership (newOwner : Address) (s : State) : Tx State := do
  onlyOwner env s
  let revoked := if s.owner ≠ 0 then s.setAllRoles s.owner false else s
  let granted := if newOwner ≠ 0 then revoked.setAllRoles newOwner true else revoked
  pure { granted with owner := newOwner }

/-- The constructor. `hasCode` says that the registry is a contract. -/
def deploy (now : ℕ) (initialOwner : Address) (ccaStart ccaEnd noMoreLocks : ℕ)
    (bondingRegistry : Address) (hasCode : Bool) : Tx State := do
  require (initialOwner ≠ 0) (.ownableUnauthorizedAccount 0)
  require (now < ccaStart) (.invalidCcaWindow ccaStart ccaEnd)
  require (ccaStart < ccaEnd) (.invalidCcaWindow ccaStart ccaEnd)
  require (bondingRegistry ≠ 0) .zeroAddress
  require (hasCode = true) (.invalidBondingRegistry bondingRegistry)
  require (noMoreLocks ≠ 0) .zeroAmount
  require (ccaEnd + tgeCooldown < noMoreLocks)
    (.invalidNoMoreLocks noMoreLocks (ccaEnd + tgeCooldown + 1))
  pure {
    owner := initialOwner
    hasRole := fun _ account => account = initialOwner
    ccaStart
    ccaEnd
    noMoreLocks
    claimSource := 0
    bondingRegistry
    tgeTimestamp := 0
    transferWhitelist := fun _ => false
    claimLockExempt := fun _ => false
    lockPolicies := fun _ => ⟨0, ⟨.absolute, 0, 0, 0⟩⟩
    locks := fun _ => []
    queuedLocks := fun _ => []
    votes := .blank }

/-! ## Calls -/

inductive Call where
  | mint (recipient : Address) (amount : ℕ)
  | mintAllocations (allocations : List MintAllocation)
  | tge
  | setClaimSource (claimSource : Address)
  | setTransferWhitelisted (account : Address) (whitelisted : Bool)
  | setClaimLockExempt (account : Address) (exempt : Bool)
  | createLockPolicy (policyId : Key) (policy : LockPolicy)
  | linkClaim (account : Address) (amount : ℕ) (policyId : Key)
  | relinkActiveLock (account : Address) (fromPolicyId toPolicyId : Key) (amount : ℕ)
  | transfer (recipient : Address) (value : ℕ)
  | transferFrom (sender recipient : Address) (value : ℕ)
  | approve (spender : Address) (value : ℕ)
  | delegate (delegatee : Address)
  | grantRole (role : Role) (account : Address)
  | revokeRole (role : Role) (account : Address)
  | renounceRole (role : Role) (callerConfirmation : Address)
  | transferOwnership (newOwner : Address)

def exec (s : State) : Call → Tx State
  | .mint recipient amount => mint env recipient amount s
  | .mintAllocations allocations => mintAllocations env allocations s
  | .tge => tge env s
  | .setClaimSource claimSource => setClaimSource env claimSource s
  | .setTransferWhitelisted account whitelisted => setTransferWhitelisted env account whitelisted s
  | .setClaimLockExempt account exempt => setClaimLockExempt env account exempt s
  | .createLockPolicy policyId policy => createLockPolicy env policyId policy s
  | .linkClaim account amount policyId => linkClaim env account amount policyId s
  | .relinkActiveLock account fromPolicyId toPolicyId amount =>
    relinkActiveLock env account fromPolicyId toPolicyId amount s
  | .transfer recipient value => transfer env recipient value s
  | .transferFrom sender recipient value => transferFrom env sender recipient value s
  | .approve spender value => approve env spender value s
  | .delegate delegatee => delegate env delegatee s
  | .grantRole role account => grantRole env role account s
  | .revokeRole role account => revokeRole env role account s
  | .renounceRole role callerConfirmation => renounceRole env role callerConfirmation s
  | .transferOwnership newOwner => transferOwnership env newOwner s

end Interfold.Fold
