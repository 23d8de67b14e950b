import Interfold.Contracts.Tokens

/-!
# Eligibility, admission, identity and owner capacity

The four namespaced storage layouts that `BondingRegistry` keeps beside its own, and the
libraries that write them. They decide which operators are eligible and how many owners can be
seated, and they never touch a bond, a ticket or a slashing record.

Other contracts appear as the views they return, collected in `Env`; `none` stands for a call
that reverts.
-/

namespace Interfold.Bonding

open Transaction Checkpoints Function

structure AdmissionPolicy where
  cooldownEnabled : Bool
  admissionsPaused : Bool
  cooldownDuration : ℕ
  pauseTimepoint : ℕ
  pauseCooldownEnabled : Bool
  pauseCooldownDuration : ℕ
deriving DecidableEq

structure IdentityPolicy where
  registry : Address
  required : Bool
deriving DecidableEq

structure CountedOperator where
  version : ℕ
  owner : Address
deriving DecidableEq

structure OwnerHistoryLayout where
  history : Address → Trace Address
  activeOperators : ℕ → Address → ℕ
  countedOperators : Address → CountedOperator
  activeOwnerCounts : Trace ℕ
  capacityVersion : ℕ
  capacityIdentityExpiries : Trace ℕ
  capacityRevocationCounts : Trace ℕ

structure AdmissionLayout where
  policyVersions : Trace ℕ
  policies : ℕ → AdmissionPolicy
  positionStarts : Address → Trace ℕ

structure IdentityLayout where
  policyVersions : Trace ℕ
  policies : ℕ → IdentityPolicy

structure EligibilityLayout where
  operatorActiveVersions : Address → Trace ℕ
  configurationVersions : Trace ℕ
  activeOperatorCounts : Trace ℕ
  refreshEpoch : ℕ
  pendingRefreshes : ℕ
  refreshCompletedAt : ℕ
  refreshedEpochs : Address → ℕ

/-- The four layouts together. -/
structure Pool where
  ownerHistory : OwnerHistoryLayout
  admission : AdmissionLayout
  identity : IdentityLayout
  eligibility : EligibilityLayout

namespace Pool

/-- Storage that was never written. -/
def blank : Pool where
  ownerHistory := ⟨fun _ => [], fun _ _ => 0, fun _ => ⟨0, 0⟩, [], 0, [], []⟩
  admission := ⟨[], fun _ => ⟨false, false, 0, 0, false, 0⟩, fun _ => []⟩
  identity := ⟨[], fun _ => ⟨0, false⟩⟩
  eligibility := ⟨fun _ => [], [], [], 0, 0, 0, fun _ => 0⟩

end Pool

/-- The caller, the block and what other contracts answer during one call. -/
structure Env where
  sender : Address
  now : ℕ
  hasCode : Address → Bool
  /-- `IOwnerIdentityRegistry(registry).isVerifiedAt(owner, timepoint)`. -/
  isVerifiedAt : Address → Address → ℕ → Option Bool
  /-- The expiry that `IOwnerIdentityRegistry(registry).identityOf(owner)` returns. -/
  identityExpiry : Address → Address → Option ℕ
  revocationCountAt : Address → ℕ → Option ℕ
  /-- `registry.interfold().nodeReleaseRegistry()`. -/
  nodeReleaseRegistry : Address → Option Address
  isNodeReleaseReady : Address → Address → Option Bool
  /-- `IInterfold(interfold).getE3Stage(e3Id)`. -/
  getE3Stage : Address → Key → Option E3Stage
  /-- `registry.exitDelayFloor()`. -/
  exitDelayFloor : Address → Option ℕ
  numCiphernodes : Address → Option ℕ
  /-- Whether `registry.addCiphernode` and `removeCiphernode` return. -/
  registryAccepts : Bool
  /-- Whether `checkpoints.sync(bondOwner, amount)` returns. -/
  checkpointsAccept : Address → ℕ → Bool
  checkpointsRegistry : Address → Option Address
  /-- `lockedBalanceOf` of a bond token. -/
  lockedBalanceOf : Address → Address → Option ℕ
  decimals : Address → Option ℕ
  ticketRegistry : Address → Option Address
  acceptsBondTransfer : Bool
  acceptsUnderlyingTransfer : Bool
  /-- The answers of `_validateManager`'s three probes. -/
  slashingManagerApiVersion : Address → Option ℕ
  slashingManagerBonding : Address → Option Address
  supportsSlashingManager : Address → Option Bool
deriving Inhabited

/-- Whether `account.code.length` is positive. Nothing is deployed at the zero address. -/
def Env.codeAt (env : Env) (account : Address) : Bool :=
  account ≠ 0 && env.hasCode account

/-! ## Ownership history -/

/-- `BondingOwnershipLib.bondOwnerAt`. -/
def bondOwnerAt (bondOwnerOf : Address → Address) (p : Pool) (operator : Address)
    (timepoint : ℕ) : Tx Address :=
  let history := p.ownerHistory.history operator
  if history.length = 0 then pure (bondOwnerOf operator) else do
    let key ← safeUint48 timepoint
    pure (history.upperLookup key)

/-! ## Admission -/

namespace Admission

def policyAt (p : Pool) (timepoint : ℕ) : Tx AdmissionPolicy := do
  let key ← safeUint48 timepoint
  pure (p.admission.policies (p.admission.policyVersions.upperLookup key))

def start (env : Env) (operator : Address) (p : Pool) : Tx Pool := do
  let timepoint ← safeUint48 env.now
  let starts ← pushCheckpoint (p.admission.positionStarts operator) timepoint timepoint
  pure { p with admission := { p.admission with
    positionStarts := update p.admission.positionStarts operator starts } }

def allows (p : Pool) (operator : Address) (timepoint : ℕ) (policy : AdmissionPolicy) :
    Tx Bool := do
  let key ← safeUint48 timepoint
  let since := (p.admission.positionStarts operator).upperLookup key
  let boundary := if policy.admissionsPaused then policy.pauseTimepoint else timepoint
  let enabled := if policy.admissionsPaused then policy.pauseCooldownEnabled
    else policy.cooldownEnabled
  let duration := if policy.admissionsPaused then policy.pauseCooldownDuration
    else policy.cooldownDuration
  pure (decide (since ≤ boundary) && (since = 0 || !enabled || duration ≤ boundary - since))

def capacityPolicyMatches (p : Pool) (timepoint : ℕ) : Tx Bool := do
  let key ← safeUint48 timepoint
  pure (p.admission.policyVersions.upperLookup key = p.admission.policyVersions.latest)

end Admission

/-! ## Identity -/

namespace Identity

def policyAt (p : Pool) (timepoint : ℕ) : Tx IdentityPolicy := do
  let key ← safeUint48 timepoint
  pure (p.identity.policies (p.identity.policyVersions.upperLookup key))

def allows (env : Env) (bondOwnerOf : Address → Address) (p : Pool) (operator : Address)
    (timepoint : ℕ) : Tx Bool := do
  let policy ← policyAt p timepoint
  if policy.required = false then pure true else do
    let bondOwner ← bondOwnerAt bondOwnerOf p operator timepoint
    external (env.isVerifiedAt policy.registry bondOwner timepoint)

def capacityPolicyMatches (p : Pool) (timepoint : ℕ) : Tx Bool := do
  let key ← safeUint48 timepoint
  pure (p.identity.policyVersions.upperLookup key = p.identity.policyVersions.latest)

end Identity

/-! ## Owner capacity -/

namespace Capacity

/-- `IDENTITY_CAPACITY_WINDOW`, thirty days. -/
def identityCapacityWindow : ℕ := 2592000

def windowEnd (timepoint : ℕ) : Tx ℕ :=
  safeUint48 ((timepoint / identityCapacityWindow + 1) * identityCapacityWindow - 1)

variable (env : Env)

def reset (p : Pool) : Tx Pool := do
  let h := p.ownerHistory
  let timepoint ← safeUint48 env.now
  let counts ← pushCheckpoint h.activeOwnerCounts timepoint 0
  let policy ← Identity.policyAt p timepoint
  let expiry ← (if policy.required then windowEnd timepoint else pure (2 ^ 48 - 1))
  let expiries ← pushCheckpoint h.capacityIdentityExpiries timepoint expiry
  let revocations ← (if policy.required then
    external (env.revocationCountAt policy.registry timepoint) else pure 0)
  let revocationCounts ← pushCheckpoint h.capacityRevocationCounts timepoint revocations
  pure { p with ownerHistory := { h with
    capacityVersion := h.capacityVersion + 1
    activeOwnerCounts := counts
    capacityIdentityExpiries := expiries
    capacityRevocationCounts := revocationCounts } }

def identityCapacityIsFresh (p : Pool) (policy : IdentityPolicy) (timepoint : ℕ) : Tx Bool :=
  if policy.required = false then pure true else do
    let key ← safeUint48 timepoint
    if p.ownerHistory.capacityIdentityExpiries.upperLookup key < timepoint then pure false else do
      let revocations ← external (env.revocationCountAt policy.registry timepoint)
      pure (revocations = p.ownerHistory.capacityRevocationCounts.upperLookup key)

/-- Starts a new capacity version when the current one no longer matches the identity
registry, and returns the identity policy in force. -/
def prepareIdentityCapacity (p : Pool) : Tx (IdentityPolicy × Pool) := do
  let policy ← Identity.policyAt p env.now
  let fresh ← (if p.ownerHistory.capacityVersion = 0 then pure false
    else identityCapacityIsFresh env p policy env.now)
  let p ← (if fresh then pure p else reset env p)
  pure (policy, p)

def coversWindow (p : Pool) (policy : IdentityPolicy) (owner : Address) : Tx Bool :=
  if policy.required = false then pure true else do
    let expiresAt ← external (env.identityExpiry policy.registry owner)
    pure (decide (p.ownerHistory.capacityIdentityExpiries.latest ≤ expiresAt))

/-- The row of counted operators per owner in the current version. -/
def setActiveOperators (h : OwnerHistoryLayout) (owner : Address) (n : ℕ) : OwnerHistoryLayout :=
  let row := update (h.activeOperators h.capacityVersion) owner n
  { h with activeOperators := update h.activeOperators h.capacityVersion row }

def move (previous next : Address) (p : Pool) : Tx Pool :=
  if previous = next then pure p else do
    let h := p.ownerHistory
    let total := h.activeOwnerCounts.latest
    let (h, updated) ← (if previous ≠ 0 then do
        let left ← checkedSub (h.activeOperators h.capacityVersion previous) 1
        let updated ← (if left = 0 then checkedSub total 1 else pure total)
        pure (setActiveOperators h previous left, updated)
      else pure (h, total))
    let (h, updated) ← (if next ≠ 0 then do
        let seen := h.activeOperators h.capacityVersion next
        let more ← checkedAdd seen 1
        pure (setActiveOperators h next more, if seen = 0 then updated + 1 else updated)
      else pure (h, updated))
    let counts ← (if updated ≠ total then do
        let timepoint ← safeUint48 env.now
        pushCheckpoint h.activeOwnerCounts timepoint updated
      else pure h.activeOwnerCounts)
    pure { p with ownerHistory := { h with activeOwnerCounts := counts } }

def setCounted (operator : Address) (c : CountedOperator) (p : Pool) : Pool :=
  { p with ownerHistory := { p.ownerHistory with
      countedOperators := update p.ownerHistory.countedOperators operator c } }

def sync (operator owner : Address) (active : Bool) (p : Pool) : Tx Pool := do
  let (policy, p) ← prepareIdentityCapacity env p
  let counted := p.ownerHistory.countedOperators operator
  let previous := if counted.version = p.ownerHistory.capacityVersion then counted.owner else 0
  let covers ← (if active then coversWindow env p policy owner else pure false)
  let next := if covers then owner else 0
  if previous = next then pure p else do
    let p ← move env previous next p
    pure (setCounted operator ⟨p.ownerHistory.capacityVersion, next⟩ p)

def transfer (operator owner : Address) (p : Pool) : Tx Pool := do
  let (policy, p) ← prepareIdentityCapacity env p
  let counted := p.ownerHistory.countedOperators operator
  if counted.version ≠ p.ownerHistory.capacityVersion ∨ counted.owner = 0 then pure p else do
    let covers ← coversWindow env p policy owner
    let next := if covers then owner else 0
    let p ← move env counted.owner next p
    pure (setCounted operator ⟨counted.version, next⟩ p)

def countAt (p : Pool) (timepoint : ℕ) : Tx ℕ := do
  let policy ← Identity.policyAt p timepoint
  let fresh ← identityCapacityIsFresh env p policy timepoint
  if fresh then do
    let key ← safeUint48 timepoint
    pure (p.ownerHistory.activeOwnerCounts.upperLookup key)
  else pure 0

end Capacity

/-! ## Policy changes -/

/-- The policy `BondingAdmissionLib.setPolicy` stores. Pausing freezes the cooldown of the last
second before the pause, or keeps the one frozen by a pause that was in force then. -/
def Admission.nextPolicy (env : Env) (p : Pool) (policy : AdmissionPolicy) (enabled : Bool)
    (duration : ℕ) (paused : Bool) : Tx AdmissionPolicy := do
  let policy ← (if paused && !policy.admissionsPaused then do
      let before ← checkedSub env.now 1
      let boundary ← safeUint48 before
      let beforePause ← Admission.policyAt p boundary
      pure { policy with
        pauseTimepoint := if beforePause.admissionsPaused then beforePause.pauseTimepoint
          else boundary
        pauseCooldownEnabled := if beforePause.admissionsPaused then
          beforePause.pauseCooldownEnabled else beforePause.cooldownEnabled
        pauseCooldownDuration := if beforePause.admissionsPaused then
          beforePause.pauseCooldownDuration else beforePause.cooldownDuration }
    else if !paused then
      pure { policy with
        pauseTimepoint := 0, pauseCooldownEnabled := false, pauseCooldownDuration := 0 }
    else pure policy)
  pure { policy with
    cooldownEnabled := enabled, cooldownDuration := duration, admissionsPaused := paused }

def Admission.setPolicy (env : Env) (enabled : Bool) (duration : ℕ) (paused : Bool) (p : Pool) :
    Tx Pool :=
  let version := p.admission.policyVersions.latest
  let policy := p.admission.policies version
  if policy.cooldownEnabled = enabled ∧ policy.cooldownDuration = duration ∧
      policy.admissionsPaused = paused then pure p
  else do
    let policy ← Admission.nextPolicy env p policy enabled duration paused
    let timepoint ← safeUint48 env.now
    let versions ← pushCheckpoint p.admission.policyVersions timepoint (version + 1)
    Capacity.reset env { p with admission := { p.admission with
      policies := update p.admission.policies (version + 1) policy
      policyVersions := versions } }

def Identity.setPolicy (env : Env) (registry : Address) (required : Bool) (p : Pool) :
    Tx Pool := do
  (if required then do
    require (env.codeAt registry = true) (.invalidIdentityRegistry registry)
    let _ ← external (env.isVerifiedAt registry 0 env.now)
    pure ()
  else pure ())
  let version := p.identity.policyVersions.latest
  let policy := p.identity.policies version
  if policy.registry = registry ∧ policy.required = required then pure p else do
    let timepoint ← safeUint48 env.now
    let versions ← pushCheckpoint p.identity.policyVersions timepoint (version + 1)
    Capacity.reset env { p with identity := { p.identity with
      policies := update p.identity.policies (version + 1) ⟨registry, required⟩
      policyVersions := versions } }

/-! ## Eligibility -/

namespace Eligibility

/-- The base of `ciphernodeBondActiveBps`. -/
def bpsBase : ℕ := 10000

/-- `Math.mulDiv` rounded up. -/
def isCiphernodeBonded (ciphernodeBond requiredCiphernodeBond activeBps : ℕ) : Bool :=
  (requiredCiphernodeBond * activeBps + (bpsBase - 1)) / bpsBase ≤ ciphernodeBond

variable (env : Env)

def beginRefresh (registeredOperators : ℕ) (l : EligibilityLayout) : Tx EligibilityLayout := do
  let completed ← (if registeredOperators = 0 then safeUint48 env.now else pure 0)
  pure { l with
    refreshEpoch := l.refreshEpoch + 1
    pendingRefreshes := registeredOperators
    refreshCompletedAt := completed }

def ensureRefreshStarted (numRegistered : ℕ) (l : EligibilityLayout) : Tx EligibilityLayout :=
  if l.refreshEpoch = 0 then beginRefresh env numRegistered l else pure l

def excludeNewRegistration (numRegistered : ℕ) (operator : Address) (p : Pool) : Tx Pool := do
  let l ← ensureRefreshStarted env numRegistered p.eligibility
  pure { p with eligibility := { l with
    refreshedEpochs := update l.refreshedEpochs operator l.refreshEpoch } }

def completeOperatorRefresh (numRegistered : ℕ) (operator : Address) (p : Pool) : Tx Pool := do
  let l ← ensureRefreshStarted env numRegistered p.eligibility
  if l.refreshedEpochs operator = l.refreshEpoch then pure { p with eligibility := l } else do
    let pending ← checkedSub l.pendingRefreshes 1
    let completed ← (if pending = 0 then safeUint48 env.now else pure l.refreshCompletedAt)
    pure { p with eligibility := { l with
      refreshedEpochs := update l.refreshedEpochs operator l.refreshEpoch
      pendingRefreshes := pending
      refreshCompletedAt := completed } }

def admissionAllowed (bondOwnerOf : Address → Address) (p : Pool) (operator : Address)
    (timepoint : ℕ) : Tx Bool := do
  let policy ← Admission.policyAt p timepoint
  let allowed ← Admission.allows p operator timepoint policy
  let wasIn ← (if allowed && policy.admissionsPaused then
      let version := p.eligibility.configurationVersions.upperLookup policy.pauseTimepoint
      if version = 0 ∨ (p.eligibility.operatorActiveVersions operator).upperLookup
          policy.pauseTimepoint ≠ version then pure false
      else Identity.allows env bondOwnerOf p operator policy.pauseTimepoint
    else pure allowed)
  if wasIn then Identity.allows env bondOwnerOf p operator timepoint else pure false

/-- The struct `OperatorRequirements`, with the token itself for its address. -/
structure OperatorRequirements where
  registered : Bool
  banned : Bool
  ciphernodeBond : ℕ
  requiredCiphernodeBond : ℕ
  ciphernodeBondActiveBps : ℕ
  registry : Address
  ticketToken : TicketToken
  ticketPrice : ℕ
  minTicketBalance : ℕ

/-- The conjunction that decides whether an operator is active. Later conjuncts are evaluated
only if the earlier ones hold, which matters for the ones that can revert. -/
def meetsRequirements (this operator : Address) (r : OperatorRequirements) : Tx Bool := do
  let releaseRegistry ← external (env.nodeReleaseRegistry r.registry)
  if r.ticketToken.registry = this ∧ env.codeAt releaseRegistry = true then do
    let ready ← external (env.isNodeReleaseReady releaseRegistry operator)
    if ready && r.registered && !r.banned && isCiphernodeBonded r.ciphernodeBond
        r.requiredCiphernodeBond r.ciphernodeBondActiveBps then
      if r.ticketPrice = 0 then .error .panic
      else pure (decide (r.minTicketBalance ≤ r.ticketToken.balanceOf operator / r.ticketPrice))
    else pure false
  else pure false

/-- Returns the new pool, the new active count and the new status of the operator. -/
def updateOperator (this operator : Address) (bondOwnerOf : Address → Address) (numRegistered : ℕ)
    (oldActive : Bool) (r : OperatorRequirements) (configurationVersion activeOperatorCount : ℕ)
    (p : Pool) : Tx (Pool × ℕ × Bool) := do
  let p ← (if r.registered then completeOperatorRefresh env numRegistered operator p else pure p)
  let newActive ← meetsRequirements env this operator r
  let admitted ← (if newActive then admissionAllowed env bondOwnerOf p operator env.now
    else pure false)
  let p ← Capacity.sync env operator (bondOwnerOf operator) admitted p
  if oldActive = newActive then pure (p, activeOperatorCount, newActive) else do
    let count ← (if newActive then checkedAdd activeOperatorCount 1
      else checkedSub activeOperatorCount 1)
    let versions ← pushCheckpoint (p.eligibility.operatorActiveVersions operator)
      (toUint48 env.now) (if newActive then configurationVersion + 1 else 0)
    let counts ← pushCheckpoint p.eligibility.activeOperatorCounts (toUint48 env.now) count
    let l := { p.eligibility with
      operatorActiveVersions := update p.eligibility.operatorActiveVersions operator versions
      activeOperatorCounts := counts }
    pure ({ p with eligibility := l }, count, newActive)

/-- Returns the new version and the new pool. -/
def invalidateConfiguration (configurationVersion registeredOperators : ℕ) (p : Pool) :
    Tx (ℕ × Pool) := do
  let newVersion ← checkedAdd configurationVersion 1
  let versions ← pushCheckpoint p.eligibility.configurationVersions (toUint48 env.now)
    (newVersion + 1)
  let counts ← pushCheckpoint p.eligibility.activeOperatorCounts (toUint48 env.now) 0
  let l ← beginRefresh env registeredOperators { p.eligibility with
    configurationVersions := versions, activeOperatorCounts := counts }
  let p ← Capacity.reset env { p with eligibility := l }
  pure (newVersion, p)

def eligibilityAt (bondOwnerOf : Address → Address) (p : Pool) (operator : Address)
    (timepoint : ℕ) : Tx (Bool × ℕ) := do
  let key ← safeUint48 timepoint
  let version := p.eligibility.configurationVersions.upperLookup key
  let active ← (if version ≠ 0 ∧
      (p.eligibility.operatorActiveVersions operator).upperLookup key = version then
    admissionAllowed env bondOwnerOf p operator timepoint else pure false)
  pure (active, p.eligibility.activeOperatorCounts.upperLookup key)

/-- The owners that can be seated, under the policies of now. -/
def committeeOwnerCapacity (p : Pool) (timepoint : ℕ) : Tx ℕ := do
  let versions := p.eligibility.configurationVersions
  let key ← safeUint48 timepoint
  let version := versions.upperLookup key
  if p.eligibility.refreshEpoch = 0 ∨ p.eligibility.pendingRefreshes ≠ 0 ∨
      timepoint < p.eligibility.refreshCompletedAt ∨ version = 0 ∨ version ≠ versions.latest then
    pure 0
  else do
    let admission ← Admission.capacityPolicyMatches p timepoint
    if admission = false then pure 0 else do
      let identity ← Identity.capacityPolicyMatches p timepoint
      if identity = false then pure 0 else Capacity.countAt env p timepoint

end Eligibility

/-- `BondingOwnershipLib._recordOwner`. -/
def recordOwner (env : Env) (bondOwnerOf : Address → Address)
    (operator previousOwner newOwner : Address) (p : Pool) : Tx Pool :=
  if previousOwner = newOwner then pure p else do
    let history := p.ownerHistory.history operator
    let history ← (if history.length = 0 then pushCheckpoint history 0 previousOwner
      else pure history)
    let timepoint ← safeUint48 env.now
    let history ← pushCheckpoint history timepoint newOwner
    let p ← Admission.start env operator { p with ownerHistory := { p.ownerHistory with
      history := update p.ownerHistory.history operator history } }
    let policy ← Admission.policyAt p env.now
    let admitted ← Admission.allows p operator env.now policy
    let allowed ← (if admitted then Identity.allows env bondOwnerOf p operator env.now
      else pure false)
    Capacity.transfer env operator (if allowed then newOwner else 0) p

end Interfold.Bonding
