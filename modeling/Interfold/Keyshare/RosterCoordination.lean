import Interfold.Events.SignedProof
import Interfold.Keyshare.Roster
import Interfold.Library.Handler
import Interfold.Library.OrderedMap
import Mathlib.Data.List.MinMax

/-!
# Coordination of the roster

The parties of a committee exchange signed reports of the dealers that they have verified, and the
active aggregator proposes a roster of exactly `H` dealers. A node keeps the proposals that it
cannot accept yet. It looks at them again when a report, the aggregator or an expulsion changes what
it can accept, and it starts C4 from the roster that it accepted.

The handlers are those of the keyshare actor. Signatures, and the plan of the decryption key that C4
starts with, are parameters.
-/

namespace Interfold.Keyshare

open Links

/-! ### Messages -/

inductive DkgCoordinationKind where
  /-- This party has verified and stored the listed dealer contributions. -/
  | ready
  /-- The active aggregator proposes the exact dealer contributions for C4. -/
  | roster
deriving DecidableEq

structure DkgCoordination where
  e3Id : E3Id
  interfoldAddress : Address
  partyId : ℕ
  kind : DkgCoordinationKind
  dealers : List DkgDealer
  signature : Bytes
deriving DecidableEq

namespace DkgCoordination

def partyIds (m : DkgCoordination) : List ℕ := m.dealers.map DkgDealer.partyId

def HasCanonicalDealers (m : DkgCoordination) (committeeN : ℕ) : Prop :=
  m.partyIds.IsChain (· < ·) ∧ ∀ id ∈ m.partyIds.getLast?, id < committeeN

instance (m : DkgCoordination) (committeeN : ℕ) : Decidable (m.HasCanonicalDealers committeeN) :=
  inferInstanceAs (Decidable (_ ∧ _))

end DkgCoordination

def ReadyContainsRoster (ready roster : DkgCoordination) : Prop :=
  ∀ dealer ∈ roster.dealers, dealer ∈ ready.dealers

instance (ready roster : DkgCoordination) : Decidable (ReadyContainsRoster ready roster) :=
  inferInstanceAs (Decidable (∀ dealer ∈ roster.dealers, dealer ∈ ready.dealers))

/-- How a new dealer list relates to the one held for the same party. -/
inductive ReadyUpdate where
  | extending
  | unchanged
  | dropsLiveDealer (addsLiveDealer : Bool)
deriving DecidableEq

def readyUpdate (existing candidate : List DkgDealer) (expelled : Finset ℕ) : ReadyUpdate :=
  let addsLiveDealer : Bool :=
    decide (∃ dealer ∈ candidate, dealer.partyId ∉ expelled ∧ dealer ∉ existing)
  if ¬∀ dealer ∈ existing, dealer.partyId ∉ expelled → dealer ∈ candidate then
    .dropsLiveDealer addsLiveDealer
  else if addsLiveDealer then .extending
  else .unchanged

/-- Neither the proposer nor a selected dealer of the roster is expelled. -/
def RosterMembersAreLive (roster : DkgCoordination) (expelled : Finset ℕ) : Prop :=
  roster.partyId ∉ expelled ∧ ∀ id ∈ roster.partyIds, id ∉ expelled

instance (roster : DkgCoordination) (expelled : Finset ℕ) :
    Decidable (RosterMembersAreLive roster expelled) :=
  inferInstanceAs (Decidable (_ ∧ ∀ id ∈ roster.partyIds, id ∉ expelled))

/-! ### Held updates -/

def liveCount (expelled : Finset ℕ) (update : DkgCoordination) : ℕ :=
  (update.partyIds.filter fun id => id ∉ expelled).length

/-- Whether a held update can replace the current report. -/
def Settles (expelled : Finset ℕ) (current : Option DkgCoordination) (update : DkgCoordination) :
    Prop :=
  ∀ report ∈ current, readyUpdate report.dealers update.dealers expelled = .extending

instance (expelled : Finset ℕ) (current : Option DkgCoordination) (update : DkgCoordination) :
    Decidable (Settles expelled current update) :=
  inferInstanceAs (Decidable (∀ report ∈ current, _))

/-- The update with the most live dealers, the first of them, with its position. -/
def nextUpdate (expelled : Finset ℕ) (current : Option DkgCoordination)
    (held : List DkgCoordination) : Option (DkgCoordination × ℕ) :=
  (held.zipIdx.filter fun entry => Settles expelled current entry.1).argmax
    fun entry => liveCount expelled entry.1

/-- The loop of `settle_held_updates`. Every turn takes an update out of the list, so as many turns
as there are updates are enough. -/
def settleLoop (expelled : Finset ℕ) : ℕ → Option DkgCoordination → List DkgCoordination →
    Option DkgCoordination × List DkgCoordination
  | 0, current, held => (current, held)
  | turns + 1, current, held =>
    match nextUpdate expelled current held with
    | none => (current, held)
    | some (update, index) => settleLoop expelled turns (some update) (held.eraseIdx index)

/-- The new report if it changed, and the held updates that a later expulsion can still make
extensions. -/
def settleHeldUpdates (current : Option DkgCoordination) (held : List DkgCoordination)
    (expelled : Finset ℕ) : Option DkgCoordination × List DkgCoordination :=
  let settled := settleLoop expelled held.length current held
  let changed := nextUpdate expelled current held ≠ none
  (if changed then settled.1 else none,
    settled.2.filter fun update => settled.1.any fun report =>
      readyUpdate report.dealers update.dealers expelled = .dropsLiveDealer true)

/-! ### The actor -/

inductive Phase where
  | init
  | collectingEncryptionKeys
  | generatingThresholdShare
  | aggregatingDecryptionKey
  | readyForDecryption
  | decrypting
  | generatingDecryptionProof
  | completed
  | failed
deriving DecidableEq

namespace Phase

/-- The phases in which C2/C3 collection and verification can still change the DKG. -/
def ShareCollectionIsOpen (phase : Phase) : Prop :=
  phase = init ∨ phase = collectingEncryptionKeys ∨ phase = generatingThresholdShare ∨
    phase = aggregatingDecryptionKey

instance : DecidablePred ShareCollectionIsOpen := fun _ => inferInstanceAs (Decidable (_ ∨ _))

/-- The transitions that `KeyshareState::next` accepts. -/
def next (self new : Phase) : Bool :=
  if self = failed then new = failed
  else if self = new then true
  else if new = failed then self ≠ completed
  else
    match self, new with
    | init, collectingEncryptionKeys
    | collectingEncryptionKeys, generatingThresholdShare
    | generatingThresholdShare, aggregatingDecryptionKey
    | aggregatingDecryptionKey, readyForDecryption
    | readyForDecryption, decrypting
    | decrypting, generatingDecryptionProof
    | generatingDecryptionProof, completed => true
    | _, _ => false

end Phase

/-- What does not change for a node during an E3. -/
structure Member where
  e3Id : E3Id
  interfoldAddress : Address
  partyId : ℕ
  /-- `committee_h()`, an error for thresholds that belong to no committee size. -/
  committeeH : Option ℕ
  /-- The finalized committee, with the address that each entry parses to. -/
  committee : Option (List (Option Address))
  signer : Address
  recoverAddress : DkgCoordination → Option Address
  /-- The signature that this node makes over a message. -/
  sign : DkgCoordination → Option Bytes

/-- The persisted inputs of the coordination. -/
structure Recovery where
  dkgReady : Option DkgCoordination
  readyByParty : OrderedMap ℕ DkgCoordination
  heldReadyUpdates : OrderedMap ℕ (List DkgCoordination)
  pendingRosters : OrderedMap ℕ DkgCoordination
  dkgRoster : Option DkgCoordination
  activeAggregatorPartyId : Option ℕ
  isAggregator : Bool
  decryptionShareProofsPending : Bool

/-- What the coordination publishes. -/
inductive Published where
  | coordination (m : DkgCoordination)
  | aggregationInputsReady
  | commitmentRosterSelected (partyIds : List ℕ)
  | calculateDecryptionKey
  | e3Failed

structure Coordinator where
  phase : Phase
  expelled : Finset ℕ
  honestParties : Option (Finset ℕ)
  dkgRosterFixed : Bool
  recovery : Recovery
  /-- Whether C4 requests wait for the decryption key. -/
  shareDecryptionData : Bool
  effectsEnabled : Bool
  rosterInputsReady : Bool
  rosterProposalPending : Bool
  sent : List Published

/-- Before the selection of the node. -/
def Coordinator.start : Coordinator where
  phase := .init
  expelled := ∅
  honestParties := none
  dkgRosterFixed := false
  recovery := ⟨none, .empty, .empty, .empty, none, none, false, false⟩
  shareDecryptionData := false
  effectsEnabled := false
  rosterInputsReady := false
  rosterProposalPending := false
  sent := []

namespace Coordinator

def updateRecovery (f : Recovery → Recovery) (s : Coordinator) : Coordinator :=
  { s with recovery := f s.recovery }

/-- Whether this node started C4 from its accepted roster, which fixes the roster. -/
def DkgRosterIsFixed (s : Coordinator) : Prop :=
  s.dkgRosterFixed = true ∨ s.shareDecryptionData = true ∨ s.phase ≠ .aggregatingDecryptionKey

instance : DecidablePred DkgRosterIsFixed := fun _ => inferInstanceAs (Decidable (_ ∨ _))

end Coordinator

namespace Recovery

def RosterIsSupportedByLocalState (recovery : Recovery) (roster : DkgCoordination) : Prop :=
  (∃ ready ∈ recovery.dkgReady, ReadyContainsRoster ready roster) ∧
  (∃ ready ∈ recovery.readyByParty.get roster.partyId, ReadyContainsRoster ready roster) ∧
  ∀ id ∈ roster.partyIds, ∀ ready ∈ recovery.readyByParty.get id, ReadyContainsRoster ready roster

instance (recovery : Recovery) (roster : DkgCoordination) :
    Decidable (recovery.RosterIsSupportedByLocalState roster) :=
  inferInstanceAs (Decidable (_ ∧ _ ∧ ∀ id ∈ roster.partyIds, _))

/-- Only proposals that could still outrank this one before C4 starts are kept. -/
def accept (roster : DkgCoordination) (recovery : Recovery) : Recovery :=
  { recovery with
    dkgRoster := some roster
    pendingRosters := recovery.pendingRosters.retain fun proposer => proposer < roster.partyId }

/-- The dealers of the reports from parties that are not expelled. -/
def eligibleReadyDealers (recovery : Recovery) (expelled : Finset ℕ) : ReadyMap where
  entries := (recovery.readyByParty.retain fun id => id ∉ expelled).entries.map fun entry =>
    (entry.1, entry.2.dealers)
  ascending := by
    simpa [List.map_map, Function.comp_def] using
      (recovery.readyByParty.retain fun id => id ∉ expelled).ascending

end Recovery

/-! ### Effects -/

inductive DecryptionKeyPlan where
  /-- The verified shares are incomplete, or the plan cannot be built. -/
  | unavailable
  | insufficient
  | proceed (honest : Finset ℕ)

/-- What the surroundings of the actor do during a call. -/
structure Surroundings where
  /-- Whether the bus takes an event. -/
  bus : Published → Bool
  plan : Coordinator → DecryptionKeyPlan

/-- What `maybe_publish_dkg_ready` reads of the share verification. -/
structure VerifiedShares where
  /-- A verification result is recorded, and both C2 proofs of this node are signed. -/
  complete : Bool
  verifiedDealerIds : List ℕ
  /-- The identity of a stored contribution. -/
  identity : ℕ → Option DkgDealer

structure AggregatorChanged where
  e3Id : E3Id
  activePartyId : Option ℕ
  isAggregator : Bool

section

open Handler

variable (node : Member) (env : Surroundings)

def publish (event : Published) : Handler Coordinator Unit :=
  if env.bus event then modify fun s => { s with sent := s.sent ++ [event] } else fail

/-- A publication that undoes a flag if the bus refuses it. -/
def publishOr (event : Published) (undo : Coordinator → Coordinator) : Handler Coordinator Unit :=
  if env.bus event then modify fun s => { s with sent := s.sent ++ [event] }
  else do
    modify undo
    fail

def signed (kind : DkgCoordinationKind) (dealers : List DkgDealer) :
    Handler Coordinator DkgCoordination := do
  let message : DkgCoordination :=
    { e3Id := node.e3Id, interfoldAddress := node.interfoldAddress, partyId := node.partyId
      kind, dealers, signature := [] }
  let signature ← orFail (node.sign message)
  return { message with signature }

def maybePublishRosterInputsReady : Handler Coordinator Unit := do
  let s ← get
  if s.effectsEnabled = false ∨ s.rosterInputsReady = true then return ()
  if s.phase ≠ .aggregatingDecryptionKey then return ()
  if s.recovery.dkgRoster ≠ none then return ()
  let committeeH ← orFail node.committeeH
  let ready := s.recovery.eligibleReadyDealers s.expelled
  let heldRosterIsUsable : Prop := ∃ entry ∈ s.recovery.pendingRosters.entries,
    RosterMembersAreLive entry.2 s.expelled ∧
    s.recovery.RosterIsSupportedByLocalState entry.2 ∧ entry.2.dealers.length = committeeH
  if ready.selectReadyRoster committeeH = none ∧ ¬heldRosterIsUsable then return ()
  modify fun s => { s with rosterInputsReady := true }
  publishOr env .aggregationInputsReady fun s => { s with rosterInputsReady := false }

variable (s : Coordinator)

/-- The dealers that this node proposes: those of the accepted roster, or a selection. -/
def proposedDealers (committeeH : ℕ) : Option (List DkgDealer) :=
  match s.recovery.dkgRoster with
  | some accepted => if accepted.partyId = node.partyId then none else some accepted.dealers
  | none => (s.recovery.eligibleReadyDealers s.expelled).selectReadyRoster committeeH

def proposeDkgRoster : Handler Coordinator Unit := do
  let s ← get
  if s.effectsEnabled = false ∨ s.recovery.isAggregator = false ∨ s.rosterProposalPending = true ∨
      s.phase ≠ .aggregatingDecryptionKey then return ()
  let committeeH ← orFail node.committeeH
  match proposedDealers node s committeeH with
  | none => return ()
  | some dealers => do
    let roster ← signed node .roster dealers
    modify fun s => { s with rosterProposalPending := true }
    publishOr env (.coordination roster) fun s => { s with rosterProposalPending := false }

/-- A report or a role change can make a proposal possible. -/
def offerRoster : Handler Coordinator Unit := do
  maybePublishRosterInputsReady node env
  proposeDkgRoster node env

/-! ### C4 -/

def proceedWithDecryptionKeyCalculation : Handler Coordinator Unit := do
  let s ← get
  match env.plan s with
  | .unavailable => fail
  | .insufficient => publish env .e3Failed
  | .proceed honest => do
    modify fun s => { s with honestParties := some honest, dkgRosterFixed := true }
    modify fun s => { s with shareDecryptionData := true }
    publish env .calculateDecryptionKey

def maybeStartC4ForAcceptedRoster : Handler Coordinator Unit := do
  let s ← get
  if s.effectsEnabled = false ∨ s.phase ≠ .aggregatingDecryptionKey ∨
      s.shareDecryptionData = true then return ()
  match s.recovery.dkgRoster, s.recovery.dkgReady with
  | some roster, some ownReady =>
    if ReadyContainsRoster ownReady roster then proceedWithDecryptionKeyCalculation env
    else return ()
  | _, _ => return ()

/-! ### Acceptance -/

def acceptDkgRoster (roster : DkgCoordination) : Handler Coordinator Unit := do
  let s ← get
  if node.partyId ∈ roster.partyIds ∧
      ¬∃ ready ∈ s.recovery.dkgReady, ReadyContainsRoster ready roster then return ()
  modify <| Coordinator.updateRecovery (Recovery.accept roster)
  modify fun s => { s with rosterProposalPending := false, rosterInputsReady := false }
  let partyIds := roster.partyIds.toFinset
  let honest := if s.DkgRosterIsFixed then partyIds else partyIds.filter fun id => id ∉ s.expelled
  modify fun s => { s with honestParties := some honest }
  publish env (.commitmentRosterSelected partyIds.sort)
  maybeStartC4ForAcceptedRoster env

/-- Whether a held proposal can be accepted. -/
def Acceptable (proposer : ℕ) (roster : DkgCoordination) : Prop :=
  (∃ active ∈ s.recovery.activeAggregatorPartyId, proposer ≤ active) ∧
  (∀ accepted ∈ s.recovery.dkgRoster, proposer < accepted.partyId) ∧
  RosterMembersAreLive roster s.expelled ∧ s.recovery.RosterIsSupportedByLocalState roster

instance (s : Coordinator) (proposer : ℕ) (roster : DkgCoordination) :
    Decidable (Acceptable s proposer roster) :=
  inferInstanceAs (Decidable (_ ∧ _))

/-- The acceptable proposal of the lowest proposer: the map is in the order of its keys. -/
def candidate : Option DkgCoordination :=
  (s.recovery.pendingRosters.entries.find? fun entry => Acceptable s entry.1 entry.2).map Prod.snd

def maybeAcceptPendingRoster : Handler Coordinator Bool := do
  let s ← get
  if s.recovery.activeAggregatorPartyId = none then return false
  if s.recovery.dkgRoster ≠ none ∧ s.DkgRosterIsFixed then return false
  match candidate s with
  | none => return false
  | some roster => do
    acceptDkgRoster node env roster
    return true

/-- The held updates of a reporter that are settled, with the new report. -/
def settledUpdates (reporter : ℕ) (held : List DkgCoordination) :
    Option DkgCoordination × List DkgCoordination :=
  if reporter ∈ s.expelled then (none, [])
  else settleHeldUpdates (s.recovery.readyByParty.get reporter) held s.expelled

/-- The new reports. -/
def appliedUpdates : List (ℕ × DkgCoordination) :=
  s.recovery.heldReadyUpdates.entries.filterMap fun entry =>
    (settledUpdates s entry.1 entry.2).1.map fun current => (entry.1, current)

/-- The held updates that change: those of an expelled reporter, and the lists that get shorter. -/
def remainingUpdates : List (ℕ × List DkgCoordination) :=
  s.recovery.heldReadyUpdates.entries.filterMap fun entry =>
    let remaining := (settledUpdates s entry.1 entry.2).2
    if entry.1 ∈ s.expelled ∨ remaining.length ≠ entry.2.length then some (entry.1, remaining)
    else none

def staleRosters : List ℕ :=
  (s.recovery.pendingRosters.entries.filter fun entry =>
    ¬RosterMembersAreLive entry.2 s.expelled).map Prod.fst

/-- What the held updates and the expulsions change. -/
def settledRecovery : Recovery :=
  { s.recovery with
    readyByParty := (appliedUpdates s).foldl (fun m entry => m.insert entry.1 entry.2)
      s.recovery.readyByParty
    heldReadyUpdates := (remainingUpdates s).foldl
      (fun m entry => if entry.2 = [] then m.remove entry.1 else m.insert entry.1 entry.2)
      s.recovery.heldReadyUpdates
    pendingRosters := s.recovery.pendingRosters.retain fun id => id ∉ staleRosters s }

def applyHeldReadyUpdates : Handler Coordinator Unit := do
  let s ← get
  if ¬s.phase.ShareCollectionIsOpen then return ()
  if appliedUpdates s = [] ∧ remainingUpdates s = [] ∧ staleRosters s = [] then return ()
  modify fun s => { s with recovery := settledRecovery s }
  let _ ← maybeAcceptPendingRoster node env
  if s.effectsEnabled = true then
    offerRoster node env

/-! ### Messages and events -/

/-- A held update that is new is kept, and the oldest one is dropped beyond the limit. -/
def holdUpdate (limit : ℕ) (held : List DkgCoordination) (message : DkgCoordination) :
    List DkgCoordination :=
  if ∃ update ∈ held, update.dealers = message.dealers then held
  else if (held ++ [message]).length > limit then (held ++ [message]).tail
  else held ++ [message]

/-- Whether a report is taken up at all. -/
def ReadyAdmitted (committeeH : ℕ) (message : DkgCoordination) : Prop :=
  committeeH ≤ message.dealers.length ∧ message.partyId ∉ s.expelled ∧
    message.partyId ∈ message.partyIds

instance (s : Coordinator) (committeeH : ℕ) (message : DkgCoordination) :
    Decidable (ReadyAdmitted s committeeH message) :=
  inferInstanceAs (Decidable (_ ∧ _))

def recordReady (committeeN committeeH : ℕ) (message : DkgCoordination) :
    Handler Coordinator Unit := do
  let s ← get
  if ¬ReadyAdmitted s committeeH message then return ()
  let update := (s.recovery.readyByParty.get message.partyId).map fun existing =>
    readyUpdate existing.dealers message.dealers s.expelled
  if update = none ∨ update = some .extending then
    modify <| Coordinator.updateRecovery fun recovery =>
      { recovery with readyByParty := recovery.readyByParty.insert message.partyId message }
    applyHeldReadyUpdates node env
  -- An update that lacks a dealer can become valid with the expulsion of that dealer.
  else if update = some (.dropsLiveDealer true) then
    modify <| Coordinator.updateRecovery fun recovery =>
      { recovery with
        heldReadyUpdates := recovery.heldReadyUpdates.insert message.partyId
          (holdUpdate committeeN ((recovery.heldReadyUpdates.get message.partyId).getD [])
            message) }
  let _ ← maybeAcceptPendingRoster node env

/-- Whether a proposal is taken up: it has live members, and it is new and can outrank the accepted
one. -/
def RosterAdmitted (committeeH : ℕ) (message : DkgCoordination) : Prop :=
  RosterMembersAreLive message s.expelled ∧ message.dealers.length = committeeH ∧
  ∀ existing ∈ s.recovery.dkgRoster, existing.dealers ≠ message.dealers ∧
    ¬s.DkgRosterIsFixed ∧ message.partyId < existing.partyId

instance (s : Coordinator) (committeeH : ℕ) (message : DkgCoordination) :
    Decidable (RosterAdmitted s committeeH message) :=
  inferInstanceAs (Decidable (_ ∧ _))

/-- The first supported roster of a proposer is kept. A later one replaces one that the reports do
not support, or that has an expelled member. -/
def holdRoster (expelled : Finset ℕ) (message : DkgCoordination) (recovery : Recovery) : Recovery :=
  if ∀ held ∈ recovery.pendingRosters.get message.partyId,
      ¬recovery.RosterIsSupportedByLocalState held ∨ ¬RosterMembersAreLive held expelled then
    { recovery with pendingRosters := recovery.pendingRosters.insert message.partyId message }
  else recovery

def recordRoster (committeeH : ℕ) (message : DkgCoordination) : Handler Coordinator Unit := do
  let s ← get
  if ¬RosterAdmitted s committeeH message then return ()
  modify <| Coordinator.updateRecovery (holdRoster s.expelled message)
  let accepted ← maybeAcceptPendingRoster node env
  if accepted = false then maybePublishRosterInputsReady node env

/-- Whether a message is for this E3, canonical, and signed by the member it names. -/
def Authentic (committee : List (Option Address)) (message : DkgCoordination) : Prop :=
  (∃ member ∈ committee[message.partyId]?, ∃ expected ∈ member,
    node.recoverAddress message = some expected) ∧
  message.HasCanonicalDealers committee.length

instance (committee : List (Option Address)) (message : DkgCoordination) :
    Decidable (Authentic node committee message) :=
  inferInstanceAs (Decidable ((∃ member ∈ committee[message.partyId]?, _) ∧ _))

def recordDkgCoordination (message : DkgCoordination) : Handler Coordinator Unit :=
  if message.e3Id ≠ node.e3Id ∨ message.interfoldAddress ≠ node.interfoldAddress then return ()
  else do
    let committee ← orFail node.committee
    match committee[message.partyId]? with
    | none => return ()
    | some member => do
      let _ ← orFail member
      if ¬Authentic node committee message then return ()
      let committeeH ← orFail node.committeeH
      match message.kind with
      | .ready => recordReady node env committee.length committeeH message
      | .roster => recordRoster node env committeeH message

/-- A coordination message on the bus: a report can make a proposal possible. -/
def handleDkgCoordination (message : DkgCoordination) : Handler Coordinator Unit := do
  recordDkgCoordination node env message
  let s ← get
  if message.kind = .ready ∧ s.effectsEnabled = true then
    offerRoster node env

def handleAggregatorChanged (change : AggregatorChanged) : Handler Coordinator Unit :=
  if change.e3Id ≠ node.e3Id then return ()
  else if change.isAggregator ≠ decide (change.activePartyId = some node.partyId) then fail
  else do
    modify <| Coordinator.updateRecovery fun recovery =>
      { recovery with
        activeAggregatorPartyId := change.activePartyId
        isAggregator := change.isAggregator }
    let _ ← maybeAcceptPendingRoster node env
    let s ← get
    if s.effectsEnabled = true ∧ s.recovery.isAggregator = true then
      offerRoster node env

def handlePartyExcluded (partyId : ℕ) : Handler Coordinator Unit := do
  modify fun s =>
    { s with
      expelled := insert partyId s.expelled
      honestParties := s.honestParties.map fun honest => honest.erase partyId }
  applyHeldReadyUpdates node env

/-- The dealers of this node's own report, in the order of their ids. -/
def ownDealers (shares : VerifiedShares) : Option (List DkgDealer) :=
  ((node.partyId :: shares.verifiedDealerIds.filter fun id => id ∉ s.expelled).mapM
    shares.identity).map (List.insertionSort fun a b => a.partyId ≤ b.partyId)

def maybePublishDkgReady (shares : VerifiedShares) : Handler Coordinator Unit := do
  let s ← get
  if s.phase ≠ .aggregatingDecryptionKey ∨ shares.complete = false then return ()
  let committee ← orFail node.committee
  let member ← orFail committee[node.partyId]?
  if member ≠ some node.signer then fail
  let dealers ← orFail (ownDealers node s shares)
  let committeeH ← orFail node.committeeH
  if dealers.length < committeeH then return ()
  if ¬(dealers.map DkgDealer.partyId).IsChain (· < ·) then fail
  let update := s.recovery.dkgReady.map fun existing =>
    readyUpdate existing.dealers dealers s.expelled
  if update = some .unchanged then maybeStartC4ForAcceptedRoster env
  else if update = none ∨ update = some .extending then
    let ready ← signed node .ready dealers
    modify <| Coordinator.updateRecovery fun recovery =>
      { recovery with
        dkgReady := some ready
        readyByParty := recovery.readyByParty.insert node.partyId ready }
    if s.effectsEnabled = true then
      publish env (.coordination ready)
      offerRoster node env
    maybeStartC4ForAcceptedRoster env

/-- The decryption key is calculated: C4 is under way. -/
def handleDecryptionKeyCalculated : Handler Coordinator Unit := do
  let s ← get
  if s.shareDecryptionData = false ∨ s.phase ≠ .aggregatingDecryptionKey then fail
  modify <| Coordinator.updateRecovery fun recovery =>
    { recovery with decryptionShareProofsPending := true }
  modify fun s => { s with phase := .readyForDecryption, shareDecryptionData := false }

/-- The roster's part of `EffectsEnabled`: an accepted roster is restored, and without one the own
report is published again if its shares are `verified`. -/
def resume (verified : Bool) : Handler Coordinator Unit := do
  modify fun s => { s with effectsEnabled := true }
  catchError do
    applyHeldReadyUpdates node env
    let s ← get
    if s.phase = .aggregatingDecryptionKey then
      match s.recovery.dkgRoster, s.recovery.dkgReady with
      | some roster, _ => acceptDkgRoster node env roster
      | none, some ready =>
        if verified then
          publish env (.coordination ready)
          proposeDkgRoster node env
      | none, none => if verified then proposeDkgRoster node env
  catchError (maybePublishRosterInputsReady node env)
  catchError (proposeDkgRoster node env)

end

/-! ### Runs -/

/-- Another part of the actor changes the phase. It ends the aggregation only with a failure. -/
def Coordinator.advance (next : Phase) (s : Coordinator) : Coordinator :=
  if s.phase.next next ∧ (s.phase = .aggregatingDecryptionKey → next ≠ .readyForDecryption) then
    { s with phase := next }
  else s

/-- The process starts again from what is persisted. -/
def Coordinator.restart (s : Coordinator) : Coordinator :=
  { s with
    shareDecryptionData := s.recovery.decryptionShareProofsPending
    effectsEnabled := false
    rosterInputsReady := false
    rosterProposalPending := false }

inductive RosterEvent where
  | coordination (message : DkgCoordination)
  | aggregatorChanged (change : AggregatorChanged)
  | excluded (partyId : ℕ)
  | shares (shares : VerifiedShares)
  | decryptionKeyCalculated
  | advance (next : Phase)
  | restart
  | effectsEnabled (verified : Bool)

def rosterStep (node : Member) (env : Surroundings) (s : Coordinator) : RosterEvent → Coordinator
  | .coordination message => (handleDkgCoordination node env message s).2
  | .aggregatorChanged change => (handleAggregatorChanged node env change s).2
  | .excluded partyId => (handlePartyExcluded node env partyId s).2
  | .shares shares => (maybePublishDkgReady node env shares s).2
  | .decryptionKeyCalculated => (handleDecryptionKeyCalculated s).2
  | .advance next => s.advance next
  | .restart => s.restart
  | .effectsEnabled verified => (resume node env verified s).2

end Interfold.Keyshare
