import Interfold.Contracts.Bonding.Roster

/-!
# What a call does

`Ledgers` is the part of the registry's storage that accounts for value and obligations, and
`Effect` lists everything a call can do to it. Eligibility updates and configuration changes are
`Effect.idle`. `Step` is a call with its effects on the ledgers and its moves of the roster. Every
invariant of the registry is proved from these lists, so that a change of an entry point is felt in
one place.
-/

namespace Interfold.Bonding

open Transaction Function Ledger ExitQueue Relation

/-- The storage that accounts for bonds, tickets and slashing obligations. -/
structure Ledgers where
  this : Address
  ticketToken : TicketToken
  bondTokenAddress : Address
  bondToken : Erc20
  ciphernodeBond : Address → ℕ
  exits : ExitQueueState
  totalCiphernodeBondLiability : ℕ
  slashedCiphernodeBond : ℕ
  bondOwnerOf : Address → Address
  bondedByOwner : Address → ℕ
  slashedTicketBalance : ℕ
  reservedSlashedTicketBalance : ℕ
  slashRouteDestinations : Destinations
  slashedTicketReservations : Address → Key → SlashedTicketReservation
  pendingSlashRouteCount : Address → ℕ
  authorized : ManagerSet
  slashing : SlashingLayout

def State.ledgers (s : State) : Ledgers where
  this := s.this
  ticketToken := s.ticketToken
  bondTokenAddress := s.bondTokenAddress
  bondToken := s.bondToken
  ciphernodeBond operator := (s.operators operator).ciphernodeBond
  exits := s.exits
  totalCiphernodeBondLiability := s.totalCiphernodeBondLiability
  slashedCiphernodeBond := s.slashedCiphernodeBond
  bondOwnerOf := s.bondOwnerOf
  bondedByOwner := s.bondedByOwner
  slashedTicketBalance := s.slashedTicketBalance
  reservedSlashedTicketBalance := s.reservedSlashedTicketBalance
  slashRouteDestinations := s.slashRouteDestinations
  slashedTicketReservations := s.slashedTicketReservations
  pendingSlashRouteCount := s.pendingSlashRouteCount
  authorized := s.authorized
  slashing := s.slashing

namespace Ledgers

/-- The bond held for an operator, active or queued. -/
def holding (l : Ledgers) (operator : Address) : ℕ :=
  l.ciphernodeBond operator + (l.exits operator).pending .ciphernodeBond

def setBond (l : Ledgers) (operator : Address) (n : ℕ) : Ledgers :=
  { l with ciphernodeBond := update l.ciphernodeBond operator n }

def setQueue (l : Ledgers) (operator : Address) (q : OperatorQueue) : Ledgers :=
  { l with exits := update l.exits operator q }

/-- Makes `newOwner` the owner of everything held for `operator`. -/
def reassign (l : Ledgers) (operator newOwner : Address) : Ledgers :=
  let previousOwner := l.bondOwnerOf operator
  let bonded := update l.bondedByOwner previousOwner
    (l.bondedByOwner previousOwner - l.holding operator)
  { l with
    bondOwnerOf := update l.bondOwnerOf operator newOwner
    bondedByOwner := update bonded newOwner (bonded newOwner + l.holding operator) }

end Ledgers

/-- The effects of a call on the ledgers, with the guards later proofs rely on. -/
inductive Effect (env : Env) (l : Ledgers) : Ledgers → Prop
  | idle : Effect env l l
  | setBondOwner {bondOwner : Address} (howner : bondOwner ≠ 0)
      (hfree : l.bondOwnerOf env.sender = 0 ∨ l.holding env.sender = 0) :
      Effect env l { l with bondOwnerOf := update l.bondOwnerOf env.sender bondOwner }
  | acceptBondOwner {operator : Address} (hsender : env.sender ≠ 0) :
      Effect env l (l.reassign operator env.sender)
  | releaseAssets {operator : Address} {delay : ℕ} {token : TicketToken}
      {q : OperatorQueue}
      (htoken : (if l.ticketToken.balanceOf operator ≠ 0 then
        l.ticketToken.burnTickets l.this operator (l.ticketToken.balanceOf operator)
        else pure l.ticketToken) = .ok token)
      (hqueue : queueAssetsForExit env.now delay (l.ticketToken.balanceOf operator)
        (l.ciphernodeBond operator) (l.exits operator) = .ok q) :
      Effect env l { (l.setBond operator 0).setQueue operator q with ticketToken := token }
  | addTickets {operator : Address} {amount : ℕ} {token : TicketToken}
      (htoken : l.ticketToken.depositFrom env.acceptsUnderlyingTransfer l.this env.sender operator
        amount = .ok token) :
      Effect env l { l with ticketToken := token }
  | removeTickets {operator : Address} {amount delay : ℕ} {token : TicketToken}
      {q : OperatorQueue} (htoken : l.ticketToken.burnTickets l.this operator amount = .ok token)
      (hqueue : queueAssetsForExit env.now delay amount 0 (l.exits operator) = .ok q) :
      Effect env l { l.setQueue operator q with ticketToken := token }
  | bond {operator : Address} {amount : ℕ} {accepts : Bool} {token : Erc20}
      (hsender : env.sender ≠ 0) (howner : env.sender = l.bondOwnerOf operator)
      (hset : l.bondTokenAddress ≠ 0)
      (htoken : l.bondToken.transferFromExact accepts l.this env.sender amount = .ok token) :
      Effect env l { l.setBond operator (l.ciphernodeBond operator + amount) with
        bondedByOwner := update l.bondedByOwner (l.bondOwnerOf operator)
          (l.bondedByOwner (l.bondOwnerOf operator) + amount)
        bondToken := token
        totalCiphernodeBondLiability := l.totalCiphernodeBondLiability + amount }
  | unbond {operator : Address} {amount delay : ℕ} {q : OperatorQueue}
      (hle : amount ≤ l.ciphernodeBond operator)
      (hqueue : queueAssetsForExit env.now delay 0 amount (l.exits operator) = .ok q) :
      Effect env l ((l.setBond operator (l.ciphernodeBond operator - amount)).setQueue operator q)
  | claim {operator : Address} {maxTicket maxBond tickets bonds : ℕ}
      {accepts : Bool} {q : OperatorQueue} {token : TicketToken} {bondToken : Erc20}
      (hclaim : claimAssets env.now maxTicket maxBond (l.exits operator) = .ok ((tickets, bonds), q))
      (htoken : (if tickets ≠ 0 then l.ticketToken.payout env.acceptsUnderlyingTransfer l.this
        (l.bondOwnerOf operator) tickets else pure l.ticketToken) = .ok token)
      (hbond : (if bonds ≠ 0 then l.bondToken.transferExact accepts l.this
        (l.bondOwnerOf operator) bonds else pure l.bondToken) = .ok bondToken)
      (hle : bonds ≤ l.totalCiphernodeBondLiability) :
      Effect env l { l.setQueue operator q with
        ticketToken := token
        bondedByOwner := update l.bondedByOwner (l.bondOwnerOf operator)
          (l.bondedByOwner (l.bondOwnerOf operator) - bonds)
        bondToken
        totalCiphernodeBondLiability := l.totalCiphernodeBondLiability - bonds }
  | slashTickets {operator : Address} {active queued : ℕ} {token : TicketToken}
      {q : OperatorQueue}
      (htoken : (if 0 < active then l.ticketToken.burnTickets l.this operator active
        else pure l.ticketToken) = .ok token)
      (hqueue : (∃ n, slashPendingAssets env.now queued 0 true (l.exits operator) =
        .ok ((queued, n), q)) ∨ queued = 0 ∧ q = l.exits operator) :
      Effect env l { l.setQueue operator q with
        ticketToken := token, slashedTicketBalance := l.slashedTicketBalance + (active + queued) }
  | slashBond {operator : Address} {active queued : ℕ} {q : OperatorQueue}
      (hactive : active ≤ l.ciphernodeBond operator)
      (hqueue : (∃ n, slashPendingAssets env.now 0 queued true (l.exits operator) =
        .ok ((n, queued), q)) ∨ queued = 0 ∧ q = l.exits operator) :
      Effect env l { (l.setBond operator (l.ciphernodeBond operator - active)).setQueue operator q
        with
        bondedByOwner := update l.bondedByOwner (l.bondOwnerOf operator)
          (l.bondedByOwner (l.bondOwnerOf operator) - (active + queued))
        slashedCiphernodeBond := l.slashedCiphernodeBond + (active + queued) }
  | snapshot (hmanager : l.authorized.indexPlusOne env.sender ≠ 0)
      (h : snapshotE3 env.sender e3Id refundManager interfold l.slashRouteDestinations l.slashing =
        .ok (d, slashing)) :
      Effect env l { l with slashRouteDestinations := d, slashing }
  | releaseE3 (hmanager : l.authorized.indexPlusOne env.sender ≠ 0)
      (h : releaseE3 env env.sender e3Id l.slashRouteDestinations l.slashing = .ok (d, slashing)) :
      Effect env l { l with slashRouteDestinations := d, slashing }
  | openLock (hmanager : l.authorized.indexPlusOne env.sender ≠ 0)
      (h : openLock env.sender e3Id proposalId operator l.slashRouteDestinations l.slashing =
        .ok slashing) : Effect env l { l with slashing }
  | closeLock (hmanager : l.authorized.indexPlusOne env.sender ≠ 0)
      (h : closeLock env.sender proposalId operator l.slashing = .ok slashing) :
      Effect env l { l with slashing }
  | ban (hmanager : l.authorized.indexPlusOne manager ≠ 0)
      (h : setBan manager operator banned l.slashing = .ok (changed, slashing)) :
      Effect env l { l with slashing }
  | reserve {proposalId e3Id : Key} {amount : ℕ} {slashing : SlashingLayout}
      (hmanager : l.authorized.indexPlusOne env.sender ≠ 0) (hpos : 0 < amount)
      (hnew : (l.slashedTicketReservations env.sender proposalId).amount = 0)
      (hdest : l.slashRouteDestinations env.sender e3Id ≠ 0)
      (hfree : l.reservedSlashedTicketBalance + amount ≤ l.slashedTicketBalance)
      (h : updateRouteCount env.sender e3Id true l.slashing = .ok slashing) :
      Effect env l { l with
        slashedTicketReservations := update₂ l.slashedTicketReservations env.sender proposalId
          ⟨e3Id, l.slashRouteDestinations env.sender e3Id, amount⟩
        pendingSlashRouteCount := update l.pendingSlashRouteCount env.sender
          (l.pendingSlashRouteCount env.sender + 1)
        slashing
        reservedSlashedTicketBalance := l.reservedSlashedTicketBalance + amount }
  | redirect {proposalId : Key} {token : TicketToken} {slashing : SlashingLayout}
      (hmanager : l.authorized.indexPlusOne env.sender ≠ 0)
      (hpos : (l.slashedTicketReservations env.sender proposalId).amount ≠ 0)
      (h : updateRouteCount env.sender (l.slashedTicketReservations env.sender proposalId).e3Id
        false l.slashing = .ok slashing)
      (htoken : l.ticketToken.payout env.acceptsUnderlyingTransfer l.this
        (l.slashedTicketReservations env.sender proposalId).refundManager
        (l.slashedTicketReservations env.sender proposalId).amount = .ok token) :
      Effect env l { l with
        slashedTicketReservations := update₂ l.slashedTicketReservations env.sender proposalId
          ⟨0, 0, 0⟩
        pendingSlashRouteCount := update l.pendingSlashRouteCount env.sender
          (l.pendingSlashRouteCount env.sender - 1)
        slashing
        reservedSlashedTicketBalance := l.reservedSlashedTicketBalance -
          (l.slashedTicketReservations env.sender proposalId).amount
        slashedTicketBalance := l.slashedTicketBalance -
          (l.slashedTicketReservations env.sender proposalId).amount
        ticketToken := token }
  | withdraw {ticketAmount bondAmount : ℕ} {treasury : Address} {accepts : Bool}
      {token : TicketToken} {bondToken : Erc20}
      (hticket : l.reservedSlashedTicketBalance + ticketAmount ≤ l.slashedTicketBalance)
      (hbond : bondAmount ≤ l.slashedCiphernodeBond)
      (hpay : (if 0 < ticketAmount then l.ticketToken.payout env.acceptsUnderlyingTransfer l.this
        treasury ticketAmount else pure l.ticketToken) = .ok token)
      (htransfer : (if 0 < bondAmount then l.bondToken.transferExact accepts l.this treasury
        bondAmount else pure l.bondToken) = .ok bondToken) :
      Effect env l { l with
        slashedTicketBalance := l.slashedTicketBalance - ticketAmount
        ticketToken := token
        slashedCiphernodeBond := l.slashedCiphernodeBond - bondAmount
        totalCiphernodeBondLiability := l.totalCiphernodeBondLiability - bondAmount
        bondToken }
  | committee (h : l.slashing.setCommitteeObligation env.sender registry e3Id operator active =
        .ok slashing) : Effect env l { l with slashing }
  | sweep (h : l.totalCiphernodeBondLiability ≤ bondToken l.this) :
      Effect env l { l with bondToken }
  | installTokens {ticketToken : TicketToken} {bondTokenAddress : Address}
      {bondToken : Erc20}
      (hticket : ticketToken = l.ticketToken ∨ ∃ token underlying,
        ticketToken = freshTicketToken token l.this underlying ∧
        (l.ticketToken.this = 0 ∨ l.ticketToken.totalSupply + l.ticketToken.payableBalance = 0))
      (hset : ticketToken.this ≠ 0)
      (hbond : bondTokenAddress = l.bondTokenAddress ∧ bondToken = l.bondToken ∨
        bondTokenAddress ≠ 0 ∧ (l.bondTokenAddress = 0 ∨ l.bondToken l.this = 0)) :
      Effect env l { l with
        ticketToken, bondTokenAddress, bondToken }
  | authorize (h : authorizeManager env manager l.this l.authorized = .ok m) :
      Effect env l { l with authorized := m }
  | revoke {manager current : Address} {m : ManagerSet}
      (h : revokeManager manager current l.pendingSlashRouteCount l.slashing l.authorized = .ok m) :
      Effect env l { l with authorized := m }
  | transfers {bondToken underlying : Erc20} (hbond : l.bondToken l.this ≤ bondToken l.this)
      (hunderlying : l.ticketToken.underlying l.ticketToken.this ≤ underlying l.ticketToken.this) :
      Effect env l { l with
        bondToken, ticketToken := { l.ticketToken with underlying } }

/-! ## Eligibility updates and configuration -/

lemma ledgers_setOperator (s : State) (op : Address) (o : Operator) :
    (s.setOperator op o).ledgers = s.ledgers.setBond op o.ciphernodeBond := by
  simp only [State.ledgers, State.setOperator, Ledgers.setBond, Ledgers.mk.injEq, true_and,
    and_true]
  funext x
  by_cases hx : x = op
  · subst hx
    simp
  · simp [hx]

variable {s : State} {now : ℕ}

lemma ledgers_setOperator_of_bond_eq (h : o.ciphernodeBond = (s.operators op).ciphernodeBond) :
    (s.setOperator op o).ledgers = s.ledgers := by
  rw [ledgers_setOperator, h]
  exact congrArg (fun f => { s.ledgers with ciphernodeBond := f }) (update_eq_self ..)

lemma ledgers_setBond (s : State) (op : Address) (n : ℕ) :
    (s.setBond op n).ledgers = s.ledgers.setBond op n :=
  ledgers_setOperator ..

/-- The bonds by owner, the token that backs them and the contract that records them. -/
structure Stake where
  this : Address
  asset : Address
  ledger : Erc20
  bonded : Address → ℕ
  slashed : ℕ
  checkpoints : Address

def State.stake (s : State) : Stake where
  this := s.this
  asset := s.bondTokenAddress
  ledger := s.bondToken
  bonded := s.bondedByOwner
  slashed := s.slashedCiphernodeBond
  checkpoints := s.bondedCheckpoints

/-- What a call does to the ledgers and to the roster. -/
structure Step (env : Env) (s s' : State) : Prop where
  effects : ReflTransGen (Effect env) s.ledgers s'.ledgers
  moves : Moves env s.roster s'.roster

/-- Whether a call is about the bonds by owner, their token or their checkpoints. -/
def Call.movesStake : Call → Bool
  | .acceptBondOwner _ | .bondCiphernodeFor _ _ | .claimExitsFor _ _ _ | .slashCiphernodeBond _ _
  | .withdrawSlashedFunds _ _ | .sweepCiphernodeBondSurplus | .setBondingAssetConfig _
  | .setBondedCheckpoints _ => true
  | _ => false

/-- A call that leaves the stake alone. -/
structure Calm (env : Env) (s s' : State) : Prop extends Step env s s' where
  stake : s'.stake = s.stake

/-- A call that leaves the ledgers alone as well. -/
structure Quiet (env : Env) (s s' : State) : Prop where
  ledgers : s'.ledgers = s.ledgers
  moves : Moves env s.roster s'.roster
  stake : s'.stake = s.stake

/-! ## Payments and reports

A call makes at most one transfer of the bond token and reports the totals of at most two bond
owners to the checkpoints.
-/

/-- A transfer of the bond token. -/
structure Payment where
  sender : Address
  recipient : Address
  amount : ℕ
deriving DecidableEq

/-- The transfer of `_sweepCiphernodeBondSurplus`. -/
def surplusPayment (s : State) : Option Payment :=
  if s.bondTokenAddress = 0 ∨ s.bondToken s.this ≤ s.totalCiphernodeBondLiability then none
  else some ⟨s.this, s.slashedFundsTreasury, s.bondToken s.this - s.totalCiphernodeBondLiability⟩

/-- The transfer of the bond token that a call makes. -/
def payment (env : Env) (s : State) : Call → Option Payment
  | .bondCiphernodeFor _ amount => some ⟨env.sender, s.this, amount⟩
  | .claimExitsFor operator maxTicketAmount maxCiphernodeBondAmount =>
    match claimAssets env.now maxTicketAmount maxCiphernodeBondAmount (s.exits operator) with
    | .ok ((_, bondClaim), _) =>
      if bondClaim ≠ 0 then some ⟨s.this, s.bondOwnerOf operator, bondClaim⟩ else none
    | .error _ => none
  | .withdrawSlashedFunds _ ciphernodeBondAmount =>
    if 0 < ciphernodeBondAmount then some ⟨s.this, s.slashedFundsTreasury, ciphernodeBondAmount⟩
    else none
  | .sweepCiphernodeBondSurplus => surplusPayment s
  | .setBondingAssetConfig _ => surplusPayment s
  | _ => none

/-- The owners whose totals a call reports to the checkpoints. -/
def synced (env : Env) (s : State) : Call → List Address
  | .acceptBondOwner operator => [s.bondOwnerOf operator, env.sender]
  | .bondCiphernodeFor operator _ => [s.bondOwnerOf operator]
  | .claimExitsFor operator _ _ => [s.bondOwnerOf operator]
  | .slashCiphernodeBond operator requestedSlashAmount =>
    if min requestedSlashAmount ((s.operators operator).ciphernodeBond +
      (s.exits operator).pending .ciphernodeBond) = 0 then [] else [s.bondOwnerOf operator]
  | .setBondedCheckpoints _ => [0]
  | .resyncBondedCheckpoint bondOwner => [bondOwner]
  | _ => []

/-- What a call does to the stake, with the transfer it makes and the owners it reports. -/
inductive Stake.Move (env : Env) (token : Address) (k : Stake) :
    Option Payment → List Address → Stake → Prop
  | keep : Move env token k none owners k
  | install (hunset : k.asset = 0) :
      Move env token k none [] { k with asset := token, checkpoints := 0 }
  | attach {checkpoints : Address} (hunset : k.checkpoints = 0) :
      Move env token k none [0] { k with checkpoints }
  | bond {amount : ℕ} (hset : k.asset ≠ 0) (hother : env.sender ≠ k.this) :
      Move env token k (some ⟨env.sender, k.this, amount⟩) [env.sender] { k with
        ledger := k.ledger.move env.sender k.this amount
        bonded := update k.bonded env.sender (k.bonded env.sender + amount) }
  | exit (hother : owner ≠ k.this) (hheld : amount ≤ k.bonded owner) :
      Move env token k (some ⟨k.this, owner, amount⟩) [owner] { k with
        ledger := k.ledger.move k.this owner amount
        bonded := update k.bonded owner (k.bonded owner - amount) }
  | pay {recipient : Address} {amount slashed : ℕ} (hslashed : slashed ≤ k.slashed) :
      Move env token k (some ⟨k.this, recipient, amount⟩) [] { k with
        ledger := k.ledger.move k.this recipient amount
        slashed }
  | reassign (hheld : amount ≤ k.bonded previous)
      (hlocked : amount = 0 ∨ ∃ locked, env.lockedBalanceOf k.asset previous = some locked ∧
        locked ≤ k.ledger previous + (k.bonded previous - amount)) :
      Move env token k none [previous, env.sender] { k with
        bonded := update (update k.bonded previous (k.bonded previous - amount)) env.sender
          (update k.bonded previous (k.bonded previous - amount) env.sender + amount) }
  | slash {owner : Address} {amount : ℕ} (hheld : amount ≤ k.bonded owner) :
      Move env token k none [owner] { k with
        bonded := update k.bonded owner (k.bonded owner - amount)
        slashed := k.slashed + amount }

/-- What a call does to the ledgers, the roster and the stake. -/
structure Moved (env : Env) (token : Address) (s : State) (c : Call) (s' : State) : Prop where
  step : env.sender ≠ 0 → Step env s s'
  stake : Stake.Move env token s.stake (payment env s c) (synced env s c) s'.stake

section

variable {env : Env} {s s₁ s' : State} {op t : Address} {amount : ℕ}

lemma Step.once (heff : Effect env s.ledgers s'.ledgers) (hrost : s'.roster = s.roster) :
    Step env s s' :=
  ⟨.single heff, by rw [hrost]⟩

lemma Quiet.refl : Quiet env s s := ⟨rfl, .refl, rfl⟩

lemma Quiet.trans (h : Quiet env s s₁) (h' : Quiet env s₁ s') : Quiet env s s' :=
  ⟨h'.ledgers.trans h.ledgers, h.moves.trans h'.moves, h'.stake.trans h.stake⟩

lemma Quiet.calm (h : Quiet env s s') : Calm env s s' :=
  ⟨⟨by rw [h.ledgers], h.moves⟩, h.stake⟩

/-- Most calls end with an update that leaves the ledgers and the stake alone. -/
lemma Quiet.ends_step (h' : Quiet env s₁ s') (h : Step env s s₁) : Step env s s' :=
  ⟨h'.ledgers ▸ h.effects, h.moves.trans h'.moves⟩

lemma Quiet.ends_calm (h' : Quiet env s₁ s') (h : Calm env s s₁) : Calm env s s' :=
  ⟨h'.ends_step h.toStep, h'.stake.trans h.stake⟩

/-! ## Eligibility updates -/

lemma updateStatus_quiet (h : updateOperatorStatus env op s = .ok s') : Quiet env s s' := by
  obtain ⟨pool, count, active, hupd, hrost⟩ := updateStatus_updates h
  have hmoves : Moves env s.roster s'.roster := hrost ▸ .single (.update hupd)
  simp only [updateOperatorStatus, run_ok, Prod.exists] at h
  obtain ⟨pool, count, active, -, rfl⟩ := h
  exact ⟨ledgers_setOperator_of_bond_eq (s := s) rfl, hmoves, rfl⟩

lemma invalidateStatuses_quiet (h : invalidateEligibilityStatuses env s = .ok s') :
    Quiet env s s' := by
  simp only [invalidateEligibilityStatuses, run_ok, Prod.exists] at h
  obtain ⟨v, pool, hver, rfl⟩ := h
  exact ⟨rfl, .single (.invalidate (r := s.roster) hver), rfl⟩

lemma refreshStatus_quiet (h : refreshOperatorStatus env op s = .ok s') : Quiet env s s' := by
  unfold refreshOperatorStatus at h
  split_ifs at h
  · simp only [bind_ok] at h
    obtain ⟨-, -, -, -, h⟩ := h
    exact invalidateStatuses_quiet h
  · simp only [bind_ok] at h
    obtain ⟨-, -, h⟩ := h
    exact updateStatus_quiet h

lemma refreshStatuses_quiet (h : refreshOperatorStatuses env ops s = .ok s') : Quiet env s s' := by
  induction ops generalizing s with
  | nil =>
    obtain rfl := pure_ok.1 h
    exact .refl
  | cons op ops ih =>
    simp only [refreshOperatorStatuses, bind_ok] at h
    obtain ⟨s₁, h₁, h₂⟩ := h
    exact (refreshStatus_quiet h₁).trans (ih h₂)

/-! ## Bonds and their owners -/

lemma setBondOwner_calm (h : setBondOwner env bondOwner s = .ok s') : Calm env s s' := by
  simp only [setBondOwner, run_ok] at h
  obtain ⟨-, howner, -, hfree, pool, hrec, rfl⟩ := h
  refine ⟨⟨.single (.setBondOwner howner (hfree.imp_right ?_)),
    .single (.own (r := s.roster) howner hrec)⟩, rfl⟩
  rintro ⟨-, hbond, hpend, -, -⟩
  simp [Ledgers.holding, State.ledgers, hbond, hpend]

lemma acceptBondOwner_moved (h : acceptBondOwner env op s = .ok s') :
    Moved env t s (.acceptBondOwner op) s' := by
  simp only [acceptBondOwner, run_ok] at h
  obtain ⟨-, -, bond, ⟨-, rfl⟩, _, hvalid, pool, hrec, left, ⟨hheld, rfl⟩, gained, ⟨-, rfl⟩, -, -,
    -, -, rfl⟩ := h
  refine ⟨fun hsender => ⟨.single (@Effect.acceptBondOwner env s.ledgers op hsender),
    .single (.own (r := s.roster) hsender hrec)⟩, .reassign (k := s.stake) hheld ?_⟩
  unfold validateBondOwnerTransfer at hvalid
  rw [ite_ok] at hvalid
  refine hvalid.imp And.left ?_
  rintro ⟨-, hvalid⟩
  simp only [run_ok] at hvalid
  obtain ⟨_, ⟨-, rfl⟩, hvalid⟩ := hvalid
  cases hlock : env.lockedBalanceOf s.bondTokenAddress (s.bondOwnerOf op) with
  | none => simp [hlock, revertWith_ok] at hvalid
  | some locked =>
    simp only [hlock, run_ok] at hvalid
    obtain ⟨_, ⟨-, rfl⟩, hcov⟩ := hvalid
    exact ⟨locked, hlock, hcov⟩

lemma registerFor_quiet (h : registerOperatorFor env op s = .ok s') : Quiet env s s' := by
  simp only [registerOperatorFor, run_ok] at h
  obtain ⟨-, -, -, -, -, -, -, -, -, hnew, -, -, pool₁, hexcl, pool₂, hstart, count, ⟨-, rfl⟩, -, -,
    hstat⟩ := h
  have hnew' : s.roster.registered op = false := by
    split_ifs at hnew
    · exact hnew
    · exact hnew
  have hsame : Operator.SameStatus s op { (if (s.operators op).exitRequested then
      { s.operators op with exitRequested := false, exitUnlocksAt := 0 }
      else s.operators op) with registered := true } := by
    unfold Operator.SameStatus
    split_ifs
    · rfl
    · rfl
  obtain ⟨hleds, hmoves, hstake⟩ := updateStatus_quiet hstat
  rw [roster_setRegistered hsame] at hmoves
  refine ⟨hleds.trans ?_, .head (.enter (r := s.roster) hnew' hexcl hstart) hmoves, hstake⟩
  exact ledgers_setOperator_of_bond_eq (s := s) (by split_ifs <;> rfl)

lemma deregisterFor_calm (h : deregisterOperatorFor env op s = .ok s') : Calm env s s' := by
  simp only [deregisterOperatorFor, releaseAssets, run_ok] at h
  obtain ⟨-, -, -, -, -, -, -, hold, pool₁, hcompl, -, -, count, ⟨-, rfl⟩, s₁,
    ⟨token, htoken, q, hqueue, rfl⟩, -, -, hstat⟩ := h
  have heq : (s.setOperator op { s.operators op with
      registered := false, exitRequested := true
      exitUnlocksAt := toUint64 env.now + s.exitDelay }).ledgers = s.ledgers :=
    ledgers_setOperator_of_bond_eq rfl
  have hleave := (roster_setBond op 0).trans (roster_setRegistered (o :=
    { s.operators op with
      registered := false, exitRequested := true
      exitUnlocksAt := toUint64 env.now + s.exitDelay }) rfl pool₁ (s.numRegisteredOperators - 1))
  simp only [State.setOperator, update_self] at hqueue
  have heff := Effect.releaseAssets (l := s.ledgers) htoken hqueue
  rw [← heq, ← ledgers_setBond, heq] at heff
  obtain ⟨hleds, -, hstake⟩ := updateStatus_quiet hstat
  obtain ⟨pool₂, count, active, hupd, hrost⟩ := updateStatus_updates hstat
  refine ⟨⟨hleds ▸ .single heff, ?_⟩, hstake⟩
  rw [hrost]
  have hmove := Move.leave (r := s.roster) hold hcompl (hleave ▸ hupd)
  exact .single (hleave ▸ hmove)

lemma addTicketsFor_calm (h : addTicketBalanceFor env op amount s = .ok s') : Calm env s s' := by
  simp only [addTicketBalanceFor, bind_ok] at h
  obtain ⟨-, -, -, -, -, -, -, -, token, htoken, hstat⟩ := h
  exact (updateStatus_quiet hstat).ends_calm ⟨.once (.addTickets (l := s.ledgers) htoken) rfl, rfl⟩

lemma removeTicketsFor_calm (h : removeTicketBalanceFor env op amount s = .ok s') :
    Calm env s s' := by
  simp only [removeTicketBalanceFor, bind_ok] at h
  obtain ⟨-, -, -, -, -, -, -, -, -, -, -, -, token, htoken, q, hqueue, hstat⟩ := h
  exact (updateStatus_quiet hstat).ends_calm
    ⟨.once (.removeTickets (l := s.ledgers) htoken hqueue) rfl, rfl⟩

lemma bondFor_moved (h : bondCiphernodeFor env op amount s = .ok s') :
    Moved env t s (.bondCiphernodeFor op amount) s' := by
  simp only [bondCiphernodeFor, run_ok] at h
  obtain ⟨-, -, -, -, -, hpos, -, howner, bond, ⟨-, rfl⟩, bonded, ⟨-, rfl⟩, -, -, token, htoken,
    liability, ⟨-, rfl⟩, hstat⟩ := h
  obtain ⟨hacc, hled, hother⟩ := Erc20.transferFromExact_ok htoken
  have hset : s.bondTokenAddress ≠ 0 := by
    simp only [acceptsBondTransfer, Bool.and_eq_true, decide_eq_true_eq] at hacc
    exact hacc.1
  refine ⟨fun hsender => ?_, ?_⟩
  · have heff := Effect.bond (l := s.ledgers) hsender howner hset htoken
    rw [← ledgers_setBond] at heff
    exact (updateStatus_quiet hstat).ends_step (.once heff (roster_setBond ..))
  · rw [(updateStatus_quiet hstat).stake, hled]
    simp only [synced, ← howner]
    exact .bond hset (hother hpos)

lemma unbondFor_calm (h : unbondCiphernodeFor env op amount s = .ok s') : Calm env s s' := by
  simp only [unbondCiphernodeFor, run_ok] at h
  obtain ⟨-, -, -, -, -, -, -, -, -, hle, q, hqueue, hstat⟩ := h
  have heff := Effect.unbond (l := s.ledgers) hle hqueue
  rw [← ledgers_setBond] at heff
  exact (updateStatus_quiet hstat).ends_calm ⟨.once heff (roster_setBond ..), rfl⟩

lemma claimExitsFor_moved (h : claimExitsFor env op maxTicket maxBond s = .ok s') :
    Moved env t s (.claimExitsFor op maxTicket maxBond) s' := by
  simp only [claimExitsFor, run_ok, Prod.exists] at h
  obtain ⟨-, -, -, -, claimed, s₁, hclaim, liability, ⟨hle, rfl⟩, -, -, rfl⟩ := h
  simp only [claimExits, bind_ok, Prod.exists] at hclaim
  obtain ⟨tickets, bonds, q, hasts, -, -, -, -, token, htoken, hbonds⟩ := hclaim
  by_cases hzero : bonds = 0
  · subst hzero
    simp only [ne_eq, not_true_eq_false, if_false, pure_ok, Prod.mk.injEq] at hbonds
    obtain ⟨rfl, rfl⟩ := hbonds
    have heff := Effect.claim (l := s.ledgers) hasts htoken
      (show (if (0 : ℕ) ≠ 0 then s.bondToken.transferExact true s.this (s.bondOwnerOf op) 0
        else pure s.bondToken) = .ok s.bondToken from rfl) (Nat.zero_le _)
    simp only [Nat.sub_zero, update_eq_self] at heff
    refine ⟨fun _ => .once heff rfl, ?_⟩
    simp only [payment, synced, hasts]
    exact .keep
  · simp only [ne_eq, hzero, not_false_eq_true, if_true, run_ok, Prod.mk.injEq] at hbonds
    obtain ⟨left, ⟨hheld, rfl⟩, bt, hbond, rfl, rfl⟩ := hbonds
    obtain ⟨hled, hother⟩ := Erc20.transferExact_ok hbond
    refine ⟨fun _ => .once (.claim (l := s.ledgers) hasts htoken
      (by rw [if_pos hzero]; exact hbond) hle) rfl, ?_⟩
    simp only [payment, synced, hasts, if_pos hzero, hled]
    exact .exit (k := s.stake) (hother hzero) hheld

/-! ## Slashing -/

variable {requested actual decimals n : ℕ} {pid : Key} {next : Address} {u : Unit} {c : Call}

lemma slashTickets_calm
    (h : slashTicketBalance env op requested s = .ok (actual, s')) : Calm env s s' := by
  simp only [slashTicketBalance, run_ok] at h
  obtain ⟨-, -, -, -, available, ⟨-, rfl⟩, h⟩ := h
  rcases ite_ok.1 h with ⟨-, h⟩ | ⟨-, h⟩
  · simp only [pure_ok, Prod.mk.injEq] at h
    rw [← h.2]
    exact Quiet.refl.calm
  simp only [run_ok, Prod.mk.injEq] at h
  obtain ⟨token, htoken, q, hqueue, total, ⟨-, rfl⟩, s₁, hstat, -, rfl⟩ := h
  generalize hslash : min requested _ = slash at *
  have hsum : slash = min slash (s.ticketToken.balanceOf op) +
      (slash - min slash (s.ticketToken.balanceOf op)) := by omega
  have hqueue' : (∃ n, slashPendingAssets env.now
      (slash - min slash (s.ticketToken.balanceOf op)) 0 true (s.exits op) =
        .ok ((slash - min slash (s.ticketToken.balanceOf op), n), q)) ∨
      slash - min slash (s.ticketToken.balanceOf op) = 0 ∧ q = s.exits op := by
    split_ifs at hqueue with hpos
    · simp only [run_ok, Prod.exists] at hqueue
      obtain ⟨slashed, n, q₁, hasts, -, rfl, rfl⟩ := hqueue
      exact .inl ⟨n, hasts⟩
    · rw [pure_ok] at hqueue
      exact .inr ⟨by omega, hqueue.symm⟩
  have heff := Effect.slashTickets (l := s.ledgers) htoken hqueue'
  rw [← hsum] at heff
  exact (updateStatus_quiet hstat).ends_calm ⟨.once heff rfl, rfl⟩

lemma slashBond_moved (h : slashCiphernodeBond env op requested s = .ok (actual, s')) :
    Moved env t s (.slashCiphernodeBond op requested) s' := by
  simp only [slashCiphernodeBond, run_ok] at h
  obtain ⟨-, -, -, -, available, ⟨-, rfl⟩, h⟩ := h
  rcases ite_ok.1 h with ⟨-, h⟩ | ⟨hpos, h⟩
  · simp only [pure_ok, Prod.mk.injEq] at h
    rw [← h.2]
    exact ⟨fun _ => Quiet.refl.calm.toStep, .keep⟩
  simp only [run_ok, Prod.mk.injEq] at h
  obtain ⟨q, hqueue, left, ⟨hheld, rfl⟩, -, -, total, ⟨-, rfl⟩, s₁, hstat, -, rfl⟩ := h
  have hstake : Stake.Move env t s.stake none [s.bondOwnerOf op] s₁.stake :=
    (updateStatus_quiet hstat).stake ▸ .slash (k := s.stake) hheld
  refine ⟨fun _ => ?_, by rwa [synced, if_neg hpos]⟩
  generalize hslash : min requested _ = slash at *
  have hsum : slash = min slash (s.operators op).ciphernodeBond +
      (slash - min slash (s.operators op).ciphernodeBond) := by omega
  have hqueue' : (∃ n, slashPendingAssets env.now 0
      (slash - min slash (s.operators op).ciphernodeBond) true (s.exits op) =
        .ok ((n, slash - min slash (s.operators op).ciphernodeBond), q)) ∨
      slash - min slash (s.operators op).ciphernodeBond = 0 ∧ q = s.exits op := by
    split_ifs at hqueue with hpos
    · simp only [run_ok, Prod.exists] at hqueue
      obtain ⟨n, slashed, q₁, hasts, -, rfl, rfl⟩ := hqueue
      exact .inl ⟨n, hasts⟩
    · rw [pure_ok] at hqueue
      exact .inr ⟨by omega, hqueue.symm⟩
  have heff := Effect.slashBond (l := s.ledgers)
    (Nat.min_le_right slash (s.operators op).ciphernodeBond) hqueue'
  rw [← hsum, ← ledgers_setBond] at heff
  exact (updateStatus_quiet hstat).ends_step (.once heff (roster_setBond ..))

lemma applyBan_calm (hmgr : s.authorized.indexPlusOne manager ≠ 0)
    (h : applyBan env manager op banned s = .ok s') : Calm env s s' := by
  simp only [applyBan, bind_ok, Prod.exists] at h
  obtain ⟨changed, slashing, hban, h⟩ := h
  have hcalm : Calm env s { s with slashing } :=
    ⟨.once (.ban (l := s.ledgers) hmgr hban) rfl, rfl⟩
  split_ifs at h
  · exact (updateStatus_quiet h).ends_calm hcalm
  · exact pure_ok.1 h ▸ hcalm

lemma reserveFunds_calm
    (h : reserveSlashedTicketFunds env pid e3Id amount s = .ok s') : Calm env s s' := by
  simp only [reserveSlashedTicketFunds, onlyAuthorizedSlashingManager, run_ok] at h
  obtain ⟨-, hmgr, -, hpos, -, hdest, -, hnew, free, ⟨hle, rfl⟩, -, hfree, routes, ⟨-, rfl⟩,
    slashing, hroute, reserved, ⟨-, rfl⟩, rfl⟩ := h
  exact ⟨.once (.reserve (l := s.ledgers) hmgr hpos hnew hdest
    (by simp only [State.ledgers]; omega) hroute) rfl, rfl⟩

lemma redirectFunds_calm
    (h : redirectReservedSlashedTicketFunds env pid s = .ok s') : Calm env s s' := by
  simp only [redirectReservedSlashedTicketFunds, onlyAuthorizedSlashingManager, run_ok] at h
  obtain ⟨-, hmgr, -, hpos, routes, ⟨-, rfl⟩, slashing, hroute, reserved, ⟨-, rfl⟩, total, ⟨-, rfl⟩,
    token, htoken, rfl⟩ := h
  exact ⟨.once (.redirect (l := s.ledgers) hmgr hpos hroute htoken) rfl, rfl⟩

lemma withdrawFunds_moved (h : withdrawSlashedFunds env ta bondAmount s = .ok s') :
    Moved env t s (.withdrawSlashedFunds ta bondAmount) s' := by
  simp only [withdrawSlashedFunds, run_ok] at h
  obtain ⟨-, -, free, ⟨hle, rfl⟩, -, htick, -, hbond, s₁, hpay, h⟩ := h
  have hpay' : ∃ token, (if 0 < ta then s.ticketToken.payout
      env.acceptsUnderlyingTransfer s.this s.slashedFundsTreasury ta
      else pure s.ticketToken) = .ok token ∧
      s₁ = { s with
        slashedTicketBalance := s.slashedTicketBalance - ta, ticketToken := token } := by
    split_ifs at hpay ⊢ with hpos
    · simp only [run_ok] at hpay
      obtain ⟨total, ⟨-, rfl⟩, token, htoken, rfl⟩ := hpay
      exact ⟨token, htoken, rfl⟩
    · rw [pure_ok] at hpay
      obtain rfl : ta = 0 := by omega
      exact ⟨s.ticketToken, rfl, by rw [← hpay]; rfl⟩
  obtain ⟨token, htoken, rfl⟩ := hpay'
  have hfree : s.reservedSlashedTicketBalance + ta ≤ s.slashedTicketBalance := by omega
  split_ifs at h with hpos
  · simp only [run_ok] at h
    obtain ⟨total, ⟨-, rfl⟩, liability, ⟨-, rfl⟩, bt, htrans, rfl⟩ := h
    obtain ⟨hled, -⟩ := Erc20.transferExact_ok htrans
    refine ⟨fun _ => .once (.withdraw (l := s.ledgers) hfree hbond htoken
      (by rw [if_pos hpos]; exact htrans)) rfl, ?_⟩
    rw [payment, if_pos hpos, hled]
    exact .pay (k := s.stake) (Nat.sub_le ..)
  · rw [pure_ok] at h
    obtain rfl : bondAmount = 0 := by omega
    rw [← h]
    exact ⟨fun _ => .once (.withdraw (l := s.ledgers) hfree hbond htoken
      (show (if 0 < 0 then s.bondToken.transferExact true s.this s.slashedFundsTreasury 0
        else pure s.bondToken) = .ok s.bondToken from rfl)) rfl, .keep⟩

/-! ## Configuration of the tokens -/

lemma sweepSurplus_once (h : sweepSurplus env s = .ok s') :
    Effect env s.ledgers s'.ledgers ∧ s'.roster = s.roster ∧
      Stake.Move env t s.stake (surplusPayment s) [] s'.stake := by
  unfold sweepSurplus at h
  unfold surplusPayment
  split_ifs at h ⊢ with hsurp
  · rw [pure_ok] at h
    rw [h]
    exact ⟨.idle, rfl, .keep⟩
  · simp only [run_ok] at h
    obtain ⟨token, htoken, rfl⟩ := h
    have := Erc20.transferExact_custody htoken
    obtain ⟨hled, -⟩ := Erc20.transferExact_ok htoken
    refine ⟨.sweep (l := s.ledgers) (by simp only [State.ledgers]; omega), rfl, ?_⟩
    rw [hled]
    exact .pay (k := s.stake) le_rfl

lemma codeAt_ne_zero (h : env.codeAt account = true) : account ≠ 0 := by
  simp only [Env.codeAt, Bool.and_eq_true, decide_eq_true_eq] at h
  exact h.1

lemma validateTicketAsset_spec (h : validateTicketAsset env next decimals s = .ok u) :
    next ≠ 0 ∧ (s.ticketToken.this = 0 ∨ s.ticketToken.this = next ∨
      s.ticketToken.totalSupply + s.ticketToken.payableBalance = 0) := by
  simp only [validateTicketAsset, run_ok] at h
  obtain ⟨-, hcode, -, -, h⟩ := h
  refine ⟨codeAt_ne_zero hcode, ?_⟩
  cases hregy : env.ticketRegistry next with
  | none => simp [hregy, revertWith_ok] at h
  | some configured =>
    simp only [hregy, run_ok] at h
    obtain ⟨-, -, h⟩ := h
    rw [ite_ok] at h
    rcases h with ⟨hsame, -⟩ | ⟨-, h⟩
    · exact hsame.imp_right fun h => .inl h.1
    · simp only [run_ok] at h
      obtain ⟨liabilities, ⟨-, rfl⟩, hzero⟩ := h
      exact .inr (.inr hzero)

lemma validateBondAsset_spec (h : validateCiphernodeBondAsset env next decimals s = .ok u) :
    next = s.bondTokenAddress ∨ next ≠ 0 ∧ (s.bondTokenAddress = 0 ∨ s.bondToken s.this = 0) := by
  unfold validateCiphernodeBondAsset at h
  rcases ite_ok.1 h with ⟨hnext, h⟩ | ⟨hnext, h⟩
  · rw [require_ok] at h
    exact .inl (hnext.trans h.1.symm)
  · simp only [bind_ok] at h
    obtain ⟨-, -, -, -, _, h, -⟩ := h
    rw [ite_ok] at h
    rcases h with ⟨-, h⟩ | ⟨hsame, -⟩
    · rw [require_ok] at h
      exact .inr ⟨hnext, .inr h⟩
    · by_cases hzero : s.bondTokenAddress = 0
      · exact .inr ⟨hnext, .inl hzero⟩
      · refine .inl ?_
        by_contra hne
        exact hsame ⟨hzero, .inl (Ne.symm hne)⟩

lemma installAssetConfig_step (h : installAssetConfig env config s = .ok s') : Step env s s' := by
  simp only [installAssetConfig, bind_ok] at h
  obtain ⟨s₁, hsweep, -, -, _, htick, _, hbond, -, -, hver⟩ := h
  obtain ⟨hleds, hmoves, -⟩ := invalidateStatuses_quiet hver
  obtain ⟨heff, hrost, -⟩ := sweepSurplus_once (t := 0) hsweep
  refine ⟨?_, hrost ▸ hmoves⟩
  rw [hleds]
  obtain ⟨hnext, htick⟩ := validateTicketAsset_spec htick
  have hbond := validateBondAsset_spec hbond
  refine .tail (.single heff) (.installTokens (l := s₁.ledgers) ?_ ?_ ?_)
  · by_cases hsame : s₁.ticketToken.this = config.ticketToken
    · exact .inl (if_neg (not_not.2 hsame))
    · refine .inr ⟨_, _, if_pos hsame, ?_⟩
      exact htick.imp_right fun h => h.resolve_left hsame
  · by_cases hsame : s₁.ticketToken.this = config.ticketToken
    · rw [if_neg (not_not.2 hsame), hsame]
      exact hnext
    · rw [if_pos hsame]
      exact hnext
  · rcases hbond with hsame | hnew
    · exact .inl ⟨hsame, if_neg (not_not.2 hsame.symm)⟩
    · exact .inr hnew

/-! ## Every call -/

lemma setRegistry_quiet (h : setRegistry env newRegistry s = .ok s') : Quiet env s s' := by
  simp only [setRegistry, run_ok] at h
  obtain ⟨-, -, -, -, -, -, -, -, -, -, rfl⟩ := h
  exact ⟨rfl, .refl, rfl⟩

lemma setMinBalance_quiet (h : setMinTicketBalance env n s = .ok s') : Quiet env s s' := by
  simp only [setMinTicketBalance, bind_ok] at h
  obtain ⟨-, -, -, -, h⟩ := h
  rw [ite_ok, pure_ok] at h
  rcases h with ⟨-, rfl⟩ | ⟨-, h⟩
  · exact .refl
  · exact { invalidateStatuses_quiet h with }

lemma setActiveBps_quiet (h : setCiphernodeBondActiveBps env n s = .ok s') : Quiet env s s' := by
  simp only [setCiphernodeBondActiveBps, bind_ok] at h
  obtain ⟨-, -, -, -, h⟩ := h
  rw [ite_ok, pure_ok] at h
  rcases h with ⟨-, rfl⟩ | ⟨-, h⟩
  · exact .refl
  · exact { invalidateStatuses_quiet h with }

lemma setExitDelay_quiet (h : setExitDelay env n s = .ok s') : Quiet env s s' := by
  simp only [setExitDelay, run_ok] at h
  obtain ⟨-, -, -, -, -, -, rfl⟩ := h
  exact ⟨rfl, .refl, rfl⟩

lemma setTreasury_quiet (h : setSlashedFundsTreasury env trs s = .ok s') : Quiet env s s' := by
  simp only [setSlashedFundsTreasury, run_ok] at h
  obtain ⟨-, -, -, -, rfl⟩ := h
  exact ⟨rfl, .refl, rfl⟩

lemma exec_calm (hstake : c.movesStake = false) (h : exec env s c = .ok s') : Calm env s s' := by
  cases c <;> cases hstake <;> simp only [exec, map_ok, Prod.exists] at h
  case setBondOwner => exact setBondOwner_calm h
  case registerOperatorFor => exact (registerFor_quiet h).calm
  case deregisterOperatorFor => exact deregisterFor_calm h
  case addTicketBalanceFor => exact addTicketsFor_calm h
  case removeTicketBalanceFor => exact removeTicketsFor_calm h
  case unbondCiphernodeFor => exact unbondFor_calm h
  case slashTicketBalance =>
    obtain ⟨actual, s₁, h, rfl⟩ := h
    exact slashTickets_calm h
  case snapshotSlashRouteDestination =>
    simp only [snapshotSlashRouteDestination, onlyAuthorizedSlashingManager, run_ok,
      Prod.exists] at h
    obtain ⟨-, hmgr, d, slashing, h, rfl⟩ := h
    exact ⟨.once (.snapshot (l := s.ledgers) hmgr h) rfl, rfl⟩
  case releaseSlashRouteDestination =>
    simp only [releaseSlashRouteDestination, onlyAuthorizedSlashingManager, run_ok,
      Prod.exists] at h
    obtain ⟨-, hmgr, d, slashing, h, rfl⟩ := h
    exact ⟨.once (.releaseE3 (l := s.ledgers) hmgr h) rfl, rfl⟩
  case openSlashLock =>
    simp only [openSlashLock, onlyAuthorizedSlashingManager, run_ok] at h
    obtain ⟨-, hmgr, slashing, h, rfl⟩ := h
    exact ⟨.once (.openLock (l := s.ledgers) hmgr h) rfl, rfl⟩
  case closeSlashLock =>
    simp only [closeSlashLock, onlyAuthorizedSlashingManager, run_ok] at h
    obtain ⟨-, hmgr, slashing, h, rfl⟩ := h
    exact ⟨.once (.closeLock (l := s.ledgers) hmgr h) rfl, rfl⟩
  case setOperatorBan =>
    simp only [setOperatorBan, onlyAuthorizedSlashingManager, run_ok] at h
    obtain ⟨-, hmgr, h⟩ := h
    exact applyBan_calm hmgr h
  case clearSlashingManagerBan =>
    simp only [clearSlashingManagerBan, run_ok] at h
    obtain ⟨-, -, -, -, -, hmgr, h⟩ := h
    exact applyBan_calm hmgr h
  case reserveSlashedTicketFunds => exact reserveFunds_calm h
  case redirectReservedSlashedTicketFunds => exact redirectFunds_calm h
  case setCommitteeObligation =>
    simp only [setCommitteeObligation, run_ok] at h
    obtain ⟨slashing, h, rfl⟩ := h
    exact ⟨.once (.committee (l := s.ledgers) h) rfl, rfl⟩
  case refreshOperatorStatus => exact (refreshStatus_quiet h).calm
  case refreshOperatorStatuses => exact (refreshStatuses_quiet h).calm
  case setAdmissionPolicy =>
    simp only [setAdmissionPolicy, run_ok] at h
    obtain ⟨-, -, pool, h, rfl⟩ := h
    exact ⟨⟨.refl, .single (.admissionPolicy (r := s.roster) h)⟩, rfl⟩
  case setIdentityPolicy =>
    simp only [setIdentityPolicy, run_ok] at h
    obtain ⟨-, -, pool, h, rfl⟩ := h
    exact ⟨⟨.refl, .single (.identityPolicy (r := s.roster) h)⟩, rfl⟩
  case setCiphernodeBondActiveBps => exact (setActiveBps_quiet h).calm
  case setMinTicketBalance => exact (setMinBalance_quiet h).calm
  case setExitDelay => exact (setExitDelay_quiet h).calm
  case setSlashedFundsTreasury => exact (setTreasury_quiet h).calm
  case setRegistry => exact (setRegistry_quiet h).calm
  case setSlashingManager =>
    simp only [setSlashingManager, run_ok] at h
    obtain ⟨-, -, -, -, m, h, rfl⟩ := h
    exact ⟨.once (.authorize (l := s.ledgers) h) rfl, rfl⟩
  case revokeSlashingManager =>
    simp only [revokeSlashingManager, run_ok] at h
    obtain ⟨-, -, m, h, rfl⟩ := h
    exact ⟨.once (.revoke (l := s.ledgers) h) rfl, rfl⟩
  case proposeBondOwner | resyncBondedCheckpoint | transferOwnership =>
    simp only [proposeBondOwner, resyncBondedCheckpoint, transferOwnership, run_ok] at h
    repeat obtain ⟨_, h⟩ := h
    exact ⟨⟨.refl, .refl⟩, rfl⟩

/-- Every call but a change of the assets. -/
lemma exec_moved (hconf : ∀ config, c ≠ .setBondingAssetConfig config)
    (h : exec env s c = .ok s') : Moved env t s c s' := by
  by_cases hstake : c.movesStake = false
  · have hcalm := exec_calm hstake h
    refine ⟨fun _ => hcalm.toStep, ?_⟩
    rw [hcalm.stake]
    cases c <;> first | exact .keep | cases hstake
  cases c <;> first | exact absurd rfl hstake | simp only [exec, map_ok, Prod.exists] at h
  case acceptBondOwner => exact acceptBondOwner_moved h
  case bondCiphernodeFor => exact bondFor_moved h
  case claimExitsFor => exact claimExitsFor_moved h
  case slashCiphernodeBond =>
    obtain ⟨actual, s₁, h, rfl⟩ := h
    exact slashBond_moved h
  case withdrawSlashedFunds => exact withdrawFunds_moved h
  case sweepCiphernodeBondSurplus =>
    simp only [sweepCiphernodeBondSurplus, bind_ok] at h
    obtain ⟨-, -, h⟩ := h
    obtain ⟨heff, hrost, hmove⟩ := sweepSurplus_once h
    exact ⟨fun _ => .once heff hrost, hmove⟩
  case setBondingAssetConfig config => exact absurd rfl (hconf config)
  case setBondedCheckpoints =>
    simp only [setBondedCheckpoints, run_ok] at h
    obtain ⟨-, -, -, hunset, -, -, -, -, -, -, rfl⟩ := h
    exact ⟨fun _ => ⟨.refl, .refl⟩, .attach (k := s.stake) hunset⟩

lemma exec_step (hsender : env.sender ≠ 0) (h : exec env s c = .ok s') : Step env s s' := by
  cases c with
  | setBondingAssetConfig config =>
    simp only [exec, setBondingAssetConfig, bind_ok] at h
    obtain ⟨-, -, h⟩ := h
    exact installAssetConfig_step h
  | _ => exact (exec_moved (t := 0) (by simp) h).step hsender

end

/-- The ledgers after `initialize` installed the two tokens. -/
def Ledgers.installed (this token : Address) (underlying : Erc20) (bondTokenAddress : Address)
    (bondToken : Erc20) : Ledgers :=
  { (State.blank this 0).ledgers with
    ticketToken := freshTicketToken token this underlying
    bondTokenAddress
    bondToken }

lemma installAssetConfig_blank (h : installAssetConfig env config (.blank this deployer) = .ok s) :
    config.ticketToken ≠ 0 ∧ ∃ bt, s.ledgers = .installed this config.ticketToken
      config.underlying config.ciphernodeBondToken bt := by
  simp only [installAssetConfig, bind_ok] at h
  obtain ⟨s₁, hsweep, -, -, _, htick, -, -, -, -, hver⟩ := h
  have hblank : s₁ = .blank this deployer := by
    unfold sweepSurplus at hsweep
    rw [if_pos (.inl rfl), pure_ok] at hsweep
    exact hsweep.symm
  subst hblank
  have hset : config.ticketToken ≠ 0 := (validateTicketAsset_spec htick).1
  have hchg : (State.blank this deployer).ticketToken.this ≠ config.ticketToken := hset.symm
  refine ⟨hset, if (State.blank this deployer).bondTokenAddress ≠ config.ciphernodeBondToken then
    config.bondLedger else (State.blank this deployer).bondToken, ?_⟩
  rw [(invalidateStatuses_quiet hver).ledgers]
  simp only [State.ledgers, Ledgers.installed, if_pos hchg]
  rfl

section

variable {env : Env} {this owner registry trs : Address} {config : BondingAssetConfig}
  {minTicketBalance exitDelay : ℕ} {s : State}

section

variable
  (h : initializeRegistry env owner config registry trs minTicketBalance exitDelay (.blank this env.sender) = .ok s)
include h

lemma init_quiet :
    ∃ s₁, installAssetConfig env config (.blank this env.sender) = .ok s₁ ∧ Quiet env s₁ s := by
  simp only [initializeRegistry, run_ok] at h
  obtain ⟨s₁, h₁, s₂, h₂, s₃, h₃, s₄, h₄, s₅, h₅, s₆, h₆, rfl⟩ := h
  have hquiet := (setRegistry_quiet h₂).trans ((setTreasury_quiet h₃).trans
    ((setMinBalance_quiet h₄).trans ((setExitDelay_quiet h₅).trans (setActiveBps_quiet h₆))))
  exact ⟨s₁, h₁, { hquiet with }⟩

lemma init_ledgers : config.ticketToken ≠ 0 ∧ ∃ bt, s.ledgers = .installed this config.ticketToken
      config.underlying config.ciphernodeBondToken bt := by
  obtain ⟨s₁, hinst, hquiet⟩ := init_quiet h
  rw [hquiet.ledgers]
  exact installAssetConfig_blank hinst

/-- The first thing `initialize` does to the roster is to start a configuration version. -/
lemma init_moves : ∃ v pool, Eligibility.invalidateConfiguration env 0 0 .blank = .ok (v, pool) ∧
      Moves env { (State.blank this env.sender).roster with
        configurationVersion := v, pool, numActive := 0 } s.roster := by
  obtain ⟨s₁, hinst, hquiet⟩ := init_quiet h
  simp only [installAssetConfig, invalidateEligibilityStatuses, run_ok, Prod.exists] at hinst
  obtain ⟨s₀, hsweep, -, -, -, -, -, -, -, -, v, pool, hver, rfl⟩ := hinst
  obtain ⟨-, hrost, -⟩ := sweepSurplus_once (t := 0) hsweep
  have hpool : s₀.pool = .blank := congrArg Roster.pool hrost
  have hcur : s₀.eligibilityConfigurationVersion = 0 :=
    congrArg Roster.configurationVersion hrost
  have hcount : s₀.numRegisteredOperators = 0 := congrArg Roster.numRegistered hrost
  simp only [hpool, hcur, hcount] at hver
  refine ⟨v, pool, hver, ?_⟩
  rw [← hrost]
  exact hquiet.moves

end

end

/-- An invariant of the initial ledgers that every effect preserves holds in every state of the
registry. -/
lemma Reachable.ledgers_induction {P : Ledgers → Prop}
    (hinit : ∀ this token und bondTokenAddress bt, token ≠ 0 →
      P (.installed this token und bondTokenAddress bt))
    (heff : ∀ env l l', Effect env l l' → P l → P l') (h : Reachable now s) : P s.ledgers := by
  have hrun : ∀ env l l', ReflTransGen (Effect env) l l' → P l → P l' := by
    intro env l l' hsteps hl
    induction hsteps with
    | refl => exact hl
    | tail _ hstep ih => exact heff _ _ _ hstep ih
  induction h with
  | init h =>
    obtain ⟨htoken, bt, hleds⟩ := init_ledgers h
    rw [hleds]
    exact hinit _ _ _ _ _ htoken
  | wait _ _ ih => exact ih
  | call _ hsender hexec ih => exact hrun _ _ _ (exec_step hsender hexec).effects ih
  | @transfers now s bt und _ hbond hundl ih =>
    exact heff default _ _ (.transfers (l := s.ledgers) hbond hundl) ih

/-- An invariant that holds once the first configuration version is started, and that time and
every move preserve, holds in every state of the registry. -/
lemma Reachable.roster_induction {P : ℕ → Roster → Prop} (hinit : ∀ env this v pool,
      Eligibility.invalidateConfiguration env 0 0 .blank = .ok (v, pool) →
      P env.now { (State.blank this env.sender).roster with
        configurationVersion := v, pool, numActive := 0 })
    (hwait : ∀ now later r, now ≤ later → P now r → P later r)
    (hmove : ∀ env r r', Move env r r' → P env.now r → P env.now r') (h : Reachable now s) :
    P now s.roster := by
  have hrun : ∀ env r r', Moves env r r' → P env.now r → P env.now r' := by
    intro env r r' hmoves hr
    induction hmoves with
    | refl => exact hr
    | tail _ hstep ih => exact hmove _ _ _ hstep ih
  induction h with
  | init h =>
    obtain ⟨v, pool, hver, hmoves⟩ := init_moves h
    exact hrun _ _ _ hmoves (hinit _ _ _ _ hver)
  | wait _ hle ih => exact hwait _ _ _ hle ih
  | call _ hsender hexec ih => exact hrun _ _ _ (exec_step hsender hexec).moves ih
  | transfers _ _ _ ih => exact ih

end Interfold.Bonding
