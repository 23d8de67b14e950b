import Interfold.Contracts.Bonding.BondLedger
import Interfold.Library.Escrow

/-!
# The ticket ledger balances

Burned tickets become one payable balance of the ticket token. The registry and the token
together are an escrow: the balance is owed to operators with tickets in the exit queue and to
the pool of slashed tickets, parts of which slashing managers reserve for their proposals.
-/

namespace Interfold.Bonding

open Transaction Function Ledger ExitQueue

/-- The records the registry and the ticket token keep together. -/
def Ledgers.ticketRecords (l : Ledgers) : Escrow.Records Address Address Key where
  balance := l.ticketToken.balanceOf
  supply := l.ticketToken.totalSupply
  payable := l.ticketToken.payableBalance
  custody := l.ticketToken.underlying l.ticketToken.this
  pending operator := (l.exits operator).pending .ticket
  seized := l.slashedTicketBalance
  reservation manager proposalId := (l.slashedTicketReservations manager proposalId).amount
  reserved := l.reservedSlashedTicketBalance
  outstanding := l.pendingSlashRouteCount

structure TicketInvariant (l : Ledgers) : Prop where
  bonds : BondInvariant l
  set : l.ticketToken.this ≠ 0
  agree : Escrow.Agree l.ticketRecords

lemma pending_update (exits : ExitQueueState) (op : Address) (q : OperatorQueue)
    (a : AssetType) : (fun x => (update exits op q x).pending a) =
      update (fun x => (exits x).pending a) op (q.pending a) := by
  funext x
  by_cases hx : x = op
  · subst hx
    simp
  · simp [hx]

namespace TicketInvariant

variable {env : Env} {l l' : Ledgers}

lemma installed (htoken : token ≠ 0) (und : Erc20) (bondTokenAddress : Address)
    (bondToken : Erc20) :
    TicketInvariant (.installed this token und bondTokenAddress bondToken) where
  bonds := .installed ..
  set := htoken
  agree := by
    refine ⟨?_, ?_, ?_, ?_, ?_, ?_⟩ <;>
      simp [Ledgers.ticketRecords, Ledgers.installed, State.ledgers, State.blank, freshTicketToken,
        ExitQueueState.empty, OperatorQueue.empty, OperatorQueue.pending, count]

/-- Tickets of an operator are burned and queued for exit. -/
lemma leave (h : TicketInvariant l) {op : Address} {n amount delay bond : ℕ}
    {q : OperatorQueue} (hle : amount ≤ l.ticketToken.balanceOf op)
    (hqueue : queueAssetsForExit env.now delay amount bond (l.exits op) = .ok q) :
    Escrow.Agree { (l.setBond op n).setQueue op q with
      ticketToken := { l.ticketToken with
        payableBalance := l.ticketToken.payableBalance + amount
        totalSupply := l.ticketToken.totalSupply - amount
        balanceOf := update l.ticketToken.balanceOf op
          (l.ticketToken.balanceOf op - amount) } }.ticketRecords := by
  have hpend := (queueAssets_spec (h.bonds.queues op) hqueue).2 .ticket
  have hagree := h.agree.leave (i := op) hle
  convert hagree using 1
  refine Escrow.Records.ext rfl rfl rfl rfl ?_ rfl rfl rfl rfl
  refine (pending_update l.exits op q .ticket).trans (congrArg _ ?_)
  rw [hpend]
  rfl

lemma slash (h : TicketInvariant l) {op : Address} {active queued : ℕ}
    {q : OperatorQueue} (hle : active ≤ l.ticketToken.balanceOf op)
    (hpend : q.pending .ticket + queued = (l.exits op).pending .ticket) :
    Escrow.Agree { l.setQueue op q with
      ticketToken := { l.ticketToken with
        payableBalance := l.ticketToken.payableBalance + active
        totalSupply := l.ticketToken.totalSupply - active
        balanceOf := update l.ticketToken.balanceOf op (l.ticketToken.balanceOf op - active) }
      slashedTicketBalance := l.slashedTicketBalance + (active + queued) }.ticketRecords := by
  have hagree := h.agree.seize (i := op) (k := queued) hle
    (by simp only [Ledgers.ticketRecords]; omega)
  convert hagree using 1
  refine Escrow.Records.ext rfl rfl rfl rfl ?_ rfl rfl rfl rfl
  refine (pending_update l.exits op q .ticket).trans (congrArg _ ?_)
  simp only [Ledgers.ticketRecords]
  omega

/-- A new ticket token replaces one that owes nothing. -/
lemma reinstall (h : TicketInvariant l)
    (hempty : l.ticketToken.totalSupply + l.ticketToken.payableBalance = 0) : Escrow.Agree { l with
      ticketToken := freshTicketToken token l.this und
      bondTokenAddress
      bondToken }.ticketRecords where
  supply_eq := by simp [Ledgers.ticketRecords, freshTicketToken]
  payable_eq := by
    have hpayb := h.agree.payable_eq
    simp only [Ledgers.ticketRecords, freshTicketToken] at hpayb ⊢
    omega
  covered := Nat.zero_le _
  reserved_eq := h.agree.reserved_eq
  reserved_le := h.agree.reserved_le
  outstanding_eq := h.agree.outstanding_eq

lemma effect (h : TicketInvariant l) (heff : Effect env l l') : TicketInvariant l' := by
  have hbonds := h.bonds.effect heff
  cases heff with
  | idle | setBondOwner | acceptBondOwner | bond | snapshot | releaseE3 | openLock | closeLock |
    ban | committee | sweep | authorize | revoke => exact ⟨hbonds, h.set, h.agree⟩
  | releaseAssets htoken hqueue =>
    obtain ⟨hle, rfl⟩ := TicketToken.burnTickets_if (fun hzero => by simpa using hzero) htoken
    exact ⟨hbonds, h.set, h.leave hle hqueue⟩
  | @addTickets op amount token htoken =>
    obtain ⟨hthis, hpayb, hsupp, hbal, hcust⟩ := TicketToken.depositFrom_spec htoken
    refine ⟨hbonds, hthis ▸ h.set, ?_⟩
    convert h.agree.deposit op amount using 1
    refine Escrow.Records.ext hbal hsupp hpayb ?_ rfl rfl rfl rfl rfl
    simp only [Ledgers.ticketRecords, Escrow.Records.deposit, hthis, hcust]
  | removeTickets htoken hqueue =>
    obtain ⟨hle, rfl⟩ := TicketToken.burnTickets_spec htoken
    exact ⟨hbonds, h.set, h.leave (n := 0) hle hqueue⟩
  | unbond hle hqueue =>
    have hagree := h.leave (n := 0) (Nat.zero_le _) hqueue
    simp only [Nat.add_zero, Nat.sub_zero, update_eq_self] at hagree
    exact ⟨hbonds, h.set, hagree⟩
  | @claim op _ _ tickets _ _ q token _ hclaim htoken _ _ =>
    obtain ⟨-, -, -, hpend, -⟩ := takeBoth_spec (h.bonds.queues op) hclaim
    obtain ⟨hthis, hsupp, hbal, hpayb, hcust⟩ :=
      TicketToken.payout_if (fun hzero => by simpa using hzero) htoken
    refine ⟨hbonds, hthis ▸ h.set, ?_⟩
    convert h.agree.pay (i := op) (n := tickets)
      (by simp only [Ledgers.ticketRecords]; omega) using 1
    refine Escrow.Records.ext hbal hsupp (Nat.eq_sub_of_add_eq hpayb) ?_ ?_ rfl rfl rfl rfl
    · simp only [Ledgers.ticketRecords, Escrow.Records.pay, hthis]
      omega
    · refine (pending_update l.exits op q .ticket).trans (congrArg _ ?_)
      simp only [Ledgers.ticketRecords]
      omega
  | @slashTickets op active queued token q htoken hqueue =>
    obtain ⟨hle, rfl⟩ := TicketToken.burnTickets_if (fun hzero => by omega) htoken
    refine ⟨hbonds, h.set, h.slash hle ?_⟩
    rcases hqueue with ⟨n, hslash⟩ | ⟨rfl, rfl⟩
    · exact (takeBoth_spec (h.bonds.queues op) hslash).2.2.2.1
    · rfl
  | @slashBond op _ queued q _ hqueue =>
    have hpend : q.pending .ticket = (l.exits op).pending .ticket := by
      rcases hqueue with ⟨n, hslash⟩ | ⟨-, rfl⟩
      · have := takeBoth_spec (h.bonds.queues op) hslash
        omega
      · rfl
    have hagree := @slash l h op 0 0 q (Nat.zero_le _) hpend
    simp only [Nat.add_zero, Nat.sub_zero, update_eq_self] at hagree
    exact ⟨hbonds, h.set, hagree⟩
  | @reserve pid e3Id amount _ _ hpos hnew _ hfree _ =>
    refine ⟨hbonds, h.set, ?_⟩
    convert h.agree.reserve (m := env.sender) (k := pid) hnew hpos hfree using 1
    exact Escrow.Records.ext rfl rfl rfl rfl rfl rfl
      (map_update₂ SlashedTicketReservation.amount ..) rfl rfl
  | @redirect pid token _ _ hpos _ htoken =>
    obtain ⟨hthis, hsupp, hbal, hpayb, hcust⟩ := TicketToken.payout_spec htoken
    refine ⟨hbonds, hthis ▸ h.set, ?_⟩
    convert h.agree.redeem (m := env.sender) (k := pid) hpos using 1
    refine Escrow.Records.ext hbal hsupp (Nat.eq_sub_of_add_eq hpayb) ?_ rfl rfl
      (map_update₂ SlashedTicketReservation.amount ..) rfl rfl
    simp only [Ledgers.ticketRecords, Escrow.Records.redeem, hthis]
    omega
  | @withdraw ta _ _ _ _ _ htick _ hpay _ =>
    obtain ⟨hthis, hsupp, hbal, hpayb, hcust⟩ :=
      TicketToken.payout_if (fun hzero => by omega) hpay
    refine ⟨hbonds, hthis ▸ h.set, ?_⟩
    convert h.agree.withdraw (n := ta) htick using 1
    refine Escrow.Records.ext hbal hsupp (Nat.eq_sub_of_add_eq hpayb) ?_ rfl rfl rfl rfl rfl
    simp only [Ledgers.ticketRecords, Escrow.Records.withdraw, hthis]
    omega
  | installTokens htick hset _ =>
    refine ⟨hbonds, hset, ?_⟩
    rcases htick with rfl | ⟨token, und, rfl, hempty⟩
    · exact h.agree
    · exact h.reinstall (hempty.resolve_left h.set)
  | transfers _ hundl => exact ⟨hbonds, h.set, h.agree.setCustody hundl⟩

end TicketInvariant

lemma Reachable.ticketInvariant (h : Reachable now s) : TicketInvariant s.ledgers :=
  h.ledgers_induction (fun _ _ _ _ _ htoken => .installed htoken ..) fun _ _ _ heff hinv =>
    hinv.effect heff

/-! ## Payouts -/

section

variable {env : Env} {s : State}

lemma syncBonded_error (h : syncBondedCheckpoint env bondOwner s = .error r) :
    r = .error .externalCallReverted := by
  simp only [syncBondedCheckpoint, run_error] at h
  exact h.2.2

lemma transferExact_ne_exceeds {l : Erc20} :
    l.transferExact accepts this recipient amount ≠ .error (.error .exceedsPayableBalance) := by
  intro h
  simp only [Erc20.transferExact, Erc20.transfer, run_error, Revert.error.injEq, reduceCtorEq] at h

/-- A claim never asks for more tickets than the token can pay. -/
lemma claimExitsFor_ne_exceeds (h : TicketInvariant s.ledgers) (op : Address)
    (maxTicket maxBond : ℕ) : claimExitsFor env op maxTicket maxBond s ≠
      .error (.error .exceedsPayableBalance) := by
  intro hfail
  simp only [claimExitsFor, claimExits, validateExitClaim, checkBondOwner, run_error, Prod.exists,
    Revert.error.injEq, reduceCtorEq, transferExact_ne_exceeds] at hfail
  obtain ⟨-, -, -, -, hfail | ⟨_, _, _, _, _, hfail⟩⟩ := hfail
  · obtain hasts | ⟨tickets, bonds, q, hasts, -, -, -, -, -, hpay⟩ := hfail
    · exact absurd (claimAssets_error hasts) (by simp)
    · have hexceeds := TicketToken.payout_exceeds hpay
      obtain ⟨-, -, -, hpend, -⟩ := takeBoth_spec (h.bonds.queues op) hasts
      have := h.agree.pending_le_payable op
      simp only [Ledgers.ticketRecords, State.ledgers] at this hpend
      omega
  · exact absurd (syncBonded_error hfail) (by simp)

lemma redirectFunds_ne_exceeds (h : TicketInvariant s.ledgers) (pid : Key) :
    redirectReservedSlashedTicketFunds env pid s ≠ .error (.error .exceedsPayableBalance) := by
  intro hfail
  simp only [redirectReservedSlashedTicketFunds, onlyAuthorizedSlashingManager, updateRouteCount,
    run_error, Revert.error.injEq, reduceCtorEq] at hfail
  obtain ⟨-, -, -, -, -, -, -, -, -, -, -, -, hpay⟩ := hfail
  have hexceeds := TicketToken.payout_exceeds hpay
  have := h.agree.reservation_le_payable env.sender pid
  simp only [Ledgers.ticketRecords, State.ledgers] at this
  omega

lemma withdrawFunds_ne_exceeds (h : TicketInvariant s.ledgers) (ta bondAmount : ℕ) :
    withdrawSlashedFunds env ta bondAmount s ≠ .error (.error .exceedsPayableBalance) := by
  intro hfail
  simp only [withdrawSlashedFunds, onlyOwner, run_error, run_ok, Revert.error.injEq, reduceCtorEq,
    transferExact_ne_exceeds] at hfail
  obtain ⟨-, -, free, ⟨-, rfl⟩, -, hle, -, -, -, -, -, hpay⟩ := hfail
  have hexceeds := TicketToken.payout_exceeds hpay
  have := h.agree.seized_le_payable
  simp only [Ledgers.ticketRecords, State.ledgers] at this
  omega

end

/-- In every reachable state the payable balance is what operators have queued and what was
slashed, the underlying covers it together with the tickets, the reservations are a counted part
of the slashed balance, and so no payout exceeds the payable balance. -/
theorem ticket_ledger_balances {now : ℕ} {s : State} (h : Reachable now s) :
    s.ticketToken.payableBalance =
        ∑ operator, (s.exits operator).pending .ticket + s.slashedTicketBalance ∧
      s.ticketToken.totalSupply + s.ticketToken.payableBalance ≤
        s.ticketToken.underlying s.ticketToken.this ∧
      s.reservedSlashedTicketBalance = ∑ manager, ∑ proposalId,
        (s.slashedTicketReservations manager proposalId).amount ∧
      s.reservedSlashedTicketBalance ≤ s.slashedTicketBalance ∧
      (∀ manager, s.pendingSlashRouteCount manager =
        count fun proposalId => (s.slashedTicketReservations manager proposalId).amount ≠ 0) ∧
      ∀ env, (∀ operator maxTicket maxBond, claimExitsFor env operator maxTicket maxBond s ≠
          .error (.error .exceedsPayableBalance)) ∧
        (∀ proposalId, redirectReservedSlashedTicketFunds env proposalId s ≠
          .error (.error .exceedsPayableBalance)) ∧
        ∀ ticketAmount bondAmount, withdrawSlashedFunds env ticketAmount bondAmount s ≠
          .error (.error .exceedsPayableBalance) := by
  have hinv := h.ticketInvariant
  refine ⟨hinv.agree.payable_eq, hinv.agree.covered, hinv.agree.reserved_eq,
    hinv.agree.reserved_le, hinv.agree.outstanding_eq, fun env => ⟨?_, ?_, ?_⟩⟩
  · exact claimExitsFor_ne_exceeds hinv
  · exact redirectFunds_ne_exceeds hinv
  · exact withdrawFunds_ne_exceeds hinv

/-- Operator 7 buys 50 tickets and queues 20. Manager 6 slashes 40 and reserves 25 of them. -/
def reservedTicketCalls : List (Address × Call) :=
  [(7, .setBondOwner 8), (8, .bondCiphernodeFor 7 100), (9, .setSlashingManager 6),
    (8, .registerOperatorFor 7), (8, .addTicketBalanceFor 7 50), (8, .removeTicketBalanceFor 7 20),
    (6, .slashTicketBalance 7 40), (6, .snapshotSlashRouteDestination 11 12 13),
    (6, .reserveSlashedTicketFunds 14 11 25)]

theorem ticket_ledger_balances_reserved : ∃ s, deployed reservedTicketCalls = .ok s ∧
    s.ticketToken.payableBalance = 50 ∧ s.slashedTicketBalance = 40 ∧
    s.reservedSlashedTicketBalance = 25 ∧ ∑ operator, (s.exits operator).pending .ticket = 10 := by
  have hrun : ∃ s, deployed reservedTicketCalls = .ok s ∧ s.ticketToken.payableBalance = 50 ∧
      s.slashedTicketBalance = 40 ∧ s.reservedSlashedTicketBalance = 25 := ⟨_, rfl, rfl, rfl, rfl⟩
  obtain ⟨s, hs, hpayable, hslashed, hreserved⟩ := hrun
  have hbalances := (ticket_ledger_balances (Reachable.deployed (by decide) hs)).1
  exact ⟨s, hs, hpayable, hslashed, hreserved, by omega⟩

end Interfold.Bonding
