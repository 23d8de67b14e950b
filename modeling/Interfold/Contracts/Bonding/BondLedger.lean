import Interfold.Contracts.Bonding.Effects
import Interfold.Contracts.ExitQueue.Invariant
import Interfold.Library.Custody

/-!
# The bond ledger balances

Seen from the bond token, the registry is a custodian: operators hold bonds for their owners,
active or in the exit queue, and slashed bonds stay a liability until the treasury withdraws
them. Every effect of a call is one of the custodian's operations or leaves its records alone.
-/

namespace Interfold.Bonding

open Transaction Function ExitQueue

/-- The records the registry keeps as custodian of the bond token. -/
def Ledgers.bondRecords (l : Ledgers) : Custody.Records Address Address where
  holding := l.holding
  ownerOf := l.bondOwnerOf
  byOwner := l.bondedByOwner
  liability := l.totalCiphernodeBondLiability
  seized := l.slashedCiphernodeBond
  balance := l.bondToken l.this

structure BondInvariant (l : Ledgers) : Prop where
  queues : ∀ operator, (l.exits operator).Valid
  agree : Custody.Agree 0 l.bondRecords
  unset : l.bondTokenAddress = 0 → l.totalCiphernodeBondLiability = 0

/-! ## The holdings -/

lemma holding_setQueue (l : Ledgers) (op : Address) (q : OperatorQueue) :
    (l.setQueue op q).holding =
      update l.holding op (l.ciphernodeBond op + q.pending .ciphernodeBond) := by
  funext x
  by_cases hx : x = op
  · subst hx
    simp [Ledgers.holding, Ledgers.setQueue]
  · simp [Ledgers.holding, Ledgers.setQueue, hx]

lemma holding_setBond (l : Ledgers) (op : Address) (n : ℕ) : (l.setBond op n).holding =
      update l.holding op (n + (l.exits op).pending .ciphernodeBond) := by
  funext x
  by_cases hx : x = op
  · subst hx
    simp [Ledgers.holding, Ledgers.setBond]
  · simp [Ledgers.holding, Ledgers.setBond, hx]

lemma holding_setBond_setQueue (l : Ledgers) (op : Address) (n : ℕ) (q : OperatorQueue) :
    ((l.setBond op n).setQueue op q).holding =
      update l.holding op (n + q.pending .ciphernodeBond) := by
  rw [holding_setQueue, holding_setBond, update_idem]
  simp [Ledgers.setBond]

lemma valid_update {exits : ExitQueueState} (h : ∀ op, (exits op).Valid) {op : Address}
    {q : OperatorQueue} (hq : q.Valid) : ∀ x, (update exits op q x).Valid := by
  intro x
  by_cases hx : x = op
  · subst hx
    simpa using hq
  · simpa [hx] using h x

namespace BondInvariant

variable {env : Env} {l l' : Ledgers}

/-- An effect that leaves the custodian's records alone. -/
lemma of_records_eq (h : BondInvariant l) (hqueues : ∀ op, (l'.exits op).Valid)
    (hrecs : l'.bondRecords = l.bondRecords) (htoken : l'.bondTokenAddress = l.bondTokenAddress) :
    BondInvariant l' where
  queues := hqueues
  agree := by
    rw [hrecs]
    exact h.agree
  unset := by
    have hliab := congrArg Custody.Records.liability hrecs
    intro hzero
    exact hliab.trans (h.unset (htoken ▸ hzero))

lemma installed (this token : Address) (underlying : Erc20) (bondTokenAddress : Address)
    (bondToken : Erc20) :
    BondInvariant (.installed this token underlying bondTokenAddress bondToken) where
  queues _ := OperatorQueue.empty_valid
  agree := by
    refine ⟨?_, ?_, ?_, ?_⟩ <;>
      simp [Ledgers.bondRecords, Ledgers.installed, State.ledgers, State.blank, Ledgers.holding,
        ExitQueueState.empty, OperatorQueue.empty, OperatorQueue.pending]
  unset _ := rfl

variable {op : Address} {q : OperatorQueue} {token : TicketToken} {accepts : Bool}
  {bondToken : Erc20}

section

variable (h : BondInvariant l)
include h

/-- Bonds that move between the active balance and the exit queue stay with their operator. -/
lemma requeue (hq : q.Valid) (hsum : n + q.pending .ciphernodeBond = l.holding op) :
    BondInvariant { (l.setBond op n).setQueue op q with ticketToken := token } := by
  refine h.of_records_eq (valid_update h.queues hq) ?_ rfl
  have hhdg := holding_setBond_setQueue l op n q
  rw [hsum, update_eq_self] at hhdg
  exact congrArg (fun f => { l.bondRecords with holding := f }) hhdg

/-- A change of the queue that leaves the pending bond alone. -/
lemma setQueue (hq : q.Valid)
    (hpend : q.pending .ciphernodeBond = (l.exits op).pending .ciphernodeBond) :
    BondInvariant (l.setQueue op q) := by
  refine h.of_records_eq (valid_update h.queues hq) ?_ rfl
  have hhdg := holding_setQueue l op q
  rw [hpend] at hhdg
  exact congrArg (fun f => { l.bondRecords with holding := f }) (hhdg.trans (update_eq_self ..))

lemma bond {amount : ℕ} {token : Erc20} (hsender : env.sender ≠ 0)
    (howner : env.sender = l.bondOwnerOf op) (hset : l.bondTokenAddress ≠ 0)
    (htoken : l.bondToken.transferFromExact accepts l.this env.sender amount = .ok token) :
    BondInvariant { l.setBond op (l.ciphernodeBond op + amount) with
      bondedByOwner := update l.bondedByOwner (l.bondOwnerOf op)
        (l.bondedByOwner (l.bondOwnerOf op) + amount)
      bondToken := token
      totalCiphernodeBondLiability := l.totalCiphernodeBondLiability + amount } where
  queues := h.queues
  agree := by
    have hdepos := h.agree.deposit (i := op) (fun hzero => hsender (howner.trans hzero)) amount
    convert hdepos using 1
    have hhdg := holding_setBond l op (l.ciphernodeBond op + amount)
    have hcust := (Erc20.transferFromExact_custody htoken).2
    refine Custody.Records.ext (hhdg.trans (congrArg _ ?_)) rfl rfl rfl rfl hcust
    simp only [Ledgers.bondRecords, Ledgers.holding]
    omega
  unset hzero := absurd hzero hset

lemma claim {bonds : ℕ} (hq : q.Valid)
    (hpend : q.pending .ciphernodeBond + bonds = (l.exits op).pending .ciphernodeBond)
    (hbond : (if bonds ≠ 0 then l.bondToken.transferExact accepts l.this
      (l.bondOwnerOf op) bonds else pure l.bondToken) = .ok bondToken) :
    BondInvariant { l.setQueue op q with
      ticketToken := token
      bondedByOwner := update l.bondedByOwner (l.bondOwnerOf op)
        (l.bondedByOwner (l.bondOwnerOf op) - bonds)
      bondToken
      totalCiphernodeBondLiability := l.totalCiphernodeBondLiability - bonds } where
  queues := valid_update h.queues hq
  agree := by
    have hle : bonds ≤ l.holding op := by
      simp only [Ledgers.holding]
      omega
    have hrel := h.agree.release (i := op) hle
    convert hrel using 1
    have hcust : bondToken l.this = l.bondToken l.this - bonds := by
      split_ifs at hbond with hzero
      · have := Erc20.transferExact_custody hbond
        omega
      · rw [pure_ok] at hbond
        rw [← hbond]
        omega
    refine Custody.Records.ext ((holding_setQueue l op q).trans (congrArg _ ?_)) rfl rfl rfl
      rfl hcust
    simp only [Ledgers.bondRecords, Ledgers.holding]
    omega
  unset hzero := by
    have := h.unset hzero
    simp [this]

lemma slashBond {active queued : ℕ} (hact : active ≤ l.ciphernodeBond op) (hq : q.Valid)
    (hpend : q.pending .ciphernodeBond + queued = (l.exits op).pending .ciphernodeBond) :
    BondInvariant { (l.setBond op (l.ciphernodeBond op - active)).setQueue op q
      with
      bondedByOwner := update l.bondedByOwner (l.bondOwnerOf op)
        (l.bondedByOwner (l.bondOwnerOf op) - (active + queued))
      slashedCiphernodeBond := l.slashedCiphernodeBond + (active + queued) } where
  queues := valid_update h.queues hq
  agree := by
    have hle : active + queued ≤ l.holding op := by
      simp only [Ledgers.holding]
      omega
    have hseize := h.agree.seize (i := op) hle
    convert hseize using 1
    refine Custody.Records.ext ((holding_setBond_setQueue ..).trans (congrArg _ ?_)) rfl rfl rfl
      rfl rfl
    simp only [Ledgers.bondRecords, Ledgers.holding]
    omega
  unset := h.unset

lemma withdraw {ticketBalance ba : ℕ} {treasury : Address} (hle : ba ≤ l.slashedCiphernodeBond)
    (htrans : (if 0 < ba then l.bondToken.transferExact accepts l.this treasury
      ba else pure l.bondToken) = .ok bondToken) : BondInvariant { l with
      slashedTicketBalance := ticketBalance
      ticketToken := token
      slashedCiphernodeBond := l.slashedCiphernodeBond - ba
      totalCiphernodeBondLiability := l.totalCiphernodeBondLiability - ba
      bondToken } where
  queues := h.queues
  agree := by
    have hwith := h.agree.withdraw (n := ba) hle
    convert hwith using 1
    have hcust : bondToken l.this = l.bondToken l.this - ba := by
      split_ifs at htrans with hzero
      · have := Erc20.transferExact_custody htrans
        omega
      · rw [pure_ok] at htrans
        rw [← htrans]
        omega
    exact Custody.Records.ext rfl rfl rfl rfl rfl hcust
  unset hzero := by
    have := h.unset hzero
    simp [this]

/-- The balance may grow, be swept down to the liabilities, or belong to a new token. -/
lemma setBalance (hle : l.totalCiphernodeBondLiability ≤ bondToken l.this)
    (hset : bondTokenAddress = 0 → l.bondTokenAddress = 0) : BondInvariant { l with
      ticketToken, bondTokenAddress, bondToken } :=
  ⟨h.queues, h.agree.setBalance hle, fun hzero => h.unset (hset hzero)⟩

lemma effect (heff : Effect env l l') : BondInvariant l' := by
  cases heff with
  | idle => exact h
  | @setBondOwner bondOwner howner hfree =>
    have hzero : l.holding env.sender = 0 := hfree.elim (h.agree.unowned env.sender) id
    have hagree := h.agree.reassign (i := env.sender) (o := bondOwner) howner
    refine ⟨h.queues, ?_, h.unset⟩
    convert hagree using 1
    refine Custody.Records.ext rfl rfl ?_ rfl rfl rfl
    simp [Custody.Records.reassign, Ledgers.bondRecords, hzero]
  | acceptBondOwner hsender => exact ⟨h.queues, h.agree.reassign hsender, h.unset⟩
  | @releaseAssets op _ _ q _ hqueue =>
    obtain ⟨hq, hpend⟩ := queueAssets_spec (h.queues op) hqueue
    refine h.requeue hq ?_
    rw [hpend, Nat.zero_add, Nat.add_comm]
    rfl
  | addTickets => exact ⟨h.queues, h.agree, h.unset⟩
  | @removeTickets op _ _ _ q _ hqueue =>
    obtain ⟨hq, hpend⟩ := queueAssets_spec (h.queues op) hqueue
    obtain ⟨hqueues, hagree, hunset⟩ := h.setQueue hq (hpend .ciphernodeBond)
    exact ⟨hqueues, hagree, hunset⟩
  | bond hsender howner hset htoken => exact h.bond hsender howner hset htoken
  | @unbond op amount _ q hle hqueue =>
    obtain ⟨hq, hpend⟩ := queueAssets_spec (h.queues op) hqueue
    refine h.requeue hq ?_
    rw [hpend]
    simp only [assetAmount, Ledgers.holding]
    omega
  | @claim op _ _ _ _ _ q _ _ hclaim _ hbond _ =>
    obtain ⟨hq, -, -, -, hpend⟩ := takeBoth_spec (h.queues op) hclaim
    exact h.claim hq hpend hbond
  | @slashTickets op _ _ _ q _ hqueue =>
    have hstep : q.Valid ∧ q.pending .ciphernodeBond = (l.exits op).pending .ciphernodeBond := by
      rcases hqueue with ⟨n, hslash⟩ | ⟨-, rfl⟩
      · obtain ⟨hq, -, hn, -, hpend⟩ := takeBoth_spec (h.queues op) hslash
        exact ⟨hq, by omega⟩
      · exact ⟨h.queues op, rfl⟩
    obtain ⟨hqueues, hagree, hunset⟩ := h.setQueue hstep.1 hstep.2
    exact ⟨hqueues, hagree, hunset⟩
  | @slashBond op _ queued q hact hqueue =>
    have hstep : q.Valid ∧
        q.pending .ciphernodeBond + queued = (l.exits op).pending .ciphernodeBond := by
      rcases hqueue with ⟨n, hslash⟩ | ⟨rfl, rfl⟩
      · obtain ⟨hq, -, -, -, hpend⟩ := takeBoth_spec (h.queues op) hslash
        exact ⟨hq, hpend⟩
      · exact ⟨h.queues op, rfl⟩
    exact h.slashBond hact hstep.1 hstep.2
  | withdraw _ hbond _ htrans => exact h.withdraw hbond htrans
  | sweep hle => exact h.setBalance hle id
  | @installTokens _ bondTokenAddress bondToken _ _ hbond =>
    rcases hbond with ⟨rfl, rfl⟩ | ⟨hnew, hold⟩
    · exact h.setBalance h.agree.covered id
    · refine h.setBalance ?_ fun hzero => absurd hzero hnew
      have hcov := h.agree.covered
      rcases hold with hzero | hzero
      · rw [h.unset hzero]
        exact Nat.zero_le _
      · simp only [Ledgers.bondRecords, hzero] at hcov
        omega
  | transfers hbond _ => exact h.setBalance (h.agree.covered.trans hbond) id
  | snapshot | releaseE3 | openLock | closeLock | ban | reserve | redirect | committee |
    authorize | revoke => exact ⟨h.queues, h.agree, h.unset⟩

end

end BondInvariant

variable {now : ℕ} {s : State}

lemma Reachable.bondInvariant (h : Reachable now s) : BondInvariant s.ledgers :=
  h.ledgers_induction (fun _ _ _ _ _ _ => .installed ..) fun _ _ _ heff hinv =>
    hinv.effect heff

/-- The bonds of all owners are in custody. -/
lemma Reachable.sum_bondedByOwner_le (h : Reachable now s) :
    ∑ owner, s.bondedByOwner owner ≤ s.bondToken s.this :=
  h.bondInvariant.agree.sum_byOwner_le

/-- In every reachable state the liabilities are what operators hold and what was slashed, the
total of an owner is what its operators hold, nothing is held without an owner, and the registry
can pay all of it. -/
theorem bond_ledger_balances {now : ℕ} {s : State} (h : Reachable now s) :
    s.totalCiphernodeBondLiability = ∑ operator, ((s.operators operator).ciphernodeBond +
          (s.exits operator).pending .ciphernodeBond) + s.slashedCiphernodeBond ∧
      (∀ owner, s.bondedByOwner owner = ∑ operator with s.bondOwnerOf operator = owner,
          ((s.operators operator).ciphernodeBond + (s.exits operator).pending .ciphernodeBond)) ∧
      (∀ operator, s.bondOwnerOf operator = 0 → (s.operators operator).ciphernodeBond = 0 ∧
          (s.exits operator).pending .ciphernodeBond = 0) ∧
      s.totalCiphernodeBondLiability ≤ s.bondToken s.this := by
  have hagree := h.bondInvariant.agree
  refine ⟨hagree.liability_eq, ?_, ?_, hagree.covered⟩
  · intro owner
    rw [Finset.sum_filter]
    exact hagree.byOwner_eq owner
  intro operator howner
  have hzero : (s.operators operator).ciphernodeBond +
      (s.exits operator).pending .ciphernodeBond = 0 := hagree.unowned operator howner
  omega

/-- Operator 7 of owner 8 is slashed by 30 and queues 20 of the rest. -/
def slashedBondCalls : List (Address × Call) :=
  [(7, .setBondOwner 8), (8, .bondCiphernodeFor 7 100), (9, .setSlashingManager 6),
    (8, .registerOperatorFor 7), (6, .slashCiphernodeBond 7 30), (8, .unbondCiphernodeFor 7 20)]

theorem bond_ledger_balances_slashed : ∃ s, deployed slashedBondCalls = .ok s ∧
    s.totalCiphernodeBondLiability = 100 ∧ s.slashedCiphernodeBond = 30 ∧
    ∑ operator, ((s.operators operator).ciphernodeBond +
      (s.exits operator).pending .ciphernodeBond) = 70 := by
  have hrun : ∃ s, deployed slashedBondCalls = .ok s ∧ s.totalCiphernodeBondLiability = 100 ∧
      s.slashedCiphernodeBond = 30 := ⟨_, rfl, rfl, rfl⟩
  obtain ⟨s, hs, htotal, hslashed⟩ := hrun
  have hbalances := (bond_ledger_balances (Reachable.deployed (by decide) hs)).1
  exact ⟨s, hs, htotal, hslashed, by omega⟩

end Interfold.Bonding
