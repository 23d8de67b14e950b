import Interfold.Contracts.Basic

/-!
# Token ledgers

The bond token and the token under the tickets move exact amounts. A transfer may still be
refused for a reason outside the ledger (allowance, lock or pause), which the caller passes
in. The custody checks of the contracts around a transfer are part of the model, because they
are what rejects a transfer of a contract to itself.
-/

namespace Interfold

open Transaction Function

/-- Balances of an exact-transfer token. -/
abbrev Erc20 := Address → ℕ

namespace Erc20

/-- The ledger after `amount` moved; a transfer to oneself changes nothing. -/
def move (l : Erc20) (sender recipient : Address) (amount : ℕ) : Erc20 :=
  let debited := update l sender (l sender - amount)
  update debited recipient (debited recipient + amount)

def transfer (accepts : Bool) (l : Erc20) (sender recipient : Address) (amount : ℕ) :
    Tx Erc20 := do
  require (accepts = true) .erc20Refused
  require (amount ≤ l sender) (.erc20InsufficientBalance sender)
  pure (l.move sender recipient amount)

/-- `balanceAfter > balanceBefore ? balanceAfter - balanceBefore : 0`. -/
def gained (before after : ℕ) : ℕ := after - before

/-- `BondingAssetLib._transferExact`, run by `this`. -/
def transferExact (accepts : Bool) (l : Erc20) (this recipient : Address) (amount : ℕ) :
    Tx Erc20 := do
  let l' ← l.transfer accepts this recipient amount
  let received := gained (l recipient) (l' recipient)
  require (received = amount) (.assetTransferMismatch amount received)
  let spent := gained (l' this) (l this)
  require (spent = amount) (.assetTransferMismatch amount spent)
  pure l'

/-- `BondingAssetLib.transferFromExact`, run by `this`. -/
def transferFromExact (accepts : Bool) (l : Erc20) (this sender : Address) (amount : ℕ) :
    Tx Erc20 := do
  let l' ← l.transfer accepts sender this amount
  let received := gained (l this) (l' this)
  require (received = amount) (.assetTransferMismatch amount received)
  pure l'

variable {accepts : Bool} {l l' : Erc20} {sender rcp this : Address} {amount : ℕ}

lemma transfer_spec (h : l.transfer accepts sender rcp amount = .ok l') :
    accepts = true ∧ amount ≤ l sender ∧ (amount = 0 → l' = l) := by
  simp only [transfer, run_ok] at h
  obtain ⟨-, hacc, -, hle, rfl⟩ := h
  refine ⟨hacc, hle, ?_⟩
  rintro rfl
  simp [move]

lemma eq_add_of_gained (h : gained before after = n) (hzero : n = 0 → after = before) :
    after = before + n := by
  unfold gained at h
  omega

lemma transferExact_custody (h : l.transferExact accepts this rcp amount = .ok l') :
    l' this + amount = l this := by
  simp only [transferExact, run_ok] at h
  obtain ⟨l₁, htrans, -, -, -, hspent, rfl⟩ := h
  obtain ⟨-, hle, hzero⟩ := transfer_spec htrans
  exact (eq_add_of_gained hspent fun h0 => (congrFun (hzero h0) this).symm).symm

lemma transferFromExact_custody (h : l.transferFromExact accepts this sender amount = .ok l') :
    accepts = true ∧ l' this = l this + amount := by
  simp only [transferFromExact, run_ok] at h
  obtain ⟨l₁, htrans, -, hrecv, rfl⟩ := h
  obtain ⟨hacc, -, hzero⟩ := transfer_spec htrans
  exact ⟨hacc, eq_add_of_gained hrecv fun h0 => congrFun (hzero h0) this⟩

lemma transferExact_ok (h : l.transferExact accepts this rcp amount = .ok l') :
    l' = l.move this rcp amount ∧ (amount ≠ 0 → rcp ≠ this) := by
  have hcust := transferExact_custody h
  simp only [transferExact, transfer, run_ok] at h
  obtain ⟨_, ⟨-, -, -, hle, rfl⟩, -, -, -, -, rfl⟩ := h
  refine ⟨rfl, ?_⟩
  rintro hpos rfl
  simp only [move, update_self] at hcust
  omega

lemma transferFromExact_ok (h : l.transferFromExact accepts this sender amount = .ok l') :
    accepts = true ∧ l' = l.move sender this amount ∧ (amount ≠ 0 → sender ≠ this) := by
  have hcust := transferFromExact_custody h
  simp only [transferFromExact, transfer, run_ok] at h
  obtain ⟨_, ⟨-, hacc, -, hle, rfl⟩, -, -, rfl⟩ := h
  refine ⟨hacc, rfl, ?_⟩
  rintro hpos rfl
  simp only [move, update_self] at hcust
  omega

end Erc20

/-! ## Ticket token -/

/-- `InterfoldTicketToken` without its vote delegation, which no modelled function reads. -/
structure TicketToken where
  /-- The address of the token contract. -/
  this : Address
  registry : Address
  pendingRegistry : Address
  balanceOf : Address → ℕ
  totalSupply : ℕ
  payableBalance : ℕ
  underlying : Erc20

namespace TicketToken

def onlyRegistry (sender : Address) (t : TicketToken) : Tx Unit :=
  require (sender = t.registry) .notRegistry

def revertIfRegistryChangePending (t : TicketToken) : Tx Unit :=
  require (t.pendingRegistry = 0) .registryChangePending

/-- Takes exactly `amount` of the underlying from `sender` and mints it to `recipient`. -/
def depositFrom (accepts : Bool) (caller sender recipient : Address) (amount : ℕ)
    (t : TicketToken) : Tx TicketToken := do
  t.onlyRegistry caller
  t.revertIfRegistryChangePending
  require (recipient ≠ 0 ∧ recipient ≠ t.this) .zeroAddress
  let underlying ← t.underlying.transfer accepts sender t.this amount
  let actual := Erc20.gained (t.underlying t.this) (underlying t.this)
  require (actual = amount) (.underlyingTransferMismatch amount actual)
  let supply ← checkedAdd t.totalSupply amount
  require (supply < 2 ^ 208) .erc20ExceededSafeSupply
  pure { t with
    underlying
    totalSupply := supply
    balanceOf := update t.balanceOf recipient (t.balanceOf recipient + amount) }

/-- Turns `amount` tickets of `operator` into payable balance. -/
def burnTickets (caller operator : Address) (amount : ℕ) (t : TicketToken) : Tx TicketToken := do
  t.onlyRegistry caller
  t.revertIfRegistryChangePending
  let payableBalance ← checkedAdd t.payableBalance amount
  require (operator ≠ 0 ∧ amount ≤ t.balanceOf operator) (.erc20InsufficientBalance operator)
  pure { t with
    payableBalance
    totalSupply := t.totalSupply - amount
    balanceOf := update t.balanceOf operator (t.balanceOf operator - amount) }

/-- Pays `amount` of the underlying out of the payable balance. -/
def payout (accepts : Bool) (caller recipient : Address) (amount : ℕ) (t : TicketToken) :
    Tx TicketToken := do
  t.onlyRegistry caller
  require (amount ≤ t.payableBalance) .exceedsPayableBalance
  let underlying ← t.underlying.transfer accepts t.this recipient amount
  let actual := Erc20.gained (t.underlying recipient) (underlying recipient)
  require (actual = amount) (.underlyingTransferMismatch amount actual)
  let spent := Erc20.gained (underlying t.this) (t.underlying t.this)
  require (spent = amount) (.underlyingTransferMismatch amount spent)
  pure { t with payableBalance := t.payableBalance - amount, underlying }

variable {accepts : Bool} {caller rcp op : Address} {amount : ℕ} {t t' : TicketToken}
  {c : Prop}

/-- A deposit: custody, supply and the recipient's balance grow by the amount. -/
lemma depositFrom_spec (h : t.depositFrom accepts caller sender rcp amount = .ok t') :
    t'.this = t.this ∧ t'.payableBalance = t.payableBalance ∧
      t'.totalSupply = t.totalSupply + amount ∧
      t'.balanceOf = update t.balanceOf rcp (t.balanceOf rcp + amount) ∧
      t'.underlying t.this = t.underlying t.this + amount := by
  simp only [depositFrom, run_ok] at h
  obtain ⟨-, -, -, -, -, -, underlying, htrans, -, hactual, supply, ⟨-, rfl⟩, -, -, rfl⟩ := h
  obtain ⟨-, -, hzero⟩ := Erc20.transfer_spec htrans
  exact ⟨rfl, rfl, rfl, rfl, Erc20.eq_add_of_gained hactual fun h0 => congrFun (hzero h0) t.this⟩

/-- A burn moves the amount from the supply to the payable balance. -/
lemma burnTickets_spec (h : t.burnTickets caller op amount = .ok t') : amount ≤ t.balanceOf op ∧
      t' = { t with
        payableBalance := t.payableBalance + amount
        totalSupply := t.totalSupply - amount
        balanceOf := update t.balanceOf op (t.balanceOf op - amount) } := by
  simp only [burnTickets, run_ok] at h
  obtain ⟨-, -, -, -, payableBalance, ⟨-, rfl⟩, -, ⟨-, hle⟩, rfl⟩ := h
  exact ⟨hle, rfl⟩

/-- A payout lowers the payable balance and the custody by the amount. -/
lemma payout_spec (h : t.payout accepts caller rcp amount = .ok t') :
    t'.this = t.this ∧ t'.totalSupply = t.totalSupply ∧ t'.balanceOf = t.balanceOf ∧
      t'.payableBalance + amount = t.payableBalance ∧
      t'.underlying t.this + amount = t.underlying t.this := by
  simp only [payout, run_ok] at h
  obtain ⟨-, -, -, hle, underlying, htrans, -, -, -, hspent, rfl⟩ := h
  obtain ⟨-, hcust, hzero⟩ := Erc20.transfer_spec htrans
  refine ⟨rfl, rfl, rfl, by simp only; omega, Eq.symm ?_⟩
  exact Erc20.eq_add_of_gained hspent fun h0 => (congrFun (hzero h0) t.this).symm

/-- A burn that is skipped when there is nothing to burn. -/
lemma burnTickets_if [Decidable c] (hc : ¬c → amount = 0)
    (h : (if c then t.burnTickets caller op amount else pure t) = .ok t') :
    amount ≤ t.balanceOf op ∧
      t' = { t with
        payableBalance := t.payableBalance + amount
        totalSupply := t.totalSupply - amount
        balanceOf := update t.balanceOf op (t.balanceOf op - amount) } := by
  split_ifs at h with hburn
  · exact burnTickets_spec h
  · rw [pure_ok] at h
    subst h
    simp [hc hburn]

/-- A payout that is skipped when there is nothing to pay. -/
lemma payout_if [Decidable c] (hc : ¬c → amount = 0)
    (h : (if c then t.payout accepts caller rcp amount else pure t) = .ok t') :
    t'.this = t.this ∧ t'.totalSupply = t.totalSupply ∧ t'.balanceOf = t.balanceOf ∧
      t'.payableBalance + amount = t.payableBalance ∧
      t'.underlying t.this + amount = t.underlying t.this := by
  split_ifs at h with hpay
  · exact payout_spec h
  · rw [pure_ok] at h
    subst h
    simp [hc hpay]

/-- The payable balance is the only thing a payout reports as exceeded. -/
lemma payout_exceeds
    (h : t.payout accepts caller rcp amount = .error (.error .exceedsPayableBalance)) :
    t.payableBalance < amount := by
  simp only [payout, onlyRegistry, Erc20.transfer, run_error, Revert.error.injEq, reduceCtorEq,
    and_true] at h
  obtain ⟨-, -, h⟩ := h
  omega

end TicketToken

end Interfold
