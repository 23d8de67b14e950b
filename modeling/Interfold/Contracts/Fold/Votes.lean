import Interfold.Contracts.Tokens
import Interfold.Library.Ledger

/-!
# Checkpointed votes of the bond token

The part of the bond token that it inherits: balances, allowances, and the votes that delegates
hold. Votes follow the balance of whoever delegated them, and every change of a delegate's votes
and of the supply is recorded at the block time, so that both can be read at a past time.
-/

namespace Interfold.Fold

open Transaction Checkpoints Function

/-- The storage of `ERC20Votes`. -/
structure Votes where
  balanceOf : Erc20
  totalSupply : ℕ
  allowance : Address → Address → ℕ
  delegates : Address → Address
  delegateCheckpoints : Address → Trace ℕ
  totalCheckpoints : Trace ℕ

namespace Votes

def blank : Votes := ⟨fun _ => 0, 0, fun _ _ => 0, fun _ => 0, fun _ => [], []⟩

/-- A checked addition of two `uint208`. -/
def add208 (a b : ℕ) : Tx ℕ := if a + b < 2 ^ 208 then pure (a + b) else .error .panic

/-- `_push` with `_add`. -/
def pushAdd (now delta : ℕ) (trace : Trace ℕ) : Tx (Trace ℕ) := do
  let delta ← safeUint208 delta
  let value ← add208 trace.latest delta
  pushCheckpoint trace (toUint48 now) value

/-- `_push` with `_subtract`. -/
def pushSub (now delta : ℕ) (trace : Trace ℕ) : Tx (Trace ℕ) := do
  let delta ← safeUint208 delta
  let value ← checkedSub trace.latest delta
  pushCheckpoint trace (toUint48 now) value

def setCheckpoints (v : Votes) (account : Address) (trace : Trace ℕ) : Votes :=
  { v with delegateCheckpoints := update v.delegateCheckpoints account trace }

def moveDelegateVotes (now : ℕ) (sender recipient : Address) (amount : ℕ) (v : Votes) :
    Tx Votes :=
  if sender ≠ recipient ∧ 0 < amount then do
    let v ← (if sender ≠ 0 then do
        let trace ← pushSub now amount (v.delegateCheckpoints sender)
        pure (v.setCheckpoints sender trace)
      else pure v)
    if recipient ≠ 0 then do
      let trace ← pushAdd now amount (v.delegateCheckpoints recipient)
      pure (v.setCheckpoints recipient trace)
    else pure v
  else pure v

def transferVotingUnits (now : ℕ) (sender recipient : Address) (amount : ℕ) (v : Votes) :
    Tx Votes := do
  let total ← (if sender = 0 then pushAdd now amount v.totalCheckpoints
    else pure v.totalCheckpoints)
  let total ← (if recipient = 0 then pushSub now amount total else pure total)
  moveDelegateVotes now (v.delegates sender) (v.delegates recipient) amount
    { v with totalCheckpoints := total }

/-- `ERC20._update`: the zero address stands for minting and burning. -/
def moveBalance (sender recipient : Address) (value : ℕ) (v : Votes) : Tx Votes := do
  let v ← (if sender = 0 then do
      let supply ← checkedAdd v.totalSupply value
      pure { v with totalSupply := supply }
    else do
      require (value ≤ v.balanceOf sender) (.erc20InsufficientBalance sender)
      pure { v with balanceOf := update v.balanceOf sender (v.balanceOf sender - value) })
  if recipient = 0 then pure { v with totalSupply := v.totalSupply - value }
  else pure { v with balanceOf := update v.balanceOf recipient (v.balanceOf recipient + value) }

/-- `ERC20Votes._update`. -/
def update (now : ℕ) (sender recipient : Address) (value : ℕ) (v : Votes) : Tx Votes := do
  let v ← v.moveBalance sender recipient value
  require (sender ≠ 0 ∨ v.totalSupply < 2 ^ 208) .erc20ExceededSafeSupply
  v.transferVotingUnits now sender recipient value

def delegate (now : ℕ) (account delegatee : Address) (v : Votes) : Tx Votes :=
  { v with delegates := Function.update v.delegates account delegatee }.moveDelegateVotes now
    (v.delegates account) delegatee (v.balanceOf account)

def approve (owner spender : Address) (value : ℕ) (v : Votes) : Tx Votes := do
  require (owner ≠ 0) (.erc20InvalidApprover owner)
  require (spender ≠ 0) (.erc20InvalidSpender spender)
  pure { v with allowance := Ledger.update₂ v.allowance owner spender value }

/-- `_spendAllowance`: an allowance of the largest word is not used up. -/
def spendAllowance (owner spender : Address) (value : ℕ) (v : Votes) : Tx Votes :=
  if v.allowance owner spender < wordSize - 1 then do
    require (value ≤ v.allowance owner spender)
      (.erc20InsufficientAllowance spender (v.allowance owner spender) value)
    v.approve owner spender (v.allowance owner spender - value)
  else pure v

/-- `_validateTimepoint`: only times that are over can be read. -/
def validateTimepoint (now timepoint : ℕ) : Tx ℕ := do
  require (timepoint < toUint48 now) (.erc5805FutureLookup timepoint (toUint48 now))
  safeUint48 timepoint

def getPastVotes (now : ℕ) (account : Address) (timepoint : ℕ) (v : Votes) : Tx ℕ := do
  let key ← validateTimepoint now timepoint
  pure ((v.delegateCheckpoints account).upperLookup key)

def getPastTotalSupply (now timepoint : ℕ) (v : Votes) : Tx ℕ := do
  let key ← validateTimepoint now timepoint
  pure (v.totalCheckpoints.upperLookup key)

end Votes

end Interfold.Fold
