import Interfold.Contracts.Basic
import Mathlib.Data.List.DropRight

/-!
# Exit queue

The queue of one operator is a list of tranches with one head index for each asset, the
pending total of each asset and the number of tranches that still hold something. Loops of
the library become recursions over the tranches they visit.

## Main definitions

* `OperatorQueue`: the part of `ExitQueueState` that belongs to one operator.
* `queueAssetsForExit`, `claimAssets`, `slashPendingAssets`: the entry points.
* `ExitQueueState.Reachable`: the states a sequence of calls can produce.
-/

namespace Interfold.ExitQueue

open Transaction

inductive AssetType where
  | ticket
  | ciphernodeBond
deriving DecidableEq, Repr

structure ExitTranche where
  unlockTimestamp : ℕ
  ticketAmount : ℕ
  ciphernodeBondAmount : ℕ
deriving DecidableEq, Repr

structure PendingAmounts where
  ticketAmount : ℕ
  ciphernodeBondAmount : ℕ
deriving DecidableEq, Repr

/-- The slice of `ExitQueueState` that belongs to one operator. -/
structure OperatorQueue where
  operatorQueue : List ExitTranche
  queueHeadIndexTicket : ℕ
  queueHeadIndexCiphernodeBond : ℕ
  pendingTotals : PendingAmounts
  liveTrancheCount : ℕ
deriving DecidableEq, Repr

def maxActiveTranches : ℕ := 64

namespace ExitTranche

variable (t : ExitTranche)

def amount : AssetType → ℕ
  | .ticket => t.ticketAmount
  | .ciphernodeBond => t.ciphernodeBondAmount

def setAmount (asset : AssetType) (n : ℕ) : ExitTranche :=
  match asset with
  | .ticket => { t with ticketAmount := n }
  | .ciphernodeBond => { t with ciphernodeBondAmount := n }

/-- A tranche that holds neither asset. -/
def isEmpty : Bool :=
  t.ticketAmount = 0 ∧ t.ciphernodeBondAmount = 0

@[simp] lemma amount_setAmount (a b : AssetType) (n : ℕ) :
    (t.setAmount a n).amount b = if a = b then n else t.amount b := by
  cases a <;> cases b <;> rfl

lemma isEmpty_iff : t.isEmpty = true ↔ ∀ a, t.amount a = 0 := by
  constructor
  · intro h a
    cases a <;> simp_all [isEmpty, amount]
  · intro h
    have := h .ticket
    have := h .ciphernodeBond
    simp_all [isEmpty, amount]

end ExitTranche

namespace OperatorQueue

/-- Storage that was never written. -/
def empty : OperatorQueue := ⟨[], 0, 0, ⟨0, 0⟩, 0⟩

section

variable (q : OperatorQueue)

def head : AssetType → ℕ
  | .ticket => q.queueHeadIndexTicket
  | .ciphernodeBond => q.queueHeadIndexCiphernodeBond

def setHead (asset : AssetType) (n : ℕ) : OperatorQueue :=
  match asset with
  | .ticket => { q with queueHeadIndexTicket := n }
  | .ciphernodeBond => { q with queueHeadIndexCiphernodeBond := n }

def pending : AssetType → ℕ
  | .ticket => q.pendingTotals.ticketAmount
  | .ciphernodeBond => q.pendingTotals.ciphernodeBondAmount

def setPending (asset : AssetType) (n : ℕ) : OperatorQueue :=
  match asset with
  | .ticket => { q with pendingTotals := { q.pendingTotals with ticketAmount := n } }
  | .ciphernodeBond =>
    { q with pendingTotals := { q.pendingTotals with ciphernodeBondAmount := n } }

/-- Overwrites the tranches and their live count. -/
def setTranches (ts : List ExitTranche) (live : ℕ) : OperatorQueue :=
  { q with operatorQueue := ts, liveTrancheCount := live }

/-- `earliestHead`: the smaller of the two heads. -/
def earliestHead : ℕ :=
  min q.queueHeadIndexTicket q.queueHeadIndexCiphernodeBond

end

section

variable (q : OperatorQueue)
include q

@[simp] lemma head_setHead (a b : AssetType) (n : ℕ) :
    (q.setHead a n).head b = if a = b then n else q.head b := by
  cases a <;> cases b <;> rfl

variable (a : AssetType)

@[simp] lemma queue_setHead (n : ℕ) : (q.setHead a n).operatorQueue = q.operatorQueue := by
  cases a <;> rfl

@[simp] lemma pending_setHead (a b : AssetType) (n : ℕ) :
    (q.setHead a n).pending b = q.pending b := by
  cases a <;> cases b <;> rfl

@[simp] lemma liveCount_setHead (n : ℕ) :
    (q.setHead a n).liveTrancheCount = q.liveTrancheCount := by
  cases a <;> rfl

variable (ts : List ExitTranche)

@[simp] lemma head_setTranches (live : ℕ) : (q.setTranches ts live).head a = q.head a := by
  cases a <;> rfl

@[simp] lemma queue_setTranches (live : ℕ) : (q.setTranches ts live).operatorQueue = ts := rfl

@[simp] lemma pending_setTranches (live : ℕ) : (q.setTranches ts live).pending a = q.pending a := by
  cases a <;> rfl

@[simp] lemma liveCount_setTranches (live : ℕ) :
    (q.setTranches ts live).liveTrancheCount = live := rfl

@[simp] lemma pending_setPending (a b : AssetType) (n : ℕ) :
    (q.setPending a n).pending b = if a = b then n else q.pending b := by
  cases a <;> cases b <;> rfl

@[simp] lemma head_setPending (a b : AssetType) (n : ℕ) : (q.setPending a n).head b = q.head b := by
  cases a <;> cases b <;> rfl

@[simp] lemma queue_setPending (n : ℕ) : (q.setPending a n).operatorQueue = q.operatorQueue := by
  cases a <;> rfl

@[simp] lemma liveCount_setPending (n : ℕ) :
    (q.setPending a n).liveTrancheCount = q.liveTrancheCount := by
  cases a <;> rfl

end

end OperatorQueue

/-! ## Head and tail maintenance -/

/-- The `while` loop over the tranches from `head` on that hold none of `asset`. -/
def skipEmpty (asset : AssetType) : List ExitTranche → ℕ → ℕ
  | [], head => head
  | t :: ts, head => if t.amount asset = 0 then skipEmpty asset ts (head + 1) else head

def advanceHead (asset : AssetType) (q : OperatorQueue) : OperatorQueue :=
  q.setHead asset (skipEmpty asset (q.operatorQueue.drop (q.head asset)) (q.head asset))

def advanceEmptyHeads (q : OperatorQueue) : OperatorQueue :=
  advanceHead .ciphernodeBond (advanceHead .ticket q)

/-- Pops drained tranches off the tail, then clamps both heads to the new length. -/
def pruneEmptyTail (q : OperatorQueue) : OperatorQueue :=
  let queue := q.operatorQueue.rdropWhile ExitTranche.isEmpty
  { q with
    operatorQueue := queue
    queueHeadIndexTicket := min q.queueHeadIndexTicket queue.length
    queueHeadIndexCiphernodeBond := min q.queueHeadIndexCiphernodeBond queue.length }

/-! ## Queueing -/

/-- One half of `_mergeIntoTail`: adds `amount` of `asset` to the tail tranche and moves the
head of `asset` back to it if it had passed it. -/
def mergeAsset (asset : AssetType) (amount : ℕ) (q : OperatorQueue) (lastTranche : ExitTranche) :
    Tx (OperatorQueue × ExitTranche) :=
  if amount = 0 then pure (q, lastTranche) else do
    let total ← checkedAdd (lastTranche.amount asset) amount
    let lastIndex := q.operatorQueue.length - 1
    pure (q.setHead asset (min (q.head asset) lastIndex), lastTranche.setAmount asset total)

/-- Returns `none` when the amounts cannot be merged into the tail. -/
def mergeIntoTail (unlockTimestamp ticketAmount ciphernodeBondAmount : ℕ) (q : OperatorQueue) :
    Tx (Option OperatorQueue) :=
  match q.operatorQueue.getLast? with
  | none => pure none
  | some lastTranche =>
    if lastTranche.isEmpty ∨ lastTranche.unlockTimestamp ≠ unlockTimestamp then pure none else do
      let (q, lastTranche) ← mergeAsset .ticket ticketAmount q lastTranche
      let (q, lastTranche) ← mergeAsset .ciphernodeBond ciphernodeBondAmount q lastTranche
      pure (some (q.setTranches (q.operatorQueue.dropLast ++ [lastTranche]) q.liveTrancheCount))

/-- `operatorQueue.push()` under the two caps on live tranches and on the scanned span. The
clamp in `pruneEmptyTail` keeps both heads at most the length, so the span cannot underflow. -/
def pushTranche (unlockTimestamp ticketAmount ciphernodeBondAmount : ℕ) (q : OperatorQueue) :
    Tx OperatorQueue := do
  require (q.liveTrancheCount < maxActiveTranches ∧
    q.operatorQueue.length - q.earliestHead < maxActiveTranches) .tooManyTranches
  pure (q.setTranches (q.operatorQueue ++ [⟨unlockTimestamp, ticketAmount, ciphernodeBondAmount⟩])
    (q.liveTrancheCount + 1))

/-- The increasing direction of `_updatePendingTotals`, the only one the library uses. -/
def increasePendingTotals (ticketAmount ciphernodeBondAmount : ℕ) (q : OperatorQueue) :
    Tx OperatorQueue := do
  let ticketTotal ← checkedAdd (q.pending .ticket) ticketAmount
  let bondTotal ← checkedAdd (q.pending .ciphernodeBond) ciphernodeBondAmount
  pure ((q.setPending .ticket ticketTotal).setPending .ciphernodeBond bondTotal)

def queueAssetsForExit (now exitDelaySeconds ticketAmount ciphernodeBondAmount : ℕ)
    (q : OperatorQueue) : Tx OperatorQueue :=
  if ticketAmount = 0 ∧ ciphernodeBondAmount = 0 then pure q else do
    let latest ← checkedSub uint64Max exitDelaySeconds
    require (toUint64 now ≤ latest) .timestampOverflow
    let unlockTimestamp := toUint64 now + exitDelaySeconds
    let q := pruneEmptyTail (advanceEmptyHeads q)
    let merged ← mergeIntoTail unlockTimestamp ticketAmount ciphernodeBondAmount q
    let q ← (match merged with
      | some q => pure q
      | none => pushTranche unlockTimestamp ticketAmount ciphernodeBondAmount q)
    increasePendingTotals ticketAmount ciphernodeBondAmount q

/-! ## Taking assets out -/

/-- The local variables of the loop in `_takeAssetsFromQueue`. -/
structure TakeState where
  head : ℕ
  remainingWanted : ℕ
  takenAmount : ℕ
  liveTrancheCount : ℕ
deriving DecidableEq, Repr

/-- The step `if (… && i == head) head++`. -/
def TakeState.bumpHead (s : TakeState) (i : ℕ) : TakeState :=
  { s with head := if i = s.head then s.head + 1 else s.head }

/-- The end of the loop body: takes what is wanted out of tranche `i`. The minimum rules out
an underflow of the tranche and of `remainingWanted`. -/
def takeFromTranche (asset : AssetType) (i : ℕ) (t : ExitTranche) (s : TakeState) :
    Tx (ExitTranche × TakeState) := do
  let amountToTake := min s.remainingWanted (t.amount asset)
  let t := t.setAmount asset (t.amount asset - amountToTake)
  let live ← (if t.isEmpty then checkedSub s.liveTrancheCount 1 else pure s.liveTrancheCount)
  let s := { s with
    remainingWanted := s.remainingWanted - amountToTake
    takenAmount := s.takenAmount + amountToTake
    liveTrancheCount := live }
  pure (t, if t.amount asset = 0 then s.bumpHead i else s)

/-- The loop of `_takeAssetsFromQueue` over the tranches from index `i` on. It returns the
tranches as the loop leaves them. -/
def takeLoop (asset : AssetType) (includeLockedAssets : Bool) (now : ℕ) :
    List ExitTranche → ℕ → TakeState → Tx (List ExitTranche × TakeState)
  | [], _, s => pure ([], s)
  | t :: ts, i, s =>
    if t.amount asset = 0 then do
      let (ts, s) ← takeLoop asset includeLockedAssets now ts (i + 1) (s.bumpHead i)
      pure (t :: ts, s)
    else if !includeLockedAssets ∧ now < t.unlockTimestamp then do
      let (ts, s) ← takeLoop asset includeLockedAssets now ts (i + 1) s
      pure (t :: ts, s)
    else if s.remainingWanted = 0 then pure (t :: ts, s)
    else do
      let (t, s) ← takeFromTranche asset i t s
      let (ts, s) ← takeLoop asset includeLockedAssets now ts (i + 1) s
      pure (t :: ts, s)

/-- Returns the amount taken and the queue without it. -/
def takeAssetsFromQueue (now wantedAmount : ℕ) (asset : AssetType) (includeLockedAssets : Bool)
    (q : OperatorQueue) : Tx (ℕ × OperatorQueue) :=
  if wantedAmount = 0 then pure (0, q) else do
    let (scanned, s) ← takeLoop asset includeLockedAssets now
      (q.operatorQueue.drop (q.head asset)) (q.head asset)
      ⟨q.head asset, wantedAmount, 0, q.liveTrancheCount⟩
    let q := q.setTranches (q.operatorQueue.take (q.head asset) ++ scanned) s.liveTrancheCount
    pure (s.takenAmount, pruneEmptyTail (advanceEmptyHeads (q.setHead asset s.head)))

/-- The part of a claim or slash that concerns one asset. -/
def takePending (now maxAmount : ℕ) (asset : AssetType) (includeLockedAssets : Bool)
    (q : OperatorQueue) : Tx (ℕ × OperatorQueue) :=
  if 0 < maxAmount then do
    let (taken, q) ← takeAssetsFromQueue now maxAmount asset includeLockedAssets q
    let total ← checkedSub (q.pending asset) taken
    pure (taken, q.setPending asset total)
  else pure (0, q)

def takeBoth (now maxTicketAmount maxCiphernodeBondAmount : ℕ) (includeLockedAssets : Bool)
    (q : OperatorQueue) : Tx ((ℕ × ℕ) × OperatorQueue) := do
  let (tickets, q) ← takePending now maxTicketAmount .ticket includeLockedAssets q
  let (bonds, q) ← takePending now maxCiphernodeBondAmount .ciphernodeBond includeLockedAssets q
  pure ((tickets, bonds), q)

def claimAssets (now maxTicketAmount maxCiphernodeBondAmount : ℕ) (q : OperatorQueue) :
    Tx ((ℕ × ℕ) × OperatorQueue) :=
  takeBoth now maxTicketAmount maxCiphernodeBondAmount false q

def slashPendingAssets (now ticketAmountToSlash ciphernodeBondAmountToSlash : ℕ)
    (includeLockedAssets : Bool) (q : OperatorQueue) : Tx ((ℕ × ℕ) × OperatorQueue) :=
  takeBoth now ticketAmountToSlash ciphernodeBondAmountToSlash includeLockedAssets q

/-! ## Runs -/

/-- The queues of all operators. -/
abbrev ExitQueueState : Type := Address → OperatorQueue

inductive Call where
  | queueAssetsForExit (exitDelaySeconds ticketAmount ciphernodeBondAmount : ℕ)
  | claimAssets (maxTicketAmount maxCiphernodeBondAmount : ℕ)
  | slashPendingAssets (ticketAmountToSlash ciphernodeBondAmountToSlash : ℕ)
      (includeLockedAssets : Bool)

def exec (now : ℕ) (q : OperatorQueue) : Call → Tx OperatorQueue
  | .queueAssetsForExit delay ticketAmount bondAmount =>
    queueAssetsForExit now delay ticketAmount bondAmount q
  | .claimAssets maxTicketAmount maxBondAmount =>
    Prod.snd <$> claimAssets now maxTicketAmount maxBondAmount q
  | .slashPendingAssets ticketAmount bondAmount includeLockedAssets =>
    Prod.snd <$> slashPendingAssets now ticketAmount bondAmount includeLockedAssets q

namespace ExitQueueState

def empty : ExitQueueState := fun _ => .empty

/-- States reached from the empty queues by calls that did not revert, at block times that
never decrease. -/
inductive Reachable : ℕ → ExitQueueState → Prop
  | init (now : ℕ) : Reachable now empty
  | wait (h : Reachable now s) (hle : now ≤ later) : Reachable later s
  | call {now : ℕ} {s : ExitQueueState} {operator : Address} {c : Call} {q : OperatorQueue}
      (h : Reachable now s) (hexec : exec now (s operator) c = .ok q) :
      Reachable now (Function.update s operator q)

end ExitQueueState

end Interfold.ExitQueue
