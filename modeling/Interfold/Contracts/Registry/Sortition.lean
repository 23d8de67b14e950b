import Interfold.Contracts.Basic
import Interfold.Library.ExchangeSort
import Interfold.Library.GroupSelection
import Interfold.Library.ListEdit
import Mathlib.Data.Prod.Lex

/-!
# Sortition

The committee of an E3 is made of the best-scored tickets. Tickets arrive one by one, and only the
nodes that are in the committee so far are kept. With the owner cap a bond owner has at most one
node in the committee.

`insertCandidate` reads the owners and books the obligations of the members in the bonding registry,
which is a parameter here.
-/

namespace Interfold.Registry

open Transaction Function

inductive CommitteeStage where
  | none
  | requested
  | finalized
  | failed
deriving DecidableEq, Repr

inductive MemberStatus where
  | none
  | active
  | expelled
deriving DecidableEq, Repr

structure Committee where
  stage : CommitteeStage
  seed : ℕ
  requestBlock : ℕ
  committeeDeadline : ℕ
  publicKey : Key
  /-- The quorum `M` and the size `N`. -/
  threshold : ℕ × ℕ
  topNodes : List Address
  committeeHash : Key
  submitted : Address → Bool
  scoreOf : Address → ℕ
  memberStatus : Address → MemberStatus
  activeCount : ℕ
  obligationsReleased : Bool

/-- The two functions of the bonding registry that sortition calls. -/
structure BondingView (β : Type) where
  bondOwnerAt : β → Address → ℕ → Tx Address
  setCommitteeObligation : Address → Bool → β → Tx β

/-- What the insertion of a candidate works on: the committee, the candidate of every owner in it,
and the bonding registry. -/
structure Sortition (β : Type) where
  committee : Committee
  ownerCandidates : Address → Address
  bonding : β

/-- `_ranksBefore`. -/
def ranksBefore (score : ℕ) (node : Address) (otherScore : ℕ) (otherNode : Address) : Bool :=
  score < otherScore || (score = otherScore && node < otherNode)

/-- The loop of `_worstCandidateIndex`, from the position `i` on. -/
def worstLoop (scoreOf : Address → ℕ) (ownerCap : Bool) : List Address → ℕ → ℕ → Address → ℕ → ℕ
  | [], _, worstIndex, _, _ => worstIndex
  | node :: nodes, i, worstIndex, worstNode, worstScore =>
    let candidateScore := scoreOf node
    if worstScore < candidateScore ∨
        (ownerCap = true ∧ candidateScore = worstScore ∧ worstNode < node) then
      worstLoop scoreOf ownerCap nodes (i + 1) i node candidateScore
    else worstLoop scoreOf ownerCap nodes (i + 1) worstIndex worstNode worstScore

/-- `_worstCandidateIndex`. -/
def worstCandidateIndex (ownerCap : Bool) (c : Committee) : Tx ℕ :=
  match c.topNodes with
  | [] => .error .panic
  | first :: nodes => pure (worstLoop c.scoreOf ownerCap nodes 1 0 first (c.scoreOf first))

def Committee.setTop (c : Committee) (top : List Address) : Committee := { c with topNodes := top }

/-- `_selectCandidate`. Returns whether the node was inserted, the node it displaced or zero, and
the committee. -/
def selectCandidate (node : Address) (score : ℕ) (sameOwnerCandidate : Address) (ownerCap : Bool)
    (c : Committee) : Tx (Bool × Address × Committee) :=
  if sameOwnerCandidate ≠ 0 then
    if ranksBefore score node (c.scoreOf sameOwnerCandidate) sameOwnerCandidate = false then
      pure (false, 0, c)
    else
      let top := match c.topNodes.findIdx? (· = sameOwnerCandidate) with
        | some i => c.topNodes.set i node
        | none => c.topNodes
      pure (true, sameOwnerCandidate, c.setTop top)
  else if c.topNodes.length < c.threshold.2 then pure (true, 0, c.setTop (c.topNodes ++ [node]))
  else do
    let worstIndex ← worstCandidateIndex ownerCap c
    match c.topNodes[worstIndex]? with
    | none => .error .panic
    | some worst =>
      let worstScore := c.scoreOf worst
      let replaces := if ownerCap then ranksBefore score node worstScore worst
        else score < worstScore
      if replaces = false then pure (false, 0, c)
      else pure (true, worst, c.setTop (c.topNodes.set worstIndex node))

variable {β : Type}

def insertCandidate (view : BondingView β) (ownerCap : Bool) (node : Address) (score : ℕ)
    (σ : Sortition β) : Tx (Sortition β) := do
  let (bondOwner, sameOwnerCandidate) ← (if ownerCap then do
      let snapshot ← checkedSub σ.committee.requestBlock 1
      let bondOwner ← view.bondOwnerAt σ.bonding node snapshot
      require (bondOwner ≠ 0) .nodeNotEligible
      pure (bondOwner, σ.ownerCandidates bondOwner)
    else pure (0, 0))
  let (inserted, displaced, c) ← selectCandidate node score sameOwnerCandidate ownerCap σ.committee
  if inserted = false then pure { σ with committee := c } else do
    let c := { c with scoreOf := update c.scoreOf node score }
    let candidates ← (if ownerCap then do
        let candidates ← (if displaced ≠ 0 then do
            let snapshot ← checkedSub c.requestBlock 1
            let displacedOwner ← view.bondOwnerAt σ.bonding displaced snapshot
            pure (update σ.ownerCandidates displacedOwner 0)
          else pure σ.ownerCandidates)
        pure (update candidates bondOwner node)
      else pure σ.ownerCandidates)
    let bonding ← view.setCommitteeObligation node true σ.bonding
    let bonding ← (if displaced ≠ 0 then view.setCommitteeObligation displaced false bonding
      else pure bonding)
    pure ⟨c, candidates, bonding⟩

/-- `sortTopNodes`. -/
def sortTopNodes (c : Committee) : Committee := c.setTop (ExchangeSort.sort c.topNodes)

/-- The submissions of several nodes, one after the other. -/
def insertAll (view : BondingView β) (ownerCap : Bool) (score : Address → ℕ) :
    List Address → Sortition β → Tx (Sortition β)
  | [], σ => pure σ
  | node :: nodes, σ => do
    let σ ← insertCandidate view ownerCap node (score node) σ
    insertAll view ownerCap score nodes σ

/-! ## Ranks -/

/-- Lower scores rank before higher ones, and addresses break ties. -/
def rank (score : Address → ℕ) (node : Address) : ℕ ×ₗ Address := toLex (score node, node)

lemma rank_injective (score : Address → ℕ) : Injective (rank score) := by
  intro a b h
  exact (Prod.mk.inj (toLex_inj.1 h)).2

lemma ranksBefore_iff : ranksBefore (score node) node (score other) other = true ↔
      rank score node < rank score other := by
  simp [ranksBefore, rank, Prod.Lex.toLex_lt_toLex]

end Interfold.Registry
