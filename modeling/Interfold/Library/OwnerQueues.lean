import Mathlib.Data.List.Nodup
import Mathlib.Logic.Function.Basic

/-!
# Queues of several owners

Every owner has a queue, oldest entry first. The owners of queues that are not empty are kept in the
order in which they are visited.
-/

structure OwnerQueues (P E : Type) where
  owners : List P
  queue : P → List E
  nodup : owners.Nodup
  mem_owners : ∀ p, p ∈ owners ↔ queue p ≠ []

namespace OwnerQueues

def empty : OwnerQueues P E := ⟨[], fun _ => [], .nil, by simp⟩

variable [DecidableEq P] (q : OwnerQueues P E)

/-- One queue is replaced. A new owner is visited last. -/
def set (p : P) (l : List E) : OwnerQueues P E where
  owners :=
    if l.isEmpty then q.owners.erase p else if p ∈ q.owners then q.owners else q.owners ++ [p]
  queue := Function.update q.queue p l
  nodup := by
    have := q.nodup
    grind
  mem_owners x := by
    have := q.nodup
    have := q.mem_owners
    grind [Function.update_apply]

@[simp, grind =] lemma queue_set (p x : P) (l : List E) :
    (q.set p l).queue x = if x = p then l else q.queue x := Function.update_apply ..

/-- All queues are changed in the same way. -/
def map (f : List E → List E) (hf : f [] = []) : OwnerQueues P E where
  owners := q.owners.filter fun p => !(f (q.queue p)).isEmpty
  queue p := f (q.queue p)
  nodup := q.nodup.filter _
  mem_owners p := by
    have := q.mem_owners p
    grind

/-- Another order of visits, if it has the same owners. -/
def reorder (owners : List P) : OwnerQueues P E :=
  if h : owners.Perm q.owners then
    ⟨owners, q.queue, h.nodup_iff.2 q.nodup, fun p => h.mem_iff.trans (q.mem_owners p)⟩
  else q

@[simp] lemma queue_reorder (owners : List P) : (q.reorder owners).queue = q.queue := by
  unfold reorder
  split <;> rfl

end OwnerQueues
