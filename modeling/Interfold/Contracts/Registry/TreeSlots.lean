import Interfold.Contracts.Basic

/-!
# Slots of the ciphernode tree

The registry keeps every enabled ciphernode in one leaf of a Merkle tree. A removed node leaves its
index on a stack, from which the next node takes it before the tree grows. The entry of
`ciphernodeTreeIndex` stays behind when a node is removed.

The tree is a parameter: what matters here is that an insertion appends a leaf and an update
overwrites one.
-/

namespace Interfold.Registry

open Transaction Function

/-- What the registry uses of `LazyIMTData`. -/
structure LazyIMT (τ : Type) where
  numberOfLeaves : τ → ℕ
  leaf : τ → ℕ → ℕ
  init : τ
  insert : ℕ → τ → Tx τ
  update : ℕ → ℕ → τ → Tx τ
  numberOfLeaves_init : numberOfLeaves init = 0
  insert_appends : ∀ {v t t'}, insert v t = .ok t' → numberOfLeaves t' = numberOfLeaves t + 1 ∧
      leaf t' = Function.update (leaf t) (numberOfLeaves t) v
  update_overwrites : ∀ {v i t t'}, update v i t = .ok t' →
    numberOfLeaves t' = numberOfLeaves t ∧ leaf t' = Function.update (leaf t) i v

def treeDepth : ℕ := 20

def maxCiphernodeLeaves : ℕ := (1 <<< treeDepth) - 1

/-- The storage of the registry that its tree functions use. -/
structure CiphernodeTree (τ : Type) where
  owner : Address
  bondingRegistry : Address
  ciphernodes : τ
  ciphernodeEnabled : Address → Bool
  ciphernodeTreeIndex : Address → ℕ
  numCiphernodes : ℕ
  freeCiphernodeTreeIndices : List ℕ

namespace CiphernodeTree

variable {τ : Type} (imt : LazyIMT τ)

def onlyOwnerOrBondingVault (sender : Address) (s : CiphernodeTree τ) : Tx Unit :=
  require (sender = s.owner ∨ sender = s.bondingRegistry) .notOwnerOrBondingRegistry

/-- The leaf for a new node: the index, the tree with the node in it, and the rest of the stack. -/
def takeSlot (node : Address) (s : CiphernodeTree τ) : Tx (ℕ × τ × List ℕ) :=
  match s.freeCiphernodeTreeIndices.getLast? with
  | none => do
    let index := imt.numberOfLeaves s.ciphernodes
    require (index < maxCiphernodeLeaves) .ciphernodeTreeExhausted
    let tree ← imt.insert node.val s.ciphernodes
    pure (index, tree, s.freeCiphernodeTreeIndices)
  | some index => do
    let tree ← imt.update node.val index s.ciphernodes
    pure (index, tree, s.freeCiphernodeTreeIndices.dropLast)

def addCiphernode (sender node : Address) (s : CiphernodeTree τ) : Tx (CiphernodeTree τ) := do
  onlyOwnerOrBondingVault sender s
  if s.ciphernodeEnabled node then pure s else do
    let (index, tree, free) ← takeSlot imt node s
    let count ← checkedAdd s.numCiphernodes 1
    pure { s with
      ciphernodes := tree
      freeCiphernodeTreeIndices := free
      ciphernodeEnabled := update s.ciphernodeEnabled node true
      ciphernodeTreeIndex := update s.ciphernodeTreeIndex node index
      numCiphernodes := count }

def removeCiphernode (sender node : Address) (s : CiphernodeTree τ) : Tx (CiphernodeTree τ) := do
  onlyOwnerOrBondingVault sender s
  require (s.ciphernodeEnabled node) (.ciphernodeNotEnabled node)
  let index := s.ciphernodeTreeIndex node
  let tree ← imt.update 0 index s.ciphernodes
  let count ← checkedSub s.numCiphernodes 1
  pure { s with
    ciphernodes := tree
    freeCiphernodeTreeIndices := s.freeCiphernodeTreeIndices ++ [index]
    ciphernodeEnabled := update s.ciphernodeEnabled node false
    numCiphernodes := count }

/-- The tree functions and the changes of the two addresses that may call them. -/
inductive Reachable : CiphernodeTree τ → Prop
  | init (owner bondingRegistry : Address) :
      Reachable ⟨owner, bondingRegistry, imt.init, fun _ => false, fun _ => 0, 0, []⟩
  | configure (h : Reachable s) (owner bondingRegistry : Address) :
      Reachable { s with owner, bondingRegistry }
  | add (h : Reachable s) (sender node : Address)
      (hrun : addCiphernode imt sender node s = .ok s') : Reachable s'
  | remove (h : Reachable s) (sender node : Address)
      (hrun : removeCiphernode imt sender node s = .ok s') : Reachable s'

/-- Every index below the number of leaves is the slot of one enabled node or free. -/
structure Slotted (s : CiphernodeTree τ) : Prop where
  index_lt : ∀ x, s.ciphernodeEnabled x → s.ciphernodeTreeIndex x < imt.numberOfLeaves s.ciphernodes
  distinct : ∀ x y, s.ciphernodeEnabled x → s.ciphernodeEnabled y →
    s.ciphernodeTreeIndex x = s.ciphernodeTreeIndex y → x = y
  free_nodup : s.freeCiphernodeTreeIndices.Nodup
  mem_free : ∀ i, i ∈ s.freeCiphernodeTreeIndices ↔
    i < imt.numberOfLeaves s.ciphernodes ∧ ∀ x, s.ciphernodeEnabled x → s.ciphernodeTreeIndex x ≠ i
  occupied_leaf : ∀ x, s.ciphernodeEnabled x →
    imt.leaf s.ciphernodes (s.ciphernodeTreeIndex x) = x.val
  free_leaf : ∀ i ∈ s.freeCiphernodeTreeIndices, imt.leaf s.ciphernodes i = 0
  count : s.numCiphernodes + s.freeCiphernodeTreeIndices.length = imt.numberOfLeaves s.ciphernodes
  leaves_le : imt.numberOfLeaves s.ciphernodes ≤ maxCiphernodeLeaves

variable {imt} {s s' : CiphernodeTree τ} {sender node : Address}

/-- A new node gets the next leaf, or the one on top of the stack. -/
lemma takeSlot_ok (h : takeSlot imt node s = .ok slot) :
    imt.leaf slot.2.1 = update (imt.leaf s.ciphernodes) slot.1 node.val ∧
    (s.freeCiphernodeTreeIndices = [] ∧ slot.2.2 = [] ∧
        slot.1 = imt.numberOfLeaves s.ciphernodes ∧ slot.1 < maxCiphernodeLeaves ∧
        imt.numberOfLeaves slot.2.1 = slot.1 + 1 ∨
      s.freeCiphernodeTreeIndices = slot.2.2 ++ [slot.1] ∧
        imt.numberOfLeaves slot.2.1 = imt.numberOfLeaves s.ciphernodes) := by
  unfold takeSlot at h
  split at h
  next hnone =>
    have hempty := List.getLast?_eq_none_iff.1 hnone
    simp only [run_ok] at h
    obtain ⟨-, hlt, tree, hins, rfl⟩ := h
    obtain ⟨hnum, hleaf⟩ := imt.insert_appends hins
    exact ⟨hleaf, .inl ⟨hempty, hempty, rfl, hlt, hnum⟩⟩
  next index hsome =>
    simp only [run_ok] at h
    obtain ⟨tree, hupd, rfl⟩ := h
    obtain ⟨hnum, hleaf⟩ := imt.update_overwrites hupd
    exact ⟨hleaf, .inr ⟨(List.dropLast_append_getLast? _ hsome).symm, hnum⟩⟩

/-- The slot that is taken is no longer free, and the other free ones are those without a node. -/
lemma Slotted.takeSlot (h : Slotted imt s) (hslot : takeSlot imt node s = .ok (index, tree, free)) :
    index < imt.numberOfLeaves tree ∧ imt.numberOfLeaves s.ciphernodes ≤ imt.numberOfLeaves tree ∧
    imt.numberOfLeaves tree ≤ maxCiphernodeLeaves ∧ free.Nodup ∧
    free.length + s.numCiphernodes + 1 = imt.numberOfLeaves tree ∧
    (∀ x, s.ciphernodeEnabled x → s.ciphernodeTreeIndex x ≠ index) ∧
    ∀ i, i ∈ free ↔ i < imt.numberOfLeaves tree ∧ i ≠ index ∧
      ∀ x, s.ciphernodeEnabled x → s.ciphernodeTreeIndex x ≠ i := by
  have hcount := h.count
  have hle := h.leaves_le
  obtain ⟨-, ⟨hempty, rfl, rfl, hlt, hnum⟩ | ⟨hstack, hnum⟩⟩ := takeSlot_ok hslot
  · have hmem := h.mem_free
    have hindex := h.index_lt
    grind
  · have hnodup := h.free_nodup
    have hmem := h.mem_free
    simp only [hstack, List.nodup_append, List.mem_append, List.mem_singleton] at hnodup hmem
    have hslot := hmem index
    grind

lemma Slotted.addCiphernode (h : Slotted imt s)
    (hrun : addCiphernode imt sender node s = .ok s') : Slotted imt s' := by
  unfold CiphernodeTree.addCiphernode at hrun
  simp only [run_ok, onlyOwnerOrBondingVault] at hrun
  obtain ⟨-, -, hrun⟩ := hrun
  split_ifs at hrun with henab
  · rw [pure_ok] at hrun
    exact hrun ▸ h
  simp only [run_ok] at hrun
  obtain ⟨⟨index, tree, free⟩, hslot, count, ⟨-, rfl⟩, rfl⟩ := hrun
  obtain ⟨hleaf, htop⟩ := takeSlot_ok hslot
  obtain ⟨hlt, hgrows, hle, hnodup, hcount, hfresh, hmem⟩ := h.takeSlot hslot
  have hindex := h.index_lt
  have hdist := h.distinct
  have hoccup := h.occupied_leaf
  have hzero : ∀ i ∈ free, imt.leaf s.ciphernodes i = 0 := by
    have hfree := h.free_leaf
    grind
  refine ⟨?_, ?_, hnodup, ?_, ?_, ?_, by grind, hle⟩ <;> simp only [update_apply, hleaf]
  · grind
  · grind
  · intro i
    grind
  · grind
  · grind

lemma Slotted.removeCiphernode (h : Slotted imt s)
    (hrun : removeCiphernode imt sender node s = .ok s') : Slotted imt s' := by
  simp only [CiphernodeTree.removeCiphernode, run_ok, onlyOwnerOrBondingVault] at hrun
  obtain ⟨-, -, -, henab, tree, hupd, count, ⟨hpos, rfl⟩, rfl⟩ := hrun
  obtain ⟨hnum, hleaf⟩ := imt.update_overwrites hupd
  obtain ⟨index_lt, distinct, free_nodup, mem_free, occupied_leaf, free_leaf, count, leaves_le⟩ := h
  constructor <;> simp only [update_apply, hleaf, hnum] <;> grind

/-- In every reachable state the slots below the number of leaves are shared out between the enabled
nodes and the stack of free indices. -/
theorem tree_slots_partitioned (h : Reachable imt s) : Slotted imt s ∧ s.numCiphernodes =
      imt.numberOfLeaves s.ciphernodes - s.freeCiphernodeTreeIndices.length := by
  have hslots : Slotted imt s := by
    induction h with
    | init owner bondingRegistry => constructor <;> simp [imt.numberOfLeaves_init]
    | configure _ _ _ ih => exact { ih with }
    | add _ _ _ hrun ih => exact ih.addCiphernode hrun
    | remove _ _ _ hrun ih => exact ih.removeCiphernode hrun
  have hcount := hslots.count
  exact ⟨hslots, by omega⟩

/-- A tree that is the list of its leaves. -/
def leafList : LazyIMT (List ℕ) where
  numberOfLeaves := List.length
  leaf t i := t.getD i 0
  init := []
  insert v t := .ok (t ++ [v])
  update v i t := if i < t.length then .ok (t.set i v) else .error .panic
  numberOfLeaves_init := rfl
  insert_appends := by
    rintro v t t' ⟨⟩
    exact ⟨List.length_append, by ext i; grind⟩
  update_overwrites := by
    intro v i t t' h
    split_ifs at h with hi
    cases h
    exact ⟨List.length_set, by ext j; grind⟩

/-- The second node takes the slot of the first. -/
theorem tree_slots_recycled :
    ∃ s, Reachable leafList s ∧ s.ciphernodes = [6] ∧ Slotted leafList s := by
  have h₀ : Reachable leafList _ := .init 1 2
  have h₁ := Reachable.add h₀ 1 5 rfl
  have h₂ := Reachable.remove h₁ 2 5 rfl
  have h₃ := Reachable.add h₂ 1 6 rfl
  exact ⟨_, h₃, rfl, (tree_slots_partitioned h₃).1⟩

end CiphernodeTree

end Interfold.Registry
