import Mathlib.Tactic.Linarith
import Mathlib.Data.List.Basic

/-!
# Sets stored as an array with an index

A set is stored as an array of its elements together with a map from each element to its index
plus one, where zero means absent. Removal moves the last element into the gap and pops the
array, so that it does not depend on the number of elements.
-/

open Function

/-- The array and its one-based index map. -/
structure IndexedSet (α : Type*) where
  items : List α
  indexPlusOne : α → ℕ

namespace IndexedSet

variable {α : Type*} [DecidableEq α] {s : IndexedSet α} {a : α}

/-- The index map is the inverse of the array. -/
def WellFormed (s : IndexedSet α) : Prop :=
  ∀ x i, s.indexPlusOne x = i + 1 ↔ s.items[i]? = some x

def push (s : IndexedSet α) (a : α) : IndexedSet α :=
  ⟨s.items ++ [a], update s.indexPlusOne a (s.items.length + 1)⟩

def swapRemove [Inhabited α] (s : IndexedSet α) (a : α) : IndexedSet α :=
  let index := s.indexPlusOne a
  let lastIndex := s.items.length
  let s := if index = lastIndex then s else
    let moved := s.items.getD (lastIndex - 1) default
    ⟨s.items.set (index - 1) moved, update s.indexPlusOne moved index⟩
  ⟨s.items.dropLast, update s.indexPlusOne a 0⟩

omit [DecidableEq α] in
lemma WellFormed.mem_iff (h : s.WellFormed) (x : α) : x ∈ s.items ↔ s.indexPlusOne x ≠ 0 := by
  rw [List.mem_iff_getElem?]
  constructor
  · rintro ⟨i, hi⟩
    have := (h x i).2 hi
    omega
  · intro hx
    obtain ⟨i, hi⟩ := Nat.exists_eq_succ_of_ne_zero hx
    exact ⟨i, (h x i).1 hi⟩

lemma WellFormed.push (h : s.WellFormed) (ha : s.indexPlusOne a = 0) : (s.push a).WellFormed := by
  intro x i
  have hx := h x i
  have habs := h a i
  simp only [IndexedSet.push, List.getElem?_append]
  by_cases hxa : x = a
  · subst hxa
    grind
  · grind

lemma WellFormed.swapRemove [Inhabited α] (h : s.WellFormed) (ha : s.indexPlusOne a ≠ 0) :
    (s.swapRemove a).WellFormed := by
  obtain ⟨i, hi⟩ := Nat.exists_eq_succ_of_ne_zero ha
  have hget : s.items[i]? = some a := (h a i).1 hi
  have hlt : i < s.items.length := (List.getElem?_eq_some_iff.1 hget).1
  intro x j
  have hx := h x j
  have haj := h a j
  by_cases hlast : s.indexPlusOne a = s.items.length
  · simp only [IndexedSet.swapRemove, hlast, if_true, List.getElem?_dropLast]
    by_cases hxa : x = a <;> grind
  · -- The last element differs from the removed one, and takes its place.
    have hmoved := h (s.items.getD (s.items.length - 1) default) (s.items.length - 1)
    have hmovedj := h (s.items.getD (s.items.length - 1) default) j
    simp only [IndexedSet.swapRemove, hlast, if_false, List.getElem?_dropLast, List.getElem?_set,
      List.length_set]
    by_cases hxa : x = a
    · grind
    · by_cases hxm : x = s.items.getD (s.items.length - 1) default <;> grind

lemma absent_of_push (h : (s.push a).indexPlusOne x = 0) : s.indexPlusOne x = 0 := by
  simp only [IndexedSet.push] at h
  grind

/-- Nothing but the removed element becomes absent. -/
lemma absent_of_swapRemove [Inhabited α] (ha : s.indexPlusOne a ≠ 0)
    (h : (s.swapRemove a).indexPlusOne x = 0) : x = a ∨ s.indexPlusOne x = 0 := by
  by_cases hlast : s.indexPlusOne a = s.items.length
  · simp only [IndexedSet.swapRemove, hlast, if_true] at h
    grind
  · simp only [IndexedSet.swapRemove, hlast, if_false] at h
    grind

end IndexedSet
