import Mathlib.Tactic.Linarith
import Mathlib.Data.List.Sort

/-!
# Hash maps and unstable sorts

A program that reads out a hash map gets the entries in some order, and an unstable sort leaves open
where equal elements go. `Collections` stands for any such library; where the keys are distinct its
sort has one result.
-/

/-- The order in which a map is read, and an unstable sort. -/
structure Collections where
  iterate : ∀ {α : Type}, List α → List α
  iterate_perm : ∀ {α : Type} (l : List α), (iterate l).Perm l
  sortByKey : ∀ {α κ : Type} [LinearOrder κ], (α → κ) → List α → List α
  sortByKey_perm : ∀ {α κ : Type} [LinearOrder κ] (key : α → κ) (l : List α),
    (sortByKey key l).Perm l
  sortByKey_sorted : ∀ {α κ : Type} [LinearOrder κ] (key : α → κ) (l : List α),
    (sortByKey key l).Pairwise fun x y => key x ≤ key y

namespace Collections

variable {α κ : Type} [LinearOrder κ] {key : α → κ} {l l' : List α}

/-- Maps are read in the order of insertion, and equal elements keep their order. -/
def stable : Collections where
  iterate l := l
  iterate_perm _ := .refl _
  sortByKey key l := l.insertionSort fun x y => key x ≤ key y
  sortByKey_perm _ l := l.perm_insertionSort _
  sortByKey_sorted key l :=
    have : Std.Total fun x y => key x ≤ key y := ⟨fun x y => le_total (key x) (key y)⟩
    have : IsTrans _ fun x y => key x ≤ key y := ⟨fun _ _ _ hxy hyz => le_trans hxy hyz⟩
    List.pairwise_insertionSort _ l

lemma sortByKey_strict (lib : Collections) (hkeys : (l.map key).Nodup) :
    (lib.sortByKey key l).Pairwise fun x y => key x < key y := by
  have hnodup : ((lib.sortByKey key l).map key).Nodup :=
    ((lib.sortByKey_perm key l).map key).nodup_iff.2 hkeys
  have hne := List.pairwise_map.1 hnodup
  refine ((lib.sortByKey_sorted key l).and hne).imp ?_
  intro x y h
  exact lt_of_le_of_ne h.1 h.2

/-- Two sorted lists with the same elements are equal. -/
lemma eq_of_perm_of_strict (hperm : l.Perm l') (hl : l.Pairwise fun x y => key x < key y)
    (hl' : l'.Pairwise fun x y => key x < key y) : l = l' := by
  refine hperm.eq_of_pairwise ?_ hl hl'
  intro x y _ _ hxy hyx
  exact absurd hxy (lt_asymm hyx)

/-- What is true of the lower keys only comes first in a sorted list. -/
lemma eq_filter_append (p : α → Bool) (hsort : l.Pairwise fun x y => key x ≤ key y)
    (hp : ∀ x ∈ l, ∀ y ∈ l, key x ≤ key y → p y = true → p x = true) :
    l = l.filter p ++ l.filter fun x => !p x := by
  induction l with
  | nil => rfl
  | cons x l ih =>
    obtain ⟨hx, hsort⟩ := List.pairwise_cons.1 hsort
    have htail := ih hsort fun y hy z hz =>
      hp y (List.mem_cons_of_mem x hy) z (List.mem_cons_of_mem x hz)
    cases hpx : p x with
    | true => simp [hpx, ← htail]
    | false =>
      have hnone : ∀ y ∈ x :: l, p y = false := by
        intro y hy
        rcases List.mem_cons.1 hy with rfl | hmem
        · exact hpx
        · by_contra htrue
          rw [Bool.not_eq_false] at htrue
          have hfirst := hp x (List.mem_cons_self ..) y hy (hx y hmem) htrue
          rw [hpx] at hfirst
          cases hfirst
      have hempty : (x :: l).filter p = [] := by
        rw [List.filter_eq_nil_iff]
        intro y hy
        simp [hnone y hy]
      have hall : ((x :: l).filter fun x => !p x) = x :: l := by
        rw [List.filter_eq_self]
        intro y hy
        simp [hnone y hy]
      rw [hempty, hall, List.nil_append]

end Collections
