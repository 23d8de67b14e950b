import Mathlib.Tactic.Linarith
import Mathlib.Data.List.Perm.Basic
import Mathlib.Data.List.Pairwise

/-!
# Exchange sort

Two nested loops over the positions of a list: whenever a later value is less than the one at the
outer position, the two change places. After its turn the outer position holds the least of what
was left.
-/

namespace ExchangeSort

open List

variable {α : Type*} [LinearOrder α]

/-- The body of the loops. -/
def exchange (i j : ℕ) (l : List α) : List α :=
  match l[i]?, l[j]? with
  | some left, some right => if right < left then (l.set i right).set j left else l
  | _, _ => l

/-- The inner loop, over all later positions. -/
def pass (i : ℕ) (l : List α) : List α :=
  (range' (i + 1) (l.length - (i + 1))).foldl (fun l j => exchange i j l) l

def sort (l : List α) : List α := (range l.length).foldl (fun l i => pass i l) l

lemma exchange_perm (i j : ℕ) (l : List α) : exchange i j l ~ l := by
  unfold exchange
  split
  · next left right hi hj =>
    split_ifs
    · obtain ⟨hi', rfl⟩ := List.getElem?_eq_some_iff.1 hi
      obtain ⟨hj', rfl⟩ := List.getElem?_eq_some_iff.1 hj
      exact set_set_perm hi' hj'
    · exact Perm.refl l
  · exact Perm.refl l

lemma pass_perm (i : ℕ) (l : List α) : pass i l ~ l := by
  unfold pass
  generalize range' (i + 1) (l.length - (i + 1)) = positions
  induction positions generalizing l with
  | nil => exact Perm.refl l
  | cons j positions ih => exact (ih (exchange i j l)).trans (exchange_perm i j l)

lemma sort_perm (l : List α) : sort l ~ l := by
  unfold sort
  generalize range l.length = positions
  induction positions generalizing l with
  | nil => exact Perm.refl l
  | cons i positions ih => exact (ih (pass i l)).trans (pass_perm i l)

/-- The first `k` positions are at most what follows them. -/
def SortedTo (k : ℕ) (l : List α) : Prop :=
  ∀ a b x y, a < k → a < b → l[a]? = some x → l[b]? = some y → x ≤ y

/-- The value at `i` is at most those between `i` and `k`. -/
def LeastTo (i k : ℕ) (l : List α) : Prop :=
  ∀ b x y, i < b → b < k → l[i]? = some x → l[b]? = some y → x ≤ y

variable {i j k : ℕ} {l : List α}

lemma getElem?_exchange (hij : i ≠ j) (hi : l[i]? = some left) (hj : l[j]? = some right) (b : ℕ) :
    (exchange i j l)[b]? = if b = i then some (min left right)
      else if b = j then some (max left right) else l[b]? := by
  obtain ⟨hi', -⟩ := List.getElem?_eq_some_iff.1 hi
  obtain ⟨hj', -⟩ := List.getElem?_eq_some_iff.1 hj
  simp only [exchange, hi, hj]
  split_ifs <;> grind

lemma SortedTo.exchange (h : SortedTo i l) (hij : i < j) : SortedTo i (exchange i j l) := by
  cases hi : l[i]? with
  | none => simpa [ExchangeSort.exchange, hi] using h
  | some left =>
    cases hj : l[j]? with
    | none => simpa [ExchangeSort.exchange, hi, hj] using h
    | some right =>
      intro a b x y ha hab hx hy
      rw [getElem?_exchange (Nat.ne_of_lt hij) hi hj] at hx hy
      rw [if_neg (by omega), if_neg (by omega)] at hx
      have hleft := h a i x left ha ha hx hi
      have hright := h a j x right ha (by omega) hx hj
      split_ifs at hy
      · cases hy
        exact le_min hleft hright
      · cases hy
        exact le_trans hleft (le_max_left _ _)
      · exact h a b x y ha hab hx hy

lemma LeastTo.exchange (h : LeastTo i j l) (hij : i < j) : LeastTo i (j + 1) (exchange i j l) := by
  cases hi : l[i]? with
  | none =>
    intro b x y _ _ hx
    simp [ExchangeSort.exchange, hi] at hx
  | some left =>
    cases hj : l[j]? with
    | none =>
      intro b x y hib hbj hx hy
      simp only [ExchangeSort.exchange, hi, hj] at hx hy
      have hne : b ≠ j := by
        rintro rfl
        rw [hj] at hy
        cases hy
      exact h b x y hib (by omega) (by rw [hi]; exact hx) hy
    | some right =>
      intro b x y hib hbj hx hy
      rw [getElem?_exchange (Nat.ne_of_lt hij) hi hj] at hx hy
      rw [if_pos rfl] at hx
      cases hx
      rw [if_neg (by omega)] at hy
      split_ifs at hy
      · cases hy
        exact le_trans (min_le_left _ _) (le_max_left _ _)
      · exact le_trans (min_le_left _ _) (h b left y hib (by omega) hi hy)

/-- A pass puts the least of the rest at its position. -/
lemma SortedTo.pass (h : SortedTo i l) : SortedTo (i + 1) (pass i l) := by
  have hfold : ∀ n j (l : List α), i < j → SortedTo i l → LeastTo i j l →
      SortedTo i ((range' j n).foldl (fun l j => ExchangeSort.exchange i j l) l) ∧
        LeastTo i (j + n) ((range' j n).foldl (fun l j => ExchangeSort.exchange i j l) l) := by
    intro n
    induction n with
    | zero => exact fun j l _ hsort hleast => ⟨hsort, hleast⟩
    | succ n ih =>
      intro j l hij hsort hleast
      have hnext := ih (j + 1) (ExchangeSort.exchange i j l) (by omega) (hsort.exchange hij)
        (hleast.exchange hij)
      rw [range'_succ, foldl_cons, ← Nat.add_assoc, Nat.add_right_comm]
      exact hnext
  have hstart : LeastTo i (i + 1) l := by
    intro b x y hib hb
    omega
  obtain ⟨hsort, hleast⟩ := hfold (l.length - (i + 1)) (i + 1) l (Nat.lt_succ_self i) h hstart
  intro a b x y ha hab hx hy
  by_cases hai : a = i
  · subst hai
    have hlt := (List.getElem?_eq_some_iff.1 hy).1
    rw [(pass_perm a l).length_eq] at hlt
    exact hleast b x y hab (by omega) hx hy
  · exact hsort a b x y (by omega) hab hx hy

lemma sort_sorted (l : List α) : (sort l).Pairwise (· ≤ ·) := by
  have hfold : ∀ n i (l : List α), SortedTo i l →
      SortedTo (i + n) ((range' i n).foldl (fun l i => ExchangeSort.pass i l) l) := by
    intro n
    induction n with
    | zero => exact fun i l h => h
    | succ n ih =>
      intro i l h
      rw [range'_succ, foldl_cons, ← Nat.add_assoc, Nat.add_right_comm]
      exact ih (i + 1) (ExchangeSort.pass i l) h.pass
  have hsort := hfold l.length 0 l (fun a b x y ha => absurd ha (Nat.not_lt_zero a))
  rw [← range_eq_range', Nat.zero_add] at hsort
  rw [pairwise_iff_getElem]
  intro a b ha hb hab
  refine hsort a b _ _ ?_ hab (getElem?_eq_getElem ha) (getElem?_eq_getElem hb)
  rw [(sort_perm l).length_eq] at ha
  exact ha

/-- Without repetitions the sorted list is strictly increasing. -/
lemma sort_strict (h : l.Nodup) : (sort l).Pairwise (· < ·) := by
  have hnodup : (sort l).Nodup := (sort_perm l).nodup_iff.2 h
  exact ((sort_sorted l).and hnodup).imp fun ⟨hle, hne⟩ => lt_of_le_of_ne hle hne

end ExchangeSort
