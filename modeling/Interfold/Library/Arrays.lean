import Mathlib.Tactic.Linarith
import Mathlib.Data.List.GetD

/-!
# Flattened arrays

An array of arrays is laid out row after row. Loops that fill an array and may fail at an element
are `List.mapM` over the indices.
-/

namespace Arrays

variable {α β : Type}

/-- `rows` arrays of length `width`, one after the other. -/
def grid (rows width : ℕ) (f : ℕ → ℕ → α) : List α :=
  (List.range (rows * width)).map fun n => f (n / width) (n % width)

@[simp]
lemma length_grid (rows width : ℕ) (f : ℕ → ℕ → α) : (grid rows width f).length = rows * width := by
  simp [grid]

lemma index_lt {rows width i j : ℕ} (hi : i < rows) (hj : j < width) :
    i * width + j < rows * width := by
  calc i * width + j < i * width + width := by omega
    _ = (i + 1) * width := (Nat.succ_mul i width).symm
    _ ≤ rows * width := Nat.mul_le_mul_right width hi

lemma getD_grid (f : ℕ → ℕ → α) (d : α) (hi : i < rows) (hj : j < width) :
    (grid rows width f).getD (i * width + j) d = f i j := by
  have hlt : i * width + j < (grid rows width f).length := by
    rw [length_grid]
    exact index_lt hi hj
  have hdiv : (i * width + j) / width = i := by
    rw [Nat.add_comm, Nat.add_mul_div_right j i (by omega), Nat.div_eq_of_lt hj, Nat.zero_add]
  have hmod : (i * width + j) % width = j := by
    rw [Nat.add_comm, Nat.add_mul_mod_self_right, Nat.mod_eq_of_lt hj]
  rw [List.getD_eq_getElem _ _ hlt]
  simp [grid, hdiv, hmod]

/-- The elements behind a known beginning. -/
lemma getD_append_add (first rest : List α) (d : α) (n : ℕ) :
    (first ++ rest).getD (first.length + n) d = rest.getD n d := by
  rw [List.getD_append_right _ _ _ _ (by omega), Nat.add_sub_cancel_left]

/-- A position in the array `m` of several arrays that are written one after the other. -/
lemma getD_flatten {arrays : List (List α)} {m offset i : ℕ} (d : α)
    (hoff : (arrays.take m).flatten.length = offset) (hi : i < (arrays.getD m []).length) :
    arrays.flatten.getD (offset + i) d = (arrays.getD m []).getD i d := by
  have hm : m < arrays.length := by
    by_contra hm
    rw [List.getD_eq_default _ _ (not_lt.1 hm)] at hi
    exact absurd hi (Nat.not_lt_zero i)
  have hsplit : arrays.flatten =
      (arrays.take m).flatten ++ (arrays.getD m [] ++ (arrays.drop (m + 1)).flatten) := by
    rw [List.getD_eq_getElem _ _ hm, ← List.flatten_cons, List.getElem_cons_drop,
      ← List.flatten_append, List.take_append_drop]
  rw [hsplit, ← hoff, getD_append_add, List.getD_append _ _ _ _ hi]

lemma getD_map_range (f : ℕ → α) (d : α) (hi : i < n) : ((List.range n).map f).getD i d = f i := by
  rw [List.getD_eq_getElem _ _ (by simpa using hi)]
  simp

lemma map_getD_range (l : List α) (d : α) (hn : l.length = n) :
    (List.range n).map (fun i => l.getD i d) = l := by
  subst hn
  apply List.ext_getElem (by simp)
  intro i hi hi'
  simp [List.getElem?_eq_getElem hi']

/-- Values that increase from each position to the next one increase. -/
lemma increasing_of_step {f : ℕ → ℕ} (hstep : ∀ i < count, 0 < i → f (i - 1) < f i) :
    ∀ j < count, ∀ i < j, f i < f j := by
  intro j
  induction j with
  | zero => omega
  | succ j ih =>
    intro hj i hi
    have hlast := hstep (j + 1) hj (by omega)
    rw [Nat.add_sub_cancel] at hlast
    by_cases hij : i = j
    · rw [hij]
      exact hlast
    · exact lt_trans (ih (by omega) i (by omega)) hlast

/-- A loop whose element `x` can only be `g x` either fails or is the map of `g`. -/
lemma mapM_eq_some {f : α → Option β} {g : α → β} (hg : ∀ x y, f x = some y → y = g x)
    {l : List α} {ys : List β} :
    l.mapM f = some ys ↔ (∀ x ∈ l, f x = some (g x)) ∧ ys = l.map g := by
  induction l generalizing ys with
  | nil => simp [eq_comm]
  | cons x l ih =>
    rw [List.mapM_cons]
    constructor
    · intro h
      obtain ⟨y, hy, h⟩ := Option.bind_eq_some_iff.1 h
      obtain ⟨zs, hzs, h⟩ := Option.bind_eq_some_iff.1 h
      obtain ⟨hall, rfl⟩ := ih.1 hzs
      obtain rfl := hg x y hy
      exact ⟨List.forall_mem_cons.2 ⟨hy, hall⟩, (Option.some.inj h).symm⟩
    · rintro ⟨hall, rfl⟩
      obtain ⟨hx, hl⟩ := List.forall_mem_cons.1 hall
      rw [hx, ih.2 ⟨hl, rfl⟩]
      rfl

end Arrays
