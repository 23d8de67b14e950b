import Mathlib.Tactic.Linarith
import Mathlib.Algebra.Order.BigOperators.Group.Finset
import Mathlib.Data.Fintype.BigOperators

/-!
# Totals over finite maps

Storage mappings are functions on a finite key type. A contract that keeps a running total
beside a mapping is correct when every write moves both by the same amount. The lemmas below
compare two mappings that agree except at one key, which is what a single write gives.
-/

namespace Ledger

open Finset

variable {ι : Type*} [Fintype ι]

variable {f g : ι → ℕ} {a b : ι} {p q : ι → Prop} {n : ℕ}

/-- Two mappings that differ at one key have totals that differ by the two values there. -/
lemma sum_write (h : ∀ x, x ≠ a → g x = f x) : ∑ x, g x + f a = ∑ x, f x + g a := by
  classical
  rw [← add_sum_erase univ g (mem_univ a), ← add_sum_erase univ f (mem_univ a)]
  have hrest : ∑ x ∈ univ.erase a, g x = ∑ x ∈ univ.erase a, f x :=
    sum_congr rfl fun x hx => h x (ne_of_mem_erase hx)
  omega

/-- The number of keys that satisfy a predicate. -/
def count (p : ι → Prop) [DecidablePred p] : ℕ := #{x | p x}

lemma count_eq_sum (p : ι → Prop) [DecidablePred p] : count p = ∑ x, if p x then 1 else 0 :=
  card_filter p univ

lemma count_congr [DecidablePred p] [DecidablePred q] (h : ∀ x, p x ↔ q x) : count p = count q :=
  congrArg card (filter_congr fun x _ => h x)

/-- The same for the number of keys that satisfy a predicate. -/
lemma count_write [DecidablePred p] [DecidablePred q] (h : ∀ x, x ≠ a → (q x ↔ p x)) :
    count q + (if p a then 1 else 0) = count p + if q a then 1 else 0 := by
  rw [count_eq_sum, count_eq_sum]
  refine sum_write (g := fun x => if q x then 1 else 0) (f := fun x => if p x then 1 else 0) ?_
  intro x hx
  simp only [h x hx]

/-! ## Nested mappings -/

section

variable {κ : Type*} [Fintype κ]

lemma sum_sum_write {f g : ι → κ → ℕ} {a : ι} {b : κ}
    (h : ∀ x y, ¬(x = a ∧ y = b) → g x y = f x y) :
    ∑ x, ∑ y, g x y + f a b = ∑ x, ∑ y, f x y + g a b := by
  have houter := sum_write (a := a) (f := fun x => ∑ y, f x y) (g := fun x => ∑ y, g x y)
    fun x hx => sum_congr rfl fun y _ => h x y fun hxy => hx hxy.1
  have hinner := sum_write (a := b) (f := f a) (g := g a) fun y hy => h a y fun hxy => hy hxy.2
  omega

end

section

variable {α β γ δ : Type*} [DecidableEq α] [DecidableEq β]

/-- Writes one cell of a nested mapping. -/
def update₂ (f : α → β → γ) (a : α) (b : β) (c : γ) : α → β → γ :=
  Function.update f a (Function.update (f a) b c)

lemma update₂_apply (f : α → β → γ) (a x : α) (b y : β) (c : γ) :
    update₂ f a b c x y = if x = a ∧ y = b then c else f x y := by
  unfold update₂
  by_cases hx : x = a
  · subst hx
    by_cases hy : y = b <;> simp [hy]
  · simp [hx]

@[simp] lemma update₂_self (f : α → β → γ) (a : α) (b : β) (c : γ) : update₂ f a b c a b = c := by
  simp [update₂_apply]

variable {a : α} {b : β}

lemma update₂_of_ne (f : α → β → γ) (c : γ) (h : ¬(x = a ∧ y = b)) :
    update₂ f a b c x y = f x y := by
  rw [update₂_apply, if_neg h]

lemma map_update₂ (g : γ → δ) (f : α → β → γ) (a : α) (b : β) (c : γ) :
    (fun x y => g (update₂ f a b c x y)) = update₂ (fun x y => g (f x y)) a b (g c) := by
  funext x y
  rw [update₂_apply, update₂_apply, apply_ite g]

lemma update_succ (c : α → ℕ) (a x : α) :
    Function.update c a (c a + 1) x = c x + if x = a then 1 else 0 := by
  by_cases hx : x = a
  · subst hx
    simp
  · simp [hx]

lemma update_pred (c : α → ℕ) (h : 1 ≤ c a) (x : α) :
    Function.update c a (c a - 1) x + (if x = a then 1 else 0) = c x := by
  by_cases hx : x = a
  · subst hx
    simp [Nat.sub_add_cancel h]
  · simp [hx]

lemma update₂_succ (c : α → β → ℕ) (a x : α) (b y : β) :
    update₂ c a b (c a b + 1) x y = c x y + if x = a ∧ y = b then 1 else 0 := by
  rw [update₂_apply]
  split_ifs with h
  · rw [h.1, h.2]
  · rfl

lemma update₂_pred (c : α → β → ℕ) (h : 1 ≤ c a b) (x : α) (y : β) :
    update₂ c a b (c a b - 1) x y + (if x = a ∧ y = b then 1 else 0) = c x y := by
  rw [update₂_apply]
  split_ifs with hxy
  · rw [hxy.1, hxy.2, Nat.sub_add_cancel h]
  · rfl

end

/-! ## Tallies of a table

A table of records is written one cell at a time. Counters beside it track how many records of a
row, of a column or of the whole table satisfy a predicate. -/

section

variable {κ ρ : Type*} [Fintype κ] [DecidableEq ι] [DecidableEq κ] (f : ι → κ → ρ) (a : ι) (b : κ)
  (v : ρ) (p : ρ → Prop) [DecidablePred p]

omit [Fintype ι] in
lemma count_row_write (x : ι) :
    count (fun y => p (update₂ f a b v x y)) + (if x = a ∧ p (f a b) then 1 else 0) =
      count (fun y => p (f x y)) + if x = a ∧ p v then 1 else 0 := by
  by_cases hx : x = a
  · subst hx
    have hcount := count_write (a := b) (p := fun y => p (f x y))
      (q := fun y => p (update₂ f x b v x y))
      fun y hy => by rw [update₂_of_ne _ _ fun hxy => hy hxy.2]
    simpa using hcount
  · simp [update₂_apply, hx]

omit [Fintype κ] in
lemma count_column_write (y : κ) :
    count (fun x => p (update₂ f a b v x y)) + (if y = b ∧ p (f a b) then 1 else 0) =
      count (fun x => p (f x y)) + if y = b ∧ p v then 1 else 0 := by
  by_cases hy : y = b
  · subst hy
    have hcount := count_write (a := a) (p := fun x => p (f x y))
      (q := fun x => p (update₂ f a y v x y))
      fun x hx => by rw [update₂_of_ne _ _ fun hxy => hx hxy.1]
    simpa using hcount
  · simp [update₂_apply, hy]

lemma count_table_write :
    ∑ x, count (fun y => p (update₂ f a b v x y)) + (if p (f a b) then 1 else 0) =
      ∑ x, count (fun y => p (f x y)) + if p v then 1 else 0 := by
  have hrow := count_row_write f a b v p a
  have hsum := sum_write (a := a) (f := fun x => count fun y => p (f x y))
    (g := fun x => count fun y => p (update₂ f a b v x y))
    fun x hx => by simp [update₂_apply, hx]
  simp only [true_and] at hrow
  omega

end

lemma count_pos [DecidablePred p] (h : p a) : 0 < count p :=
  card_pos.2 ⟨a, by simpa using h⟩

/-- The sum over part of the keys, when one key is credited. -/
lemma sum_credit (p : ι → Prop) [DecidablePred p] [DecidableEq ι]
    (h : ∀ x, g x = f x + if x = b then n else 0) :
    (∑ x, if p x then g x else 0) = (∑ x, if p x then f x else 0) + if p b then n else 0 := by
  have hsplit : ∀ x, (if p x then g x else 0) =
      (if p x then f x else 0) + if x = b then (if p b then n else 0) else 0 := by
    grind
  simp only [hsplit, sum_add_distrib, sum_ite_eq', mem_univ, if_true]

/-- The same when an amount moves from one key to another. -/
lemma sum_shift (p : ι → Prop) [DecidablePred p] [DecidableEq ι]
    (h : ∀ x, g x + (if x = a then n else 0) = f x + if x = b then n else 0) :
    (∑ x, if p x then g x else 0) + (if p a then n else 0) =
      (∑ x, if p x then f x else 0) + if p b then n else 0 := by
  have hdebit := sum_credit p (f := g) (b := a) (n := n) fun x => rfl
  have hcred := sum_credit p (f := f) (b := b) (n := n) fun x => rfl
  simp only [h] at hdebit
  rw [← hdebit, hcred]

lemma le_sum (f : ι → ℕ) (a : ι) : f a ≤ ∑ x, f x :=
  single_le_sum (fun _ _ => Nat.zero_le _) (mem_univ a)

end Ledger
