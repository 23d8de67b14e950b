import Interfold.Library.Ledger
import Mathlib.Algebra.BigOperators.Ring.Finset

/-!
# Representation

Accounts can name another account to represent them, and every account has a fixed set of slots
for those it represents. The two sides are stored apart. While they agree, every account is
represented by exactly one account, itself or its delegate, so a weight per account can be counted
at the representatives without loss or double counting.
-/

namespace Representation

open Function Finset

variable {α ι : Type*}

/-- Who names whom, and who sits in whose slots. -/
@[ext]
structure Assignment (α ι : Type*) where
  delegate : α → Option α
  slot : α → ι → Option α

namespace Assignment

/-- The two sides agree: whoever sits in a slot named its holder, and sits there once. -/
structure Consistent (A : Assignment α ι) : Prop where
  named : ∀ d i o, A.slot d i = some o → A.delegate o = some d
  seated : ∀ o d, A.delegate o = some d → ∃ i, A.slot d i = some o
  once : ∀ d i j o, A.slot d i = some o → A.slot d j = some o → i = j

def empty : Assignment α ι := ⟨fun _ => none, fun _ _ => none⟩

lemma consistent_empty : (empty : Assignment α ι).Consistent := by
  constructor <;> simp [empty]

variable [DecidableEq α] [DecidableEq ι]

def link (A : Assignment α ι) (o d : α) (i : ι) : Assignment α ι :=
  ⟨update A.delegate o (some d), Ledger.update₂ A.slot d i (some o)⟩

def unlink (A : Assignment α ι) (o d : α) (i : ι) : Assignment α ι :=
  ⟨update A.delegate o none, Ledger.update₂ A.slot d i none⟩

variable {A : Assignment α ι} {o d : α} {i : ι}

/-- An account without delegate takes an empty slot. -/
lemma Consistent.link (h : A.Consistent) (ho : A.delegate o = none) (hi : A.slot d i = none) :
    (A.link o d i).Consistent := by
  have hout : ∀ d' j, A.slot d' j ≠ some o := by
    intro d' j hj
    have hnamed := h.named d' j o hj
    rw [ho] at hnamed
    cases hnamed
  constructor
  · intro d' j o' hj
    simp only [Assignment.link, Ledger.update₂_apply] at hj ⊢
    split_ifs at hj with hslot
    · cases hj
      rw [update_self, hslot.1]
    · have hne : o' ≠ o := by
        rintro rfl
        exact hout d' j hj
      rw [update_of_ne hne]
      exact h.named d' j o' hj
  · intro o' d' hd
    simp only [Assignment.link, Ledger.update₂_apply] at hd ⊢
    by_cases ho' : o' = o
    · subst ho'
      rw [update_self] at hd
      cases hd
      exact ⟨i, by simp⟩
    · rw [update_of_ne ho'] at hd
      obtain ⟨j, hj⟩ := h.seated o' d' hd
      refine ⟨j, ?_⟩
      rw [if_neg]
      · exact hj
      · rintro ⟨rfl, rfl⟩
        rw [hi] at hj
        cases hj
  · intro d' j j' o' hj hj'
    simp only [Assignment.link, Ledger.update₂_apply] at hj hj'
    split_ifs at hj hj' with hslot hslot' hslot'
    · exact hslot.2.trans hslot'.2.symm
    · cases hj
      exact absurd hj' (hout d' j')
    · cases hj'
      exact absurd hj (hout d' j)
    · exact h.once d' j j' o' hj hj'

/-- The slot an account sits in is emptied. -/
lemma Consistent.unlink (h : A.Consistent) (hi : A.slot d i = some o) :
    (A.unlink o d i).Consistent := by
  have hslot : ∀ d' j o', (A.unlink o d i).slot d' j = some o' → A.slot d' j = some o' ∧ o' ≠ o := by
    intro d' j o' hj
    simp only [Assignment.unlink, Ledger.update₂_apply] at hj
    split_ifs at hj with hsame
    refine ⟨hj, ?_⟩
    rintro rfl
    have hd := h.named d' j o' hj
    rw [h.named d i o' hi] at hd
    obtain rfl := Option.some.inj hd
    exact hsame ⟨rfl, h.once d j i o' hj hi⟩
  constructor
  · intro d' j o' hj
    obtain ⟨hold, hne⟩ := hslot d' j o' hj
    simp only [Assignment.unlink, update_of_ne hne]
    exact h.named d' j o' hold
  · intro o' d' hd
    simp only [Assignment.unlink] at hd
    by_cases ho' : o' = o
    · rw [ho', update_self] at hd
      cases hd
    · rw [update_of_ne ho'] at hd
      obtain ⟨j, hj⟩ := h.seated o' d' hd
      refine ⟨j, ?_⟩
      simp only [Assignment.unlink, Ledger.update₂_apply]
      rw [if_neg]
      · exact hj
      · rintro ⟨rfl, rfl⟩
        rw [hi] at hj
        exact ho' (Option.some.inj hj).symm
  · intro d' j j' o' hj hj'
    exact h.once d' j j' o' (hslot d' j o' hj).1 (hslot d' j' o' hj').1

omit [DecidableEq α] [DecidableEq ι] in
lemma Consistent.delegate_iff (h : A.Consistent) :
    A.delegate o = some d ↔ ∃! i, A.slot d i = some o := by
  constructor
  · intro hd
    obtain ⟨i, hi⟩ := h.seated o d hd
    exact ⟨i, hi, fun j hj => h.once d j i o hj hi⟩
  · rintro ⟨i, hi, -⟩
    exact h.named d i o hi

/-! ## Counting -/

variable [Fintype ι]

/-- How often the weight of `o` is counted at `a`: as its own, and once per slot. -/
def counted (A : Assignment α ι) (a o : α) : ℕ :=
  (if A.delegate o = none ∧ a = o then 1 else 0) + ∑ i, if A.slot a i = some o then 1 else 0

omit [DecidableEq ι] in
/-- A weight is counted at the representative, once, and nowhere else. -/
lemma Consistent.counted_eq (h : A.Consistent) (a o : α) :
    A.counted a o = if a = (A.delegate o).getD o then 1 else 0 := by
  unfold counted
  cases hd : A.delegate o with
  | none =>
    have hslots : ∑ i, (if A.slot a i = some o then 1 else 0) = 0 := by
      refine sum_eq_zero fun i _ => if_neg ?_
      intro hi
      rw [h.named a i o hi] at hd
      cases hd
    simp [hslots]
  | some d =>
    simp only [reduceCtorEq, false_and, if_false, Nat.zero_add, Option.getD_some]
    by_cases had : a = d
    · subst had
      obtain ⟨i, hi⟩ := h.seated o a hd
      rw [if_pos rfl, sum_eq_single i]
      · rw [if_pos hi]
      · intro j _ hji
        exact if_neg fun hj => hji (h.once a j i o hj hi)
      · simp
    · rw [if_neg had]
      refine sum_eq_zero fun i _ => if_neg ?_
      intro hi
      rw [h.named a i o hi] at hd
      exact had (Option.some.inj hd)

variable [Fintype α]

omit [DecidableEq ι] in
/-- The weights counted at one account: its own, unless it has a delegate, and those in its
slots. -/
lemma sum_counted_mul (A : Assignment α ι) (a : α) (w : α → ℕ) : ∑ o, A.counted a o * w o =
      (if A.delegate a = none then w a else 0) + ∑ i, (A.slot a i).elim 0 w := by
  simp only [counted, Nat.add_mul, sum_add_distrib, sum_mul]
  congr 1
  · rw [sum_eq_single a]
    · simp
    · intro o _ hne
      simp [hne.symm]
    · simp
  · rw [sum_comm]
    refine sum_congr rfl fun i _ => ?_
    cases A.slot a i with
    | none => simp
    | some o => simp [sum_ite_eq]

end Assignment

end Representation
