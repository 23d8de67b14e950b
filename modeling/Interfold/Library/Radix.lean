import Mathlib.Data.Nat.Digits.Lemmas

/-!
# Digits

Horner's rule in any semiring. Over the natural numbers, digits below the radix are determined by
the number and by how many there are.
-/

namespace Radix

variable {R : Type*} [CommSemiring R]

/-- The number with these digits, the highest one first. -/
def horner (r : R) (digits : List R) : R := digits.foldl (fun acc digit => acc * r + digit) 0

@[simp]
lemma horner_nil (r : R) : horner r [] = 0 := rfl

@[simp]
lemma horner_snoc (r : R) (digits : List R) (digit : R) :
    horner r (digits ++ [digit]) = horner r digits * r + digit := by
  simp [horner]

lemma natCast_horner (r : ℕ) (digits : List ℕ) :
    ((horner r digits : ℕ) : R) = horner (r : R) (digits.map (↑)) := by
  induction digits using List.reverseRecOn with
  | nil => simp
  | append_singleton digits digit ih => simp [ih]

lemma horner_eq_ofDigits (r : ℕ) (digits : List ℕ) :
    horner r digits = Nat.ofDigits r digits.reverse := by
  induction digits using List.reverseRecOn with
  | nil => simp
  | append_singleton digits digit ih =>
    rw [horner_snoc, ih, List.reverse_append, List.reverse_singleton,
      List.singleton_append, Nat.ofDigits_cons]
    ring

lemma horner_lt {r : ℕ} {digits : List ℕ} (h : ∀ d ∈ digits, d < r) :
    horner r digits < r ^ digits.length := by
  induction digits using List.reverseRecOn with
  | nil => simp
  | append_singleton digits digit ih =>
    have hfront := ih fun d hd => h d (by simp [hd])
    have hlast := h digit (by simp)
    rw [horner_snoc, List.length_append, List.length_singleton, pow_succ]
    calc horner r digits * r + digit < (horner r digits + 1) * r := by linarith
      _ ≤ r ^ digits.length * r := Nat.mul_le_mul_right r hfront

lemma horner_inj (hr : 1 < r) (hlen : xs.length = ys.length) (hxs : ∀ d ∈ xs, d < r)
    (hys : ∀ d ∈ ys, d < r) (h : horner r xs = horner r ys) : xs = ys := by
  rw [horner_eq_ofDigits, horner_eq_ofDigits] at h
  apply List.reverse_injective
  apply Nat.ofDigits_inj_of_len_eq hr (by simpa using hlen) _ _ h
  · simpa using hxs
  · simpa using hys

end Radix
