import Mathlib.Data.ZMod.ValMinAbs
import Mathlib.Tactic.Ring
import Interfold.Circuits.SequentialFolds

/-!
# Range checks

A circuit only sees elements of the scalar field. A range check bounds the representative of an
element, and an identity between bounded elements is one between integers: `signed` is the
representative closest to zero, and `fitsIn_intCast` reads a check of an integer term as a bound.
-/

namespace Interfold.Circuits

lemma pow_lt_prime : 2 ^ 253 < fieldPrime := by
  norm_num [fieldPrime]

lemma pow_lt_prime_int : (2 : ℤ) ^ 253 < fieldPrime := by
  norm_num [fieldPrime]

instance : NeZero fieldPrime := ⟨by norm_num [fieldPrime]⟩

/-- The signed integer that an element stands for. -/
def signed (x : Fr) : ℤ := x.valMinAbs

@[simp]
lemma intCast_signed (x : Fr) : (signed x : Fr) = x := ZMod.coe_valMinAbs x

variable {a : ℤ} {bits upper n bit lower : ℕ} {c : Fin n → Fr}

lemma signed_intCast (h : 2 * |a| < fieldPrime) : signed (a : Fr) = a := by
  refine (ZMod.valMinAbs_spec _ _).2 ⟨rfl, ?_, ?_⟩
  · linarith [neg_abs_le a]
  · linarith [le_abs_self a]

/-- Integers that are close to each other are equal if they are the same element. -/
lemma eq_of_intCast_eq (hclose : |a - b| < fieldPrime) (h : (a : Fr) = b) : a = b := by
  have hdvd := (ZMod.intCast_eq_intCast_iff_dvd_sub b a fieldPrime).1 h.symm
  have hzero := Int.eq_zero_of_abs_lt_dvd hdvd hclose
  omega

/-! ### Bit sizes -/

/-- `assert_max_bit_size`. -/
def FitsIn (bits : ℕ) (x : Fr) : Prop := x.val < 2 ^ bits

instance (bits : ℕ) (x : Fr) : Decidable (FitsIn bits x) :=
  inferInstanceAs (Decidable (x.val < 2 ^ bits))

lemma fitsIn_intCast (hlow : 2 ^ bits ≤ a + fieldPrime) (hhigh : a < fieldPrime) :
    FitsIn bits (a : Fr) ↔ 0 ≤ a ∧ a < 2 ^ bits := by
  have hval := ZMod.val_intCast (n := fieldPrime) a
  have hpow : (0 : ℤ) < 2 ^ bits := by positivity
  unfold FitsIn
  rw [← Nat.cast_lt (α := ℤ), hval, Nat.cast_pow, Nat.cast_two]
  rcases lt_or_ge a 0 with hneg | hpos
  · have hmod : a % fieldPrime = a + fieldPrime := by
      rw [← Int.add_emod_right, Int.emod_eq_of_lt (by linarith) (by linarith)]
    rw [hmod]
    constructor
    · intro h
      linarith
    · intro h
      linarith [h.1]
  · rw [Int.emod_eq_of_lt hpos hhigh]
    exact ⟨fun h => ⟨hpos, h⟩, fun h => h.2⟩

lemma intCast_val (x : Fr) : ((x.val : ℤ) : Fr) = x := by
  rw [Int.cast_natCast, ZMod.natCast_zmod_val]

/-- The interval `[0, upper)`. -/
def AssertInRange (bits : ℕ) (v upper : Fr) : Prop := FitsIn bits v ∧ FitsIn bits (upper - 1 - v)

instance (bits : ℕ) (v upper : Fr) : Decidable (AssertInRange bits v upper) :=
  inferInstanceAs (Decidable (_ ∧ _))

lemma assertInRange_intCast (hupper : upper ≤ 2 ^ bits) (hbits : bits ≤ 252)
    (hlow : 2 ^ bits ≤ a + fieldPrime) (hhigh : a < fieldPrime) :
    AssertInRange bits (a : Fr) (upper : Fr) ↔ 0 ≤ a ∧ a < upper := by
  have hprime := pow_lt_prime_int
  have hpow : (2 : ℤ) ^ bits ≤ 2 ^ 252 := pow_le_pow_right₀ (by norm_num) hbits
  have hrest : (upper : Fr) - 1 - (a : Fr) = ((upper - 1 - a : ℤ) : Fr) := by push_cast; rfl
  zify at hupper
  unfold AssertInRange
  rw [hrest, fitsIn_intCast hlow hhigh]
  constructor
  · rintro ⟨ha, hfits⟩
    have := (fitsIn_intCast (by linarith) (by linarith)).1 hfits
    omega
  · rintro ⟨hnonn, hlt⟩
    exact ⟨⟨hnonn, by omega⟩, (fitsIn_intCast (by linarith) (by linarith)).2 (by omega)⟩

lemma assertInRange_iff (hupper : upper ≤ 2 ^ bits) (hbits : bits ≤ 252) (v : Fr) :
    AssertInRange bits v upper ↔ v.val < upper := by
  have hprime := pow_lt_prime_int
  have hpow : (2 : ℤ) ^ bits ≤ 2 ^ 252 := pow_le_pow_right₀ (by norm_num) hbits
  have hrange (hv : v.val < 2 ^ bits) : AssertInRange bits v upper ↔ v.val < upper := by
    rw [← intCast_val v, assertInRange_intCast hupper hbits (by linarith) (by linarith),
      intCast_val]
    omega
  exact ⟨fun h => (hrange h.1).1 h, fun h => (hrange (by omega)).2 h⟩

/-! ### Coefficients -/

/-- Coefficients in `[-lower, upper]`. -/
def RangeCheck2Bounds {n : ℕ} (bit : ℕ) (upper lower : Fr) (c : Fin n → Fr) : Prop :=
  ∀ i, FitsIn (bit + 1) (c i + lower) ∧ FitsIn (bit + 1) (lower + upper - (c i + lower))

lemma RangeCheck2Bounds.bounds (h : RangeCheck2Bounds bit upper lower c) (hbit : bit ≤ 250)
    (hupper : 2 * upper < fieldPrime) (hlower : 2 * lower < fieldPrime) (i : Fin n) :
    -(lower : ℤ) ≤ signed (c i) ∧ signed (c i) ≤ upper := by
  have hprime := pow_lt_prime_int
  have hpow : (2 : ℤ) ^ (bit + 1) ≤ 2 ^ 251 := pow_le_pow_right₀ (by norm_num) (by omega)
  obtain ⟨hlow, hhigh⟩ := h i
  zify at hupper hlower
  -- The shifted coefficient is small, and so is its distance to the end of the interval.
  obtain ⟨a, hshif, hsmall⟩ : ∃ a : ℤ, c i + lower = (a : Fr) ∧ 0 ≤ a ∧ a < 2 ^ (bit + 1) :=
    ⟨_, (intCast_val _).symm, Int.natCast_nonneg _, mod_cast (id hlow : ZMod.val _ < _)⟩
  have hrest : (lower + upper - (c i + lower) : Fr) = ((lower + upper - a : ℤ) : Fr) := by
    rw [hshif]
    push_cast
    rfl
  rw [hrest, fitsIn_intCast (by linarith) (by linarith)] at hhigh
  have hc : c i = ((a - lower : ℤ) : Fr) := by
    rw [eq_sub_of_add_eq hshif]
    push_cast
    rfl
  have habs : 2 * |a - lower| < fieldPrime := by
    rcases abs_cases (a - lower) with h | h <;> linarith
  rw [hc, signed_intCast habs]
  omega

lemma rangeCheck2Bounds_of_bounds (hbit : bit ≤ 250) (hwidth : lower + upper < 2 ^ (bit + 1))
    (h : ∀ i, -(lower : ℤ) ≤ signed (c i) ∧ signed (c i) ≤ upper) :
    RangeCheck2Bounds bit upper lower c := by
  have hprime := pow_lt_prime_int
  have hpow : (2 : ℤ) ^ (bit + 1) ≤ 2 ^ 251 := pow_le_pow_right₀ (by norm_num) (by omega)
  zify at hwidth
  intro i
  obtain ⟨hlow, hhigh⟩ := h i
  have hshif : c i + lower = ((signed (c i) + lower : ℤ) : Fr) := by push_cast; simp
  have hrest : (lower + upper - (c i + lower) : Fr) = ((upper - signed (c i) : ℤ) : Fr) := by
    push_cast
    rw [intCast_signed]
    ring
  rw [hrest, hshif, fitsIn_intCast (by linarith) (by linarith),
    fitsIn_intCast (by linarith) (by linarith)]
  omega

/-- Coefficients in `[0, upper)`. -/
def RangeCheckStandard {n : ℕ} (bit : ℕ) (upper : Fr) (c : Fin n → Fr) : Prop :=
  ∀ i, AssertInRange bit (c i) upper

/-! ### Division -/

/-- `(q - 1) / 2` in the field. -/
def half (q : Fr) : Fr := (q - 1) * ((2 : ℕ) : Fr)⁻¹

lemma half_natCast {q : ℕ} (hodd : Odd q) : half q = (((q - 1) / 2 : ℕ) : Fr) := by
  obtain ⟨m, rfl⟩ := hodd
  have htwo : ((2 : ℕ) : Fr) * ((2 : ℕ) : Fr)⁻¹ = 1 :=
    ZMod.coe_mul_inv_eq_one 2 (by decide +kernel)
  have hm : ((2 * m + 1 : ℕ) : Fr) - 1 = (m : Fr) * ((2 : ℕ) : Fr) := by push_cast; ring
  unfold half
  rw [hm, mul_assoc, htwo, mul_one]
  congr
  omega

/-- `x as u64`. -/
def asU64 (x : Fr) : ℕ := x.val % 2 ^ 64

lemma asU64_natCast (h : n < 2 ^ 64) : asU64 n = n := by
  unfold asU64
  rw [ZMod.val_natCast_of_lt (h.trans (by norm_num [fieldPrime])), Nat.mod_eq_of_lt h]

/-- `ModU64::assert_zero_mod_bounded`, with the hinted quotient. -/
def AssertZeroModBounded (bits m : ℕ) (quotient n : Fr) : Prop :=
  FitsIn bits quotient ∧ quotient * (m : Fr) = n

/-- `ModU64::assert_zero_mod`. The hint has 64 bits. -/
def AssertZeroMod (m : ℕ) (quotient : Fin (2 ^ 64)) (n : Fr) : Prop :=
  ((quotient.val : ℕ) : Fr) * (m : Fr) = n

end Interfold.Circuits
