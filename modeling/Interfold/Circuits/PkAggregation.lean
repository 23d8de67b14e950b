import Mathlib.Algebra.BigOperators.Fin
import Interfold.Circuits.Commitments

/-!
# Aggregating the public keys

C5 opens the key of every dealer from the commitment that C1 made and checks that the aggregate is
their sum modulo every `q_l`. The keys carry no range check of their own: the checked opening
transfers the bound of C1 to them.
-/

namespace Interfold.Circuits

variable {N H L : ℕ}

structure PkAggregation (N H L : ℕ) where
  qis : Fin L → ℕ
  bitPk : Width
  crp : Limbs L N
  expectedThresholdPkCommitments : Fin H → Fr
  pk0 : Fin H → Limbs L N
  pk0Agg : Limbs L N

namespace PkAggregation

def sumBitCarry : ℕ := 8

/-- The term that `q_l` divides. -/
def delta (c : PkAggregation N H L) (l : Fin L) (i : Fin N) : Fr :=
  let q : Fr := c.qis l
  ∑ h, (c.pk0 h l i + half q) + (H : Fr) * q - c.pk0Agg l i - (H : Fr) * half q

/-- The checks of `execute`, with the quotients that the prover hints. -/
structure Execute (sponge : Sponge) (c : PkAggregation N H L) (hints : Fin L → Fin N → Fr) :
    Prop where
  ranges : ∀ l, RangeCheck2Bounds c.bitPk.bit (half (c.qis l)) (half (c.qis l)) (c.pk0Agg l)
  commitments : ∀ h, PayloadChecked c.bitPk (c.pk0 h) ∧
    sponge .pkGeneration (payload c.bitPk (c.pk0 h)) = c.expectedThresholdPkCommitments h
  committee : 0 < L → H ≤ 128
  sums : ∀ l i, AssertZeroModBounded sumBitCarry (asU64 (c.qis l)) (hints l i) (c.delta l i)

/-- The returned commitment, to the aggregate and the common reference polynomial. -/
def output (sponge : Sponge) (c : PkAggregation N H L) : Fr :=
  sponge .pkAggregation [sponge .pkAggregation (payload c.bitPk c.pk0Agg),
    sponge .pkAggregation (payload c.bitPk c.crp)]

/-- The keys as C1 commits to them, after its range checks. -/
structure Committed (sponge : Sponge) (c : PkAggregation N H L) (keys : Fin H → Limbs L N) :
    Prop where
  ranges : ∀ h l, RangeCheck2Bounds c.bitPk.bit (half (c.qis l)) (half (c.qis l)) (keys h l)
  commitments : ∀ h,
    c.expectedThresholdPkCommitments h = sponge .pkGeneration (payload c.bitPk (keys h))

/-- Odd moduli of at most 62 bits whose residues fit the width of the keys. -/
structure Moduli (c : PkAggregation N H L) : Prop where
  odd : ∀ l, Odd (c.qis l)
  lt : ∀ l, c.qis l < 2 ^ 62
  width : ∀ l, (c.qis l - 1) / 2 < 2 ^ c.bitPk.bit

section

variable {c : PkAggregation N H L} {keys : Fin H → Limbs L N}

lemma centered_iff (hq : c.Moduli) (l : Fin L) (v : Fin N → Fr) :
    RangeCheck2Bounds c.bitPk.bit (half (c.qis l)) (half (c.qis l)) v ↔
      ∀ i, |signed (v i)| ≤ (c.qis l - 1) / 2 := by
  have hbit := Width.bit_le (w := c.bitPk)
  have hodd := hq.odd l
  have hwidth := hq.width l
  have hlt := hq.lt l
  have hprime := pow_lt_prime
  obtain ⟨m, hm⟩ := hodd
  have hcast : ((c.qis l : ℤ) - 1) / 2 = ((c.qis l - 1) / 2 : ℕ) := by omega
  rw [half_natCast ⟨m, hm⟩, hcast]
  constructor
  · intro h i
    exact abs_le.2 (h.bounds (by omega) (by omega) (by omega) i)
  · intro h
    exact rangeCheck2Bounds_of_bounds (by omega) (by omega) fun i => abs_le.1 (h i)

lemma delta_eq (hopen : c.pk0 = keys) (l : Fin L) (i : Fin N) : c.delta l i =
    ((∑ h, signed (keys h l i) + H * c.qis l - signed (c.pk0Agg l i) : ℤ) : Fr) := by
  subst hopen
  unfold delta
  push_cast
  simp only [intCast_signed, Finset.sum_add_distrib, Finset.sum_const, Finset.card_univ,
    Fintype.card_fin, nsmul_eq_mul]
  ring

lemma abs_sum_le (hkeys : ∀ h l i, |signed (keys h l i)| ≤ (c.qis l - 1) / 2)
    (l : Fin L) (i : Fin N) : |∑ h, signed (keys h l i)| ≤ H * ((c.qis l - 1) / 2) := by
  refine (Finset.abs_sum_le_sum_abs _ _).trans ?_
  refine (Finset.sum_le_card_nsmul _ _ _ fun h _ => hkeys h l i).trans ?_
  simp

/-- The hinted quotient shows that the aggregate is the centered sum, and there is one for it. -/
lemma sum_iff (hq : c.Moduli) (hH : H ≤ 128) (hopen : c.pk0 = keys)
    (hkeys : ∀ h l i, |signed (keys h l i)| ≤ (c.qis l - 1) / 2)
    (hagg : |signed (c.pk0Agg l i)| ≤ (c.qis l - 1) / 2) :
    (∃ quotient, AssertZeroModBounded sumBitCarry (asU64 (c.qis l)) quotient (c.delta l i)) ↔
      signed (c.pk0Agg l i) ≡ ∑ h, signed (keys h l i) [ZMOD c.qis l] := by
  have hlt := hq.lt l
  have hprime := pow_lt_prime_int
  obtain ⟨m, hm⟩ := hq.odd l
  have hsum := abs_le.1 (abs_sum_le hkeys l i)
  have hbnds := abs_le.1 hagg
  have hhalf : ((c.qis l : ℤ) - 1) / 2 = m := by omega
  rw [hhalf] at hsum hbnds
  rw [asU64_natCast (by omega), delta_eq hopen]
  generalize ∑ h, signed (keys h l i) = sum at hsum ⊢
  generalize signed (c.pk0Agg l i) = agg at hbnds ⊢
  have hqm : (c.qis l : ℤ) = 2 * m + 1 := by omega
  have hHm : (H : ℤ) * m ≤ 128 * m := mul_le_mul_of_nonneg_right (by omega) (by omega)
  unfold AssertZeroModBounded sumBitCarry
  rw [Int.modEq_iff_dvd]
  constructor
  · rintro ⟨quotient, hfits, heq⟩
    have hfits' : quotient.val < 256 := hfits
    have hmul : (quotient.val : ℤ) * m ≤ 256 * m :=
      mul_le_mul_of_nonneg_right (by omega) (by omega)
    have hmul' : 0 ≤ (quotient.val : ℤ) * m := by positivity
    rw [← intCast_val quotient, ← Int.cast_natCast (c.qis l), ← Int.cast_mul] at heq
    have hint : (quotient.val : ℤ) * c.qis l = sum + H * c.qis l - agg := by
      apply eq_of_intCast_eq (abs_lt.2 ?_) heq
      rw [hqm]
      constructor <;> nlinarith
    exact ⟨quotient.val - H, by linarith⟩
  · rintro ⟨k, hk⟩
    have hlow : 0 ≤ k + H := by
      by_contra hneg
      have : (k + H + 1) * (c.qis l : ℤ) ≤ 0 := mul_nonpos_of_nonpos_of_nonneg (by omega) (by omega)
      nlinarith
    have hhigh : k + H < 256 := by
      by_contra hbig
      have : 256 * (c.qis l : ℤ) ≤ (k + H) * c.qis l :=
        mul_le_mul_of_nonneg_right (by omega) (by omega)
      nlinarith
    refine ⟨((k + H : ℤ) : Fr), (fitsIn_intCast (by omega) (by omega)).2 ⟨hlow, by omega⟩, ?_⟩
    rw [← Int.cast_natCast (c.qis l), ← Int.cast_mul]
    congr 1
    linarith

end

/-- The representative of `sum` closest to zero, for an odd modulus. -/
def IsCentered (q : ℕ) (sum x : ℤ) : Prop := |x| ≤ ((q : ℤ) - 1) / 2 ∧ x ≡ sum [ZMOD q]

lemma IsCentered.unique (hq : Odd q) (hx : IsCentered q sum x) (hy : IsCentered q sum y) :
    x = y := by
  obtain ⟨m, rfl⟩ := hq
  have hdvd := Int.modEq_iff_dvd.1 (hy.2.trans hx.2.symm)
  have hx' := abs_le.1 hx.1
  have hy' := abs_le.1 hy.1
  have hzero := Int.eq_zero_of_abs_lt_dvd hdvd (by rw [abs_lt]; omega)
  omega

/-- C5 accepts exactly the centered sums of the keys that C1 committed. -/
theorem accepts_centered_sum (sponge : Sponge) (c : PkAggregation N H L) (hq : c.Moduli)
    (hH : H ≤ 128) (keys : Fin H → Limbs L N) (hkeys : c.Committed sponge keys)
    (S : Set (List Fr)) (hinj : Set.InjOn (sponge .pkGeneration) S)
    (hcommitted : ∀ h, payload c.bitPk (keys h) ∈ S)
    (hopened : ∀ h, payload c.bitPk (c.pk0 h) ∈ S) :
    (∃ hints, c.Execute sponge hints) ↔ c.pk0 = keys ∧ ∀ l i,
      IsCentered (c.qis l) (∑ h, signed (keys h l i)) (signed (c.pk0Agg l i)) ∧
      ∀ x, IsCentered (c.qis l) (∑ h, signed (keys h l i)) x → x = signed (c.pk0Agg l i) := by
  have hbound (h : Fin H) (l : Fin L) (i : Fin N) : |signed (keys h l i)| ≤ (c.qis l - 1) / 2 :=
    (centered_iff hq l (keys h l)).1 (hkeys.ranges h l) i
  have hdigit (h : Fin H) (l : Fin L) (i : Fin N) : c.bitPk.Digit (keys h l i) := by
    apply Width.digit_of_bounded ((hbound h l i).trans _)
    have hwidth := hq.width l
    zify at hwidth
    omega
  constructor
  · rintro ⟨hints, haccepts⟩
    have hsame : c.pk0 = keys := by
      funext h
      obtain ⟨hchecked, heq⟩ := haccepts.commitments h
      exact opened_eq hinj (hopened h) (hcommitted h) hchecked.digit (hdigit h)
        (heq.trans (hkeys.commitments h))
    refine ⟨hsame, fun l i => ?_⟩
    have hagg := (centered_iff hq l _).1 (haccepts.ranges l) i
    have hcentered : IsCentered (c.qis l) (∑ h, signed (keys h l i)) (signed (c.pk0Agg l i)) :=
      ⟨hagg, (sum_iff hq hH hsame hbound hagg).1 ⟨_, haccepts.sums l i⟩⟩
    exact ⟨hcentered, fun x hx => hx.unique (hq.odd l) hcentered⟩
  · rintro ⟨hsame, hcentered⟩
    have hsums (l : Fin L) (i : Fin N) :=
      (sum_iff hq hH hsame hbound (hcentered l i).1.1).2 (hcentered l i).1.2
    choose hints hhints using hsums
    refine ⟨hints, ⟨fun l => (centered_iff hq l _).2 fun i => (hcentered l i).1.1, ?_,
      fun _ => hH, hhints⟩⟩
    intro h
    rw [hsame]
    exact ⟨payloadChecked_of_digit (hdigit h), (hkeys.commitments h).symm⟩

end PkAggregation

namespace SampleKeys

def sponge : Sponge := fun _ xs => xs.headD 0

def keys : Fin 2 → Limbs 1 1 := fun _ _ _ => ((2 : ℕ) : Fr)

/-- Two keys modulo 5. -/
def aggregation : PkAggregation 1 2 1 where
  qis := fun _ => 5
  bitPk := ⟨2, by decide, by decide⟩
  crp := fun _ _ => 1
  expectedThresholdPkCommitments := fun h => sponge .pkGeneration (payload ⟨2, by decide, by decide⟩
    (keys h))
  pk0 := keys
  pk0Agg := fun _ _ => -1

end SampleKeys

theorem PkAggregation.accepts_centered_sum_sample :
    ∃ hints, SampleKeys.aggregation.Execute SampleKeys.sponge hints := by
  have hq : SampleKeys.aggregation.Moduli := ⟨by decide, by decide, by decide⟩
  have hcommitted : SampleKeys.aggregation.Committed SampleKeys.sponge SampleKeys.keys :=
    ⟨fun h l => (centered_iff hq l _).2 (by revert h l; decide +kernel), fun h => rfl⟩
  have hinj : Set.InjOn (SampleKeys.sponge .pkGeneration) {xs | xs.length = 1} := by
    intro xs hxs ys hys h
    obtain ⟨x, rfl⟩ := List.length_eq_one_iff.1 hxs
    obtain ⟨y, rfl⟩ := List.length_eq_one_iff.1 hys
    exact congrArg (fun z => [z]) h
  refine (accepts_centered_sum _ SampleKeys.aggregation hq (by decide) SampleKeys.keys hcommitted
    _ hinj (by decide +kernel) (by decide +kernel)).2 ⟨rfl, ?_⟩
  intro l i
  have hsum : ∑ h, signed (SampleKeys.keys h l i) = 4 := by revert l i; decide +kernel
  have hagg : signed (SampleKeys.aggregation.pk0Agg l i) = -1 := by revert l i; decide +kernel
  have hcentered : IsCentered (SampleKeys.aggregation.qis l)
      (∑ h, signed (SampleKeys.keys h l i)) (signed (SampleKeys.aggregation.pk0Agg l i)) := by
    rw [hsum, hagg]
    exact ⟨(by decide : |(-1 : ℤ)| ≤ ((5 : ℕ) - 1 : ℤ) / 2), (by decide : -1 ≡ 4 [ZMOD (5 : ℕ)])⟩
  exact ⟨hcentered, fun x hx => hx.unique (hq.odd l) hcentered⟩

end Interfold.Circuits
