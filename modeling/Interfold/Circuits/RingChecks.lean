import Interfold.Circuits.ScalarField
import Interfold.Circuits.ShareEncryption

/-!
# Ring identities at one point

C1, C3 and C6 check an identity modulo `q_l` and `X ^ N + 1` at a single point. The range checks
keep both sides of the identity small, so a wrong identity holds at fewer than `N` points.
-/

namespace Interfold.Circuits

open Negacyclic
open Polynomial hiding eval

variable {N L : ℕ}

/-! ### The circuits -/

/-- C1: the key of a dealer. `a` is the common reference polynomial, a constant of the circuit. -/
structure PkGeneration (N L : ℕ) where
  qis : Fin L → ℕ
  eekBound : ℕ
  skBound : ℕ
  eSmBound : ℕ
  eSmLimbBounds : Fin L → ℕ
  eSmQuotientBounds : Fin L → ℕ
  rBounds : Fin L → ℕ
  bitEek : Width
  bitSk : Width
  bitESm : Width
  bitESmLifted : ℕ
  bitESmQuotient : ℕ
  bitR : Width
  bitPk : Width
  a : Limbs L N
  eek : Fin N → Fr
  sk : Fin N → Fr
  eSm : Limbs L N
  eSmLifted : Fin N → Fr
  eSmQuotients : Limbs L N
  r : Limbs L N
  pk0 : Limbs L N

structure PkGeneration.PerformRangeChecks (c : PkGeneration N L) : Prop where
  eek : RangeCheck2Bounds c.bitEek.bit c.eekBound c.eekBound c.eek
  sk : RangeCheck2Bounds c.bitSk.bit c.skBound c.skBound c.sk
  eSmLifted : RangeCheck2Bounds c.bitESmLifted c.eSmBound c.eSmBound c.eSmLifted
  pk0 : ∀ i, RangeCheck2Bounds c.bitPk.bit (half (c.qis i)) (half (c.qis i)) (c.pk0 i)
  eSm : ∀ i, RangeCheck2Bounds c.bitESm.bit (c.eSmLimbBounds i) (c.eSmLimbBounds i) (c.eSm i)
  eSmQuotients : ∀ i, RangeCheck2Bounds c.bitESmQuotient (c.eSmQuotientBounds i)
    (c.eSmQuotientBounds i) (c.eSmQuotients i)
  r : ∀ i, RangeCheck2Bounds c.bitR.bit (c.rBounds i) (c.rBounds i) (c.r i)

/-- The assertion for one modulus. -/
def PkGeneration.VerifyEvaluations (c : PkGeneration N L) (gamma : Fr) (i : Fin L) : Prop :=
  eval (fun j => c.pk0 i j - c.eek j - c.qis i * c.r i j) gamma = -dot (c.a i) (kernel c.sk gamma)

/-- C6: a decryption share. -/
structure ShareDecryption (N L : ℕ) where
  qis : Fin L → ℕ
  rBounds : Fin L → ℕ
  bitCt : Width
  bitSk : Width
  bitESm : Width
  bitR : Width
  bitD : Width
  ct0 : Limbs L N
  ct1 : Limbs L N
  sk : Limbs L N
  eSm : Limbs L N
  r : Limbs L N
  d : Limbs L N

/-- The range check of `r`, and the asserts of the checked openings and of the transcript. -/
structure ShareDecryption.Checks (c : ShareDecryption N L) : Prop where
  sk : PayloadChecked c.bitSk c.sk
  eSm : PayloadChecked c.bitESm c.eSm
  ct0 : PayloadChecked c.bitCt c.ct0
  ct1 : PayloadChecked c.bitCt c.ct1
  r : ∀ i, RangeCheck2Bounds c.bitR.bit (c.rBounds i) (c.rBounds i) (c.r i)
  d : PayloadChecked c.bitD c.d

def ShareDecryption.VerifyDecryptionShareComputation (c : ShareDecryption N L) (gamma : Fr)
    (i : Fin L) : Prop :=
  eval (fun j => c.d i j - c.ct0 i j - c.eSm i j - c.qis i * c.r i j) gamma =
    dot (c.ct1 i) (kernel (c.sk i) gamma)

/-! ### The relations -/

/-- The integer polynomial of a coefficient array. -/
noncomputable def lift (c : Fin N → Fr) : ℤ[X] := ofCoeffs fun i => signed (c i)

/-- The left side of `pk0 = -a * sk + eek`, after all terms were moved there. -/
noncomputable def PkGeneration.relation (c : PkGeneration N L) (i : Fin L) : ℤ[X] :=
  lift c.eek - lift (c.pk0 i) - lift (c.a i) * lift c.sk

noncomputable def ShareDecryption.relation (c : ShareDecryption N L) (i : Fin L) : ℤ[X] :=
  lift (c.d i) - lift (c.ct0 i) - lift (c.eSm i) - lift (c.ct1 i) * lift (c.sk i)

section

variable (c : ShareEncryption N L)

noncomputable def ShareEncryption.relation0 (k1 : Fin N → Fr) (i : Fin L) : ℤ[X] :=
  lift (c.ct0is i) - lift c.e0 - (c.k0is i : ℤ[X]) * lift k1 - lift (c.pk0is i) * lift c.u

noncomputable def ShareEncryption.relation1 (i : Fin L) : ℤ[X] :=
  lift (c.ct1is i) - lift c.e1 - lift (c.pk1is i) * lift c.u

/-! ### The size of the terms -/

/-- A bound on the integer coefficients of the identity, `a` being at most `aBound`. -/
def PkGeneration.termBound (c : PkGeneration N L) (aBound : ℕ) (i : Fin L) : ℕ :=
  c.eekBound + (half (c.qis i)).val + c.qis i * c.rBounds i + N * (aBound * c.skBound)

def ShareDecryption.termBound (c : ShareDecryption N L) (i : Fin L) : ℕ :=
  c.bitD.radix + c.bitCt.radix + c.bitESm.radix + c.qis i * c.rBounds i +
    N * (c.bitCt.radix * c.bitSk.radix)

def ShareEncryption.termBound0 (i : Fin L) : ℕ :=
  c.pkBounds i + c.e0Bound + c.k0is i * asU64 c.t +
    c.qis i * c.ct0RBounds i + N * (c.pkBounds i * c.uBound)

def ShareEncryption.termBound1 (i : Fin L) : ℕ :=
  c.pkBounds i + c.e1Bound + c.qis i * c.ct1RBounds i + N * (c.pkBounds i * c.uBound)

end

/-! ### One point -/

lemma ofCoeffs_sub (c c' : Fin N → ℤ) :
    ofCoeffs (fun i => c i - c' i) = ofCoeffs c - ofCoeffs c' := by
  simp [ofCoeffs, sub_mul, Finset.sum_sub_distrib]

lemma ofCoeffs_mul (q : ℤ) (c : Fin N → ℤ) : ofCoeffs (fun i => q * c i) = C q * ofCoeffs c := by
  simp [ofCoeffs, Finset.mul_sum, mul_assoc]

/-- What the check of a residual at one point shows about the integers behind it. -/
lemma residual_check {q A B U : ℕ} (s r : Fin N → ℤ) (residual a u : Fin N → Fr)
    (hresid : ∀ i, residual i = ((s i - q * r i : ℤ) : Fr)) (hs : ∀ i, |s i - q * r i| ≤ B)
    (ha : ∀ i, |signed (a i)| ≤ A) (hu : ∀ i, |signed (u i)| ≤ U)
    (hsmall : B + N * (A * U) < fieldPrime) : (¬ IsZeroModulo q N (ofCoeffs s - lift a * lift u) →
      {x | eval residual x = dot a (kernel u x)}.encard ≤ (N - 1 : ℕ)) ∧
    (X ^ N + 1 ∣ ofCoeffs s - lift a * lift u - C (q : ℤ) * ofCoeffs r →
      ∀ x, eval residual x = dot a (kernel u x)) := by
  have hiff (x : Fr) : eval residual x = dot a (kernel u x) ↔
      HoldsAt fieldPrime (fun i => s i - q * r i) (fun i => signed (a i))
        (fun i => signed (u i)) x := by
    have heq : residual = fun i => ((s i - q * r i : ℤ) : Fr) := funext hresid
    simp only [HoldsAt, intCast_signed, ← heq]
  simp only [hiff]
  constructor
  · intro hne
    have := Fact.mk prime_fieldPrime
    exact encard_le_of_nonzero (by omega) (by omega) (by omega) hs ha hu
      (by exact_mod_cast hsmall) hne
  · intro hdvd x
    apply holdsAt_of_dvd
    rw [ofCoeffs_sub, ofCoeffs_mul, sub_right_comm]
    exact hdvd

/-- A bound above half the prime is none, but every element is at most half of it. -/
lemma RangeCheck2Bounds.abs_signed_le {w : Width} {b : ℕ} {c : Fin N → Fr}
    (h : RangeCheck2Bounds w.bit b b c) (i : Fin N) : |signed (c i)| ≤ b := by
  have hbit := Width.bit_le (w := w)
  by_cases hb : 2 * b < fieldPrime
  · exact abs_le.2 (h.bounds (by omega) hb hb i)
  · have hhalf := ZMod.natAbs_valMinAbs_le (c i)
    rw [Int.abs_eq_natAbs]
    unfold signed
    omega

lemma PayloadChecked.abs_signed_le (h : PayloadChecked w polys) (j : Fin L) (i : Fin N) :
    |signed (polys j i)| ≤ w.radix := by
  have hdigit : (polys j i + w.base : Fr).val < w.radix := h.digit j i
  have hradix := Width.radix_eq (w := w)
  have hbase : w.base ≤ 2 ^ 123 := Nat.pow_le_pow_right (by norm_num) Width.nibbleBits_le
  have hprime := pow_lt_prime
  have hvalue : polys j i = (((polys j i + w.base : Fr).val - w.base : ℤ) : Fr) := by
    rw [Int.cast_sub, intCast_val]
    simp
  have habs : |((polys j i + w.base : Fr).val - w.base : ℤ)| ≤ w.radix := by
    rw [abs_le]
    omega
  rw [hvalue, signed_intCast (by omega)]
  exact habs

/-! ### Soundness and completeness -/

lemma abs_sub_le_add {x y : ℤ} {A B : ℕ} (hx : |x| ≤ A) (hy : |y| ≤ B) :
    |x - y| ≤ ((A + B : ℕ) : ℤ) := by
  push_cast
  exact (abs_sub x y).trans (add_le_add hx hy)

lemma abs_mul_le {r : ℤ} {R : ℕ} (q : ℕ) (hr : |r| ≤ R) : |(q : ℤ) * r| ≤ ((q * R : ℕ) : ℤ) := by
  rw [abs_mul, Nat.abs_cast, Nat.cast_mul]
  exact mul_le_mul_of_nonneg_left hr (by omega)

lemma eval_neg (c : Fin N → Fr) (x : Fr) : eval (fun i => -c i) x = -eval c x := by
  simp [eval_eq, ofCoeffs, Polynomial.eval_finsetSum]

lemma PkGeneration.check (c : PkGeneration N L) (hchecks : c.PerformRangeChecks) {aBound : ℕ}
    {i : Fin L} (ha : ∀ j, |signed (c.a i j)| ≤ aBound)
    (hsmall : 2 * c.termBound aBound i < fieldPrime) : (¬ IsZeroModulo (c.qis i) N (c.relation i) →
      {x | c.VerifyEvaluations x i}.encard ≤ (N - 1 : ℕ)) ∧
    (X ^ N + 1 ∣ c.relation i + C (c.qis i : ℤ) * lift (c.r i) → ∀ x, c.VerifyEvaluations x i) := by
  have hiff (x : Fr) : c.VerifyEvaluations x i ↔
      eval (fun j => -(c.pk0 i j - c.eek j - c.qis i * c.r i j)) x =
        dot (c.a i) (kernel c.sk x) := by
    rw [VerifyEvaluations, eval_neg, neg_eq_iff_eq_neg]
  have hpk : RangeCheck2Bounds c.bitPk.bit ((half (c.qis i)).val : ℕ) ((half (c.qis i)).val : ℕ)
      (c.pk0 i) := by
    rw [ZMod.natCast_zmod_val]
    exact hchecks.pk0 i
  have hcheck := residual_check (fun j => signed (c.eek j) - signed (c.pk0 i j))
    (fun j => -signed (c.r i j)) _ (c.a i) c.sk
    (fun j => (by push_cast [intCast_signed]; ring : -(c.pk0 i j - c.eek j - c.qis i * c.r i j) =
      ((signed (c.eek j) - signed (c.pk0 i j) - c.qis i * -signed (c.r i j) : ℤ) : Fr)))
    (fun j => abs_sub_le_add (abs_sub_le_add (hchecks.eek.abs_signed_le j)
      (hpk.abs_signed_le j)) (abs_mul_le (c.qis i)
        ((abs_neg _).trans_le ((hchecks.r i).abs_signed_le j)))) ha
    hchecks.sk.abs_signed_le (by unfold termBound at hsmall; omega)
  simp only [hiff]
  rw [ofCoeffs_sub] at hcheck
  refine ⟨hcheck.1, fun hdvd => hcheck.2 ?_⟩
  have hneg : ofCoeffs (fun j => -signed (c.r i j)) = -lift (c.r i) := by
    simp [ofCoeffs, lift]
  rw [hneg, mul_neg, sub_neg_eq_add]
  exact hdvd

lemma ShareDecryption.check (c : ShareDecryption N L) (hchecks : c.Checks) {i : Fin L}
    (hsmall : 2 * c.termBound i < fieldPrime) : (¬ IsZeroModulo (c.qis i) N (c.relation i) →
      {x | c.VerifyDecryptionShareComputation x i}.encard ≤ (N - 1 : ℕ)) ∧
    (X ^ N + 1 ∣ c.relation i - C (c.qis i : ℤ) * lift (c.r i) →
      ∀ x, c.VerifyDecryptionShareComputation x i) := by
  have hcheck := residual_check
    (fun j => signed (c.d i j) - signed (c.ct0 i j) - signed (c.eSm i j))
    (fun j => signed (c.r i j)) _ (c.ct1 i) (c.sk i)
    (fun j => (by push_cast [intCast_signed]; rfl :
      c.d i j - c.ct0 i j - c.eSm i j - c.qis i * c.r i j = ((signed (c.d i j) -
        signed (c.ct0 i j) - signed (c.eSm i j) - c.qis i * signed (c.r i j) : ℤ) : Fr)))
    (fun j => abs_sub_le_add (abs_sub_le_add (abs_sub_le_add (hchecks.d.abs_signed_le i j)
      (hchecks.ct0.abs_signed_le i j)) (hchecks.eSm.abs_signed_le i j))
      (abs_mul_le (c.qis i) ((hchecks.r i).abs_signed_le j)))
    (hchecks.ct1.abs_signed_le i) (hchecks.sk.abs_signed_le i)
    (by unfold termBound at hsmall; omega)
  rw [ofCoeffs_sub, ofCoeffs_sub] at hcheck
  exact hcheck

section

variable (c : ShareEncryption N L) (hchecks : c.CheckRangeBounds)
  (hquotients : c.CheckQuotientBounds) {hints : Fin N → Fin (2 ^ 64)}
  (hscaled : c.ScaledMessageChecks hints) {i : Fin L}

include hchecks hquotients

lemma ShareEncryption.check1 (hsmall : 2 * c.termBound1 i < fieldPrime) :
    (¬ IsZeroModulo (c.qis i) N (c.relation1 i) →
      {x | eval (c.ct1Residual i) x = dot (c.pk1is i) (kernel c.u x)}.encard ≤ (N - 1 : ℕ)) ∧
    (X ^ N + 1 ∣ c.relation1 i - C (c.qis i : ℤ) * lift (c.ct1R i) →
      ∀ x, eval (c.ct1Residual i) x = dot (c.pk1is i) (kernel c.u x)) := by
  have hcheck := residual_check (fun j => signed (c.ct1is i j) - signed (c.e1 j))
    (fun j => signed (c.ct1R i j)) (c.ct1Residual i) (c.pk1is i) c.u
    (fun j => by simp [ct1Residual])
    (fun j => abs_sub_le_add (abs_sub_le_add ((hchecks.ct1is i).abs_signed_le j)
      (hchecks.e1.abs_signed_le j))
      (abs_mul_le (c.qis i) ((hquotients.ct1R i).abs_signed_le j)))
    (hchecks.pk1is i).abs_signed_le hchecks.u.abs_signed_le
    (by unfold termBound1 at hsmall; omega)
  rw [ofCoeffs_sub] at hcheck
  exact hcheck

include hscaled

lemma ShareEncryption.check0 (hsmall : 2 * c.termBound0 i < fieldPrime) :
    (¬ IsZeroModulo (c.qis i) N (c.relation0 (c.scaledMessage hints) i) →
      {x | eval (c.ct0Residual (c.scaledMessage hints) i) x =
        dot (c.pk0is i) (kernel c.u x)}.encard ≤ (N - 1 : ℕ)) ∧
    (X ^ N + 1 ∣ c.relation0 (c.scaledMessage hints) i - C (c.qis i : ℤ) * lift (c.ct0R i) →
      ∀ x, eval (c.ct0Residual (c.scaledMessage hints) i) x = dot (c.pk0is i) (kernel c.u x)) := by
  have hk1 (j : Fin N) : |signed (c.scaledMessage hints j)| ≤ asU64 c.t := by
    have hlt := (hscaled j).2
    have ht : asU64 c.t < 2 ^ 64 := Nat.mod_lt _ (by norm_num)
    have hprime := pow_lt_prime
    rw [scaledMessage, ← Int.cast_natCast, signed_intCast]
    · rw [Nat.abs_cast]
      exact_mod_cast hlt.le
    · rw [Nat.abs_cast]
      omega
  have hcheck := residual_check (fun j => signed (c.ct0is i j) - signed (c.e0 j) -
      c.k0is i * signed (c.scaledMessage hints j))
    (fun j => signed (c.ct0R i j)) (c.ct0Residual (c.scaledMessage hints) i) (c.pk0is i) c.u
    (fun j => by simp [ct0Residual])
    (fun j => abs_sub_le_add (abs_sub_le_add (abs_sub_le_add ((hchecks.ct0is i).abs_signed_le j)
      (hchecks.e0.abs_signed_le j)) (abs_mul_le (c.k0is i) (hk1 j)))
      (abs_mul_le (c.qis i) ((hquotients.ct0R i).abs_signed_le j)))
    (hchecks.pk0is i).abs_signed_le hchecks.u.abs_signed_le
    (by unfold termBound0 at hsmall; omega)
  rw [ofCoeffs_sub, ofCoeffs_sub, ofCoeffs_mul] at hcheck
  exact hcheck

end

/-- A wrong identity of C1, C3 or C6 holds at fewer than `N` points, a right one at all of them. -/
theorem single_point_checks (N L : ℕ) :
    (∀ (c : PkGeneration N L) (aBound : ℕ) (i : Fin L), c.PerformRangeChecks →
      (∀ j, |signed (c.a i j)| ≤ aBound) → 2 * c.termBound aBound i < fieldPrime →
      (¬ IsZeroModulo (c.qis i) N (c.relation i) →
        {x | c.VerifyEvaluations x i}.encard ≤ (N - 1 : ℕ)) ∧
      (X ^ N + 1 ∣ c.relation i + C (c.qis i : ℤ) * lift (c.r i) → ∀ x, c.VerifyEvaluations x i)) ∧
    (∀ (c : ShareEncryption N L) (hints : Fin N → Fin (2 ^ 64)) (i : Fin L), c.CheckRangeBounds →
      c.CheckQuotientBounds → c.ScaledMessageChecks hints → 2 * c.termBound0 i < fieldPrime →
      2 * c.termBound1 i < fieldPrime →
      (¬ (IsZeroModulo (c.qis i) N (c.relation0 (c.scaledMessage hints) i) ∧
          IsZeroModulo (c.qis i) N (c.relation1 i)) →
        {x | c.VerifyEvaluations x (c.scaledMessage hints) i}.encard ≤ (N - 1 : ℕ)) ∧
      (X ^ N + 1 ∣ c.relation0 (c.scaledMessage hints) i - C (c.qis i : ℤ) * lift (c.ct0R i) →
        X ^ N + 1 ∣ c.relation1 i - C (c.qis i : ℤ) * lift (c.ct1R i) →
        ∀ x, c.VerifyEvaluations x (c.scaledMessage hints) i)) ∧
    ∀ (c : ShareDecryption N L) (i : Fin L), c.Checks → 2 * c.termBound i < fieldPrime →
      (¬ IsZeroModulo (c.qis i) N (c.relation i) →
        {x | c.VerifyDecryptionShareComputation x i}.encard ≤ (N - 1 : ℕ)) ∧
      (X ^ N + 1 ∣ c.relation i - C (c.qis i : ℤ) * lift (c.r i) →
        ∀ x, c.VerifyDecryptionShareComputation x i) := by
  refine ⟨fun c aBound i hchecks ha => c.check hchecks ha, ?_, fun c i hchecks => c.check hchecks⟩
  intro c hints i hchecks hquotients hscaled hsmall0 hsmall1
  have hcheck0 := c.check0 hchecks hquotients hscaled hsmall0
  have hcheck1 := c.check1 hchecks hquotients hsmall1
  refine ⟨fun hne => ?_, fun h0 h1 x => ⟨hcheck0.2 h0 x, hcheck1.2 h1 x⟩⟩
  rcases not_and_or.1 hne with hne | hne
  · exact (Set.encard_le_encard fun x hx => hx.1).trans (hcheck0.1 hne)
  · exact (Set.encard_le_encard fun x hx => hx.2).trans (hcheck1.1 hne)

end Interfold.Circuits
