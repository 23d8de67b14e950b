import Interfold.Circuits.RingChecks
import Mathlib.Tactic.LinearCombination

/-!
# The scaled quotient

The configuration of C3 derives constants that fold the `k0 * k1` term of a ciphertext into the
quotient of its identity, and widths for the folded quotients.
-/

namespace Interfold.Circuits

open Negacyclic Nat
open Polynomial hiding eval

variable {N L : ℕ}

/-- The constants for the moduli `0`, ..., `L`. -/
structure ScaledQuotient (L : ℕ) where
  available : Bool
  k : ℕ
  delta : ℕ
  smallD : Fin (L + 1) → ℕ
  alpha : Fin (L + 1) → ℕ
  beta : Fin (L + 1) → ℕ
  zBit : ℕ
  tPowBit : ℕ
  tGap : ℕ
  tGapBit : ℕ
  q0Bit : ℕ
  q0Offset : ℕ
  q0DiffBit : ℕ
  q0DiffOffset : ℕ
  q1Bit : ℕ
  q1Offset : ℕ

namespace ScaledQuotient

def unavailable : ScaledQuotient L :=
  ⟨false, 0, 0, fun _ => 0, fun _ => 0, fun _ => 0, 0, 0, 0, 0, 0, 0, 0, 0, 0, 0⟩

/-- `bits()` of a number. -/
def width (v : ℕ) : ℕ := if v = 0 then 0 else v.log2 + 1

lemma lt_two_pow_width (v : ℕ) : v < 2 ^ width v := by
  unfold width
  split
  · omega
  · exact lt_log2_self

lemma two_pow_width_le (v : ℕ) : 2 ^ width v ≤ 2 * v + 1 := by
  unfold width
  split
  · simp
  · have hself := log2_self_le (n := v) (by assumption)
    rw [pow_succ]
    omega

section

variable (moduli : Fin (L + 1) → ℕ) (t scale : ℕ) (k0is : Fin (L + 1) → ℕ)
  (n uBound e0Bound e1Bound msgBound : ℕ)

def deltaOf : ℕ := (∏ l, moduli l) / t

/-- `delta` divided by the first modulus, rounded to the nearest integer. -/
def kRatio : ℕ :=
  let delta := deltaOf moduli t
  let kFloor := delta / moduli 0
  let kRounded := if moduli 0 ≤ delta % moduli 0 * 2 then kFloor + 1 else kFloor
  if kRounded < 2 ^ 64 then kRounded else 0

def smallDOf (l : Fin (L + 1)) : ℕ := kRatio moduli t * moduli l - deltaOf moduli t

def excursion : ℕ := n * uBound / 2 + 1

def q0Max : ℕ := Finset.univ.sup fun l =>
  let qb := (moduli l - 1) / 2
  (qb + n * qb * uBound + e0Bound + smallDOf moduli t l * (msgBound - 1) + scale) / moduli l

def q1Max : ℕ := Finset.univ.sup fun l =>
  let qb := (moduli l - 1) / 2
  (qb + n * qb * uBound + e1Bound) / moduli l

/-- The largest difference of two quotients, from the first two moduli, and its offset. -/
def q0Diff : ℕ × ℕ :=
  if h : 0 < L then
    let qA := moduli 0
    let qB := moduli ⟨1, by omega⟩
    let sdA : ℤ := smallDOf moduli t 0
    let sdB : ℤ := smallDOf moduli t ⟨1, by omega⟩
    let gap := (sdB * qA - sdA * qB).natAbs
    let spread := gap * (msgBound - 1) / (qA * qB)
    (spread + 2 * excursion n uBound, 2 * excursion n uBound)
  else (0, excursion n uBound)

/-- A modulus that does not admit the constants. -/
def Rejects (l : Fin (L + 1)) : Prop :=
  kRatio moduli t * moduli l ≤ deltaOf moduli t ∨ (k0is l * t + 1) % moduli l ≠ 0 ∨
    (k0is l * scale + smallDOf moduli t l) % moduli l ≠ 0

instance : DecidablePred (Rejects moduli t scale k0is) :=
  fun _ => inferInstanceAs (Decidable (_ ∨ _))

def constants : ScaledQuotient L :=
  let diff := q0Diff moduli t n uBound msgBound
  { available := true
    k := kRatio moduli t % 2 ^ 32
    delta := deltaOf moduli t
    smallD := smallDOf moduli t
    alpha := fun l => (k0is l * scale + smallDOf moduli t l) / moduli l
    beta := fun l => (k0is l * t + 1) / moduli l
    zBit := width scale
    tPowBit := width t - 1
    tGap := t - 2 ^ (width t - 1)
    tGapBit := width (t - 2 ^ (width t - 1))
    q0Bit := width (q0Max moduli t scale n uBound e0Bound msgBound + excursion n uBound)
    q0Offset := excursion n uBound
    q0DiffBit := width (diff.1 + diff.2)
    q0DiffOffset := diff.2
    q1Bit := width (q1Max moduli n uBound e1Bound + excursion n uBound)
    q1Offset := excursion n uBound }

def derive : ScaledQuotient L :=
  if deltaOf moduli t < moduli 0 then unavailable
  else if kRatio moduli t = 0 ∨ kRatio moduli t &&& (kRatio moduli t - 1) ≠ 0 then unavailable
  else if ∃ l, Rejects moduli t scale k0is l then unavailable
  else constants moduli t scale k0is n uBound e0Bound e1Bound msgBound

variable {moduli t scale k0is n uBound e0Bound e1Bound msgBound}

lemma derive_eq
    (h : (derive moduli t scale k0is n uBound e0Bound e1Bound msgBound).available = true) :
    (∀ l, ¬ Rejects moduli t scale k0is l) ∧
      derive moduli t scale k0is n uBound e0Bound e1Bound msgBound =
        constants moduli t scale k0is n uBound e0Bound e1Bound msgBound := by
  unfold derive at h ⊢
  split_ifs at h ⊢ with hdelta hk hrejs
  · cases h
  · cases h
  · cases h
  · exact ⟨fun l hl => hrejs ⟨l, hl⟩, rfl⟩

end

end ScaledQuotient

open ScaledQuotient

namespace ShareEncryption

variable (c : ShareEncryption N (L + 1))

/-- The constants of the configuration of the circuit. -/
def derived : ScaledQuotient L :=
  derive c.qis c.t c.qModT c.k0is N c.uBound c.e0Bound c.e1Bound c.msgBound

/-- The circuit uses the derived constants, for a plaintext modulus of 64 bits. -/
structure Configured : Prop where
  available : c.derived.available = true
  t_pos : 0 < c.t
  t_lt : c.t < 2 ^ 64
  msgBound : c.msgBound = c.t
  msg : c.t ≤ 2 ^ c.bits.msg.bit
  qModT : c.qModT = (∏ l, c.qis l) % c.t
  smallD : c.smallD = c.derived.smallD
  alpha : c.alpha = c.derived.alpha
  beta : c.beta = c.derived.beta
  z : c.bits.z = c.derived.zBit
  q0 : c.bits.q0 = c.derived.q0Bit
  q0Offset : c.q0Offset = c.derived.q0Offset
  q0Diff : c.bits.q0Diff = c.derived.q0DiffBit
  q0DiffOffset : c.q0DiffOffset = c.derived.q0DiffOffset
  q1 : c.bits.q1 = c.derived.q1Bit
  q1Offset : c.q1Offset = c.derived.q1Offset

variable {c}

lemma Configured.derived_eq (h : c.Configured) : c.derived =
    constants c.qis c.t c.qModT c.k0is N c.uBound c.e0Bound c.e1Bound c.msgBound :=
  (derive_eq h.available).2

/-- The identities between the constants of one modulus. -/
structure Folds (c : ShareEncryption N (L + 1)) (i : Fin (L + 1)) : Prop where
  smallD_pos : 0 < c.smallD i
  smallD : (c.smallD i : ℤ) = kRatio c.qis c.t * c.qis i - deltaOf c.qis c.t
  alpha : c.alpha i * c.qis i = c.k0is i * c.qModT + c.smallD i
  beta : c.beta i * c.qis i = c.k0is i * c.t + 1

lemma Configured.smallD_eq (h : c.Configured) : c.smallD = smallDOf c.qis c.t := by
  rw [h.smallD, h.derived_eq]
  rfl

lemma Configured.folds (h : c.Configured) (i : Fin (L + 1)) : c.Folds i := by
  have hrejs := (derive_eq h.available).1 i
  simp only [Rejects, not_or, not_le, not_not] at hrejs
  obtain ⟨hdelta, hbeta, halpha⟩ := hrejs
  have hsmall := h.smallD_eq
  refine ⟨?_, ?_, ?_, ?_⟩
  · rw [hsmall]
    exact Nat.sub_pos_of_lt hdelta
  · rw [hsmall]
    unfold smallDOf
    rw [cast_sub hdelta.le, cast_mul]
  · rw [h.alpha, h.derived_eq, hsmall]
    exact Nat.div_mul_cancel (Nat.dvd_of_mod_eq_zero halpha)
  · rw [h.beta, h.derived_eq]
    exact Nat.div_mul_cancel (Nat.dvd_of_mod_eq_zero hbeta)

/-! ### The carries -/

/-- The carries of the rounded messages. -/
def Carries (c : ShareEncryption N L) : Prop :=
  ∀ j, (c.z j).val = c.qModT * (c.message j).val / c.t

lemma Configured.message_lt (h : c.Configured)
    (hmessage : RangeCheckStandard c.bits.msg.bit c.msgBound c.message) (j : Fin N) :
    (c.message j).val < c.t := by
  have hbit := Width.bit_le (w := c.bits.msg)
  have hj := hmessage j
  rw [h.msgBound] at hj
  exact (assertInRange_iff h.msg (by omega) _).1 hj

lemma Configured.qModT_lt (h : c.Configured) : c.qModT < c.t := by
  rw [h.qModT]
  exact mod_lt _ h.t_pos

lemma Configured.checkRoundingCarries_iff (h : c.Configured)
    (hmessage : ∀ j, (c.message j).val < c.t) : c.CheckRoundingCarries ↔ c.Carries := by
  have hbit := Width.bit_le (w := c.bits.msg)
  have hprime := pow_lt_prime_int
  have hscale := h.qModT_lt
  have ht := h.t_lt
  have hzBit : c.bits.z = width c.qModT := by
    rw [h.z, h.derived_eq]
    rfl
  refine forall_congr' fun j => ?_
  have hm := hmessage j
  have hterm : (c.qModT * c.message j - c.t * c.z j : Fr) =
      ((c.qModT * (c.message j).val - c.t * (c.z j).val : ℤ) : Fr) := by
    push_cast [intCast_val]
    simp
  have hpow : (2 : ℤ) ^ c.bits.msg.bit ≤ 2 ^ 123 := pow_le_pow_right₀ (by norm_num) hbit
  have hproduct : c.qModT * (c.message j).val ≤ 2 ^ 64 * 2 ^ 64 :=
    Nat.mul_le_mul (by omega) (by omega)
  -- A carry within its width makes the difference an integer term.
  have hrange (hz : (c.z j).val ≤ 2 * c.qModT) : AssertInRange c.bits.msg.bit
      (c.qModT * c.message j - c.t * c.z j) c.t ↔
      c.t * (c.z j).val ≤ c.qModT * (c.message j).val ∧
        c.qModT * (c.message j).val < c.t * (c.z j).val + c.t := by
    have hcarry : c.t * (c.z j).val ≤ 2 ^ 64 * 2 ^ 65 :=
      Nat.mul_le_mul (by omega) (by omega)
    have hcarry0 : 0 ≤ c.t * (c.z j).val := zero_le _
    have hproduct0 : 0 ≤ c.qModT * (c.message j).val := zero_le _
    zify at hproduct hcarry hproduct0 hcarry0
    rw [hterm, assertInRange_intCast h.msg (by omega) (by linarith) (by linarith)]
    zify
    constructor
    · rintro ⟨hlow, hhigh⟩
      exact ⟨by linarith, by linarith⟩
    · rintro ⟨hlow, hhigh⟩
      exact ⟨by linarith, by linarith⟩
  constructor
  · rintro ⟨hfits, hassert⟩
    have hz : (c.z j).val < 2 ^ c.bits.z := hfits
    rw [hzBit] at hz
    have hwidth := two_pow_width_le c.qModT
    obtain ⟨hlow, hhigh⟩ := (hrange (by omega)).1 hassert
    exact (Nat.div_eq_of_lt_le (by linarith) (by linarith)).symm
  · intro hcarry
    have hle : (c.z j).val ≤ c.qModT := by
      rw [hcarry]
      exact Nat.div_le_of_le_mul (by rw [mul_comm]; exact Nat.mul_le_mul_right _ hm.le)
    refine ⟨?_, (hrange (by omega)).2 ?_⟩
    · unfold FitsIn
      rw [hzBit]
      exact hle.trans_lt (lt_two_pow_width _)
    · rw [hcarry]
      exact ⟨mul_div_le _ _, lt_mul_div_succ _ h.t_pos⟩

/-! ### The scaled path and the direct path -/

section

variable (c : ShareEncryption N L)

/-- The message as the direct path scales it. -/
def k1 (j : Fin N) : Fr :=
  (c.qModT * (c.message j).val % c.t : ℕ)

/-- The left side of the folded identity, without the quotient. -/
noncomputable def scaledRelation (i : Fin L) : ℤ[X] :=
  lift (c.ct0is i) - lift c.e0 + (c.smallD i : ℤ[X]) * lift c.message - lift c.z -
    lift (c.pk0is i) * lift c.u

/-- The integer polynomial of the combined quotient. -/
noncomputable def combined (i : Fin L) : ℤ[X] :=
  lift (c.ct0R i) + (c.alpha i : ℤ[X]) * lift c.message - (c.beta i : ℤ[X]) * lift c.z

/-- The message scaled by `Q / t`. -/
noncomputable def rounded : ℤ[X] :=
  ofCoeffs fun j => (((∏ l, c.qis l) * (c.message j).val / c.t : ℕ) : ℤ)

/-- What is left of `ct0 = pk0 * u + e0 + floor (Q * m / t)`. -/
noncomputable def scaling (i : Fin L) : ℤ[X] :=
  lift (c.ct0is i) - lift (c.pk0is i) * lift c.u - lift c.e0 - c.rounded

end

/-- Folding the `k0 * k1` term into the quotient, in any ring. -/
lemma Folds.fold_eq {R : Type*} [CommRing R] (h : c.Folds i) (ct e m z r : R) :
    ct - e + c.smallD i * m - z - c.qis i * (r + c.alpha i * m - c.beta i * z) =
      ct - e - c.k0is i * (c.qModT * m - c.t * z) - c.qis i * r := by
  have halpha := congrArg (Nat.cast (R := R)) h.alpha
  have hbeta := congrArg (Nat.cast (R := R)) h.beta
  push_cast at halpha hbeta
  linear_combination -m * halpha + z * hbeta

lemma Configured.scaledMessage_eq (h : c.Configured) (hmessage : ∀ j, (c.message j).val < c.t)
    (hscaled : c.ScaledMessageChecks hints) : c.scaledMessage hints = c.k1 := by
  funext j
  obtain ⟨heq, hlt⟩ := hscaled j
  have hprime := pow_lt_prime
  have ht := h.t_lt
  have hscale := h.qModT_lt
  have hm := hmessage j
  have htU64 : asU64 c.t = c.t := asU64_natCast ht
  unfold scaledMessage k1
  rw [htU64] at heq hlt ⊢
  set r := mulMod c.t c.qModT (c.message j) (hints j)
  have hint := (hints j).isLt
  -- Both sides are integers of at most 129 bits.
  have hleft : (hints j).val * c.t + r < fieldPrime := by
    have : (hints j).val * c.t ≤ 2 ^ 64 * 2 ^ 64 := Nat.mul_le_mul hint.le ht.le
    omega
  have hright : c.qModT * (c.message j).val < fieldPrime := by
    have : c.qModT * (c.message j).val ≤ 2 ^ 64 * 2 ^ 64 :=
      Nat.mul_le_mul (by omega) (by omega)
    omega
  have hcast : (((hints j).val * c.t + r : ℕ) : Fr) = ((c.qModT * (c.message j).val : ℕ) : Fr) := by
    push_cast [ZMod.natCast_zmod_val]
    exact heq
  have hnat := congrArg ZMod.val hcast
  rw [ZMod.val_cast_of_lt hleft, ZMod.val_cast_of_lt hright] at hnat
  rw [← hnat, mul_add_mod', mod_eq_of_lt hlt]

lemma Configured.exists_hints (h : c.Configured)
    (hmessage : ∀ j, (c.message j).val < c.t) : ∃ hints, c.ScaledMessageChecks hints := by
  have ht := h.t_lt
  have htU64 : asU64 c.t = c.t := asU64_natCast ht
  have hquot (j : Fin N) : c.qModT * (c.message j).val / c.t < 2 ^ 64 := by
    refine (Nat.div_lt_of_lt_mul ?_).trans ht
    exact Nat.mul_lt_mul'' h.qModT_lt (hmessage j)
  refine ⟨fun j => ⟨_, hquot j⟩, fun j => ?_⟩
  have hdiv := div_add_mod' (c.qModT * (c.message j).val) c.t
  have hmod : c.qModT * (c.message j).val % c.t < c.t :=
    mod_lt _ h.t_pos
  have hcast : (c.qModT : Fr) * c.message j =
      ((c.qModT * (c.message j).val / c.t : ℕ) : Fr) * (c.t : Fr) +
        ((c.qModT * (c.message j).val % c.t : ℕ) : Fr) := by
    rw [← cast_mul, ← cast_add, hdiv]
    push_cast [ZMod.natCast_zmod_val]
    rfl
  have hrest : mulMod c.t c.qModT (c.message j) ⟨_, hquot j⟩ =
      c.qModT * (c.message j).val % c.t := by
    unfold mulMod
    rw [hcast, add_sub_cancel_left, asU64_natCast (hmod.trans ht)]
  unfold MulModChecks
  rw [htU64, hrest]
  exact ⟨hcast.symm, hmod⟩

lemma natCast_val_eq_signed (hx : x.val < 2 ^ 64) : (x.val : ℤ) = signed x := by
  have hprime := pow_lt_prime
  conv_rhs => rw [← intCast_val x]
  rw [signed_intCast (by rw [abs_cast]; omega)]

lemma Configured.signed_k1 (h : c.Configured) (j : Fin N) :
    signed (c.k1 j) = (c.qModT * (c.message j).val % c.t : ℕ) := by
  have hprime := pow_lt_prime
  have hmod := (mod_lt (c.qModT * (c.message j).val) h.t_pos).trans h.t_lt
  rw [k1, ← Int.cast_natCast, signed_intCast (by rw [abs_cast]; omega)]

lemma Configured.carry_le (h : c.Configured) (hcarries : c.Carries) (j : Fin N) :
    (c.z j).val ≤ (c.message j).val := by
  rw [hcarries j]
  exact Nat.div_le_of_le_mul (Nat.mul_le_mul_right _ h.qModT_lt.le)

lemma k1_eq (hcarries : c.Carries) (j : Fin N) : c.k1 j = c.qModT * c.message j - c.t * c.z j := by
  have hdiv := div_add_mod (c.qModT * (c.message j).val) c.t
  rw [← hcarries j] at hdiv
  have hcast := congrArg (Nat.cast (R := Fr)) hdiv
  push_cast [ZMod.natCast_zmod_val] at hcast
  rw [k1, ← hcast]
  ring

lemma Configured.scaledResidual_eq (h : c.Configured) (hcarries : c.Carries) (i : Fin (L + 1)) :
    c.scaledResidual c.scaledQuotientTerms i = c.ct0Residual c.k1 i := by
  funext j
  unfold scaledResidual scaledQuotientTerms ct0Residual
  rw [k1_eq hcarries]
  exact (h.folds i).fold_eq _ _ _ _ _

section

variable (h : c.Configured) (hmessage : ∀ j, (c.message j).val < c.t) (hcarries : c.Carries)

include h hmessage

lemma Configured.signed_message (j : Fin N) : signed (c.message j) = (c.message j).val :=
  (natCast_val_eq_signed ((hmessage j).trans h.t_lt)).symm

/-- The scaled message is what the scaling by `Q` leaves modulo `t`. -/
lemma Configured.lift_k1_eq : lift c.k1 =
    ((∏ l, c.qis l : ℕ) : ℤ[X]) * lift c.message - (c.t : ℤ[X]) * c.rounded := by
  have hcoeff (j : Fin N) : signed (c.k1 j) = ((∏ l, c.qis l : ℕ) : ℤ) *
      signed (c.message j) - c.t * ((∏ l, c.qis l) * (c.message j).val / c.t : ℕ) := by
    have hdiv := div_add_mod ((∏ l, c.qis l) * (c.message j).val) c.t
    rw [h.signed_k1, h.signed_message hmessage, h.qModT, mod_mul_mod]
    zify at hdiv ⊢
    linarith
  unfold lift rounded
  simp only [hcoeff]
  rw [ofCoeffs_sub, ofCoeffs_mul, ofCoeffs_mul]
  simp

include hcarries

lemma Configured.signed_carry (j : Fin N) : signed (c.z j) = (c.z j).val := by
  have hle := h.carry_le hcarries j
  exact (natCast_val_eq_signed ((hle.trans_lt (hmessage j)).trans h.t_lt)).symm

lemma Configured.signed_k1_eq (j : Fin N) :
    signed (c.k1 j) = c.qModT * signed (c.message j) - c.t * signed (c.z j) := by
  have hdiv := div_add_mod (c.qModT * (c.message j).val) c.t
  rw [h.signed_k1, h.signed_message hmessage, h.signed_carry hmessage hcarries, hcarries j]
  zify at hdiv ⊢
  linarith

lemma Configured.lift_k1 :
    lift c.k1 = (c.qModT : ℤ[X]) * lift c.message - (c.t : ℤ[X]) * lift c.z := by
  unfold lift
  simp only [h.signed_k1_eq hmessage hcarries]
  rw [ofCoeffs_sub, ofCoeffs_mul, ofCoeffs_mul]
  simp

lemma Configured.scaledRelation_eq (i : Fin (L + 1)) :
    c.scaledRelation i - C (c.qis i : ℤ) * c.combined i =
      c.relation0 c.k1 i - C (c.qis i : ℤ) * lift (c.ct0R i) := by
  have hfold := (h.folds i).fold_eq (lift (c.ct0is i)) (lift c.e0) (lift c.message) (lift c.z)
    (lift (c.ct0R i))
  unfold scaledRelation combined relation0
  rw [h.lift_k1 hmessage hcarries, map_natCast]
  linear_combination hfold

end

lemma Configured.isZeroModulo_scaling (h : c.Configured) (hmessage : ∀ j, (c.message j).val < c.t)
    (hdvd : X ^ N + 1 ∣ c.relation0 c.k1 i - C (c.qis i : ℤ) * lift (c.ct0R i)) :
    IsZeroModulo (c.qis i) N (c.scaling i) := by
  obtain ⟨rest, hrest⟩ := Finset.dvd_prod_of_mem c.qis (Finset.mem_univ i)
  have hprod := congrArg (Nat.cast (R := ℤ[X])) hrest
  have hbeta := congrArg (Nat.cast (R := ℤ[X])) (h.folds i).beta
  rw [cast_mul] at hprod
  push_cast at hbeta
  refine isZeroModulo_of_dvd hdvd (lift (c.ct0R i) + c.k0is i * rest * lift c.message -
    c.beta i * c.rounded) ?_
  unfold scaling relation0
  rw [h.lift_k1_eq hmessage, map_natCast, hprod]
  linear_combination c.rounded * hbeta

/-! ### The widths -/

/-- An honest witness, `r0` and `r1` being the integer quotients of its identities. -/
structure Honest (c : ShareEncryption N L) (r0 r1 : Fin L → Fin N → ℤ) : Prop where
  pk0is : ∀ i j, 2 * |signed (c.pk0is i j)| < c.qis i
  pk1is : ∀ i j, 2 * |signed (c.pk1is i j)| < c.qis i
  ct0is : ∀ i j, 2 * |signed (c.ct0is i j)| < c.qis i
  ct1is : ∀ i j, 2 * |signed (c.ct1is i j)| < c.qis i
  u : ∀ j, |signed (c.u j)| ≤ 1
  e0 : ∀ j, |signed (c.e0 j)| ≤ c.e0Bound
  e1 : ∀ j, |signed (c.e1 j)| ≤ c.e1Bound
  message : ∀ j, (c.message j).val < c.t
  carries : c.Carries
  ct0R : ∀ i j, c.ct0R i j = r0 i j
  ct1R : ∀ i j, c.ct1R i j = r1 i j
  quotient0 : ∀ i, X ^ N + 1 ∣ c.relation0 c.k1 i - C (c.qis i : ℤ) * ofCoeffs (r0 i)
  quotient1 : ∀ i, X ^ N + 1 ∣ c.relation1 i - C (c.qis i : ℤ) * ofCoeffs (r1 i)

section

variable {r0 r1 : Fin (L + 1) → Fin N → ℤ} (h : c.Configured) (hhonest : c.Honest r0 r1)

include hhonest

include h

end

section

/-! The bounds on a quotient `Q`: a ring product and a centered coefficient are left beside it. -/

variable {q n : ℕ} {e v Q : ℤ} (hA : |e - v + q * Q| ≤ ((q - 1) / 2 + n * ((q - 1) / 2) : ℕ))

include hA

end

section

variable {r0 r1 : Fin (L + 1) → Fin N → ℤ} (h : c.Configured) (hn : Even N)
  (hu : c.uBound = 1) (hhonest : c.Honest r0 r1)

include h

include hhonest

include hn hu

end

/-! ### Two moduli -/

/-- A circuit for two moduli, the plaintext modulus 12 and no noise. -/
def twoModuli (qis k0is : Fin 2 → ℕ) : Configs 2 :=
  let s := derive qis 12 5 k0is 2 1 0 0 12
  { t := 12, qModT := 5, qis, k0is, pkBounds := fun i => (qis i - 1) / 2
    e0Bound := 0, e1Bound := 0, uBound := 1, ct0RBounds := fun _ => 0, ct1RBounds := fun _ => 0
    msgBound := 12, smallD := s.smallD, alpha := s.alpha, beta := s.beta, q0Offset := s.q0Offset
    q0DiffOffset := s.q0DiffOffset, q1Offset := s.q1Offset }

def twoModuliBits (qis k0is : Fin 2 → ℕ) : Bits :=
  let s := derive qis 12 5 k0is 2 1 0 0 12
  let w : Width := ⟨4, by decide, by decide⟩
  { pk := w, ct := w, u := w, e0 := w, e1 := w, msg := w, ct0R := w, ct1R := w
    z := s.zBit, q0 := s.q0Bit, q0Diff := s.q0DiffBit, q1 := s.q1Bit }

/-- An encryption of 11 with the moduli 23 and 19, in the given order. -/
def sample (order : Fin 2 → Fin 2) : ShareEncryption 2 2 where
  toConfigs := twoModuli (![23, 19] ∘ order) (![21, 11] ∘ order)
  bits := twoModuliBits (![23, 19] ∘ order) (![21, 11] ∘ order)
  pk0is := fun i j => ((![![-11, -10], ![0, 9]] (order i) j : ℤ) : Fr)
  pk1is := fun _ _ => 0
  ct0is := fun i j => ((![![-1, 11], ![-9, -9]] (order i) j : ℤ) : Fr)
  ct1is := fun _ _ => 0
  u := fun j => ((![-1, 1] j : ℤ) : Fr)
  e0 := fun _ => 0
  e1 := fun _ => 0
  message := fun j => ((![0, 11] j : ℕ) : Fr)
  ct0R := fun _ j => ((![0, -5] j : ℤ) : Fr)
  ct1R := fun _ _ => 0
  z := fun j => ((![0, 4] j : ℕ) : Fr)

lemma sample_configured : (sample id).Configured ∧ (sample Fin.rev).Configured := by
  constructor <;> constructor <;> decide +kernel

/-! ### The results -/

/-- The carries are unique, and the folded identity is the direct one: both say that the ciphertext
encrypts the message scaled by `Q / t`. -/
theorem scaled_path_iff_direct_path (c : ShareEncryption N (L + 1)) (h : c.Configured)
    (hmessage : RangeCheckStandard c.bits.msg.bit c.msgBound c.message) :
    (c.CheckRoundingCarries ↔ c.Carries) ∧ (∃ hints, c.ScaledMessageChecks hints) ∧
    ∀ hints, c.ScaledMessageChecks hints → c.scaledMessage hints = c.k1 ∧ ∀ i, (c.Carries →
      (∀ x, c.VerifyEvaluationsScaled x c.scaledQuotientTerms i ↔
        c.VerifyEvaluations x (c.scaledMessage hints) i) ∧
      (X ^ N + 1 ∣ c.scaledRelation i - C (c.qis i : ℤ) * c.combined i ↔
        X ^ N + 1 ∣ c.relation0 (c.scaledMessage hints) i - C (c.qis i : ℤ) * lift (c.ct0R i))) ∧
      (X ^ N + 1 ∣ c.relation0 (c.scaledMessage hints) i - C (c.qis i : ℤ) * lift (c.ct0R i) →
        IsZeroModulo (c.qis i) N (c.scaling i)) := by
  have hlt := h.message_lt hmessage
  refine ⟨h.checkRoundingCarries_iff hlt, h.exists_hints hlt, fun hints hscaled => ?_⟩
  rw [h.scaledMessage_eq hlt hscaled]
  refine ⟨rfl, fun i => ⟨fun hcarries => ⟨fun x => ?_, ?_⟩, h.isZeroModulo_scaling hlt⟩⟩
  · unfold VerifyEvaluationsScaled VerifyEvaluations
    rw [h.scaledResidual_eq hcarries]
  · rw [h.scaledRelation_eq hlt hcarries]

theorem scaled_path_sample : (sample Fin.rev).CheckRoundingCarries ↔ (sample Fin.rev).Carries :=
  (scaled_path_iff_direct_path (sample Fin.rev) sample_configured.2
    (by unfold RangeCheckStandard AssertInRange FitsIn; decide +kernel)).1

end ShareEncryption

end Interfold.Circuits
