import Interfold.Library.Negacyclic
import Interfold.Circuits.Commitments

/-!
# Encrypting a share

C3 proves that a ciphertext encrypts a share under the key of its recipient. The `k0 * k1` term of
the ciphertext is either computed directly, or folded into the quotient (`scaledQuotient`).
-/

namespace Interfold.Circuits

open Negacyclic

variable {N L : ℕ}

/-- `ModU64::mul_mod`, for a hinted quotient. -/
def mulMod (m : ℕ) (a b : Fr) (quotient : Fin (2 ^ 64)) : ℕ :=
  asU64 (a * b - (quotient.val : ℕ) * (m : Fr))

def MulModChecks (m : ℕ) (a b : Fr) (quotient : Fin (2 ^ 64)) : Prop :=
  (quotient.val : ℕ) * (m : Fr) + (mulMod m a b quotient : Fr) = a * b ∧ mulMod m a b quotient < m

namespace ShareEncryption

structure Configs (L : ℕ) where
  t : ℕ
  qModT : ℕ
  qis : Fin L → ℕ
  k0is : Fin L → ℕ
  pkBounds : Fin L → ℕ
  e0Bound : ℕ
  e1Bound : ℕ
  uBound : ℕ
  ct0RBounds : Fin L → ℕ
  ct1RBounds : Fin L → ℕ
  msgBound : ℕ
  smallD : Fin L → ℕ
  alpha : Fin L → ℕ
  beta : Fin L → ℕ
  q0Offset : ℕ
  q0DiffOffset : ℕ
  q1Offset : ℕ

/-- The widths of the range checks. -/
structure Bits where
  pk : Width
  ct : Width
  u : Width
  e0 : Width
  e1 : Width
  msg : Width
  ct0R : Width
  ct1R : Width
  z : ℕ
  q0 : ℕ
  q0Diff : ℕ
  q1 : ℕ

end ShareEncryption

structure ShareEncryption (N L : ℕ) extends ShareEncryption.Configs L where
  bits : ShareEncryption.Bits
  pk0is : Limbs L N
  pk1is : Limbs L N
  ct0is : Limbs L N
  ct1is : Limbs L N
  u : Fin N → Fr
  e0 : Fin N → Fr
  e1 : Fin N → Fr
  message : Fin N → Fr
  ct0R : Limbs L N
  ct1R : Limbs L N
  /-- The rounding carries. -/
  z : Fin N → Fr

namespace ShareEncryption

variable (c : ShareEncryption N L)

structure CheckRangeBounds : Prop where
  u : RangeCheck2Bounds c.bits.u.bit c.uBound c.uBound c.u
  e0 : RangeCheck2Bounds c.bits.e0.bit c.e0Bound c.e0Bound c.e0
  e1 : RangeCheck2Bounds c.bits.e1.bit c.e1Bound c.e1Bound c.e1
  message : RangeCheckStandard c.bits.msg.bit c.msgBound c.message
  pk0is : ∀ i, RangeCheck2Bounds c.bits.pk.bit (c.pkBounds i) (c.pkBounds i) (c.pk0is i)
  pk1is : ∀ i, RangeCheck2Bounds c.bits.pk.bit (c.pkBounds i) (c.pkBounds i) (c.pk1is i)
  ct0is : ∀ i, RangeCheck2Bounds c.bits.ct.bit (c.pkBounds i) (c.pkBounds i) (c.ct0is i)
  ct1is : ∀ i, RangeCheck2Bounds c.bits.ct.bit (c.pkBounds i) (c.pkBounds i) (c.ct1is i)

/-! ### The direct path -/

structure CheckQuotientBounds : Prop where
  ct0R : ∀ i, RangeCheck2Bounds c.bits.ct0R.bit (c.ct0RBounds i) (c.ct0RBounds i) (c.ct0R i)
  ct1R : ∀ i, RangeCheck2Bounds c.bits.ct1R.bit (c.ct1RBounds i) (c.ct1RBounds i) (c.ct1R i)

/-- `k1` of `compute_scaled_message`, with the quotients that the prover hints. -/
def scaledMessage (hints : Fin N → Fin (2 ^ 64)) (j : Fin N) : Fr :=
  mulMod (asU64 c.t) c.qModT (c.message j) (hints j)

def ScaledMessageChecks (hints : Fin N → Fin (2 ^ 64)) : Prop :=
  ∀ j, MulModChecks (asU64 c.t) c.qModT (c.message j) (hints j)

def ct0Residual (k1 : Fin N → Fr) (i : Fin L) (j : Fin N) : Fr :=
  c.ct0is i j - c.e0 j - c.k0is i * k1 j - c.qis i * c.ct0R i j

def ct1Residual (i : Fin L) (j : Fin N) : Fr :=
  c.ct1is i j - c.e1 j - c.qis i * c.ct1R i j

/-- The assertions for one modulus. -/
def VerifyEvaluations (x : Fr) (k1 : Fin N → Fr) (i : Fin L) : Prop :=
  eval (c.ct0Residual k1 i) x = dot (c.pk0is i) (kernel c.u x) ∧
    eval (c.ct1Residual i) x = dot (c.pk1is i) (kernel c.u x)

/-! ### The scaled path -/

def CheckRoundingCarries : Prop :=
  ∀ j, FitsIn c.bits.z (c.z j) ∧ AssertInRange c.bits.msg.bit
    (c.qModT * c.message j - c.t * c.z j) c.t

/-- The combined quotients. -/
def scaledQuotientTerms (i : Fin L) (j : Fin N) : Fr :=
  c.ct0R i j + c.alpha i * c.message j - c.beta i * c.z j

def scaledResidual (q0 : Limbs L N) (i : Fin L) (j : Fin N) : Fr :=
  c.ct0is i j - c.e0 j + c.smallD i * c.message j - c.z j - c.qis i * q0 i j

def VerifyEvaluationsScaled (x : Fr) (q0 : Limbs L N) (i : Fin L) : Prop :=
  eval (c.scaledResidual q0 i) x = dot (c.pk0is i) (kernel c.u x) ∧
    eval (c.ct1Residual i) x = dot (c.pk1is i) (kernel c.u x)

end ShareEncryption

end Interfold.Circuits
