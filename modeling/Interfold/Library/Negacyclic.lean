import Mathlib.Algebra.Field.ZMod
import Mathlib.Algebra.Polynomial.Roots
import Mathlib.RingTheory.Polynomial.Basic
import Interfold.Library.Radix

/-!
# Products modulo `X ^ n + 1`

Coefficients are listed from the highest degree down. A kernel turns the value of a product modulo
`X ^ n + 1` at one point into an inner product. If an identity between integer polynomials with
small coefficients fails, then it fails at all but `n - 1` points of a prime field.
-/

namespace Negacyclic

open Polynomial Radix Finset

variable {R S : Type*} [CommRing R] [CommRing S] {n : ℕ}

/-- Horner's rule, starting with the first coefficient. -/
def eval (c : Fin n → R) (x : R) : R :=
  match List.ofFn c with
  | [] => 0
  | first :: rest => rest.foldl (fun acc a => acc * x + a) first

def dot (c k : Fin n → R) : R := ∑ j, c j * k j

/-- The kernel at the index `n - 1 - j`. -/
def kernelFrom (u : Fin n → R) (x : R) : ℕ → R
  | 0 => eval u x
  | j + 1 => x * kernelFrom u x j - (x ^ n + 1) * if h : j < n then u ⟨j, h⟩ else 0

section

variable (u : Fin n → R)

def kernel (x : R) (i : Fin n) : R := kernelFrom u x (n - 1 - i)

noncomputable def ofCoeffs (c : Fin n → R) : R[X] := ∑ i, C (c i) * X ^ (n - 1 - i)

lemma eval_eq (c : Fin n → R) (x : R) : eval c x = (ofCoeffs c).eval x := by
  have hhorn : eval c x = horner x (List.ofFn c) := by
    unfold eval
    split <;> simp_all [horner]
  rw [hhorn]
  unfold ofCoeffs
  induction n with
  | zero => simp
  | succ n ih =>
    rw [List.ofFn_succ', List.concat_eq_append, horner_snoc, ih _ ?_, Fin.sum_univ_castSucc]
    · simp only [eval_add, eval_finsetSum, eval_mul, eval_C, eval_pow, eval_X, Fin.val_castSucc,
        Fin.val_last, sum_mul, Nat.add_sub_cancel, Nat.sub_self, pow_zero, mul_one]
      congr 1
      refine sum_congr rfl fun i _ => ?_
      rw [mul_assoc, ← pow_succ]
      congr 2
      omega
    · unfold eval
      split <;> simp_all [horner]

/-! ### The kernel -/

/-- `X ^ j` times `u`, where powers from `X ^ n` on are replaced. -/
noncomputable def shifted (j : ℕ) : R[X] :=
  ∑ i : Fin n, if (i : ℕ) < j then -(C (u i) * X ^ (j - 1 - i)) else C (u i) * X ^ (n - 1 - i + j)

lemma shifted_zero : shifted u 0 = ofCoeffs u := by
  simp [shifted, ofCoeffs]

lemma shifted_succ (hj : j < n) :
    shifted u (j + 1) = X * shifted u j - (X ^ n + 1) * C (u ⟨j, hj⟩) := by
  have hlast : (X ^ n + 1) * C (u ⟨j, hj⟩) =
      ∑ i : Fin n, if i = ⟨j, hj⟩ then (X ^ n + 1) * C (u i) else 0 := by simp
  unfold shifted
  rw [hlast, mul_sum, ← sum_sub_distrib]
  refine sum_congr rfl fun i _ => ?_
  have hi := i.isLt
  rcases lt_trichotomy (i : ℕ) j with hlt | heq | hgt
  · have hpow : j + 1 - 1 - i = j - 1 - i + 1 := by omega
    rw [if_pos (by omega), if_pos hlt, if_neg (by rintro rfl; simp at hlt), hpow, pow_succ]
    ring
  · have hpow : (X : R[X]) ^ n = X ^ (n - 1 - i + j) * X := by
      rw [← pow_succ]
      congr
      omega
    have hzero : j + 1 - 1 - i = 0 := by omega
    rw [if_pos (by omega), if_neg (by omega), if_pos (Fin.ext heq), hzero, hpow]
    ring
  · rw [if_neg (by omega), if_neg (by omega), if_neg (by rintro rfl; simp at hgt), ← add_assoc,
      pow_succ]
    ring

lemma kernelFrom_eq (x : R) (hj : j < n) : kernelFrom u x j = (shifted u j).eval x := by
  induction j with
  | zero => rw [shifted_zero, ← eval_eq, kernelFrom]
  | succ j ih =>
    have hlt : j < n := by omega
    rw [kernelFrom, ih hlt, shifted_succ u hlt, dif_pos hlt]
    simp

lemma dvd_shifted (hj : j < n) : X ^ n + 1 ∣ X ^ j * ofCoeffs u - shifted u j := by
  induction j with
  | zero => simp [shifted_zero]
  | succ j ih =>
    have hlt : j < n := by omega
    obtain ⟨q, hq⟩ := ih hlt
    refine ⟨X * q + C (u ⟨j, hlt⟩), ?_⟩
    rw [shifted_succ u hlt, mul_add, mul_left_comm, ← hq, pow_succ]
    ring

end

/-! ### The product -/

/-- The product of `a` and `u`, modulo `X ^ n + 1`. -/
noncomputable def product (a u : Fin n → R) : R[X] := ∑ i, C (a i) * shifted u (n - 1 - i)

lemma dot_kernel (a u : Fin n → R) (x : R) : dot a (kernel u x) = (product a u).eval x := by
  simp only [dot, product, eval_finsetSum, eval_mul, eval_C]
  refine sum_congr rfl fun i _ => ?_
  rw [kernel, kernelFrom_eq u x (by omega)]

lemma dvd_product (a u : Fin n → R) : X ^ n + 1 ∣ ofCoeffs a * ofCoeffs u - product a u := by
  unfold product
  nth_rewrite 1 [ofCoeffs]
  rw [sum_mul, ← sum_sub_distrib]
  refine dvd_sum fun i _ => ?_
  have hdvd := (dvd_shifted u (j := n - 1 - i) (by omega)).mul_left (C (a i))
  rwa [mul_sub, ← mul_assoc] at hdvd

lemma term_mem (c : R) (hk : k < n) : C c * X ^ k ∈ degreeLT R n :=
  mem_degreeLT.2 ((degree_C_mul_X_pow_le k c).trans_lt (by exact_mod_cast hk))

lemma ofCoeffs_mem (c : Fin n → R) : ofCoeffs c ∈ degreeLT R n :=
  Submodule.sum_mem _ fun i _ => term_mem (c i) (by omega)

lemma product_mem (a u : Fin n → R) : product a u ∈ degreeLT R n := by
  refine Submodule.sum_mem _ fun i _ => ?_
  rw [← smul_eq_C_mul]
  refine Submodule.smul_mem _ _ (Submodule.sum_mem _ fun k _ => ?_)
  split
  · exact Submodule.neg_mem _ (term_mem _ (by omega))
  · exact term_mem _ (by omega)

lemma map_ofCoeffs (f : R →+* S) (c : Fin n → R) : (ofCoeffs c).map f = ofCoeffs (f ∘ c) := by
  simp [ofCoeffs, Polynomial.map_sum]

lemma map_product (f : R →+* S) (a u : Fin n → R) :
    (product a u).map f = product (f ∘ a) (f ∘ u) := by
  simp only [product, shifted, Polynomial.map_sum, Polynomial.map_mul, map_C, Function.comp_apply]
  refine sum_congr rfl fun i _ => ?_
  congr 1
  refine sum_congr rfl fun k _ => ?_
  split <;> simp

/-- Every coefficient of a shifted polynomial is one of the coefficients, up to its sign. -/
lemma abs_coeff_shifted_le {u : Fin n → ℤ} {B : ℤ} (hB : 0 ≤ B) (hu : ∀ i, |u i| ≤ B)
    (j m : ℕ) : |(shifted u j).coeff m| ≤ B := by
  have hterm (i : Fin n) : (if (i : ℕ) < j then -(C (u i) * X ^ (j - 1 - i))
      else C (u i) * X ^ (n - 1 - i + j) : ℤ[X]).coeff m =
      if (i : ℕ) < j then if m = j - 1 - i then -u i else 0
      else if m = n - 1 - i + j then u i else 0 := by
    split <;> simp [coeff_X_pow, apply_ite Neg.neg]
  simp only [shifted, finsetSum_coeff, hterm]
  by_cases hsome : ∃ i : Fin n, if (i : ℕ) < j then m = j - 1 - i else m = n - 1 - i + j
  · obtain ⟨i, hi⟩ := hsome
    rw [sum_eq_single i]
    · have := hu i
      split_ifs <;> simp_all
    · intro k _ hk
      have hne : (k : ℕ) ≠ i := fun h => hk (Fin.ext h)
      split_ifs at hi ⊢ <;> first | rfl | omega
    · simp
  · have hzero : ∀ i : Fin n, (if (i : ℕ) < j then if m = j - 1 - i then -u i else 0
        else if m = n - 1 - i + j then u i else 0) = 0 := by
      intro i
      have hi := fun h => hsome ⟨i, h⟩
      split_ifs at hi ⊢ <;> simp_all
    simpa [hzero] using hB

lemma abs_coeff_product_le {a u : Fin n → ℤ} (hA : 0 ≤ A) (hB : 0 ≤ B) (ha : ∀ i, |a i| ≤ A)
    (hu : ∀ i, |u i| ≤ B) (m : ℕ) : |(product a u).coeff m| ≤ n * (A * B) := by
  simp only [product, finsetSum_coeff, coeff_C_mul]
  refine (abs_sum_le_sum_abs _ _).trans ?_
  refine (sum_le_card_nsmul _ _ (A * B) fun i _ => ?_).trans (by simp)
  rw [abs_mul]
  exact mul_le_mul (ha i) (abs_coeff_shifted_le hB hu _ _) (abs_nonneg _) hA

lemma abs_coeff_ofCoeffs_le {c : Fin n → ℤ} {B : ℤ} (hB : 0 ≤ B) (hc : ∀ i, |c i| ≤ B) (m : ℕ) :
    |(ofCoeffs c).coeff m| ≤ B := by
  rw [← shifted_zero]
  exact abs_coeff_shifted_le hB hc 0 m

/-! ### One point -/

section

variable {p : ℕ} {s a u : Fin n → ℤ}

/-- The identity `s = a * u` at one point of the field. -/
def HoldsAt (p : ℕ) (s a u : Fin n → ℤ) (x : ZMod p) : Prop :=
  eval (fun i => (s i : ZMod p)) x =
    dot (fun i => (a i : ZMod p)) (kernel (fun i => (u i : ZMod p)) x)

lemma holdsAt_iff (x : ZMod p) : HoldsAt p s a u x ↔
    ((ofCoeffs s - product a u).map (Int.castRingHom (ZMod p))).eval x = 0 := by
  rw [HoldsAt, eval_eq, dot_kernel, Polynomial.map_sub, map_ofCoeffs, map_product, eval_sub,
    sub_eq_zero]
  rfl

lemma dvd_iff_product_eq : X ^ n + 1 ∣ ofCoeffs s - ofCoeffs a * ofCoeffs u ↔
    ofCoeffs s = product a u := by
  have hmem := Submodule.sub_mem _ (ofCoeffs_mem s) (product_mem a u)
  constructor
  · intro h
    have hdvd := dvd_add h (dvd_product a u)
    rw [sub_add_sub_cancel] at hdvd
    rcases Nat.eq_zero_or_pos n with rfl | hn
    · rw [mem_degreeLT, Nat.cast_zero, Nat.WithBot.lt_zero_iff, degree_eq_bot] at hmem
      exact sub_eq_zero.1 hmem
    · have hmonic : (X ^ n + 1 : ℤ[X]).Monic := monic_X_pow_add_C 1 hn.ne'
      have hdeg : (X ^ n + 1 : ℤ[X]).degree = n := degree_X_pow_add_C hn 1
      by_contra hne
      exact hmonic.not_dvd_of_degree_lt (sub_ne_zero.2 hne) (hdeg ▸ mem_degreeLT.1 hmem) hdvd
  · intro h
    rw [h, ← dvd_neg, neg_sub]
    exact dvd_product a u

lemma holdsAt_of_dvd (h : X ^ n + 1 ∣ ofCoeffs s - ofCoeffs a * ofCoeffs u) (x : ZMod p) :
    HoldsAt p s a u x := by
  rw [holdsAt_iff, dvd_iff_product_eq.1 h, sub_self, Polynomial.map_zero, eval_zero]

/-- An identity with coefficients below the prime that holds at `n` points holds. -/
lemma encard_holdsAt_le [Fact p.Prime] (hsmall : ∀ m, |(ofCoeffs s - product a u).coeff m| < p)
    (h : ¬ X ^ n + 1 ∣ ofCoeffs s - ofCoeffs a * ofCoeffs u) :
    {x | HoldsAt p s a u x}.encard ≤ (n - 1 : ℕ) := by
  set D := ofCoeffs s - product a u
  have hne : D ≠ 0 := sub_ne_zero.2 fun heq => h (dvd_iff_product_eq.2 heq)
  have hmap : D.map (Int.castRingHom (ZMod p)) ≠ 0 := by
    obtain ⟨m, hm⟩ : ∃ m, D.coeff m ≠ 0 := by
      by_contra hall
      exact hne (ext fun m => not_not.1 fun hm => hall ⟨m, hm⟩)
    intro hzero
    have hcoeff : ((D.coeff m : ℤ) : ZMod p) = 0 := by
      simpa using congrArg (fun f => coeff f m) hzero
    have hdvd := (ZMod.intCast_zmod_eq_zero_iff_dvd _ p).1 hcoeff
    exact hm (Int.eq_zero_of_abs_lt_dvd hdvd (hsmall m))
  have hroots : {x | HoldsAt p s a u x} ⊆ ↑(D.map (Int.castRingHom (ZMod p))).roots.toFinset := by
    intro x hx
    exact Multiset.mem_toFinset.2 ((mem_roots hmap).2 ((holdsAt_iff x).1 hx))
  have hmem : D ∈ degreeLT ℤ n := Submodule.sub_mem _ (ofCoeffs_mem s) (product_mem a u)
  have hdeg : (D.map (Int.castRingHom (ZMod p))).natDegree ≤ n - 1 := by
    have hlt := (natDegree_lt_iff_degree_lt hne).2 (mem_degreeLT.1 hmem)
    exact natDegree_map_le.trans (by omega)
  calc {x | HoldsAt p s a u x}.encard
      ≤ (↑(D.map (Int.castRingHom (ZMod p))).roots.toFinset : Set (ZMod p)).encard :=
        Set.encard_le_encard hroots
    _ = (D.map (Int.castRingHom (ZMod p))).roots.toFinset.card := Set.encard_coe_eq_coe_finsetCard _
    _ ≤ (n - 1 : ℕ) := by
        exact_mod_cast (Multiset.toFinset_card_le _).trans ((card_roots' _).trans hdeg)

/-- Zero modulo `q` and `X ^ n + 1`. -/
def IsZeroModulo (q n : ℕ) (f : ℤ[X]) : Prop := X ^ n + 1 ∣ f.map (Int.castRingHom (ZMod q))

lemma isZeroModulo_of_dvd {q : ℕ} {f g : ℤ[X]} (h : X ^ n + 1 ∣ f) (r : ℤ[X])
    (heq : g = f + C (q : ℤ) * r) : IsZeroModulo q n g := by
  have hmap := Polynomial.map_dvd (Int.castRingHom (ZMod q)) h
  simpa [IsZeroModulo, heq] using hmap

/-- An identity modulo `q` with the quotient `r`, checked at one point. -/
lemma encard_le_of_nonzero [Fact p.Prime] {q : ℕ} {r : Fin n → ℤ} (hA : 0 ≤ A) (hB : 0 ≤ B)
    (hU : 0 ≤ U) (hs : ∀ i, |s i - q * r i| ≤ B) (ha : ∀ i, |a i| ≤ A) (hu : ∀ i, |u i| ≤ U)
    (hsmall : B + n * (A * U) < p) (h : ¬ IsZeroModulo q n (ofCoeffs s - ofCoeffs a * ofCoeffs u)) :
    {x | HoldsAt p (fun i => s i - q * r i) a u x}.encard ≤ (n - 1 : ℕ) := by
  refine encard_holdsAt_le (fun m => ?_) fun hdvd => h ?_
  · rw [coeff_sub]
    refine lt_of_le_of_lt (abs_sub _ _) (lt_of_le_of_lt (add_le_add ?_ ?_) hsmall)
    · exact abs_coeff_ofCoeffs_le hB hs m
    · exact abs_coeff_product_le hA hU ha hu m
  · have hq : (ofCoeffs fun i => s i - q * r i).map (Int.castRingHom (ZMod q)) =
        (ofCoeffs s).map (Int.castRingHom (ZMod q)) := by
      rw [map_ofCoeffs, map_ofCoeffs]
      congr 1
      funext i
      simp
    have hmap := Polynomial.map_dvd (Int.castRingHom (ZMod q)) hdvd
    simpa [IsZeroModulo, hq] using hmap

end

end Negacyclic
