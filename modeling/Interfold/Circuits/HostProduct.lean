import Interfold.Circuits.SequentialFolds
import Interfold.Library.Negacyclic

/-!
# Products modulo `X ^ n + 1` on the host

The host multiplies integer coefficients and folds the product onto `n` coefficients. The circuit
gets the value of the result at a point from the kernel.
-/

namespace Interfold.Host

open Finset Polynomial

/-- Coefficients in descending order. -/
abbrev Coefficients := List ℤ

def isZero (p : Coefficients) : Bool := p.all (· == 0)

/-- `result[i + j] += a * b`, where `add` computes the sum. -/
def addTerm (add : ℤ → ℤ → ℤ → Option ℤ) (lhs rhs : Coefficients) (result : ℕ → ℤ) (ij : ℕ × ℕ) :
    Option (ℕ → ℤ) :=
  (add (result (ij.1 + ij.2)) (lhs.getD ij.1 0) (rhs.getD ij.2 0)).map
    (Function.update result (ij.1 + ij.2))

/-- The loop over the rows `i`, and in a row over the positions `j`. -/
def convolve (add : ℤ → ℤ → ℤ → Option ℤ) (lhs rhs : Coefficients) : Option Coefficients := do
  let result ← (List.range lhs.length ×ˢ List.range rhs.length).foldlM (addTerm add lhs rhs) 0
  return (List.range (lhs.length + rhs.length - 1)).map result

def addBigInt (sum a b : ℤ) : Option ℤ := some (sum + a * b)

def toI128 (x : ℤ) : Option ℤ := if -2 ^ 127 ≤ x ∧ x ≤ 2 ^ 127 - 1 then some x else none

def toU128 (x : ℕ) : Option ℕ := if x < 2 ^ 128 then some x else none

/-- The product and the sum overflow if they have no value. -/
def addI128 (sum a b : ℤ) : Option ℤ :=
  if a ≠ 0 then (toI128 (a * b)).bind fun product => toI128 (sum + product) else some sum

/-- The loop runs only if the largest partial sum fits. It has no value if it overflows. -/
def mulI128 (self other : Coefficients) : Option (Option Coefficients) := do
  let lhs ← self.mapM toI128
  let rhs ← other.mapM toI128
  let maxLhs ← (lhs.map Int.natAbs).max?
  let maxRhs ← (rhs.map Int.natAbs).max?
  let bound ← toU128 ((← toU128 (maxLhs * maxRhs)) * min lhs.length rhs.length)
  if bound > 2 ^ 127 - 1 then none else some (convolve addI128 lhs rhs)

def mul (self other : Coefficients) : Option Coefficients :=
  if isZero self || isZero other then some [0]
  else match mulI128 self other with
    | some product => product
    | none => convolve addBigInt self other

def productForFold (lhs rhs : Coefficients) (n : ℕ) : Option Coefficients := do
  if lhs.length ≠ n ∨ rhs.length ≠ n then none
  let product ← mul lhs rhs
  let width := 2 * n - 1
  if width < product.length then none
  if product.length = width then return product
  return List.replicate (width - product.length) 0 ++ product

def foldNegacyclic (c : Coefficients) (n : ℕ) : Option Coefficients :=
  if c.length = 2 * n - 1 then
    some (c.getD (n - 1) 0 ::
      (List.range' 1 (n - 1)).map fun j => c.getD (n - 1 + j) 0 - c.getD (j - 1) 0)
  else none

/-! ### The convolution -/

noncomputable def poly (p : Coefficients) : ℤ[X] :=
  ∑ k ∈ range p.length, C (p.getD k 0) * X ^ (p.length - 1 - k)

/-- The terms that are added at `k`. -/
def termsAt (k : ℕ) (ps : List (ℕ × ℕ)) : List (ℕ × ℕ) := ps.filter fun ij => ij.1 + ij.2 = k

def term (lhs rhs : Coefficients) (ij : ℕ × ℕ) : ℤ := lhs.getD ij.1 0 * rhs.getD ij.2 0

variable {lhs rhs : Coefficients} {ps : List (ℕ × ℕ)}

lemma termsAt_cons (ij : ℕ × ℕ) : termsAt k (ij :: ps) =
    if ij.1 + ij.2 = k then ij :: termsAt k ps else termsAt k ps := by
  simp [termsAt, List.filter_cons]

lemma foldlM_addBigInt (result : ℕ → ℤ) : ps.foldlM (addTerm addBigInt lhs rhs) result =
    some fun k => result k + ((termsAt k ps).map (term lhs rhs)).sum := by
  induction ps generalizing result with
  | nil => simp [termsAt]
  | cons ij ps ih =>
    simp only [List.foldlM_cons, addTerm, addBigInt, Option.map_some, Option.bind_eq_bind,
      Option.bind_some, ih, termsAt_cons]
    congr 1
    funext k
    by_cases hk : ij.1 + ij.2 = k
    · subst hk
      simp [term, add_assoc]
    · simp [hk, Function.update_of_ne (Ne.symm hk)]

lemma addI128_eq (h : |c| + |a * b| ≤ 2 ^ 127 - 1) : addI128 c a b = addBigInt c a b := by
  have hsum := abs_le.1 (le_refl |c|)
  have hmul := abs_le.1 (le_refl |a * b|)
  unfold addI128 addBigInt toI128
  by_cases ha : a = 0
  · simp [ha]
  · rw [if_pos ha, if_pos (by omega), Option.bind_some, if_pos (by omega)]

/-- If the terms that remain at a position cannot take its sum out of range, then no addition
overflows. -/
lemma foldlM_addI128 {M : ℤ} (hM : ∀ ij, |term lhs rhs ij| ≤ M) (result : ℕ → ℤ)
    (hfits : ∀ k, |result k| + (termsAt k ps).length * M ≤ 2 ^ 127 - 1) :
    ps.foldlM (addTerm addI128 lhs rhs) result = ps.foldlM (addTerm addBigInt lhs rhs) result := by
  induction ps generalizing result with
  | nil => rfl
  | cons ij ps ih =>
    have hterm := hM ij
    have hsum := hfits (ij.1 + ij.2)
    rw [termsAt_cons, if_pos rfl, List.length_cons, Nat.cast_succ, add_mul, one_mul] at hsum
    have hrest : 0 ≤ ((termsAt (ij.1 + ij.2) ps).length : ℤ) * M :=
      mul_nonneg (Int.natCast_nonneg _) ((abs_nonneg _).trans hterm)
    unfold term at hterm
    simp only [List.foldlM_cons, addTerm, addI128_eq (by linarith), addBigInt, Option.map_some,
      Option.bind_eq_bind, Option.bind_some]
    refine ih _ fun k => ?_
    by_cases hk : ij.1 + ij.2 = k
    · subst hk
      rw [Function.update_self]
      linarith [abs_add_le (result (ij.1 + ij.2)) (lhs.getD ij.1 0 * rhs.getD ij.2 0)]
    · rw [Function.update_of_ne (Ne.symm hk)]
      simpa [termsAt_cons, hk] using hfits k

abbrev positions (lhs rhs : Coefficients) : List (ℕ × ℕ) :=
  List.range lhs.length ×ˢ List.range rhs.length

lemma termsAt_toFinset : (termsAt k (positions lhs rhs)).toFinset =
    {ij ∈ range lhs.length ×ˢ range rhs.length | ij.1 + ij.2 = k} := by
  ext ⟨i, j⟩
  simp [termsAt]

lemma nodup_termsAt : (termsAt k (positions lhs rhs)).Nodup :=
  (List.nodup_range.product List.nodup_range).filter _

/-- One of the factors determines the other. -/
lemma length_termsAt_le : (termsAt k (positions lhs rhs)).length ≤ min lhs.length rhs.length := by
  rw [← List.toFinset_card_of_nodup nodup_termsAt, termsAt_toFinset, le_min_iff,
    ← card_range lhs.length, ← card_range rhs.length]
  constructor
  · refine card_le_card_of_injOn Prod.fst (fun ij h => ?_) fun ij h ij' h' heq => ?_ <;> grind
  · refine card_le_card_of_injOn Prod.snd (fun ij h => ?_) fun ij h ij' h' heq => ?_ <;> grind

/-- The sums of the terms are the coefficients of the product. -/
lemma convolve_addBigInt (hl : lhs ≠ []) (hr : rhs ≠ []) :
    ∃ p, convolve addBigInt lhs rhs = some p ∧ p.length = lhs.length + rhs.length - 1 ∧
      poly p = poly lhs * poly rhs := by
  have hl := List.length_pos_iff.2 hl
  have hr := List.length_pos_iff.2 hr
  refine ⟨_, by rw [convolve, foldlM_addBigInt]; rfl, by simp, ?_⟩
  set w := lhs.length + rhs.length - 1 with hw
  calc poly _ = ∑ k ∈ range w, ∑ ij ∈ range lhs.length ×ˢ range rhs.length with ij.1 + ij.2 = k,
        C (term lhs rhs ij) * X ^ (w - 1 - (ij.1 + ij.2)) := by
        simp only [poly, List.length_map, List.length_range]
        refine sum_congr rfl fun k hk => ?_
        rw [List.getD_eq_getElem _ _ (by simpa using hk)]
        simp only [List.getElem_map, List.getElem_range, Pi.zero_apply, zero_add,
          ← List.sum_toFinset _ nodup_termsAt, termsAt_toFinset, map_sum, sum_mul]
        exact sum_congr rfl fun ij hij => by rw [(mem_filter.1 hij).2]
    _ = ∑ ij ∈ range lhs.length ×ˢ range rhs.length,
        C (term lhs rhs ij) * X ^ (w - 1 - (ij.1 + ij.2)) :=
        sum_fiberwise_of_maps_to (by grind) _
    _ = poly lhs * poly rhs := by
        rw [poly, poly, sum_mul_sum, ← sum_product']
        refine sum_congr rfl fun ij hij => ?_
        have hpow : w - 1 - (ij.1 + ij.2) = lhs.length - 1 - ij.1 + (rhs.length - 1 - ij.2) := by
          grind
        rw [hpow, pow_add, term, C_mul]
        ring

lemma mapM_toI128 (h : lhs.mapM toI128 = some p) : p = lhs := by
  have hid : ∀ x y, toI128 x = some y → y = id x := by grind [toI128]
  simpa using ((Arrays.mapM_eq_some hid).1 h).2

lemma natAbs_getD_le (h : (lhs.map Int.natAbs).max? = some m) (i : ℕ) :
    (lhs.getD i 0).natAbs ≤ m := by
  by_cases hi : i < lhs.length
  · refine (List.max?_eq_some_iff.1 h).2 _ (List.mem_map_of_mem ?_)
    grind
  · rw [List.getD_eq_default _ _ (by omega)]
    simp

lemma mulI128_eq (h : mulI128 lhs rhs = some p) : p = convolve addBigInt lhs rhs := by
  simp only [mulI128, Option.bind_eq_bind, Option.bind_eq_some_iff, Option.ite_none_left_eq_some,
    Option.some.injEq, toU128, Option.ite_none_right_eq_some] at h
  obtain ⟨l, hl, r, hr, m, hm, m', hm', -, ⟨-, rfl⟩, -, ⟨-, rfl⟩, hle, rfl⟩ := h
  obtain rfl := mapM_toI128 hl
  obtain rfl := mapM_toI128 hr
  unfold convolve
  have hcount (k : ℕ) : (termsAt k (positions l r)).length * (m * m') ≤ 2 ^ 127 - 1 :=
    (Nat.mul_le_mul_right _ length_termsAt_le).trans (by rw [mul_comm]; omega)
  rw [foldlM_addI128 (M := m * m') (fun ij => ?_) _ fun k => by simpa using mod_cast hcount k]
  have hterm := Nat.mul_le_mul (natAbs_getD_le hm ij.1) (natAbs_getD_le hm' ij.2)
  rw [term, abs_mul, Int.abs_eq_natAbs, Int.abs_eq_natAbs]
  exact_mod_cast hterm

lemma poly_eq_zero (h : isZero lhs) : poly lhs = 0 := by
  refine sum_eq_zero fun k hk => ?_
  have hmem := List.all_eq_true.1 h _ (List.getElem_mem (mem_range.1 hk))
  rw [List.getD_eq_getElem _ _ (mem_range.1 hk), beq_iff_eq.1 hmem, C_0, zero_mul]

lemma mul_spec (lhs rhs : Coefficients) : ∃ p, mul lhs rhs = some p ∧
    p.length = (if isZero lhs || isZero rhs then 1 else lhs.length + rhs.length - 1) ∧
    poly p = poly lhs * poly rhs := by
  unfold mul
  split_ifs with hzero
  · refine ⟨_, rfl, rfl, ?_⟩
    rw [Bool.or_eq_true] at hzero
    have hone : poly [0] = 0 := poly_eq_zero rfl
    rcases hzero with hz | hz <;> simp [poly_eq_zero hz, hone]
  · have hne : lhs ≠ [] ∧ rhs ≠ [] := by constructor <;> rintro rfl <;> simp [isZero] at hzero
    obtain ⟨p, hp, hspec⟩ := convolve_addBigInt hne.1 hne.2
    refine ⟨p, ?_, hspec⟩
    split
    · exact (mulI128_eq ‹_›).trans hp
    · exact hp

/-! ### The fold -/

lemma poly_pad (m : ℕ) (p : Coefficients) : poly (List.replicate m 0 ++ p) = poly p := by
  unfold poly
  rw [List.length_append, List.length_replicate, sum_range_add, sum_eq_zero, zero_add]
  · refine sum_congr rfl fun k _ => ?_
    have hpow : m + p.length - 1 - (m + k) = p.length - 1 - k := by omega
    rw [hpow, List.getD_append_right _ _ _ _ (by simp), List.length_replicate,
      Nat.add_sub_cancel_left]
  · intro k hk
    rw [List.getD_append _ _ _ _ (by simpa using hk)]
    simp

lemma productForFold_spec (hl : lhs.length = n + 1) (hr : rhs.length = n + 1) :
    ∃ p, productForFold lhs rhs (n + 1) = some p ∧ p.length = 2 * n + 1 ∧
      poly p = poly lhs * poly rhs := by
  obtain ⟨p, hp, hlen, hpoly⟩ := mul_spec lhs rhs
  have hle : p.length ≤ 2 * n + 1 := by grind
  refine ⟨List.replicate (2 * n + 1 - p.length) 0 ++ p, ?_, by simp; omega, by rw [poly_pad, hpoly]⟩
  have hwidth : 2 * (n + 1) - 1 = 2 * n + 1 := by omega
  by_cases hfull : p.length = 2 * n + 1
  · simp [productForFold, hl, hr, hp, hwidth, hfull]
  · simp [productForFold, hl, hr, hp, hwidth, hfull, hle]

lemma foldNegacyclic_spec {c : Coefficients} (hc : c.length = 2 * n + 1) :
    ∃ r q, foldNegacyclic c (n + 1) = some r ∧ r.length = n + 1 ∧
      poly c = poly r + (X ^ (n + 1) + 1) * q := by
  refine ⟨_, ∑ k ∈ range n, C (c.getD k 0) * X ^ (n - 1 - k), if_pos (by omega), by simp, ?_⟩
  have hsplit : 2 * n + 1 = n + (n + 1) := by omega
  simp only [poly, hc, hsplit, sum_range_add, sum_range_succ', List.length_cons, List.length_map,
    List.length_range', List.getD_cons_succ, List.getD_cons_zero, Nat.add_sub_cancel, mul_sum]
  rw [← add_assoc, ← sum_add_distrib, add_right_comm, ← sum_add_distrib]
  congr 1
  · refine sum_congr rfl fun k hk => ?_
    have hk := mem_range.1 hk
    have hhigh : (X : ℤ[X]) ^ (n + (n + 1) - 1 - k) = X ^ (n + 1) * X ^ (n - 1 - k) := by
      rw [← pow_add]
      congr 1
      omega
    have hlow : n + (n + 1) - 1 - (n + (k + 1)) = n - 1 - k := by omega
    have hget (f : ℕ → ℤ) : ((List.range' 1 n).map f).getD k 0 = f (k + 1) := by
      rw [List.getD_eq_getElem _ _ (by simpa using hk)]
      simp [add_comm]
    rw [hget, hhigh, hlow, Nat.add_sub_cancel, C_sub, Nat.add_comm k 1, ← Nat.sub_sub]
    ring
  · simp

lemma poly_eq_ofCoeffs {p : Coefficients} (h : p.length = n) :
    poly p = Negacyclic.ofCoeffs fun i : Fin n => p.getD i 0 := by
  subst h
  exact sum_range _

lemma poly_ofFn (a : Fin n → ℤ) : poly (List.ofFn a) = Negacyclic.ofCoeffs a := by
  rw [poly_eq_ofCoeffs List.length_ofFn]
  congr 1
  funext i
  simp

/-- The value that the circuit gets from the kernel is the one of the folded product. -/
theorem dot_kernel_eq_folded (n : ℕ) (a u : Fin (n + 1) → ℤ) (x : Circuits.Fr) :
    (∃ product reduced, productForFold (List.ofFn a) (List.ofFn u) (n + 1) = some product ∧
      foldNegacyclic product (n + 1) = some reduced ∧ reduced.length = n + 1 ∧
      poly reduced = (poly (List.ofFn a) * poly (List.ofFn u)) %ₘ (X ^ (n + 1) + 1) ∧
      Negacyclic.dot (fun i => (a i : Circuits.Fr))
        (Negacyclic.kernel (fun i => (u i : Circuits.Fr)) x) =
        Negacyclic.eval (fun i : Fin (n + 1) => ((reduced.getD i 0 : ℤ) : Circuits.Fr)) x) ∧
    ∀ lhs rhs, ∃ p, mul lhs rhs = some p ∧
      p.length = (if isZero lhs || isZero rhs then 1 else lhs.length + rhs.length - 1) ∧
      poly p = poly lhs * poly rhs := by
  refine ⟨?_, mul_spec⟩
  obtain ⟨product, hproduct, hlen, hmul⟩ :=
    productForFold_spec (List.length_ofFn (f := a)) (List.length_ofFn (f := u))
  obtain ⟨reduced, q, hfold, hlen', heq⟩ := foldNegacyclic_spec hlen
  rw [hmul, poly_eq_ofCoeffs hlen'] at heq
  refine ⟨product, reduced, hproduct, hfold, hlen', ?_, Eq.symm (Negacyclic.holdsAt_of_dvd ?_ x)⟩
  · have hdeg : (X ^ (n + 1) + 1 : ℤ[X]).degree = (n + 1 : ℕ) := degree_X_pow_add_C n.succ_pos 1
    have hmonic : (X ^ (n + 1) + 1 : ℤ[X]).Monic := monic_X_pow_add_C 1 n.succ_ne_zero
    rw [poly_eq_ofCoeffs hlen']
    refine (div_modByMonic_unique q _ hmonic ⟨heq.symm, ?_⟩).2.symm
    exact hdeg ▸ mem_degreeLT.1 (Negacyclic.ofCoeffs_mem _)
  · rw [← poly_ofFn a, ← poly_ofFn u, heq]
    exact ⟨-q, by ring⟩

end Interfold.Host
