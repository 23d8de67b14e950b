import Interfold.Library.Elimination
import Mathlib.Algebra.Field.ZMod
import Mathlib.LinearAlgebra.Vandermonde
import Mathlib.Tactic.LinearCombination

/-!
# Parity check matrices

The generator matrix of the polynomials of bounded degree, evaluated at `0, …, n`, and its null
space, which is the parity check matrix of the share proofs. `null_space` reduces the transposed
matrix together with an identity block, so the right block always holds the combination of rows
that the left block shows the values of.
-/

namespace Interfold

open Elimination Matrix Submodule Polynomial List Nat

/-- Why an operation on matrices failed. -/
inductive ParityMatrixError
  | invalidModulus (modulus : ℕ) (reason : String)
  | noModularInverse (a modulus : ℕ)
  | degreeConstraint (t n maxT : ℕ)

structure ParityMatrix where
  rows : ℕ
  cols : ℕ
  data : Fin rows → Fin cols → ℕ

namespace ParityMatrix

def zeros (rows cols : ℕ) : ParityMatrix := ⟨rows, cols, fun _ _ => 0⟩

/-- The matrix with the given rows, which all have one length. -/
def new {c : ℕ} : List (Fin c → ℕ) → ParityMatrix
  | [] => zeros 0 0
  | row :: rows => ⟨(row :: rows).length, c, (row :: rows).get⟩

/-! ## Inverses -/

def modPow (base exp modulus : ℕ) : ℕ :=
  if modulus = 1 then 0 else base ^ exp % modulus

/-- `old_s - quotient * s`, on signs and absolute values. -/
def subtractProduct (oldS s : Bool × ℕ) (quotient : ℕ) : Bool × ℕ :=
  let prod := quotient * s.2
  if oldS.1 = s.1 then
    if prod ≤ oldS.2 then (oldS.1, oldS.2 - prod) else (!oldS.1, prod - oldS.2)
  -- The source tells the two cases of different signs apart and does the same in both.
  else (oldS.1, oldS.2 + prod)

/-- The loop of `mod_inverse`. -/
def euclid (oldR r : ℕ) (oldS s : Bool × ℕ) : ℕ × Bool × ℕ :=
  if h : r = 0 then (oldR, oldS)
  else
    have : oldR - oldR / r * r < r := by
      rw [← mod_eq_sub_div_mul]
      exact mod_lt _ (pos_of_ne_zero h)
    euclid r (oldR - oldR / r * r) s (subtractProduct oldS s (oldR / r))
termination_by r

def modInverse (a modulus : ℕ) : Except ParityMatrixError ℕ :=
  if modulus = 0 then .error (.invalidModulus modulus "modulus cannot be zero")
  else if modulus = 1 then
    .error (.invalidModulus modulus "modular inverse is undefined for modulus = 1")
  else if a % modulus = 0 then .error (.noModularInverse a modulus)
  else
    let (oldR, oldS) := euclid (a % modulus) modulus (true, 1) (true, 0)
    if oldR ≠ 1 then .error (.noModularInverse a modulus)
    else if oldS.1 then .ok (oldS.2 % modulus)
    else if oldS.2 % modulus = 0 then .ok 0
    else .ok (modulus - oldS.2 % modulus)

/-! ## Null spaces -/

section

variable {r c : ℕ}

/-- A row for each column of the matrix, with the entries of that column on the left and the row of
an identity matrix on the right. -/
abbrev Augmented (r c : ℕ) := Fin c → Fin r ⊕ Fin c → ℕ

def augment (m : ParityMatrix) : Augmented m.rows m.cols :=
  fun i => Sum.elim (fun j => m.data j i) fun j => if j = i then 1 else 0

/-- Scales the pivot row by `inv` and eliminates the other entries of the column. -/
def clearColumn (q inv : ℕ) (pivot : Fin c) (col : Fin r) (aug : Augmented r c) :
    Augmented r c := fun row j =>
  if row = pivot then aug pivot j * inv % q
  else if aug row (.inl col) ≠ 0 then
    (q + aug row j - aug row (.inl col) * (aug pivot j * inv % q) % q) % q
  else aug row j

/-- The loop over the columns of the left block. -/
def eliminate (q : ℕ) : List (Fin r) → ℕ → Augmented r c → Except ParityMatrixError (Augmented r c)
  | [], _, aug => .ok aug
  | col :: rest, pivotRow, aug =>
    if h : pivotRow < c then
      match (finRange c).find? fun row => pivotRow ≤ row.val ∧ aug row (.inl col) ≠ 0 with
      | none => eliminate q rest pivotRow aug
      | some row =>
        let swapped := aug ∘ Equiv.swap ⟨pivotRow, h⟩ row
        match modInverse (swapped ⟨pivotRow, h⟩ (.inl col)) q with
        | .error e => .error e
        | .ok inv =>
          eliminate q rest (pivotRow + 1) (clearColumn q inv ⟨pivotRow, h⟩ col swapped)
    else .ok aug

def nullBasis (aug : Augmented r c) : List (Fin c → ℕ) :=
  (finRange c).filterMap fun i =>
    if (∀ j, aug i (.inl j) = 0) ∧ ∃ j, aug i (.inr j) ≠ 0 then some fun j => aug i (.inr j)
    else none

end

def nullSpace (m : ParityMatrix) (q : ℕ) : Except ParityMatrixError ParityMatrix :=
  if m.rows = 0 then .ok (zeros 0 0)
  else
    match eliminate q (finRange m.rows) 0 m.augment with
    | .error e => .error e
    | .ok aug => .ok (new (nullBasis aug))

/-- The matrix of `j ^ i mod q`, with a row for each power and a column for each point. -/
def buildGeneratorMatrix (q t n : ℕ) : Except ParityMatrixError ParityMatrix :=
  if q = 0 ∨ q = 1 then
    .error (.invalidModulus q "modulus must be >= 2 for valid field arithmetic")
  else if (n - 1) / 2 < t then .error (.degreeConstraint t n ((n - 1) / 2))
  else .ok (new (ofFn fun (i : Fin (t + 1)) (j : Fin (n + 1)) => modPow j i q))

/-! ## Over the field -/

/-- The entries as elements of the field. -/
def lift {ι : Type*} (q : ℕ) (v : ι → ℕ) (i : ι) : ZMod q := v i

/-- The matrix over the field. -/
def residues (m : ParityMatrix) (q : ℕ) : Matrix (Fin m.rows) (Fin m.cols) (ZMod q) :=
  fun i => lift q (m.data i)

variable {q r c : ℕ}

/-- The right block over the field. -/
def right (q : ℕ) (aug : Augmented r c) (i : Fin c) : Fin c → ZMod q :=
  lift q fun j => aug i (.inr j)

/-- The value of a row of the matrix at a vector. -/
def row (A : Matrix (Fin r) (Fin c) (ZMod q)) (k : Fin r) : Module.Dual (ZMod q) (Fin c → ZMod q) :=
  LinearMap.proj k ∘ₗ A.mulVecLin

/-- The left block holds the values at the vectors of the right block. -/
structure Tracks (A : Matrix (Fin r) (Fin c) (ZMod q)) (aug : Augmented r c) : Prop where
  lt : ∀ i j, aug i j < q
  left : ∀ i k, (aug i (.inl k) : ZMod q) = row A k (right q aug i)

/-- The vectors are a basis of the right null space, with reduced entries. -/
structure NullBasis (A : Matrix (Fin r) (Fin c) (ZMod q)) (basis : List (Fin c → ℕ)) : Prop where
  lt : ∀ v ∈ basis, ∀ j, v j < q
  independent : LinearIndependent (ZMod q) fun i => lift q (basis.get i)
  spans : span (ZMod q) (Set.range fun i => lift q (basis.get i)) = LinearMap.ker A.mulVecLin

/-- The vector holds the values of a polynomial of degree at most `t` at its positions. -/
def IsEvaluation {n : ℕ} (t : ℕ) (v : Fin n → ZMod q) : Prop :=
  ∃ f : (ZMod q)[X], f.natDegree ≤ t ∧ ∀ j, v j = f.eval (j : ZMod q)

/-! ## Extended Euclid -/

/-- What a sign and an absolute value stand for. -/
def value (s : Bool × ℕ) : ℤ := if s.1 then s.2 else -s.2

lemma value_subtractProduct (oldS s : Bool × ℕ) (quotient : ℕ) :
    value (subtractProduct oldS s quotient) = value oldS - quotient * value s := by
  obtain ⟨_ | _, m⟩ := oldS <;> obtain ⟨_ | _, n⟩ := s <;>
    simp only [subtractProduct, value] <;> grind

/-- The loop ends with the greatest common divisor and its coefficient. -/
lemma euclid_spec (oldR r : ℕ) (oldS s : Bool × ℕ) (hold : (value oldS * a : ZMod m) = oldR)
    (hs : (value s * a : ZMod m) = r) : (euclid oldR r oldS s).1 = oldR.gcd r ∧
      (value (euclid oldR r oldS s).2 * a : ZMod m) = (oldR.gcd r : ℕ) := by
  fun_induction euclid oldR r oldS s with
  | case1 => simpa using hold
  | case2 oldR r oldS s hr hlt ih =>
    have hstep : oldR - oldR / r * r = oldR % r := (mod_eq_sub_div_mul ..).symm
    have hgcd : r.gcd (oldR % r) = oldR.gcd r := by rw [gcd_comm, ← gcd_rec, gcd_comm]
    rw [hstep, hgcd] at ih
    rw [hstep]
    refine ih hs ?_
    have hdiv : ((oldR / r * r + oldR % r : ℕ) : ZMod m) = oldR := by rw [div_add_mod']
    push_cast at hdiv
    rw [value_subtractProduct, Int.cast_sub, Int.cast_mul, Int.cast_natCast]
    linear_combination hold - (↑(oldR / r) : ZMod m) * hs - hdiv

variable [Fact q.Prime]

lemma modInverse_ok {a : ℕ} (ha : (a : ZMod q) ≠ 0) :
    ∃ inv, modInverse a q = .ok inv ∧ (inv : ZMod q) = (a : ZMod q)⁻¹ := by
  have hq := (Fact.out : q.Prime)
  have hmod : a % q ≠ 0 := by rwa [Ne, ← dvd_iff_mod_eq_zero, ← ZMod.natCast_eq_zero_iff]
  have hcopr : (a % q).gcd q = 1 := by
    rw [← gcd_rec, gcd_comm]
    exact ((Nat.Prime.coprime_iff_not_dvd hq).2 fun h =>
      ha ((ZMod.natCast_eq_zero_iff a q).2 h)).symm
  obtain ⟨hone, hvalue⟩ := euclid_spec (m := q) (a := a) (a % q) q (true, 1) (true, 0)
    (by simp [value]) (by simp [value])
  rw [hcopr] at hone hvalue
  have hinv := eq_inv_of_mul_eq_one_left (hvalue.trans cast_one)
  simp only [modInverse, hq.ne_zero, hq.ne_one, hmod, if_false, hone, ne_eq, not_true_eq_false]
  rw [← hinv, value]
  split_ifs with hsign hzero
  · exact ⟨_, rfl, by simp⟩
  · refine ⟨_, rfl, ?_⟩
    simp [(ZMod.natCast_eq_zero_iff _ q).2 (dvd_of_mod_eq_zero hzero)]
  · refine ⟨_, rfl, ?_⟩
    rw [cast_sub (mod_lt _ hq.pos).le]
    simp

/-! ## Elimination -/

section

variable {A : Matrix (Fin r) (Fin c) (ZMod q)} {aug : Augmented r c}

lemma Tracks.eq_zero_iff (h : Tracks A aug) (i : Fin c) (k : Fin r) :
    aug i (.inl k) = 0 ↔ row A k (right q aug i) = 0 := by
  rw [← h.left, ZMod.natCast_eq_zero_iff]
  exact ⟨fun hzero => hzero ▸ dvd_zero q, fun hdvd => eq_zero_of_dvd_of_lt hdvd (h.lt _ _)⟩

lemma cast_clearColumn (q inv : ℕ) [NeZero q] (pivot : Fin c) (col : Fin r) (aug : Augmented r c)
    (i : Fin c) (j : Fin r ⊕ Fin c) : (clearColumn q inv pivot col aug i j : ZMod q) =
      if i = pivot then (inv : ZMod q) * aug pivot j
      else (aug i j : ZMod q) - aug i (.inl col) * (inv * aug pivot j) := by
  unfold clearColumn
  split_ifs with hi hzero
  · simp [mul_comm]
  · have hle : aug i (.inl col) * (aug pivot j * inv % q) % q ≤ q + aug i j :=
      (mod_lt _ (NeZero.pos q)).le.trans (le_add_right _ _)
    rw [ZMod.natCast_mod, cast_sub hle]
    simp [mul_comm (inv : ZMod q)]
  · simp_all

variable {pivot : Fin c} {col : Fin r} {inv : ℕ}

lemma right_clearColumn (h : Tracks A aug)
    (hinv : (inv : ZMod q) = (aug pivot (.inl col) : ZMod q)⁻¹) :
    right q (clearColumn q inv pivot col aug) = clear (row A col) pivot (right q aug) := by
  funext i j
  simp only [right, lift, cast_clearColumn, clear, hinv, h.left]
  split_ifs <;> simp [lift]

lemma Tracks.clearColumn (h : Tracks A aug)
    (hinv : (inv : ZMod q) = (aug pivot (.inl col) : ZMod q)⁻¹) :
    Tracks A (clearColumn q inv pivot col aug) where
  lt i j := by
    have hpos := (Fact.out : q.Prime).pos
    unfold ParityMatrix.clearColumn
    split_ifs
    · exact mod_lt _ hpos
    · exact mod_lt _ hpos
    · exact h.lt i j
  left i k := by
    rw [cast_clearColumn, right_clearColumn h hinv, map_clear, hinv]
    simp only [h.left]

omit [Fact q.Prime] in
lemma Tracks.swap (h : Tracks A aug) (a b : Fin c) : Tracks A (aug ∘ Equiv.swap a b) :=
  ⟨fun _ _ => h.lt _ _, fun _ _ => h.left _ _⟩

/-- The loop returns, with every row of the matrix reduced. -/
lemma eliminate_ok (cols : List (Fin r)) (done : Set (Fin r)) {p : ℕ}
    (hall : ∀ k, k ∈ done ∨ k ∈ cols) (h : Tracks A aug)
    (hpiv : Pivoted (row A '' done) p (right q aug)) :
    ∃ aug' p', eliminate q cols p aug = .ok aug' ∧ Tracks A aug' ∧
      Pivoted (Set.range (row A)) p' (right q aug') := by
  induction cols generalizing done p aug with
  | nil =>
    have hdone : done = Set.univ := Set.eq_univ_of_forall fun k => by simpa using hall k
    rw [hdone, Set.image_univ] at hpiv
    exact ⟨aug, p, rfl, h, hpiv⟩
  | cons col rest ih =>
    have hall' : ∀ k, k ∈ insert col done ∨ k ∈ rest := by grind
    unfold eliminate
    split_ifs with hp
    · split
      · rename_i hnone
        refine ih (insert col done) hall' h ?_
        rw [Set.image_insert_eq]
        refine hpiv.skip fun i hi => (h.eq_zero_iff i col).1 ?_
        simpa [hi] using find?_eq_none.1 hnone i (mem_finRange i)
      · rename_i i hsome
        have hi := find?_some hsome
        simp only [ne_eq, decide_eq_true_eq] at hi
        have hswap := h.swap ⟨p, hp⟩ i
        have hpivot : row A col (right q (aug ∘ Equiv.swap ⟨p, hp⟩ i) ⟨p, hp⟩) ≠ 0 := by
          rw [Ne, ← hswap.eq_zero_iff]
          simpa using hi.2
        obtain ⟨inv, hok, hinv⟩ := modInverse_ok (q := q) (by rwa [hswap.left])
        simp only [hok]
        refine ih (insert col done) hall' (hswap.clearColumn hinv) ?_
        rw [Set.image_insert_eq, right_clearColumn hswap hinv]
        exact (hpiv.swap le_rfl hi.1).clear rfl hpivot
    · exact ⟨aug, p, rfl, h, hpiv.full (by omega) (Set.image_subset_range ..)⟩

/-- The returned rows are the vectors of the right block in the kernel. -/
lemma nullBasis_eq (h : Tracks A aug) (hindep : LinearIndependent (ZMod q) (right q aug)) :
    nullBasis aug = ((finRange c).filter fun i => ∀ k, row A k (right q aug i) = 0).map
      fun i j => aug i (.inr j) := by
  rw [← filterMap_eq_map, filterMap_filter]
  refine filterMap_congr fun i _ => ?_
  have hne : ∃ j, aug i (.inr j) ≠ 0 := by
    by_contra hzero
    push Not at hzero
    exact hindep.ne_zero i (funext fun j => by simp [right, lift, hzero])
  simp [hne, h.eq_zero_iff]

lemma tracks_augment {m : ParityMatrix} (hm : ∀ i j, m.data i j < q) :
    Tracks (m.residues q) m.augment where
  lt i j := by
    have hone := (Fact.out : q.Prime).one_lt
    rcases j with j | j
    · exact hm j i
    · simp only [augment, Sum.elim_inr]
      split_ifs <;> omega
  left i k := by
    have hright : right q m.augment i = Pi.single i 1 := by
      funext j
      simp [right, lift, augment, Pi.single_apply]
    simp [row, hright, residues, lift, augment]

lemma span_augment (m : ParityMatrix) : span (ZMod q) (Set.range (right q m.augment)) = ⊤ := by
  have hright : right q m.augment = Pi.basisFun (ZMod q) (Fin m.cols) := by
    funext i j
    simp [right, lift, augment, Pi.single_apply]
  rw [hright, (Pi.basisFun (ZMod q) (Fin m.cols)).span_eq]

lemma NullBasis.length_add_rank (h : NullBasis A basis) : basis.length + A.rank = c := by
  have hker := finrank_span_eq_card h.independent
  have hrank := A.mulVecLin.finrank_range_add_finrank_ker
  rw [h.spans, Fintype.card_fin] at hker
  rw [Module.finrank_fin_fun] at hrank
  rw [Matrix.rank]
  omega

lemma nullBasis_of_pivoted (h : Tracks A aug)
    (hpiv : Pivoted (Set.range (row A)) p (right q aug)) : NullBasis A (nullBasis aug) := by
  have hindep := hpiv.linearIndependent (Module.finrank_fin_fun _)
  rw [nullBasis_eq h hindep]
  set kernel := (finRange c).filter fun i => ∀ k, row A k (right q aug i) = 0
  have hlen : (kernel.map fun i j => aug i (.inr j)).length = kernel.length := length_map _
  have hget : (fun i => lift q ((kernel.map fun i j => aug i (.inr j)).get i)) =
      right q aug ∘ kernel.get ∘ finCongr hlen := by
    funext i
    simp [right]
  refine ⟨?_, ?_, ?_⟩
  · intro v hv j
    obtain ⟨i, -, rfl⟩ := mem_map.1 hv
    exact h.lt i _
  · have hnodup : kernel.Nodup := (nodup_finRange c).filter _
    rw [hget]
    exact hindep.comp _ (hnodup.injective_get.comp (finCongr hlen).injective)
  · have hrange : Set.range (kernel.get ∘ finCongr hlen) =
        {i | ∀ ψ ∈ Set.range (row A), ψ (right q aug i) = 0} := by
      rw [EquivLike.range_comp, Set.range_list_get]
      ext i
      simp [kernel]
    ext v
    rw [hget, Set.range_comp, hrange, hpiv.mem_span_iff]
    simp [row, funext_iff]

lemma nullSpace_ok (hrows : 0 < m.rows) (hm : ∀ i j, m.data i j < q) :
    ∃ basis, nullSpace m q = .ok (new basis) ∧ NullBasis (m.residues q) basis := by
  obtain ⟨aug, p, hok, htrac, hpiv⟩ := eliminate_ok (finRange m.rows) ∅
    (fun k => .inr (mem_finRange k)) (tracks_augment hm) (p := 0)
    (by simpa using Pivoted.start (span_augment m))
  refine ⟨nullBasis aug, ?_, nullBasis_of_pivoted htrac hpiv⟩
  simp only [nullSpace, hrows.ne', if_false, hok]

end

/-! ## Evaluations of polynomials -/

lemma exists_generator_ok (ht : t ≤ (n - 1) / 2) :
    ∃ rows : List (Fin (n + 1) → ℕ), rows.length = t + 1 ∧
      buildGeneratorMatrix q t n = .ok ⟨rows.length, n + 1, rows.get⟩ ∧
      ∀ i j, rows.get i j = (j : ℕ) ^ (i : ℕ) % q := by
  have hq := (Fact.out : q.Prime)
  refine ⟨ofFn fun (i : Fin (t + 1)) (j : Fin (n + 1)) => modPow j i q, by simp, ?_, ?_⟩
  · have hq' : ¬(q = 0 ∨ q = 1) := by simp [hq.ne_zero, hq.ne_one]
    rw [buildGeneratorMatrix, if_neg hq', if_neg (by omega), ofFn_succ]
    rfl
  · simp [modPow, hq.ne_one]

variable {n t k : ℕ} {A : Matrix (Fin k) (Fin (n + 1)) (ZMod q)}

/-- Powers of distinct points are independent. -/
lemma rank_of_powers (hk : k ≤ n + 1) (hn : n < q)
    (hA : ∀ i j, A i j = ((j : ℕ) : ZMod q) ^ (i : ℕ)) : A.rank = k := by
  have hinjec : Function.Injective fun j : Fin (n + 1) => ((j : ℕ) : ZMod q) := by
    intro i j hij
    rw [ZMod.natCast_eq_natCast_iff', mod_eq_of_lt (by omega), mod_eq_of_lt (by omega)] at hij
    exact Fin.ext hij
  have hdet := det_vandermonde_ne_zero_iff.2 hinjec
  rw [← det_transpose] at hdet
  have hrows := (linearIndependent_rows_of_det_ne_zero hdet).comp _ (Fin.castLE_injective hk)
  have hrow : A.row = (fun i => (vandermonde fun j : Fin (n + 1) => ((j : ℕ) : ZMod q))ᵀ i) ∘
      Fin.castLE hk := by
    funext i j
    exact hA i j
  rw [← hrow] at hrows
  simpa using hrows.rank_matrix

lemma exists_mulVec_iff_isEvaluation (hA : ∀ i j, A i j = ((j : ℕ) : ZMod q) ^ (i : ℕ))
    (hk : k = t + 1) (v : Fin (n + 1) → ZMod q) : (∃ a, v = Aᵀ *ᵥ a) ↔ IsEvaluation t v := by
  have hmul : ∀ a j, (Aᵀ *ᵥ a) j = ∑ i : Fin k, a i * ((j : ℕ) : ZMod q) ^ (i : ℕ) := by
    intro a j
    simp [mulVec, dotProduct, hA, mul_comm]
  constructor
  · rintro ⟨a, rfl⟩
    refine ⟨∑ i : Fin k, C (a i) * X ^ (i : ℕ), ?_, fun j => ?_⟩
    · refine natDegree_sum_le_of_forall_le _ _ fun i _ => (natDegree_C_mul_X_pow_le _ _).trans ?_
      omega
    · simp [hmul, eval_finsetSum]
  · rintro ⟨f, hf, hv⟩
    refine ⟨fun i => f.coeff i, funext fun j => ?_⟩
    rw [hv, hmul, eval_eq_sum_range' (lt_succ_of_le hf), hk,
      Fin.sum_univ_eq_sum_range fun i => f.coeff i * ((j : ℕ) : ZMod q) ^ i]

@[simp] lemma rows_new (rows : List (Fin c → ℕ)) : (new rows).rows = rows.length := by
  cases rows <;> rfl

lemma parity_check_of_generator (ht : t ≤ (n - 1) / 2) (hn : n < q) :
    ∃ g basis, buildGeneratorMatrix q t n = .ok g ∧ nullSpace g q = .ok (new basis) ∧
      (new basis).rows = n - t ∧ ∀ v : Fin (n + 1) → ZMod q,
        (∀ h ∈ basis, lift q h ⬝ᵥ v = 0) ↔ IsEvaluation t v := by
  obtain ⟨rows, hlen, hok, hrows⟩ := exists_generator_ok (q := q) ht
  have hlt : ∀ i j, rows.get i j < q := fun i j => by
    rw [hrows]
    exact mod_lt _ (Fact.out : q.Prime).pos
  obtain ⟨basis, hnull, hbasis⟩ := nullSpace_ok (m := ⟨rows.length, n + 1, rows.get⟩)
    (lt_of_lt_of_eq (succ_pos t) hlen.symm) hlt
  let A : Matrix (Fin rows.length) (Fin (n + 1)) (ZMod q) := fun i => lift q (rows.get i)
  have hA : ∀ i j, A i j = ((j : ℕ) : ZMod q) ^ (i : ℕ) := by
    intro i j
    simp only [A, lift, hrows, ZMod.natCast_mod, cast_pow]
  replace hbasis : NullBasis A basis := hbasis
  refine ⟨_, basis, hok, hnull, ?_, fun v => ?_⟩
  · have hsum := hbasis.length_add_rank
    rw [rank_of_powers (by omega) hn hA] at hsum
    rw [rows_new]
    omega
  · rw [← exists_mulVec_iff_isEvaluation hA hlen,
      ← mulVec_eq_zero_iff (H := .of fun i => lift q (basis.get i)) hbasis.independent hbasis.spans,
      funext_iff, forall_mem_iff_get]
    rfl

/-- The null space of every matrix over a prime field that has a row is found, and that of the
generator matrix is a parity check matrix for the evaluations of polynomials of bounded degree. -/
theorem null_space_spans_kernel (q : ℕ) [Fact q.Prime] :
    (∀ m : ParityMatrix, 0 < m.rows → (∀ i j, m.data i j < q) →
      ∃ basis, nullSpace m q = .ok (new basis) ∧ NullBasis (m.residues q) basis ∧
        basis.length + (m.residues q).rank = m.cols) ∧
    ∀ n t, n < q → t ≤ (n - 1) / 2 →
      ∃ g basis, buildGeneratorMatrix q t n = .ok g ∧ nullSpace g q = .ok (new basis) ∧
        (new basis).rows = n - t ∧ ∀ v : Fin (n + 1) → ZMod q,
          (∀ h ∈ basis, lift q h ⬝ᵥ v = 0) ↔ IsEvaluation t v := by
  constructor
  · intro m hrows hm
    obtain ⟨basis, hok, hbasis⟩ := nullSpace_ok hrows hm
    exact ⟨basis, hok, hbasis, hbasis.length_add_rank⟩
  · intro n t hn ht
    exact parity_check_of_generator ht hn

theorem null_space_of_one_row :
    (∃ basis, nullSpace (zeros 1 2) 3 = .ok (new basis) ∧ NullBasis ((zeros 1 2).residues 3) basis ∧
      basis.length + ((zeros 1 2).residues 3).rank = 2) ∧
    ∃ g basis, buildGeneratorMatrix 3 0 2 = .ok g ∧ nullSpace g 3 = .ok (new basis) ∧
      (new basis).rows = 2 ∧ ∀ v : Fin 3 → ZMod 3,
        (∀ h ∈ basis, lift 3 h ⬝ᵥ v = 0) ↔ IsEvaluation 0 v :=
  ⟨(null_space_spans_kernel 3).1 (zeros 1 2) (by decide) (by decide),
    (null_space_spans_kernel 3).2 2 0 (by decide) (by decide)⟩

/-- Without rows every vector is in the null space, but none is returned. -/
theorem null_space_of_no_rows :
    ¬∃ basis, nullSpace (zeros 0 1) 3 = .ok (new basis) ∧ NullBasis ((zeros 0 1).residues 3) basis := by
  rintro ⟨basis, hok, hbasis⟩
  have hnew : zeros 0 0 = new basis := Except.ok.inj hok
  have hlength : 0 = basis.length := (congrArg rows hnew).trans (rows_new basis)
  have hsum : basis.length + ((zeros 0 1).residues 3).rank = 1 := hbasis.length_add_rank
  have hrank : ((zeros 0 1).residues 3).rank ≤ 0 := rank_le_height _
  omega

end ParityMatrix

end Interfold
