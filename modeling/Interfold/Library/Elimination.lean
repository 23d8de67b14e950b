import Mathlib.LinearAlgebra.Matrix.Rank

/-!
# Gauss–Jordan elimination

A family of vectors that spans a space is brought, one functional after the other, into a form in
which the common kernel of the functionals is spanned by the vectors from some position on. The
functionals are arbitrary, so a matrix is reduced by reading them off its rows.
-/

namespace Elimination

open Submodule Module Matrix LinearMap

variable {K V : Type*} [Field K] [AddCommGroup V] [Module K V] {c p : ℕ} {x : Fin c → V}
  {φ : Dual K V} {φs : Set (Dual K V)}

/-- Scales the pivot to the value one and clears the value of every other vector. -/
def clear (φ : Dual K V) (pivot : Fin c) (x : Fin c → V) (i : Fin c) : V :=
  if i = pivot then (φ (x pivot))⁻¹ • x pivot else x i - φ (x i) • (φ (x pivot))⁻¹ • x pivot

lemma map_clear (ψ : Dual K V) (φ : Dual K V) (pivot : Fin c) (x : Fin c → V) (i : Fin c) :
    ψ (clear φ pivot x i) = if i = pivot then (φ (x pivot))⁻¹ * ψ (x pivot)
      else ψ (x i) - φ (x i) * ((φ (x pivot))⁻¹ * ψ (x pivot)) := by
  unfold clear
  split_ifs <;> simp

lemma span_clear (h : φ (x pivot) ≠ 0) (hspans : span K (Set.range x) = ⊤) :
    span K (Set.range (clear φ pivot x)) = ⊤ := by
  have hmem : ∀ i, clear φ pivot x i ∈ span K (Set.range (clear φ pivot x)) :=
    fun i => subset_span ⟨i, rfl⟩
  have hpivot : (φ (x pivot))⁻¹ • x pivot ∈ span K (Set.range (clear φ pivot x)) := by
    simpa [clear] using hmem pivot
  rw [← top_le_iff, ← hspans, span_le]
  rintro - ⟨i, rfl⟩
  by_cases hi : i = pivot
  · subst hi
    simpa [smul_smul, h] using smul_mem _ (φ (x i)) hpivot
  · have hother := hmem i
    rw [clear, if_neg hi] at hother
    simpa using add_mem hother (smul_mem _ (φ (x i)) hpivot)

/-- The vectors before position `p` are dual to some of the functionals, and the others lie in the
kernel of all of them. -/
structure Pivoted (φs : Set (Dual K V)) (p : ℕ) (x : Fin c → V) : Prop where
  spans : span K (Set.range x) = ⊤
  dual : ∀ i : Fin c, i.val < p → ∃ ψ ∈ φs, ∀ k, ψ (x k) = if k = i then 1 else 0
  vanish : ∀ i : Fin c, p ≤ i.val → ∀ ψ ∈ φs, ψ (x i) = 0

namespace Pivoted

lemma start (h : span K (Set.range x) = ⊤) : Pivoted (∅ : Set (Dual K V)) 0 x :=
  ⟨h, fun _ hi => absurd hi (Nat.not_lt_zero _), fun _ _ _ hψ => absurd hψ (Set.notMem_empty _)⟩

section

variable (h : Pivoted φs p x)
include h

/-- A functional without a pivot is passed over. -/
lemma skip (hφ : ∀ i : Fin c, p ≤ i.val → φ (x i) = 0) : Pivoted (insert φ φs) p x where
  spans := h.spans
  dual i hi := by
    obtain ⟨ψ, hψ, hdual⟩ := h.dual i hi
    exact ⟨ψ, .inr hψ, hdual⟩
  vanish i hi ψ hψ := by
    rcases hψ with rfl | hψ
    · exact hφ i hi
    · exact h.vanish i hi ψ hψ

lemma swap (ha : p ≤ a.val) (hb : p ≤ b.val) : Pivoted φs p (x ∘ Equiv.swap a b) where
  spans := by rw [EquivLike.range_comp, h.spans]
  dual i hi := by
    obtain ⟨ψ, hψ, hdual⟩ := h.dual i hi
    refine ⟨ψ, hψ, fun k => ?_⟩
    have hfix : Equiv.swap a b i = i := Equiv.swap_apply_of_ne_of_ne (by omega) (by omega)
    have hiff : Equiv.swap a b k = i ↔ k = i := by rw [Equiv.swap_apply_eq_iff, hfix]
    simp [hdual, hiff]
  vanish i hi := by
    apply h.vanish
    rw [Equiv.swap_apply_def]
    split_ifs <;> assumption

lemma clear (hp : pivot.val = p) (hφ : φ (x pivot) ≠ 0) :
    Pivoted (insert φ φs) (p + 1) (clear φ pivot x) where
  spans := span_clear hφ h.spans
  dual i hi := by
    by_cases hpivot : i = pivot
    · refine ⟨φ, .inl rfl, fun k => ?_⟩
      rw [map_clear, hpivot, inv_mul_cancel₀ hφ, mul_one, sub_self]
    · obtain ⟨ψ, hψ, hdual⟩ := h.dual i (by omega)
      refine ⟨ψ, .inr hψ, fun k => ?_⟩
      rw [map_clear]
      grind
  vanish i hi ψ hψ := by
    have hne : i ≠ pivot := by omega
    rw [map_clear, if_neg hne]
    rcases hψ with rfl | hψ
    · rw [inv_mul_cancel₀ hφ, mul_one, sub_self]
    · rw [h.vanish i (by omega) ψ hψ, h.vanish pivot (by omega) ψ hψ, mul_zero, mul_zero, sub_self]

/-- Once every vector is a pivot the remaining functionals do not matter. -/
lemma full (hp : c ≤ p) (hsub : φs ⊆ φs') : Pivoted φs' p x where
  spans := h.spans
  dual i hi := by
    obtain ⟨ψ, hψ, hdual⟩ := h.dual i hi
    exact ⟨ψ, hsub hψ, hdual⟩
  vanish i hi := absurd i.isLt (by omega)

lemma vanish_iff (i : Fin c) : (∀ ψ ∈ φs, ψ (x i) = 0) ↔ p ≤ i.val := by
  refine ⟨fun hall => ?_, h.vanish i⟩
  by_contra hlt
  obtain ⟨ψ, hψ, hdual⟩ := h.dual i (by omega)
  simpa [hall ψ hψ] using hdual i

/-- The common kernel is spanned by the vectors that lie in it. -/
lemma mem_span_iff (v : V) : v ∈ span K (x '' {i | ∀ ψ ∈ φs, ψ (x i) = 0}) ↔ ∀ ψ ∈ φs, ψ v = 0 := by
  constructor
  · intro hv ψ hψ
    have hle : span K (x '' {i | ∀ ψ ∈ φs, ψ (x i) = 0}) ≤ ker ψ := by
      rw [span_le]
      rintro - ⟨i, hi, rfl⟩
      exact hi ψ hψ
    exact hle hv
  · intro hv
    obtain ⟨a, rfl⟩ := (mem_span_range_iff_exists_fun K).1 (h.spans ▸ mem_top (x := v))
    refine sum_mem fun i _ => ?_
    by_cases hi : p ≤ i.val
    · exact smul_mem _ _ (subset_span ⟨i, (h.vanish_iff i).2 hi, rfl⟩)
    · obtain ⟨ψ, hψ, hdual⟩ := h.dual i (by omega)
      have hcoeff := hv ψ hψ
      simp only [map_sum, map_smul, hdual, smul_eq_mul, mul_ite, mul_one, mul_zero,
        Finset.sum_ite_eq', Finset.mem_univ, if_true] at hcoeff
      simp [hcoeff]

lemma linearIndependent (hc : finrank K V = c) : LinearIndependent K x :=
  linearIndependent_of_top_le_span_of_card_eq_finrank h.spans.ge (by simp [hc])

end

end Pivoted

/-- The vectors orthogonal to a basis of the kernel are the combinations of the rows. -/
lemma mulVec_eq_zero_iff {m n ι : Type*} [Fintype m] [Fintype n] [Fintype ι] {G : Matrix m n K}
    {H : Matrix ι n K} (hindep : LinearIndependent K H.row)
    (hspan : span K (Set.range H.row) = ker G.mulVecLin) (v : n → K) :
    H *ᵥ v = 0 ↔ ∃ a, v = Gᵀ *ᵥ a := by
  have hle : range Gᵀ.mulVecLin ≤ ker H.mulVecLin := by
    rintro - ⟨a, rfl⟩
    ext i
    have hi : G *ᵥ H.row i = 0 := hspan.le (subset_span ⟨i, rfl⟩)
    calc H.row i ⬝ᵥ (Gᵀ *ᵥ a) = (G *ᵥ H.row i) ⬝ᵥ a := by
          rw [dotProduct_mulVec, vecMul_transpose]
      _ = 0 := by rw [hi, zero_dotProduct]
  have heq : range Gᵀ.mulVecLin = ker H.mulVecLin := by
    refine eq_of_le_of_finrank_eq hle ?_
    have hker := finrank_span_eq_card hindep
    have hH := H.mulVecLin.finrank_range_add_finrank_ker
    have hG := G.mulVecLin.finrank_range_add_finrank_ker
    have hrank : finrank K (range H.mulVecLin) = Fintype.card ι :=
      hindep.rank_matrix
    have hrows : finrank K (range Gᵀ.mulVecLin) = finrank K (range G.mulVecLin) := G.rank_transpose
    rw [hspan] at hker
    omega
  have hmem := SetLike.ext_iff.1 heq v
  simp only [mem_range, mem_ker, mulVecLin_apply] at hmem
  exact hmem.symm.trans (exists_congr fun a => eq_comm)

end Elimination
