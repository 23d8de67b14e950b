import Mathlib.Tactic.Linarith
import Mathlib.Data.Finset.Basic

/-!
# Places of a list

Writing to one place of a list replaces one value and keeps the others, up to order. A value that
occurs once has one place.
-/

namespace ListEdit

open List

variable {α : Type*} {l : List α} {i : ℕ} {a : α}

lemma split_at (h : l[i]? = some a) : ∃ l₁ l₂, l = l₁ ++ a :: l₂ ∧ l₁.length = i := by
  obtain ⟨hlt, rfl⟩ := List.getElem?_eq_some_iff.1 h
  refine ⟨l.take i, l.drop (i + 1), ?_, by simp [Nat.le_of_lt hlt]⟩
  rw [← drop_eq_getElem_cons hlt, take_append_drop]

lemma perm_cons_of_getElem? (h : l[i]? = some a) (b : α) :
    ∃ others, l ~ a :: others ∧ l.set i b ~ b :: others := by
  obtain ⟨l₁, l₂, rfl, rfl⟩ := split_at h
  refine ⟨l₁ ++ l₂, perm_middle, ?_⟩
  rw [set_append_right _ _ (Nat.le_refl _), Nat.sub_self, set_cons_zero]
  exact perm_middle

/-- A value is among the first ones exactly if its place is. -/
lemma mem_take_iff (hl : l.Nodup) (h : l[i]? = some a) : a ∈ l.take n ↔ i < n := by
  obtain ⟨l₁, l₂, rfl, rfl⟩ := split_at h
  have hnew : a ∉ l₁ := fun hmem => (nodup_append.1 hl).2.2 a hmem a (by simp) rfl
  rw [take_append, mem_append]
  constructor
  · rintro (hmem | hmem)
    · exact absurd (mem_of_mem_take hmem) hnew
    · by_contra hle
      rw [Nat.sub_eq_zero_of_le (Nat.le_of_not_lt hle), take_zero] at hmem
      cases hmem
  · intro hlt
    obtain ⟨k, hk⟩ := Nat.exists_eq_add_of_lt hlt
    refine .inr ?_
    rw [show n - l₁.length = k + 1 by omega, take_succ_cons]
    exact mem_cons_self ..

variable [DecidableEq α]

/-- Writing a new value over one of distinct values. -/
lemma toFinset_set (hl : l.Nodup) (h : l[i]? = some a) (hb : b ∉ l) :
    (l.set i b).Nodup ∧ (l.set i b).toFinset = insert b (l.toFinset.erase a) := by
  obtain ⟨others, hperm, hset⟩ := perm_cons_of_getElem? h b
  have hnodup := nodup_cons.1 (hperm.nodup_iff.1 hl)
  have hoth : others.toFinset = l.toFinset.erase a := by
    rw [toFinset_eq_of_perm _ _ hperm, toFinset_cons, Finset.erase_insert (by simpa using hnodup.1)]
  constructor
  · refine hset.nodup_iff.2 (nodup_cons.2 ⟨?_, hnodup.2⟩)
    intro hmem
    exact hb (hperm.mem_iff.2 (mem_cons_of_mem a hmem))
  · rw [toFinset_eq_of_perm _ _ hset, toFinset_cons, hoth]

end ListEdit
