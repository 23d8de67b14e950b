import Mathlib.Tactic.Linarith
import Mathlib.Data.Finset.Basic

/-!
# Replays and conflicts

Of the messages with one key the first is kept. Another message with the key is a replay if it is
equal to the kept one, and otherwise the key is in conflict.
-/

namespace Replays

open List

variable {α κ : Type} [DecidableEq α] [DecidableEq κ]

structure Collapsed (α κ : Type) where
  kept : List α
  conflicting : Finset κ

def add (key : α → κ) (c : Collapsed α κ) (a : α) : Collapsed α κ :=
  match c.kept.find? fun b => key b = key a with
  | some b => if b = a then c else { c with conflicting := insert (key a) c.conflicting }
  | none => { c with kept := c.kept ++ [a] }

def collapse (key : α → κ) (l : List α) : Collapsed α κ := l.foldl (add key) ⟨[], ∅⟩

/-- What is kept of a list: one message of every key, and the keys of all others that differ. -/
structure Represents (key : α → κ) (l : List α) (c : Collapsed α κ) : Prop where
  nodup : (c.kept.map key).Nodup
  sub : ∀ a ∈ c.kept, a ∈ l
  covers : ∀ a ∈ l, ∃ b ∈ c.kept, key b = key a
  conflicts : ∀ k ∈ c.conflicting, ∃ a ∈ l, key a = k
  unique : ∀ b ∈ c.kept, key b ∉ c.conflicting → ∀ a ∈ l, key a = key b → a = b

variable {key : α → κ} {l : List α} {c : Collapsed α κ}

lemma Represents.add (h : Represents key l c) (a : α) :
    Represents key (l ++ [a]) (add key c a) := by
  have hl : ∀ x ∈ l, x ∈ l ++ [a] := fun x hx => mem_append_left _ hx
  have ha : a ∈ l ++ [a] := by simp
  unfold Replays.add
  cases hfind : c.kept.find? fun b => key b = key a with
  | none =>
    -- The first message with its key.
    have hnew : ∀ b ∈ c.kept, key b ≠ key a := by simpa using find?_eq_none.1 hfind
    refine ⟨?_, ?_, ?_, ?_, ?_⟩
    · rw [map_append, map_singleton, ← concat_eq_append]
      apply h.nodup.concat
      intro hmem
      obtain ⟨b, hb, hkey⟩ := mem_map.1 hmem
      exact hnew b hb hkey
    · grind [h.sub]
    · grind [h.covers]
    · exact fun k hk => (h.conflicts k hk).imp fun x hx => ⟨hl x hx.1, hx.2⟩
    · grind [h.unique, h.covers, h.sub]
  | some b =>
    have hb : b ∈ c.kept := mem_of_find?_eq_some hfind
    have hkey : key b = key a := by simpa using find?_some hfind
    dsimp only
    split_ifs with hsame
    · subst hsame
      refine ⟨h.nodup, fun x hx => hl x (h.sub x hx), ?_, ?_, ?_⟩
      · grind [h.covers]
      · exact fun k hk => (h.conflicts k hk).imp fun x hx => ⟨hl x hx.1, hx.2⟩
      · intro x hx hfree y hy hxy
        rcases mem_append.1 hy with hy | hy
        · exact h.unique x hx hfree y hy hxy
        · rw [mem_singleton.1 hy] at hxy ⊢
          exact h.unique x hx hfree b (h.sub b hb) hxy
    · refine ⟨h.nodup, fun x hx => hl x (h.sub x hx), ?_, ?_, ?_⟩
      · grind [h.covers]
      · intro k hk
        rcases Finset.mem_insert.1 hk with rfl | hk
        · exact ⟨a, ha, rfl⟩
        · exact (h.conflicts k hk).imp fun x hx => ⟨hl x hx.1, hx.2⟩
      · grind [h.unique]

lemma represents_collapse (key : α → κ) (l : List α) : Represents key l (collapse key l) := by
  induction l using reverseRecOn with
  | nil => exact ⟨nodup_nil, by simp [collapse], by simp, by simp [collapse], by simp⟩
  | append_singleton l a ih =>
    have hstep : collapse key (l ++ [a]) = add key (collapse key l) a := by
      simp [collapse, foldl_append]
    rw [hstep]
    exact ih.add a

end Replays
