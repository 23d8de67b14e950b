import Mathlib.Algebra.Order.BigOperators.Ring.Finset

/-!
# Ingress limits

Which peer gives up its oldest entry when a store of several peers is full.
-/

namespace Interfold.Net

open Finset

variable {P : Type} [DecidableEq P]

/-- What the loop over the owners has found. -/
structure Scan (P : Type) where
  own : ℕ := 0
  count : ℕ := 0
  largest : Option P × ℕ := (none, 0)

def Scan.next (incoming : Option P) (s : Scan P) (owner : Option P × ℕ) : Scan P where
  own := if owner.1 = incoming then owner.2 else s.own
  count := s.count + 1
  largest := if s.largest.2 < owner.2 then owner else s.largest

/-- A peer below its share takes the room of the largest owner. -/
def evictionOwner (incoming : Option P) (owners : List (Option P × ℕ)) (capacity : ℕ) : Option P :=
  let s := owners.foldl (Scan.next incoming) {}
  let share := max (capacity / (s.count + if s.own = 0 then 1 else 0)) 1
  if share ≤ s.own then incoming else s.largest.1

variable {l : List (Option P)} {size : Option P → ℕ}

lemma scan_spec (incoming : Option P) (hsize : ∀ p, p ∈ l ↔ size p ≠ 0) :
    let s := (l.map fun p => (p, size p)).foldl (Scan.next incoming) {}
    s.own = size incoming ∧ s.count = l.length ∧ (∀ p ∈ l, size p ≤ s.largest.2) ∧
      (s.largest.2 = 0 ∨ s.largest.1 ∈ l ∧ s.largest.2 = size s.largest.1) := by
  have hscan (l' : List (Option P)) :
      let s := (l'.map fun p => (p, size p)).foldl (Scan.next incoming) {}
      s.own = (if incoming ∈ l' then size incoming else 0) ∧ s.count = l'.length ∧
        (∀ p ∈ l', size p ≤ s.largest.2) ∧
        (s.largest.2 = 0 ∨ s.largest.1 ∈ l' ∧ s.largest.2 = size s.largest.1) := by
    induction l' using List.reverseRecOn with
    | nil => simp
    | append_singleton l' p ih => simp [Scan.next]; grind
  have := hscan l
  grind

/-- The owner that gives up an entry has one, and it is the peer itself or, unless there are more
peers than room, an owner above the share. -/
lemma evictionOwner_spec (incoming : Option P) (hl : l.Nodup) (hsize : ∀ p, p ∈ l ↔ size p ≠ 0)
    (hpos : 0 < capacity) (hfull : capacity ≤ (l.map size).sum) :
    let owner := evictionOwner incoming (l.map fun p => (p, size p)) capacity
    let n := (insert incoming l.toFinset).card
    owner ∈ l ∧ (n ≤ capacity → owner = incoming ∨ capacity / n < size owner) := by
  intro owner n
  obtain ⟨hown, hcount, hle, hlargest⟩ := scan_spec incoming hsize
  have hn : n = l.length + if size incoming = 0 then 1 else 0 := by
    have := hsize incoming
    simp only [n, card_insert_eq_ite, List.mem_toFinset, List.toFinset_card_of_nodup hl]
    grind
  have howner : owner = if max (capacity / n) 1 ≤ size incoming then incoming else
      ((l.map fun p => (p, size p)).foldl (Scan.next incoming) {}).largest.1 := by
    simp only [owner, evictionOwner, hown, hcount, hn]
  generalize (l.map fun p => (p, size p)).foldl (Scan.next incoming) {} = s at *
  split_ifs at howner with hshare
  · grind
  rw [← List.sum_toFinset size hl] at hfull
  have hmem : owner ∈ l ∧ s.largest.2 = size owner := by
    rcases hlargest with hzero | hmem
    · have : l.toFinset.sum size = 0 := sum_eq_zero (by grind)
      omega
    · exact howner ▸ hmem
  refine ⟨hmem.1, fun hroom => .inr ?_⟩
  have hone : 1 ≤ capacity / n := (Nat.one_le_div_iff (by grind)).2 hroom
  by_contra hsmall
  -- Nobody is above the share and the incoming peer is below it, so the store is not full.
  have hlt : (insert incoming l.toFinset).sum size <
      ∑ _p ∈ insert incoming l.toFinset, capacity / n :=
    sum_lt_sum (by grind) ⟨incoming, mem_insert_self .., by omega⟩
  rw [sum_const_nat fun _ _ => rfl] at hlt
  have htotal := hfull.trans (sum_le_sum_of_subset (subset_insert incoming l.toFinset))
  exact absurd (htotal.trans_lt hlt) (not_lt.2 (Nat.mul_div_le capacity n))

end Interfold.Net
