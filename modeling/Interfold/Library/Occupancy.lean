import Interfold.Library.Ledger
import Mathlib.Data.Set.Card

/-!
# Occupied places

Members sit at places, several at one place or none at all. A table counts the members of every
place and a counter the places that are occupied. When one member leaves or joins, the table changes
at one place and the counter only when that place becomes empty or stops to be.
-/

namespace Occupancy

open Ledger Function

variable {α β : Type*} [Fintype α] [Fintype β] [DecidableEq α] [DecidableEq β]

/-- `rows` counts the members of every place and `total` the occupied places. -/
structure Occupancy (seat : α → Option β) (rows : β → ℕ) (total : ℕ) : Prop where
  rows_eq : ∀ b, rows b = count fun x => seat x = some b
  total_eq : total = count fun b => rows b ≠ 0

variable {seat : α → Option β} {rows : β → ℕ} {total : ℕ} {x : α} {b : β}

lemma empty (h : ∀ x, seat x = none) : Occupancy seat (fun _ : β => 0) 0 where
  rows_eq b := by simp [count, h]
  total_eq := by simp [count]

section

variable (h : Occupancy seat rows total)
include h

lemma Occupancy.row_pos (hx : seat x = some b) : 0 < rows b := by
  rw [h.rows_eq b]
  exact count_pos (a := x) hx

/-- What a member that sits elsewhere changes for a place. -/
lemma Occupancy.row_write (x : α) (o : Option β) (c : β) : (count fun y => update seat x o y = some c) +
    (if seat x = some c then 1 else 0) = rows c + if o = some c then 1 else 0 := by
  have hcount := count_write (a := x) (p := fun y => seat y = some c)
    (q := fun y => update seat x o y = some c) fun y hy => by simp only [update_of_ne hy]
  rw [update_self, ← h.rows_eq] at hcount
  omega

lemma Occupancy.total_write (b : β) (n : ℕ) : (count fun c => update rows b n c ≠ 0) +
    (if rows b ≠ 0 then 1 else 0) = total + if n ≠ 0 then 1 else 0 := by
  have hcount := count_write (a := b) (p := fun c => rows c ≠ 0)
    (q := fun c => update rows b n c ≠ 0) fun c hc => by simp only [update_of_ne hc]
  rw [update_self, ← h.total_eq] at hcount
  omega

/-- A member that stands takes a seat. -/
lemma Occupancy.join (hx : seat x = none) (b : β) :
    Occupancy (update seat x (some b)) (update rows b (rows b + 1))
      (if rows b = 0 then total + 1 else total) where
  rows_eq c := by
    have hcount := h.row_write x (some b) c
    grind
  total_eq := by
    have hcount := h.total_write b (rows b + 1)
    grind

/-- A member gives up its seat. -/
lemma Occupancy.leave (hx : seat x = some b) :
    Occupancy (update seat x none) (update rows b (rows b - 1))
      (if rows b - 1 = 0 then total - 1 else total) where
  rows_eq c := by
    have hcount := h.row_write x none c
    grind
  total_eq := by
    have hpos := h.row_pos hx
    have hcount := h.total_write b (rows b - 1)
    grind

/-- If every occupied place belongs to a set, the counter is at most its size. -/
lemma Occupancy.total_le {S : Set β} (hS : ∀ x b, seat x = some b → b ∈ S) : total ≤ S.ncard := by
  have hsub : (({b | rows b ≠ 0} : Finset β) : Set β) ⊆ S := by
    intro b hb
    have hrow : rows b ≠ 0 := by simpa using hb
    rw [h.rows_eq b] at hrow
    obtain ⟨x, hx⟩ := Finset.card_pos.1 (Nat.pos_of_ne_zero hrow)
    exact hS x b (by simpa using hx)
  rw [h.total_eq]
  calc count (fun b => rows b ≠ 0) = (({b | rows b ≠ 0} : Finset β) : Set β).ncard :=
        (Set.ncard_coe_finset _).symm
    _ ≤ S.ncard := Set.ncard_le_ncard hsub (Set.toFinite S)

end

end Occupancy
