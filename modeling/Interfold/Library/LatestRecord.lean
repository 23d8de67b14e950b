import Mathlib.Tactic.Linarith
import Mathlib.Data.List.Induction

/-!
# The latest record

Records arrive one after another, each with a position. A record replaces the one that is kept
unless its position is smaller. What is kept at the end is the last of the records with the greatest
position, which need not be the record that arrived last.
-/

namespace LatestRecord

open List

variable {α P : Type*} [LinearOrder P]

section

variable (pos : α → P)

def step (kept : Option α) (a : α) : Option α :=
  if kept.any (pos a < pos ·) then kept else some a

/-- What is kept of a list of records. -/
def latest (l : List α) : Option α := l.foldl (step pos) none

/-- A record with the greatest position, and the last one of them. -/
def IsLatest (l : List α) (a : α) : Prop :=
  ∃ front back, l = front ++ a :: back ∧ (∀ b ∈ front, pos b ≤ pos a) ∧ ∀ b ∈ back, pos b < pos a

end

variable {pos : α → P} {l : List α} {a b : α}

lemma latest_snoc (l : List α) (a : α) : latest pos (l ++ [a]) = step pos (latest pos l) a := by
  simp [latest]

lemma IsLatest.mem (h : IsLatest pos l a) : a ∈ l := by
  obtain ⟨front, back, rfl, -, -⟩ := h
  exact mem_append_right _ mem_cons_self

lemma IsLatest.le (h : IsLatest pos l a) (hb : b ∈ l) : pos b ≤ pos a := by
  obtain ⟨front, back, rfl, hfront, hback⟩ := h
  rcases mem_append.1 hb with hb | hb
  · exact hfront b hb
  · rcases mem_cons.1 hb with rfl | hb
    · exact le_rfl
    · exact (hback b hb).le

lemma IsLatest.snoc_of_le (h : IsLatest pos l a) (hle : pos a ≤ pos b) :
    IsLatest pos (l ++ [b]) b :=
  ⟨l, [], rfl, fun _ hc => (h.le hc).trans hle, by simp⟩

lemma IsLatest.snoc_of_lt (h : IsLatest pos l a) (hlt : pos b < pos a) :
    IsLatest pos (l ++ [b]) a := by
  obtain ⟨front, back, rfl, hfront, hback⟩ := h
  refine ⟨front, back ++ [b], by simp, hfront, fun c hc => ?_⟩
  rcases mem_append.1 hc with hc | hc
  · exact hback c hc
  · rwa [mem_singleton.1 hc]

lemma latest_spec (l : List α) : (l = [] ∧ latest pos l = none) ∨
    ∃ a, latest pos l = some a ∧ IsLatest pos l a := by
  induction l using reverseRecOn with
  | nil => exact .inl ⟨rfl, rfl⟩
  | append_singleton l b ih =>
    right
    rw [latest_snoc]
    rcases ih with ⟨rfl, hnone⟩ | ⟨a, hsome, ha⟩
    · exact ⟨b, by simp [step, hnone], [], [], rfl, by simp, by simp⟩
    · by_cases hlt : pos b < pos a
      · exact ⟨a, by simp [step, hsome, hlt], ha.snoc_of_lt hlt⟩
      · exact ⟨b, by simp [step, hsome, hlt], ha.snoc_of_le (le_of_not_gt hlt)⟩

lemma IsLatest.unique (ha : IsLatest pos l a) (hb : IsLatest pos l b) : a = b := by
  obtain ⟨front, back, rfl, hfront, hback⟩ := ha
  obtain ⟨front', back', heq, hfront', hback'⟩ := hb
  rcases append_eq_append_iff.1 heq with ⟨mid, rfl, hmid⟩ | ⟨mid, rfl, hmid⟩
  · cases mid with
    | nil => exact (cons.inj hmid).1
    | cons c mid => grind
  · cases mid with
    | nil => exact (cons.inj hmid).1.symm
    | cons c mid => grind

lemma latest_eq_some_iff : latest pos l = some a ↔ IsLatest pos l a := by
  rcases @latest_spec _ _ _ pos l with ⟨rfl, hnone⟩ | ⟨b, hsome, hb⟩
  · rw [hnone]
    constructor
    · intro h
      cases h
    · intro h
      exact absurd h.mem not_mem_nil
  · rw [hsome, Option.some.injEq]
    exact ⟨fun h => h ▸ hb, fun h => hb.unique h⟩

/-- Records with smaller positions before do not matter. -/
lemma IsLatest.append_left (h : IsLatest pos l a) (hfront : ∀ b ∈ front, pos b ≤ pos a) :
    IsLatest pos (front ++ l) a := by
  obtain ⟨front', back, rfl, hfront', hback⟩ := h
  refine ⟨front ++ front', back, by simp, fun b hb => ?_, hback⟩
  rcases mem_append.1 hb with hb | hb
  · exact hfront b hb
  · exact hfront' b hb

end LatestRecord
