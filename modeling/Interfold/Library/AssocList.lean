import Mathlib.Tactic.Linarith
import Mathlib.Data.List.Induction

/-!
# Association lists

Hash maps that are changed at one key at a time. A key that occurs more than once has the value of
its first occurrence.
-/

namespace AssocList

variable {κ α : Type} [DecidableEq κ]

section

variable (m : List (κ × α))

def get (k : κ) : Option α := (m.find? fun e => e.1 = k).map Prod.snd

def remove (k : κ) : List (κ × α) := m.filter fun e => e.1 ≠ k

def put (k : κ) (a : α) : List (κ × α) := (k, a) :: remove m k

/-- `f` is applied to every value. -/
def mapValues {β : Type} (f : α → β) (m : List (κ × α)) : List (κ × β) :=
  m.map fun e => (e.1, f e.2)

@[simp] lemma get_nil (k : κ) : get ([] : List (κ × α)) k = none := rfl

lemma get_cons (e : κ × α) (m : List (κ × α)) (k : κ) :
    get (e :: m) k = if e.1 = k then some e.2 else get m k := by
  unfold get
  rw [List.find?_cons]
  split_ifs with h <;> simp [h]

lemma get_remove (k k' : κ) : get (remove m k) k' = if k' = k then none else get m k' := by
  induction m with
  | nil => simp [remove]
  | cons e m ih =>
    rw [get_cons]
    by_cases he : e.1 = k
    · have hdrop : remove (e :: m) k = remove m k := List.filter_cons_of_neg (by simpa using he)
      rw [hdrop, ih]
      grind
    · have hkeep : remove (e :: m) k = e :: remove m k := List.filter_cons_of_pos (by simpa using he)
      rw [hkeep, get_cons, ih]
      grind

lemma get_put (k k' : κ) (a : α) : get (put m k a) k' = if k' = k then some a else get m k' := by
  unfold put
  rw [get_cons, get_remove]
  grind

@[simp] lemma get_put_self (k : κ) (a : α) : get (put m k a) k = some a := by
  simp [get_put]

end

lemma get_mapValues {β : Type} (f : α → β) (m : List (κ × α)) (k : κ) :
    get (mapValues f m) k = (get m k).map f := by
  induction m with
  | nil => rfl
  | cons e m ih =>
    have hcons : mapValues f (e :: m) = (e.1, f e.2) :: mapValues f m := rfl
    rw [hcons, get_cons, get_cons, ih]
    split_ifs <;> rfl

variable {m : List (κ × α)} {k : κ} {a : α} {P : κ → α → Prop}

lemma mem_of_get (h : get m k = some a) : (k, a) ∈ m := by
  obtain ⟨e, he, rfl⟩ := Option.map_eq_some_iff.1 h
  have hkey : e.1 = k := by simpa using List.find?_some he
  exact hkey ▸ List.mem_of_find?_eq_some he

/-- The entries of a list, the later ones over the earlier ones. -/
def ofList (l : List (κ × α)) : List (κ × α) := l.foldl (fun m e => put m e.1 e.2) []

/-- A property of all values is kept by a removal. -/
lemma forall_remove (h : ∀ k' a, get m k' = some a → P k' a) :
    ∀ k' a, get (remove m k) k' = some a → P k' a := by
  intro k' a hget
  rw [get_remove] at hget
  split_ifs at hget
  exact h k' a hget

/-- A property of all values is kept by a value that has it. -/
lemma forall_put (h : ∀ k' a', k' ≠ k → get m k' = some a' → P k' a') (ha : P k a) :
    ∀ k' a', get (put m k a) k' = some a' → P k' a' := by
  intro k' a' hget
  rw [get_put] at hget
  split_ifs at hget with hk
  · cases hget
    exact hk ▸ ha
  · exact h k' a' hk hget

end AssocList
