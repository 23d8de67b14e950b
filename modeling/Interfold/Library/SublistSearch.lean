import Mathlib.Tactic.Linarith
import Mathlib.Data.List.Lex

/-!
# Search for a sublist

A backtracking search walks through a list and chooses elements of it, each of which has to be
accepted by the ones chosen before. It stops at the first choice of `n` elements. In an ascending
list the first choice is the least one in lexicographic order.
-/

namespace SublistSearch

variable {α β : Type} (accept : List β → α → Option β) (n : ℕ)

/-- A choice is complete, or too few elements are left, or the search goes on. -/
def enter (rest : List α) (chosen : List β) (continued : Option (List β)) : Option (List β) :=
  if chosen.length = n then some chosen
  else if chosen.length + rest.length < n then none
  else continued

/-- Every element is tried with the ones behind it before it is left out. -/
def loop : List α → List β → Option (List β)
  | [], _ => none
  | a :: rest, chosen =>
    match accept chosen a with
    | none => loop rest chosen
    | some b =>
      match enter n rest (chosen ++ [b]) (loop rest (chosen ++ [b])) with
      | some found => some found
      | none => loop rest chosen

def search (l : List α) (chosen : List β) : Option (List β) :=
  enter n l chosen (loop accept n l chosen)

/-- The elements of a list are accepted one after the other. -/
inductive Chooses : List β → List α → List β → Prop
  | nil (chosen : List β) : Chooses chosen [] chosen
  | cons :
      accept chosen a = some b → Chooses (chosen ++ [b]) l found → Chooses chosen (a :: l) found

variable {accept n} {l t : List α} {chosen found : List β}

lemma Chooses.length (h : Chooses accept chosen t found) :
    found.length = chosen.length + t.length := by
  induction h with
  | nil => rfl
  | cons _ _ ih => grind

/-- A choice of `n` elements from a list. -/
def Choice (accept : List β → α → Option β) (n : ℕ) (chosen : List β) (l t : List α)
    (found : List β) : Prop :=
  t.Sublist l ∧ Chooses accept chosen t found ∧ found.length = n

lemma Choice.of_cons (h : Choice accept n chosen (a :: l) t found) :
    Choice accept n chosen l t found ∨ ∃ b t', t = a :: t' ∧ accept chosen a = some b ∧
        Choice accept n (chosen ++ [b]) l t' found := by
  obtain ⟨hsub, hchoos, hlen⟩ := h
  cases hsub with
  | cons _ hsub => exact .inl ⟨hsub, hchoos, hlen⟩
  | cons_cons _ hsub =>
    cases hchoos with
    | cons hacc hrest => exact .inr ⟨_, _, rfl, hacc, hsub, hrest, hlen⟩

lemma Choice.cons (hacc : accept chosen a = some b)
    (h : Choice accept n (chosen ++ [b]) l t found) :
    Choice accept n chosen (a :: l) (a :: t) found :=
  ⟨h.1.cons_cons a, .cons hacc h.2.1, h.2.2⟩

lemma Choice.cons_of_choice (a : α) (h : Choice accept n chosen l t found) :
    Choice accept n chosen (a :: l) t found :=
  ⟨h.1.cons a, h.2⟩

/-- There is no choice of `n` elements when more are chosen or too few are left. -/
lemma Choice.bounds (h : Choice accept n chosen l t found) :
    chosen.length ≤ n ∧ n ≤ chosen.length + l.length := by
  have hlen := h.2.1.length
  have hsub := h.1.length_le
  have hn := h.2.2
  omega

lemma Choice.ne_nil (hne : chosen.length ≠ n) (h : Choice accept n chosen l t found) : t ≠ [] := by
  rintro rfl
  have hlen := h.2.1.length
  grind [h.2.2]

section

variable [LT α]

/-- The lexicographic order. -/
def LexLe (s t : List α) : Prop := s = t ∨ List.Lex (· < ·) s t

/-- A result is the least choice, or there is none. -/
def Finds (accept : List β → α → Option β) (n : ℕ) (chosen : List β) (l : List α) :
    Option (List β) → Prop
  | none => ∀ t found, ¬Choice accept n chosen l t found
  | some found => ∃ t, Choice accept n chosen l t found ∧
    ∀ t' found', Choice accept n chosen l t' found' → LexLe t t'

lemma lexLe_nil (t : List α) : LexLe [] t := by
  cases t with
  | nil => exact .inl rfl
  | cons a t => exact .inr .nil

lemma LexLe.cons (a : α) (h : LexLe s t) : LexLe (a :: s) (a :: t) := by
  rcases h with rfl | h
  · exact .inl rfl
  · exact .inr (.cons h)

lemma enter_finds (h : chosen.length ≠ n → Finds accept n chosen l continued) :
    Finds accept n chosen l (enter n l chosen continued) := by
  unfold enter
  split_ifs with hcompl hfew
  · exact ⟨[], ⟨l.nil_sublist, .nil chosen, hcompl⟩, fun t' _ _ => lexLe_nil t'⟩
  · intro t found hchoice
    have := hchoice.bounds
    omega
  · exact h hcompl

/-- An element that no choice starts with is left out. -/
lemma Finds.skip (h : Finds accept n chosen l r)
    (hskip : ∀ b t found, accept chosen a = some b → ¬Choice accept n (chosen ++ [b]) l t found) :
    Finds accept n chosen (a :: l) r := by
  have hrest : ∀ t found, Choice accept n chosen (a :: l) t found →
      Choice accept n chosen l t found := by
    intro t found hchoice
    obtain hchoice | ⟨b, t', -, hacc, hchoice⟩ := hchoice.of_cons
    · exact hchoice
    · exact absurd hchoice (hskip b t' found hacc)
  cases r with
  | none => exact fun t found hchoice => h t found (hrest t found hchoice)
  | some found =>
    obtain ⟨t, hchoice, hleast⟩ := h
    exact ⟨t, hchoice.cons_of_choice a, fun t' found' h' => hleast t' found' (hrest t' found' h')⟩

/-- A choice that starts with the first element is below every one that does not. -/
lemma cons_le_of_sublist (ha : ∀ x ∈ l, a < x) (s : List α) (ht : t.Sublist l) (hne : t ≠ []) :
    LexLe (a :: s) t := by
  cases t with
  | nil => exact absurd rfl hne
  | cons x t =>
    have hlt : a < x := ha x (ht.subset List.mem_cons_self)
    exact .inr (.rel hlt)

lemma loop_finds (hasc : l.Pairwise (· < ·)) (hne : chosen.length ≠ n) :
    Finds accept n chosen l (loop accept n l chosen) := by
  induction l generalizing chosen with
  | nil =>
    intro t found hchoice
    exact hchoice.ne_nil hne (List.sublist_nil.1 hchoice.1)
  | cons a rest ih =>
    obtain ⟨ha, hasc⟩ := List.pairwise_cons.1 hasc
    rw [loop]
    cases hacc : accept chosen a with
    | none => exact (ih hasc hne).skip (by simp [hacc])
    | some b =>
      have hinner : Finds accept n (chosen ++ [b]) rest
          (enter n rest (chosen ++ [b]) (loop accept n rest (chosen ++ [b]))) :=
        enter_finds fun hne => ih hasc hne
      cases hent : enter n rest (chosen ++ [b]) (loop accept n rest (chosen ++ [b])) with
      | none =>
        rw [hent] at hinner
        simp only [hent]
        refine (ih hasc hne).skip ?_
        intro b' t found hacc'
        obtain rfl := Option.some.inj (hacc.symm.trans hacc')
        exact hinner t found
      | some found =>
        rw [hent] at hinner
        simp only [hent]
        obtain ⟨t, hchoice, hleast⟩ := hinner
        refine ⟨a :: t, hchoice.cons hacc, ?_⟩
        intro t' found' hchoice'
        obtain hrest | ⟨b', s, rfl, hacc', hs⟩ := hchoice'.of_cons
        · exact cons_le_of_sublist ha t hrest.1 (hrest.ne_nil hne)
        · obtain rfl := Option.some.inj (hacc.symm.trans hacc')
          exact (hleast s found' hs).cons a

/-- The search finds the least choice of an ascending list. -/
lemma search_finds (hasc : l.Pairwise (· < ·)) (chosen : List β) :
    Finds accept n chosen l (search accept n l chosen) :=
  enter_finds fun hne => loop_finds hasc hne

end

end SublistSearch
