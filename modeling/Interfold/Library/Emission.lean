import Mathlib.Tactic.Linarith
import Mathlib.Data.List.Basic

/-!
# Steps that emit actions

A step changes a state and returns the actions that the caller has to carry out. `Safe I O` says
that the state it ends in satisfies `I` and that every action satisfies `O`.
-/

namespace Emission

variable {α β σ : Type}

/-- Actions that come before those of a step. -/
def after (actions : List α) (r : List α × σ) : List α × σ := (actions ++ r.1, r.2)

/-- A further step, whose actions come after those of the first. -/
def andThen (r : List α × σ) (f : σ → List α × σ) : List α × σ := after r.1 (f r.2)

/-- One step for every element of a list. -/
def each (f : β → σ → List α × σ) (l : List β) (s : σ) : List α × σ :=
  l.foldl (fun r b => andThen r (f b)) ([], s)

structure Safe (I : σ → Prop) (O : α → Prop) (r : List α × σ) : Prop where
  state : I r.2
  actions : ∀ a ∈ r.1, O a

namespace Safe

variable {I : σ → Prop} {O : α → Prop} {r : List α × σ} {s : σ}

lemma nil (h : I s) : Safe I O ([], s) := ⟨h, nofun⟩

lemma after {actions : List α} (hactions : ∀ a ∈ actions, O a) (hr : Safe I O r) :
    Safe I O (after actions r) := by
  refine ⟨hr.state, fun a ha => ?_⟩
  rcases List.mem_append.1 ha with ha | ha
  · exact hactions a ha
  · exact hr.actions a ha

lemma andThen (hr : Safe I O r) (hf : ∀ s, I s → Safe I O (f s)) : Safe I O (andThen r f) :=
  (hf r.2 hr.state).after hr.actions

lemma each (hs : I s) (l : List β) (hf : ∀ b ∈ l, ∀ s, I s → Safe I O (f b s)) :
    Safe I O (each f l s) := by
  refine List.foldlRecOn l _ (Safe.nil hs) ?_
  intro r hr b hb
  exact hr.andThen (hf b hb)

end Safe

end Emission
