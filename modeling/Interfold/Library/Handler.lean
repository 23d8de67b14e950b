import Mathlib.Tactic.Linarith

/-!
# Handlers

A handler changes the state of an actor and may stop with an error. An error does not undo the
changes before it. `Wp` gives rules of pre- and postconditions, with one postcondition for a result
and one for an error.
-/

/-- The result, or `none` after an error, and the state that is left. -/
def Handler (σ α : Type) : Type := σ → Option α × σ

namespace Handler

variable {σ α β : Type}

def pure (a : α) : Handler σ α := fun s => (some a, s)

def fail : Handler σ α := fun s => (none, s)

def bind (f : Handler σ α) (g : α → Handler σ β) : Handler σ β := fun s =>
  (f s).1.elim (none, (f s).2) fun a => g a (f s).2

instance : Monad (Handler σ) where
  pure
  bind

def get : Handler σ σ := fun s => (some s, s)

def modify (f : σ → σ) : Handler σ Unit := fun s => (some (), f s)

/-- The value of an option, or an error. -/
def orFail (o : Option α) : Handler σ α := o.elim fail pure

/-- A handler whose error is only reported. -/
def catchError (f : Handler σ Unit) : Handler σ Unit := fun s => (some (), (f s).2)

/-- From `s`, a result satisfies `ok` and an error leaves a state that satisfies `err`. -/
def Wp (f : Handler σ α) (ok : α → σ → Prop) (err : σ → Prop) (s : σ) : Prop :=
  (∀ a, (f s).1 = some a → ok a (f s).2) ∧ ((f s).1 = none → err (f s).2)

/-- From `s`, the state that is left satisfies `P`, with a result or after an error. -/
abbrev Leaves (f : Handler σ α) (P : σ → Prop) (s : σ) : Prop := Wp f (fun _ => P) P s

section

variable {f : Handler σ α} {g : α → Handler σ β} {ok ok' : α → σ → Prop} {err err' : σ → Prop}
  {P Q : σ → Prop} {s : σ}

@[simp] lemma wp_pure : Wp (Pure.pure a : Handler σ α) ok err s ↔ ok a s := by
  simp [Wp, Pure.pure, pure]

@[simp] lemma wp_fail : Wp (fail : Handler σ α) ok err s ↔ err s := by
  simp [Wp, fail]

@[simp] lemma wp_bind {ok : β → σ → Prop} :
    Wp (f >>= g) ok err s ↔ Wp f (fun a s' => Wp (g a) ok err s') err s := by
  cases hf : (f s).1 with
  | none => simp [Wp, Bind.bind, bind, hf]
  | some a => simp [Wp, Bind.bind, bind, hf]

@[simp] lemma wp_get {ok : σ → σ → Prop} : Wp get ok err s ↔ ok s s := by
  simp [Wp, get]

@[simp] lemma wp_modify {ok : Unit → σ → Prop} : Wp (modify h) ok err s ↔ ok () (h s) := by
  simp [Wp, modify, Unique.forall_iff]

@[simp] lemma wp_orFail :
    Wp (orFail o) ok err s ↔ (∀ a, o = some a → ok a s) ∧ (o = none → err s) := by
  cases o with
  | none => simp [Wp, orFail, fail]
  | some a => simp [Wp, orFail, pure]

@[simp] lemma wp_ite {p : Prop} [Decidable p] :
    Wp (if p then f else f') ok err s ↔ (p → Wp f ok err s) ∧ (¬p → Wp f' ok err s) := by
  split_ifs with hp
  · simp [hp]
  · simp [hp]

/-- The rules as one simp set. -/
lemma wp : type_of% (And.intro @wp_pure <| And.intro @wp_fail <| And.intro @wp_bind <|
    And.intro @wp_get <| And.intro @wp_modify <| And.intro @wp_orFail @wp_ite) :=
  ⟨wp_pure, wp_fail, wp_bind, wp_get, wp_modify, wp_orFail, wp_ite⟩

/-- An error that is caught is a result. -/
lemma wp_catchError {f : Handler σ Unit} {ok : Unit → σ → Prop} :
    Wp (catchError f) ok err s ↔ Wp f ok (ok ()) s := by
  cases hf : (f s).1 with
  | none => simp [Wp, catchError, hf, Unique.forall_iff]
  | some a => simp [Wp, catchError, hf]

lemma Wp.mono (h : Wp f ok err s) (hok : ∀ a s', ok a s' → ok' a s')
    (herr : ∀ s', err s' → err' s') : Wp f ok' err' s :=
  ⟨fun a ha => hok a _ (h.1 a ha), fun hnone => herr _ (h.2 hnone)⟩

lemma Leaves.weaken (h : Leaves f P s) (hle : ∀ s', P s' → Q s') : Leaves f Q s :=
  h.mono (fun _ => hle) hle

lemma Leaves.final (h : Leaves f P s) : P (f s).2 := by
  cases hf : (f s).1 with
  | none => exact h.2 hf
  | some a => exact h.1 a hf

end

end Handler
