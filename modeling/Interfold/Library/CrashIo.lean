import Mathlib.Tactic.Linarith

/-!
# Programs that can crash between two writes

A program works on storage that outlives it. It runs with a number of writes it can complete; when
it wants one more, the machine stops, and the storage is as the last write left it. Quantifying
over that number covers every point at which a program can be cut. A program can also fail by
itself, with an error.

A triple states what holds of the storage in both cases: the postcondition if the program returned,
and the stop condition if it was cut or failed.
-/

namespace CrashIo

variable {σ ε α β : Type}

inductive Stop (ε : Type) where
  | crash
  | error (e : ε)
deriving DecidableEq

/-- A program over storage `σ`, run with a number of writes it can complete. -/
def Io (σ ε α : Type) : Type := ℕ → σ → Except (Stop ε) α × ℕ × σ

instance : Monad (Io σ ε) where
  pure a n s := (.ok a, n, s)
  bind x f n s :=
    match x n s with
    | (.ok a, n', s') => f a n' s'
    | (.error e, n', s') => (.error e, n', s')

def read : Io σ ε σ := fun n s => (.ok s, n, s)

def fail (e : ε) : Io σ ε α := fun n s => (.error (.error e), n, s)

/-- One write to the storage, unless the machine stops before it. -/
def write (f : σ → σ) : Io σ ε Unit
  | 0, s => (.error .crash, 0, s)
  | n + 1, s => (.ok (), n, f s)

/-- What holds after a run from a storage that satisfies the precondition. -/
def Triple (P : σ → Prop) (x : Io σ ε α) (Q : α → σ → Prop) (R : Stop ε → σ → Prop) : Prop :=
  ∀ n s, P s →
    match x n s with
    | (.ok a, _, s') => Q a s'
    | (.error e, _, s') => R e s'

section

variable {P P' : σ → Prop} {Q Q' : α → σ → Prop} {T : β → σ → Prop} {R : Stop ε → σ → Prop}
  {x : Io σ ε α} {f : α → Io σ ε β}

lemma Triple.ok (h : Triple P x Q R) (hs : P s) (hrun : x n s = (.ok a, n', s')) : Q a s' := by
  have hpost := h n s hs
  rw [hrun] at hpost
  exact hpost

lemma Triple.stop (h : Triple P x Q R) (hs : P s) (hrun : x n s = (.error e, n', s')) : R e s' := by
  have hpost := h n s hs
  rw [hrun] at hpost
  exact hpost

lemma Triple.bind (hx : Triple P x Q R) (hf : ∀ a, Triple (Q a) (f a) T R) :
    Triple P (x >>= f) T R := by
  intro n s hs
  obtain ⟨r, n', s', hrun⟩ : ∃ r n' s', x n s = (r, n', s') := ⟨_, _, _, rfl⟩
  have hbind : (x >>= f) n s = match x n s with
    | (.ok a, n', s') => f a n' s'
    | (.error e, n', s') => (.error e, n', s') := rfl
  rw [hbind, hrun]
  cases r with
  | ok a => exact hf a n' s' (hx.ok hs hrun)
  | error e => exact hx.stop hs hrun

lemma Triple.weaken (h : Triple P x Q R) (hP : ∀ s, P' s → P s) (hQ : ∀ a s, Q a s → Q' a s) :
    Triple P' x Q' R := by
  intro n s hs
  have hpost := h n s (hP s hs)
  revert hpost
  cases hrun : x n s with
  | mk r rest =>
    cases r with
    | ok a => exact hQ a rest.2
    | error e => exact id

lemma Triple.pure (h : ∀ s, P s → Q a s) : Triple P (Pure.pure a : Io σ ε α) Q R :=
  fun _ s hs => h s hs

lemma Triple.fail (h : ∀ s, P s → R (.error e) s) : Triple P (CrashIo.fail e : Io σ ε α) Q R :=
  fun _ s hs => h s hs

/-- A program may look at the storage first. -/
lemma Triple.read_bind {f : σ → Io σ ε β} (h : ∀ s, P s → Triple (· = s) (f s) T R) :
    Triple P (read >>= f) T R := by
  intro n s hs
  exact h s hs n s rfl

/-- A write happens, or the machine stopped before it. -/
lemma Triple.write {Q : Unit → σ → Prop} (hQ : ∀ s, P s → Q () (g s))
    (hR : ∀ s, P s → R .crash s) : Triple P (CrashIo.write g : Io σ ε Unit) Q R := by
  intro n s hs
  cases n with
  | zero => exact hR s hs
  | succ n => exact hQ s hs

end

end CrashIo
