import Mathlib.Tactic.Linarith

/-!
# Reverting computations

A call either returns or reverts. Arithmetic on 256-bit words is checked: a sum or product
outside the word, and a difference below zero, revert with a panic. A reverted call has no
result state, so its caller keeps the state it had. The lemmas below invert a run, which is how
every specification about a call starts: what held if it returned, and where it reverted.
-/

namespace Transaction

/-- Why a call reverted: a language panic, or an error the contract declares. -/
inductive Revert (ε : Type) where
  | panic
  | error (e : ε)
deriving DecidableEq, Repr

/-- A computation that returns a value or reverts. -/
abbrev Tx (ε α : Type) := Except (Revert ε) α

variable {ε α β : Type}

/-- Revert with a declared error. -/
def revertWith (e : ε) : Tx ε α := .error (.error e)

def require (c : Prop) [Decidable c] (e : ε) : Tx ε Unit :=
  if c then .ok () else revertWith e

/-- The number of values of a 256-bit word. -/
def wordSize : ℕ := 2 ^ 256

def checkedAdd (a b : ℕ) : Tx ε ℕ :=
  if a + b < wordSize then .ok (a + b) else .error .panic

def checkedSub (a b : ℕ) : Tx ε ℕ :=
  if b ≤ a then .ok (a - b) else .error .panic

def checkedMul (a b : ℕ) : Tx ε ℕ :=
  if a * b < wordSize then .ok (a * b) else .error .panic

def checkedDiv (a b : ℕ) : Tx ε ℕ :=
  if 0 < b then .ok (a / b) else .error .panic

lemma ok_bind (a : α) (f : α → Tx ε β) : ((.ok a : Tx ε α) >>= f) = f a :=
  rfl

variable {x y : Tx ε α} {f : α → Tx ε β} {e : ε} {c : Prop} {a b : ℕ}

lemma bind_ok {r : β} : (x >>= f) = .ok r ↔ ∃ a, x = .ok a ∧ f a = .ok r := by
  cases x <;> simp [bind, Except.bind]

lemma pure_ok {a r : α} : (pure a : Tx ε α) = .ok r ↔ a = r := by
  simp [pure, Except.pure]

lemma map_ok {f : α → β} {r : β} : (f <$> x) = .ok r ↔ ∃ a, x = .ok a ∧ f a = r := by
  cases x <;> simp [Functor.map, Except.map]

lemma revertWith_ok {r : α} : (revertWith e : Tx ε α) = .ok r ↔ False := by
  simp [revertWith]

lemma require_ok [Decidable c] {r : Unit} : require c e = .ok r ↔ c := by
  unfold require revertWith
  split_ifs with h <;> simp [h]

lemma checkedAdd_ok {r : ℕ} : (checkedAdd a b : Tx ε ℕ) = .ok r ↔ a + b < wordSize ∧ a + b = r := by
  unfold checkedAdd
  split_ifs with h <;> simp [h]

lemma checkedSub_ok {r : ℕ} : (checkedSub a b : Tx ε ℕ) = .ok r ↔ b ≤ a ∧ a - b = r := by
  unfold checkedSub
  split_ifs with h <;> simp [h]

lemma checkedMul_ok {r : ℕ} : (checkedMul a b : Tx ε ℕ) = .ok r ↔ a * b < wordSize ∧ a * b = r := by
  unfold checkedMul
  split_ifs with h <;> simp [h]

lemma checkedDiv_ok {r : ℕ} : (checkedDiv a b : Tx ε ℕ) = .ok r ↔ 0 < b ∧ a / b = r := by
  unfold checkedDiv
  split_ifs with h <;> simp [h]

/-- The rules of a run that returned, as one simp set. -/
lemma run_ok : type_of% (And.intro @bind_ok <| And.intro @pure_ok <| And.intro @require_ok <|
    And.intro @checkedAdd_ok <| And.intro @checkedSub_ok <|
    And.intro @checkedMul_ok @checkedDiv_ok) :=
  ⟨bind_ok, pure_ok, require_ok, checkedAdd_ok, checkedSub_ok, checkedMul_ok, checkedDiv_ok⟩

lemma ite_ok [Decidable c] {r : α} :
    (if c then x else y) = .ok r ↔ (c ∧ x = .ok r) ∨ (¬c ∧ y = .ok r) := by
  split_ifs with h <;> simp [h]

/-- `for (i = 0; i < n; i++)` with a body that only checks. -/
def forUpTo (body : ℕ → Tx ε Unit) : ℕ → Tx ε Unit
  | 0 => pure ()
  | n + 1 => forUpTo body n >>= fun _ => body n

lemma forUpTo_ok {r : Unit} (h : forUpTo body n = .ok r) (hi : i < n) : body i = .ok () := by
  induction n generalizing r with
  | zero => omega
  | succ n ih =>
    obtain ⟨_, hbef, hlast⟩ := bind_ok.1 h
    by_cases hin : i = n
    · exact hin ▸ hlast
    · exact ih hbef (by omega)

/-! ## Reverts -/

variable {r : Revert ε}

lemma bind_error : (x >>= f) = .error r ↔ x = .error r ∨ ∃ a, x = .ok a ∧ f a = .error r := by
  cases x <;> simp [bind, Except.bind]

lemma pure_error {a : α} : (pure a : Tx ε α) = .error r ↔ False := by
  simp [pure, Except.pure]

lemma require_error [Decidable c] : require c e = .error r ↔ ¬c ∧ r = .error e := by
  unfold require revertWith
  split_ifs with h <;> simp [h, eq_comm]

lemma checkedAdd_error : (checkedAdd a b : Tx ε ℕ) = .error r ↔ wordSize ≤ a + b ∧ r = .panic := by
  unfold checkedAdd
  split_ifs with h
  · simp [Nat.not_le.2 h]
  · simp [Nat.not_lt.1 h, eq_comm]

lemma checkedSub_error : (checkedSub a b : Tx ε ℕ) = .error r ↔ a < b ∧ r = .panic := by
  unfold checkedSub
  split_ifs with h
  · simp [Nat.not_lt.2 h]
  · simp [Nat.not_le.1 h, eq_comm]

lemma ite_error [Decidable c] :
    (if c then x else y) = .error r ↔ (c ∧ x = .error r) ∨ (¬c ∧ y = .error r) := by
  split_ifs with h <;> simp [h]

/-- The rules of a run that reverted, as one simp set. -/
lemma run_error : type_of% (And.intro @bind_error <| And.intro @pure_error <|
    And.intro @require_error <| And.intro @checkedAdd_error <| And.intro @checkedSub_error <|
    And.intro @ite_error <| And.intro @and_false <| And.intro @exists_false.{1} <|
    And.intro @or_false @false_or) :=
  ⟨bind_error, pure_error, require_error, checkedAdd_error, checkedSub_error, ite_error, and_false,
    exists_false, or_false, false_or⟩

end Transaction
