import Mathlib.Tactic.Linarith

/-!
# Stamps that respect causality

A log lists what the processes of a system did, in any order that puts a message after its sending.
An entry belongs to one process, may issue a stamp, and may take in stamps from outside. An entry
happens before another if the second one follows on the same process, or received the stamp that
the first one issued, or through a chain of these.

A log is advancing when every issued stamp exceeds everything its process has seen. This is a
condition on each process alone; that stamps respect happens-before across processes follows.
-/

namespace CausalOrder

variable {ε ι τ : Type*}

/-- How a log is read. -/
structure View (ε ι τ : Type*) where
  process : ε → ι
  issued : ε → Option τ
  /-- The stamp of a message that the entry took in. -/
  received : ε → Option τ
  /-- All stamps that the process has seen once the entry is done, but for earlier ones. -/
  seen : ε → List τ

variable (v : View ε ι τ) (log : List ε)

/-- The entry at `k` depends directly on the one at `j`. -/
def Direct (j k : ℕ) : Prop :=
  j < k ∧ ∃ d e, log[j]? = some d ∧ log[k]? = some e ∧
    (v.process d = v.process e ∨ ∃ t, v.issued d = some t ∧ v.received e = some t)

def HappensBefore : ℕ → ℕ → Prop := Relation.TransGen (Direct v log)

variable [Preorder τ]

structure Advancing : Prop where
  /-- Later stamps of a process exceed what it has seen. -/
  later : ∀ {j k : ℕ} {d e : ε} {u t : τ}, j < k → log[j]? = some d → log[k]? = some e →
    v.process d = v.process e → u ∈ v.seen d → v.issued e = some t → u < t
  /-- A message is seen, and exceeded by the stamp issued on its receipt. -/
  receipt : ∀ {k : ℕ} {e : ε} {u : τ}, log[k]? = some e → v.received e = some u →
    u ∈ v.seen e ∧ ∀ t, v.issued e = some t → u < t
  issued_seen : ∀ {k : ℕ} {e : ε} {t : τ}, log[k]? = some e → v.issued e = some t → t ∈ v.seen e

variable {v log}

/-- From position `k` on, its process issues nothing up to `u`. -/
def Above (v : View ε ι τ) (log : List ε) (u : τ) (k : ℕ) : Prop :=
  ∀ e, log[k]? = some e → ∀ {m : ℕ} {f : ε} {t : τ}, k ≤ m → log[m]? = some f → v.process e = v.process f →
    v.issued f = some t → u < t

lemma Advancing.above_of_direct (h : Advancing v log) (hjk : Direct v log j k)
    (hd : log[j]? = some d) (hu : v.issued d = some u) : Above v log u k := by
  obtain ⟨hlt, d', e, hd', he, hedge⟩ := hjk
  obtain rfl : d' = d := by rw [hd] at hd'; exact (Option.some.inj hd').symm
  intro e' he' m f t hkm hf hproc ht
  obtain rfl : e' = e := by rw [he] at he'; exact (Option.some.inj he').symm
  rcases hedge with hsame | ⟨u', hu', hrecv⟩
  · exact h.later (hlt.trans_le hkm) hd hf (hsame.trans hproc) (h.issued_seen hd hu) ht
  · obtain rfl : u' = u := by rw [hu] at hu'; exact (Option.some.inj hu').symm
    obtain ⟨hseen, hown⟩ := h.receipt he hrecv
    rcases Nat.lt_or_eq_of_le hkm with hlt' | rfl
    · exact h.later hlt' he hf hproc hseen ht
    · obtain rfl : f = e' := by rw [he] at hf; exact (Option.some.inj hf).symm
      exact hown t ht

lemma Advancing.above_of_happensBefore (h : Advancing v log) (hjk : HappensBefore v log j k)
    (hd : log[j]? = some d) (hu : v.issued d = some u) : Above v log u k := by
  induction hjk with
  | single hdir => exact h.above_of_direct hdir hd hu
  | @tail k l _ hdir ih =>
    obtain ⟨hlt, e, f, he, hf, hedge⟩ := id hdir
    rcases hedge with hsame | ⟨w, hw, -⟩
    · -- The same process goes on, so what held from `k` holds from `l`.
      intro f' hf' m g t hlm hg hproc ht
      obtain rfl : f' = f := by rw [hf] at hf'; exact (Option.some.inj hf').symm
      exact ih e he (hlt.le.trans hlm) hg (hsame.trans hproc) ht
    · -- The message carries a stamp above `u` to the other process.
      have huw : u < w := ih e he le_rfl he rfl hw
      intro f' hf' m g t hlm hg hproc ht
      exact huw.trans (h.above_of_direct hdir he hw f' hf' hlm hg hproc ht)

/-- Happens-before implies strict order of the issued stamps. -/
lemma Advancing.lt_of_happensBefore (h : Advancing v log) (hjk : HappensBefore v log j k)
    (hd : log[j]? = some d) (hu : v.issued d = some u) (he : log[k]? = some e)
    (ht : v.issued e = some t) : u < t :=
  h.above_of_happensBefore hjk hd hu e he le_rfl he rfl ht

end CausalOrder
