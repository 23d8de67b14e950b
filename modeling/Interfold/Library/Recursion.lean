import Mathlib.Tactic.Linarith
import Mathlib.Data.List.Induction
import Mathlib.Data.List.Nodup

/-!
# Recursive proofs

A circuit may verify proofs of other circuits. A key stands for one circuit, and a proof is
accepted under a key if the circuit has private inputs for its public ones, where every proof that
it verifies is itself accepted. Proofs are finite, so `Accepted` is the least such relation.

A sequential fold takes one leaf proof after the other into an accumulator with one row for every
slot. The accumulator of the first step is a proof of another circuit, the kernel, and is not read.
-/

namespace Recursion

open List

variable {K F : Type}

/-- The verifications that a circuit asks for, and its public inputs. -/
abbrev Circuit (K F : Type) : Type := List (K × List F) → List F → Prop

inductive Accepted (circuit : K → Circuit K F) : K → List F → Prop
  | intro (key : K) (calls : List (K × List F)) (pub : List F) (hholds : circuit key calls pub)
      (hcalls : ∀ call ∈ calls, Accepted circuit call.1 call.2) : Accepted circuit key pub

lemma Accepted.holds (h : Accepted circuit key pub) :
    ∃ calls, circuit key calls pub ∧ ∀ call ∈ calls, Accepted circuit call.1 call.2 := by
  cases h with
  | intro _ calls _ hholds hcalls => exact ⟨calls, hholds, hcalls⟩

structure Keys (K : Type) where
  inner : K
  fold : K
  kernel : K

/-- How the public inputs of a fold and of its leaves are read. -/
structure Reading (K F Row D : Type) where
  slots : ℕ
  zero : Row
  keys : List F → Keys K
  row : List F → ℕ → Row
  domain : List F → D
  leafRow : List F → Row
  leafDomain : List F → D
  leafLength : ℕ
  foldLength : ℕ

variable {Row D : Type}

/-- One step of a fold, from the accumulator `acc` to `pub`. -/
structure Writes (R : Reading K F Row D) (first : Bool) (slot : ℕ) (leaf acc pub : List F) :
    Prop where
  slot_lt : slot < R.slots
  keys : R.keys acc = R.keys pub
  domain : R.domain pub = R.leafDomain leaf
  /-- A step that is not the first one only writes to a row that is still zero. -/
  prior : first = false → R.domain acc = R.leafDomain leaf ∧ R.row acc slot = R.zero
  rows : ∀ i < R.slots, R.row pub i =
    if i = slot then R.leafRow leaf else if first then R.zero else R.row acc i

lemma Writes.row_slot (h : Writes R first slot leaf acc pub) : R.row pub slot = R.leafRow leaf := by
  rw [h.rows slot h.slot_lt, if_pos rfl]

/-- The key of the predecessor. -/
def Keys.predecessor (keys : Keys K) (first : Bool) : K := if first then keys.kernel else keys.fold

/-- The circuits of `keys` are a fold and its kernel. -/
structure SequentialFold (circuit : K → Circuit K F) (R : Reading K F Row D) (keys : Keys K) :
    Prop where
  sound : ∀ calls pub, circuit keys.fold calls pub → ∃ first slot leaf acc,
    calls = [((R.keys pub).inner, leaf), ((R.keys pub).predecessor first, acc)] ∧
      Writes R first slot leaf acc pub
  complete : ∀ first slot leaf acc, slot < R.slots → leaf.length = R.leafLength →
    acc.length = R.foldLength → R.keys acc = keys →
    (first = false → R.domain acc = R.leafDomain leaf ∧ R.row acc slot = R.zero) →
    ∃ pub, circuit keys.fold [(keys.inner, leaf), (keys.predecessor first, acc)] pub ∧
      pub.length = R.foldLength ∧ R.keys pub = keys ∧ Writes R first slot leaf acc pub
  genesis : ∀ slot leaf, slot < R.slots → leaf.length = R.leafLength →
    ∃ pub, circuit keys.kernel [(keys.inner, leaf)] pub ∧ pub.length = R.foldLength ∧
      R.keys pub = keys

/-- A chain of fold proofs under the same keys, with the slot and the leaf of every step. -/
inductive Chain (circuit : K → Circuit K F) (R : Reading K F Row D) (keys : Keys K) :
    List (ℕ × List F) → List F → Prop
  | first {slot : ℕ} {leaf acc pub : List F} (hkeys : R.keys pub = keys)
      (hleaf : Accepted circuit keys.inner leaf) (hacc : Accepted circuit keys.kernel acc)
      (hwrites : Writes R true slot leaf acc pub) : Chain circuit R keys [(slot, leaf)] pub
  | next {steps : List (ℕ × List F)} {slot : ℕ} {leaf acc pub : List F}
      (hchain : Chain circuit R keys steps acc) (hkeys : R.keys pub = keys)
      (hleaf : Accepted circuit keys.inner leaf) (hacc : Accepted circuit keys.fold acc)
      (hwrites : Writes R false slot leaf acc pub) :
      Chain circuit R keys (steps ++ [(slot, leaf)]) pub

section

variable {circuit : K → Circuit K F} {R : Reading K F Row D} {keys : Keys K}
  {steps : List (ℕ × List F)} {pub : List F}

lemma SequentialFold.chain (hfold : SequentialFold circuit R keys)
    (h : Accepted circuit keys.fold pub) (hkeys : R.keys pub = keys) :
    ∃ steps, Chain circuit R keys steps pub := by
  generalize hkey : keys.fold = key at h
  induction h with
  | intro key calls pub hholds hcalls ih =>
    subst hkey
    obtain ⟨first, slot, leaf, acc, rfl, hwr⟩ := hfold.sound calls pub hholds
    rw [hkeys] at hcalls ih
    have hleaf : Accepted circuit keys.inner leaf := hcalls (keys.inner, leaf) (by simp)
    have hacc : Accepted circuit (keys.predecessor first) acc :=
      hcalls (keys.predecessor first, acc) (by simp)
    cases first with
    | true => exact ⟨_, .first hkeys hleaf hacc hwr⟩
    | false =>
      obtain ⟨steps, hchain⟩ := ih (keys.predecessor false, acc) (by simp)
        (hwr.keys.trans hkeys) rfl
      exact ⟨_, .next hchain hkeys hleaf hacc hwr⟩

/-- A row that is not zero is the row of a leaf that was taken into its slot. -/
lemma Chain.row (h : Chain circuit R keys steps pub) (hi : i < R.slots) : R.row pub i = R.zero ∨
      ∃ leaf, (i, leaf) ∈ steps ∧ Accepted circuit keys.inner leaf ∧
        R.row pub i = R.leafRow leaf := by
  induction h with
  | @first slot leaf acc pub hkeys hleaf hacc hwr =>
    rw [hwr.rows i hi]
    by_cases hslot : i = slot
    · rw [if_pos hslot]
      exact .inr ⟨leaf, by simp [hslot], hleaf, rfl⟩
    · exact .inl (by simp [hslot])
  | @next steps slot leaf acc pub hchain hkeys hleaf hacc hwr ih =>
    rw [hwr.rows i hi]
    by_cases hslot : i = slot
    · rw [if_pos hslot]
      exact .inr ⟨leaf, by simp [hslot], hleaf, rfl⟩
    · rw [if_neg hslot, if_neg (by simp)]
      refine ih.imp_right ?_
      rintro ⟨leaf', hmem, hleaf', hrow⟩
      exact ⟨leaf', mem_append_left _ hmem, hleaf', hrow⟩

/-- The slot of the last step has the row of its leaf. -/
lemma Chain.last (h : Chain circuit R keys steps pub) :
    ∃ before slot leaf, steps = before ++ [(slot, leaf)] ∧ slot < R.slots ∧
      R.row pub slot = R.leafRow leaf := by
  cases h with
  | first hkeys hleaf hacc hwr => exact ⟨[], _, _, rfl, hwr.slot_lt, hwr.row_slot⟩
  | next hchain hkeys hleaf hacc hwr => exact ⟨_, _, _, rfl, hwr.slot_lt, hwr.row_slot⟩

/-- Every step publishes the domain of its leaf, and it is the same for all. -/
lemma Chain.domain (h : Chain circuit R keys steps pub) :
    ∀ step ∈ steps, R.leafDomain step.2 = R.domain pub := by
  induction h with
  | first hkeys hleaf hacc hwr =>
    intro step hstep
    rw [mem_singleton.1 hstep, hwr.domain]
  | next hchain hkeys hleaf hacc hwr ih =>
    intro step hstep
    rcases mem_append.1 hstep with hstep | hstep
    · rw [ih step hstep, (hwr.prior rfl).1, hwr.domain]
    · rw [mem_singleton.1 hstep, hwr.domain]

lemma Writes.keeps (h : Writes R false slot leaf acc pub) (hi : i < R.slots)
    (hrow : R.row acc i ≠ R.zero) : R.row pub i = R.row acc i := by
  have hne : i ≠ slot := by
    rintro rfl
    exact hrow (h.prior rfl).2
  rw [h.rows i hi, if_neg hne, if_neg (by simp)]

/-- No step replaces a row: what a part of the chain wrote is still there at the end. -/
lemma Chain.keeps (h : Chain circuit R keys steps pub) :
    ∀ before after, steps = before ++ after → before ≠ [] → ∃ acc, Chain circuit R keys before acc ∧
        ∀ i < R.slots, R.row acc i ≠ R.zero → R.row pub i = R.row acc i := by
  induction h with
  | @first slot leaf acc pub hkeys hleaf hacc hwr =>
    intro before after heq hne
    obtain ⟨rfl, rfl⟩ : before = [(slot, leaf)] ∧ after = [] := by
      rcases singleton_eq_append_iff.1 heq with ⟨rfl, _⟩ | hboth
      · exact absurd rfl hne
      · exact hboth
    exact ⟨pub, .first hkeys hleaf hacc hwr, fun _ _ _ => rfl⟩
  | @next steps slot leaf acc pub hchain hkeys hleaf hacc hwr ih =>
    intro before after heq hne
    induction after using reverseRecOn with
    | nil =>
      rw [append_nil] at heq
      subst heq
      exact ⟨pub, .next hchain hkeys hleaf hacc hwr, fun _ _ _ => rfl⟩
    | append_singleton after last _ =>
      rw [← append_assoc] at heq
      obtain ⟨prior, hprior, hkept⟩ := ih before after (append_inj_left' heq rfl) hne
      refine ⟨prior, hprior, ?_⟩
      intro i hi hrow
      have hacc' := hkept i hi hrow
      rw [← hacc'] at hrow ⊢
      exact hwr.keeps hi hrow

end

section

variable {circuit : K → Circuit K F} {R : Reading K F Row D} {keys : Keys K}

/-- The leaves of a chain that can be made: accepted, of one domain and for different slots. -/
structure Foldable (circuit : K → Circuit K F) (R : Reading K F Row D) (keys : Keys K)
    (steps : List (ℕ × List F)) : Prop where
  accepted : ∀ step ∈ steps, Accepted circuit keys.inner step.2
  length : ∀ step ∈ steps, step.2.length = R.leafLength
  slot_lt : ∀ step ∈ steps, step.1 < R.slots
  distinct : (steps.map Prod.fst).Nodup
  domain : ∀ step ∈ steps, ∀ step' ∈ steps, R.leafDomain step.2 = R.leafDomain step'.2

/-- A proof of the fold with the rows of the leaves, and zero everywhere else. -/
structure Folded (circuit : K → Circuit K F) (R : Reading K F Row D) (keys : Keys K)
    (steps : List (ℕ × List F)) (pub : List F) : Prop where
  accepted : Accepted circuit keys.fold pub
  length : pub.length = R.foldLength
  keys : R.keys pub = keys
  rows : ∀ step ∈ steps, R.row pub step.1 = R.leafRow step.2
  zero : ∀ i < R.slots, i ∉ steps.map Prod.fst → R.row pub i = R.zero
  domain : ∀ step ∈ steps, R.domain pub = R.leafDomain step.2

lemma Foldable.of_append (h : Foldable circuit R keys (steps ++ steps')) :
    Foldable circuit R keys steps where
  accepted step hstep := h.accepted step (mem_append_left _ hstep)
  length step hstep := h.length step (mem_append_left _ hstep)
  slot_lt step hstep := h.slot_lt step (mem_append_left _ hstep)
  distinct := (nodup_append.1 (map_append ▸ h.distinct)).1
  domain step hstep step' hstep' :=
    h.domain step (mem_append_left _ hstep) step' (mem_append_left _ hstep')

lemma accepted_step (hpub : circuit keys.fold [(keys.inner, leaf), (pred, acc)] pub)
    (hleaf : Accepted circuit keys.inner leaf) (hacc : Accepted circuit pred acc) :
    Accepted circuit keys.fold pub :=
  .intro _ _ _ hpub (by simp [hleaf, hacc])

variable (hfold : SequentialFold circuit R keys)
include hfold

/-- The first step, on a fresh kernel proof. -/
lemma SequentialFold.folded_first (h : Foldable circuit R keys [step]) :
    ∃ pub, Folded circuit R keys [step] pub := by
  have hmem : step ∈ [step] := mem_singleton_self step
  obtain ⟨acc, hker, hlen, hkeys⟩ :=
    hfold.genesis step.1 step.2 (h.slot_lt step hmem) (h.length step hmem)
  have hleaf := h.accepted step hmem
  have hacc : Accepted circuit keys.kernel acc := .intro _ _ _ hker (by simpa using hleaf)
  obtain ⟨pub, hpub, hpubl, hpubk, hwr⟩ := hfold.complete true step.1 step.2 acc
    (h.slot_lt step hmem) (h.length step hmem) hlen hkeys (by simp)
  refine ⟨pub, accepted_step hpub hleaf hacc, hpubl, hpubk, ?_, ?_, ?_⟩
  · intro step' hstep'
    rw [mem_singleton.1 hstep', hwr.row_slot]
  · intro i hi hne
    rw [hwr.rows i hi, if_neg (by simpa using hne), if_pos rfl]
  · intro step' hstep'
    rw [mem_singleton.1 hstep', hwr.domain]

/-- One more leaf, for a slot that is still free. -/
lemma SequentialFold.folded_next (h : Foldable circuit R keys (steps ++ [step]))
    (hfirst : first ∈ steps) (hacc : Folded circuit R keys steps acc) :
    ∃ pub, Folded circuit R keys (steps ++ [step]) pub := by
  have hmem : step ∈ steps ++ [step] := by simp
  have hslot := h.slot_lt step hmem
  have hnew : step.1 ∉ steps.map Prod.fst := by
    have hdist := h.distinct
    rw [map_append, nodup_append] at hdist
    exact fun hin => hdist.2.2 step.1 hin step.1 (by simp) rfl
  have hdom : R.domain acc = R.leafDomain step.2 :=
    (hacc.domain first hfirst).trans (h.domain first (mem_append_left _ hfirst) step hmem)
  obtain ⟨pub, hpub, hpubl, hpubk, hwr⟩ := hfold.complete false step.1 step.2 acc hslot
    (h.length step hmem) hacc.length hacc.keys fun _ => ⟨hdom, hacc.zero step.1 hslot hnew⟩
  have hstep := accepted_step hpub (h.accepted step hmem) hacc.accepted
  refine ⟨pub, hstep, hpubl, hpubk, ?_, ?_, ?_⟩
  · intro step' hstep'
    rcases mem_append.1 hstep' with hold | hold
    · have hne : step'.1 ≠ step.1 := fun heq => hnew (heq ▸ mem_map_of_mem hold)
      rw [hwr.rows step'.1 (h.slot_lt step' hstep'), if_neg hne, if_neg (by simp)]
      exact hacc.rows step' hold
    · rw [mem_singleton.1 hold, hwr.row_slot]
  · intro i hi hne
    rw [map_append, mem_append, not_or] at hne
    rw [hwr.rows i hi, if_neg (by simpa using hne.2), if_neg (by simp)]
    exact hacc.zero i hi hne.1
  · intro step' hstep'
    rw [hwr.domain]
    exact h.domain step hmem step' hstep'

lemma SequentialFold.folded (hne : steps ≠ []) (h : Foldable circuit R keys steps) :
    ∃ pub, Folded circuit R keys steps pub := by
  induction steps using reverseRecOn with
  | nil => exact absurd rfl hne
  | append_singleton steps step ih =>
    cases steps with
    | nil => exact hfold.folded_first h
    | cons first steps =>
      obtain ⟨acc, hacc⟩ := ih (by simp) h.of_append
      exact hfold.folded_next h (mem_cons_self ..) hacc

end

end Recursion
