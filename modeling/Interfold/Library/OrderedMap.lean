import Mathlib.Tactic.Linarith
import Mathlib.Data.Finset.Card

/-!
# Maps in the order of their keys

A map is the list of its entries, and the order of the list is the order of the keys. It is read by
`get`, and `keys` is the set of its keys.
-/

structure OrderedMap (κ α : Type) [LinearOrder κ] where
  entries : List (κ × α)
  ascending : (entries.map Prod.fst).Pairwise (· < ·)
deriving DecidableEq

namespace OrderedMap

open List

variable {κ α : Type} [LinearOrder κ]

def empty : OrderedMap κ α := ⟨[], List.Pairwise.nil⟩

section

variable (m : OrderedMap κ α)

def get (k : κ) : Option α :=
  (m.entries.find? fun e => e.1 = k).map Prod.snd

def keys : Finset κ := (m.entries.map Prod.fst).toFinset

def size : ℕ := m.entries.length

/-- The entries before `k`, the new one and those after `k`. -/
def insert (k : κ) (a : α) : OrderedMap κ α where
  entries := (m.entries.filter fun e => e.1 < k) ++ (k, a) :: m.entries.filter fun e => k < e.1
  ascending := by
    have hsub : ∀ p : κ × α → Bool, ((m.entries.filter p).map Prod.fst).Pairwise (· < ·) :=
      fun p => m.ascending.sublist (filter_sublist.map _)
    rw [map_append, map_cons, pairwise_append, pairwise_cons]
    refine ⟨hsub _, ⟨?_, hsub _⟩, ?_⟩
    · intro k' hk'
      simp only [mem_map, mem_filter] at hk'
      grind
    · intro k₁ hk₁ k₂ hk₂
      simp only [mem_cons, mem_map, mem_filter, decide_eq_true_eq] at hk₁ hk₂
      grind

/-- The map has the value only if it had none. -/
def orInsert (k : κ) (a : α) : OrderedMap κ α :=
  if k ∈ m.keys then m else m.insert k a

/-- The entries whose keys satisfy `p`. -/
def retain (p : κ → Bool) : OrderedMap κ α where
  entries := m.entries.filter fun e => p e.1
  ascending := m.ascending.sublist (filter_sublist.map _)

def remove (k : κ) : OrderedMap κ α := m.retain fun k' => k' ≠ k

end

variable {m : OrderedMap κ α} {k k' : κ} {a : α}

lemma nodup (m : OrderedMap κ α) : (m.entries.map Prod.fst).Nodup :=
  m.ascending.imp ne_of_lt

lemma get_eq_some : m.get k = some a ↔ (k, a) ∈ m.entries := by
  constructor
  · intro h
    obtain ⟨e, he, rfl⟩ := Option.map_eq_some_iff.1 h
    have hkey : e.1 = k := by simpa using find?_some he
    exact hkey ▸ mem_of_find?_eq_some he
  · intro h
    obtain ⟨e, he⟩ : ∃ e, (m.entries.find? fun e => e.1 = k) = some e := by
      rw [← Option.isSome_iff_exists, find?_isSome]
      exact ⟨(k, a), h, by simp⟩
    have hkey : e.1 = k := by simpa using find?_some he
    have hsame : e = (k, a) :=
      inj_on_of_nodup_map m.nodup (mem_of_find?_eq_some he) h hkey
    simp [get, he, hsame]

lemma mem_keys : k ∈ m.keys ↔ ∃ a, m.get k = some a := by
  simp [keys, get_eq_some]

lemma mem_keys_of_get (h : m.get k = some a) : k ∈ m.keys := mem_keys.2 ⟨a, h⟩

lemma card_keys (m : OrderedMap κ α) : m.keys.card = m.size := by
  rw [keys, toFinset_card_of_nodup m.nodup, length_map, size]

@[simp] lemma keys_empty : (empty : OrderedMap κ α).keys = ∅ := rfl

/-- The first entry with a property is the one with the least key. -/
lemma find?_least (h : m.entries.find? p = some e) :
    m.get e.1 = some e.2 ∧ p e = true ∧ ∀ e' ∈ m.entries, e'.1 < e.1 → p e' = false := by
  obtain ⟨hp, before, after, hents, hbef⟩ := find?_eq_some_iff_append.1 h
  refine ⟨get_eq_some.2 (by rw [hents]; simp), hp, ?_⟩
  intro e' he' hlt
  have hasc := m.ascending
  rw [hents] at he' hasc
  simp only [map_append, map_cons, pairwise_append, pairwise_cons] at hasc
  rcases mem_append.1 he' with hmem | hmem
  · simpa using hbef e' hmem
  · rcases mem_cons.1 hmem with rfl | hmem
    · exact absurd hlt (lt_irrefl _)
    · exact absurd hlt (hasc.2.1.1 _ (mem_map_of_mem hmem)).asymm

lemma mem_entries_insert : e ∈ (m.insert k a).entries ↔ e = (k, a) ∨ (e ∈ m.entries ∧ e.1 ≠ k) := by
  simp only [insert, mem_append, mem_cons, mem_filter, decide_eq_true_eq]
  grind

variable (m : OrderedMap κ α)

lemma get_insert (k k' : κ) (a : α) :
    (m.insert k a).get k' = if k' = k then some a else m.get k' := by
  apply Option.ext
  intro b
  rw [get_eq_some, mem_entries_insert]
  split_ifs with hk
  · grind
  · rw [get_eq_some]
    grind

lemma keys_insert (k : κ) (a : α) : (m.insert k a).keys = Insert.insert k m.keys := by
  ext k'
  rw [mem_keys, get_insert, Finset.mem_insert, mem_keys]
  split_ifs with hk
  · simp [hk]
  · simp [hk]

lemma get_retain (p : κ → Bool) (k : κ) : (m.retain p).get k = if p k then m.get k else none := by
  apply Option.ext
  intro b
  rw [get_eq_some]
  split_ifs with hk
  · rw [get_eq_some]
    simp [retain, hk]
  · simp [retain, hk]

lemma keys_retain (p : κ → Bool) : (m.retain p).keys = m.keys.filter fun k => p k := by
  ext k
  rw [mem_keys, get_retain, Finset.mem_filter, mem_keys]
  split_ifs with hk
  · simp [hk]
  · simp [hk]

lemma keys_remove (k : κ) : (m.remove k).keys = m.keys.erase k := by
  ext k'
  simp [remove, keys_retain, and_comm]

lemma keys_orInsert (k : κ) (a : α) : (m.orInsert k a).keys = Insert.insert k m.keys := by
  unfold orInsert
  split_ifs with hk
  · rw [Finset.insert_eq_of_mem hk]
  · exact keys_insert m k a

end OrderedMap
