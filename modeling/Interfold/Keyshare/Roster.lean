import Interfold.Contracts.Basic
import Interfold.Library.AssocList
import Interfold.Library.SublistSearch
import Mathlib.Data.Finset.Sort

/-!
# Selection of a roster

Every party that is ready reports the dealers whose contributions it has. A roster is a set of
dealers that all have each other's contribution, in the same version, and the first one is taken.

A candidate is only compared with the members chosen before it. The comparison goes both ways, so
the members of a complete choice all have each other.
-/

namespace Interfold.Keyshare

open SublistSearch List

structure DkgDealer where
  partyId : ℕ
  contributionHash : Key
deriving DecidableEq

/-- The reports of the parties that are ready, by ascending party. -/
structure ReadyMap where
  entries : List (ℕ × List DkgDealer)
  ascending : (entries.map Prod.fst).Pairwise (· < ·)

namespace ReadyMap

variable (ready : ReadyMap)

def ids : List ℕ := ready.entries.map Prod.fst

/-- `ready[&id]`. -/
def report (id : ℕ) : List DkgDealer := (AssocList.get ready.entries id).getD []

/-- What a party reports of itself: the first entry, where it has several. -/
def own (id : ℕ) : Option DkgDealer := (ready.report id).find? fun dealer => dealer.partyId = id

/-- The own entry of a candidate that the members chosen before accept. -/
def accept (selected : List DkgDealer) (candidate : ℕ) : Option DkgDealer :=
  match ready.own candidate with
  | none => none
  | some own =>
    if ∀ dealer ∈ selected, dealer ∈ ready.report candidate ∧ own ∈ ready.report dealer.partyId then
      some own
    else none

/-- `select_from`, with the candidates from `start` on. -/
def selectFrom (h : ℕ) (candidates : List ℕ) (selected : List DkgDealer) :
    Option (List DkgDealer) :=
  search ready.accept h candidates selected

def selectReadyRoster (h : ℕ) : Option (List DkgDealer) :=
  if h = 0 ∨ ready.entries.length < h then none
  else ready.selectFrom h ready.ids []

/-- Every member of a set reports itself and has what every member reports of itself. -/
structure Mutual (S : Finset ℕ) : Prop where
  listed : ∀ i ∈ S, (ready.own i).isSome
  supported : ∀ i ∈ S, ∀ j ∈ S, ∀ dealer, ready.own j = some dealer → dealer ∈ ready.report i

variable {ready} {i : ℕ} {d : DkgDealer} {chosen found : List DkgDealer} {t : List ℕ}

lemma partyId_of_own (h : ready.own i = some d) : d.partyId = i := by
  simpa using find?_some h

lemma mem_report_of_own (h : ready.own i = some d) : d ∈ ready.report i :=
  mem_of_find?_eq_some h

lemma mem_ids_of_own (h : ready.own i = some d) : i ∈ ready.ids := by
  have hmem := mem_report_of_own h
  unfold report at hmem
  cases hget : AssocList.get ready.entries i with
  | none => simp [hget] at hmem
  | some dealers => exact mem_map.2 ⟨_, AssocList.mem_of_get hget, rfl⟩

lemma accept_eq_some : ready.accept chosen i = some d ↔ ready.own i = some d ∧
      ∀ e ∈ chosen, e ∈ ready.report i ∧ d ∈ ready.report e.partyId := by
  unfold accept
  cases ready.own i with
  | none => simp
  | some own => grind

/-! ## Choices are mutual -/

/-- Dealers that are the own entries of their parties and have each other. -/
structure Agree (ready : ReadyMap) (l : List DkgDealer) : Prop where
  own : ∀ d ∈ l, ready.own d.partyId = some d
  supported : ∀ d ∈ l, ∀ e ∈ l, d ∈ ready.report e.partyId

lemma agree_concat :
    Agree ready (chosen ++ [d]) ↔ Agree ready chosen ∧ ready.own d.partyId = some d ∧
      ∀ e ∈ chosen, e ∈ ready.report d.partyId ∧ d ∈ ready.report e.partyId := by
  constructor
  · rintro ⟨hown, hsupp⟩
    have hd : d ∈ chosen ++ [d] := by simp
    have hchos : ∀ e ∈ chosen, e ∈ chosen ++ [d] := fun e he => mem_append_left _ he
    refine ⟨⟨fun e he => hown e (hchos e he), ?_⟩, hown d hd, ?_⟩
    · exact fun e he f hf => hsupp e (hchos e he) f (hchos f hf)
    · exact fun e he => ⟨hsupp e (hchos e he) d hd, hsupp d hd e (hchos e he)⟩
  · rintro ⟨hchos, hown, hsupp⟩
    refine ⟨?_, ?_⟩
    · grind [hchos.own]
    · intro e he f hf
      -- The new dealer and itself, the new one and an old one, in both orders, and two old ones.
      simp only [mem_append, mem_singleton] at he hf
      rcases he with he | rfl <;> rcases hf with hf | rfl
      · exact hchos.supported e he f hf
      · exact (hsupp e he).1
      · exact (hsupp f hf).2
      · exact mem_report_of_own hown

/-- The search goes through the parties whose own entries agree with the ones chosen before. -/
lemma chooses_iff (hchos : Agree ready chosen) : Chooses ready.accept chosen t found ↔
      ∃ l, found = chosen ++ l ∧ l.map DkgDealer.partyId = t ∧ Agree ready found := by
  induction t generalizing chosen with
  | nil =>
    constructor
    · rintro ⟨⟩
      exact ⟨[], by simp, rfl, hchos⟩
    · rintro ⟨l, rfl, hl, -⟩
      rw [map_eq_nil_iff.1 hl, append_nil]
      exact .nil chosen
  | cons i t ih =>
    constructor
    · rintro (_ | ⟨hacc, hrest⟩)
      obtain ⟨hown, hsupp⟩ := accept_eq_some.1 hacc
      have hid := partyId_of_own hown
      subst hid
      obtain ⟨l, rfl, rfl, hfound⟩ := (ih (agree_concat.2 ⟨hchos, hown, hsupp⟩)).1 hrest
      exact ⟨_ :: l, by simp, rfl, hfound⟩
    · rintro ⟨l, rfl, hl, hfound⟩
      cases l with
      | nil => simp at hl
      | cons d l =>
        obtain ⟨rfl, rfl⟩ := cons.inj hl
        have hnext : Agree ready (chosen ++ [d]) := by
          refine ⟨?_, ?_⟩
          · grind [hfound.own]
          · grind [hfound.supported]
        obtain ⟨-, hown, hsupp⟩ := agree_concat.1 hnext
        refine .cons (accept_eq_some.2 ⟨hown, hsupp⟩) ?_
        exact (ih hnext).2 ⟨l, by simp, rfl, hfound⟩

/-! ## Choices are sets -/

/-- The own entries of a set, in ascending order. -/
def entriesOf (ready : ReadyMap) (S : Finset ℕ) : List DkgDealer := S.sort.filterMap ready.own

lemma map_partyId_filterMap (l : List ℕ) (h : ∀ i ∈ l, (ready.own i).isSome) :
    (l.filterMap ready.own).map DkgDealer.partyId = l := by
  induction l with
  | nil => rfl
  | cons i l ih =>
    obtain ⟨d, hd⟩ := Option.isSome_iff_exists.1 (h i mem_cons_self)
    rw [filterMap_cons_some hd, map_cons, partyId_of_own hd,
      ih fun j hj => h j (mem_cons_of_mem _ hj)]

lemma agree_nil : Agree ready [] := ⟨by simp, by simp⟩

lemma Mutual.agree (h : ready.Mutual S) : Agree ready (ready.entriesOf S) := by
  have hmem : ∀ d ∈ ready.entriesOf S, d.partyId ∈ S ∧ ready.own d.partyId = some d := by
    intro d hd
    obtain ⟨i, hi, hown⟩ := mem_filterMap.1 hd
    have hid := partyId_of_own hown
    subst hid
    exact ⟨(Finset.mem_sort _).1 hi, hown⟩
  refine ⟨fun d hd => (hmem d hd).2, ?_⟩
  intro d hd e he
  exact h.supported _ (hmem e he).1 _ (hmem d hd).1 d (hmem d hd).2

/-- A mutual set is a choice of the search. -/
lemma Mutual.choice (h : ready.Mutual S) :
    Choice ready.accept S.card [] ready.ids S.sort (ready.entriesOf S) := by
  have hids : (ready.entriesOf S).map DkgDealer.partyId = S.sort :=
    map_partyId_filterMap _ fun i hi => h.listed i ((Finset.mem_sort _).1 hi)
  refine ⟨?_, (chooses_iff agree_nil).2 ⟨_, rfl, hids, h.agree⟩, ?_⟩
  · refine sublist_of_subperm_of_pairwise ?_ (Finset.pairwise_sort S _)
      (ready.ascending.imp fun hlt => le_of_lt hlt)
    refine subperm_of_subset (Finset.sort_nodup S _) ?_
    intro i hi
    obtain ⟨d, hd⟩ := Option.isSome_iff_exists.1 (h.listed i ((Finset.mem_sort _).1 hi))
    exact mem_ids_of_own hd
  · rw [← Finset.length_sort (· ≤ ·), ← hids, length_map]

/-- A choice of the search is a mutual set. -/
lemma mutual_of_choice (hchoice : Choice ready.accept h [] ready.ids t found) :
    ∃ S : Finset ℕ, S.card = h ∧ S.sort = t ∧ ready.Mutual S ∧ found = ready.entriesOf S := by
  obtain ⟨hsub, hchoos, hlen⟩ := hchoice
  obtain ⟨l, hfound, rfl, hagree⟩ := (chooses_iff agree_nil).1 hchoos
  rw [nil_append] at hfound
  subst hfound
  have hasc : (found.map DkgDealer.partyId).Pairwise (· < ·) := ready.ascending.sublist hsub
  have hnodup : (found.map DkgDealer.partyId).Nodup := hasc.imp fun hlt => ne_of_lt hlt
  have hsort : ((found.map DkgDealer.partyId).toFinset).sort = found.map DkgDealer.partyId :=
    (toFinset_sort (r := (· ≤ ·)) hnodup).2 (hasc.imp fun hlt => le_of_lt hlt)
  have hmem : ∀ i ∈ (found.map DkgDealer.partyId).toFinset, ∃ d ∈ found, d.partyId = i :=
    fun i hi => mem_map.1 (mem_toFinset.1 hi)
  refine ⟨_, ?_, hsort, ⟨?_, ?_⟩, ?_⟩
  · rw [toFinset_card_of_nodup hnodup, length_map, hlen]
  · intro i hi
    obtain ⟨d, hd, rfl⟩ := hmem i hi
    rw [hagree.own d hd]
    rfl
  · intro i hi j hj dealer hown
    obtain ⟨d, hd, rfl⟩ := hmem i hi
    obtain ⟨e, he, rfl⟩ := hmem j hj
    obtain rfl := Option.some.inj ((hagree.own e he).symm.trans hown)
    exact hagree.supported e he d hd
  · unfold entriesOf
    rw [hsort, filterMap_map]
    exact ((filterMap_congr hagree.own).trans filterMap_some).symm

/-- A roster is found exactly where a set of parties of that size have each other, and it is the
least of these sets. -/
theorem ready_roster_exact (ready : ReadyMap) (h : ℕ) : ((ready.selectReadyRoster h).isSome ↔
      1 ≤ h ∧ ∃ S : Finset ℕ, S.card = h ∧ ready.Mutual S) ∧
    ∀ r, ready.selectReadyRoster h = some r →
      ∃ S : Finset ℕ, S.card = h ∧ ready.Mutual S ∧ r = ready.entriesOf S ∧
        ∀ S' : Finset ℕ, S'.card = h → ready.Mutual S' → LexLe S.sort S'.sort := by
  have hfinds : Finds ready.accept h [] ready.ids (ready.selectFrom h ready.ids []) :=
    search_finds ready.ascending []
  unfold selectReadyRoster
  split_ifs with hnone
  · refine ⟨⟨nofun, ?_⟩, nofun⟩
    rintro ⟨hpos, S, rfl, hmutual⟩
    have hbounds := hmutual.choice.bounds
    have hlength : ready.ids.length = ready.entries.length := length_map _
    simp only [length_nil] at hbounds
    omega
  · have hpos : 1 ≤ h := by omega
    cases hselect : ready.selectFrom h ready.ids [] with
    | none =>
      rw [hselect] at hfinds
      refine ⟨⟨nofun, ?_⟩, nofun⟩
      rintro ⟨-, S, rfl, hmutual⟩
      exact absurd hmutual.choice (hfinds _ _)
    | some r =>
      rw [hselect] at hfinds
      obtain ⟨t, hchoice, hleast⟩ := hfinds
      obtain ⟨S, hcard, rfl, hmutual, hr⟩ := mutual_of_choice hchoice
      refine ⟨⟨fun _ => ⟨hpos, S, hcard, hmutual⟩, fun _ => rfl⟩, ?_⟩
      intro r' hr'
      obtain rfl := Option.some.inj hr'
      refine ⟨S, hcard, hmutual, hr, ?_⟩
      rintro S' rfl hmutual'
      exact hleast _ _ hmutual'.choice

/-- A party that reports two versions of itself. -/
def twoVersions : ReadyMap := ⟨[(0, [⟨0, 1⟩, ⟨0, 2⟩])], by simp⟩

/-- It is selected with the first of them. -/
theorem two_versions_selected : twoVersions.selectReadyRoster 1 = some [⟨0, 1⟩] ∧
      ¬∃ S : Finset ℕ, S.card = 1 ∧ ∀ i ∈ S,
        ((twoVersions.report i).filter fun dealer => dealer.partyId = i).length = 1 := by
  refine ⟨by decide, ?_⟩
  rintro ⟨S, hcard, hone⟩
  obtain ⟨i, rfl⟩ := Finset.card_eq_one.1 hcard
  have hlength := hone i (Finset.mem_singleton_self i)
  by_cases hi : i = 0
  · subst hi
    exact absurd hlength (by decide)
  · have hnone : twoVersions.report i = [] := by
      simp [report, twoVersions, AssocList.get_cons, Ne.symm hi]
    rw [hnone] at hlength
    exact absurd hlength (by simp)

end ReadyMap

end Interfold.Keyshare
