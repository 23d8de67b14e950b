import Mathlib.Tactic.Linarith
import Mathlib.Order.Lattice.Nat

/-!
# The best of every group

Candidates belong to groups and have a rank. Of every group only the best-ranked candidate counts,
its champion, and the first `n` champions are selected. A selection can be kept up while candidates
arrive one by one, with only the selected ones in memory: a group whose champion has dropped out
never needs to be remembered, because the selected ones only get better.
-/

namespace GroupSelection

open Finset List

variable {α β ρ : Type*} [LinearOrder ρ]

section

variable [DecidableEq β] (group : α → β) (rank : α → ρ)

/-- The best-ranked candidate of every group. -/
def champions (S : Finset α) : Finset α :=
  {x ∈ S | ∀ y ∈ S, group y = group x → rank x ≤ rank y}

/-- The first `n` champions. -/
def best (n : ℕ) (S : Finset α) : Finset α :=
  {x ∈ champions group rank S | #{y ∈ champions group rank S | rank y < rank x} < n}

end

/-- What a selection has to satisfy: one per group, at most `n`, and every candidate is beaten by a
selected one of its group, or by all of `n` selected ones. -/
structure Selected (group : α → β) (rank : α → ρ) (n : ℕ) (S T : Finset α) : Prop where
  subset : T ⊆ S
  single : ∀ x ∈ T, ∀ y ∈ T, group x = group y → x = y
  card_le : #T ≤ n
  beaten : ∀ s ∈ S, (∃ t ∈ T, group t = group s ∧ rank t ≤ rank s) ∨
    #T = n ∧ ∀ t ∈ T, rank t < rank s

variable {group : α → β} {rank : α → ρ} {n : ℕ} {S T : Finset α} {x c w : α}

namespace Selected

lemma champion (h : Selected group rank n S T) (ht : t ∈ T) (hs : s ∈ S)
    (hgroup : group s = group t) : rank t ≤ rank s := by
  rcases h.beaten s hs with ⟨t', ht', hgroup', hle⟩ | ⟨-, hlt⟩
  · rw [h.single t ht t' ht' (hgroup.symm.trans hgroup'.symm)]
    exact hle
  · exact (hlt t ht).le

section

variable [DecidableEq β]

lemma subset_champions (h : Selected group rank n S T) : T ⊆ champions group rank S := by
  intro t ht
  exact mem_filter.2 ⟨h.subset ht, fun s hs hgroup => h.champion ht hs hgroup⟩

/-- A champion is selected, or all `n` selected ones rank before it. -/
lemma mem_or_lt (h : Selected group rank n S T) (hrank : Function.Injective rank)
    (hm : m ∈ champions group rank S) : m ∈ T ∨ #T = n ∧ ∀ t ∈ T, rank t < rank m := by
  obtain ⟨hS, hbest⟩ := mem_filter.1 hm
  rcases h.beaten m hS with ⟨t, ht, hgroup, hle⟩ | hall
  · have heq : t = m := hrank (le_antisymm hle (hbest t (h.subset ht) hgroup))
    exact .inl (heq ▸ ht)
  · exact .inr hall

/-- The conditions determine the selection. -/
lemma eq_best [DecidableEq α] (h : Selected group rank n S T) (hrank : Function.Injective rank) :
    T = best group rank n S := by
  ext x
  constructor
  · intro hx
    refine mem_filter.2 ⟨h.subset_champions hx, ?_⟩
    -- The champions before a selected one are selected, too.
    have hsub : {y ∈ champions group rank S | rank y < rank x} ⊆ T.erase x := by
      intro y hy
      obtain ⟨hchamp, hlt⟩ := mem_filter.1 hy
      refine mem_erase.2 ⟨?_, ?_⟩
      · rintro rfl
        exact lt_irrefl _ hlt
      · rcases h.mem_or_lt hrank hchamp with hmem | ⟨-, hall⟩
        · exact hmem
        · exact absurd (hall x hx) (lt_asymm hlt)
    have hcard := (card_le_card hsub).trans_lt (card_erase_lt_of_mem hx)
    exact hcard.trans_le h.card_le
  · intro hx
    obtain ⟨hchamp, hcard⟩ := mem_filter.1 hx
    rcases h.mem_or_lt hrank hchamp with hmem | ⟨hfull, hall⟩
    · exact hmem
    · have hsub : T ⊆ {y ∈ champions group rank S | rank y < rank x} := by
        intro t ht
        exact mem_filter.2 ⟨h.subset_champions ht, hall t ht⟩
      have hle := card_le_card hsub
      omega

/-- As many are selected as there are groups, up to `n`. -/
lemma card_eq (h : Selected group rank n S T) : #T = min n #(S.image group) := by
  have himage : #(T.image group) = #T := by
    refine card_image_iff.2 ?_
    intro a ha b hb hab
    exact h.single a ha b hb hab
  have hle : #T ≤ #(S.image group) := by
    rw [← himage]
    exact card_le_card (image_subset_image h.subset)
  have hcard := h.card_le
  by_cases hfull : #T = n
  · omega
  · have hall : S.image group ⊆ T.image group := by
      intro g hg
      obtain ⟨s, hs, rfl⟩ := mem_image.1 hg
      rcases h.beaten s hs with ⟨t, ht, hgroup, -⟩ | ⟨hn, -⟩
      · exact mem_image.2 ⟨t, ht, hgroup⟩
      · exact absurd hn hfull
    have hge := card_le_card hall
    omega

end

lemma empty : Selected group rank n ∅ ∅ := by
  constructor <;> simp

/-! ## One more candidate -/

variable [DecidableEq α]

lemma single_insert (h : ∀ a ∈ T, ∀ b ∈ T, group a = group b → a = b)
    (hnew : ∀ t ∈ T, group t ≠ group x) :
    ∀ a ∈ insert x T, ∀ b ∈ insert x T, group a = group b → a = b := by
  intro a ha b hb hab
  rcases mem_insert.1 ha with rfl | ha' <;> rcases mem_insert.1 hb with rfl | hb'
  · rfl
  · exact absurd hab.symm (hnew b hb')
  · exact absurd hab (hnew a ha')
  · exact h a ha' b hb' hab

section

variable (h : Selected group rank n S T)
include h

/-- The candidate does not beat the selected one of its group, or all `n` selected ones rank before
it. -/
lemma keep (hx : (∃ t ∈ T, group t = group x ∧ rank t ≤ rank x) ∨
    #T = n ∧ ∀ t ∈ T, rank t < rank x) : Selected group rank n (insert x S) T where
  subset := h.subset.trans (subset_insert x S)
  single := h.single
  card_le := h.card_le
  beaten := (forall_mem_insert x S _).2 ⟨hx, h.beaten⟩

/-- There is room for a candidate of a new group. -/
lemma add (hroom : #T < n) (hnew : ∀ t ∈ T, group t ≠ group x) :
    Selected group rank n (insert x S) (insert x T) where
  subset := insert_subset_insert x h.subset
  single := single_insert h.single hnew
  card_le := (card_insert_le x T).trans hroom
  beaten s hs := by
    rcases mem_insert.1 hs with rfl | hs
    · exact .inl ⟨s, mem_insert_self s T, rfl, le_rfl⟩
    · rcases h.beaten s hs with ⟨t, ht, hgroup, hle⟩ | ⟨hfull, -⟩
      · exact .inl ⟨t, mem_insert_of_mem ht, hgroup, hle⟩
      · exact absurd hfull hroom.ne

/-- The candidate takes the place of one that it beats: the one of its group, or, if none is
selected, the worst of `n`. -/
lemma replace (hrank : Function.Injective rank) (hw : w ∈ T) (hlt : rank x < rank w)
    (hwhy : group w = group x ∨ #T = n ∧ (∀ t ∈ T, rank t ≤ rank w) ∧ ∀ t ∈ T, group t ≠ group x) :
    Selected group rank n (insert x S) (insert x (T.erase w)) := by
  have hother : ∀ t ∈ T.erase w, group t ≠ group x := by
    intro t ht
    obtain ⟨hne, hT⟩ := mem_erase.1 ht
    rcases hwhy with hgroup | ⟨-, -, hnew⟩
    · intro heq
      exact hne (h.single t hT w hw (heq.trans hgroup.symm))
    · exact hnew t hT
  have hx : x ∉ T.erase w := fun hmem => hother x hmem rfl
  have hcard : #(insert x (T.erase w)) = #T := by
    rw [card_insert_of_notMem hx, card_erase_add_one hw]
  have hrest : ∀ {s : α}, (∀ t ∈ T.erase w, rank t < rank s) → rank w ≤ rank s →
      ∀ t ∈ insert x (T.erase w), rank t < rank s := by
    intro s hbef hle t ht
    rcases mem_insert.1 ht with rfl | ht
    · exact hlt.trans_le hle
    · exact hbef t ht
  refine ⟨?_, ?_, hcard.trans_le h.card_le, ?_⟩
  · exact insert_subset_insert x ((erase_subset w T).trans h.subset)
  · refine single_insert (fun a ha b hb => ?_) hother
    exact h.single a (mem_of_mem_erase ha) b (mem_of_mem_erase hb)
  · intro s hs
    rcases mem_insert.1 hs with rfl | hs
    · exact .inl ⟨s, mem_insert_self s _, rfl, le_rfl⟩
    · rw [hcard]
      rcases h.beaten s hs with ⟨t, ht, hgroup, hle⟩ | ⟨hfull, hall⟩
      · by_cases htw : t = w
        · -- The one that beat `s` is gone; the candidate or all of them beat it now.
          subst htw
          rcases hwhy with hsame | ⟨hfull, hworst, -⟩
          · exact .inl ⟨x, mem_insert_self x _, hsame.symm.trans hgroup, hlt.le.trans hle⟩
          · refine .inr ⟨hfull, hrest (fun t' ht' => ?_) hle⟩
            obtain ⟨hne, hT⟩ := mem_erase.1 ht'
            have hstr := lt_of_le_of_ne (hworst t' hT) fun heq => hne (hrank heq)
            exact hstr.trans_le hle
        · exact .inl ⟨t, mem_insert_of_mem (mem_erase.2 ⟨htw, ht⟩), hgroup, hle⟩
      · exact .inr ⟨hfull, hrest (fun t' ht' => hall t' (mem_of_mem_erase ht')) (hall w hw).le⟩

end

omit [DecidableEq α] in
/-- A selection stays one if some of the candidates that were not selected leave. -/
lemma shrink (h : Selected group rank n S T) (hT : T ⊆ S') (hS : S' ⊆ S) :
    Selected group rank n S' T where
  subset := hT
  single := h.single
  card_le := h.card_le
  beaten s hs := h.beaten s (hS hs)

end Selected

/-- The first champions are among the first of a larger number. -/
lemma best_mono [DecidableEq β] (hle : n ≤ m) : best group rank n S ⊆ best group rank m S := by
  intro x hx
  obtain ⟨hchamp, hcard⟩ := mem_filter.1 hx
  exact mem_filter.2 ⟨hchamp, hcard.trans_le hle⟩

/-! ## Candidates in the order of their ranks -/

section

variable [DecidableEq β]

/-- The first of every group, in the order of the list. -/
def firsts (group : α → β) : List α → List α
  | [] => []
  | x :: l => x :: (firsts group l).filter fun y => group y ≠ group x

lemma firsts_sublist (group : α → β) (l : List α) : (firsts group l).Sublist l := by
  induction l with
  | nil => exact List.Sublist.slnil
  | cons x l ih => exact (filter_sublist.trans ih).cons_cons x

lemma firsts_map {γ : Type*} (f : γ → α) (l : List γ) :
    firsts group (l.map f) = (firsts (group ∘ f) l).map f := by
  induction l with
  | nil => rfl
  | cons x l ih => simp [firsts, ih, filter_map, Function.comp_def]

/-- Every candidate has the first of its group at its place or before it. -/
lemma exists_mem_firsts (hsort : l.Pairwise r) (hx : x ∈ l) :
    ∃ y ∈ firsts group l, group y = group x ∧ (y = x ∨ r y x) := by
  induction l with
  | nil => cases hx
  | cons z l ih =>
    obtain ⟨hz, hsort⟩ := pairwise_cons.1 hsort
    rcases mem_cons.1 hx with rfl | hx
    · exact ⟨x, mem_cons_self .., rfl, .inl rfl⟩
    · obtain ⟨y, hy, hgroup, hle⟩ := ih hsort hx
      by_cases hyz : group y = group z
      · exact ⟨z, mem_cons_self .., hyz.symm.trans hgroup, .inr (hz x hx)⟩
      · have hkept : y ∈ (firsts group l).filter fun y => group y ≠ group z :=
          mem_filter.2 ⟨hy, by simpa using hyz⟩
        exact ⟨y, mem_cons_of_mem z hkept, hgroup, hle⟩

lemma map_firsts_nodup (group : α → β) (l : List α) : ((firsts group l).map group).Nodup := by
  induction l with
  | nil => exact nodup_nil
  | cons x l ih =>
    refine nodup_cons.2 ⟨?_, ih.sublist (filter_sublist.map group)⟩
    intro hmem
    obtain ⟨y, hy, hgroup⟩ := mem_map.1 hmem
    simpa [hgroup] using (mem_filter.1 hy).2

lemma firsts_snoc (l : List α) (x : α) : firsts group (l ++ [x]) =
      if ∃ y ∈ l, group y = group x then firsts group l else firsts group l ++ [x] := by
  induction l with
  | nil => simp [firsts]
  | cons z l ih =>
    rw [cons_append, firsts, ih]
    by_cases hz : group z = group x
    · have hold : ∃ y ∈ z :: l, group y = group x := ⟨z, mem_cons_self .., hz⟩
      rw [if_pos hold, firsts]
      split_ifs
      · rfl
      · simp [hz]
    · by_cases hold : ∃ y ∈ l, group y = group x
      · obtain ⟨y, hy, hgroup⟩ := hold
        rw [if_pos ⟨y, hy, hgroup⟩, if_pos ⟨y, mem_cons_of_mem z hy, hgroup⟩, firsts]
      · have hnew : ¬∃ y ∈ z :: l, group y = group x := by
          rintro ⟨y, hy, hgroup⟩
          rcases mem_cons.1 hy with rfl | hy
          · exact hz hgroup
          · exact hold ⟨y, hy, hgroup⟩
        rw [if_neg hold, if_neg hnew, firsts, filter_append, cons_append]
        simp [Ne.symm hz]

/-- In a list sorted by rank the first ones are the champions. -/
lemma selected_take_firsts [DecidableEq α] (hsort : l.Pairwise fun x y => rank x < rank y) :
    Selected group rank n l.toFinset ((firsts group l).take n).toFinset := by
  have hfirs : (firsts group l).Pairwise fun x y => rank x < rank y :=
    hsort.sublist (firsts_sublist group l)
  have htake := take_sublist n (firsts group l)
  have hinj := inj_on_of_nodup_map (map_firsts_nodup group l)
  refine ⟨?_, ?_, ?_, ?_⟩
  · intro x hx
    rw [mem_toFinset] at hx ⊢
    exact (htake.trans (firsts_sublist group l)).subset hx
  · intro x hx y hy hgroup
    rw [mem_toFinset] at hx hy
    exact hinj (htake.subset hx) (htake.subset hy) hgroup
  · exact (toFinset_card_le _).trans (length_take_le n _)
  · intro s hs
    rw [mem_toFinset] at hs
    obtain ⟨c, hc, hgroup, hle⟩ :
        ∃ c ∈ firsts group l, group c = group s ∧ (c = s ∨ rank c < rank s) :=
      exists_mem_firsts hsort hs
    have hle : rank c ≤ rank s := by
      rcases hle with rfl | hlt
      · exact le_rfl
      · exact hlt.le
    rw [← take_append_drop n (firsts group l)] at hc hfirs
    rcases mem_append.1 hc with hc | hc
    · exact .inl ⟨c, mem_toFinset.2 hc, hgroup, hle⟩
    · -- The champion of the group is too late, so the first `n` are all before it.
      refine .inr ⟨?_, ?_⟩
      · have hnodup : ((firsts group l).take n).Nodup :=
          ((map_firsts_nodup group l).of_map group).sublist htake
        rw [toFinset_card_of_nodup hnodup, length_take]
        have hlong := length_pos_of_mem hc
        rw [length_drop] at hlong
        omega
      · intro t ht
        have hbef := (pairwise_append.1 hfirs).2.2 t (mem_toFinset.1 ht) c hc
        exact hbef.trans_le hle

end

end GroupSelection
