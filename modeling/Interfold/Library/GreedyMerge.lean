import Interfold.Library.ListEdit

/-!
# Greedy merging

Runs are merged by taking the least of their heads, again and again. The runs need not be sorted, so
the result need not be either. Merging groups of runs first and then their results gives the same
list, because the head of a merged group is the least head of the group.
-/

namespace GreedyMerge

open List Function Option

variable {α K : Type*} [LinearOrder K]

section

variable (key : α → K)

/-- The least head and the runs without it. Among equal heads the first run goes first. -/
def popLeast : List (List α) → Option (α × List (List α))
  | [] => none
  | [] :: runs => (popLeast runs).map fun (b, runs') => (b, [] :: runs')
  | (a :: rest) :: runs =>
    match popLeast runs with
    | none => some (a, rest :: runs)
    | some (b, runs') =>
      if key a ≤ key b then some (a, rest :: runs) else some (b, (a :: rest) :: runs')

def mergeFor : ℕ → List (List α) → List α
  | 0, _ => []
  | n + 1, runs =>
    match popLeast key runs with
    | none => []
    | some (a, runs') => a :: mergeFor n runs'

def merge (runs : List (List α)) : List α := mergeFor key runs.flatten.length runs

/-- The same on runs that have names: as long as some run is not empty, the least head goes next. -/
inductive Greedy {ι : Type*} [DecidableEq ι] : (ι → List α) → List α → Prop
  | done {runs : ι → List α} (h : ∀ i, runs i = []) : Greedy runs []
  | emit {runs : ι → List α} {i : ι} {a : α} {rest out : List α} (h : runs i = a :: rest)
      (hleast : ∀ j b, (runs j).head? = some b → key a ≤ key b)
      (hrest : Greedy (update runs i rest) out) : Greedy runs (a :: out)

end

variable {key : α → K} {runs runs' : List (List α)} {a : α}

lemma popLeast_eq_none (h : popLeast key runs = none) : runs.flatten = [] := by
  induction runs with
  | nil => rfl
  | cons run runs ih =>
    cases run with
    | nil =>
      simp only [popLeast, map_eq_none_iff] at h
      exact ih h
    | cons b rest =>
      simp only [popLeast] at h
      split at h
      · cases h
      · split_ifs at h

/-- Which head is popped: the first of the least ones. -/
lemma popLeast_spec (h : popLeast key runs = some (a, runs')) :
    ∃ n rest, runs[n]? = some (a :: rest) ∧ runs' = runs.set n rest ∧
      ∀ m b tail, runs[m]? = some (b :: tail) → key a < key b ∨ key a = key b ∧ n ≤ m := by
  induction runs generalizing a runs' with
  | nil => cases h
  | cons run runs ih =>
    cases run with
    | nil =>
      simp only [popLeast, map_eq_some_iff, Prod.exists, Prod.mk.injEq] at h
      obtain ⟨b, rest, hpop, rfl, rfl⟩ := h
      obtain ⟨n, tail, hn, rfl, hleast⟩ := ih hpop
      refine ⟨n + 1, tail, hn, rfl, fun m c tail hm => ?_⟩
      cases m with
      | zero => cases hm
      | succ m => simpa using hleast m c tail hm
    | cons b rest =>
      simp only [popLeast] at h
      cases hpop : popLeast key runs with
      | none =>
        simp only [hpop, some.injEq, Prod.mk.injEq] at h
        obtain ⟨rfl, rfl⟩ := h
        refine ⟨0, rest, rfl, rfl, fun m c tail hm => ?_⟩
        cases m with
        | zero =>
          obtain ⟨rfl, -⟩ := cons.inj (some.inj hm)
          exact .inr ⟨rfl, Nat.le_refl 0⟩
        | succ m =>
          have hempty := flatten_eq_nil_iff.1 (popLeast_eq_none hpop) _ (mem_of_getElem? hm)
          cases hempty
      | some next =>
        obtain ⟨c, rest'⟩ := next
        simp only [hpop] at h
        obtain ⟨n, tail, hn, rfl, hleast⟩ := ih hpop
        split_ifs at h with hbc
        · simp only [some.injEq, Prod.mk.injEq] at h
          obtain ⟨rfl, rfl⟩ := h
          refine ⟨0, rest, rfl, rfl, fun m d tail' hm => ?_⟩
          have hle : key b ≤ key d := by
            cases m with
            | zero =>
              obtain ⟨rfl, -⟩ := cons.inj (some.inj hm)
              exact le_rfl
            | succ m =>
              rcases hleast m d tail' hm with hlt | ⟨heq, -⟩
              · exact le_trans hbc hlt.le
              · exact le_trans hbc heq.le
          exact hle.lt_or_eq.imp_right fun heq => ⟨heq, Nat.zero_le m⟩
        · simp only [some.injEq, Prod.mk.injEq] at h
          obtain ⟨rfl, rfl⟩ := h
          refine ⟨n + 1, tail, hn, rfl, fun m d tail' hm => ?_⟩
          cases m with
          | zero =>
            obtain ⟨rfl, -⟩ := cons.inj (some.inj hm)
            exact .inl (lt_of_not_ge hbc)
          | succ m => simpa using hleast m d tail' hm

lemma popLeast_perm (h : popLeast key runs = some (a, runs')) :
    runs.flatten ~ a :: runs'.flatten := by
  obtain ⟨n, rest, hn, rfl, -⟩ := popLeast_spec h
  obtain ⟨front, back, rfl, rfl⟩ := ListEdit.split_at hn
  simpa using perm_middle

section

variable (key : α → K)

/-- A merge is its least head and the merge of the rest. -/
lemma merge_eq (runs : List (List α)) : merge key runs = match popLeast key runs with
      | none => []
      | some (a, runs') => a :: merge key runs' := by
  cases hpop : popLeast key runs with
  | none => rw [merge, popLeast_eq_none hpop]; rfl
  | some next =>
    obtain ⟨a, runs'⟩ := next
    have hlen := (popLeast_perm hpop).length_eq
    rw [length_cons] at hlen
    rw [merge, hlen, mergeFor, hpop]
    rfl

lemma merge_perm (runs : List (List α)) : merge key runs ~ runs.flatten := by
  induction hn : runs.flatten.length generalizing runs with
  | zero =>
    rw [length_eq_zero_iff.1 hn, merge, hn]
    exact Perm.refl _
  | succ n ih =>
    rw [merge_eq]
    cases hpop : popLeast key runs with
    | none => rw [popLeast_eq_none hpop]
    | some next =>
      obtain ⟨a, runs'⟩ := next
      have hperm := popLeast_perm hpop
      have hlen := hperm.length_eq
      rw [length_cons] at hlen
      exact ((ih runs' (by omega)).cons a).trans hperm.symm

lemma merge_singleton (run : List α) : merge key [run] = run := by
  induction run with
  | nil => rfl
  | cons a run ih =>
    rw [merge_eq]
    simp [popLeast, ih]

/-! ## Groups of runs -/

/-- The least head of two lists of runs is the least of their least heads. -/
lemma popLeast_append (front back : List (List α)) :
    popLeast key (front ++ back) = match popLeast key front, popLeast key back with
      | none, none => none
      | none, some (b, back') => some (b, front ++ back')
      | some (a, front'), none => some (a, front' ++ back)
      | some (a, front'), some (b, back') =>
        if key a ≤ key b then some (a, front' ++ back) else some (b, front ++ back') := by
  induction front with
  | nil => cases hback : popLeast key back <;> simp [popLeast, hback]
  | cons run front ih =>
    cases run with
    | nil =>
      simp only [cons_append, popLeast, ih]
      cases popLeast key front <;> cases popLeast key back <;> simp
      split_ifs <;> simp
    | cons a rest =>
      simp only [cons_append, popLeast, ih]
      rcases popLeast key front with - | ⟨c, front'⟩ <;> rcases popLeast key back with - | ⟨b, back'⟩
      · rfl
      · rfl
      · simp only
        split_ifs <;> rfl
      · simp only
        by_cases hcb : key c ≤ key b
        · by_cases hac : key a ≤ key c
          · simp [hcb, hac, le_trans hac hcb]
          · simp [hcb, hac]
        · by_cases hac : key a ≤ key c
          · by_cases hab : key a ≤ key b <;> simp [hcb, hac, hab]
          · have hab : ¬key a ≤ key b := fun h => hac (le_trans h (le_of_not_ge hcb))
            simp [hcb, hac, hab]

/-- A step of the merged groups is a step of all runs at once. -/
lemma popLeast_map_merge (groups : List (List (List α))) : match popLeast key groups.flatten with
    | none => popLeast key (groups.map (merge key)) = none
    | some (a, flat') => ∃ groups' : List (List (List α)), groups'.flatten = flat' ∧
        popLeast key (groups.map (merge key)) = some (a, groups'.map (merge key)) := by
  induction groups with
  | nil => rfl
  | cons group groups ih =>
    rw [flatten_cons, popLeast_append, map_cons, merge_eq key group]
    cases hgroup : popLeast key group with
    | none =>
      cases hrest : popLeast key groups.flatten with
      | none =>
        rw [hrest] at ih
        simp [popLeast, ih]
      | some next =>
        obtain ⟨b, flat'⟩ := next
        rw [hrest] at ih
        obtain ⟨groups', rfl, hpop⟩ := ih
        refine ⟨group :: groups', rfl, ?_⟩
        simp [popLeast, hpop, merge_eq key group, hgroup]
    | some head =>
      obtain ⟨a, group'⟩ := head
      cases hrest : popLeast key groups.flatten with
      | none =>
        rw [hrest] at ih
        exact ⟨group' :: groups, rfl, by simp [popLeast, ih]⟩
      | some next =>
        obtain ⟨b, flat'⟩ := next
        rw [hrest] at ih
        obtain ⟨groups', rfl, hpop⟩ := ih
        simp only [popLeast, hpop]
        split_ifs with hab
        · exact ⟨group' :: groups, rfl, rfl⟩
        · refine ⟨group :: groups', rfl, ?_⟩
          simp [merge_eq key group, hgroup]

/-- Merging groups first does not change the result. -/
lemma merge_map_merge (groups : List (List (List α))) :
    merge key (groups.map (merge key)) = merge key groups.flatten := by
  induction hn : groups.flatten.flatten.length using Nat.strongRecOn generalizing groups with
  | ind n ih =>
    have hstep := popLeast_map_merge key groups
    rw [merge_eq key groups.flatten, merge_eq key (groups.map _)]
    cases hpop : popLeast key groups.flatten with
    | none =>
      rw [hpop] at hstep
      rw [hstep]
    | some next =>
      obtain ⟨a, flat'⟩ := next
      rw [hpop] at hstep
      obtain ⟨groups', rfl, hgroups⟩ := hstep
      have hlen := (popLeast_perm hpop).length_eq
      rw [length_cons] at hlen
      simp only [hgroups, ih _ (by omega) groups' rfl]

end

/-! ## Named runs -/

section

variable {ι : Type*} [DecidableEq ι] {f : ι → List α} {out out' : List α}

/-- The least head of named runs belongs to one of them, and no other head is less. -/
lemma popLeast_map {ids : List ι} (hnodup : ids.Nodup)
    (h : popLeast key (ids.map f) = some (a, runs')) : ∃ i ∈ ids, ∃ rest, f i = a :: rest ∧
      (∀ j ∈ ids, ∀ b, (f j).head? = some b → key a ≤ key b) ∧
      runs' = ids.map (update f i rest) := by
  obtain ⟨n, rest, hn, rfl, hleast⟩ := popLeast_spec h
  rw [getElem?_map, map_eq_some_iff] at hn
  obtain ⟨i, hi, hrun⟩ := hn
  refine ⟨i, mem_of_getElem? hi, rest, hrun, ?_, ?_⟩
  · intro j hj b hb
    obtain ⟨m, hm⟩ := mem_iff_getElem?.1 hj
    obtain ⟨tail, htail⟩ := head?_eq_some_iff.1 hb
    have hrun : (ids.map f)[m]? = some (b :: tail) := by rw [getElem?_map, hm, map_some, htail]
    rcases hleast m b tail hrun with hlt | ⟨heq, -⟩
    · exact hlt.le
    · exact heq.le
  · obtain ⟨hlt, rfl⟩ := List.getElem?_eq_some_iff.1 hi
    refine ext_getElem (by simp) fun m hm hm' => ?_
    simp only [getElem_set, getElem_map]
    split_ifs with hnm
    · subst hnm
      rw [update_self]
    · rw [update_of_ne]
      intro heq
      exact hnm ((List.Nodup.getElem_inj_iff hnodup).1 heq).symm

/-- Merging named runs is greedy. -/
lemma merge_greedy {ids : List ι} (hnodup : ids.Nodup) (hids : ∀ i, i ∉ ids → f i = []) :
    Greedy key f (merge key (ids.map f)) := by
  induction hn : (ids.map f).flatten.length generalizing f with
  | zero =>
    have hempty := length_eq_zero_iff.1 hn
    rw [merge, hn]
    refine .done fun i => ?_
    by_cases hi : i ∈ ids
    · exact flatten_eq_nil_iff.1 hempty _ (mem_map_of_mem hi)
    · exact hids i hi
  | succ n ih =>
    rw [merge_eq]
    cases hpop : popLeast key (ids.map f) with
    | none =>
      rw [popLeast_eq_none hpop] at hn
      cases hn
    | some next =>
      obtain ⟨a, runs'⟩ := next
      have hlen := (popLeast_perm hpop).length_eq
      obtain ⟨i, hi, rest, hrun, hleast, rfl⟩ := popLeast_map hnodup hpop
      refine .emit hrun (fun j b hb => ?_) (ih (fun j hj => ?_) ?_)
      · by_cases hj : j ∈ ids
        · exact hleast j hj b hb
        · rw [hids j hj] at hb
          cases hb
      · rw [update_of_ne, hids j hj]
        rintro rfl
        exact hj hi
      · rw [length_cons] at hlen
        omega

lemma mem_of_mem_update {x : α} {i j : ι} (hrun : f i = a :: rest) (hx : x ∈ update f i rest j) :
    x ∈ f j := by
  by_cases hj : j = i
  · subst hj
    rw [update_self] at hx
    exact hrun ▸ mem_cons_of_mem a hx
  · rwa [update_of_ne hj] at hx

/-- When the keys of different runs differ, there is one greedy merge. -/
lemma Greedy.unique (h : Greedy key f out) (h' : Greedy key f out')
    (hkey : ∀ i j, ∀ x ∈ f i, ∀ y ∈ f j, key x = key y → i = j) : out = out' := by
  induction h generalizing out' with
  | done hempty =>
    cases h' with
    | done _ => rfl
    | emit hrun _ _ =>
      rw [hempty] at hrun
      cases hrun
  | @emit f i a rest out hrun hleast _ ih =>
    cases h' with
    | done hempty =>
      rw [hempty] at hrun
      cases hrun
    | @emit _ i' a' rest' out' hrun' hleast' hrest' =>
      have heq : key a = key a' :=
        le_antisymm (hleast i' a' (by rw [hrun']; rfl)) (hleast' i a (by rw [hrun]; rfl))
      obtain rfl := hkey i i' a (by rw [hrun]; exact mem_cons_self) a'
        (by rw [hrun']; exact mem_cons_self) heq
      obtain ⟨rfl, rfl⟩ := cons.inj (hrun.symm.trans hrun')
      exact congrArg (a :: ·) (ih hrest' fun j k x hx y hy =>
        hkey j k x (mem_of_mem_update hrun hx) y (mem_of_mem_update hrun hy))

/-- Every run keeps its own order. -/
lemma Greedy.filter_eq {tag : α → ι} (h : Greedy key f out) (htag : ∀ i, ∀ x ∈ f i, tag x = i)
    (i : ι) : out.filter (fun x => tag x = i) = f i := by
  induction h with
  | done hempty => rw [hempty]; rfl
  | @emit f j a rest out hrun _ _ ih =>
    have hrest : ∀ k, ∀ x ∈ update f j rest k, tag x = k := fun k x hx =>
      htag k x (mem_of_mem_update hrun hx)
    have ha : tag a = j := htag j a (by rw [hrun]; exact mem_cons_self)
    rw [filter_cons, ih hrest, ha]
    by_cases hi : i = j
    · subst hi
      rw [update_self, hrun]
      simp
    · rw [update_of_ne hi]
      simp [Ne.symm hi]

end

end GreedyMerge
