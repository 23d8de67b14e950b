import Interfold.Contracts.Registry.Sortition
import Mathlib.Data.Finset.Sort

/-!
# Owner-capped sortition

With the owner cap the committee is the selection of the best node of every owner, whatever the
order in which the tickets came.
-/

namespace Interfold.Registry

open Transaction Function GroupSelection ListEdit List

variable {β : Type}

lemma worstLoop_cond :
    (scoreOf worst < scoreOf node ∨ (true = true ∧ scoreOf node = scoreOf worst ∧ worst < node)) ↔
      rank scoreOf worst < rank scoreOf node := by
  simp [rank, Prod.Lex.toLex_lt_toLex, eq_comm]

/-- The loop keeps the worst of the nodes it has passed. -/
lemma worstLoop_spec (scoreOf : Address → ℕ) (nodes passed : List Address) (worstIndex : ℕ)
    (worst : Address) (hworst : passed[worstIndex]? = some worst)
    (hrank : ∀ t ∈ passed, rank scoreOf t ≤ rank scoreOf worst) :
    ∃ w, (passed ++ nodes)[worstLoop scoreOf true nodes passed.length worstIndex worst
        (scoreOf worst)]? = some w ∧
      ∀ t ∈ passed ++ nodes, rank scoreOf t ≤ rank scoreOf w := by
  induction nodes generalizing passed worstIndex worst with
  | nil => exact ⟨worst, by simpa [worstLoop] using hworst, by simpa using hrank⟩
  | cons node nodes ih =>
    have hpass : passed ++ node :: nodes = (passed ++ [node]) ++ nodes := by simp
    have hlen : passed.length + 1 = (passed ++ [node]).length := by simp
    rw [worstLoop, hpass, hlen]
    split_ifs with hcond
    · have hlt := worstLoop_cond.1 hcond
      refine ih (passed ++ [node]) passed.length node (by simp) ?_
      intro t ht
      rcases mem_append.1 ht with hold | hnew
      · exact (hrank t hold).trans hlt.le
      · rw [mem_singleton.1 hnew]
    · have hnot := mt worstLoop_cond.2 hcond
      refine ih (passed ++ [node]) worstIndex worst ?_ ?_
      · rw [List.getElem?_append_left (List.getElem?_eq_some_iff.1 hworst).1]
        exact hworst
      · intro t ht
        rcases mem_append.1 ht with hold | hnew
        · exact hrank t hold
        · rw [mem_singleton.1 hnew]
          exact not_lt.1 hnot

lemma worstIndex_cases (c : Committee) :
    (c.topNodes = [] ∧ ∃ e, worstCandidateIndex true c = .error e) ∨
    ∃ i w, worstCandidateIndex true c = .ok i ∧ c.topNodes[i]? = some w ∧
      ∀ t ∈ c.topNodes, rank c.scoreOf t ≤ rank c.scoreOf w := by
  unfold worstCandidateIndex
  cases c.topNodes with
  | nil => exact .inl ⟨rfl, _, rfl⟩
  | cons first nodes =>
    obtain ⟨w, hget, hworst⟩ := worstLoop_spec c.scoreOf nodes [first] 0 first rfl (by simp)
    exact .inr ⟨_, w, rfl, hget, hworst⟩

/-- The committee so far is the selection from the nodes that submitted, and every owner in it is
known with its node. -/
structure Capped (owner : Address → Address) (score : Address → ℕ) (n : ℕ) (S : Finset Address)
    (c : Committee) (candidates : Address → Address) : Prop where
  nodup : c.topNodes.Nodup
  selected : Selected owner (rank score) n S c.topNodes.toFinset
  scores : ∀ node ∈ c.topNodes, c.scoreOf node = score node
  nonzero : ∀ node ∈ c.topNodes, node ≠ 0
  known : ∀ o node, node ≠ 0 → (candidates o = node ↔ node ∈ c.topNodes ∧ owner node = o)
  size : c.threshold.2 = n

section

variable {own : Address → Address} {score : Address → ℕ} {n : ℕ} {S : Finset Address}
  {c : Committee} {cands : Address → Address} {x : Address}

variable {node dis : Address} {inserted : Bool} {top' : List Address}

lemma Capped.rank_eq (h : Capped own score n S c cands) (hnode : node ∈ c.topNodes) :
    rank c.scoreOf node = rank score node := by
  rw [rank, rank, h.scores node hnode]

/-- What became of the committee: nothing, or the node took an empty place, or that of the node it
displaced. -/
def Outcome (x : Address) (top : List Address) (inserted : Bool) (displaced : Address)
    (top' : List Address) : Prop :=
  inserted = false ∧ top' = top ∨
    inserted = true ∧ displaced = 0 ∧ top'.toFinset = insert x top.toFinset ∨
    inserted = true ∧ displaced ∈ top ∧ top'.toFinset = insert x (top.toFinset.erase displaced)

/-- Only a committee without places turns a node down with an error. -/
lemma Capped.selectCandidate (h : Capped own score n S c cands) (hx : x ∉ S) :
    (n = 0 ∧ ∃ e, selectCandidate x (score x) (cands (own x)) true c = .error e) ∨
    ∃ inserted dis top',
      selectCandidate x (score x) (cands (own x)) true c = .ok (inserted, dis, c.setTop top') ∧
      top'.Nodup ∧ Selected own (rank score) n (insert x S) top'.toFinset ∧
      Outcome x c.topNodes inserted dis top' := by
  have hxtop : x ∉ c.topNodes := by
    intro hmem
    exact hx (h.selected.subset (mem_toFinset.2 hmem))
  unfold Registry.selectCandidate
  by_cases hsame : cands (own x) ≠ 0
  · -- The owner is in the committee already.
    rw [if_pos hsame]
    obtain ⟨hmem, howner⟩ := (h.known (own x) _ hsame).1 rfl
    generalize cands (own x) = current at hsame hmem howner ⊢
    rw [h.scores current hmem]
    refine .inr ?_
    split_ifs with hbef
    · refine ⟨_, _, c.topNodes, rfl, h.nodup, ?_, .inl ⟨rfl, rfl⟩⟩
      refine h.selected.keep (.inl ⟨_, mem_toFinset.2 hmem, howner, not_lt.1 fun hlt => ?_⟩)
      rw [ranksBefore_iff.2 hlt] at hbef
      cases hbef
    · obtain ⟨i, hi⟩ : ∃ i, c.topNodes.findIdx? (· = current) = some i := by
        rw [← Option.isSome_iff_exists, findIdx?_isSome, any_eq_true]
        exact ⟨current, hmem, by simp⟩
      have hget : c.topNodes[i]? = some current := by
        rw [findIdx?_eq_some_iff_getElem] at hi
        obtain ⟨hlt, heq, -⟩ := hi
        rw [getElem?_eq_getElem hlt, of_decide_eq_true heq]
      obtain ⟨hnodup, hset⟩ := toFinset_set h.nodup hget hxtop
      rw [hi]
      refine ⟨_, _, _, rfl, hnodup, ?_, .inr (.inr ⟨rfl, hmem, hset⟩)⟩
      rw [hset]
      refine h.selected.replace (rank_injective score) (mem_toFinset.2 hmem) ?_ (.inl howner)
      rw [← ranksBefore_iff]
      simpa using hbef
  · rw [if_neg hsame]
    rw [not_not] at hsame
    have hnew : ∀ t ∈ c.topNodes.toFinset, own t ≠ own x := by
      intro t ht howner
      rw [mem_toFinset] at ht
      have hknown := (h.known (own x) t (h.nonzero t ht)).2 ⟨ht, howner⟩
      exact h.nonzero t ht (hknown.symm.trans hsame)
    have hcard : c.topNodes.toFinset.card = c.topNodes.length :=
      toFinset_card_of_nodup h.nodup
    by_cases hroom : c.topNodes.length < c.threshold.2
    · rw [if_pos hroom]
      have hadd : (c.topNodes ++ [x]).toFinset = insert x c.topNodes.toFinset := by
        simp
      refine .inr ⟨_, _, _, rfl, ?_, ?_, .inr (.inl ⟨rfl, rfl, hadd⟩)⟩
      · exact nodup_append.2 ⟨h.nodup, by simp, by
          rintro a ha b hb rfl
          exact hxtop (mem_singleton.1 hb ▸ ha)⟩
      · rw [hadd]
        refine h.selected.add ?_ hnew
        rw [hcard, ← h.size]
        exact hroom
    · -- The committee is full, and the node has to beat the worst one.
      have hfull : c.topNodes.toFinset.card = n := by
        have hle := h.selected.card_le
        have hsize := h.size
        omega
      rw [if_neg hroom]
      obtain ⟨hempty, e, he⟩ | ⟨i, w, hi, hget, hworst⟩ := worstIndex_cases c
      · refine .inl ⟨by simpa [hempty] using hfull.symm, e, ?_⟩
        rw [he]
        rfl
      have hw : w ∈ c.topNodes := mem_of_getElem? hget
      have hlast : ∀ t ∈ c.topNodes.toFinset, rank score t ≤ rank score w := by
        intro t ht
        rw [mem_toFinset] at ht
        rw [← h.rank_eq ht, ← h.rank_eq hw]
        exact hworst t ht
      simp only [hi, ok_bind, hget, if_true, h.scores w hw]
      refine .inr ?_
      split_ifs with hbef
      · refine ⟨_, _, c.topNodes, rfl, h.nodup, ?_, .inl ⟨rfl, rfl⟩⟩
        refine h.selected.keep (.inr ⟨hfull, fun t ht => (hlast t ht).trans_lt ?_⟩)
        refine lt_of_le_of_ne (not_lt.1 fun hlt => ?_) fun heq => ?_
        · rw [ranksBefore_iff.2 hlt] at hbef
          cases hbef
        · exact hxtop (rank_injective score heq ▸ hw)
      · obtain ⟨hnodup, hset⟩ := toFinset_set h.nodup hget hxtop
        refine ⟨_, _, _, rfl, hnodup, ?_, .inr (.inr ⟨rfl, hw, hset⟩)⟩
        rw [hset]
        refine h.selected.replace (rank_injective score) (mem_toFinset.2 hw) ?_
          (.inr ⟨hfull, hlast, hnew⟩)
        rw [← ranksBefore_iff]
        simpa using hbef

/-- The candidates of the owners follow the committee. -/
lemma Capped.known_of_outcome (h : Capped own score n S c cands) (hinsd : inserted = true)
    (hselec : Selected own (rank score) n (insert x S) top'.toFinset)
    (hout : Outcome x c.topNodes inserted dis top') (o node : Address) (hnode : node ≠ 0) :
    update (if dis ≠ 0 then update cands (own dis) 0 else cands)
        (own x) x o = node ↔ node ∈ top' ∧ own node = o := by
  have hxmem : x ∈ top'.toFinset := by
    rcases hout with ⟨hfalse, -⟩ | ⟨-, -, heq⟩ | ⟨-, -, heq⟩
    · rw [hfalse] at hinsd
      cases hinsd
    · exact heq ▸ Finset.mem_insert_self x _
    · exact heq ▸ Finset.mem_insert_self x _
  by_cases ho : o = own x
  · subst ho
    rw [update_self]
    constructor
    · rintro rfl
      exact ⟨mem_toFinset.1 hxmem, rfl⟩
    · rintro ⟨hmem, howner⟩
      exact hselec.single x hxmem node (mem_toFinset.2 hmem) howner.symm
  · rw [update_of_ne ho]
    rcases hout with ⟨hfalse, -⟩ | ⟨-, rfl, heq⟩ | ⟨-, hd, heq⟩
    · rw [hfalse] at hinsd
      cases hinsd
    · rw [if_neg (not_not.2 rfl), h.known o node hnode, ← mem_toFinset (l := top'), heq,
        Finset.mem_insert, mem_toFinset]
      grind
    · rw [if_pos (h.nonzero dis hd), ← mem_toFinset (l := top'), heq,
        Finset.mem_insert, Finset.mem_erase, mem_toFinset]
      have hsing : node ∈ c.topNodes → own node = own dis → node = dis := by
        intro hmem howner
        exact h.selected.single node (mem_toFinset.2 hmem) dis (mem_toFinset.2 hd) howner
      by_cases hod : o = own dis
      · subst hod
        rw [update_self]
        grind
      · rw [update_of_ne hod, h.known o node hnode]
        grind

lemma Capped.displaced_mem (h : Capped own score n S c cands)
    (hout : Outcome x c.topNodes inserted dis top') (hins : inserted = true) (hd : dis ≠ 0) :
    dis ∈ insert x S := by
  rcases hout with ⟨hfalse, -⟩ | ⟨-, hzero, -⟩ | ⟨-, hmem, -⟩
  · exact absurd (hfalse.symm.trans hins) Bool.false_ne_true
  · exact absurd hzero hd
  · exact Finset.mem_insert_of_mem (h.selected.subset (mem_toFinset.2 hmem))

lemma Outcome.mem (hout : Outcome x top inserted dis top') (hmem : node ∈ top') :
    node = x ∧ inserted = true ∨ node ∈ top := by
  rw [← mem_toFinset] at hmem
  rcases hout with ⟨-, heq⟩ | ⟨htrue, -, heq⟩ | ⟨htrue, -, heq⟩ <;> rw [heq] at hmem <;>
    simp only [Finset.mem_insert, Finset.mem_erase, mem_toFinset] at hmem <;> tauto

end

section

variable {view : BondingView β} {own : Address → Address} {score : Address → ℕ} {n : ℕ}
  {S : Finset Address} {σ σ' : Sortition β} {x : Address}

/-- The bonding registry answers with these owners at the snapshot of the committee. -/
def Snapshot (view : BondingView β) (owner : Address → Address) (block : ℕ) (S : Finset Address) :
    Prop :=
  ∀ b, ∀ node ∈ S, view.bondOwnerAt b node block = .ok (owner node)

lemma Capped.insertCandidate (h : Capped own score n S σ.committee σ.ownerCandidates)
    (howner : Snapshot view own (σ.committee.requestBlock - 1) (insert x S)) (hx : x ∉ S)
    (hx0 : x ≠ 0) (hrun : insertCandidate view true x (score x) σ = .ok σ') :
    Capped own score n (insert x S) σ'.committee σ'.ownerCandidates ∧
      σ'.committee.requestBlock = σ.committee.requestBlock := by
  unfold Registry.insertCandidate at hrun
  simp only [if_true, run_ok, Prod.exists, Prod.mk.injEq] at hrun
  obtain ⟨o, same, ⟨-, ⟨hblock, rfl⟩, o', ho, ⟨⟩, hne, rfl, rfl⟩, inserted, dis, c', hsel,
    hrun⟩ := hrun
  rw [howner _ x (Finset.mem_insert_self x S), Except.ok.injEq] at ho
  subst ho
  obtain ⟨-, e, he⟩ | ⟨_, _, top', hsel', hnodup, hselec, hout⟩ := h.selectCandidate hx
  · cases he.symm.trans hsel
  cases hsel'.symm.trans hsel
  cases inserted with
  | false =>
    simp only [if_true, pure_ok] at hrun
    obtain rfl := hrun
    have htop : top' = σ.committee.topNodes := by
      rcases hout with ⟨-, heq⟩ | ⟨hfalse, -⟩ | ⟨hfalse, -⟩
      · exact heq
      · cases hfalse
      · cases hfalse
    subst htop
    exact ⟨⟨hnodup, hselec, h.scores, h.nonzero, h.known, h.size⟩, rfl⟩
  | true =>
    simp only [Bool.true_eq_false, if_false, run_ok] at hrun
    obtain ⟨cands, ⟨cleared, hcleared, rfl⟩, b, -, b', -, rfl⟩ := hrun
    have hclear : cleared = if dis ≠ 0 then update σ.ownerCandidates (own dis) 0
        else σ.ownerCandidates := by
      by_cases hd : dis ≠ 0
      · have hmem := h.displaced_mem hout rfl hd
        rw [if_pos hd] at hcleared ⊢
        simp only [run_ok] at hcleared
        obtain ⟨-, ⟨-, rfl⟩, o, ho, rfl⟩ := hcleared
        have hread := howner σ.bonding dis hmem
        have heq : o = own dis := Except.ok.inj (ho.symm.trans hread)
        rw [heq]
      · rw [if_neg hd] at hcleared ⊢
        exact (pure_ok.1 hcleared).symm
    subst hclear
    refine ⟨⟨hnodup, hselec, ?_, ?_, ?_, h.size⟩, rfl⟩
    · intro node hmem
      change update σ.committee.scoreOf x (score x) node = score node
      by_cases hnode : node = x
      · rw [hnode, update_self]
      · rw [update_of_ne hnode]
        rcases hout.mem hmem with ⟨heq, -⟩ | hold
        · exact absurd heq hnode
        · exact h.scores node hold
    · intro node hmem
      rcases hout.mem hmem with ⟨rfl, -⟩ | hold
      · exact hx0
      · exact h.nonzero node hold
    · exact h.known_of_outcome rfl hselec hout

variable {nodes : List Address} {c : Committee} {cands : Address → Address}

/-- The nodes of further tickets: each comes once, with its owner at the snapshot. -/
structure Waiting (view : BondingView β) (owner : Address → Address) (block : ℕ)
    (S : Finset Address) (nodes : List Address) : Prop where
  snapshot : Snapshot view owner block (S ∪ nodes.toFinset)
  nodup : nodes.Nodup
  fresh : ∀ node ∈ nodes, node ∉ S
  nonzero : 0 ∉ nodes

lemma Waiting.next (h : Waiting view own block S (x :: nodes)) :
    Snapshot view own block (insert x S) ∧ x ∉ S ∧ x ≠ 0 ∧
      Waiting view own block (insert x S) nodes := by
  obtain ⟨hsnap, hnodup, hfresh, hnonz⟩ := h
  rw [toFinset_cons, Finset.union_insert, ← Finset.insert_union] at hsnap
  rw [nodup_cons] at hnodup
  refine ⟨fun b node hmem => hsnap b node (Finset.mem_union_left _ hmem),
    hfresh x (mem_cons_self ..), fun hzero => hnonz (by simp [hzero]), hsnap, hnodup.2,
    fun node hmem hin => ?_, fun hmem => hnonz (mem_cons_of_mem _ hmem)⟩
  rcases Finset.mem_insert.1 hin with rfl | hold
  · exact hnodup.1 hmem
  · exact hfresh node (mem_cons_of_mem _ hmem) hold

lemma Capped.insertAll (h : Capped own score n S σ.committee σ.ownerCandidates)
    (hwait : Waiting view own (σ.committee.requestBlock - 1) S nodes)
    (hrun : insertAll view true score nodes σ = .ok σ') :
    Capped own score n (S ∪ nodes.toFinset) σ'.committee σ'.ownerCandidates := by
  induction nodes generalizing S σ with
  | nil =>
    obtain rfl := pure_ok.1 hrun
    simpa using h
  | cons x nodes ih =>
    obtain ⟨σ₁, hfirst, hrest⟩ := bind_ok.1 hrun
    obtain ⟨hread, hx, hzero, hnext⟩ := hwait.next
    obtain ⟨hstep, hblock⟩ := h.insertCandidate hread hx hzero hfirst
    rw [toFinset_cons, Finset.union_insert, ← Finset.insert_union]
    exact ih hstep (hblock ▸ hnext) hrest

/-- The bonding registry always books an obligation. -/
def Books (view : BondingView β) : Prop :=
  ∀ node active b, ∃ b', view.setCommitteeObligation node active b = .ok b'

lemma Capped.insertCandidate_returns (h : Capped own score n S σ.committee σ.ownerCandidates)
    (hsize : 0 < n) (howner : Snapshot view own (σ.committee.requestBlock - 1) (insert x S))
    (hx : x ∉ S) (hblock : 0 < σ.committee.requestBlock) (hnonz : own x ≠ 0)
    (hbooks : Books view) : ∃ σ', Registry.insertCandidate view true x (score x) σ = .ok σ' := by
  have hread := howner σ.bonding x (Finset.mem_insert_self x S)
  obtain ⟨hzero, -⟩ | ⟨inserted, dis, top', hsel, -, -, hout⟩ := h.selectCandidate hx
  · exact absurd hzero hsize.ne'
  have hsub : checkedSub σ.committee.requestBlock 1 = (.ok (σ.committee.requestBlock - 1) : Tx ℕ) :=
    checkedSub_ok.2 ⟨hblock, rfl⟩
  have hrequire : require (own x ≠ 0) ContractError.nodeNotEligible = .ok () :=
    require_ok.2 hnonz
  unfold Registry.insertCandidate
  simp only [if_true, hsub, ok_bind, hread, hrequire, pure_bind, hsel]
  split_ifs with hins hd
  · exact ⟨_, rfl⟩
  · have hmem := h.displaced_mem hout (Bool.not_eq_false _ ▸ hins) hd
    have hdisp := howner σ.bonding dis hmem
    obtain ⟨b, hb⟩ := hbooks x true σ.bonding
    obtain ⟨b', hb'⟩ := hbooks dis false b
    simp only [Committee.setTop, hsub, hdisp, hb, hb', ok_bind, pure_bind]
    exact ⟨_, rfl⟩
  · obtain ⟨b, hb⟩ := hbooks x true σ.bonding
    simp only [hb, ok_bind, pure_bind]
    exact ⟨_, rfl⟩

lemma Capped.insertAll_returns (h : Capped own score n S σ.committee σ.ownerCandidates)
    (hsize : 0 < n) (hwait : Waiting view own (σ.committee.requestBlock - 1) S nodes)
    (hblock : 0 < σ.committee.requestBlock) (howns : ∀ node ∈ nodes, own node ≠ 0)
    (hbooks : Books view) : ∃ σ', Registry.insertAll view true score nodes σ = .ok σ' := by
  induction nodes generalizing S σ with
  | nil => exact ⟨σ, rfl⟩
  | cons x nodes ih =>
    obtain ⟨hread, hx, hzero, hnext⟩ := hwait.next
    obtain ⟨σ₁, hrun⟩ := h.insertCandidate_returns hsize hread hx hblock
      (howns x (mem_cons_self ..)) hbooks
    obtain ⟨hstep, hkeep⟩ := h.insertCandidate hread hx hzero hrun
    simp only [Registry.insertAll, hrun, ok_bind]
    exact ih hstep (hkeep ▸ hnext) (hkeep ▸ hblock) fun node hmem =>
      howns node (mem_cons_of_mem _ hmem)

lemma Capped.empty (hempty : σ.committee.topNodes = []) (hcands : σ.ownerCandidates = fun _ => 0) :
    Capped own score σ.committee.threshold.2 ∅ σ.committee σ.ownerCandidates where
  nodup := hempty ▸ nodup_nil
  selected := by
    rw [hempty]
    exact Selected.empty
  scores := by simp [hempty]
  nonzero := by simp [hempty]
  known := by
    intro o node hnode
    simp [hempty, hcands, Ne.symm hnode]
  size := rfl

lemma Capped.candidates_eq (h : Capped own score n S c cands)
    (h' : Capped own score n S c' cands') : cands = cands' := by
  have htop : c.topNodes.toFinset = c'.topNodes.toFinset :=
    (h.selected.eq_best (rank_injective score)).trans
      (h'.selected.eq_best (rank_injective score)).symm
  have hmem : ∀ node, node ∈ c.topNodes ↔ node ∈ c'.topNodes := by
    intro node
    rw [← mem_toFinset, htop, mem_toFinset]
  funext o
  by_cases hzero : cands o = 0
  · by_contra hne
    have hne' : cands' o ≠ 0 := fun hzero' => hne (hzero.trans hzero'.symm)
    obtain ⟨htop', howner⟩ := (h'.known o _ hne').1 rfl
    exact hne ((h.known o _ hne').2 ⟨(hmem _).2 htop', howner⟩)
  · obtain ⟨htop', howner⟩ := (h.known o _ hzero).1 rfl
    exact ((h'.known o _ hzero).2 ⟨(hmem _).1 htop', howner⟩).symm

/-- Every owner is mapped to its node in the committee, and to zero if it has none. -/
lemma Capped.known_cases (h : Capped own score n S c cands) (o : Address) :
    (∃! node, node ∈ c.topNodes ∧ own node = o ∧ cands o = node) ∨
      (∀ node ∈ c.topNodes, own node ≠ o) ∧ cands o = 0 := by
  by_cases hzero : cands o = 0
  · refine .inr ⟨?_, hzero⟩
    intro node hmem howner
    have hknown := (h.known o node (h.nonzero node hmem)).2 ⟨hmem, howner⟩
    exact h.nonzero node hmem (hknown.symm.trans hzero)
  · obtain ⟨hmem, howner⟩ := (h.known o _ hzero).1 rfl
    refine .inl ⟨cands o, ⟨hmem, howner, rfl⟩, ?_⟩
    rintro node ⟨-, -, heq⟩
    exact heq.symm

/-- With the owner cap the committee does not depend on the order of the tickets. It is the first
`N` of the best nodes of every owner, every owner is mapped to its node in the committee, and the
sorted committee is that set in ascending order. Senders are never the zero address, and a node
whose owner is zero is turned down. -/
theorem owner_cap_order_independent (view : BondingView β) (owner : Address → Address)
    (score : Address → ℕ) (nodes : List Address) (σ : Sortition β) (hnodup : nodes.Nodup)
    (hnonzero : 0 ∉ nodes)
    (howner : Snapshot view owner (σ.committee.requestBlock - 1) nodes.toFinset)
    (hempty : σ.committee.topNodes = []) (hcandidates : σ.ownerCandidates = fun _ => 0) :
    (∀ order σ', order.Perm nodes → insertAll view true score order σ = .ok σ' →
      let top := σ'.committee.topNodes
      let N := σ.committee.threshold.2
      top.Nodup ∧ top.toFinset = best owner (rank score) N nodes.toFinset ∧
      top.length = min N (nodes.toFinset.image owner).card ∧
      (∀ o, (∃! node, node ∈ top ∧ owner node = o ∧ σ'.ownerCandidates o = node) ∨
        (∀ node ∈ top, owner node ≠ o) ∧ σ'.ownerCandidates o = 0) ∧
      (sortTopNodes σ'.committee).topNodes =
        (best owner (rank score) N nodes.toFinset).sort (· ≤ ·) ∧
      (sortTopNodes σ'.committee).topNodes.Pairwise (· < ·)) ∧
    (∀ order order' σ₁ σ₂, order.Perm nodes → order'.Perm nodes →
      insertAll view true score order σ = .ok σ₁ → insertAll view true score order' σ = .ok σ₂ →
      (sortTopNodes σ₁.committee).topNodes = (sortTopNodes σ₂.committee).topNodes ∧
      σ₁.ownerCandidates = σ₂.ownerCandidates) ∧
    (0 < σ.committee.threshold.2 → 0 < σ.committee.requestBlock →
      (∀ node ∈ nodes, owner node ≠ 0) → Books view →
      ∀ order, order.Perm nodes → ∃ σ', insertAll view true score order σ = .ok σ') := by
  have hstart : Capped owner score σ.committee.threshold.2 ∅ σ.committee σ.ownerCandidates :=
    .empty hempty hcandidates
  have hsame : ∀ order : List Address, order.Perm nodes → ∅ ∪ order.toFinset = nodes.toFinset := by
    intro order hperm
    rw [Finset.empty_union]
    exact toFinset_eq_of_perm _ _ hperm
  have hwaiting : ∀ order : List Address, order.Perm nodes →
      Waiting view owner (σ.committee.requestBlock - 1) ∅ order := fun order hperm =>
    ⟨(hsame order hperm).symm ▸ howner, hperm.nodup_iff.2 hnodup, by simp,
      fun hmem => hnonzero (hperm.mem_iff.1 hmem)⟩
  have hcapped : ∀ order σ', order.Perm nodes → insertAll view true score order σ = .ok σ' →
      Capped owner score σ.committee.threshold.2 nodes.toFinset σ'.committee
        σ'.ownerCandidates := by
    intro order σ' hperm hrun
    rw [← hsame order hperm]
    exact hstart.insertAll (hwaiting order hperm) hrun
  have hsorted : ∀ order σ', order.Perm nodes → insertAll view true score order σ = .ok σ' →
      (sortTopNodes σ'.committee).topNodes =
        (best owner (rank score) σ.committee.threshold.2 nodes.toFinset).sort (· ≤ ·) := by
    intro order σ' hperm hrun
    have h := hcapped order σ' hperm hrun
    have hset : (ExchangeSort.sort σ'.committee.topNodes).toFinset =
        best owner (rank score) σ.committee.threshold.2 nodes.toFinset := by
      rw [← h.selected.eq_best (rank_injective score)]
      exact toFinset_eq_of_perm _ _ (ExchangeSort.sort_perm _)
    rw [← hset]
    have hnodup' := (ExchangeSort.sort_perm _).nodup_iff.2 h.nodup
    exact ((toFinset_sort (· ≤ ·) hnodup').2 (ExchangeSort.sort_sorted _)).symm
  refine ⟨?_, ?_, ?_⟩
  · intro order σ' hperm hrun
    have h := hcapped order σ' hperm hrun
    refine ⟨h.nodup, h.selected.eq_best (rank_injective score), ?_, h.known_cases,
      hsorted order σ' hperm hrun, ExchangeSort.sort_strict h.nodup⟩
    rw [← h.selected.card_eq, toFinset_card_of_nodup h.nodup]
  · intro order order' σ₁ σ₂ hperm hperm' hrun hrun'
    exact ⟨(hsorted order σ₁ hperm hrun).trans (hsorted order' σ₂ hperm' hrun').symm,
      (hcapped order σ₁ hperm hrun).candidates_eq (hcapped order' σ₂ hperm' hrun')⟩
  · intro hsize hblock howners hbooks order hperm
    exact hstart.insertAll_returns hsize (hwaiting order hperm) hblock
      (fun node hmem => howners node (hperm.mem_iff.1 hmem)) hbooks

end

/-- The nodes 1 and 2 belong to one owner, the node 3 to another one. -/
def sampleView : BondingView Unit where
  bondOwnerAt _ node _ := pure (if node = 3 then 11 else 10)
  setCommitteeObligation _ _ b := pure b

def sampleScore (node : Address) : ℕ := if node = 1 then 7 else 5

def sampleSortition : Sortition Unit where
  committee :=
    { stage := .requested, seed := 0, requestBlock := 1, committeeDeadline := 0, publicKey := 0,
      threshold := (1, 2), topNodes := [], committeeHash := 0, submitted := fun _ => false,
      scoreOf := fun _ => 0, memberStatus := fun _ => .none, activeCount := 0,
      obligationsReleased := false }
  ownerCandidates := fun _ => 0
  bonding := ()

theorem owner_cap_order_independent_sample :
    ∃ σ, insertAll sampleView true sampleScore [3, 1, 2] sampleSortition = .ok σ ∧
      σ.committee.topNodes.toFinset =
        best (fun node => if node = 3 then 11 else 10) (rank sampleScore) 2
          ([1, 2, 3] : List Address).toFinset := by
  obtain ⟨hset, -, hreturns⟩ := owner_cap_order_independent sampleView
    (fun node => if node = 3 then 11 else 10) sampleScore [1, 2, 3] sampleSortition (by decide)
    (by decide) (fun _ _ _ => rfl) rfl rfl
  have hperm : ([3, 1, 2] : List Address).Perm [1, 2, 3] := by decide
  obtain ⟨σ, hrun⟩ := hreturns (by decide) (by decide)
    (fun node _ => by split_ifs <;> decide) (fun _ _ b => ⟨b, rfl⟩) [3, 1, 2] hperm
  exact ⟨σ, hrun, (hset [3, 1, 2] σ hperm hrun).2.1⟩

example : (insertAll sampleView true sampleScore [3, 1, 2] sampleSortition).map
    (fun σ => (sortTopNodes σ.committee).topNodes) = .ok [2, 3] := rfl

end Interfold.Registry
