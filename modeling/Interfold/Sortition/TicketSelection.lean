import Interfold.Contracts.Registry.Selection
import Interfold.Library.Collections

/-!
# The shortlist of a node

Before the submissions start every node computes who may come into the committee. It takes the best
ticket of every operator, keeps the operators of the best `size` owners, and visits the best
operator of every owner before the other ones. The committee on chain is then the one that all
operators together would have got.
-/

namespace Interfold.TicketSelection

open Registry GroupSelection List

structure Ticket where
  ticketId : ℕ

structure RegisteredNode where
  address : Address
  tickets : List Ticket

structure WinnerTicket where
  address : Address
  ticketId : ℕ
  score : ℕ
deriving DecidableEq

inductive SelectionError where
  | noTickets
  | noWinningTicket
  | missingBondOwner
deriving DecidableEq

def SelectionError.message : SelectionError → String
  | noTickets => "no tickets in the registered node"
  | noWinningTicket => "no winning ticket found"
  | missingBondOwner => "missing request-time bond owner"

/-- Whether a ticket replaces the best one so far. -/
def WinnerTicket.beats (w cur : WinnerTicket) : Bool :=
  w.score < cur.score || (w.score = cur.score && w.ticketId < cur.ticketId)

section

-- `hash_to_score` for the E3 and the seed at hand.
variable (score : Address → ℕ → ℕ)

/-- The loop of `calculate_best_ticket_for_node`. -/
def bestLoop (address : Address) : List Ticket → Option WinnerTicket → Option WinnerTicket
  | [], best => best
  | ticket :: tickets, best =>
    let w : WinnerTicket := ⟨address, ticket.ticketId, score address ticket.ticketId⟩
    bestLoop address tickets (match best with
      | none => some w
      | some cur => if w.beats cur then some w else some cur)

def calculateBestTicketForNode (node : RegisteredNode) : Except SelectionError WinnerTicket :=
  if node.tickets.isEmpty then .error .noTickets
  else match bestLoop score node.address node.tickets none with
    | some best => .ok best
    | none => .error .noWinningTicket

/-- The entry of `best_map` for the address of a winner. -/
def enter (w : WinnerTicket) : List WinnerTicket → List WinnerTicket
  | [] => [w]
  | cur :: entries =>
    if cur.address = w.address then (if w.beats cur then w else cur) :: entries
    else cur :: enter w entries

/-- The loop of `get_committee`. -/
def bestMap : List RegisteredNode → List WinnerTicket → Except SelectionError (List WinnerTicket)
  | [], entries => .ok entries
  | node :: nodes, entries =>
    if node.tickets.isEmpty then bestMap nodes entries
    else match calculateBestTicketForNode score node with
      | .error e => .error e
      | .ok w => bestMap nodes (enter w entries)

variable (lib : Collections) (size : ℕ)

def getCommittee (nodes : List RegisteredNode) : Except SelectionError (List WinnerTicket) :=
  if nodes.isEmpty || size = 0 then .ok []
  else match bestMap score nodes [] with
    | .error e => .error e
    | .ok entries =>
      let items := lib.sortByKey (fun w => toLex (w.score, toLex (w.ticketId, w.address)))
        (lib.iterate entries)
      .ok (items.take (min size items.length))

/-- The map of the owners seen so far, with the rank of the owner and the number of its operators
that were kept. -/
structure Groups where
  entries : Address → Option (ℕ × ℕ)
  len : ℕ

def Groups.empty : Groups := ⟨fun _ => none, 0⟩

/-- `entry(owner).or_insert(..)`, with the value that the loop leaves there. -/
def Groups.put (groups : Groups) (owner : Address) (value : ℕ × ℕ) : Groups where
  entries := Function.update groups.entries owner (some value)
  len := match groups.entries owner with
    | some _ => groups.len
    | none => groups.len + 1

/-- The loop of `get_owner_candidates`. -/
def ownerLoop (owners : Address → Option Address) :
    List WinnerTicket → Groups → List ((ℕ × ℕ) × WinnerTicket) →
      Except SelectionError (List ((ℕ × ℕ) × WinnerTicket))
  | [], _, candidates => .ok candidates
  | winner :: winners, groups, candidates =>
    match owners winner.address with
    | none => .error .missingBondOwner
    | some owner =>
      let (ownerRank, memberRank) := (groups.entries owner).getD (groups.len, 0)
      if ownerRank < size then
        ownerLoop owners winners (groups.put owner (ownerRank, memberRank + 1))
          (candidates ++ [((memberRank, ownerRank), winner)])
      else ownerLoop owners winners (groups.put owner (ownerRank, memberRank)) candidates

def getOwnerCandidates (nodes : List RegisteredNode) (owners : Address → Option Address) :
    Except SelectionError (List WinnerTicket) :=
  match getCommittee score lib nodes.length nodes with
  | .error e => .error e
  | .ok winners =>
    let winners := lib.sortByKey (fun w => toLex (w.score, w.address)) winners
    match ownerLoop size owners winners .empty [] with
    | .error e => .error e
    | .ok candidates => .ok ((lib.sortByKey (fun c => toLex c.1) candidates).map Prod.snd)

end

/-! ## Best tickets -/

/-- The tickets of an operator. -/
def ticketsOf (nodes : List RegisteredNode) (a : Address) : List ℕ :=
  nodes.flatMap fun node => if node.address = a then node.tickets.map Ticket.ticketId else []

/-- The operators that have tickets. -/
def eligible (nodes : List RegisteredNode) : Finset Address :=
  ((nodes.filter fun node => !node.tickets.isEmpty).map RegisteredNode.address).toFinset

variable {score : Address → ℕ → ℕ} {nodes : List RegisteredNode}

/-- The operator's ticket with the lowest score, and of those the one with the lowest number. -/
structure BestTicket (score : Address → ℕ → ℕ) (tickets : List ℕ) (w : WinnerTicket) : Prop where
  mem : w.ticketId ∈ tickets
  score_eq : w.score = score w.address w.ticketId
  le : ∀ id ∈ tickets, toLex (w.score, w.ticketId) ≤ toLex (score w.address id, id)

lemma beats_iff {w cur : WinnerTicket} :
    w.beats cur = true ↔ toLex (w.score, w.ticketId) < toLex (cur.score, cur.ticketId) := by
  simp [WinnerTicket.beats, Prod.Lex.toLex_lt_toLex]

lemma BestTicket.single {a : Address} {id : ℕ} : BestTicket score [id] ⟨a, id, score a id⟩ where
  mem := mem_singleton_self id
  score_eq := rfl
  le i hi := by rw [mem_singleton.1 hi]

/-- The better of the best tickets of two lists is the best of both. -/
lemma BestTicket.append (hcur : BestTicket score ids cur) (hw : BestTicket score ids' w)
    (haddr : cur.address = w.address) :
    BestTicket score (ids ++ ids') (if w.beats cur then w else cur) ∧
      (if w.beats cur then w else cur).address = w.address := by
  by_cases hbeats : w.beats cur = true
  · rw [if_pos hbeats]
    refine ⟨⟨mem_append_right _ hw.mem, hw.score_eq, ?_⟩, rfl⟩
    intro id hid
    rcases mem_append.1 hid with hid | hid
    · exact (beats_iff.1 hbeats).le.trans (haddr ▸ hcur.le id hid)
    · exact hw.le id hid
  · rw [if_neg hbeats]
    refine ⟨⟨mem_append_left _ hcur.mem, hcur.score_eq, ?_⟩, haddr⟩
    intro id hid
    rcases mem_append.1 hid with hid | hid
    · exact hcur.le id hid
    · have hle := not_lt.1 (mt beats_iff.2 hbeats)
      exact hle.trans (haddr ▸ hw.le id hid)

lemma bestLoop_spec (a : Address) (tickets : List Ticket) (ids : List ℕ) (cur : WinnerTicket)
    (hcur : BestTicket score ids cur) (ha : cur.address = a) :
    ∃ w, bestLoop score a tickets (some cur) = some w ∧ w.address = a ∧
      BestTicket score (ids ++ tickets.map Ticket.ticketId) w := by
  induction tickets generalizing ids cur with
  | nil => exact ⟨cur, rfl, ha, by simpa using hcur⟩
  | cons ticket tickets ih =>
    have hnext : BestTicket score [ticket.ticketId]
        ⟨a, ticket.ticketId, score a ticket.ticketId⟩ := .single
    obtain ⟨hbest, haddr⟩ := hcur.append hnext ha
    obtain ⟨w, hrun, hw, hspec⟩ := ih _ _ hbest haddr
    refine ⟨w, ?_, hw, ?_⟩
    · rw [bestLoop, ← hrun, ← apply_ite some]
    · rw [map_cons, append_cons]
      exact hspec

lemma bestTicket_spec (score : Address → ℕ → ℕ) (hne : node.tickets ≠ []) :
    ∃ w, calculateBestTicketForNode score node = .ok w ∧ w.address = node.address ∧
      BestTicket score (node.tickets.map Ticket.ticketId) w := by
  obtain ⟨a, tickets⟩ := node
  cases tickets with
  | nil => exact absurd rfl hne
  | cons ticket tickets =>
    obtain ⟨w, hrun, hw, hspec⟩ := bestLoop_spec a tickets [ticket.ticketId]
      ⟨a, ticket.ticketId, score a ticket.ticketId⟩ .single rfl
    refine ⟨w, ?_, hw, hspec⟩
    simp [calculateBestTicketForNode, bestLoop, hrun]

/-- One winner for every operator that has tickets among these. -/
structure Winners (score : Address → ℕ → ℕ) (tickets : Address → List ℕ)
    (winners : List WinnerTicket) : Prop where
  nodup : (winners.map WinnerTicket.address).Nodup
  mem_iff : ∀ a, a ∈ winners.map WinnerTicket.address ↔ tickets a ≠ []
  best : ∀ w ∈ winners, BestTicket score (tickets w.address) w

section

variable {tickets : Address → List ℕ} {ws entries : List WinnerTicket} {w : WinnerTicket}

lemma Winners.perm (h : Winners score tickets ws) (hperm : entries.Perm ws) :
    Winners score tickets entries where
  nodup := (hperm.map _).nodup_iff.2 h.nodup
  mem_iff a := (hperm.map _).mem_iff.trans (h.mem_iff a)
  best w hw := h.best w (hperm.mem_iff.1 hw)

/-- A winner goes to the end, or meets the entry of its address. -/
lemma enter_cases (w : WinnerTicket) (entries : List WinnerTicket) :
    (w.address ∉ entries.map WinnerTicket.address ∧ enter w entries = entries ++ [w]) ∨
    ∃ before cur after, entries = before ++ cur :: after ∧ cur.address = w.address ∧
      enter w entries = before ++ (if w.beats cur then w else cur) :: after := by
  induction entries with
  | nil => exact .inl ⟨by simp, rfl⟩
  | cons cur entries ih =>
    by_cases hsame : cur.address = w.address
    · exact .inr ⟨[], cur, entries, rfl, hsame, if_pos hsame⟩
    · rw [enter, if_neg hsame]
      rcases ih with ⟨hnew, heq⟩ | ⟨before, c, after, rfl, hc, heq⟩
      · exact .inl ⟨by simpa [Ne.symm hsame] using hnew, by rw [heq, cons_append]⟩
      · exact .inr ⟨cur :: before, c, after, rfl, hc, by rw [heq, cons_append]⟩

/-- A node's best ticket goes into the map. -/
lemma Winners.enter {ids : List ℕ} (h : Winners score tickets entries)
    (hw : BestTicket score ids w) :
    Winners score (fun a => tickets a ++ if w.address = a then ids else []) (enter w entries) := by
  have hids : ids ≠ [] := ne_nil_of_mem hw.mem
  rcases enter_cases w entries with ⟨hnew, heq⟩ | ⟨before, cur, after, rfl, hsame, heq⟩
  · have hnone : tickets w.address = [] := by
      by_contra hne
      exact hnew ((h.mem_iff w.address).2 hne)
    rw [heq]
    refine ⟨?_, ?_, ?_⟩
    · rw [map_append]
      exact h.nodup.append (nodup_singleton _) (by simpa using hnew)
    · intro a
      rw [map_append, mem_append, h.mem_iff]
      by_cases ha : w.address = a
      · simp [ha, hids]
      · simp [ha, Ne.symm ha]
    · intro x hx
      rcases mem_append.1 hx with hx | hx
      · have hne : w.address ≠ x.address := fun heq => hnew (heq ▸ mem_map_of_mem hx)
        simpa [hne] using h.best x hx
      · rw [mem_singleton.1 hx]
        simpa [hnone] using hw
  · have hcur := h.best cur (by simp)
    rw [hsame] at hcur
    obtain ⟨hboth, haddr⟩ := hcur.append hw hsame
    rw [heq]
    generalize (if w.beats cur then w else cur) = new at hboth haddr
    have hmap : (before ++ new :: after).map WinnerTicket.address =
        (before ++ cur :: after).map WinnerTicket.address := by simp [haddr, hsame]
    refine ⟨hmap ▸ h.nodup, ?_, ?_⟩
    · intro a
      rw [hmap, h.mem_iff]
      by_cases ha : w.address = a
      · have hold := (h.mem_iff a).1 (by simp [hsame, ha])
        simp [hold]
      · simp [ha]
    · intro x hx
      have hnodup := h.nodup
      simp only [mem_append, mem_cons] at hx
      by_cases hx' : x = new
      · rw [hx', haddr, if_pos rfl]
        exact hboth
      · have hmem : x ∈ before ∨ x ∈ after := by tauto
        have hne : w.address ≠ x.address := by
          rw [map_append, map_cons, nodup_middle, nodup_cons, ← map_append, hsame] at hnodup
          exact fun heq => hnodup.1 (heq ▸ mem_map_of_mem (mem_append.2 hmem))
        simpa [hne] using h.best x (by grind)

lemma bestMap_spec (h : Winners score tickets entries) :
    ∃ ws, bestMap score nodes entries = .ok ws ∧
      Winners score (fun a => tickets a ++ ticketsOf nodes a) ws := by
  induction nodes generalizing tickets entries with
  | nil =>
    refine ⟨entries, rfl, ?_⟩
    simpa [ticketsOf] using h
  | cons node nodes ih =>
    by_cases hempty : node.tickets = []
    · obtain ⟨ws, hrun, hwins⟩ := ih h
      refine ⟨ws, ?_, ?_⟩
      · simpa [bestMap, hempty] using hrun
      · simpa [ticketsOf, hempty] using hwins
    · obtain ⟨w, hw, haddr, hbest⟩ := bestTicket_spec score hempty
      obtain ⟨ws, hrun, hwins⟩ := ih (h.enter hbest)
      refine ⟨ws, ?_, ?_⟩
      · simpa [bestMap, hempty, hw] using hrun
      · simpa [ticketsOf, haddr] using hwins

lemma ticketsOf_ne_nil_iff : ticketsOf nodes a ≠ [] ↔ a ∈ eligible nodes := by
  simp only [ticketsOf, eligible, ne_eq, flatMap_eq_nil_iff, mem_toFinset, mem_map, mem_filter]
  grind [List.map_eq_nil_iff, List.isEmpty_iff]

lemma Winners.length_le (h : Winners score (ticketsOf nodes) ws) : ws.length ≤ nodes.length := by
  have hsub : ws.map WinnerTicket.address ⊆ nodes.map RegisteredNode.address := by
    intro a ha
    rw [h.mem_iff, ticketsOf_ne_nil_iff, eligible, mem_toFinset] at ha
    exact (filter_sublist.map _).subset ha
  simpa using (h.nodup.subperm hsub).length_le

lemma getCommittee_spec (lib : Collections) (score : Address → ℕ → ℕ)
    (nodes : List RegisteredNode) : ∃ ws, getCommittee score lib nodes.length nodes = .ok ws ∧
      Winners score (ticketsOf nodes) ws := by
  have hnone : Winners score (fun _ => []) [] := by
    constructor <;> simp
  by_cases hempty : nodes = []
  · subst hempty
    exact ⟨[], rfl, hnone⟩
  · obtain ⟨entries, hrun, hwins⟩ := @bestMap_spec score nodes _ _ hnone
    simp only [nil_append] at hwins
    have hperm := (lib.sortByKey_perm (fun w : WinnerTicket =>
      toLex (w.score, toLex (w.ticketId, w.address))) _).trans (lib.iterate_perm entries)
    have hitems := hwins.perm hperm
    have hleng := hitems.length_le
    refine ⟨_, ?_, hitems⟩
    simp only [getCommittee, hrun]
    simp [hempty, hleng]

end

/-! ## Owners -/

section

variable {own : WinnerTicket → Address} {size : ℕ} {passed : List WinnerTicket} {groups : Groups}
  {cands : List ((ℕ × ℕ) × WinnerTicket)}

/-- The first of every owner, up to `size`. -/
abbrev leaders (owner : WinnerTicket → Address) (size : ℕ) (passed : List WinnerTicket) :
    List WinnerTicket :=
  (firsts owner passed).take size

/-- What the loop has built when it has passed these winners. -/
structure Ranked (owner : WinnerTicket → Address) (size : ℕ) (passed : List WinnerTicket)
    (groups : Groups) (candidates : List ((ℕ × ℕ) × WinnerTicket)) : Prop where
  len : groups.len = (firsts owner passed).length
  vacant : ∀ o, groups.entries o = none ↔ o ∉ passed.map owner
  rank : ∀ o r m, groups.entries o = some (r, m) →
    ((firsts owner passed).map owner)[r]? = some o ∧ (r < size → 0 < m)
  older : ∀ c ∈ candidates, ∃ m, groups.entries (owner c.2) = some (c.1.2, m) ∧ c.1.1 < m
  keys : (candidates.map Prod.fst).Nodup
  leading : candidates.filter (fun c => c.1.1 = 0) =
    (leaders owner size passed).mapIdx fun i w => ((0, i), w)
  members : candidates.map Prod.snd =
    passed.filter fun w => owner w ∈ (leaders owner size passed).map owner

lemma Ranked.empty : Ranked own size [] .empty [] := by
  constructor <;> simp [Groups.empty, firsts]

section

-- The rank pair of the next winner's owner.
variable {w : WinnerTicket} {r m : ℕ} (h : Ranked own size passed groups cands)
  (hentry : (groups.entries (own w)).getD (groups.len, 0) = (r, m))

include h hentry

/-- The owner of the next winner is new and gets the next rank, or has its rank already. -/
lemma Ranked.place :
    (own w ∉ passed.map own ∧ firsts own (passed ++ [w]) = firsts own passed ++ [w] ∧
      groups.entries (own w) = none ∧ r = (firsts own passed).length ∧ m = 0) ∨
    (own w ∈ passed.map own ∧ firsts own (passed ++ [w]) = firsts own passed ∧
      groups.entries (own w) = some (r, m)) := by
  have hold : (∃ y ∈ passed, own y = own w) ↔ own w ∈ passed.map own := by simp
  rw [firsts_snoc, if_congr hold rfl rfl]
  cases hcase : groups.entries (own w) with
  | none =>
    have hnew := (h.vacant (own w)).1 hcase
    rw [hcase, Option.getD_none, h.len, Prod.mk.injEq] at hentry
    exact .inl ⟨hnew, if_neg hnew, rfl, hentry.1.symm, hentry.2.symm⟩
  | some value =>
    have hmem : own w ∈ passed.map own := by
      by_contra hnew
      rw [(h.vacant (own w)).2 hnew] at hcase
      cases hcase
    rw [hcase, Option.getD_some] at hentry
    exact .inr ⟨hmem, if_pos hmem, congrArg some hentry⟩

lemma Ranked.getElem?_place : ((firsts own (passed ++ [w])).map own)[r]? = some (own w) := by
  rcases h.place hentry with ⟨-, hfirs, -, rfl, -⟩ | ⟨-, hfirs, hsome⟩
  · rw [hfirs, map_append, getElem?_append_right (by simp)]
    simp
  · rw [hfirs]
    exact (h.rank _ _ _ hsome).1

/-- The map after a winner. -/
lemma Ranked.put (hkept : r < size → 0 < m') :
    (groups.put (own w) (r, m')).len = (firsts own (passed ++ [w])).length ∧
    (∀ o, (groups.put (own w) (r, m')).entries o = none ↔ o ∉ (passed ++ [w]).map own) ∧
    ∀ o r₁ m₁, (groups.put (own w) (r, m')).entries o = some (r₁, m₁) →
      ((firsts own (passed ++ [w])).map own)[r₁]? = some o ∧ (r₁ < size → 0 < m₁) := by
  refine ⟨?_, ?_, ?_⟩
  · rcases h.place hentry with ⟨-, hfirs, hnone, -, -⟩ | ⟨-, hfirs, hsome⟩
    · rw [hfirs, length_append, ← h.len]
      simp [Groups.put, hnone]
    · rw [hfirs, ← h.len]
      simp [Groups.put, hsome]
  · intro o
    by_cases ho : o = own w
    · simp [Groups.put, ho]
    · have hvacant := h.vacant o
      simp_all [Groups.put]
  · intro o r₁ m₁ hsome
    by_cases ho : o = own w
    · subst ho
      simp only [Groups.put, Function.update_self, Option.some.injEq, Prod.mk.injEq] at hsome
      obtain ⟨rfl, rfl⟩ := hsome
      exact ⟨h.getElem?_place hentry, hkept⟩
    · simp only [Groups.put, Function.update_of_ne ho] at hsome
      obtain ⟨hget, hpos⟩ := h.rank o r₁ m₁ hsome
      refine ⟨?_, hpos⟩
      rcases h.place hentry with ⟨-, hfirs, -⟩ | ⟨-, hfirs, -⟩
      · rw [hfirs, map_append]
        exact List.getElem?_append_left (List.getElem?_eq_some_iff.1 hget).1 ▸ hget
      · rw [hfirs]
        exact hget

/-- Whether the owner of a winner is among the first ones is decided by its rank. -/
lemma Ranked.mem_leaders : own w ∈ (leaders own size (passed ++ [w])).map own ↔ r < size := by
  rw [leaders, map_take]
  exact ListEdit.mem_take_iff (map_firsts_nodup own _) (h.getElem?_place hentry)

/-- A winner does not change who of the winners before it is kept. -/
lemma Ranked.members_append :
    (passed ++ [w]).filter (fun u => own u ∈ (leaders own size (passed ++ [w])).map own) =
      cands.map Prod.snd ++ if r < size then [w] else [] := by
  have hlast : [w].filter (fun u => own u ∈ (leaders own size (passed ++ [w])).map own) =
      if r < size then [w] else [] := by
    have hiff := h.mem_leaders hentry
    by_cases hr : r < size
    · rw [if_pos hr, filter_cons_of_pos (by simpa using hiff.2 hr), filter_nil]
    · rw [if_neg hr, filter_cons_of_neg (by simpa using mt hiff.1 hr), filter_nil]
  rw [filter_append, hlast, h.members]
  congr 1
  refine filter_congr fun u hu => decide_eq_decide.2 ?_
  have howner : own u ∈ passed.map own := mem_map_of_mem hu
  rcases h.place hentry with ⟨hnew, hfirs, -⟩ | ⟨-, hfirs, -⟩
  · have hne : own u ≠ own w := fun heq => hnew (heq ▸ howner)
    rw [leaders, hfirs, take_append, map_append, mem_append]
    refine or_iff_left fun hmem => ?_
    obtain ⟨v, hv, heq⟩ := mem_map.1 hmem
    rw [mem_singleton.1 (mem_of_mem_take hv)] at heq
    exact hne heq.symm
  · rw [leaders, leaders, hfirs]

lemma Ranked.older_put (hle : m ≤ m') : ∀ c ∈ cands, ∃ n,
    (groups.put (own w) (r, m')).entries (own c.2) = some (c.1.2, n) ∧ c.1.1 < n := by
  intro c hc
  obtain ⟨n, hsome, hlt⟩ := h.older c hc
  by_cases hsame : own c.2 = own w
  · rw [← hsame, hsome, Option.getD_some, Prod.mk.injEq] at hentry
    obtain ⟨rfl, rfl⟩ := hentry
    exact ⟨m', by simp [Groups.put, hsame], hlt.trans_le hle⟩
  · exact ⟨n, by simpa [Groups.put, hsame] using hsome, hlt⟩

/-- The loop drops a winner whose owner comes too late. -/
lemma Ranked.skip (hr : ¬r < size) :
    Ranked own size (passed ++ [w]) (groups.put (own w) (r, m)) cands := by
  obtain ⟨hlen, hvacant, hrank⟩ := h.put hentry (fun hlt => absurd hlt hr)
  have hmems := h.members_append hentry
  rw [if_neg hr, append_nil] at hmems
  refine ⟨hlen, hvacant, hrank, h.older_put hentry le_rfl, h.keys, ?_, hmems.symm⟩
  rw [h.leading]
  rcases h.place hentry with ⟨-, hfirs, -, rfl, -⟩ | ⟨-, hfirs, -⟩
  · rw [leaders, leaders, hfirs, take_append_of_le_length (not_lt.1 hr)]
  · rw [leaders, leaders, hfirs]

/-- The rank pair of a winner that is kept is new. -/
lemma Ranked.key_notMem : (m, r) ∉ cands.map Prod.fst := by
  intro hmem
  obtain ⟨⟨key, u⟩, hc, rfl⟩ := mem_map.1 hmem
  obtain ⟨n, hsome, hlt⟩ := h.older _ hc
  have hget := (h.rank _ _ _ hsome).1
  rcases h.place hentry with ⟨-, -, -, hr, -⟩ | ⟨-, -, hw⟩
  · rw [hr, getElem?_eq_none (by simp)] at hget
    cases hget
  · have howner : own u = own w :=
      Option.some.inj (hget.symm.trans (h.rank _ _ _ hw).1)
    rw [howner, hw, Option.some.injEq, Prod.mk.injEq] at hsome
    exact hlt.ne hsome.2

/-- The loop keeps a winner of one of the first owners. -/
lemma Ranked.keep (hr : r < size) : Ranked own size (passed ++ [w]) (groups.put (own w) (r, m + 1))
      (cands ++ [((m, r), w)]) := by
  obtain ⟨hlen, hvacant, hrank⟩ := h.put hentry (fun _ => Nat.succ_pos m)
  have hmems := h.members_append hentry
  rw [if_pos hr] at hmems
  refine ⟨hlen, hvacant, hrank, ?_, ?_, ?_, ?_⟩
  · intro c hc
    rcases mem_append.1 hc with hc | hc
    · exact h.older_put hentry (Nat.le_succ m) c hc
    · rw [mem_singleton.1 hc]
      exact ⟨m + 1, by simp [Groups.put], Nat.lt_succ_self m⟩
  · rw [map_append, map_singleton]
    exact h.keys.append (nodup_singleton _) (by simpa using h.key_notMem hentry)
  · rw [filter_append, h.leading]
    rcases h.place hentry with ⟨-, hfirs, -, rfl, rfl⟩ | ⟨-, hfirs, hw⟩
    · -- A new owner: its first winner is a leader, at the next place.
      have hall : leaders own size passed = firsts own passed := take_of_length_le hr.le
      have hnext : leaders own size (passed ++ [w]) = firsts own passed ++ [w] := by
        rw [leaders, hfirs]
        exact take_of_length_le (by rw [length_append]; exact hr)
      rw [hall, hnext, mapIdx_append]
      simp
    · have hpos := (h.rank _ _ _ hw).2 hr
      rw [leaders, leaders, hfirs]
      simp [hpos.ne']
  · rw [map_append, map_singleton, hmems]

end

lemma ownerLoop_spec {own : Address → Address}
    (h : Ranked (fun w => own w.address) size passed groups cands)
    (howns : ∀ w ∈ ws, owners w.address = some (own w.address)) :
    ∃ groups' cands', ownerLoop size owners ws groups cands = .ok cands' ∧
      Ranked (fun w => own w.address) size (passed ++ ws) groups' cands' := by
  induction ws generalizing passed groups cands with
  | nil => exact ⟨groups, cands, rfl, by simpa using h⟩
  | cons w ws ih =>
    have hrest := fun u hu => howns u (mem_cons_of_mem w hu)
    rw [ownerLoop, howns w (mem_cons_self ..), append_cons]
    obtain ⟨r, m, hentry⟩ :
        ∃ r m, (groups.entries (own w.address)).getD (groups.len, 0) = (r, m) := ⟨_, _, rfl⟩
    simp only [hentry]
    by_cases hr : r < size
    · rw [if_pos hr]
      exact ih (h.keep hentry hr) hrest
    · rw [if_neg hr]
      exact ih (h.skip hentry hr) hrest

lemma mapIdx_strict (l : List WinnerTicket) : (l.mapIdx fun i w => ((0, i), w)).Pairwise
      fun x y : (ℕ × ℕ) × WinnerTicket => toLex x.1 < toLex y.1 := by
  rw [pairwise_iff_getElem]
  intro i j hi hj hlt
  simp [Prod.Lex.toLex_lt_toLex, hlt]

/-- Sorted by their rank pairs, the candidates start with the first of every owner. -/
lemma Ranked.sorted (h : Ranked own size passed groups cands) (lib : Collections) :
    ((lib.sortByKey (fun c => toLex c.1) cands).map Prod.snd).take
        (leaders own size passed).length = leaders own size passed := by
  set sorted := lib.sortByKey (fun c => toLex c.1) cands
  have hperm : sorted.Perm cands := lib.sortByKey_perm _ cands
  have hkeys : (cands.map fun c => toLex c.1).Nodup := by
    have hmap := h.keys.map toLex.injective
    rwa [map_map] at hmap
  have hfront : sorted.filter (fun c => c.1.1 = 0) =
      (leaders own size passed).mapIdx fun i w => ((0, i), w) := by
    rw [← h.leading]
    refine Collections.eq_of_perm_of_strict (hperm.filter _)
      ((lib.sortByKey_strict hkeys).sublist filter_sublist) ?_
    rw [h.leading]
    exact mapIdx_strict _
  have hsplit : sorted = sorted.filter (fun c => c.1.1 = 0) ++
      sorted.filter fun c => !(c.1.1 = 0 : Bool) := by
    refine Collections.eq_filter_append _ (lib.sortByKey_sorted _ cands) ?_
    intro x _ y _ hle hy
    rw [Prod.Lex.toLex_le_toLex] at hle
    rw [decide_eq_true_eq] at hy ⊢
    omega
  have hmap : ((leaders own size passed).mapIdx fun i w => ((0, i), w)).map Prod.snd =
      leaders own size passed := by
    apply ext_getElem?
    intro i
    simp [getElem?_mapIdx]
  rw [hsplit, hfront, map_append, hmap]
  exact take_left' rfl

end

/-! ## The committee of the shortlist -/

/-- The score of an operator's best ticket. -/
def bestScore (score : Address → ℕ → ℕ) (nodes : List RegisteredNode) (a : Address) : ℕ :=
  ((ticketsOf nodes a).map (score a)).min?.getD 0

lemma BestTicket.bestScore_eq (h : BestTicket score (ticketsOf nodes w.address) w) :
    bestScore score nodes w.address = w.score := by
  have hmin : ((ticketsOf nodes w.address).map (score w.address)).min? = some w.score := by
    rw [min?_eq_some_iff]
    refine ⟨mem_map.2 ⟨w.ticketId, h.mem, h.score_eq.symm⟩, ?_⟩
    intro s hs
    obtain ⟨id, hid, rfl⟩ := mem_map.1 hs
    exact Prod.Lex.monotone_fst _ _ (h.le id hid)
  rw [bestScore, hmin, Option.getD_some]

section

variable {β : Type} {view : BondingView β}

/-- The submissions of several nodes. One that is turned down changes nothing. -/
def submitAll (view : BondingView β) (score : Address → ℕ) :
    List Address → Sortition β → Sortition β
  | [], σ => σ
  | node :: nodes, σ =>
    match insertCandidate view true node (score node) σ with
    | .error _ => submitAll view score nodes σ
    | .ok σ' => submitAll view score nodes σ'

lemma submitAll_of_ok {score : Address → ℕ} {nodes : List Address}
    (h : insertAll view true score nodes σ = .ok σ') : submitAll view score nodes σ = σ' := by
  induction nodes generalizing σ with
  | nil => exact Transaction.pure_ok.1 h
  | cons node nodes ih =>
    obtain ⟨σ₁, hfirst, hrest⟩ := Transaction.bind_ok.1 h
    rw [submitAll, hfirst]
    exact ih hrest

/-- A committee without places stays empty. -/
lemma submitAll_of_size_zero {score : Address → ℕ} (hsize : σ.committee.threshold.2 = 0)
    (hempty : σ.committee.topNodes = []) (hcands : σ.ownerCandidates = fun _ => 0)
    (nodes : List Address) : submitAll view score nodes σ = σ := by
  have hselect : ∀ node, selectCandidate node (score node) 0 true σ.committee = .error .panic := by
    intro node
    simp [selectCandidate, worstCandidateIndex, hsize, hempty]
    rfl
  induction nodes with
  | nil => rfl
  | cons node nodes ih =>
    rw [submitAll]
    cases hrun : insertCandidate view true node (score node) σ with
    | error _ => exact ih
    | ok σ' =>
      unfold insertCandidate at hrun
      simp only [if_true, Transaction.bind_ok, Transaction.pure_ok, Prod.exists,
        Prod.mk.injEq] at hrun
      obtain ⟨_, _, ⟨_, -, o, -, -, -, -, rfl⟩, _, _, _, hsel, -⟩ := hrun
      rw [hcands, hselect] at hsel
      cases hsel

/-- What the submissions of some operators leave. -/
lemma selected_submitAll {own : Address → Address} {score : Address → ℕ} {σ : Sortition β}
    {S : Finset Address} {order : List Address} (hempty : σ.committee.topNodes = [])
    (hcands : σ.ownerCandidates = fun _ => 0) (hblock : 0 < σ.committee.requestBlock)
    (hbooks : Books view) (hsnap : Snapshot view own (σ.committee.requestBlock - 1) S)
    (hsend : 0 ∉ S) (howns : ∀ a ∈ S, own a ≠ 0) (hnodup : order.Nodup)
    (horder : order.toFinset = S) : Selected own (rank score) σ.committee.threshold.2 S
      (submitAll view score order σ).committee.topNodes.toFinset := by
  subst horder
  rcases Nat.eq_zero_or_pos σ.committee.threshold.2 with hsize | hsize
  · rw [submitAll_of_size_zero hsize hempty hcands, hsize, hempty]
    constructor <;> simp
  · have hstart : Capped own score σ.committee.threshold.2 ∅ σ.committee σ.ownerCandidates :=
      .empty hempty hcands
    have hwait : Waiting view own (σ.committee.requestBlock - 1) ∅ order :=
      ⟨by rwa [Finset.empty_union], hnodup, by simp, fun hmem => hsend (mem_toFinset.2 hmem)⟩
    obtain ⟨σ', hrun⟩ := hstart.insertAll_returns hsize hwait hblock
      (fun a ha => howns a (mem_toFinset.2 ha)) hbooks
    have hcapp := hstart.insertAll hwait hrun
    rw [Finset.empty_union] at hcapp
    rw [submitAll_of_ok hrun]
    exact hcapp.selected

end

/-- The winners in the order of the contract's ranks. -/
lemma Winners.sorted (h : Winners score (ticketsOf nodes) ws) (lib : Collections) :
    ∃ ranked, ranked = lib.sortByKey (fun w : WinnerTicket => toLex (w.score, w.address)) ws ∧
      Winners score (ticketsOf nodes) ranked ∧
      (ranked.map WinnerTicket.address).toFinset = eligible nodes ∧
      (ranked.map WinnerTicket.address).Pairwise fun a b =>
        rank (bestScore score nodes) a < rank (bestScore score nodes) b := by
  have hranked := h.perm (lib.sortByKey_perm (fun w : WinnerTicket => toLex (w.score, w.address)) _)
  refine ⟨_, rfl, hranked, ?_, ?_⟩
  · ext a
    rw [mem_toFinset, hranked.mem_iff, ticketsOf_ne_nil_iff]
  · have hkeys : (ws.map fun w => toLex (w.score, w.address)).Nodup := by
      refine List.Nodup.of_map (fun key => (ofLex key).2) ?_
      rw [map_map]
      exact h.nodup
    rw [pairwise_map]
    refine (lib.sortByKey_strict hkeys).imp_of_mem ?_
    intro a b ha hb hlt
    rw [rank, rank, (hranked.best a ha).bestScore_eq, (hranked.best b hb).bestScore_eq]
    exact hlt

/-- The operators of the best `size` owners are listed, each once, and the best operators of these
owners come first, in the order of the contract. -/
structure Shortlist (owner : Address → Address) (score : Address → ℕ) (size : ℕ)
    (S : Finset Address) (listed : List Address) : Prop where
  nodup : listed.Nodup
  mem_iff : ∀ a, a ∈ listed ↔ a ∈ S ∧ owner a ∈ (best owner (rank score) size S).image owner
  front_eq : (listed.take (min size (S.image owner).card)).toFinset = best owner (rank score) size S
  front_sorted : (listed.take (min size (S.image owner).card)).Pairwise fun a b =>
    rank score a < rank score b
  front_owners : ((listed.take (min size (S.image owner).card)).map owner).Nodup

lemma ownerCandidates_spec (lib : Collections) (score : Address → ℕ → ℕ)
    (nodes : List RegisteredNode) (owners : Address → Option Address) (own : Address → Address)
    (size : ℕ) (howns : ∀ a ∈ eligible nodes, owners a = some (own a)) :
    ∃ ws, getOwnerCandidates score lib size nodes owners = .ok ws ∧
      (∀ w ∈ ws, BestTicket score (ticketsOf nodes w.address) w) ∧
      Shortlist own (bestScore score nodes) size (eligible nodes)
        (ws.map WinnerTicket.address) := by
  obtain ⟨committee, hcomm, hwins⟩ := getCommittee_spec lib score nodes
  obtain ⟨ranked, hranked, hwins, helig, hsort⟩ := hwins.sorted lib
  have hmem : ∀ {w}, w ∈ ranked → w.address ∈ eligible nodes := by
    intro w hw
    rw [← helig, mem_toFinset]
    exact mem_map_of_mem hw
  obtain ⟨groups, cands, hloop, hspec⟩ := ownerLoop_spec
    (Ranked.empty : Ranked (fun w => own w.address) size [] .empty [])
    (fun w hw => howns w.address (hmem hw))
  rw [nil_append] at hspec
  set ws := (lib.sortByKey (fun c => toLex c.1) cands).map Prod.snd
  have hperm : ws.Perm (cands.map Prod.snd) :=
    (lib.sortByKey_perm _ cands).map Prod.snd
  rw [hspec.members] at hperm
  set front := leaders (fun w => own w.address) size ranked
  have hfront : front.map WinnerTicket.address =
      (firsts own (ranked.map WinnerTicket.address)).take size := by
    rw [firsts_map, ← map_take]
    rfl
  have hselec : Selected own (rank (bestScore score nodes)) size (eligible nodes)
      (front.map WinnerTicket.address).toFinset := by
    rw [hfront, ← helig]
    exact selected_take_firsts hsort
  have hbest := hselec.eq_best (rank_injective _)
  have hfirs := map_firsts_nodup own (ranked.map WinnerTicket.address)
  have hnodup : ((front.map WinnerTicket.address).map own).Nodup := by
    rw [hfront]
    exact hfirs.sublist ((take_sublist _ _).map own)
  have hleng : front.length = min size ((eligible nodes).image own).card := by
    rw [← hselec.card_eq, toFinset_card_of_nodup (hnodup.of_map _), length_map]
  have htake : (ws.map WinnerTicket.address).take
      (min size ((eligible nodes).image own).card) = front.map WinnerTicket.address := by
    rw [← hleng, ← map_take, hspec.sorted lib]
  refine ⟨ws, ?_, ?_, ?_, ?_, ?_, ?_, ?_⟩
  · rw [getOwnerCandidates, hcomm]
    simp only [← hranked, hloop]
    rfl
  · intro w hw
    exact hwins.best w (mem_of_mem_filter (hperm.mem_iff.1 hw))
  · exact (hperm.map _).nodup_iff.2 (hwins.nodup.sublist (filter_sublist.map _))
  · intro a
    have howner : ∀ o, o ∈ front.map (fun w => own w.address) ↔
        o ∈ (best own (rank (bestScore score nodes)) size (eligible nodes)).image own := by
      intro o
      rw [← hbest]
      simp
    rw [(hperm.map _).mem_iff, ← howner, ← helig]
    simp only [mem_map, mem_filter, mem_toFinset, decide_eq_true_eq]
    constructor
    · rintro ⟨w, ⟨hw, hkept⟩, rfl⟩
      exact ⟨⟨w, hw, rfl⟩, hkept⟩
    · rintro ⟨⟨w, hw, rfl⟩, hkept⟩
      exact ⟨w, ⟨hw, hkept⟩, rfl⟩
  · rw [htake, hbest]
  · rw [htake, hfront]
    exact hsort.sublist ((take_sublist _ _).trans (firsts_sublist own _))
  · rw [htake]
    exact hnodup

/-- The shortlist of a node holds the operators of the best `size` owners, the best operator of
every owner first, and the committee that these operators make up on chain is the one that all
eligible operators make up, if it has at most `size` places. Senders are never the zero address, and
an operator is eligible only with an owner. -/
theorem owner_shortlist_agrees {β : Type} (lib : Collections) (score : Address → ℕ → ℕ)
    (nodes : List RegisteredNode) (owners : Address → Option Address) (owner : Address → Address)
    (size : ℕ) (howners : ∀ a ∈ eligible nodes, owners a = some (owner a)) :
    ∃ winners, getOwnerCandidates score lib size nodes owners = .ok winners ∧
      (∀ w ∈ winners, BestTicket score (ticketsOf nodes w.address) w) ∧
      Shortlist owner (bestScore score nodes) size (eligible nodes)
        (winners.map WinnerTicket.address) ∧
      ∀ (view : BondingView β) (σ : Sortition β), σ.committee.topNodes = [] →
        (σ.ownerCandidates = fun _ => 0) → 0 < σ.committee.requestBlock → Books view →
        Snapshot view owner (σ.committee.requestBlock - 1) (eligible nodes) →
        0 ∉ eligible nodes → (∀ a ∈ eligible nodes, owner a ≠ 0) →
        σ.committee.threshold.2 ≤ size →
        ∀ order all, order.Perm (winners.map WinnerTicket.address) → all.Nodup →
          all.toFinset = eligible nodes →
          (submitAll view (bestScore score nodes) order σ).committee.topNodes.toFinset =
            (submitAll view (bestScore score nodes) all σ).committee.topNodes.toFinset := by
  obtain ⟨winners, hrun, hbest, hlist⟩ :=
    ownerCandidates_spec lib score nodes owners owner size howners
  refine ⟨winners, hrun, hbest, hlist, ?_⟩
  intro view σ hempty hcandidates hblock hbooks hsnapshot hsenders hnonzero hsize order all hperm
    hnodup hall
  set listed := winners.map WinnerTicket.address
  have hsub : listed.toFinset ⊆ eligible nodes := by
    intro a ha
    exact ((hlist.mem_iff a).1 (mem_toFinset.1 ha)).1
  have hlisted := @selected_submitAll β view owner (bestScore score nodes) σ listed.toFinset order
    hempty hcandidates hblock hbooks (fun b a ha => hsnapshot b a (hsub ha))
    (fun hmem => hsenders (hsub hmem)) (fun a ha => hnonzero a (hsub ha))
    (hperm.nodup_iff.2 hlist.nodup) (toFinset_eq_of_perm _ _ hperm)
  have hfull := @selected_submitAll β view owner (bestScore score nodes) σ (eligible nodes) all
    hempty hcandidates hblock hbooks hsnapshot hsenders hnonzero hnodup hall
  -- All that get a place are of the best owners, so they are listed.
  have hplaced : (submitAll view (bestScore score nodes) all σ).committee.topNodes.toFinset ⊆
      listed.toFinset := by
    intro a ha
    rw [mem_toFinset, hlist.mem_iff]
    refine ⟨hfull.subset ha, Finset.mem_image_of_mem owner (best_mono hsize ?_)⟩
    rwa [hfull.eq_best (rank_injective _)] at ha
  rw [hlisted.eq_best (rank_injective _)]
  exact ((hfull.shrink hplaced hsub).eq_best (rank_injective _)).symm

/-- The operators 1 and 2 belong to one owner, the operator 3 to another one. -/
def sampleNodes : List RegisteredNode := [⟨1, [⟨4⟩, ⟨5⟩]⟩, ⟨2, [⟨6⟩]⟩, ⟨3, [⟨7⟩]⟩]

def sampleOwner (a : Address) : Address := if a = 3 then 11 else 10

def sampleTicketScore (_ : Address) (id : ℕ) : ℕ := 10 - id

theorem owner_shortlist_agrees_sample :
    ∃ winners, getOwnerCandidates sampleTicketScore .stable 2 sampleNodes
        (fun a => some (sampleOwner a)) = .ok winners ∧
      let listed := winners.map WinnerTicket.address
      let score := bestScore sampleTicketScore sampleNodes
      Shortlist sampleOwner score 2 (eligible sampleNodes) listed ∧
      (submitAll sampleView score listed sampleSortition).committee.topNodes.toFinset =
        (submitAll sampleView score [3, 1, 2] sampleSortition).committee.topNodes.toFinset := by
  obtain ⟨winners, hrun, -, hlist, hagree⟩ := @owner_shortlist_agrees Unit .stable sampleTicketScore
    sampleNodes (fun a => some (sampleOwner a)) sampleOwner 2 (fun _ _ => rfl)
  refine ⟨winners, hrun, hlist, ?_⟩
  have howner : ∀ a, sampleOwner a ≠ 0 := by
    intro a
    unfold sampleOwner
    split_ifs <;> decide
  exact hagree sampleView sampleSortition rfl rfl (by decide) (fun _ _ b => ⟨b, rfl⟩)
    (fun _ _ _ => rfl) (by decide) (fun a _ => howner a) (by decide) _ [3, 1, 2] (.refl _)
    (by decide) (by decide)

example : (getOwnerCandidates sampleTicketScore .stable 2 sampleNodes
    (fun a => some (sampleOwner a))).map (fun winners => winners.map WinnerTicket.address) =
    .ok [3, 2, 1] := by
  decide +kernel

end Interfold.TicketSelection
