import Mathlib.Tactic.Linarith
import Mathlib.Data.List.Sort

/-!
# Aggregator failover

The lowest party that is neither expelled nor presumed unresponsive aggregates. A party that makes
no progress by the deadline of its round is skipped for the rest of the phase.
-/

namespace Interfold.Failover

open List

/-- `AggregationPhase`. -/
inductive AggregatorPhase
  | publicKey | plaintext | dkgRoster
deriving DecidableEq

/-- The addresses of the members, by party ID. -/
abbrev Committee := List String

def activeAggregatorPartyId (committee : Committee) (skipped : List ℕ) : Option ℕ :=
  (range committee.length).find? fun party => party ∉ skipped

def aggregatorStandbys (committee : Committee) (skipped : List ℕ) (limit : ℕ) : List (ℕ × String) :=
  (((range committee.length).filter fun party => party ∉ skipped).take limit).filterMap
    fun party => committee[party]?.map fun addr => (party, addr)

structure AggregatorFailoverRound where
  phase : AggregatorPhase
  activePartyId : Option ℕ
  deadlineUnixSecs : ℕ
  exhausted : Bool
deriving DecidableEq

/-- The entries of one E3, of which no function reads or writes another one's. -/
structure AggregatorFailoverState where
  round : Option AggregatorFailoverRound
  unresponsive : Option (List ℕ)
deriving DecidableEq

/-- `saturating_add` of 64-bit seconds. -/
def saturatingAdd (a b : ℕ) : ℕ := min (a + b) (2 ^ 64 - 1)

/-- A `Duration`, in nanoseconds. -/
abbrev Duration := ℕ

def Duration.asSecs (duration : Duration) : ℕ := duration / 10 ^ 9

structure FailoverPolicy where
  otherTimeout : Duration
  publicKeyTimeout : Duration

def FailoverPolicy.timeout (policy : FailoverPolicy) : AggregatorPhase → Duration
  | .publicKey => policy.publicKeyTimeout
  | _ => policy.otherTimeout

/-- When a budget that starts now ends. -/
def FailoverPolicy.deadline (policy : FailoverPolicy) (phase : AggregatorPhase) (now : ℕ) : ℕ :=
  saturatingAdd now (policy.timeout phase).asSecs

inductive FailoverDecision
  | hold
  | promote (demote promoteTo : ℕ) (newAddr : String)
  | exhausted (active : ℕ)
deriving DecidableEq

structure ExpectedFailoverDeadline where
  phase : AggregatorPhase
  unixSecs : ℕ

/-- `push` and `sort_unstable`, unless the party is there. -/
def pushSorted (parties : List ℕ) (party : ℕ) : List ℕ :=
  if party ∈ parties then parties else (parties ++ [party]).insertionSort (· ≤ ·)

def reconcilePhase (state : AggregatorFailoverState) (phase : Option AggregatorPhase) (now : ℕ)
    (policy : FailoverPolicy) : AggregatorFailoverState :=
  match phase with
  | none => ⟨none, none⟩
  | some phase =>
    if state.round.any (·.phase = phase) then state
    else ⟨some ⟨phase, none, policy.deadline phase now, false⟩, none⟩

def reconcileActiveParty (state : AggregatorFailoverState) (activePartyId : Option ℕ) (now : ℕ)
    (policy : FailoverPolicy) : AggregatorFailoverState :=
  match state.round with
  | none => state
  | some round =>
    if round.activePartyId = activePartyId then state
    else { state with round := some { round with
      activePartyId, exhausted := false
      deadlineUnixSecs := policy.deadline round.phase now } }

def applyDueTimeout (state : AggregatorFailoverState) (expected : ExpectedFailoverDeadline)
    (now : ℕ) (policy : FailoverPolicy) (committee : Committee) (expelled : List ℕ) :
    FailoverDecision × AggregatorFailoverState :=
  match state.round with
  | none => (.hold, state)
  | some round =>
    if round.phase ≠ expected.phase ∨ round.deadlineUnixSecs ≠ expected.unixSecs ∨
        round.exhausted = true ∨ now < round.deadlineUnixSecs then (.hold, state)
    else
      let unresponsive := state.unresponsive.getD []
      let skipped := expelled ++ unresponsive
      match activeAggregatorPartyId committee skipped with
      | none => (.hold, state)
      | some active =>
        if round.activePartyId ≠ some active then (.hold, state)
        else match (aggregatorStandbys committee skipped committee.length).find?
            fun standby => active < standby.1 with
          | none =>
            (.exhausted active, { state with round := some { round with exhausted := true } })
          | some (promoteTo, newAddr) => (.promote active promoteTo newAddr,
            { round := some { round with
                activePartyId := some promoteTo
                deadlineUnixSecs := policy.deadline round.phase now }
              unresponsive := some (pushSorted unresponsive active) })

/-! ## Runs within a phase -/

/-- The failover state of an E3 with its expelled members. -/
structure Selector extends AggregatorFailoverState where
  expelled : List ℕ
deriving DecidableEq

namespace Selector

def skipped (s : Selector) : List ℕ := s.expelled ++ s.unresponsive.getD []

/-- The recorded active party. -/
def active (s : Selector) : Option ℕ := s.round.bind (·.activePartyId)

end Selector

inductive Action
  | phase (phase : Option AggregatorPhase)
  | reconcile
  | expel (party : ℕ)
  | timeout (expected : ExpectedFailoverDeadline)

variable (committee : Committee) (policy : FailoverPolicy)

/-- `reconcile_failover_assignment`. -/
def reconcileAssignment (s : Selector) (now : ℕ) : Selector :=
  { s with
    toAggregatorFailoverState := reconcileActiveParty s.toAggregatorFailoverState
      (activeAggregatorPartyId committee s.skipped) now policy }

def exec (s : Selector) (now : ℕ) : Action → FailoverDecision × Selector
  | .phase phase => (.hold, { s with
      toAggregatorFailoverState := reconcilePhase s.toAggregatorFailoverState phase now policy })
  | .reconcile => (.hold, reconcileAssignment committee policy s now)
  | .expel party => (.hold, reconcileAssignment committee policy
      { s with expelled := pushSorted s.expelled party } now)
  | .timeout expected =>
    let (decision, state) := applyDueTimeout s.toAggregatorFailoverState expected now policy
      committee s.expelled
    (decision, { s with toAggregatorFailoverState := state })

/-- The state after an action, its time and what was decided. -/
structure Entry where
  time : ℕ
  decision : FailoverDecision
  state : Selector

/-- What happens within a phase, the latest first, with a condition on who is expelled when. -/
inductive InPhase (allowed : Selector → ℕ → Prop) (phase : AggregatorPhase) : List Entry → Prop
  | start (s : Selector) (now : ℕ) (hnew : ∀ round, s.round = some round → round.phase ≠ phase) :
      InPhase allowed phase [⟨now, .hold, (exec committee policy s now (.phase (some phase))).2⟩]
  | step (now : ℕ) (action : Action) (h : InPhase allowed phase (e :: history))
      (hle : e.time ≤ now) (hphase : ∀ p, action = .phase p → p = some phase)
      (halw : ∀ party, action = .expel party → allowed e.state party)
      (hexec : exec committee policy e.state now action = (decision, s)) :
      InPhase allowed phase (⟨now, decision, s⟩ :: e :: history)

/-! ## Who is active -/

lemma activeParty_eq_some (committee : Committee) (skipped : List ℕ) (a : ℕ) :
    activeAggregatorPartyId committee skipped = some a ↔
      a < committee.length ∧ a ∉ skipped ∧ ∀ q < a, q ∈ skipped := by
  simp [activeAggregatorPartyId, find?_range_eq_some]
  tauto

lemma activeParty_eq_none (committee : Committee) (skipped : List ℕ) :
    activeAggregatorPartyId committee skipped = none ↔ ∀ q < committee.length, q ∈ skipped := by
  simp [activeAggregatorPartyId]

lemma find?_aggregatorStandbys (committee : Committee) (skipped : List ℕ) (a p : ℕ)
    (addr : String) (h : (aggregatorStandbys committee skipped committee.length).find?
      (fun standby => a < standby.1) = some (p, addr)) :
    a < p ∧ p ∉ skipped ∧ committee[p]? = some addr ∧ ∀ q, a < q → q < p → q ∈ skipped := by
  rw [aggregatorStandbys, take_of_length_le (by grind [length_filter_le]), find?_filterMap,
    find?_filter, Option.bind_eq_some_iff] at h
  obtain ⟨q, hq, hp⟩ := h
  rw [find?_range_eq_some] at hq
  grind

lemma mem_pushSorted : q ∈ pushSorted parties party ↔ q ∈ parties ∨ q = party := by
  grind [pushSorted, mem_insertionSort]

/-! ## One action -/

/-- The round is one of the phase, and of the party that the skipped ones leave first. -/
def Selector.Good (phase : AggregatorPhase) (s : Selector) : Prop :=
  ∃ round, s.round = some round ∧ round.phase = phase ∧
    ∀ a, round.activePartyId = some a → activeAggregatorPartyId committee s.skipped = some a

def Selector.deadline (s : Selector) : Option ℕ := s.round.map (·.deadlineUnixSecs)

def FailoverDecision.demoted : FailoverDecision → Option ℕ
  | .promote demote _ _ => some demote
  | _ => none

/-- The next of the committee after a party that is not skipped. -/
def Next (skipped : List ℕ) (a p : ℕ) : Prop :=
  a < p ∧ p < committee.length ∧ p ∉ skipped ∧ ∀ q, a < q → q < p → q ∈ skipped

/-- What an action does within the phase. -/
structure Effect (phase : AggregatorPhase) (now : ℕ) (action : Action) (s : Selector)
    (decision : FailoverDecision) (s' : Selector) : Prop where
  good : s'.Good committee phase
  expelled : ∀ q, q ∈ s'.expelled ↔ q ∈ s.expelled ∨ action = .expel q
  budget : s'.active = s.active ∧ s'.deadline = s.deadline ∨
    s'.deadline = some (policy.deadline phase now)
  skipped : ∀ q, q ∈ s'.skipped ↔ q ∈ s.skipped ∨ action = .expel q ∨ decision.demoted = some q
  promote : ∀ a p addr, decision = .promote a p addr →
    s.active = some a ∧ (∃ t ≤ now, s.deadline = some t) ∧ Next committee s.skipped a p ∧
      committee[p]? = some addr ∧ s'.active = some p

variable {committee policy}

lemma reconcileAssignment_effect (h : s.round = some r) (hp : r.phase = phase)
    (hs : s = { s₀ with expelled := s.expelled })
    (he : ∀ q, q ∈ s.expelled ↔ q ∈ s₀.expelled ∨ action = .expel q) :
    Effect committee policy phase now action s₀ .hold
      (reconcileAssignment committee policy s now) := by
  constructor <;> grind [reconcileAssignment, reconcileActiveParty, Selector.Good, Selector.skipped,
      Selector.active, Selector.deadline, FailoverDecision.demoted]

lemma Effect.keep (h : s.Good committee phase) (hround : s.round = some r)
    (hround' : s'.round = some { r with exhausted }) (hd : decision.demoted = none)
    (hu : s'.unresponsive = s.unresponsive) (he : s'.expelled = s.expelled)
    (ha : ∀ q, action ≠ .expel q) : Effect committee policy phase now action s decision s' := by
  constructor <;> grind [Selector.Good, Selector.skipped, Selector.active, Selector.deadline,
      FailoverDecision.demoted]

lemma timeout_effect (h : s.Good committee phase) (expected : ExpectedFailoverDeadline) :
    Effect committee policy phase now (.timeout expected) s
      (exec committee policy s now (.timeout expected)).1
      (exec committee policy s now (.timeout expected)).2 := by
  simp only [exec]
  fun_cases applyDueTimeout s.toAggregatorFailoverState expected now policy committee
    s.expelled with
  | case1 hround => grind [Selector.Good]
  | case2 round hround hearly => exact .keep h hround hround rfl rfl rfl nofun
  | case3 round hround hdue unresponsive skipped hnone =>
    exact .keep h hround hround rfl rfl rfl nofun
  | case4 round hround hdue unresponsive skipped active hact hother =>
    exact .keep h hround hround rfl rfl rfl nofun
  | case5 round hround hdue unresponsive skipped active hact hsame hlast =>
    exact .keep h hround rfl rfl rfl rfl nofun
  | case6 round hround hdue unresponsive skipped active hact hsame p addr hnext =>
    obtain ⟨hlt, hskip, haddr, hbet⟩ := find?_aggregatorStandbys _ _ _ _ _ hnext
    rw [activeParty_eq_some] at hact
    constructor
    case good =>
      refine ⟨_, rfl, by grind [Selector.Good], fun q hq => ?_⟩
      rw [activeParty_eq_some]
      grind [Selector.skipped, mem_pushSorted]
    case skipped => grind [Selector.skipped, mem_pushSorted, FailoverDecision.demoted]
    all_goals grind [Selector.skipped, Selector.active, Selector.deadline, Selector.Good, Next]

lemma exec_effect (h : s.Good committee phase) (hphase : ∀ p, action = .phase p → p = some phase)
    (hexec : exec committee policy s now action = (decision, s')) :
    Effect committee policy phase now action s decision s' := by
  obtain ⟨round, hround, hp, hact⟩ := id h
  cases action with
  | phase p =>
    have hsame : reconcilePhase s.toAggregatorFailoverState p now policy = s.1 := by
      grind [reconcilePhase]
    cases hexec
    exact .keep h hround (by rw [hsame, hround]) rfl (by rw [hsame]) rfl nofun
  | reconcile =>
    cases hexec
    exact reconcileAssignment_effect hround hp rfl (by simp)
  | expel party =>
    cases hexec
    exact reconcileAssignment_effect hround hp rfl (by simp [mem_pushSorted, eq_comm])
  | timeout expected =>
    have heff : Effect committee policy phase now (.timeout expected) s _ _ :=
      timeout_effect h expected
    rwa [hexec] at heff

lemma Selector.Good.active {s : Selector} (h : s.Good committee phase) (ha : s.active = some a) :
    a < committee.length ∧ a ∉ s.skipped ∧ ∀ q < a, q ∈ s.skipped := by
  rw [← activeParty_eq_some]
  grind [Selector.Good, Selector.active]

lemma Effect.grows (h : Effect committee policy phase now action s decision s') :
    s.skipped ⊆ s'.skipped :=
  fun q hq => (h.skipped q).2 (.inl hq)

/-! ## The whole phase -/

lemma reconcilePhase_fresh (hnew : ∀ round, state.round = some round → round.phase ≠ phase) :
    reconcilePhase state (some phase) now policy =
      ⟨some ⟨phase, none, policy.deadline phase now, false⟩, none⟩ := by
  cases hround : state.round <;> grind [reconcilePhase]

def promotions (history : List Entry) : ℕ := history.countP (·.decision.demoted.isSome)

section

variable {history : List Entry} {phase : AggregatorPhase} {allowed : Selector → ℕ → Prop}
  (h : InPhase committee policy allowed phase history)
include h

lemma InPhase.good : ∀ e ∈ history, e.state.Good committee phase := by
  induction h with
  | start s now hnew => grind [Selector.Good, exec, reconcilePhase_fresh hnew]
  | step now action h hle hphase halw hexec ih =>
    grind [(exec_effect (ih _ mem_cons_self) hphase hexec).good]

lemma InPhase.effect (hphase : ∀ p, action = .phase p → p = some phase)
    (hhist : history = e' :: rest)
    (hexec : exec committee policy e'.state now action = (decision, s)) :
    Effect committee policy phase now action e'.state decision s :=
  exec_effect (h.good _ (hhist ▸ mem_cons_self)) hphase hexec

lemma InPhase.grows : history.Pairwise fun e e' => e'.state.skipped ⊆ e.state.skipped := by
  induction h with
  | start s now hnew => simp
  | step now action h hle hphase halw hexec ih => grind [(h.effect hphase rfl hexec).grows]

lemma InPhase.suffix (hsuf : e :: rest <:+ history) :
    InPhase committee policy allowed phase (e :: rest) := by
  induction h with
  | start s now hnew => grind [InPhase.start, suffix_cons_iff]
  | step now action h hle hphase halw hexec ih => grind [InPhase.step, suffix_cons_iff]

/-- The recorded active party has been that since its budget began. -/
lemma InPhase.since (hhist : history = e :: rest) (ha : e.state.active = some a) :
    ∃ recent since earlier, history = recent ++ since :: earlier ∧
      (∀ x ∈ since :: recent, x.state.active = some a) ∧
      e.state.deadline = some (policy.deadline phase since.time) := by
  induction h generalizing e rest with
  | start s now hnew => grind [exec, reconcilePhase_fresh hnew, Selector.active]
  | step now action h hle hphase halw hexec ih =>
    cases hhist
    obtain ⟨hact, hdead⟩ | hdead := (h.effect hphase rfl hexec).budget
    · obtain ⟨recent, since, earlier, heq, hall, hsince⟩ := ih rfl (hact ▸ ha)
      exact ⟨_ :: recent, since, earlier, by rw [heq]; rfl, by grind, hdead.trans hsince⟩
    · exact ⟨[], _, _, rfl, by grind, hdead⟩

/-- Each promotion moves past a party for good. -/
lemma InPhase.promotions_le (hhist : history = e :: rest) :
    promotions history ≤ committee.length - 1 ∧ ∀ q ∉ e.state.skipped, promotions history ≤ q := by
  induction h generalizing e rest with
  | start s now hnew => simp [promotions, FailoverDecision.demoted]
  | @step e history decision s now action h hle hphase halw hexec ih =>
    cases hhist
    replace ih := ih rfl
    have heff := h.effect hphase rfl hexec
    rw [promotions, countP_cons, ← promotions]
    simp only [heff.skipped, not_or]
    cases decision with
    | promote a p addr =>
      obtain ⟨ha, -, ⟨hlt, hp, -⟩, -⟩ := heff.promote a p addr rfl
      obtain ⟨-, hskip, hbelow⟩ := (h.good _ mem_cons_self).active ha
      have hle := ih.2 a hskip
      grind [FailoverDecision.demoted]
    | _ => grind [FailoverDecision.demoted]

end

variable (committee) in
/-- An expulsion strikes the last party that is not skipped only if the others are expelled. -/
def Spares (s : Selector) (party : ℕ) : Prop :=
  (∃ q < committee.length, q ∉ s.expelled ∧ q ≠ party) →
    ∃ q < committee.length, q ∉ s.skipped ∧ q ≠ party

lemma InPhase.exists_not_skipped (h : InPhase committee policy (Spares committee) phase history)
    (hhist : history = e :: rest) (hleft : ∃ q < committee.length, q ∉ e.state.expelled) :
    ∃ q < committee.length, q ∉ e.state.skipped := by
  induction h generalizing e rest with
  | start s now hnew => grind [exec, reconcilePhase_fresh hnew, Selector.skipped]
  | @step e history decision s now action h hle hphase halw hexec ih =>
    cases hhist
    replace ih := ih rfl
    have heff := h.effect hphase rfl hexec
    cases decision with
    | promote a p addr =>
      obtain ⟨ha, hskip, -⟩ := heff.good.active (heff.promote a p addr rfl).2.2.2.2
      exact ⟨p, ha, hskip⟩
    | _ =>
      obtain ⟨q, hq, hleft⟩ := hleft
      simp only [heff.skipped, heff.expelled, not_or] at hleft ⊢
      cases action with
      | expel party => grind [halw party rfl ⟨q, hq, by grind⟩, FailoverDecision.demoted]
      | _ => grind [ih ⟨q, hq, hleft.1⟩, FailoverDecision.demoted]

/-- Failover is fair within a phase: the active party only moves up; a timeout demotes a party that
has been active for the whole seconds of its budget, in favour of the next one that is not skipped;
there are fewer promotions than members; and a stale or early timeout changes nothing. -/
theorem failover_fair (committee : Committee) (policy : FailoverPolicy) (phase : AggregatorPhase)
    (history : List Entry) (h : InPhase committee policy (fun _ _ => True) phase history) :
    (history.Pairwise fun e e' => ∀ a b, e'.state.active = some a → e.state.active = some b →
        a ≤ b) ∧
      (∀ e e' rest, e :: e' :: rest <:+ history → ∀ a p addr, e.decision = .promote a p addr →
        (∃ recent since earlier, e' :: rest = recent ++ since :: earlier ∧
          (∀ x ∈ since :: recent, x.state.active = some a) ∧
          (since.time + (policy.timeout phase).asSecs ≤ e.time ∨ 2 ^ 64 - 1 ≤ e.time)) ∧
        e.state.active = some p ∧ Next committee e'.state.skipped a p ∧ committee[p]? = some addr) ∧
      promotions history ≤ committee.length - 1 ∧
      ∀ e ∈ history, ∀ round, e.state.round = some round → ∀ (expected : ExpectedFailoverDeadline)
        now, (expected.phase ≠ round.phase ∨ expected.unixSecs ≠ round.deadlineUnixSecs ∨
          now < round.deadlineUnixSecs) →
        exec committee policy e.state now (.timeout expected) = (.hold, e.state) := by
  refine ⟨?_, fun e e' rest hsuf a p addr hdec => ?_, ?_, ?_⟩
  · refine h.grows.imp_of_mem fun he he' hgrows a b ha hb => ?_
    grind [(h.good _ he).active hb, (h.good _ he').active ha]
  · cases h.suffix hsuf with
    | step now action h hle hphase halw hexec =>
      obtain ⟨ha, ⟨t, ht, hdead⟩, hnext, haddr, hp⟩ :=
        (h.effect hphase rfl hexec).promote a p addr hdec
      obtain ⟨recent, since, earlier, heq, hall, hsince⟩ := h.since rfl ha
      refine ⟨⟨recent, since, earlier, heq, hall, ?_⟩, hp, hnext, haddr⟩
      grind [FailoverPolicy.deadline, saturatingAdd]
  · cases h with
    | start s now hnew => simp [promotions, FailoverDecision.demoted]
    | step now action h hle hphase halw hexec =>
      exact ((h.step now action hle hphase halw hexec).promotions_le rfl).1
  · intro e he round hround expected now hstale
    simp only [exec]
    fun_cases applyDueTimeout <;> grind

/-- With a budget of a second and a half, a party is demoted after one second. -/
theorem failover_budget_truncated :
    let committee : Committee := ["0xa", "0xb"]
    let policy : FailoverPolicy := ⟨1500000000, 1500000000⟩
    let s₁ := (exec committee policy ⟨⟨none, none⟩, []⟩ 100 (.phase (some .plaintext))).2
    let s₂ := (exec committee policy s₁ 100 .reconcile).2
    let (decision, _) := exec committee policy s₂ 101 (.timeout ⟨.plaintext, 101⟩)
    s₁.active = none ∧ s₂.active = some 0 ∧ decision = .promote 0 1 "0xb" ∧
      101 * 10 ^ 9 < 100 * 10 ^ 9 + policy.timeout .plaintext := by
  decide +kernel

/-- The first of two members times out. -/
lemma exists_promotion (allowed : Selector → ℕ → Prop) : ∃ e history,
    InPhase ["0xa", "0xb"] ⟨2000000000, 2000000000⟩ allowed .plaintext (e :: history) ∧
      promotions (e :: history) = 1 ∧ e.state.unresponsive = some [0] ∧ e.state.expelled = [] := by
  have h₁ : InPhase ["0xa", "0xb"] ⟨2000000000, 2000000000⟩ allowed .plaintext _ :=
    .start ⟨⟨none, none⟩, []⟩ 100 nofun
  have h₂ := h₁.step 100 .reconcile (Nat.le_refl 100) nofun nofun rfl
  have h₃ := h₂.step 102 (.timeout ⟨.plaintext, 102⟩) (Nat.le_add_right 100 2) nofun nofun rfl
  exact ⟨_, _, h₃, by decide +kernel⟩

theorem failover_fair_sample : ∃ history, promotions history = 1 ∧ promotions history ≤ 1 := by
  obtain ⟨e, history, h, hone, -⟩ := exists_promotion fun _ _ => True
  exact ⟨_, hone, (failover_fair _ _ _ _ h).2.2.1⟩

/-- The aggregator is never lost within a phase whose expulsions spare the last eligible party. -/
theorem aggregator_retained (committee : Committee) (policy : FailoverPolicy)
    (phase : AggregatorPhase) (e : Entry) (history : List Entry)
    (h : InPhase committee policy (Spares committee) phase (e :: history))
    (hleft : ∃ q < committee.length, q ∉ e.state.expelled) :
    ∃ a, activeAggregatorPartyId committee e.state.skipped = some a ∧ a < committee.length ∧
      a ∉ e.state.expelled := by
  obtain ⟨q, hq, hskip⟩ := h.exists_not_skipped rfl hleft
  cases hact : activeAggregatorPartyId committee e.state.skipped with
  | none => grind [activeParty_eq_none]
  | some a => grind [activeParty_eq_some, Selector.skipped]

/-- The first of two members times out and the second is expelled: nobody is active, though the
first one is not expelled. -/
theorem aggregator_lost :
    let committee : Committee := ["0xa", "0xb"]
    let policy : FailoverPolicy := ⟨2000000000, 2000000000⟩
    let s₁ := (exec committee policy ⟨⟨none, none⟩, []⟩ 100 (.phase (some .plaintext))).2
    let s₂ := (exec committee policy s₁ 100 .reconcile).2
    let s₃ := (exec committee policy s₂ 102 (.timeout ⟨.plaintext, 102⟩)).2
    let s₄ := (exec committee policy s₃ 103 (.expel 1)).2
    s₄.expelled = [1] ∧ activeAggregatorPartyId committee s₄.skipped = none ∧ s₄.active = none := by
  decide +kernel

theorem aggregator_retained_sample : ∃ s : Selector, s.unresponsive = some [0] ∧
    ∃ a, activeAggregatorPartyId ["0xa", "0xb"] s.skipped = some a ∧ a < 2 ∧ a ∉ s.expelled := by
  obtain ⟨e, history, h, -, hzero, hnone⟩ := exists_promotion (Spares ["0xa", "0xb"])
  exact ⟨_, hzero, aggregator_retained _ _ _ _ _ h ⟨1, by decide, by simp [hnone]⟩⟩

end Interfold.Failover
