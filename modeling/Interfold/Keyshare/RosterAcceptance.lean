import Interfold.Keyshare.RosterCoordination

/-!
# Which rosters are accepted

A call first changes what the node knows, then it looks at the pending proposals, then it publishes.
`Prepared`, `Evaluated` and `Kept` say what each of the three parts may do, and every handler is a
chain of them. Looking at the proposals leaves none that could be accepted.
-/

namespace Interfold.Keyshare

open Handler OrderedMap Coordinator Recovery

variable {node : Member} {env : Surroundings} {s s₀ s₁ s₂ : Coordinator} {roster : DkgCoordination}

/-! ### Effects -/

/-- Only C4 may have been started. -/
structure Kept (s s' : Coordinator) : Prop where
  recovery : s'.recovery = s.recovery
  phase : s'.phase = s.phase
  expelled : s'.expelled = s.expelled
  started : (s'.dkgRosterFixed = s.dkgRosterFixed ∧
      s'.shareDecryptionData = s.shareDecryptionData) ∨
    (s'.dkgRosterFixed = true ∧ s.recovery.dkgRoster ≠ none)

lemma Kept.refl (s : Coordinator) : Kept s s := ⟨rfl, rfl, rfl, .inl ⟨rfl, rfl⟩⟩

lemma Kept.trans (h : Kept s s₁) (h' : Kept s₁ s₂) : Kept s s₂ where
  recovery := h'.recovery.trans h.recovery
  phase := h'.phase.trans h.phase
  expelled := h'.expelled.trans h.expelled
  started := by
    have hstart := h.started
    have hstart' := h'.started
    rw [h.recovery] at hstart'
    grind

lemma Kept.fixed (h : Kept s s₁) (hfixed : s.DkgRosterIsFixed) : s₁.DkgRosterIsFixed := by
  have hstart := h.started
  have hphase := h.phase
  unfold DkgRosterIsFixed at hfixed ⊢
  grind

/-- A handler with no other effect. -/
def Quiet {α : Type} (f : Handler Coordinator α) : Prop :=
  ∀ s, Leaves f (Kept s) s

section

variable {α β : Type}

lemma quiet_pure (a : α) : Quiet (Pure.pure a : Handler Coordinator α) :=
  fun s => wp_pure.2 (.refl s)

lemma quiet_fail : Quiet (fail : Handler Coordinator α) := fun s => wp_fail.2 (.refl s)

lemma quiet_get : Quiet (get : Handler Coordinator Coordinator) := fun s => wp_get.2 (.refl s)

lemma quiet_modify {f : Coordinator → Coordinator} (h : ∀ s, Kept s (f s)) : Quiet (modify f) :=
  fun s => wp_modify.2 (h s)

variable {f : Handler Coordinator α}

lemma Quiet.bind (hf : Quiet f) (hg : ∀ a, Quiet (g a)) : Quiet (f >>= g) := by
  intro s
  refine wp_bind.2 ((hf s).mono ?_ fun _ h => h)
  intro a s' hs'
  exact Leaves.weaken (hg a s') fun _ h => hs'.trans h

lemma Quiet.ite {p : Prop} [Decidable p] (hf : Quiet f) (hg : Quiet g) :
    Quiet (if p then f else g) :=
  fun s => wp_ite.2 ⟨fun _ => hf s, fun _ => hg s⟩

lemma quiet_orFail (o : Option α) : Quiet (orFail o : Handler Coordinator α) := by
  cases o with
  | none => exact quiet_fail
  | some a => exact quiet_pure a

lemma quiet_publish (event : Published) : Quiet (publish env event) :=
  .ite (quiet_modify fun _ => ⟨rfl, rfl, rfl, .inl ⟨rfl, rfl⟩⟩) quiet_fail

lemma quiet_publishOr (event : Published) (h : ∀ s, Kept s (undo s)) :
    Quiet (publishOr env event undo) :=
  .ite (quiet_modify fun _ => ⟨rfl, rfl, rfl, .inl ⟨rfl, rfl⟩⟩)
    ((quiet_modify h).bind fun _ => quiet_fail)

lemma quiet_signed (kind : DkgCoordinationKind) (dealers : List DkgDealer) :
    Quiet (signed node kind dealers) :=
  (quiet_orFail _).bind fun _ => quiet_pure _

lemma signed_same (kind : DkgCoordinationKind) (dealers : List DkgDealer) (s : Coordinator) :
    Leaves (signed node kind dealers) (Eq s) s := by
  unfold signed
  simp

lemma quiet_publishRosterInputs : Quiet (maybePublishRosterInputsReady node env) := by
  refine quiet_get.bind fun s => .ite (quiet_pure _) <| .ite (quiet_pure _) <|
    .ite (quiet_pure _) <| (quiet_orFail _).bind fun _ => .ite (quiet_pure _) ?_
  refine (quiet_modify fun _ => ?_).bind fun _ => quiet_publishOr _ fun _ => ?_
  · exact ⟨rfl, rfl, rfl, .inl ⟨rfl, rfl⟩⟩
  · exact ⟨rfl, rfl, rfl, .inl ⟨rfl, rfl⟩⟩

lemma quiet_proposeRoster : Quiet (proposeDkgRoster node env) := by
  refine quiet_get.bind fun s => .ite (quiet_pure _) <| (quiet_orFail _).bind fun committeeH => ?_
  cases proposedDealers node s committeeH with
  | none => exact quiet_pure _
  | some dealers =>
    refine (quiet_signed _ _).bind fun _ => ?_
    refine (quiet_modify fun _ => ?_).bind fun _ => quiet_publishOr _ fun _ => ?_
    · exact ⟨rfl, rfl, rfl, .inl ⟨rfl, rfl⟩⟩
    · exact ⟨rfl, rfl, rfl, .inl ⟨rfl, rfl⟩⟩

lemma quiet_offerRoster : Quiet (offerRoster node env) :=
  quiet_publishRosterInputs.bind fun _ => quiet_proposeRoster

lemma quiet_maybeStartC4 : Quiet (maybeStartC4ForAcceptedRoster env) := by
  intro s
  unfold maybeStartC4ForAcceptedRoster Leaves
  rw [wp_bind, wp_get, wp_ite, wp_pure]
  refine ⟨fun _ => .refl s, fun _ => ?_⟩
  cases hrost : s.recovery.dkgRoster with
  | none => exact quiet_pure _ s
  | some roster =>
    cases s.recovery.dkgReady with
    | none => exact quiet_pure _ s
    | some ownReady =>
      simp only [wp_ite]
      refine ⟨fun _ => ?_, fun _ => quiet_pure _ s⟩
      unfold proceedWithDecryptionKeyCalculation
      rw [wp_bind, wp_get]
      cases env.plan s with
      | unavailable => exact quiet_fail s
      | insufficient => exact quiet_publish _ s
      | proceed honest =>
        simp only [wp]
        have hkept : Kept s { s with
            honestParties := some honest, dkgRosterFixed := true, shareDecryptionData := true } :=
          ⟨rfl, rfl, rfl, .inr ⟨rfl, by simp [hrost]⟩⟩
        exact Leaves.weaken (quiet_publish _ _) fun _ h => hkept.trans h

end

/-! ### Looking at the pending proposals -/

/-- No pending proposal is left that could be accepted. -/
def Settled (s : Coordinator) : Prop :=
  (s.recovery.dkgRoster ≠ none ∧ s.DkgRosterIsFixed) ∨
    ∀ entry ∈ s.recovery.pendingRosters.entries, ¬Acceptable s entry.1 entry.2

inductive Evaluated (s : Coordinator) : Coordinator → Prop
  | settled (h : Settled s) : Evaluated s s
  | accept (roster : DkgCoordination) (hopen : s.recovery.dkgRoster ≠ none → ¬s.DkgRosterIsFixed)
      (hcandidate : candidate s = some roster)
      (hkept : Kept (s.updateRecovery (accept roster)) s') : Evaluated s s'

lemma candidate_eq_some (h : candidate s = some roster) :
    ∃ pr, s.recovery.pendingRosters.get pr = some roster ∧ Acceptable s pr roster ∧
      ∀ entry ∈ s.recovery.pendingRosters.entries, entry.1 < pr →
        ¬Acceptable s entry.1 entry.2 := by
  obtain ⟨entry, hfind, rfl⟩ := Option.map_eq_some_iff.1 h
  obtain ⟨hget, haccb, hleast⟩ := find?_least hfind
  exact ⟨entry.1, hget, by simpa using haccb, by simpa using hleast⟩

lemma acceptDkgRoster_kept (roster : DkgCoordination) (s : Coordinator) :
    Wp (acceptDkgRoster node env roster)
      (fun _ s' => (s' = s ∧ ¬∃ ready ∈ s.recovery.dkgReady, ReadyContainsRoster ready roster) ∨
        Kept (s.updateRecovery (accept roster)) s')
      (Kept (s.updateRecovery (accept roster))) s := by
  unfold acceptDkgRoster
  simp only [wp]
  refine ⟨fun hnot => .inl ⟨trivial, hnot.2⟩, fun _ => ?_⟩
  refine (quiet_publish _ _).mono ?_ fun _ h => ⟨h.recovery, h.phase, h.expelled, h.started⟩
  intro _ s' hs'
  have hkept : Kept (s.updateRecovery (accept roster)) s' :=
    ⟨hs'.recovery, hs'.phase, hs'.expelled, hs'.started⟩
  exact (quiet_maybeStartC4 s').mono (fun _ _ h => .inr (hkept.trans h)) fun _ h => hkept.trans h

lemma maybeAccept_evaluated (s : Coordinator) :
    Leaves (maybeAcceptPendingRoster node env) (Evaluated s) s := by
  unfold maybeAcceptPendingRoster
  simp only [wp]
  refine ⟨fun hact => .settled (.inr ?_), fun _ => ⟨fun h => .settled (.inl h), fun hopen => ?_⟩⟩
  · rintro entry - ⟨⟨active, hmem, -⟩, -⟩
    simp [hact] at hmem
  · cases hcand : candidate s with
    | none =>
      refine wp_pure.2 (.settled (.inr ?_))
      simpa [candidate] using hcand
    | some roster =>
      obtain ⟨_, -, haccb, -⟩ := candidate_eq_some hcand
      have hopen' : s.recovery.dkgRoster ≠ none → ¬s.DkgRosterIsFixed := fun h hf => hopen ⟨h, hf⟩
      refine wp_bind.2 ((acceptDkgRoster_kept roster s).mono (fun _ s' hs' => ?_) fun s' hs' => ?_)
      · have hkept := hs'.resolve_left fun h => h.2 haccb.2.2.2.1
        exact wp_pure.2 (.accept roster hopen' hcand hkept)
      · exact .accept roster hopen' hcand hs'

/-! ### Invariants -/

/-- A proposal that a member of the committee signed. -/
structure Proposed (node : Member) (roster : DkgCoordination) : Prop where
  authentic : ∃ committee ∈ node.committee, Authentic node committee roster
  size : node.committeeH = some roster.dealers.length

/-- The phases before the own report. -/
def Phase.Early (phase : Phase) : Prop :=
  phase.ShareCollectionIsOpen ∧ phase ≠ .aggregatingDecryptionKey

structure Coordinated (node : Member) (s : Coordinator) : Prop where
  pending : ∀ proposer roster, s.recovery.pendingRosters.get proposer = some roster →
    roster.partyId = proposer ∧ Proposed node roster
  accepted : ∀ roster, s.recovery.dkgRoster = some roster → Proposed node roster
  early : s.phase.Early → s.recovery.dkgReady = none ∧ s.recovery.dkgRoster = none
  started : s.shareDecryptionData = true → s.dkgRosterFixed = true
  proofs : s.recovery.decryptionShareProofsPending = true → s.dkgRosterFixed = true

/-- What a roster has to meet when it is accepted. -/
structure Supported (s : Coordinator) (roster : DkgCoordination) : Prop where
  live : RosterMembersAreLive roster s.expelled
  proposer : ∃ active ∈ s.recovery.activeAggregatorPartyId, roster.partyId ≤ active
  reports : s.recovery.RosterIsSupportedByLocalState roster

/-- The accepted roster stays, or a supported one of a lower proposer replaces it before C4. -/
def RosterMoves (s s' : Coordinator) : Prop :=
  s'.recovery.dkgRoster = s.recovery.dkgRoster ∨
  ∃ roster, s'.recovery.dkgRoster = some roster ∧ Supported s' roster ∧
    ∀ old, s.recovery.dkgRoster = some old → ¬s.DkgRosterIsFixed ∧ roster.partyId < old.partyId

/-- What the node knows changed, and neither the accepted roster nor C4. -/
structure Prepared (node : Member) (s s' : Coordinator) : Prop where
  roster : s'.recovery.dkgRoster = s.recovery.dkgRoster
  ready : s'.recovery.dkgReady = s.recovery.dkgReady ∨ s.phase = .aggregatingDecryptionKey
  proofs : s'.recovery.decryptionShareProofsPending = s.recovery.decryptionShareProofsPending
  phase : s'.phase = s.phase
  fixed : s'.dkgRosterFixed = s.dkgRosterFixed
  data : s'.shareDecryptionData = s.shareDecryptionData
  pending : ∀ proposer roster, s'.recovery.pendingRosters.get proposer = some roster →
    s.recovery.pendingRosters.get proposer = some roster ∨
      (roster.partyId = proposer ∧ Proposed node roster)

structure Call (node : Member) (s s' : Coordinator) : Prop where
  coordinated : Coordinated node s'
  moves : RosterMoves s s'
  fixed : s.recovery.dkgRoster ≠ none → s.DkgRosterIsFixed → s'.DkgRosterIsFixed

lemma Call.refl (h : Coordinated node s) : Call node s s := ⟨h, .inl rfl, fun _ => id⟩

lemma Prepared.trans (h : Prepared node s s₁) (h' : Prepared node s₁ s₂) : Prepared node s s₂ where
  roster := h'.roster.trans h.roster
  ready := by
    have hready := h.ready
    have hready' := h'.ready
    rw [h.phase] at hready'
    grind
  proofs := h'.proofs.trans h.proofs
  phase := h'.phase.trans h.phase
  fixed := h'.fixed.trans h.fixed
  data := h'.data.trans h.data
  pending pr roster hget := (h'.pending pr roster hget).elim (h.pending _ _) .inr

/-- A change of the recovery record that keeps the roster, the own report and the proposals. -/
lemma Prepared.inputs {f : Recovery → Recovery}
    (hrost : (f s.recovery).dkgRoster = s.recovery.dkgRoster)
    (hready : (f s.recovery).dkgReady = s.recovery.dkgReady)
    (hproofs : (f s.recovery).decryptionShareProofsPending =
      s.recovery.decryptionShareProofsPending)
    (hpend : ∀ pr roster, (f s.recovery).pendingRosters.get pr = some roster →
      s.recovery.pendingRosters.get pr = some roster ∨
        (roster.partyId = pr ∧ Proposed node roster)) : Prepared node s (s.updateRecovery f) :=
  ⟨hrost, .inl hready, hproofs, rfl, rfl, rfl, hpend⟩

lemma Prepared.call (h : Prepared node s s₁) (hs : Coordinated node s) : Call node s s₁ where
  coordinated := {
    pending := fun pr roster hget =>
      (h.pending pr roster hget).elim (hs.pending _ _) id
    accepted := fun roster hrost => hs.accepted roster (h.roster ▸ hrost)
    early := by
      intro hearly
      rw [h.phase] at hearly
      obtain ⟨hready, hrost⟩ := hs.early hearly
      have hsame := h.ready.resolve_right hearly.2
      exact ⟨hsame.trans hready, h.roster.trans hrost⟩
    started := fun hdata => h.fixed.trans (hs.started (h.data ▸ hdata))
    proofs := fun hproofs => h.fixed.trans (hs.proofs (h.proofs ▸ hproofs)) }
  moves := .inl h.roster
  fixed _ hfixed := by
    unfold DkgRosterIsFixed at hfixed ⊢
    rw [h.fixed, h.data, h.phase]
    exact hfixed

lemma Coordinated.kept (hs : Coordinated node s) (h : Kept s s₁) : Coordinated node s₁ where
  pending := h.recovery ▸ hs.pending
  accepted := h.recovery ▸ hs.accepted
  early := h.recovery ▸ h.phase ▸ hs.early
  started hdata := by
    rcases h.started with ⟨hfixed, hsame⟩ | ⟨hfixed, -⟩
    · exact hfixed.trans (hs.started (hsame ▸ hdata))
    · exact hfixed
  proofs hproofs := by
    rw [h.recovery] at hproofs
    rcases h.started with ⟨hfixed, -⟩ | ⟨hfixed, -⟩
    · exact hfixed.trans (hs.proofs hproofs)
    · exact hfixed

lemma Supported.kept (hs : Supported s roster) (h : Kept s s₁) : Supported s₁ roster := by
  obtain ⟨hlive, hpropr, hreps⟩ := hs
  constructor
  · rwa [h.expelled]
  · rwa [h.recovery]
  · rwa [h.recovery]

lemma Call.kept (hs : Call node s s₁) (h : Kept s₁ s₂) : Call node s s₂ where
  coordinated := hs.coordinated.kept h
  moves := by
    rcases hs.moves with hsame | ⟨roster, hrost, hsupp, hold⟩
    · exact .inl (by rw [h.recovery, hsame])
    · exact .inr ⟨roster, by rw [h.recovery, hrost], hsupp.kept h, hold⟩
  fixed hsome hfixed := h.fixed (hs.fixed hsome hfixed)

lemma Settled.kept (hs : Settled s) (h : Kept s s₁) : Settled s₁ := by
  rcases hs with ⟨hsome, hfixed⟩ | hnone
  · exact .inl ⟨h.recovery ▸ hsome, h.fixed hfixed⟩
  · refine .inr fun entry hentry haccb => ?_
    rw [h.recovery] at hentry
    refine hnone entry hentry ?_
    unfold Acceptable at haccb ⊢
    rwa [h.recovery, h.expelled] at haccb

/-- The best proposal is accepted, and no other one is left that could outrank it. -/
lemma Call.evaluated (hs : Call node s s₁) (h : Evaluated s₁ s₂) : Call node s s₂ ∧ Settled s₂ := by
  cases h with
  | settled hsettled => exact ⟨hs, hsettled⟩
  | accept roster hopen hcand hkept =>
    obtain ⟨pr, hget, ⟨hact, houtr, hlive, hreps⟩, hleast⟩ :=
      candidate_eq_some hcand
    obtain ⟨rfl, hprop⟩ := hs.coordinated.pending pr roster hget
    have hsupp : Supported (s₁.updateRecovery (accept roster)) roster :=
      ⟨hlive, hact, hreps⟩
    have hready : s₁.recovery.dkgReady ≠ none := by
      obtain ⟨⟨ready, hmem, -⟩, -⟩ := hreps
      simp [Option.mem_def.1 hmem]
    have haccd : Call node s (s₁.updateRecovery (accept roster)) := by
      refine ⟨⟨?_, ?_, ?_, hs.coordinated.started, hs.coordinated.proofs⟩, .inr ⟨roster, rfl,
        hsupp, ?_⟩, hs.fixed⟩
      · intro pr other hother
        simp only [updateRecovery, accept, get_retain] at hother
        split_ifs at hother
        exact hs.coordinated.pending pr other hother
      · rintro other ⟨⟩
        exact hprop
      · exact fun hearly => absurd (hs.coordinated.early hearly).1 hready
      · intro old hold
        -- The old roster was still accepted, or this call had already replaced it.
        rcases hs.moves with hsame | ⟨replaced, hrepl, -, hbef⟩
        · have hsome : s₁.recovery.dkgRoster = some old := hsame.trans hold
          refine ⟨fun hfixed => ?_, houtr old hsome⟩
          exact hopen (by simp [hsome]) (hs.fixed (by simp [hold]) hfixed)
        · exact ⟨(hbef old hold).1, (houtr replaced hrepl).trans (hbef old hold).2⟩
    refine ⟨haccd.kept hkept, Settled.kept (.inr ?_) hkept⟩
    rintro entry hentry ⟨hact', houtr', hrest⟩
    have hlower := houtr' roster rfl
    simp only [updateRecovery, accept, retain, List.mem_filter] at hentry
    refine hleast entry hentry.1 hlower ⟨hact', fun accepted haccd => ?_, hrest⟩
    exact hlower.trans (houtr accepted haccd)

/-! ### Handlers -/

lemma maybeAccept_call (hs : Call node s₀ s) :
    Leaves (maybeAcceptPendingRoster node env) (fun s' => Call node s₀ s' ∧ Settled s') s :=
  (maybeAccept_evaluated s).weaken fun _ h => hs.evaluated h

variable {α : Type} {f : Handler Coordinator α} {looked owed : Prop}

lemma Quiet.call (hf : Quiet f) (hs : Call node s₀ s) :
    Leaves f (fun s' => Call node s₀ s' ∧ (Settled s → Settled s')) s :=
  Leaves.weaken (hf s) fun _ h => ⟨hs.kept h, fun p => p.kept h⟩

lemma prepared_settledRecovery (s : Coordinator) :
    Prepared node s { s with recovery := settledRecovery s } := by
  refine ⟨rfl, .inl rfl, rfl, rfl, rfl, rfl, fun pr roster hget => .inl ?_⟩
  simp only [settledRecovery, get_retain] at hget
  split_ifs at hget
  exact hget

/-- With nothing to apply the proposals are not looked at. An error comes after looking at them. -/
lemma applyHeld_call (hs₀ : Coordinated node s₀) (hs : Prepared node s₀ s) :
    Wp (applyHeldReadyUpdates node env) (fun _ s' => Call node s₀ s' ∧ (Settled s → Settled s'))
      (fun s' => Call node s₀ s' ∧ Settled s') s := by
  unfold applyHeldReadyUpdates
  simp only [wp]
  refine ⟨fun _ => ⟨hs.call hs₀, id⟩, fun _ => ⟨fun _ => ⟨hs.call hs₀, id⟩, fun _ => ?_⟩⟩
  have hsettled := (hs.trans (prepared_settledRecovery s)).call hs₀
  refine (maybeAccept_call hsettled).mono ?_ fun _ h => h
  rintro _ s' ⟨hcall, hdone⟩
  refine ⟨fun _ => ?_, fun _ => ⟨hcall, fun _ => hdone⟩⟩
  exact (quiet_offerRoster.call hcall).mono (fun _ _ h => ⟨h.1, fun _ => h.2 hdone⟩)
    fun _ h => ⟨h.1, h.2 hdone⟩

/-- A call that leaves no acceptable proposal if there was none before, or if it `looked`. -/
def Done (node : Member) (s : Coordinator) (looked : Prop) (s' : Coordinator) : Prop :=
  Call node s s' ∧ (Settled s ∨ looked → Settled s')

lemma Done.of_call (hs : Call node s₀ s ∧ Settled s) : Done node s₀ looked s :=
  ⟨hs.1, fun _ => hs.2⟩

lemma Done.refl (hs : Coordinated node s) (hnot : ¬looked) : Done node s looked s :=
  ⟨.refl hs, fun h => h.resolve_right hnot⟩

lemma Quiet.done (hf : Quiet f) (hs : Done node s₀ looked s) : Leaves f (Done node s₀ looked) s :=
  (hf.call hs.1).weaken fun _ h => ⟨h.1, fun p => h.2 (hs.2 p)⟩

lemma maybeAccept_done (hs : Call node s₀ s) :
    Leaves (maybeAcceptPendingRoster node env) (Done node s₀ looked) s :=
  (maybeAccept_call hs).weaken fun _ h => .of_call h

lemma recordReady_done (hs : Coordinated node s) (committeeN committeeH : ℕ)
    (message : DkgCoordination) : Leaves (recordReady node env committeeN committeeH message)
      (Done node s (ReadyAdmitted s committeeH message)) s := by
  unfold recordReady
  simp only [wp]
  refine ⟨fun hnot => .refl hs hnot, fun _ => ⟨fun _ => ?_, fun _ => ⟨fun _ => ?_, fun _ => ?_⟩⟩⟩
  · refine (applyHeld_call hs (.inputs rfl rfl rfl fun _ _ => .inl)).mono (fun _ s' h => ?_)
      fun _ h => .of_call h
    exact maybeAccept_done h.1
  · exact maybeAccept_done ((Prepared.inputs rfl rfl rfl fun _ _ => .inl).call hs)
  · exact maybeAccept_done (.refl hs)

lemma recordRoster_done (hs : Coordinated node s) (hcomm : node.committee = some cm)
    (hauth : Authentic node cm message) (hsize : node.committeeH = some committeeH) :
    Leaves (recordRoster node env committeeH message)
      (Done node s (RosterAdmitted s committeeH message)) s := by
  unfold recordRoster
  simp only [wp]
  refine ⟨fun hnot => .refl hs hnot, fun hadm => ?_⟩
  have hprop : Proposed node message :=
    ⟨⟨cm, hcomm, hauth⟩, by rw [hsize, (not_not.1 hadm).2.1]⟩
  have hprep : Prepared node s (s.updateRecovery (holdRoster s.expelled message)) := by
    have hother : ∀ recovery, (holdRoster s.expelled message recovery).dkgRoster =
        recovery.dkgRoster ∧ (holdRoster s.expelled message recovery).dkgReady =
        recovery.dkgReady ∧ (holdRoster s.expelled message recovery).decryptionShareProofsPending =
        recovery.decryptionShareProofsPending := by
      intro recovery
      unfold holdRoster
      split_ifs <;> exact ⟨rfl, rfl, rfl⟩
    refine .inputs (hother _).1 (hother _).2.1 (hother _).2.2 fun pr roster hget => ?_
    unfold holdRoster at hget
    split_ifs at hget
    · rw [get_insert] at hget
      split_ifs at hget with hpropr
      · obtain rfl := Option.some.inj hget
        exact .inr ⟨hpropr.symm, hprop⟩
      · exact .inl hget
    · exact .inl hget
  refine (maybeAccept_done (hprep.call hs)).mono (fun accepted s' h => ?_) fun _ h => h
  exact ⟨fun _ => quiet_publishRosterInputs.done h, fun _ => h⟩

/-- The calls that look at the pending proposals whatever they find. -/
def Looks (node : Member) (s : Coordinator) : RosterEvent → Prop
  | .coordination message =>
    message.e3Id = node.e3Id ∧ message.interfoldAddress = node.interfoldAddress ∧
    ∃ committee ∈ node.committee, Authentic node committee message ∧
    ∃ committeeH ∈ node.committeeH, (message.kind = .ready ∧ ReadyAdmitted s committeeH message) ∨
      (message.kind = .roster ∧ RosterAdmitted s committeeH message)
  | .aggregatorChanged change =>
    change.e3Id = node.e3Id ∧
      change.isAggregator = decide (change.activePartyId = some node.partyId)
  | _ => False

section

variable (hs : Coordinated node s)
include hs

lemma recordCoordination_done (message : DkgCoordination) :
    Leaves (recordDkgCoordination node env message)
      (Done node s (Looks node s (.coordination message))) s := by
  have hign : ¬Looks node s (.coordination message) →
      Done node s (Looks node s (.coordination message)) s := .refl hs
  unfold recordDkgCoordination
  simp only [wp]
  refine ⟨fun hother => hign fun h => hother.elim (· h.1) (· h.2.1), fun hsame => ⟨?_, ?_⟩⟩
  · intro cm hcomm
    cases hmember : cm[message.partyId]? with
    | none =>
      refine wp_pure.2 (hign ?_)
      rintro ⟨-, -, other, hother, ⟨⟨member, hmem, -⟩, -⟩, -⟩
      obtain rfl : cm = other := Option.some.inj (hcomm.symm.trans hother)
      simp [hmember] at hmem
    | some member =>
      simp only [wp]
      refine ⟨fun _ _ => ⟨fun hnot => hign ?_, fun hauth => ⟨?_, fun hnone => ?_⟩⟩, fun hnone => ?_⟩
      · rintro ⟨-, -, other, hother, hauth, -⟩
        obtain rfl : cm = other := Option.some.inj (hcomm.symm.trans hother)
        exact hnot hauth
      · intro committeeH hsize
        have hlooks : ∀ {admitted : Prop} {s' : Coordinator}, Done node s admitted s' →
            (Looks node s (.coordination message) → admitted) →
            Done node s (Looks node s (.coordination message)) s' :=
          fun h himp => ⟨h.1, fun p => h.2 (p.imp_right himp)⟩
        have hsizes : ∀ other ∈ node.committeeH, other = committeeH :=
          fun other hother => Option.some.inj (hother.symm.trans hsize)
        cases hkind : message.kind with
        | ready =>
          refine (recordReady_done hs cm.length committeeH message).weaken fun _ h => hlooks h ?_
          rintro ⟨-, -, -, -, -, other, hother, hadm⟩
          rw [← hsizes other hother]
          simpa [hkind] using hadm
        | roster =>
          refine (recordRoster_done hs hcomm (not_not.1 hauth) hsize).weaken fun _ h => hlooks h ?_
          rintro ⟨-, -, -, -, -, other, hother, hadm⟩
          rw [← hsizes other hother]
          simpa [hkind] using hadm
      · refine hign ?_
        rintro ⟨-, -, -, -, -, other, hother, -⟩
        simp [hnone] at hother
      · refine hign ?_
        rintro ⟨-, -, other, hother, ⟨⟨parsed, hmem, expected, hexpec, -⟩, -⟩, -⟩
        obtain rfl : cm = other := Option.some.inj (hcomm.symm.trans hother)
        obtain rfl : member = parsed := Option.some.inj (hmember.symm.trans hmem)
        simp [hnone] at hexpec
  · intro hnone
    refine hign ?_
    rintro ⟨-, -, other, hother, -⟩
    simp [hnone] at hother

lemma coordination_done (message : DkgCoordination) :
    Leaves (handleDkgCoordination node env message)
      (Done node s (Looks node s (.coordination message))) s := by
  unfold handleDkgCoordination
  simp only [wp]
  refine (recordCoordination_done hs message).mono (fun _ _ h => ?_) fun _ h => h
  exact ⟨fun _ => quiet_offerRoster.done h, fun _ => h⟩

lemma aggregatorChanged_done (change : AggregatorChanged) :
    Leaves (handleAggregatorChanged node env change)
      (Done node s (Looks node s (.aggregatorChanged change))) s := by
  unfold handleAggregatorChanged
  simp only [wp]
  refine ⟨fun hother => .refl hs fun h => hother h.1, fun _ => ⟨fun hrole => .refl hs fun h =>
    hrole h.2, fun _ => ?_⟩⟩
  have hprep : Prepared node s (s.updateRecovery fun recovery => { recovery with
      activeAggregatorPartyId := change.activePartyId, isAggregator := change.isAggregator }) :=
    .inputs rfl rfl rfl fun _ _ => .inl
  refine (maybeAccept_done (hprep.call hs)).mono (fun _ _ h => ?_) fun _ h => h
  exact ⟨fun _ => quiet_offerRoster.done h, fun _ => h⟩

/-- An expulsion takes proposals away, and adds none. -/
lemma partyExcluded_done (partyId : ℕ) :
    Leaves (handlePartyExcluded node env partyId) (Done node s False) s := by
  unfold handlePartyExcluded
  simp only [wp]
  have hprep : Prepared node s { s with
      expelled := insert partyId s.expelled
      honestParties := s.honestParties.map fun honest => honest.erase partyId } :=
    ⟨rfl, .inl rfl, rfl, rfl, rfl, rfl, fun _ _ => .inl⟩
  refine (applyHeld_call hs hprep).mono (fun _ _ h => ⟨h.1, fun p => h.2 ?_⟩) fun _ h =>
    .of_call h
  rcases p.resolve_right id with hfixed | hnone
  · exact .inl hfixed
  · refine .inr fun entry hentry haccb => hnone entry hentry ?_
    obtain ⟨hact, houtr, ⟨hpropr, hdeal⟩, hreps⟩ := haccb
    refine ⟨hact, houtr, ⟨fun h => hpropr (Finset.mem_insert_of_mem h), ?_⟩, hreps⟩
    exact fun id hid h => hdeal id hid (Finset.mem_insert_of_mem h)

/-- The own report is recorded without looking at the proposals: it comes back over the bus. -/
lemma publishReady_call (shares : VerifiedShares) :
    Leaves (maybePublishDkgReady node env shares) (Call node s) s := by
  have hquiet : ∀ {s₁ : Coordinator} {α : Type} {f : Handler Coordinator α}, Quiet f →
      Call node s s₁ → Leaves f (Call node s) s₁ := fun hf h =>
    (hf.call h).weaken fun _ => And.left
  have hsame := Call.refl hs
  unfold maybePublishDkgReady
  simp only [wp]
  refine ⟨fun _ => hsame, fun hphase => ⟨fun _ _ => ?_, fun _ => hsame⟩⟩
  refine ⟨fun _ _ => ⟨fun _ => hsame, fun _ => ⟨fun dealers _ => ?_, fun _ => hsame⟩⟩,
    fun _ => hsame⟩
  refine ⟨fun _ _ => ⟨fun _ => hsame, fun _ => ⟨fun _ => hsame, fun _ => ?_⟩⟩, fun _ => hsame⟩
  refine ⟨fun _ => hquiet quiet_maybeStartC4 hsame, fun _ => ⟨fun _ => ?_, fun _ => hsame⟩⟩
  refine (signed_same _ _ s).mono ?_ (by rintro _ rfl; exact hsame)
  rintro ready _ rfl
  have hrec : Call node s (s.updateRecovery fun recovery => { recovery with
      dkgReady := some ready
      readyByParty := recovery.readyByParty.insert node.partyId ready }) := by
    refine Prepared.call ?_ hs
    exact ⟨rfl, .inr (not_not.1 fun h => hphase (.inl h)), rfl, rfl, rfl, rfl, fun _ _ => .inl⟩
  refine ⟨fun _ => ?_, fun _ => hquiet quiet_maybeStartC4 hrec⟩
  refine (hquiet (quiet_publish _) hrec).mono (fun _ _ h => ?_) fun _ h => h
  exact (hquiet quiet_offerRoster h).mono (fun _ _ h => hquiet quiet_maybeStartC4 h) fun _ h => h

lemma keyCalculated_done : Leaves handleDecryptionKeyCalculated (Done node s False) s := by
  unfold handleDecryptionKeyCalculated
  simp only [wp]
  refine ⟨fun _ => .refl hs id, fun hstart => ⟨⟨⟨hs.pending, hs.accepted, ?_, by rintro ⟨⟩,
    fun _ => ?_⟩, .inl rfl, fun _ _ => .inr (.inr (by rintro ⟨⟩))⟩, fun p => ?_⟩⟩
  · rintro ⟨hopen, -⟩
    simp [Phase.ShareCollectionIsOpen] at hopen
  · exact hs.started (by simpa using fun h => hstart (.inl h))
  · rcases p.resolve_right id with ⟨hsome, -⟩ | hnone
    · exact .inl ⟨hsome, .inr (.inr (by rintro ⟨⟩))⟩
    · exact .inr hnone

end

/-- The phases go on only forward. -/
lemma Phase.next_late {phase next : Phase} (h : phase.next next = true) (hlate : ¬phase.Early) :
    ¬next.Early ∧ (phase ≠ .aggregatingDecryptionKey → next ≠ .aggregatingDecryptionKey) := by
  unfold Phase.Early Phase.ShareCollectionIsOpen at *
  cases phase <;> cases next <;> simp_all [Phase.next]

/-- A failure, or a phase on the way to the aggregation. -/
lemma advance_done (hs : Coordinated node s) (next : Phase) :
    Done node s False (s.advance next) := by
  unfold advance
  split_ifs with hnext
  · have hlate := @Phase.next_late s.phase next hnext.1
    have hearly : next.Early → s.phase.Early := fun h => not_not.1 fun hnot => (hlate hnot).1 h
    have hfixed : s.recovery.dkgRoster ≠ none → s.DkgRosterIsFixed →
        DkgRosterIsFixed { s with phase := next } := by
      intro hsome hfixed
      have hnot : ¬s.phase.Early := fun h => hsome (hs.early h).2
      exact hfixed.imp_right (Or.imp_right (hlate hnot).2)
    refine ⟨⟨⟨hs.pending, hs.accepted, fun h => hs.early (hearly h), hs.started, hs.proofs⟩,
      .inl rfl, hfixed⟩, fun p => ?_⟩
    rcases p.resolve_right id with ⟨hsome, hf⟩ | hnone
    · exact .inl ⟨hsome, hfixed hsome hf⟩
    · exact .inr hnone
  · exact .refl hs id

lemma restart_done (hs : Coordinated node s) : Done node s False s.restart := by
  have hfixed : s.DkgRosterIsFixed → s.restart.DkgRosterIsFixed := by
    rintro (hflag | hdata | hphase)
    · exact .inl hflag
    · exact .inl (hs.started hdata)
    · exact .inr (.inr hphase)
  refine ⟨⟨⟨hs.pending, hs.accepted, hs.early, hs.proofs, hs.proofs⟩, .inl rfl, fun _ => hfixed⟩,
    fun p => ?_⟩
  rcases p.resolve_right id with ⟨hsome, hf⟩ | hnone
  · exact .inl ⟨hsome, hfixed hf⟩
  · exact .inr hnone

/-- An accepted roster is accepted again: only pending proposals may go. -/
lemma Done.restored (hs : Done node s₀ looked s) (hrost : s.recovery.dkgRoster = some roster) :
    Done node s₀ looked (s.updateRecovery (accept roster)) := by
  obtain ⟨⟨⟨hpend, haccd, hearly, hstart, hproofs⟩, hmoves, hfixed⟩, hsettled⟩ := hs
  have hsame : (accept roster s.recovery).dkgRoster = s.recovery.dkgRoster := hrost.symm
  refine ⟨⟨⟨fun pr other hget => ?_, fun other h => haccd other (hsame ▸ h),
    fun h => ⟨(hearly h).1, hsame.trans (hearly h).2⟩, hstart, hproofs⟩, ?_, hfixed⟩, fun p => ?_⟩
  · simp only [updateRecovery, accept, get_retain] at hget
    split_ifs at hget
    exact hpend pr other hget
  · rcases hmoves with h | ⟨new, hnew, ⟨hlive, hpropr, hreps⟩, hold⟩
    · exact .inl (hsame.trans h)
    · exact .inr ⟨new, hsame.trans hnew, ⟨hlive, hpropr, hreps⟩, hold⟩
  · rcases hsettled p with ⟨hsome, hf⟩ | hnone
    · exact .inl ⟨hsame ▸ hsome, hf⟩
    · refine .inr fun entry hentry ⟨hact, houtr, hrest⟩ => ?_
      simp only [updateRecovery, accept, retain, List.mem_filter] at hentry
      exact hnone entry hentry.1 ⟨hact, fun old hold => houtr old (hsame ▸ hold), hrest⟩

lemma resume_done (hs : Coordinated node s) (verified : Bool) :
    Leaves (resume node env verified) (Done node s False) s := by
  have hfinish : ∀ s', Done node s False s' → Leaves (do
        catchError (maybePublishRosterInputsReady node env)
        catchError (proposeDkgRoster node env)) (Done node s False) s' := by
    intro s' h
    refine wp_bind.2 (wp_catchError.2 ((quiet_publishRosterInputs.done h).weaken ?_))
    exact fun s₁ h₁ => wp_catchError.2 (quiet_proposeRoster.done h₁)
  have hprep : Prepared node s { s with effectsEnabled := true } :=
    ⟨rfl, .inl rfl, rfl, rfl, rfl, rfl, fun _ _ => .inl⟩
  unfold resume Leaves
  rw [wp_bind, wp_modify, wp_bind, wp_catchError, wp_bind]
  refine (applyHeld_call hs hprep).mono (fun _ s' h => ?_) fun s' h => hfinish s' (.of_call h)
  have hdone : Done node s False s' := ⟨h.1, fun p => h.2 (p.resolve_right id)⟩
  have hquiet : ∀ {f : Handler Coordinator Unit}, Quiet f → Leaves f (Done node s False) s' :=
    fun hf => hf.done hdone
  have hrest : ∀ {f : Handler Coordinator Unit}, Leaves f (Done node s False) s' → Wp f _ _ s' :=
    fun hf => hf.mono (fun _ => hfinish) hfinish
  rw [wp_bind, wp_get, wp_ite]
  refine ⟨fun _ => ?_, fun _ => hrest (hquiet (quiet_pure ()))⟩
  cases hrost : s'.recovery.dkgRoster with
  | some roster =>
    refine hrest ((acceptDkgRoster_kept roster s').mono (fun _ s₁ h₁ => ?_) fun s₁ h₁ => ?_)
    · rcases h₁ with ⟨rfl, -⟩ | hkept
      · exact hdone
      · have hrstd := hdone.restored hrost
        exact ⟨hrstd.1.kept hkept, fun p => (hrstd.2 p).kept hkept⟩
    · have hrstd := hdone.restored hrost
      exact ⟨hrstd.1.kept h₁, fun p => (hrstd.2 p).kept h₁⟩
  | none =>
    cases s'.recovery.dkgReady with
    | none => exact hrest (hquiet (.ite quiet_proposeRoster (quiet_pure ())))
    | some ready =>
      refine hrest (hquiet (.ite ?_ (quiet_pure ())))
      exact (quiet_publish _).bind fun _ => quiet_proposeRoster

/-! ### Runs -/

/-- Whether a look at the proposals is owed after a call. An own report owes it, until it comes back
over the bus or another call looks. -/
def Owes (node : Member) (s : Coordinator) (owed : Prop) : RosterEvent → Prop
  | .shares _ => True
  | event => owed ∧ ¬Looks node s event

inductive RosterRun (node : Member) : Prop → Coordinator → Prop
  | start : RosterRun node False .start
  | step {owed : Prop} {s : Coordinator} (env : Surroundings) (event : RosterEvent)
      (h : RosterRun node owed s) :
      RosterRun node (Owes node s owed event) (rosterStep node env s event)

lemma rosterStep_done (hs : Coordinated node s) (event : RosterEvent)
    (hevent : ∀ shares, event ≠ .shares shares) :
    Done node s (Looks node s event) (rosterStep node env s event) := by
  cases event with
  | coordination message => exact (coordination_done hs message).final
  | aggregatorChanged change => exact (aggregatorChanged_done hs change).final
  | excluded partyId => exact (partyExcluded_done hs partyId).final
  | shares shares => exact absurd rfl (hevent shares)
  | decryptionKeyCalculated => exact (keyCalculated_done hs).final
  | advance next => exact advance_done hs next
  | restart => exact restart_done hs
  | effectsEnabled verified => exact (resume_done hs verified).final

lemma rosterStep_call (hs : Coordinated node s) (event : RosterEvent) :
    Call node s (rosterStep node env s event) := by
  cases event with
  | shares shares => exact (publishReady_call hs shares).final
  | _ => exact (rosterStep_done hs _ (by simp)).1

lemma rosterStep_settled (hs : Coordinated node s) (hsettled : ¬owed → Settled s)
    (event : RosterEvent) (howes : ¬Owes node s owed event) :
    Settled (rosterStep node env s event) := by
  cases event with
  | shares shares => exact absurd trivial howes
  | _ =>
    refine (rosterStep_done hs _ (by simp)).2 ?_
    by_cases howed : owed
    · exact .inr (not_not.1 fun h => howes ⟨howed, h⟩)
    · exact .inl (hsettled howed)

lemma RosterRun.coordinated (h : RosterRun node owed s) :
    Coordinated node s ∧ (¬owed → Settled s) := by
  induction h with
  | start =>
    refine ⟨⟨?_, nofun, fun _ => ⟨rfl, rfl⟩, nofun, nofun⟩, fun _ => .inr ?_⟩
    · simp [Coordinator.start, get_eq_some, empty]
    · simp [Coordinator.start, empty]
  | step env event _ ih =>
    exact ⟨(rosterStep_call ih.1 event).coordinated, rosterStep_settled ih.1 ih.2 event⟩

/-- The conditions under which a node accepts a roster. -/
structure Qualified (node : Member) (s : Coordinator) (roster : DkgCoordination) : Prop where
  signed : ∃ committee ∈ node.committee, ∃ address,
    committee[roster.partyId]? = some (some address) ∧
    node.recoverAddress roster = some address ∧ ∀ id ∈ roster.partyIds, id < committee.length
  size : node.committeeH = some roster.dealers.length
  distinct : roster.partyIds.Nodup
  live : roster.partyId ∉ s.expelled ∧ ∀ id ∈ roster.partyIds, id ∉ s.expelled
  proposer : ∃ active, s.recovery.activeAggregatorPartyId = some active ∧ roster.partyId ≤ active
  own : ∃ ready, s.recovery.dkgReady = some ready ∧
    ∀ dealer ∈ roster.dealers, dealer ∈ ready.dealers
  held : ∃ ready, s.recovery.readyByParty.get roster.partyId = some ready ∧
    ∀ dealer ∈ roster.dealers, dealer ∈ ready.dealers
  dealers : ∀ id ∈ roster.partyIds, ∀ ready, s.recovery.readyByParty.get id = some ready →
    ∀ dealer ∈ roster.dealers, dealer ∈ ready.dealers

lemma DkgCoordination.HasCanonicalDealers.lt {m : DkgCoordination} {n : ℕ}
    (h : m.HasCanonicalDealers n) : ∀ id ∈ m.partyIds, id < n := by
  intro id hid
  have hpw := List.isChain_iff_pairwise.1 h.1
  obtain ⟨hne, hlast⟩ : ∃ hne, m.partyIds.getLast hne < n :=
    ⟨List.ne_nil_of_mem hid, h.2 _ (List.getLast?_eq_some_getLast _)⟩
  rcases eq_or_ne id (m.partyIds.getLast hne) with heq | hother
  · omega
  · have hsplit := List.dropLast_append_getLast hne
    rw [← hsplit] at hid hpw
    have hdrop : id ∈ m.partyIds.dropLast := by simpa [hother] using hid
    exact ((List.pairwise_append.1 hpw).2.2 id hdrop _ (by simp)).trans hlast

lemma Supported.qualified (hs : Supported s roster) (h : Proposed node roster) :
    Qualified node s roster := by
  obtain ⟨cm, hcomm, ⟨⟨member, hmem, address, haddr, hrecov⟩, hcanon⟩⟩ :=
    h.authentic
  obtain rfl : member = some address := haddr
  exact {
    signed := ⟨cm, hcomm, address, hmem, hrecov, hcanon.lt⟩
    size := h.size
    distinct := (List.isChain_iff_pairwise.1 hcanon.1).imp ne_of_lt
    live := hs.live
    proposer := hs.proposer
    own := hs.reports.1
    held := hs.reports.2.1
    dealers := hs.reports.2.2 }

/-- What a call does to the accepted roster. -/
structure RosterDiscipline (node : Member) (s s' : Coordinator) : Prop where
  accepted : ∀ roster, s'.recovery.dkgRoster = some roster → s.recovery.dkgRoster ≠ some roster →
    Qualified node s' roster
  replaced : ∀ old, s.recovery.dkgRoster = some old → ∃ roster,
    s'.recovery.dkgRoster = some roster ∧ (roster = old ∨ roster.partyId < old.partyId)
  fixed : ∀ old, s.recovery.dkgRoster = some old → s.DkgRosterIsFixed →
    s'.recovery.dkgRoster = some old ∧ s'.DkgRosterIsFixed

lemma Call.discipline (h : Call node s s₁) : RosterDiscipline node s s₁ := by
  rcases h.moves with hsame | ⟨roster, hrost, hsupp, hbef⟩
  · refine ⟨fun _ hnew hold => absurd (hsame.symm.trans hnew) hold, fun old hold => ?_,
      fun old hold hfixed => ⟨hsame.trans hold, h.fixed (by simp [hold]) hfixed⟩⟩
    exact ⟨old, hsame.trans hold, .inl rfl⟩
  · refine ⟨fun other hother _ => ?_, fun old hold => ⟨roster, hrost, .inr (hbef old hold).2⟩,
      fun old hold hfixed => absurd hfixed (hbef old hold).1⟩
    obtain rfl : roster = other := Option.some.inj (hrost.symm.trans hother)
    exact hsupp.qualified (h.coordinated.accepted roster hrost)

/-- A roster is accepted only with the support of all reports that are held, a replacement has a
lower proposer, and C4 fixes the roster. No proposal that qualifies is left, unless the own report
has not come back yet. -/
theorem roster_acceptance {node : Member} {owed : Prop} {s : Coordinator}
    (hrun : RosterRun node owed s) :
    (∀ env event, RosterDiscipline node s (rosterStep node env s event)) ∧
    (¬owed → s.recovery.dkgRoster = none ∨ ¬s.DkgRosterIsFixed →
      ∀ proposer roster, s.recovery.pendingRosters.get proposer = some roster →
        ¬(Qualified node s roster ∧ ∀ accepted, s.recovery.dkgRoster = some accepted →
          roster.partyId < accepted.partyId)) := by
  obtain ⟨hcoordinated, hsettled⟩ := hrun.coordinated
  refine ⟨fun env event => (rosterStep_call hcoordinated event).discipline, ?_⟩
  rintro howed hopen proposer roster hget ⟨hqualified, houtranks⟩
  obtain ⟨rfl, -⟩ := hcoordinated.pending proposer roster hget
  rcases hsettled howed with ⟨hsome, hfixed⟩ | hnone
  · exact hopen.elim hsome fun hnot => hnot hfixed
  · exact hnone _ (get_eq_some.1 hget) ⟨hqualified.proposer, houtranks,
      hqualified.live, hqualified.own, hqualified.held, hqualified.dealers⟩

/-! ### An own report -/

namespace SampleRoster

def addresses : List Address := [10, 11, 12]

/-- Party 1 of three, where one dealer is enough. -/
def member : Member where
  e3Id := ⟨1, 7⟩
  interfoldAddress := 5
  partyId := 1
  committeeH := some 1
  committee := some (addresses.map some)
  signer := 11
  recoverAddress m := addresses[m.partyId]?
  sign _ := some []

def surroundings : Surroundings := ⟨fun _ => true, fun _ => .unavailable⟩

def dealer (id : ℕ) : DkgDealer := ⟨id, 0⟩

def message (partyId : ℕ) (kind : DkgCoordinationKind) (ids : List ℕ) : DkgCoordination :=
  ⟨⟨1, 7⟩, 5, partyId, kind, ids.map dealer, []⟩

/-- The roster of party 0 arrives before this node has made its own report. -/
def events : List RosterEvent :=
  [.effectsEnabled false, .advance .collectingEncryptionKeys, .advance .generatingThresholdShare,
    .advance .aggregatingDecryptionKey, .aggregatorChanged ⟨⟨1, 7⟩, some 0, false⟩,
    .coordination (message 0 .ready [0, 1]), .coordination (message 0 .roster [0]),
    .shares ⟨true, [0], fun id => some (dealer id)⟩]

def run (events : List RosterEvent) : Coordinator :=
  events.foldl (rosterStep member surroundings) .start

lemma run_reached (events : List RosterEvent) : ∃ owed, RosterRun member owed (run events) := by
  induction events using List.reverseRecOn with
  | nil => exact ⟨False, .start⟩
  | append_singleton events event ih =>
    obtain ⟨owed, hrun⟩ := ih
    unfold run at hrun ⊢
    rw [List.foldl_concat]
    exact ⟨_, .step surroundings event hrun⟩

end SampleRoster

open SampleRoster

/-- An expulsion that concerns no report returns without a look at the roster that the own report
made acceptable. -/
theorem own_report_leaves_roster : (∃ owed, RosterRun member owed (run (events ++ [.excluded 2]))) ∧
    (run (events ++ [.excluded 2])).recovery.pendingRosters.get 0 = some (message 0 .roster [0]) ∧
    Qualified member (run (events ++ [.excluded 2])) (message 0 .roster [0]) ∧
    (run (events ++ [.excluded 2])).recovery.dkgRoster = none ∧
    ¬(run (events ++ [.excluded 2])).DkgRosterIsFixed := by
  have hsupported : Supported (run (events ++ [.excluded 2])) (message 0 .roster [0]) :=
    ⟨by decide +kernel, by decide +kernel, by decide +kernel⟩
  refine ⟨run_reached _, by decide +kernel, hsupported.qualified ⟨⟨_, rfl, ?_⟩, rfl⟩,
    by decide +kernel, by decide +kernel⟩
  decide +kernel

/-- The own report comes back and the roster is accepted. -/
theorem roster_acceptance_sample :
    (run (events ++ [.coordination (message 1 .ready [0, 1])])).recovery.dkgRoster =
      some (message 0 .roster [0]) ∧
    Qualified member (run (events ++ [.coordination (message 1 .ready [0, 1])]))
      (message 0 .roster [0]) := by
  obtain ⟨owed, hrun⟩ := run_reached events
  have haccepted : (run (events ++ [.coordination (message 1 .ready [0, 1])])).recovery.dkgRoster =
      some (message 0 .roster [0]) := by decide +kernel
  have hbefore : (run events).recovery.dkgRoster ≠ some (message 0 .roster [0]) := by decide +kernel
  refine ⟨haccepted, ?_⟩
  have hstep : run (events ++ [.coordination (message 1 .ready [0, 1])]) =
      rosterStep member surroundings (run events)
        (.coordination (message 1 .ready [0, 1])) := List.foldl_concat ..
  rw [hstep] at haccepted ⊢
  exact ((roster_acceptance hrun).1 _ _).accepted _ haccepted hbefore

end Interfold.Keyshare
