import Interfold.Contracts.Bonding.OwnerCapacity

/-!
# The bound on the owner capacity

`Present` says what holds of the count of owners at the present time. It implies that the count is
covered now, time preserves it, and so does every move of the registry and of the identity
registries. What is recorded about the past is final, so the count stays covered there.
-/

namespace Interfold.Bonding

open Transaction Checkpoints Function Occupancy Capacity Eligibility

/-! ## The present -/

/-- As long as no credential was revoked, the credential of the owner lasts as long as the count. -/
def Insured (W : View) (h : OwnerHistoryLayout) (owner : Address) : Prop :=
  W.identity.required = true →
    W.revocations W.identity.registry = h.capacityRevocationCounts.latest →
    h.capacityIdentityExpiries.latest ≤ W.expiry W.identity.registry owner

/-- The count of a layout is recent, and the owners in it are insured. -/
structure Sound (W : View) (h : OwnerHistoryLayout) : Prop where
  recounted : W.identity.required = true → 0 < h.capacityIdentityExpiries.latest ∧
    h.capacityRevocationCounts.latest ≤ W.revocations W.identity.registry
  insured : ∀ x o, h.seat x = some o → Insured W h o

/-- The identity registries are as they should be. -/
def ValidRegistries (now : ℕ) (ids : Identities) : Prop :=
  ∀ registry σ, ids registry = some σ → IdentityRegistry.Valid now σ

/-- What is recorded besides the count, up to now. -/
structure Base (now : ℕ) (r : Roster) (ids : Identities) : Prop extends Policies now r where
  history : r.History now
  served : Served r.pool.identity ids
  registries : ValidRegistries now ids

/-- The operators that are counted are eligible as long as the count is fresh. -/
structure Present (now : ℕ) (r : Roster) (ids : Identities) : Prop extends Base now r ids where
  books : CapacityBooks now r.pool.ownerHistory
  sound : Sound (r.view ids now) r.pool.ownerHistory
  counted : ∀ x o, r.pool.ownerHistory.seat x = some o → r.bondOwnerOf x = o ∧
    r.registered x = true ∧ r.status x = (r.configurationVersion, true) ∧
    (r.view ids).Admitted x now

/-- What is recorded about the past is the same. -/
def Frozen (now : ℕ) (V V' : Timeline) : Prop := ∀ t < now, V' t = V t

lemma Timeline.Seasoned.mono (h : Timeline.Seasoned since boundary enabled duration)
    (hle : boundary ≤ later) : Timeline.Seasoned since later enabled duration := by
  obtain ⟨hsince, hcool⟩ := h
  refine ⟨hsince.trans hle, hcool.imp_right (Or.imp_right fun hdurat => ?_)⟩
  omega

variable {V V' : Timeline} {now : ℕ} {env : Env} {r r' : Roster} {ids : Identities} {s : State}

lemma Frozen.trans (h : Frozen now V V') (h' : Frozen now V' V'') : Frozen now V V'' :=
  fun t ht => (h' t ht).trans (h t ht)

/-- An operator stays admitted while its position and the admission policy stay the same. -/
lemma Timeline.Admitted.keep (hfroz : Frozen now V V') (hpause : V.PausedBefore now)
    (hpol : (V' now).admission = (V now).admission)
    (hsince : (V' now).since x = (V now).since x) (h : V.Admitted x now) : V'.Admitted x now := by
  unfold Timeline.Admitted at h ⊢
  rw [hpol, hsince]
  split_ifs at h ⊢ with hpaus
  · have hbef := hfroz _ (hpause hpaus)
    unfold Timeline.Recorded Timeline.Verified at h ⊢
    rw [hbef]
    exact h
  · exact h

section

variable {now : ℕ} {r : Roster} {ids : Identities}

lemma Base.paused (h : Base now r ids) (t : ℕ) : (r.view ids).PausedBefore t :=
  fun hpaus => (h.admission.pauses t hpaus).before

lemma Roster.History.recorded_iff (h : r.History now) (x : Address) :
    (r.view ids).Recorded x now ↔ r.status x = (r.configurationVersion, true) := by
  have hconf : (r.view ids now).configuration = r.configurationVersion + 1 :=
    (h.configurations.lookup_now).trans h.current
  have hact : (r.view ids now).active x = (r.pool.eligibility.operatorActiveVersions x).latest :=
    (h.versions x).lookup_now
  rw [← h.recorded x]
  unfold Timeline.Recorded
  rw [hconf, hact]
  constructor
  · exact fun hboth => hboth.2
  · exact fun heq => ⟨Nat.succ_ne_zero _, heq⟩

/-- Nothing is recorded about the future, so it looks like the present. -/
lemma Present.view_eq (h : Present now r ids) (ht : now ≤ t) : r.view ids t = r.view ids now := by
  have hsame : ∀ {α : Type} [Inhabited α] {trace : Trace α}, trace.Ordered now →
      trace.upperLookup t = trace.upperLookup now := by
    intro α _ trace hord
    rw [hord.lookup_latest ht, hord.lookup_now]
  have hregy : ∀ reg σ, ids reg = some σ → (∀ o, (σ.history o).upperLookup t =
      (σ.history o).upperLookup now) ∧
      σ.revocationCounts.upperLookup t = σ.revocationCounts.upperLookup now := by
    intro reg σ hσ
    have hvalid := h.registries reg σ hσ
    exact ⟨fun o => hsame (hvalid.history o), hsame hvalid.revocations⟩
  ext x y
  · exact hsame h.history.configurations
  · exact hsame (h.history.versions x)
  · unfold Roster.view
    dsimp only
    rw [hsame (h.owners x)]
  · exact congrArg r.pool.admission.policies (hsame h.admission.versions.ordered)
  · exact hsame (h.admission.starts x)
  · exact congrArg r.pool.identity.policies (hsame h.identities.ordered)
  · unfold Roster.view
    dsimp only
    cases hσ : ids x with
    | none => rfl
    | some σ => exact (hregy x σ hσ).1 y
  · unfold Roster.view
    dsimp only
    cases hσ : ids x with
    | none => rfl
    | some σ => exact (hregy x σ hσ).2
  · exact hsame h.books.expiries
  · exact hsame h.books.revocations
  · exact hsame h.books.counts

lemma Present.wait (h : Present now r ids) (hle : now ≤ later) : Present later r ids := by
  have hview := h.view_eq hle
  exact {
    toPolicies := h.toPolicies.mono hle
    history := h.history.mono hle
    books := { h.books with
      counts := h.books.counts.mono hle
      expiries := h.books.expiries.mono hle
      revocations := h.books.revocations.mono hle }
    served := h.served
    registries := fun reg σ hσ => (h.registries reg σ hσ).mono hle
    sound := hview ▸ h.sound
    counted := by
      intro x o hseat
      obtain ⟨howner, hregis, hstat, hadm⟩ := h.counted x o hseat
      refine ⟨howner, hregis, hstat, ?_⟩
      unfold Timeline.Admitted at hadm ⊢
      rw [hview]
      split_ifs at hadm ⊢
      · exact hadm
      · exact hadm.mono hle }

/-- The count of the present is covered. -/
lemma Present.covered (h : Present now r ids) : (r.view ids).Covered now := by
  intro hfresh
  have hcount : (r.view ids now).ownerCount = r.pool.ownerHistory.activeOwnerCounts.latest :=
    h.books.counts.lookup_now
  have huntil : (r.view ids now).countedUntil =
      r.pool.ownerHistory.capacityIdentityExpiries.latest :=
    h.books.expiries.lookup_now
  have hrevs : (r.view ids now).countedRevocations =
      r.pool.ownerHistory.capacityRevocationCounts.latest :=
    h.books.revocations.lookup_now
  rw [hcount]
  refine h.books.occupancy.total_le fun x o hseat => ?_
  obtain ⟨howner, -, hstat, hadm⟩ := h.counted x o hseat
  have hviewOw := (h.owner_eq ids x).trans howner
  refine ⟨x, ⟨(h.history.recorded_iff x).2 hstat, hadm, ?_⟩, hviewOw⟩
  intro hreq
  obtain ⟨htime, hsame⟩ := hfresh hreq
  have hlong := h.sound.insured x o hseat hreq (hsame.trans hrevs)
  have hpos := (h.sound.recounted hreq).1
  rw [hviewOw]
  omega

end

/-! ## Credentials -/

section

variable {now : ℕ} {r : Roster} {ids : Identities} {reg : Address}
  {σ σ' : IdentityRegistry.State}

lemma Base.install_registry (h : Base now r ids) (hvalid : IdentityRegistry.Valid now σ') :
    Base now r (update ids reg (some σ')) := by
  refine { h with served := ?_, registries := ?_ }
  · intro ver hreq
    by_cases hx : (r.pool.identity.policies ver).registry = reg
    · simp [hx]
    · rw [update_of_ne hx]
      exact h.served ver hreq
  · refine (forall_update_iff ids fun _ τ' => ∀ τ, τ' = some τ → IdentityRegistry.Valid now τ).2
      ⟨?_, fun x _ => h.registries x⟩
    rintro τ ⟨⟩
    exact hvalid

lemma ValidRegistries.expiry_eq (h : ValidRegistries now ids) (hσ : ids reg = some σ)
    (o : Address) : (r.view ids now).expiry reg o = (σ.identities o).expiresAt := by
  have hvalid := h reg σ hσ
  rw [← hvalid.current o, ← (hvalid.history o).lookup_now]
  simp only [Roster.view, hσ, Option.elim_some]

lemma ValidRegistries.revocations_eq (h : ValidRegistries now ids) (hσ : ids reg = some σ) :
    (r.view ids now).revocations reg = σ.revocationCounts.latest := by
  have hvalid := h reg σ hσ
  rw [← hvalid.revocations.lookup_now]
  simp only [Roster.view, hσ, Option.elim_some]

/-- A registration, a renewal, a replacement or a revocation. -/
lemma Present.credential (h : Present now r ids) (hσ : ids reg = some σ)
    (hvalid : IdentityRegistry.Valid now σ') (hevol : IdentityRegistry.Evolves now σ σ') :
    Present now r (update ids reg (some σ')) ∧
      Frozen now (r.view ids) (r.view (update ids reg (some σ'))) := by
  have hfroz : Frozen now (r.view ids) (r.view (update ids reg (some σ'))) := by
    intro t ht
    ext x y <;> try rfl
    all_goals
      simp only [Roster.view, update_apply]
      split_ifs with hx
    · simp only [hx, hσ, Option.elim_some, hevol.history y t ht]
    · rfl
    · simp only [hx, hσ, Option.elim_some, hevol.revocations t ht]
    · rfl
  have hbase : Base now r (update ids reg (some σ')) := h.toBase.install_registry hvalid
  have hother : ∀ x, x ≠ reg →
      (r.view (update ids reg (some σ')) now).revocations x = (r.view ids now).revocations x ∧
      (r.view (update ids reg (some σ')) now).expiry x = (r.view ids now).expiry x := by
    intro x hx
    simp only [Roster.view, update_of_ne hx, and_self]
  refine ⟨{ hbase with books := h.books, sound := ⟨?_, ?_⟩, counted := ?_ }, hfroz⟩
  · intro hreq
    obtain ⟨hpos, hle⟩ := h.sound.recounted hreq
    refine ⟨hpos, hle.trans ?_⟩
    change (r.view ids now).revocations (r.view ids now).identity.registry ≤
      (r.view (update ids reg (some σ')) now).revocations (r.view ids now).identity.registry
    by_cases hx : (r.view ids now).identity.registry = reg
    · rw [hx, h.registries.revocations_eq hσ, hbase.registries.revocations_eq (update_self ..)]
      rcases hevol.expiry with ⟨hsame, -⟩ | hmore
      · exact hsame.ge
      · exact hmore.le
    · rw [(hother _ hx).1]
  · intro x o hseat hreq hsame
    have hinsd := h.sound.insured x o hseat hreq
    change _ ≤ (r.view (update ids reg (some σ')) now).expiry (r.view ids now).identity.registry o
    change (r.view (update ids reg (some σ')) now).revocations
      (r.view ids now).identity.registry = _ at hsame
    by_cases hx : (r.view ids now).identity.registry = reg
    · have hbound := (h.sound.recounted hreq).2
      rw [hx, hbase.registries.revocations_eq (update_self ..)] at hsame
      rw [hx, h.registries.revocations_eq hσ] at hbound
      rcases hevol.expiry with ⟨hequal, hlonger⟩ | hmore
      · have hlong := hinsd (by rw [hx, h.registries.revocations_eq hσ, ← hequal, hsame])
        rw [hx, h.registries.expiry_eq hσ] at hlong
        rw [hx, hbase.registries.expiry_eq (update_self ..)]
        exact hlong.trans (hlonger o)
      · omega
    · rw [(hother _ hx).1] at hsame
      rw [(hother _ hx).2]
      exact hinsd hsame
  · intro x o hseat
    obtain ⟨howner, hregis, hstat, hadm⟩ := h.counted x o hseat
    exact ⟨howner, hregis, hstat, hadm.keep hfroz (h.paused now) rfl rfl⟩

/-- A new registry knows no credentials yet. -/
lemma Present.deploy (h : Present now r ids) (hnone : ids reg = none)
    (hvalid : IdentityRegistry.Valid now σ) (hhist : ∀ x, σ.history x = [])
    (hcnts : σ.revocationCounts = []) : Present now r (update ids reg (some σ)) ∧
      Frozen now (r.view ids) (r.view (update ids reg (some σ))) := by
  have hview : r.view (update ids reg (some σ)) = r.view ids := by
    funext t
    ext x y <;> try rfl
    all_goals
      simp only [Roster.view, update_apply]
      split_ifs with hx
    · simp only [hx, hnone, Option.elim_some, Option.elim_none, hhist]
      rfl
    · rfl
    · simp only [hx, hnone, Option.elim_some, Option.elim_none, hcnts]
      rfl
    · rfl
  exact ⟨{ h.toBase.install_registry hvalid with
    books := h.books, sound := hview ▸ h.sound, counted := hview ▸ h.counted },
    fun t _ => by rw [hview]⟩

end

/-! ## The count -/

section

variable {env : Env} {r r' : Roster} {ids : Identities} {op next owner : Address} {W W' : View}
  {h₀ h₁ h' : OwnerHistoryLayout}

lemma Sound.congr (h : Sound W h') (hident : W'.identity = W.identity)
    (hexp : W'.expiry = W.expiry) (hrevs : W'.revocations = W.revocations) : Sound W' h' := by
  constructor
  · rw [hident, hrevs]
    exact h.recounted
  · unfold Insured
    rw [hident, hexp, hrevs]
    exact h.insured

/-- Nothing is counted after a fresh start. -/
lemma sound_of_restarted (h : Restarted now W h₀ h') : Sound W h' ∧ ∀ x o, h'.seat x ≠ some o := by
  have hempty : ∀ x o, h'.seat x ≠ some o := fun x o => by simp [h.empty x]
  refine ⟨⟨fun hreq => ?_, fun x o hseat => absurd hseat (hempty x o)⟩, hempty⟩
  exact ⟨(h.fresh hreq).1, (h.fresh hreq).2.le⟩

/-- What a change of one seat means for the count, when the owner of the seat is insured. -/
lemma Sound.reseated (h : Sound W h₀) (hprep : Prepared now W h₀ h₁)
    (hreseat : Reseated now op next h₁ h') (hnext : next ≠ 0 → Insured W h₁ next) :
    Recount now h₀ h' ∧ Sound W h' ∧ ∀ x o, h'.seat x = some o → x ≠ op ∧ h₀.seat x = some o ∨
        x = op ∧ next = o ∧ o ≠ 0 ∧ (h₁.seat op ≠ none → h₀.seat op ≠ none) := by
  have hprep' : Sound W h₁ ∧ ∀ x o, h₁.seat x = some o → h₀.seat x = some o := by
    rcases hprep with rfl | hrst
    · exact ⟨h, fun _ _ hseat => hseat⟩
    · obtain ⟨hsound, hempty⟩ := sound_of_restarted hrst
      exact ⟨hsound, fun x o hseat => absurd hseat (hempty x o)⟩
  obtain ⟨hsound, hseats⟩ := hprep'
  have hinsd : Insured W h' = Insured W h₁ := by
    unfold Insured
    rw [hreseat.expiries, hreseat.revocations]
  have hcases : ∀ x o, h'.seat x = some o →
      x ≠ op ∧ h₁.seat x = some o ∨ x = op ∧ next = o ∧ o ≠ 0 := by
    intro x o hseat
    rw [hreseat.seat] at hseat
    by_cases hx : x = op
    · subst hx
      rw [update_self] at hseat
      exact .inr ⟨rfl, seatOf_eq_some.1 hseat⟩
    · rw [update_of_ne hx] at hseat
      exact .inl ⟨hx, hseat⟩
  refine ⟨hprep.recount.trans hreseat.recount, ⟨?_, fun x o hseat => ?_⟩, fun x o hseat => ?_⟩
  · rw [hreseat.expiries, hreseat.revocations]
    exact hsound.recounted
  · rw [hinsd]
    rcases hcases x o hseat with ⟨-, hold⟩ | ⟨-, rfl, hne⟩
    · exact hsound.insured x o hold
    · exact hnext hne
  · rcases hcases x o hseat with ⟨hx, hold⟩ | ⟨hx, heq, hne⟩
    · exact .inl ⟨hx, hseats x o hold⟩
    · refine .inr ⟨hx, heq, hne, fun hwas => ?_⟩
      obtain ⟨old, hold⟩ := Option.ne_none_iff_exists'.1 hwas
      rw [hseats op old hold]
      exact Option.some_ne_none _

/-- An owner whose credential covers the count is insured. -/
lemma insured_of_covers (hregist : ValidRegistries now ids) (hans : Answers env ids)
    (hcovers : Covers env (r.view ids now) h₁ owner) : Insured (r.view ids now) h₁ owner := by
  intro hreq _
  obtain ⟨expiry, hexp, hle⟩ := hcovers hreq
  rw [hans.expiry] at hexp
  cases hσ : ids (r.view ids now).identity.registry with
  | none =>
    rw [hσ] at hexp
    cases hexp
  | some σ =>
    rw [hσ] at hexp
    have hexp' : (σ.identities owner).expiresAt = expiry := Option.some.inj hexp
    rw [hregist.expiry_eq hσ, hexp']
    exact hle

/-- What a move means for the records of the past, whatever it does to the count. -/
lemma Base.advance (h : Base now r ids) (hpols : Policies now r')
    (hsettled : Settled now (r.view ids) (r'.view ids))
    (hhist : r'.History now ∧ Evolves now r.pool.eligibility r'.pool.eligibility)
    (hserv : Served r'.pool.identity ids)
    (hrcnt : Recount now r.pool.ownerHistory r'.pool.ownerHistory) :
    Base now r' ids ∧ Frozen now (r.view ids) (r'.view ids) := by
  obtain ⟨hhist, hevol⟩ := hhist
  refine ⟨⟨hpols, hhist, hserv, h.registries⟩, fun t ht => ?_⟩
  exact View.ext (hevol.configurations t ht) (funext fun x => hevol.versions x t ht)
    (hsettled.owner t ht) (hsettled.admission t ht) (hsettled.since t ht) (hsettled.identity t ht)
    rfl rfl (hrcnt.expiries t ht) (hrcnt.revocations t ht) (hrcnt.counts t ht)

lemma Base.advance_same (h : Base now r ids) (hsame : r.Same r')
    (hhist : r'.History now ∧ Evolves now r.pool.eligibility r'.pool.eligibility)
    (hrcnt : Recount now r.pool.ownerHistory r'.pool.ownerHistory) :
    Base now r' ids ∧ Frozen now (r.view ids) (r'.view ids) :=
  h.advance (hsame.policies h.toPolicies) (hsame.settled ids) hhist (hsame.identity ▸ h.served)
    hrcnt

end

/-! ## Moves -/

section

variable {env : Env} {r r' : Roster} {ids : Identities} {op : Address}

lemma refreshed_view (p : Pool) (t : ℕ) (x : Address) (r : Roster) (hpool : r.pool = p) :
    ({ r with pool := { p with eligibility := p.eligibility.refreshed t x } } : Roster).view ids =
      r.view ids := by
  subst hpool
  unfold EligibilityLayout.refreshed
  split_ifs
  · rfl
  · rfl
  · rfl

lemma Present.updates (h : Base env.now r ids) (hbooks : CapacityBooks env.now r.pool.ownerHistory)
    (hsound : Sound (r.view ids env.now) r.pool.ownerHistory)
    (hcnt : ∀ x o, x ≠ op → r.pool.ownerHistory.seat x = some o → r.bondOwnerOf x = o ∧
      r.registered x = true ∧ r.status x = (r.configurationVersion, true) ∧
      (r.view ids).Admitted x env.now) (hans : Answers env ids)
    (hupd : r.Updates env op pool n active) : Present env.now (r.setStatus op pool n active) ids ∧
      Frozen env.now (r.view ids) ((r.setStatus op pool n active).view ids) := by
  have hhist := h.history.updates hupd
  have hsame := hupd.same h.history.started
  obtain ⟨this, requirements, hregis, hrun⟩ := hupd
  obtain ⟨p₁, p₂, admitted, hrefr, hadm, hsync, hact, hcases⟩ :=
    updateOperator_ok hrun
  -- Only the eligibility layout differs after the operator was refreshed.
  have hfirst : p₁.ownerHistory = r.pool.ownerHistory ∧
      ({ r with pool := p₁ } : Roster).view ids = r.view ids := by
    split_ifs at hrefr
    · obtain ⟨rfl, -⟩ := completeRefresh_ok h.history.started hrefr
      exact ⟨rfl, refreshed_view r.pool env.now op r rfl⟩
    · obtain rfl := pure_ok.1 hrefr
      exact ⟨rfl, rfl⟩
  obtain ⟨howner₁, hview₁⟩ := hfirst
  have hnow := (Capacity.sync_keeps hsync).2
  have howner₂ : pool.ownerHistory = p₂.ownerHistory := by
    rcases hcases with ⟨-, rfl, -⟩ | ⟨-, heq, -⟩
    · rfl
    · rw [heq]
  have hsynced := Capacity.sync_ok (r := { r with pool := p₁ }) hans (howner₁ ▸ hbooks) hsync
  rw [hview₁] at hsynced
  obtain ⟨h₁, next, hprep, hreseat, hnext⟩ := hsynced
  dsimp only at hprep hnext
  rw [howner₁] at hprep
  rw [← howner₂] at hreseat
  obtain ⟨hrcnt, hsound', hseats⟩ := hsound.reseated hprep hreseat fun hne =>
    (hnext hne).1 ▸ insured_of_covers h.registries hans (hnext hne).2.2
  obtain ⟨hbase, hfroz⟩ := h.advance_same hsame hhist hrcnt
  refine ⟨{ hbase with
    books := hreseat.books
    sound := hsound'.congr (hsame.view ids env.now).2.2.2 rfl rfl, counted := ?_ }, hfroz⟩
  intro x o hseat
  have hkeep : ∀ {y}, (r.view ids).Admitted y env.now →
      ((r.setStatus op pool n active).view ids).Admitted y env.now := fun hadm' =>
    hadm'.keep hfroz (h.paused _) (hsame.view ids _).2.1 (congrFun (hsame.view ids _).2.2.1 _)
  rcases hseats x o hseat with ⟨hx, hold⟩ | ⟨rfl, rfl, hne, -⟩
  · obtain ⟨howner, hreg, hstat, hadm'⟩ := hcnt x o hx hold
    exact ⟨howner, hreg, (update_of_ne hx ..).trans hstat, hkeep hadm'⟩
  · obtain ⟨rfl, rfl, -⟩ := hnext hne
    cases active with
    | false => cases pure_ok.1 hadm
    | true =>
      have halwd := (admissionAllowed_iff (r := { r with pool := p₁ }) hans _
        hnow (hview₁ ▸ h.paused env.now)).1 hadm
      rw [hview₁] at halwd
      exact ⟨rfl, hregis ▸ hact rfl, update_self .., hkeep halwd.1⟩

lemma Base.restarted (h : Base now r ids) (hrst : Restarted now W h₀ r.pool.ownerHistory)
    (hident : (r.view ids now).identity = W.identity) (hexp : (r.view ids now).expiry = W.expiry)
    (hrevs : (r.view ids now).revocations = W.revocations) : Present now r ids := by
  obtain ⟨hsound, hempty⟩ := sound_of_restarted hrst
  exact { h with
    books := hrst.books
    sound := hsound.congr hident hexp hrevs
    counted := fun x o hseat => absurd hseat (hempty x o) }

lemma Present.restart (h : Present env.now r ids) (hans : Answers env ids)
    (hmove : Move env r r') (hreset : Capacity.reset env p₁ = .ok r'.pool)
    (hserv : Served p₁.identity ids) (hcount : p₁.ownerHistory = r.pool.ownerHistory) :
    Present env.now r' ids ∧ Frozen env.now (r.view ids) (r'.view ids) := by
  obtain ⟨hpols, hsettled⟩ := h.toPolicies.move ids h.history hmove
  have hident := (Capacity.reset_keeps hreset).1.identity
  have hrst := Capacity.reset_ok (r := { r with pool := p₁ }) hans (hcount ▸ h.books) hreset
  obtain ⟨hbase, hfroz⟩ := h.toBase.advance hpols hsettled (h.history.move hmove)
    (hident ▸ hserv) (hcount ▸ hrst.recount)
  refine ⟨hbase.restarted hrst ?_ rfl rfl, hfroz⟩
  simp only [Roster.view, hident]

lemma seat_ne_zero {h : OwnerHistoryLayout} (hseat : h.seat x = some o) : o ≠ 0 := by
  unfold OwnerHistoryLayout.seat at hseat
  split_ifs at hseat
  exact (seatOf_eq_some.1 hseat).2

lemma Present.own (h : Present env.now r ids) (hans : Answers env ids) (hne : newOwner ≠ 0)
    (hrun : recordOwner env r.bondOwnerOf op (r.bondOwnerOf op) newOwner r.pool = .ok pool) :
    let r' : Roster := { r with pool, bondOwnerOf := update r.bondOwnerOf op newOwner }
    Present env.now r' ids ∧ Frozen env.now (r.view ids) (r'.view ids) := by
  intro r'
  have hmove : Move env r r' := .own hne hrun
  obtain ⟨hpols', hsettled⟩ := h.toPolicies.move ids h.history hmove
  by_cases hchg : r.bondOwnerOf op = newOwner
  · subst hchg
    unfold recordOwner at hrun
    rw [if_pos rfl] at hrun
    obtain rfl := pure_ok.1 hrun
    have heq : r' = r := by simp only [r', update_eq_self]
    rw [heq]
    exact ⟨h, fun _ _ => rfl⟩
  obtain ⟨newer, starts, admitted, allowed, -, hreloc, hnow, hadm, halwd, htrans⟩ :=
    recordOwner_relocates h.toPolicies hne hchg hrun
  obtain ⟨howner, hsince⟩ := hreloc ids
  let r₁ := r.relocate op newOwner newer starts
  have hchg' : ∀ o, r₁.pool.ownerHistory.seat op = some o →
      o ≠ (if allowed then newOwner else 0) := by
    intro o hseat
    split_ifs
    · exact (h.counted op o hseat).1 ▸ hchg
    · exact seat_ne_zero hseat
  obtain ⟨h₁, next, hprep, hreseat, hnext⟩ := Capacity.transfer_ok (r := r₁) hans
    { h.books with } htrans hchg'
  have hsame : r₁.Same r' := .of_keeps (Capacity.transfer_keeps htrans).1 rfl
  have hview := hsame.view ids env.now
  have hsound : Sound (r₁.view ids env.now) r₁.pool.ownerHistory :=
    ⟨h.sound.recounted, h.sound.insured⟩
  obtain ⟨hrcnt, hsound', hseats⟩ := hsound.reseated hprep hreseat fun hzero =>
    (hnext hzero).1 ▸ insured_of_covers h.registries hans (hnext hzero).2.2
  obtain ⟨hbase, hfroz⟩ := h.toBase.advance hpols' hsettled (h.history.move hmove)
    (hsame.identity ▸ h.served) ⟨hrcnt.counts, hrcnt.expiries, hrcnt.revocations⟩
  refine ⟨{ hbase with
    books := hreseat.books, sound := hsound'.congr hview.2.2.2 rfl rfl, counted := ?_ }, hfroz⟩
  intro x o hseat
  rcases hseats x o hseat with ⟨hx, hold⟩ | ⟨rfl, rfl, hzero, hwas⟩
  · obtain ⟨howner', hreg, hstat, hadm'⟩ := h.counted x o hold
    refine ⟨(update_of_ne hx ..).trans howner', hreg, hstat, ?_⟩
    refine hadm'.keep hfroz (h.paused _) hview.2.1 ?_
    rw [hview.2.2.1, hsince, if_neg fun hboth => hx hboth.1]
  · obtain ⟨heq, hcnt, -⟩ := hnext hzero
    obtain ⟨old, hold⟩ := Option.ne_none_iff_exists'.1 (hwas hcnt)
    obtain ⟨-, hreg, hstat, -⟩ := h.counted _ old hold
    cases allowed with
    | false => exact absurd heq hzero
    | true =>
      refine ⟨(update_self ..).trans heq.symm, hreg, hstat, ?_⟩
      -- A transfer starts the position anew, so nobody passes during a pause.
      rw [halwd rfl] at hadm
      have hseas := (Admission.allows_iff ids x (r₁.view ids env.now).admission hnow).1 hadm
      have hstart : (r₁.view ids env.now).since x = env.now := by
        rw [hsince, if_pos ⟨rfl, le_refl _⟩]
      unfold Timeline.Admitted
      rw [hview.2.1, hview.2.2.1]
      split_ifs at hseas ⊢ with hpaus
      · rw [hstart] at hseas
        exact absurd hseas.1 (not_le.2 (h.paused env.now hpaus))
      · exact hseas

end

/-- Every move of the registry preserves what holds of the present, and the past is final. -/
lemma Present.move (h : Present env.now r ids) (hans : Answers env ids)
    (hmove : Move env r r') : Present env.now r' ids ∧ Frozen env.now (r.view ids) (r'.view ids) := by
  have hpols := h.toPolicies.move ids h.history hmove
  have hhist := h.history.move hmove
  have hmove' := hmove
  cases hmove with
  | @enter op p₁ p₂ hnew hexcl hstart =>
    simp only [excludeNewRegistration, run_ok] at hexcl
    obtain ⟨l, -, rfl⟩ := hexcl
    obtain ⟨starts, rfl, -, -⟩ := AdmissionLayout.Sound.start (by exact h.admission) hstart
    obtain ⟨hbase, hfroz⟩ := h.toBase.advance hpols.1 hpols.2 hhist h.served .rfl
    refine ⟨{ hbase with books := h.books, sound := h.sound.congr rfl rfl rfl, counted := ?_ },
      hfroz⟩
    intro x o hseat
    obtain ⟨howner, hregis, hstat, hadm⟩ := h.counted x o hseat
    have hx : x ≠ op := by
      rintro rfl
      exact absurd (hnew.symm.trans hregis) Bool.false_ne_true
    refine ⟨howner, (update_of_ne hx ..).trans hregis, hstat, ?_⟩
    refine hadm.keep hfroz (h.paused _) rfl ?_
    simp [Roster.view, Roster.enter, hx]
  | update hupd =>
    exact Present.updates h.toBase h.books h.sound (fun x o _ => h.counted x o) hans hupd
  | @leave op p₁ p₂ n active hold hcompl hupd =>
    obtain ⟨rfl, -⟩ := completeRefresh_ok h.history.started hcompl
    obtain ⟨hrefres, hevol⟩ := Bonding.History.refreshed h.history hold
    have hsame : r.Same (r.leave op { r.pool with
      eligibility := r.pool.eligibility.refreshed env.now op }) := ⟨rfl, rfl, rfl, rfl⟩
    obtain ⟨hbase, hfroz⟩ := h.toBase.advance_same hsame
      ⟨hrefres.leave hold (refreshed_epoch _), hevol⟩ .rfl
    obtain ⟨hpres, hfroz'⟩ := Present.updates hbase h.books (h.sound.congr rfl rfl rfl)
      (fun x o hx hseat => by
        obtain ⟨howner, hregis, hstat, hadm⟩ := h.counted x o hseat
        exact ⟨howner, (update_of_ne hx ..).trans hregis, hstat,
          hadm.keep hfroz (h.paused _) rfl rfl⟩) hans hupd
    exact ⟨hpres, hfroz.trans hfroz'⟩
  | invalidate hrun =>
    simp only [invalidateConfiguration, run_ok, Prod.mk.injEq] at hrun
    obtain ⟨-, -, vs, -, counts, -, l, -, p₁, hreset, -, rfl⟩ := hrun
    exact h.restart hans hmove' hreset h.served rfl
  | own hne hrun => exact h.own hans hne hrun
  | admissionPolicy hrun =>
    unfold Admission.setPolicy at hrun
    rcases ite_ok.1 hrun with ⟨-, hrun⟩ | ⟨-, hrun⟩
    · obtain rfl := pure_ok.1 hrun
      exact ⟨h, fun _ _ => rfl⟩
    · simp only [bind_ok] at hrun
      obtain ⟨pol, -, _, -, vs, -, hreset⟩ := hrun
      exact h.restart hans hmove' hreset h.served rfl
  | @identityPolicy reg required pool hrun =>
    simp only [Identity.setPolicy, bind_ok] at hrun
    obtain ⟨_, hprobe, hrun⟩ := hrun
    rcases ite_ok.1 hrun with ⟨-, hrun⟩ | ⟨-, hrun⟩
    · obtain rfl := pure_ok.1 hrun
      exact ⟨h, fun _ _ => rfl⟩
    · simp only [bind_ok] at hrun
      obtain ⟨_, -, vs, -, hreset⟩ := hrun
      refine h.restart hans hmove' hreset ?_ rfl
      refine (forall_update_iff _ fun _ (pol : IdentityPolicy) =>
        pol.required = true → (ids pol.registry).isSome).2 ⟨?_, fun v _ => h.served v⟩
      -- The registry has answered a query.
      rintro rfl
      simp only [if_true, bind_ok, external_ok] at hprobe
      obtain ⟨-, -, answer, hansw, -⟩ := hprobe
      rw [hans.verified] at hansw
      cases hσ : ids reg with
      | none =>
        rw [hσ] at hansw
        cases hansw
      | some σ => rfl

/-! ## The registry with its identity registries -/

/-- States of an initialized registry together with the identity registries, which answer its
calls. Registries are deployed and used at any time. -/
inductive ReachableWith : ℕ → State → Identities → Prop
  | init {env : Env} {this owner : Address} {config : BondingAssetConfig}
      {registry treasury : Address} {minTicketBalance exitDelay : ℕ} {s : State} {ids : Identities}
      (hids : ∀ address σ, ids address = some σ → IdentityRegistry.Reachable env.now σ)
      (hanswers : Answers env ids)
      (h : initializeRegistry env owner config registry treasury minTicketBalance exitDelay
        (.blank this env.sender) = .ok s) : ReachableWith env.now s ids
  | wait {now later : ℕ} {s : State} {ids : Identities} (h : ReachableWith now s ids)
      (hle : now ≤ later) : ReachableWith later s ids
  | call {env : Env} {s s' : State} {ids : Identities} {c : Call} (h : ReachableWith env.now s ids)
      (hsender : env.sender ≠ 0) (hanswers : Answers env ids) (hexec : exec env s c = .ok s') :
      ReachableWith env.now s' ids
  | transfers {now : ℕ} {s : State} {ids : Identities} {bondToken underlying : Erc20}
      (h : ReachableWith now s ids) (hbond : s.bondToken s.this ≤ bondToken s.this)
      (hunderlying : s.ticketToken.underlying s.ticketToken.this ≤ underlying s.ticketToken.this) :
      ReachableWith now { s with
        bondToken, ticketToken := { s.ticketToken with underlying } } ids
  | deploy {env : IdentityRegistry.Env} {s : State} {ids : Identities}
      {address owner verifier : Address} {σ : IdentityRegistry.State}
      (h : ReachableWith env.now s ids) (hnone : ids address = none)
      (hdeploy : IdentityRegistry.deploy env owner verifier = .ok σ) :
      ReachableWith env.now s (update ids address (some σ))
  | identity {env : IdentityRegistry.Env} {s : State} {ids : Identities} {address : Address}
      {σ σ' : IdentityRegistry.State} {c : IdentityRegistry.Call} (h : ReachableWith env.now s ids)
      (hσ : ids address = some σ) (hexec : IdentityRegistry.exec env σ c = .ok σ') :
      ReachableWith env.now s (update ids address (some σ'))

lemma capacityBooks_blank (now : ℕ) : CapacityBooks now Pool.blank.ownerHistory where
  counts := .nil now
  expiries := .nil now
  revocations := .nil now
  version_le _ := le_refl _
  unused _ _ := rfl
  occupancy := Occupancy.empty fun _ => rfl

/-- Nothing is counted when the first configuration starts. -/
lemma Present.init {this : Address} {ver : ℕ} {pool : Pool} (hids : ValidRegistries env.now ids)
    (hans : Answers env ids) (hrun : invalidateConfiguration env 0 0 .blank = .ok (ver, pool)) :
    let r : Roster := { (State.blank this env.sender).roster with
      configurationVersion := ver, pool, numActive := 0 }
    Present env.now r ids ∧ ∀ t < env.now, (r.view ids t).ownerCount = 0 := by
  have hhist := ((records_blank env.now).invalidate hrun).1
  have hpols : Policies env.now { (State.blank this env.sender).roster with
    configurationVersion := ver, pool, numActive := 0 } := .init hrun
  simp only [invalidateConfiguration, run_ok, Prod.mk.injEq] at hrun
  obtain ⟨-, -, vs, -, counts, -, l, -, p₁, hreset, -, rfl⟩ := hrun
  have hident : p₁.identity = Pool.blank.identity := (Capacity.reset_keeps hreset).1.identity
  have hrst := Capacity.reset_ok (r := { (State.blank this env.sender).roster with
    pool := { Pool.blank with eligibility := l } }) hans (capacityBooks_blank env.now) hreset
  intro r
  have hbase : Base env.now r ids := by
    refine ⟨hpols, hhist, fun _ hreq => ?_, hids⟩
    simp only [r, hident] at hreq
    cases hreq
  refine ⟨hbase.restarted hrst ?_ rfl rfl, hrst.recount.counts⟩
  simp only [Roster.view, r, hident]

lemma Present.moves (h : Present env.now r ids) (hans : Answers env ids) (hmoves : Moves env r r') :
    Present env.now r' ids ∧ Frozen env.now (r.view ids) (r'.view ids) := by
  induction hmoves with
  | refl => exact ⟨h, fun _ _ => rfl⟩
  | tail _ hmove ih =>
    obtain ⟨hpres, hfroz⟩ := ih
    obtain ⟨hpres', hfroz'⟩ := hpres.move hans hmove
    exact ⟨hpres', hfroz.trans hfroz'⟩

/-- The count was covered at every timepoint before `now`. -/
def PastCovered (now : ℕ) (V : Timeline) : Prop := ∀ t < now, V.Covered t

lemma PastCovered.frozen (h : PastCovered now V) (hfroz : Frozen now V V')
    (hpaus : ∀ t, V.PausedBefore t) : PastCovered now V' := by
  intro t ht
  exact (h t ht).congr (fun u hu => hfroz u (hu.trans_lt ht)) (hpaus t)

lemma ReachableWith.covered (h : ReachableWith now s ids) :
    Present now s.roster ids ∧ PastCovered now (s.roster.view ids) := by
  induction h with
  | @init env this owner config reg treasury minTicketBalance exitDelay s ids hids hans h =>
    obtain ⟨ver, pool, hver, hmoves⟩ := init_moves h
    obtain ⟨hpres, hzero⟩ :=
      Present.init (fun address σ hσ => (hids address σ hσ).valid) hans hver
    obtain ⟨hpres', hfroz⟩ := hpres.moves hans hmoves
    refine ⟨hpres', fun t ht _ => ?_⟩
    rw [hfroz t ht, hzero t ht]
    exact Nat.zero_le _
  | wait _ hle ih =>
    obtain ⟨hpres, hpast⟩ := ih
    refine ⟨hpres.wait hle, fun t ht => ?_⟩
    rcases Nat.lt_or_ge t _ with hold | hnew
    · exact hpast t hold
    · exact (hpres.wait hnew).covered
  | call _ hsender hans hexec ih =>
    obtain ⟨hpres, hpast⟩ := ih
    obtain ⟨hpres', hfroz⟩ := hpres.moves hans (exec_step hsender hexec).moves
    exact ⟨hpres', hpast.frozen hfroz hpres.paused⟩
  | transfers _ _ _ ih => exact ih
  | deploy _ hnone hdepl ih =>
    obtain ⟨hpres, hpast⟩ := ih
    obtain ⟨hvalid, hhist, hcnts⟩ := IdentityRegistry.deploy_ok hdepl
    obtain ⟨hpres', hfroz⟩ := hpres.deploy hnone hvalid hhist hcnts
    exact ⟨hpres', hpast.frozen hfroz hpres.paused⟩
  | identity _ hσ hexec ih =>
    obtain ⟨hpres, hpast⟩ := ih
    obtain ⟨hvalid, hevol⟩ := IdentityRegistry.exec_ok (hpres.registries _ _ hσ) hexec
    obtain ⟨hpres', hfroz⟩ := hpres.credential hσ hvalid hevol
    exact ⟨hpres', hpast.frozen hfroz hpres.paused⟩

/-- The owner capacity of a past timepoint is never more than the owners that have an eligible
operator then. -/
theorem owner_capacity_conservative {now : ℕ} {s : State} {ids : Identities}
    (h : ReachableWith now s ids) (env : Env) (hanswers : Answers env ids) (t : ℕ) (ht : t < now) :
    (t < 2 ^ 48 → ∃ n, committeeOwnerCapacity env s.pool t = .ok n) ∧
    ∀ n, committeeOwnerCapacity env s.pool t = .ok n → n ≤ Set.ncard {o | ∃ operator count,
        eligibilityAt env s.bondOwnerOf s.pool operator t = .ok (true, count) ∧
        bondOwnerAt s.bondOwnerOf s.pool operator t = .ok o} := by
  obtain ⟨hpresent, hpast⟩ := h.covered
  have hreturns := fun hlt => ownerCapacity_le (r := s.roster) (t := t) hanswers hpresent.served hlt
  refine ⟨fun hlt => (hreturns hlt).imp fun n hn => hn.1, fun n hn => ?_⟩
  have hlt : t < 2 ^ 48 := by
    simp only [committeeOwnerCapacity, bind_ok, safeUint48_ok] at hn
    obtain ⟨-, ⟨hlt, -⟩, -⟩ := hn
    exact hlt
  obtain ⟨m, hm, hcases⟩ := hreturns hlt
  obtain rfl : m = n := Except.ok.inj (hm.symm.trans hn)
  rcases hcases with rfl | ⟨hfresh, rfl⟩
  · exact Nat.zero_le _
  · have howners : (s.roster.view ids).owners t = {o | ∃ operator count,
        eligibilityAt env s.bondOwnerOf s.pool operator t = .ok (true, count) ∧
        bondOwnerAt s.bondOwnerOf s.pool operator t = .ok o} := by
      ext o
      have hquery := fun x => eligibilityAt_iff (r := s.roster) hanswers x hlt (hpresent.paused t)
      have howner := fun x => bondOwnerAt_eq (r := s.roster) ids x hlt
      simp only [Timeline.owners, Set.mem_ofPred_eq]
      constructor
      · rintro ⟨x, heligible, rfl⟩
        obtain ⟨count, hcount⟩ := (hquery x).2 heligible
        exact ⟨x, count, hcount, howner x⟩
      · rintro ⟨x, count, hcount, ho⟩
        exact ⟨x, (hquery x).1 ⟨count, hcount⟩, Except.ok.inj ((howner x).symm.trans ho)⟩
    rw [← howners]
    exact hpast t ht hfresh

lemma ReachableWith.runCalls (h : ReachableWith now s ids)
    (hcalls : ∀ x ∈ calls, x.1.sender ≠ 0 ∧ x.1.now = now ∧ Answers x.1 ids)
    (hrun : runCalls s calls = .ok s') : ReachableWith now s' ids := by
  induction calls generalizing s with
  | nil =>
    simp only [Bonding.runCalls, pure_ok] at hrun
    exact hrun ▸ h
  | cons x calls ih =>
    obtain ⟨env, c⟩ := x
    simp only [Bonding.runCalls, bind_ok] at hrun
    obtain ⟨s₁, hexec, hrun⟩ := hrun
    obtain ⟨hsender, rfl, hans⟩ := hcalls (env, c) List.mem_cons_self
    exact ih (h.call hsender hans hexec) (fun y hy => hcalls y (List.mem_cons_of_mem _ hy)) hrun

/-- A deployment without identity registries. -/
def plainEnv (sender : Address) : Env :=
  { readyEnv sender with
    isVerifiedAt := fun _ _ _ => none
    identityExpiry := fun _ _ => none
    revocationCountAt := fun _ _ => none }

lemma plainEnv_answers (sender : Address) : Answers (plainEnv sender) fun _ => none :=
  ⟨fun _ _ _ => rfl, fun _ _ => rfl, fun _ _ => rfl⟩

/-- The operator 7 of the owner 8 becomes active. -/
def oneOwnerCalls : List (Env × Call) :=
  [(plainEnv 7, .setBondOwner 8), (plainEnv 8, .bondCiphernodeFor 7 100),
    (plainEnv 9, .setSlashingManager 6), (plainEnv 8, .registerOperatorFor 7),
    (plainEnv 8, .addTicketBalanceFor 7 100)]

theorem owner_capacity_conservative_one : ∃ s₀ s,
    initializeRegistry (plainEnv 9) 9 ⟨2, 3, 10, 100, 6, 6, fun _ => 1000, fun _ => 1000⟩ 4 5 1 86400
      (.blank 1 9) = .ok s₀ ∧ runCalls s₀ oneOwnerCalls = .ok s ∧
    committeeOwnerCapacity (plainEnv 9) s.pool 1000 = .ok 1 ∧
    1 ≤ Set.ncard {o | ∃ operator count,
      eligibilityAt (plainEnv 9) s.bondOwnerOf s.pool operator 1000 = .ok (true, count) ∧
      bondOwnerAt s.bondOwnerOf s.pool operator 1000 = .ok o} := by
  have hrun : ∃ s₀ s,
      initializeRegistry (plainEnv 9) 9 ⟨2, 3, 10, 100, 6, 6, fun _ => 1000, fun _ => 1000⟩ 4 5 1
        86400 (.blank 1 9) = .ok s₀ ∧ runCalls s₀ oneOwnerCalls = .ok s ∧
      committeeOwnerCapacity (plainEnv 9) s.pool 1000 = .ok 1 := ⟨_, _, rfl, rfl, rfl⟩
  obtain ⟨s₀, s, hinit, hcalls, hcapacity⟩ := hrun
  have hreachable : ReachableWith 1000 s fun _ => none := by
    refine (ReachableWith.init (fun _ _ hσ => by cases hσ)
      (plainEnv_answers 9) hinit).runCalls ?_ hcalls
    intro x hx
    simp only [oneOwnerCalls, List.mem_cons, List.not_mem_nil, or_false] at hx
    rcases hx with rfl | rfl | rfl | rfl | rfl <;> exact ⟨by decide, rfl, plainEnv_answers _⟩
  exact ⟨s₀, s, hinit, hcalls, hcapacity, (owner_capacity_conservative
    (hreachable.wait (Nat.le_succ 1000)) (plainEnv 9) (plainEnv_answers 9) 1000
    (Nat.lt_succ_self 1000)).2 1 hcapacity⟩

end Interfold.Bonding
