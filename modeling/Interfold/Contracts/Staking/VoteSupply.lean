import Interfold.Contracts.Bonding.BondLedger
import Interfold.Contracts.Governance.BondedDelegation
import Interfold.Contracts.Staking.LockCoverage

/-!
# Votes and supply

Tokens that the registry holds carry no votes of their own, because the registry never delegates.
`BondedVotes` counts the recorded bonds in their place. The newest record of an owner is never more
than its bonds, which are in custody, so votes and recorded bonds together stay within the supply
at every time.
-/

namespace Interfold.Staking

open Transaction Checkpoints Function Fold

/-- The other contracts as `BondedVotes` reads them when the votes source is the token. -/
def views (now : ℕ) (σ : System) : BondedVotes.Views where
  escrow := 0
  pastVotes account timepoint := (σ.token.votes.getPastVotes now account timepoint).toOption
  pastBonded account timepoint :=
    (BondedCheckpoints.getPastBonded now account timepoint σ.checkpoints).toOption
  lockedBalanceAt account timestamp := (lockedBalanceAt account timestamp σ.token).toOption
  balanceOf account := some (σ.token.votes.balanceOf account)
  pastTotalSupply timepoint := (σ.token.votes.getPastTotalSupply now timepoint).toOption

/-- The registry reports to these checkpoints. -/
def Attached (sites : Sites) (σ : System) : Prop :=
  σ.bonding.bondedCheckpoints = sites.checkpoints

instance (sites : Sites) (σ : System) : Decidable (Attached sites σ) :=
  inferInstanceAs (Decidable (_ = _))

/-- The bonds of an owner that were recorded for a time. -/
def bondedAt (σ : System) (timepoint : ℕ) (owner : Address) : ℕ :=
  (σ.checkpoints.history owner).upperLookup timepoint

/-- The records of the token and of the checkpoints follow what the contracts hold. -/
structure Recorded (sites : Sites) (now : ℕ) (σ : System) : Prop where
  tallied : σ.token.votes.Tallied now
  passive : σ.token.votes.Passive σ.bonding.this
  bonding : Bonding.Reachable now σ.bonding
  ordered : ∀ owner, (σ.checkpoints.history owner).Ordered now
  mirrored : ∀ owner, BondedCheckpoints.bonded owner σ.checkpoints ≤ σ.bonding.bondedByOwner owner
  detached : ¬Attached sites σ → ∀ owner, BondedCheckpoints.bonded owner σ.checkpoints = 0

/-- What was recorded for earlier times. -/
structure SamePast (now : ℕ) (σ σ' : System) : Prop where
  token : Votes.SamePast now σ.token.votes σ'.token.votes
  bonded : ∀ timepoint < now, ∀ owner, bondedAt σ' timepoint owner = bondedAt σ timepoint owner

section

variable {sites : Sites} {now : ℕ} {σ σ' : System} {event : Event}

variable {this : Address} {bonded : Address → ℕ} {owners : List Address}
  {paid : Option Bonding.Payment} {env : Bonding.Env}

lemma report_rewrites (h : report this now bonded owners cps = .ok cps')
    (hord : ∀ owner, (cps.history owner).Ordered now) :
    Rewrites now (fun owner => if owner ∈ owners then bonded owner
      else BondedCheckpoints.bonded owner cps) cps.history cps'.history := by
  induction owners generalizing cps with
  | nil =>
    obtain rfl := pure_ok.1 h
    exact ⟨hord, fun _ _ _ => rfl, fun o => (if_neg List.not_mem_nil).symm⟩
  | cons owner owners ih =>
    simp only [report, bind_ok] at h
    obtain ⟨next, hsync, hrest⟩ := h
    have hfirst := BondedCheckpoints.sync_rewrites hsync hord
    have hsnd := hfirst.trans (ih hrest hfirst.ordered)
    refine ⟨hsnd.ordered, hsnd.past, fun o => (hsnd.latest o).trans ?_⟩
    have hnext : BondedCheckpoints.bonded o next = _ := hfirst.latest o
    simp only [hnext, update_apply, List.mem_cons]
    grind

/-- The transfer of a registry call leaves the registry passive. -/
lemma settle_passive (h : settle this now bonded token paid = .ok token')
    (hpasv : token.votes.Passive this) : token'.votes.Passive this := by
  cases paid with
  | none => rwa [← pure_ok.1 h]
  | some p =>
    obtain ⟨-, -, allowance, hspnd, h⟩ := settle_some h
    obtain ⟨votes, hvotes, _, _, rfl⟩ := balances_edits h
    have hspent : Votes.Passive this { token.votes with allowance } :=
      ⟨hpasv.delegates, (hspnd.passive hpasv.allowance).1⟩
    exact hspent.update hvotes

lemma Recorded.execToken (h : Recorded sites now σ) (hwired : Wired sites σ)
    (hnow : now < 2 ^ 48) (hsender : sender ≠ 0) (hother : sender ≠ σ.bonding.this)
    (hexec : Staking.execToken sender now call σ = .ok σ') :
    Recorded sites now σ' ∧ SamePast now σ σ' := by
  simp only [Staking.execToken, run_ok] at hexec
  obtain ⟨token, hexec, rfl⟩ := hexec
  have heffs := exec_effects hexec
  obtain ⟨htal, hpast⟩ := heffs.tallied hnow hsender h.tallied
  obtain ⟨hpasv, hle⟩ := heffs.passive hother h.passive
  refine ⟨⟨htal, hpasv, ?_, h.ordered, h.mirrored, h.detached⟩, hpast, fun _ _ _ => rfl⟩
  rw [← hwired.ledger] at hle
  exact h.bonding.transfers hle le_rfl

/-- Before and after a call, checkpoints that are not attached know of no bonds. -/
lemma Recorded.detached_move (h : Recorded sites now σ) (hwired : Wired sites σ)
    (hmove : Bonding.Stake.Move env sites.token σ.bonding.stake paid owners k')
    (hdet : k'.checkpoints ≠ sites.checkpoints) (owner : Address) :
    BondedCheckpoints.bonded owner σ.checkpoints = 0 := by
  by_cases hatt : Attached sites σ
  · rcases hmove.checkpoints_eq with hsame | hunset | hunset
    · exact absurd (hsame.trans hatt) hdet
    · exact absurd (hatt.symm.trans hunset) sites.checkpoints_ne_zero
    · have hle := h.mirrored owner
      rw [hwired.bare hunset] at hle
      exact Nat.le_zero.1 hle
  · exact h.detached hatt owner

lemma Recorded.execRegistry (h : Recorded sites env.now σ) (hwired : Wired sites σ)
    (hnow : env.now < 2 ^ 48) (hsender : env.sender ≠ 0)
    (hsuits : Bonding.Suits sites.token σ.bonding call)
    (hexec : Staking.execRegistry sites env call σ = .ok σ') :
    Recorded sites env.now σ' ∧ SamePast env.now σ σ' := by
  obtain ⟨hmove, hset, hrep⟩ := execRegistry_ok hwired hsuits hexec
  simp only [Staking.execRegistry, run_ok] at hexec
  obtain ⟨bonding, hbonding, token, -, cps, -, rfl⟩ := hexec
  have hthis : bonding.this = σ.bonding.this := hmove.this_eq
  obtain ⟨htal, hpast⟩ :=
    (settle_effects hset).tallied hnow hwired.this_ne_zero h.tallied
  have hpasv : token.votes.Passive bonding.this := by
    rw [hthis]
    exact settle_passive hset h.passive
  have hreac : Bonding.Reachable env.now bonding :=
    @Bonding.Reachable.call (answered sites env σ) _ _ _ h.bonding hsender hbonding
  rcases ite_ok.1 hrep with ⟨hatt, hrep⟩ | ⟨hdet, hrep⟩
  · have hrew := report_rewrites hrep h.ordered
    refine ⟨⟨htal, hpasv, hreac, hrew.ordered, fun owner => ?_,
      fun hnot => absurd hatt hnot⟩, hpast, hrew.past⟩
    refine (hrew.latest owner).trans_le ?_
    split_ifs with howner
    · exact le_rfl
    · have hsame : bonding.bondedByOwner owner = _ := hmove.bonded_eq howner
      exact (h.mirrored owner).trans hsame.ge
  · have hnone := h.detached_move hwired hmove hdet
    obtain rfl := pure_ok.1 hrep
    exact ⟨⟨htal, hpasv, hreac, h.ordered,
      fun owner => (hnone owner).trans_le (Nat.zero_le _), fun _ => hnone⟩, hpast,
      fun _ _ _ => rfl⟩

lemma Recorded.step (h : Recorded sites now σ) (hwired : Wired sites σ) (hnow : now < 2 ^ 48)
    (hstep : Step sites now σ event σ') : Recorded sites now σ' ∧ SamePast now σ σ' := by
  cases hstep with
  | token hsender hother hexec => exact h.execToken hwired hnow hsender hother hexec
  | registry htime hsender hsuits hexec =>
    subst htime
    exact h.execRegistry hwired hnow hsender hsuits hexec
  | underlying hled =>
    exact ⟨⟨h.tallied, h.passive, h.bonding.transfers le_rfl hled, h.ordered, h.mirrored,
      h.detached⟩, .refl .., fun _ _ _ => rfl⟩

end

/-! ## The bound -/

/-- Votes and recorded bonds of a time are within the supply of that time. -/
def Backed (σ : System) (timepoint : ℕ) : Prop :=
  ∑ d, σ.token.votes.votesAt timepoint d + ∑ owner, bondedAt σ timepoint owner ≤
    σ.token.votes.supplyAt timepoint

section

variable {sites : Sites} {permitted : System → System → Prop} {now tp : ℕ} {σ σ' : System}

/-- The present: what the registry holds backs the bonds and carries no votes. -/
lemma Recorded.backed (h : Recorded sites now σ) (hwired : Wired sites σ)
    (hle : now ≤ tp) : Backed σ tp := by
  have hvotes : ∀ d, σ.token.votes.votesAt tp d = _ :=
    fun d => (h.tallied.ordered d).lookup_latest hle
  have hbonded : ∀ owner, bondedAt σ tp owner = _ :=
    fun owner => (h.ordered owner).lookup_latest hle
  have hsupp : σ.token.votes.supplyAt tp = _ :=
    h.tallied.totalOrdered.lookup_latest hle
  have hcust := h.bonding.sum_bondedByOwner_le
  rw [hwired.ledger] at hcust
  unfold Backed
  simp only [hvotes, hbonded, hsupp]
  calc ∑ d, (σ.token.votes.delegateCheckpoints d).latest +
        ∑ owner, (σ.checkpoints.history owner).latest
      ≤ ∑ d, (σ.token.votes.delegateCheckpoints d).latest +
        ∑ owner, σ.bonding.bondedByOwner owner :=
        Nat.add_le_add_left (Finset.sum_le_sum fun owner _ => h.mirrored owner) _
    _ ≤ ∑ d, (σ.token.votes.delegateCheckpoints d).latest +
        σ.token.votes.balanceOf σ.bonding.this := Nat.add_le_add_left hcust _
    _ ≤ σ.token.votes.totalCheckpoints.latest := h.passive.sum_latest_add_le h.tallied

lemma SamePast.backed (h : SamePast now σ σ') (hlt : tp < now)
    (hback : Backed σ tp) : Backed σ' tp := by
  unfold Backed at hback ⊢
  simp only [h.token.votes tp hlt, h.bonded tp hlt, h.token.supply tp hlt]
  exact hback

lemma Deployed.recorded (h : Deployed sites now σ) : Recorded sites now σ ∧ ∀ tp, Backed σ tp := by
  obtain ⟨owner, ccaStart, ccaEnd, noMoreLocks, htoken⟩ := h.token
  simp only [deploy, run_ok] at htoken
  obtain ⟨-, -, -, -, -, -, -, -, -, -, -, -, -, -, htoken⟩ := htoken
  have hvotes : σ.token.votes = .blank := by rw [← htoken]
  have hcps := h.checkpoints
  simp only [BondedCheckpoints.deploy, run_ok] at hcps
  obtain ⟨-, -, hcps⟩ := hcps
  have hhist : σ.checkpoints.history = fun _ => [] := by rw [← hcps]
  have hnone : ∀ owner, BondedCheckpoints.bonded owner σ.checkpoints = 0 := by
    intro owner
    rw [BondedCheckpoints.bonded, hhist]
    rfl
  refine ⟨⟨hvotes ▸ .blank now, hvotes ▸ ⟨rfl, fun _ => rfl⟩, h.bonding, fun owner => ?_,
    fun owner => (hnone owner).trans_le (Nat.zero_le _), fun _ => hnone⟩, fun tp => ?_⟩
  · rw [hhist]
    exact .nil now
  · have hzero : ∀ d, σ.token.votes.votesAt tp d = 0 := by
      intro d
      rw [hvotes]
      rfl
    have hzero' : ∀ owner, bondedAt σ tp owner = 0 := by
      intro owner
      rw [bondedAt, hhist]
      rfl
    unfold Backed
    simp [hzero, hzero']

lemma Recorded.mono (h : Recorded sites now σ) (hle : now ≤ later) : Recorded sites later σ :=
  ⟨h.tallied.mono hle, h.passive, h.bonding.wait hle, fun owner => (h.ordered owner).mono hle,
    h.mirrored, h.detached⟩

/-- Every step records at the present time only, so the bound that holds at each present stays. -/
lemma Reachable.recorded (h : Reachable sites permitted now σ) (hnow : now < 2 ^ 48) :
    Recorded sites now σ ∧ ∀ tp, Backed σ tp := by
  induction h with
  | deploy h => exact h.recorded
  | wait _ hle ih =>
    obtain ⟨hrec, hback⟩ := ih (hle.trans_lt hnow)
    exact ⟨hrec.mono hle, hback⟩
  | @step now σ σ' event h hstep _ ih =>
    obtain ⟨hrec, hback⟩ := ih hnow
    obtain ⟨hrec', hpast⟩ := hrec.step h.wired hnow hstep
    refine ⟨hrec', fun tp => ?_⟩
    by_cases hlt : tp < now
    · exact hpast.backed hlt (hback tp)
    · exact hrec'.backed (h.wired.step hstep) (Nat.le_of_not_lt hlt)

end

/-! ## Owners that were touched -/

/-- The owners that a transaction reports to the checkpoints. -/
def reported (σ : System) : Event → List Address
  | .registry env call => Bonding.synced env σ.bonding call
  | _ => []

/-- Since the checkpoints were attached, a transaction changed or reported the bonds of the
owner. -/
inductive Touched (sites : Sites) (owner : Address) : ℕ → System → Prop
  | touch (h : Reachable sites (fun _ _ => True) now σ) (hbefore : Attached sites σ)
      (hstep : Step sites now σ event σ') (hafter : Attached sites σ')
      (htouch : owner ∈ reported σ event ∨
        σ'.bonding.bondedByOwner owner ≠ σ.bonding.bondedByOwner owner) :
      Touched sites owner now σ'
  | wait (h : Touched sites owner now σ) (hle : now ≤ later) : Touched sites owner later σ
  | step {now : ℕ} {σ σ' : System} {event : Event} (h : Touched sites owner now σ)
      (hstep : Step sites now σ event σ') (hafter : Attached sites σ') : Touched sites owner now σ'

section

variable {sites : Sites} {now : ℕ} {σ σ' : System} {event : Event} {owner : Address}

lemma Touched.reachable (h : Touched sites owner now σ) :
    Reachable sites (fun _ _ => True) now σ := by
  induction h with
  | touch h _ hstep _ _ => exact h.step hstep trivial
  | wait _ hle ih => exact ih.wait hle
  | step _ hstep _ ih => exact ih.step hstep trivial

/-- While the checkpoints are attached, a transaction mirrors the bonds of an owner or leaves both
records alone. -/
lemma Recorded.mirrors (h : Recorded sites now σ) (hwired : Wired sites σ)
    (hstep : Step sites now σ event σ') (hafter : Attached sites σ') :
    BondedCheckpoints.bonded owner σ'.checkpoints = σ'.bonding.bondedByOwner owner ∨
      owner ∉ reported σ event ∧
      BondedCheckpoints.bonded owner σ'.checkpoints = BondedCheckpoints.bonded owner σ.checkpoints ∧
      σ'.bonding.bondedByOwner owner = σ.bonding.bondedByOwner owner := by
  cases hstep with
  | token _ _ hexec =>
    simp only [Staking.execToken, run_ok] at hexec
    obtain ⟨token, -, rfl⟩ := hexec
    exact .inr ⟨List.not_mem_nil, rfl, rfl⟩
  | underlying _ => exact .inr ⟨List.not_mem_nil, rfl, rfl⟩
  | registry htime _ hsuits hexec =>
    subst htime
    obtain ⟨hmove, -, hrep⟩ := execRegistry_ok hwired hsuits hexec
    have hafter : σ'.bonding.bondedCheckpoints = sites.checkpoints := hafter
    rw [if_pos hafter] at hrep
    have hlat := (report_rewrites hrep h.ordered).latest owner
    split_ifs at hlat with howner
    · exact .inl hlat
    · exact .inr ⟨howner, hlat, hmove.bonded_eq howner⟩

lemma Touched.mirrored (h : Touched sites owner now σ) (hnow : now < 2 ^ 48) :
    BondedCheckpoints.bonded owner σ.checkpoints = σ.bonding.bondedByOwner owner := by
  induction h with
  | touch h _ hstep hafter htouch =>
    rcases (h.recorded hnow).1.mirrors h.wired hstep hafter with hsame | ⟨hnot, -, hkept⟩
    · exact hsame
    · exact absurd htouch (not_or.2 ⟨hnot, not_not.2 hkept⟩)
  | wait _ hle ih => exact ih (hle.trans_lt hnow)
  | step h hstep hafter ih =>
    have hreach := h.reachable
    rcases (hreach.recorded hnow).1.mirrors hreach.wired hstep hafter with
      hsame | ⟨-, hlat, hkept⟩
    · exact hsame
    · exact hlat.trans ((ih hnow).trans hkept.symm)

end

/-! ## Bonded votes -/

section

variable {now tp : ℕ}

lemma views_pastVotes (hnow : now < 2 ^ 48) (ht : tp < now) (σ : System) (acct : Address) :
    (views now σ).pastVotes acct tp = some (σ.token.votes.votesAt tp acct) :=
  congrArg Except.toOption (Votes.pastVotes_returns hnow ht σ.token.votes acct)

lemma views_pastTotalSupply (hnow : now < 2 ^ 48) (ht : tp < now) (σ : System) :
    (views now σ).pastTotalSupply tp = some (σ.token.votes.supplyAt tp) :=
  congrArg Except.toOption (Votes.pastSupply_returns hnow ht σ.token.votes)

/-- Without an escrow the bonded weight of an owner is what was recorded for it. -/
lemma views_bondedWeight (hnow : now < 2 ^ 48) (ht : tp < now)
    (hfits : bondedAt σ tp owner < wordSize) :
    BondedVotes.bondedWeight (views now σ) owner tp = .ok (bondedAt σ tp owner) := by
  have hbonded : (views now σ).pastBonded owner tp = some (bondedAt σ tp owner) :=
    congrArg Except.toOption (BondedCheckpoints.pastBonded_returns hnow ht owner σ.checkpoints)
  simp only [BondedVotes.bondedWeight, hbonded, external, run_ok]
  refine ⟨_, rfl, (), by omega, 0, rfl, hfits, rfl⟩

end

/-- With the token as the votes source, the votes of all accounts at a time that is over can be
read and are at most the supply of that time, and the newest record of every owner touched since
the checkpoints were attached is its bonded total. `BondedVotes` only reads the other contracts,
so its calls and theirs can be interleaved in any way. -/
theorem votes_le_supply {sites : Sites} {now t : ℕ} {σ : System} {s : BondedVotes.State}
    (hnow : now < 2 ^ 48) (h : Reachable sites (fun _ _ => True) now σ)
    (hs : BondedVotes.Reachable now s) (ht : t < now) : (∃ (votes : Address → ℕ) (supply : ℕ),
      (∀ account, BondedVotes.getPastVotes (views now σ) now account t s = .ok (votes account)) ∧
      BondedVotes.getPastTotalSupply (views now σ) t = .ok supply ∧
      ∑ account, votes account ≤ supply) ∧
    ∀ owner, Touched sites owner now σ →
      BondedCheckpoints.bonded owner σ.checkpoints = σ.bonding.bondedByOwner owner := by
  refine ⟨?_, fun owner htouched => htouched.mirrored hnow⟩
  obtain ⟨hrecorded, hbacked⟩ := h.recorded hnow
  have hsound := hs.sound hnow
  have hbound := hbacked t
  have hsupply := hrecorded.tallied.bounded t
  unfold Backed at hbound
  have hweight : ∀ owner, BondedVotes.bondedWeight (views now σ) owner t =
      .ok (bondedAt σ t owner) := by
    intro owner
    have hle := Ledger.le_sum (bondedAt σ t) owner
    exact views_bondedWeight hnow ht (by unfold wordSize; omega)
  -- Each account's votes are part of the bound, so no addition overflows.
  have hreturns : ∀ account, ∃ total,
      BondedVotes.getPastVotes (views now σ) now account t s = .ok total := by
    intro account
    refine BondedVotes.pastVotes_returns hnow ht (views_pastVotes hnow ht σ account) hweight ?_
    intro hin
    have hcounted : ∀ owner, (BondedVotes.assignmentAt s t).counted account owner *
        bondedAt σ t owner ≤ bondedAt σ t owner := by
      intro owner
      have hone := (Ledger.le_sum (fun a => BondedVotes.countedAt s t a owner) account).trans
        (hsound.sum_countedAt_le t owner)
      simp only [BondedVotes.countedAt, hin, Bool.false_eq_true, if_false] at hone
      exact (Nat.mul_le_mul_right _ hone).trans (Nat.one_mul _).le
    have hsum := Finset.sum_le_sum fun owner (_ : owner ∈ Finset.univ) => hcounted owner
    have hown := Ledger.le_sum (σ.token.votes.votesAt t) account
    unfold wordSize
    omega
  choose votes hvotes using hreturns
  refine ⟨votes, _, hvotes, external_ok.2 (views_pastTotalSupply hnow ht σ), ?_⟩
  have hsum := hsound.sum_pastVotes_le hnow hvotes
  simp only [views_pastVotes hnow ht, Option.getD_some,
    fun owner => BondedVotes.weightAt_of_ok (hweight owner)] at hsum
  exact hsum.trans hbound

/-- Account 5 gets 10 tokens and may bond for operator 6; the registry reports to the
checkpoints. -/
def reportingCalls : List (Address × (Fold.Call ⊕ Bonding.Call)) :=
  [(9, .inl (.createLockPolicy 7 ⟨0, ⟨.absolute, 5000000, 1, 0⟩⟩)),
    (9, .inl (.mintAllocations [⟨5, 10, 7⟩])),
    (5, .inl (.approve 1 10)),
    (6, .inr (.setBondOwner 5)),
    (9, .inr (.setBondedCheckpoints 8))]

lemma Reachable.permit (h : Reachable sites permitted now σ) :
    Reachable sites (fun _ _ => True) now σ := by
  induction h with
  | deploy h => exact .deploy h
  | wait _ hle ih => exact ih.wait hle
  | step _ hstep _ ih => exact ih.step hstep trivial

/-- Account 5 bonds its 10 tokens and votes with them. -/
theorem votes_le_supply_bonded : ∃ σ s, Reachable sampleSites (fun _ _ => True) 1001 σ ∧
    BondedVotes.Reachable 1001 s ∧ Touched sampleSites 5 1001 σ ∧
    BondedVotes.getPastVotes (views 1001 σ) 1001 5 1000 s = .ok 10 ∧
    BondedVotes.getPastTotalSupply (views 1001 σ) 1000 = .ok 10 ∧
    (∃ votes : Address → ℕ,
      (∀ account, BondedVotes.getPastVotes (views 1001 σ) 1001 account 1000 s =
        .ok (votes account)) ∧ ∑ account, votes account ≤ 10) ∧
    BondedCheckpoints.bonded 5 σ.checkpoints = σ.bonding.bondedByOwner 5 := by
  obtain ⟨σ₀, hσ₀, σ₁, hrun, hattached, hnone, σ, hbond, hattached', hbonded, s, hs, hvotes,
      hsupply⟩ :
      ∃ σ₀, sampleSystem = .ok σ₀ ∧ ∃ σ₁, runSample 1000 reportingCalls σ₀ = .ok σ₁ ∧
      Attached sampleSites σ₁ ∧ σ₁.bonding.bondedByOwner 5 = 0 ∧
      ∃ σ, execRegistry sampleSites (Bonding.deploymentEnv 5 1000) (.bondCiphernodeFor 6 10) σ₁ =
        .ok σ ∧ Attached sampleSites σ ∧ σ.bonding.bondedByOwner 5 = 10 ∧
      ∃ s, BondedVotes.deploy [9] = .ok s ∧
      BondedVotes.getPastVotes (views 1001 σ) 1001 5 1000 s = .ok 10 ∧
      BondedVotes.getPastTotalSupply (views 1001 σ) 1000 = .ok 10 :=
    ⟨_, rfl, _, rfl, rfl, rfl, _, rfl, rfl, rfl, _, rfl, rfl, rfl⟩
  have hready := ((Reachable.deploy (sampleSystem_deployed hσ₀)).runSample
    (by simp [reportingCalls]) hrun).permit
  have hstep : Step sampleSites 1000 σ₁
      (.registry (Bonding.deploymentEnv 5 1000) (.bondCiphernodeFor 6 10)) σ :=
    .registry rfl (by decide) trivial hbond
  have htouched : Touched sampleSites 5 1001 σ := by
    refine .wait (.touch hready hattached hstep hattached' (.inr ?_)) (Nat.le_succ 1000)
    rw [hbonded, hnone]
    decide
  have hvoting : BondedVotes.Reachable 1001 s := ⟨[9], 1001, s, hs, .refl 1001 s⟩
  obtain ⟨⟨votes, supply, hall, htotal, hle⟩, hmirror⟩ :=
    votes_le_supply (by decide) htouched.reachable hvoting (Nat.lt_succ_self 1000)
  obtain rfl : 10 = supply := Except.ok.inj (hsupply.symm.trans htotal)
  exact ⟨σ, s, htouched.reachable, hvoting, htouched, hvotes, hsupply, ⟨votes, hall, hle⟩,
    hmirror 5 htouched⟩

end Interfold.Staking
