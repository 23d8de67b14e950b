import Interfold.Contracts.Staking.Wiring

/-!
# Lock coverage

Bonding moves tokens between an owner and the registry and bonds by the same amount, so what an
owner holds and has bonded together is unchanged. A change of the bond owner is checked against the
locks of the previous one.
-/

namespace Interfold.Staking

open Transaction Function Fold

section

variable {sites : Sites} {now : ℕ} {σ σ' : System} {event : Event}

/-- The amount that a step claims or allocates for an account. -/
def granted (σ : System) : Event → Address → ℕ
  | .token sender call => Fold.granted sender σ.token call
  | .registry env call =>
    (Bonding.payment env σ.bonding call).elim 0 fun p =>
      claimed p.sender p.recipient p.amount σ.token
  | .underlying _ => 0

/-- Every step is a sequence of effects on the token. -/
lemma step_effects (hwired : Wired sites σ) (hstep : Step sites now σ event σ') :
    ∃ env : Env, env.now = now ∧ Effects env σ.token (granted σ event) σ'.token := by
  cases hstep with
  | @token _ sender call _ _ h =>
    simp only [execToken, run_ok] at h
    obtain ⟨token, hexec, rfl⟩ := h
    exact ⟨tokenEnv sender now σ.bonding.bondedByOwner, rfl, exec_effects hexec⟩
  | registry hnow _ hsuits h =>
    obtain ⟨-, hset, -⟩ := execRegistry_ok hwired hsuits h
    exact ⟨_, hnow, settle_effects hset⟩
  | underlying _ => exact ⟨tokenEnv 0 now fun _ => 0, rfl, .done _⟩

lemma Deployed.settled (h : Deployed sites now σ) : Settled σ.token := by
  obtain ⟨o, ccaStart, ccaEnd, noMoreLocks, htoken⟩ := h.token
  simp only [deploy, run_ok] at htoken
  obtain ⟨-, -, -, -, -, -, -, -, -, -, -, -, -, -, htoken⟩ := htoken
  rw [← htoken]
  exact ⟨fun _ => by simp [Under], fun _ => by simp [Under]⟩

lemma Reachable.settled (h : Reachable sites permitted now σ) : Settled σ.token := by
  induction h with
  | deploy h => exact h.settled
  | wait _ _ ih => exact ih
  | step hreach hstep _ ih =>
    obtain ⟨env, -, heffs⟩ := step_effects hreach.wired hstep
    exact heffs.settled ih

/-- The locks are covered by what the accounts hold and have bonded. -/
def System.Covered (now : ℕ) (σ : System) : Prop :=
  Fold.Covered σ.bonding.bondedByOwner now σ.token

variable {bonded : Address → ℕ} {this : Address} {token token' : Fold.State} {amount : ℕ}

lemma covered_mono (h : Fold.Covered bonded now s) (hle : ∀ a, bonded a ≤ bonded' a) :
    Fold.Covered bonded' now s :=
  fun a => (h a).trans (Nat.add_le_add_left (hle a) _)

/-- What the token does for a registry call. -/
lemma settle_transfers (hnow : now < 2 ^ 64)
    (h : settle this now bonded token (some p) = .ok token') :
    Transfers (tokenEnv this now bonded) bonded p.sender p.recipient p.amount token token' := by
  obtain ⟨hsender, hrcpt, allowance, -, h⟩ := settle_some h
  have htrs := balances_transfers hnow rfl hsender hrcpt h
  exact ⟨htrs.held, htrs.balance, htrs.locked, htrs.spent⟩

/-- An exit claim returns to the owner what it takes from the bonds. -/
lemma covered_exit (hsrc : token.claimSource ≠ this) (hother : o ≠ this)
    (hheld : amount ≤ bonded o) (hcov : Fold.Covered bonded now token)
    (ht : Transfers (tokenEnv this now (update bonded o (bonded o - amount)))
      (update bonded o (bonded o - amount)) this o amount token token') :
    Fold.Covered (update bonded o (bonded o - amount)) now token' := by
  have hnone : ∀ a, claimed this o amount token a = 0 := by
    intro a
    unfold claimed isClaim
    grind
  intro a
  have ha := hcov a
  have hlock : token'.locked now a ≤ token.locked now a + _ := ht.locked a
  rw [hnone, Nat.add_zero] at hlock
  rw [ht.balance]
  unfold Erc20.move
  by_cases howner : a = o
  · subst howner
    rw [update_self, update_self, update_of_ne hother]
    omega
  · rw [update_of_ne howner, update_of_ne howner]
    by_cases hthis : a = this
    · subst hthis
      have hspent := ht.spent
      have hamount := ht.held
      simp only [tokenEnv, update_of_ne howner] at hspent
      rw [update_self]
      rcases hspent ha with hzero | hspent
      · rw [hzero]
        exact Nat.zero_le _
      · omega
    · rw [update_of_ne hthis]
      omega

/-- The locks of the previous owner are checked when bonds change hands. -/
lemma covered_reassign (env : Bonding.Env) (hwired : Wired sites σ) (hnow : env.now < 2 ^ 64)
    (hcov : σ.Covered env.now) (hheld : amount ≤ σ.bonding.bondedByOwner old)
    (hlock : amount = 0 ∨ ∃ locked, (answered sites env σ).lockedBalanceOf
        σ.bonding.bondTokenAddress old = some locked ∧
      locked ≤ σ.bonding.bondToken old + (σ.bonding.bondedByOwner old - amount)) :
    Fold.Covered (update (update σ.bonding.bondedByOwner old
        (σ.bonding.bondedByOwner old - amount)) env.sender
      (update σ.bonding.bondedByOwner old (σ.bonding.bondedByOwner old - amount)
        env.sender + amount)) env.now σ.token := by
  have hprev : σ.token.locked env.now old ≤ σ.token.votes.balanceOf old +
      (σ.bonding.bondedByOwner old - amount) := by
    rcases hlock with rfl | ⟨locked, hans, hle⟩
    · exact hcov old
    · rcases hwired.asset with hunset | htoken
      · have hle := hcov old
        rw [hwired.bare hunset] at hle
        exact hle.trans (Nat.add_le_add_left (Nat.zero_le _) _)
      · simp only [answered, htoken, update_self] at hans
        rw [hwired.ledger] at hle
        cases hrun : Fold.lockedBalanceOf env.now old σ.token with
        | error _ =>
          rw [hrun] at hans
          cases hans
        | ok n =>
          rw [hrun] at hans
          obtain rfl : n = locked := Option.some.inj hans
          rwa [lockedBalanceOf_ok hnow hrun] at hle
  intro a
  have ha := hcov a
  by_cases hnew : a = env.sender
  · subst hnew
    rw [update_self]
    by_cases hold : env.sender = old
    · subst hold
      rw [update_self]
      omega
    · rw [update_of_ne hold]
      omega
  · rw [update_of_ne hnew]
    by_cases hold : a = old
    · subst hold
      rw [update_self]
      exact hprev
    · rw [update_of_ne hold]
      exact ha

/-- A step that slashes no bond keeps the locks covered, unless the registry is the claim
source. -/
lemma System.Covered.step (hcov : σ.Covered now) (hwired : Wired sites σ)
    (hsettled : Settled σ.token) (hnow : now < 2 ^ 64)
    (hsrc : σ.token.claimSource ≠ σ.bonding.this) (hstep : Step sites now σ event σ')
    (hspar : σ'.bonding.slashedCiphernodeBond ≤ σ.bonding.slashedCiphernodeBond) :
    σ'.Covered now := by
  cases hstep with
  | token _ _ h =>
    simp only [execToken, run_ok] at h
    obtain ⟨token, hexec, rfl⟩ := h
    exact (exec_effects hexec).covered hsettled hnow (fun _ => rfl) hcov
  | @registry _ env call henv _ hsuits h =>
    subst henv
    obtain ⟨hmove, hset, -⟩ := execRegistry_ok hwired hsuits h
    unfold System.Covered
    have hbonded : σ'.bonding.bondedByOwner = σ'.bonding.stake.bonded := rfl
    have hslas : σ'.bonding.slashedCiphernodeBond = σ'.bonding.stake.slashed := rfl
    rw [hslas] at hspar
    rw [hbonded] at hset ⊢
    generalize Bonding.payment env σ.bonding call = paid at hmove hset
    generalize Bonding.synced env σ.bonding call = owners at hmove
    generalize σ'.bonding.stake = k' at hmove hset hspar ⊢
    cases hmove with
    | keep | install _ | attach _ =>
      rw [← pure_ok.1 hset]
      exact hcov
    | @bond amount _ _ =>
      have hle : ∀ a, σ.bonding.bondedByOwner a ≤ update σ.bonding.bondedByOwner env.sender
          (σ.bonding.bondedByOwner env.sender + amount) a := by
        intro a
        by_cases ha : a = env.sender
        · subst ha
          rw [update_self]
          exact Nat.le_add_right ..
        · rw [update_of_ne ha]
      exact (settle_transfers hnow hset).covered (covered_mono hcov hle)
    | exit hother hheld =>
      exact covered_exit hsrc hother hheld hcov (settle_transfers hnow hset)
    | pay _ => exact (settle_transfers hnow hset).covered hcov
    | reassign hheld hlock =>
      rw [← pure_ok.1 hset]
      exact covered_reassign env hwired hnow hcov hheld hlock
    | @slash o amount _ =>
      rw [← pure_ok.1 hset]
      have hzero : amount = 0 := by
        have hle : σ.bonding.slashedCiphernodeBond + amount ≤ _ := hspar
        omega
      subst hzero
      simp only [Nat.sub_zero, update_eq_self]
      exact hcov
  | underlying _ => exact hcov

lemma Deployed.covered (h : Deployed sites now σ) : σ.Covered now := by
  obtain ⟨o, ccaStart, ccaEnd, noMoreLocks, htoken⟩ := h.token
  simp only [deploy, run_ok] at htoken
  obtain ⟨-, -, -, -, -, -, -, -, -, -, -, -, -, -, htoken⟩ := htoken
  intro a
  have hnone : σ.token.locked now a = 0 := by
    rw [← htoken]
    exact ite_self 0
  rw [hnone]
  exact Nat.zero_le _

/-- No bond is slashed. -/
def Unslashed (σ σ' : System) : Prop :=
  σ'.bonding.slashedCiphernodeBond ≤ σ.bonding.slashedCiphernodeBond

lemma Reachable.covered (h : Reachable sites Unslashed now σ) (hnow : now < 2 ^ 64)
    (hsrc : σ.token.claimSource ≠ σ.bonding.this) : σ.Covered now := by
  induction h with
  | deploy h => exact h.covered
  | wait h hle ih =>
    intro a
    exact (locked_antitone hle a).trans (ih (hle.trans_lt hnow) hsrc a)
  | @step now σ σ' event h hstep hspar ih =>
    -- The claim source was unset or the same before the step.
    have hbef : σ.token.claimSource ≠ σ.bonding.this := by
      obtain ⟨env, -, heffs⟩ := step_effects h.wired hstep
      have hwired := h.wired
      have hfixed := heffs.fixed
      rcases hfixed.claimSource with hunset | hsame
      · rw [hunset]
        exact hwired.this_ne_zero.symm
      · rw [← hsame, ← hwired.registry, ← hfixed.bondingRegistry, (hwired.step hstep).registry]
        exact hsrc
    exact (ih hnow hbef).step h.wired h.settled hnow hbef hstep hspar

/-- While no bond is slashed, what an account holds and has bonded covers what it has locked, unless
the registry itself is the claim source. Locks grow only by the claims and allocations of a step,
they never grow with time, and they end. -/
theorem lock_coverage (hnow : now < 2 ^ 64) (h : Reachable sites Unslashed now σ) :
    (σ.token.claimSource ≠ σ.bonding.this → ∀ a locked, lockedBalanceOf now a σ.token = .ok locked →
      locked ≤ σ.token.votes.balanceOf a + σ.bonding.bondedByOwner a) ∧
    (∀ event σ', Step sites now σ event σ' → ∀ a before after,
      lockedBalanceOf now a σ.token = .ok before → lockedBalanceOf now a σ'.token = .ok after →
      after ≤ before + granted σ event a) ∧
    (∀ later a before after, now ≤ later → later < 2 ^ 64 →
      lockedBalanceOf now a σ.token = .ok before → lockedBalanceOf later a σ.token = .ok after →
      after ≤ before) ∧
    (∀ a, σ.token.noMoreLocks ≤ now → lockedBalanceOf now a σ.token = .ok 0) ∧
    ∀ a, ((σ.token.locks a).map Lock.amount).sum < 2 ^ 192 →
      ∃ locked, lockedBalanceOf now a σ.token = .ok locked := by
  refine ⟨?_, ?_, ?_, ?_, ?_⟩
  · intro hsource a locked hlocked
    rw [lockedBalanceOf_ok hnow hlocked]
    exact h.covered hnow hsource a
  · intro event σ' hstep a before after hbefore hafter
    obtain ⟨env, rfl, heffects⟩ := step_effects h.wired hstep
    rw [lockedBalanceOf_ok hnow hbefore, lockedBalanceOf_ok hnow hafter]
    exact heffects.locked_le h.settled hnow a
  · intro later a before after hle hlater hbefore hafter
    rw [lockedBalanceOf_ok hnow hbefore, lockedBalanceOf_ok hlater hafter]
    exact locked_antitone hle a
  · intro a hend
    rw [lockedBalanceOf, toUint64, Nat.mod_eq_of_lt hnow, lockedBalanceAt, if_pos hend]
    rfl
  · intro a hsmall
    exact ⟨_, lockedBalanceOf_returns hnow hsmall⟩

end

/-! ## A small deployment -/

/-- The registry is at address 1, the tickets at 2 and the token at 3. -/
def sampleSites : Sites := ⟨3, 8, by decide, by decide⟩

/-- A registry and a token that were just deployed by account 9. -/
def sampleSystem : Tx System := do
  let bonding ← Bonding.initializeRegistry (Bonding.deploymentEnv 9 1000) 9
    ⟨2, 3, 10, 100, 6, 6, fun _ => 1000, fun _ => 0⟩ 4 5 1 86400 (.blank 1 9)
  let token ← Fold.deploy 1000 9 2000 3000 10000000000 bonding.this true
  let checkpoints ← BondedCheckpoints.deploy bonding.this
  pure ⟨token, bonding, checkpoints⟩

/-- Calls of the token and of the registry at one time, as long as no bond is slashed. -/
def runSample (now : ℕ) : List (Address × (Fold.Call ⊕ Bonding.Call)) → System → Tx System
  | [], σ => pure σ
  | (sender, .inl call) :: calls, σ => do
    require (sender ≠ 0 ∧ sender ≠ σ.bonding.this) .unauthorized
    let σ ← execToken sender now call σ
    runSample now calls σ
  | (sender, .inr call) :: calls, σ => do
    require (sender ≠ 0) .unauthorized
    let σ' ← execRegistry sampleSites (Bonding.deploymentEnv sender now) call σ
    require (σ'.bonding.slashedCiphernodeBond ≤ σ.bonding.slashedCiphernodeBond) .unauthorized
    runSample now calls σ'

variable {σ : System}

lemma sampleSystem_deployed (h : sampleSystem = .ok σ) : Deployed sampleSites 1000 σ := by
  obtain ⟨b, hb, hasset, hled, hbonded⟩ : ∃ b, Bonding.initializeRegistry
      (Bonding.deploymentEnv 9 1000) 9 ⟨2, 3, 10, 100, 6, 6, fun _ => 1000, fun _ => 0⟩ 4 5 1 86400
      (.blank 1 9) = .ok b ∧ b.bondTokenAddress = 3 ∧ b.bondToken = (fun _ => 0) ∧
      b.bondedByOwner = fun _ => 0 := ⟨_, rfl, rfl, rfl, rfl⟩
  simp only [sampleSystem, hb, ok_bind, run_ok] at h
  obtain ⟨token, htoken, checkpoints, hcps, rfl⟩ := h
  exact ⟨.init hb, ⟨_, _, _, _, htoken⟩, hcps, .inr hasset, hled, hbonded⟩

lemma Reachable.runSample (h : Reachable sampleSites Unslashed now σ)
    (hcalls : ∀ sender config, (sender, .inr (.setBondingAssetConfig config)) ∉ calls)
    (hrun : Staking.runSample now calls σ = .ok σ') : Reachable sampleSites Unslashed now σ' := by
  induction calls generalizing σ with
  | nil => exact pure_ok.1 hrun ▸ h
  | cons x calls ih =>
    have hrest : ∀ sender config, (sender, .inr (.setBondingAssetConfig config)) ∉ calls :=
      fun sender config hmem => hcalls sender config (List.mem_cons_of_mem _ hmem)
    obtain ⟨sender, call | call⟩ := x
    · simp only [Staking.runSample, run_ok] at hrun
      obtain ⟨-, hsender, σ₁, hexec, hrun⟩ := hrun
      refine ih (h.step (.token hsender.1 hsender.2 hexec) ?_) hrest hrun
      simp only [execToken, run_ok] at hexec
      obtain ⟨_, -, rfl⟩ := hexec
      exact le_rfl
    · simp only [Staking.runSample, run_ok] at hrun
      obtain ⟨-, hsender, σ₁, hexec, -, hspar, hrun⟩ := hrun
      refine ih (h.step (.registry rfl hsender ?_ hexec) hspar) hrest hrun
      cases call with
      | setBondingAssetConfig config => exact absurd List.mem_cons_self (hcalls sender config)
      | _ => trivial

/-- Account 5 gets 10 locked tokens and bonds them for operator 6. -/
def sampleCalls : List (Address × (Fold.Call ⊕ Bonding.Call)) :=
  [(9, .inl (.createLockPolicy 7 ⟨0, ⟨.absolute, 5000000, 1, 0⟩⟩)),
    (9, .inl (.mintAllocations [⟨5, 10, 7⟩])),
    (5, .inl (.approve 1 10)),
    (6, .inr (.setBondOwner 5)),
    (5, .inr (.bondCiphernodeFor 6 10))]

/-- All that account 5 has locked is bonded. -/
theorem lock_coverage_bonded : ∃ σ, Reachable sampleSites Unslashed 1000 σ ∧
    σ.token.votes.balanceOf 5 = 0 ∧ lockedBalanceOf 1000 5 σ.token = .ok 10 ∧
    10 ≤ σ.token.votes.balanceOf 5 + σ.bonding.bondedByOwner 5 := by
  obtain ⟨σ₀, hσ₀, σ, hrun, hsource, hbalance, hlocked⟩ : ∃ σ₀, sampleSystem = .ok σ₀ ∧
      ∃ σ, runSample 1000 sampleCalls σ₀ = .ok σ ∧ σ.token.claimSource ≠ σ.bonding.this ∧
      σ.token.votes.balanceOf 5 = 0 ∧ lockedBalanceOf 1000 5 σ.token = .ok 10 :=
    ⟨_, rfl, _, rfl, by decide, rfl, rfl⟩
  have hreach := (Reachable.deploy (sampleSystem_deployed hσ₀)).runSample
    (by simp [sampleCalls]) hrun
  exact ⟨σ, hreach, hbalance, hlocked, (lock_coverage (by decide) hreach).1 hsource 5 10 hlocked⟩

/-- With the registry as the claim source, an exit claim locks the tokens a second time. -/
theorem exit_claim_locks_again : ∃ σ, Reachable sampleSites Unslashed 90000 σ ∧
    lockedBalanceOf 90000 5 σ.token = .ok 20 ∧ σ.token.votes.balanceOf 5 = 10 ∧
    σ.bonding.bondedByOwner 5 = 0 := by
  obtain ⟨σ₀, hσ₀, σ₁, hbond, σ, hexit, hlocked, hbalance, hbonded⟩ :
      ∃ σ₀, sampleSystem = .ok σ₀ ∧ ∃ σ₁, runSample 1000 (sampleCalls ++
        [(9, .inl (.setClaimSource 1)), (5, .inr (.unbondCiphernodeFor 6 10))]) σ₀ = .ok σ₁ ∧
      ∃ σ, runSample 90000 [(5, .inr (.claimExitsFor 6 0 10))] σ₁ = .ok σ ∧
      lockedBalanceOf 90000 5 σ.token = .ok 20 ∧ σ.token.votes.balanceOf 5 = 10 ∧
      σ.bonding.bondedByOwner 5 = 0 := ⟨_, rfl, _, rfl, _, rfl, rfl, rfl, rfl⟩
  have hreach := (Reachable.deploy (sampleSystem_deployed hσ₀)).runSample
    (by simp [sampleCalls]) hbond
  exact ⟨σ, (hreach.wait (by decide)).runSample (by simp) hexit, hlocked, hbalance, hbonded⟩

end Interfold.Staking
