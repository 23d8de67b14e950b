import Interfold.Contracts.Fold.Coverage
import Interfold.Contracts.Staking.System

/-!
# Wiring of the system

The registry's copy of the token's ledger is the token's ledger, whoever moves it, because a
registry call moves it by the transfer that it makes the token do.
-/

namespace Interfold.Staking

open Transaction Function Fold

/-- The registry and the token know each other and agree on the ledger. -/
structure Wired (sites : Sites) (σ : System) : Prop where
  registry : σ.token.bondingRegistry = σ.bonding.this
  this_ne_zero : σ.bonding.this ≠ 0
  asset : σ.bonding.bondTokenAddress = 0 ∨ σ.bonding.bondTokenAddress = sites.token
  ledger : σ.bonding.bondToken = σ.token.votes.balanceOf
  bare : σ.bonding.bondTokenAddress = 0 → σ.bonding.bondedByOwner = fun _ => 0

section

variable {sites : Sites} {now : ℕ} {σ σ' : System} {event : Event} {env : Bonding.Env}
  {call : Bonding.Call} {this : Address} {bonded : Address → ℕ} {token token' : Fold.State}

/-- The transfer of a registry call, as the token makes it. -/
lemma settle_some (h : settle this now bonded token (some p) = .ok token') :
    p.sender ≠ 0 ∧ p.recipient ≠ 0 ∧ ∃ allowance,
      Spends this p.sender p.amount token.votes.allowance allowance ∧
      updateBalances (tokenEnv this now bonded) p.sender p.recipient p.amount
        { token with votes := { token.votes with allowance } } = .ok token' := by
  simp only [settle, tokenCall] at h
  split_ifs at h with hown
  · obtain ⟨hsender, hrcpt, h⟩ := transferBetween_ok h
    rw [hown]
    exact ⟨hsender, hrcpt, token.votes.allowance, .own rfl, h⟩
  · simp only [exec, transferFrom, bind_ok] at h
    obtain ⟨votes, hspend, h⟩ := h
    obtain ⟨allowance, hspnd, rfl⟩ := spendAllowance_ok hspend
    obtain ⟨hsender, hrcpt, h⟩ := transferBetween_ok h
    exact ⟨hsender, hrcpt, allowance, hspnd, h⟩

lemma settle_effects (h : settle this now bonded token paid = .ok token') :
    Effects (tokenEnv this now bonded) token
      (paid.elim 0 fun p => claimed p.sender p.recipient p.amount token) token' := by
  cases paid with
  | none =>
    rw [← pure_ok.1 h]
    exact .done token
  | some p =>
    obtain ⟨hsender, hrcpt, allowance, hspnd, h⟩ := settle_some h
    exact (Effect.transfer hsender hrcpt hspnd h).effects

/-- The token's ledger moves as the registry expects. -/
lemma settle_balance (h : settle this now bonded token paid = .ok token') : token'.votes.balanceOf =
      paid.elim token.votes.balanceOf fun p =>
        Erc20.move token.votes.balanceOf p.sender p.recipient p.amount := by
  cases paid with
  | none => rw [← pure_ok.1 h]; rfl
  | some p =>
    obtain ⟨hsender, hrcpt, allowance, -, h⟩ := settle_some h
    obtain ⟨votes, hvotes, _, _, rfl⟩ := balances_edits h
    exact (Votes.update_transfer hsender hrcpt hvotes).2

/-- A registry call: what it does to the stake, to the token and to the checkpoints. -/
lemma execRegistry_ok (hwired : Wired sites σ) (hsuits : Bonding.Suits sites.token σ.bonding call)
    (h : execRegistry sites env call σ = .ok σ') :
    Bonding.Stake.Move (answered sites env σ) sites.token σ.bonding.stake
        (Bonding.payment env σ.bonding call) (Bonding.synced env σ.bonding call)
        σ'.bonding.stake ∧
      settle σ.bonding.this env.now σ'.bonding.bondedByOwner σ.token
        (Bonding.payment env σ.bonding call) = .ok σ'.token ∧
      (if σ'.bonding.bondedCheckpoints = sites.checkpoints then
        report σ.bonding.this env.now σ'.bonding.bondedByOwner
          (Bonding.synced env σ.bonding call) σ.checkpoints
      else pure σ.checkpoints) = .ok σ'.checkpoints := by
  simp only [execRegistry, run_ok] at h
  obtain ⟨bonding, hexec, token, hset, checkpoints, hrep, rfl⟩ := h
  exact ⟨Bonding.Stake.exec_move hwired.asset hsuits hexec, hset, hrep⟩

lemma Wired.step (hwired : Wired sites σ) (hstep : Step sites now σ event σ') : Wired sites σ' := by
  cases hstep with
  | token _ _ h =>
    simp only [execToken, run_ok] at h
    obtain ⟨token, hexec, rfl⟩ := h
    have hfixed := (exec_effects hexec).fixed
    exact ⟨hfixed.bondingRegistry.trans hwired.registry, hwired.this_ne_zero, hwired.asset, rfl,
      hwired.bare⟩
  | registry _ _ hsuits h =>
    obtain ⟨hmove, hset, -⟩ := execRegistry_ok hwired hsuits h
    have hfixed := (settle_effects hset).fixed
    have hthis : σ'.bonding.this = σ.bonding.this := hmove.this_eq
    refine ⟨?_, hthis ▸ hwired.this_ne_zero, ?_, ?_,
      hmove.bonded_eq_zero sites.token_ne_zero hwired.bare⟩
    · exact hfixed.bondingRegistry.trans (hwired.registry.trans hthis.symm)
    · rcases hmove.asset_eq with hsame | htoken
      · exact hwired.asset.imp hsame.trans hsame.trans
      · exact .inr htoken
    · have hled : σ'.bonding.bondToken = _ := hmove.ledger_eq
      rw [hled, settle_balance hset, ← hwired.ledger]
      rfl
  | underlying _ =>
    exact ⟨hwired.registry, hwired.this_ne_zero, hwired.asset, hwired.ledger, hwired.bare⟩

lemma Deployed.wired (h : Deployed sites now σ) : Wired sites σ := by
  obtain ⟨owner, ccaStart, ccaEnd, noMoreLocks, htoken⟩ := h.token
  simp only [deploy, run_ok] at htoken
  obtain ⟨-, -, -, -, -, -, -, hregy, -, -, -, -, -, -, htoken⟩ := htoken
  have hbond : σ.token.bondingRegistry = σ.bonding.this := by rw [← htoken]
  have hbal : σ.token.votes.balanceOf = fun _ => 0 := by rw [← htoken]; rfl
  exact ⟨hbond, hregy, h.asset, h.ledger.trans hbal.symm, fun _ => h.bonded⟩

lemma Reachable.wired (h : Reachable sites permitted now σ) : Wired sites σ := by
  induction h with
  | deploy h => exact h.wired
  | wait _ _ ih => exact ih
  | step _ hstep _ ih => exact ih.step hstep

end

end Interfold.Staking
