import Interfold.Contracts.Bonding.Effects

/-!
# Bonds as other contracts see them

A call of the registry makes at most one transfer of the bond token and reports the totals of at
most two bond owners to the checkpoints. `payment` and `synced` say which, and `Stake.Move` says
what a call does to the bonds by owner, to the token's ledger and to the wiring around them.
-/

namespace Interfold.Bonding

open Transaction Function ExitQueue

namespace Stake.Move

variable {env : Env} {token : Address} {k k' : Stake} {paid : Option Payment}
  {owners : List Address}

section

variable (h : Move env token k paid owners k')
include h

lemma this_eq : k'.this = k.this := by
  cases h <;> rfl

lemma asset_eq : k'.asset = k.asset ∨ k'.asset = token := by
  cases h <;> first | exact .inl rfl | exact .inr rfl

/-- The ledger moves by the transfer that the call makes. -/
lemma ledger_eq : k'.ledger =
    paid.elim k.ledger fun p => k.ledger.move p.sender p.recipient p.amount := by
  cases h <;> rfl

/-- The bonds of an owner change only in a call that reports the owner. -/
lemma bonded_eq (howner : o ∉ owners) : k'.bonded o = k.bonded o := by
  cases h with
  | keep | install _ | attach _ | pay _ => rfl
  | bond _ _ | exit _ _ | slash _ => exact update_of_ne (by simpa using howner) _ _
  | reassign _ _ =>
    simp only [List.mem_cons, List.not_mem_nil, or_false, not_or] at howner
    exact (update_of_ne howner.2 _ _).trans (update_of_ne howner.1 _ _)

/-- The checkpoints are set once, and again only after the asset is installed. -/
lemma checkpoints_eq : k'.checkpoints = k.checkpoints ∨ k.checkpoints = 0 ∨ k.asset = 0 := by
  cases h with
  | install hunset => exact .inr (.inr hunset)
  | attach hunset => exact .inr (.inl hunset)
  | keep | bond _ _ | exit _ _ | pay _ | reassign _ _ | slash _ => exact .inl rfl

/-- Without an asset there are no bonds. -/
lemma bonded_eq_zero (htoken : token ≠ 0) (hbare : k.asset = 0 → k.bonded = fun _ => 0)
    (hunset : k'.asset = 0) : k'.bonded = fun _ => 0 := by
  cases h with
  | keep | attach _ | pay _ => exact hbare hunset
  | install _ => exact absurd hunset htoken
  | bond hset _ => exact absurd hunset hset
  | exit _ _ | slash _ => simp [hbare hunset]
  | reassign hheld _ =>
    rw [hbare hunset] at hheld
    simp [hbare hunset, Nat.le_zero.1 hheld]

end

end Stake.Move

/-- The call installs the given token as the bond token, if any, with its own ledger. -/
def Suits (token : Address) (s : State) : Call → Prop
  | .setBondingAssetConfig config =>
    (config.ciphernodeBondToken = 0 ∨ config.ciphernodeBondToken = token) ∧
      config.bondLedger = s.bondToken
  | _ => True

/-! ## Calls that move the stake -/

namespace Stake

variable {env : Env} {s s' : State} {op token : Address}

/-- The asset is set once, and before that there is nothing to sweep. -/
lemma installAssetConfig_move (hasset : s.bondTokenAddress = 0 ∨ s.bondTokenAddress = token)
    (hconf : config.ciphernodeBondToken = 0 ∨ config.ciphernodeBondToken = token)
    (hled : config.bondLedger = s.bondToken) (h : installAssetConfig env config s = .ok s') :
    Stake.Move env token s.stake (surplusPayment s) [] s'.stake := by
  simp only [installAssetConfig, bind_ok] at h
  obtain ⟨s₁, hsweep, -, -, _, -, _, hbond, -, -, hver⟩ := h
  have hsame : s₁.bondTokenAddress = s.bondTokenAddress :=
    (sweepSurplus_once (t := s.bondTokenAddress) hsweep).2.2.asset_eq.elim id id
  rw [(invalidateStatuses_quiet hver).stake]
  have hnext := validateBondAsset_spec hbond
  by_cases hchg : s₁.bondTokenAddress = config.ciphernodeBondToken
  · have hstake : Stake.Move env token s.stake (surplusPayment s) [] s₁.stake :=
      (sweepSurplus_once hsweep).2.2
    simp only [State.stake, ne_eq, hchg, not_true_eq_false, if_false] at hstake ⊢
    exact hstake
  · have htoken : config.ciphernodeBondToken = token :=
      hconf.resolve_left (hnext.resolve_left fun heq => hchg heq.symm).1
    have hunset : s.bondTokenAddress = 0 :=
      hasset.resolve_right fun heq => hchg (hsame.trans (heq.trans htoken.symm))
    obtain rfl : s = s₁ := by
      rw [sweepSurplus, if_pos (.inl hunset)] at hsweep
      exact pure_ok.1 hsweep
    have hinst := @Stake.Move.install env token s.stake hunset
    rw [htoken] at hchg
    rw [surplusPayment, if_pos (.inl hunset)]
    simp only [State.stake, ne_eq, htoken, hchg, not_false_eq_true, if_true, hled] at hinst ⊢
    exact hinst

/-- Every call that returns moves the stake, with the transfer and the reports it makes. -/
lemma exec_move (hasset : s.bondTokenAddress = 0 ∨ s.bondTokenAddress = token)
    (hsuits : Suits token s c) (h : exec env s c = .ok s') :
    Stake.Move env token s.stake (payment env s c) (synced env s c) s'.stake := by
  cases c with
  | setBondingAssetConfig config =>
    simp only [exec, setBondingAssetConfig, bind_ok] at h
    obtain ⟨-, -, h⟩ := h
    exact installAssetConfig_move hasset hsuits.1 hsuits.2 h
  | _ => exact (exec_moved (by simp) h).stake

end Stake

end Interfold.Bonding
