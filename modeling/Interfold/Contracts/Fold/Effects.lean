import Interfold.Contracts.Fold.Locks

/-!
# What a call does to the token

`Effect` lists everything a call can do to the token's storage, together with the amounts it may
lock for each account. A call is a sequence of effects. Every invariant of the token is proved from
this list.
-/

namespace Interfold.Fold

open Transaction Function

/-- What a transfer locks, if it is a claim. -/
def claimed (sender recipient : Address) (value : ℕ) (s : State) (account : Address) : ℕ :=
  if isClaim sender recipient value s = true ∧ account = recipient then value else 0

/-- What a caller that moves `value` of `owner` does to the allowances. -/
inductive Spends (caller owner : Address) (value : ℕ) :
    (Address → Address → ℕ) → (Address → Address → ℕ) → Prop
  | own (howner : owner = caller) : Spends caller owner value allowance allowance
  | unlimited (hmax : wordSize - 1 ≤ allowance owner caller) :
      Spends caller owner value allowance allowance
  | limited (hle : value ≤ allowance owner caller) : Spends caller owner value allowance
        (Ledger.update₂ allowance owner caller (allowance owner caller - value))

/-- The effects on the storage, with the guards later proofs rely on. -/
inductive Effect (env : Env) (s : State) : (Address → ℕ) → State → Prop
  | administer (hsource : s.claimSource = 0 ∨ claimSource = s.claimSource) : Effect env s 0 { s with
        owner
        hasRole
        claimSource
        transferWhitelist := whitelist
        claimLockExempt := exempt }
  | create (hnew : policyDefined policyId s = false) :
      Effect env s 0 { s with lockPolicies := update s.lockPolicies policyId policy }
  | start (hstart : s.tgeTimestamp = 0) : Effect env s 0 { s with tgeTimestamp }
  | link (hpolicy : policyDefined policyId s = true)
      (h : linkPending env.now account amount policyId s = .ok s') : Effect env s 0 s'
  | relink (h : relinkActiveLock env account fromPolicyId toPolicyId amount s = .ok s') :
      Effect env s 0 s'
  | approve : Effect env s 0 { s with votes := { s.votes with
        allowance := Ledger.update₂ s.votes.allowance env.sender spender value } }
  | delegate (h : s.votes.delegate env.now env.sender delegatee = .ok votes) :
      Effect env s 0 { s with votes }
  | mint {s' : State} {recipient : Address} {amount : ℕ} (hrecipient : recipient ≠ 0)
      (h : updateBalances env 0 recipient amount s = .ok s') : Effect env s 0 s'
  | allocate {s₁ s' : State} {recipient : Address} {amount : ℕ} {policyId : Key}
      (hrecipient : recipient ≠ 0) (hpolicy : policyDefined policyId s = true)
      (h : updateBalances env 0 recipient amount s = .ok s₁)
      (hlock : addActiveLock env.now recipient policyId amount s₁ = .ok s') :
      Effect env s (fun account => if account = recipient then amount else 0) s'
  | transfer {s' : State} {sender recipient : Address} {value : ℕ}
      {allowance : Address → Address → ℕ} (hsender : sender ≠ 0) (hrecipient : recipient ≠ 0)
      (hspends : Spends env.sender sender value s.votes.allowance allowance)
      (h : updateBalances env sender recipient value
        { s with votes := { s.votes with allowance } } = .ok s') :
      Effect env s (claimed sender recipient value s) s'

/-- A sequence of effects, with all that it may lock. -/
inductive Effects (env : Env) : State → (Address → ℕ) → State → Prop
  | done (s : State) : Effects env s 0 s
  | next {s s₁ s₂ : State} {granted granted' : Address → ℕ} (h : Effect env s granted s₁)
      (hrest : Effects env s₁ granted' s₂) : Effects env s (granted + granted') s₂

/-- What the allocations of a call lock. -/
def allocated : List MintAllocation → Address → ℕ
  | [], _ => 0
  | allocation :: allocations, account =>
    (if account = allocation.recipient then allocation.amount else 0) +
      allocated allocations account

/-- The amount of the claim or of the allocations in a call, for each account. -/
def granted (caller : Address) (s : State) : Call → Address → ℕ
  | .mintAllocations allocations => allocated allocations
  | .transfer recipient value => claimed caller recipient value s
  | .transferFrom sender recipient value => claimed sender recipient value s
  | _ => 0

section

variable {env : Env} {s s' : State}

lemma Effect.effects {granted : Address → ℕ} (h : Effect env s granted s') :
    Effects env s granted s' := by
  have hone := Effects.next h (.done s')
  rwa [add_zero] at hone

variable {rcp sender : Address} {value : ℕ}

lemma mintTokens_ok (h : mintTokens env rcp amount s = .ok s') :
    rcp ≠ 0 ∧ updateBalances env 0 rcp amount s = .ok s' := by
  simp only [mintTokens, run_ok] at h
  obtain ⟨-, -, -, -, -, -, -, hrcpt, h⟩ := h
  exact ⟨hrcpt, h⟩

lemma mintEach_effects (h : mintEach env allocations s = .ok s') :
    Effects env s (allocated allocations) s' := by
  induction allocations generalizing s with
  | nil =>
    obtain rfl := pure_ok.1 h
    exact .done s
  | cons allocation allocations ih =>
    simp only [mintEach, run_ok, mintAllocation] at h
    obtain ⟨s₂, ⟨-, -, -, hpol, s₁, hmint, hlock⟩, hrest⟩ := h
    obtain ⟨hrcpt, hmint⟩ := mintTokens_ok hmint
    exact .next (.allocate hrcpt hpol hmint hlock) (ih hrest)

lemma transferBetween_ok (h : transferBetween env sender rcp value s = .ok s') :
    sender ≠ 0 ∧ rcp ≠ 0 ∧ updateBalances env sender rcp value s = .ok s' := by
  simp only [transferBetween, run_ok] at h
  obtain ⟨-, hsender, -, hrcpt, h⟩ := h
  exact ⟨hsender, hrcpt, h⟩

lemma spendAllowance_ok {o spender : Address} {votes votes' : Votes}
    (h : votes.spendAllowance o spender value = .ok votes') :
    ∃ allowance, Spends spender o value votes.allowance allowance ∧
      votes' = { votes with allowance } := by
  unfold Votes.spendAllowance at h
  split_ifs at h with hlimit
  · simp only [Votes.approve, run_ok] at h
    obtain ⟨-, hle, -, -, -, -, rfl⟩ := h
    exact ⟨_, .limited hle, rfl⟩
  · exact ⟨votes.allowance, .unlimited (Nat.le_of_not_lt hlimit), (pure_ok.1 h).symm⟩

lemma transfer_effect (h : transfer env rcp value s = .ok s') :
    Effect env s (claimed env.sender rcp value s) s' := by
  obtain ⟨hsender, hrcpt, h⟩ := transferBetween_ok h
  exact .transfer hsender hrcpt (.own rfl) h

lemma transferFrom_effect (h : transferFrom env sender rcp value s = .ok s') :
    Effect env s (claimed sender rcp value s) s' := by
  simp only [transferFrom, bind_ok] at h
  obtain ⟨votes, hspend, h⟩ := h
  obtain ⟨allowance, hspnd, rfl⟩ := spendAllowance_ok hspend
  obtain ⟨hsender, hrcpt, h⟩ := transferBetween_ok h
  exact .transfer hsender hrcpt hspnd h

lemma exec_effects (h : exec env s c = .ok s') : Effects env s (granted env.sender s c) s' := by
  cases c with
  | mint rcp amount =>
    simp only [exec, mint, bind_ok] at h
    obtain ⟨-, -, -, -, h⟩ := h
    obtain ⟨hrcpt, hmint⟩ := mintTokens_ok h
    exact (Effect.mint hrcpt hmint).effects
  | mintAllocations allocations =>
    simp only [exec, mintAllocations, bind_ok] at h
    obtain ⟨-, -, -, -, h⟩ := h
    exact mintEach_effects h
  | tge =>
    simp only [exec, tge, run_ok] at h
    obtain ⟨-, hstart, -, -, -, -, rfl⟩ := h
    exact (Effect.start hstart).effects
  | setClaimSource claimSource =>
    simp only [exec, setClaimSource, run_ok] at h
    obtain ⟨-, -, -, -, -, hunset, rfl⟩ := h
    exact (Effect.administer (.inl hunset)).effects
  | setTransferWhitelisted acct whitelisted =>
    simp only [exec, setTransferWhitelisted, run_ok] at h
    obtain ⟨-, -, -, -, rfl⟩ := h
    exact (Effect.administer (.inr rfl)).effects
  | setClaimLockExempt acct exempt =>
    simp only [exec, setClaimLockExempt, run_ok] at h
    obtain ⟨-, -, -, -, -, -, rfl⟩ := h
    exact (Effect.administer (.inr rfl)).effects
  | createLockPolicy policyId policy =>
    simp only [exec, createLockPolicy, run_ok] at h
    obtain ⟨-, -, -, -, -, hnew, -, -, -, -, rfl⟩ := h
    exact (Effect.create hnew).effects
  | linkClaim acct amount policyId =>
    simp only [exec, linkClaim, run_ok] at h
    obtain ⟨-, -, -, -, -, -, -, hpol, h⟩ := h
    exact (Effect.link hpol h).effects
  | relinkActiveLock acct fromPolicyId toPolicyId amount => exact (Effect.relink h).effects
  | transfer rcp value => exact (transfer_effect h).effects
  | transferFrom sender rcp value => exact (transferFrom_effect h).effects
  | approve spender value =>
    simp only [exec, approve, Votes.approve, run_ok] at h
    obtain ⟨_, ⟨-, -, -, -, rfl⟩, rfl⟩ := h
    exact Effect.approve.effects
  | delegate delegatee =>
    simp only [exec, delegate, run_ok] at h
    obtain ⟨votes, hdel, rfl⟩ := h
    exact (Effect.delegate hdel).effects
  | grantRole role acct =>
    simp only [exec, grantRole, run_ok] at h
    obtain ⟨-, -, rfl⟩ := h
    exact (Effect.administer (.inr rfl)).effects
  | revokeRole role acct =>
    simp only [exec, revokeRole, run_ok] at h
    obtain ⟨-, -, rfl⟩ := h
    exact (Effect.administer (.inr rfl)).effects
  | renounceRole role callerConfirmation =>
    simp only [exec, renounceRole, run_ok] at h
    obtain ⟨-, -, -, -, rfl⟩ := h
    exact (Effect.administer (.inr rfl)).effects
  | transferOwnership newOwner =>
    simp only [exec, transferOwnership, run_ok] at h
    obtain ⟨-, -, rfl⟩ := h
    refine Effect.effects ?_
    split_ifs <;> exact .administer (.inr rfl)

end

end Interfold.Fold
