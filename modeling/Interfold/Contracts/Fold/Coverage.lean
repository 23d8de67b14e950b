import Interfold.Contracts.Fold.Vesting
import Interfold.Contracts.Fold.VoteLedger

/-!
# Lock coverage of the token

What an account may not spend is what it has locked and not bonded. Every effect locks for an
account at most what it grants, and what an account holds and has bonded keeps covering its locks.
-/

namespace Interfold.Fold

open Transaction Function

/-! ## Policies -/

/-- Every entry is pending or under a policy that exists. -/
structure Settled (s : State) : Prop where
  active : ∀ account, Under (fun id => policyDefined id s = true) (s.locks account)
  queued : ∀ account, Under (fun id => policyDefined id s = true) (s.queuedLocks account)

section

variable {env : Env} {s s' : State} {acct : Address} {now amount : ℕ} {pid : Key}

section

variable (h : Settled s)
include h

lemma Settled.edit (hedit : EditsLocks acct s s')
    (hact : Under (fun id => policyDefined id s = true) (s'.locks acct))
    (hqueued : Under (fun id => policyDefined id s = true) (s'.queuedLocks acct)) : Settled s' := by
  have hother := fun a (ha : a ≠ acct) => hedit.other ha
  have hpols : s'.lockPolicies = s.lockPolicies := by
    obtain ⟨active, queue, rfl⟩ := hedit
    rfl
  have hdefd : (fun id => policyDefined id s' = true) = fun id => policyDefined id s = true := by
    funext id
    rw [policyDefined, policyDefined, hpols]
  constructor
  · intro a
    rw [hdefd]
    by_cases ha : a = acct
    · exact ha ▸ hact
    · exact (hother a ha).1 ▸ h.active a
  · intro a
    rw [hdefd]
    by_cases ha : a = acct
    · exact ha ▸ hqueued
    · exact (hother a ha).2 ▸ h.queued a

lemma Settled.addActiveLock (hpol : pid = pendingLockPolicyId ∨ policyDefined pid s = true)
    (hlock : Fold.addActiveLock now acct pid amount s = .ok s') : Settled s' := by
  obtain ⟨entries, hadd, rfl⟩ := addLock_ok.1 hlock
  apply h.edit (.setLocks s entries)
  · simpa [State.setLocks] using (h.active acct).addOrIncrementLock hpol hadd
  · exact h.queued acct

lemma Settled.claimLoop (hloop : Fold.claimLoop now acct rounds remaining s = .ok s') :
    Settled s' := by
  induction rounds generalizing remaining s with
  | zero =>
    rw [Fold.claimLoop] at hloop
    split_ifs at hloop
    exact pure_ok.1 hloop ▸ h
  | succ rounds ih =>
    by_cases hrem : remaining = 0
    · rw [hrem, claimLoop_zero] at hloop
      cases hloop
      exact h
    · obtain ⟨c, pid, queue, locked, target, s₁, hcons, htarg, hadd, -, hloop⟩ :=
        (claimLoop_succ hrem).1 hloop
      obtain ⟨hqueue, hpol⟩ := (h.queued acct).consumeLock hcons
      have htaken : Settled (s.setQueuedLocks acct queue) := by
        apply h.edit (.setQueuedLocks s queue) (h.active acct)
        simpa [State.setQueuedLocks] using hqueue
      refine ih (htaken.addActiveLock ?_ hadd) hloop
      split_ifs at htarg with hzero
      · exact .inl (Prod.mk.inj htarg).2
      · rw [(Prod.mk.inj htarg).2]
        exact hpol hzero

lemma Settled.linkPending (hpol : policyDefined pid s = true)
    (hlink : Fold.linkPending now acct amount pid s = .ok s') : Settled s' := by
  obtain ⟨c, source, entries, s₁, hcons, -, hact, hqueue⟩ := linkPending_ok hlink
  have htaken : Settled (s.setLocks acct entries) := by
    refine h.edit (.setLocks s entries) ?_ (h.queued acct)
    simpa [State.setLocks] using ((h.active acct).consumeLock hcons).1
  have hfirst : Settled s₁ ∧ policyDefined pid s₁ = true := by
    split_ifs at hact
    · subst hact
      exact ⟨htaken, hpol⟩
    · refine ⟨htaken.addActiveLock (.inr hpol) hact, ?_⟩
      obtain ⟨_, -, rfl⟩ := addLock_ok.1 hact
      exact hpol
  split_ifs at hqueue
  · exact hqueue ▸ hfirst.1
  · obtain ⟨-, queue, hadd, rfl⟩ := hqueue
    apply hfirst.1.edit (.setQueuedLocks s₁ queue) (hfirst.1.active acct)
    simpa [State.setQueuedLocks] using
      (hfirst.1.queued acct).addOrIncrementLock (.inr hfirst.2) hadd

lemma Settled.relinkActiveLock
    (hrelk : Fold.relinkActiveLock env acct fromPolicyId toPolicyId amount s = .ok s') :
    Settled s' := by
  obtain ⟨-, hpars, -, -, c, source, entries, hcons, hadd⟩ :=
    relinkLock_ok hrelk
  simp only [validateRelinkParams, run_ok] at hpars
  obtain ⟨-, -, -, -, -, -, -, -, -, -, -, -, hpol⟩ := hpars
  have htaken : Settled (s.setLocks acct entries) := by
    refine h.edit (.setLocks s entries) ?_ (h.queued acct)
    simpa [State.setLocks] using ((h.active acct).consumeLock hcons).1
  exact htaken.addActiveLock (.inr hpol) hadd

lemma Settled.updateBalances (hrun : Fold.updateBalances env sender rcp value s = .ok s') :
    Settled s' := by
  obtain ⟨votes, -, ⟨-, rfl⟩ | ⟨-, -, hclaim⟩⟩ := balances_ok hrun
  · exact ⟨h.active, h.queued⟩
  · have hvotes : Settled { s with votes } := ⟨h.active, h.queued⟩
    split_ifs at hclaim
    · exact hvotes.claimLoop hclaim
    · exact hclaim ▸ hvotes

/-- A policy that exists is never changed. -/
lemma Settled.create (hnew : policyDefined pid s = false) :
    Settled { s with lockPolicies := update s.lockPolicies pid pol } := by
  have hkept : ∀ entries : List Lock, Under (fun id => policyDefined id s = true) entries →
      Under (fun id => policyDefined id
        { s with lockPolicies := update s.lockPolicies pid pol } = true) entries := by
    intro entries hunder lock hlock
    refine (hunder lock hlock).imp_right fun hdefd => ?_
    have hne : lock.policyId ≠ pid := by
      rintro heq
      rw [heq, hnew] at hdefd
      cases hdefd
    simpa [policyDefined, update_of_ne hne] using hdefd
  exact ⟨fun a => hkept _ (h.active a), fun a => hkept _ (h.queued a)⟩

end

lemma Effect.settled {granted : Address → ℕ} (heff : Effect env s granted s')
    (h : Settled s) : Settled s' := by
  cases heff with
  | administer _ => exact ⟨h.active, h.queued⟩
  | create hnew => exact h.create hnew
  | start _ => exact ⟨h.active, h.queued⟩
  | link hpol hlink => exact h.linkPending hpol hlink
  | relink hrelk => exact h.relinkActiveLock hrelk
  | approve => exact ⟨h.active, h.queued⟩
  | delegate _ => exact ⟨h.active, h.queued⟩
  | mint _ hmint => exact h.updateBalances hmint
  | allocate _ hpol hmint hlock =>
    refine (h.updateBalances hmint).addActiveLock (.inr ?_) hlock
    obtain ⟨_, -, _, _, rfl⟩ := balances_edits hmint
    exact hpol
  | @transfer _ _ _ _ allowance _ _ _ htrans =>
    have hspent : Settled { s with votes := { s.votes with allowance } } :=
      ⟨h.active, h.queued⟩
    exact hspent.updateBalances htrans

end

/-! ## What a call locks -/

section

variable {env : Env} {s s' : State} {acct : Address} {amount : ℕ}

variable {now : ℕ}

lemma EditsLocks.locked_le (h : EditsLocks acct s s')
    (hle : s.sumRemaining now (s'.locks acct) ≤ s.sumRemaining now (s.locks acct) + amount)
    (a : Address) : s'.locked now a ≤ s.locked now a + if a = acct then amount else 0 := by
  have hsame : s'.noMoreLocks = s.noMoreLocks := by
    obtain ⟨active, queue, rfl⟩ := h
    rfl
  unfold State.locked
  rw [hsame, h.sumRemaining_eq]
  by_cases hend : s.noMoreLocks ≤ now
  · rw [if_pos hend]
    exact Nat.zero_le _
  · rw [if_neg hend, if_neg hend]
    by_cases ha : a = acct
    · subst ha
      rw [if_pos rfl]
      exact hle
    · rw [if_neg ha, (h.other ha).1, Nat.add_zero]

lemma EditsLocks.locked_le_of_le (h : EditsLocks acct s s')
    (hle : s.sumRemaining now (s'.locks acct) ≤ s.sumRemaining now (s.locks acct))
    (a : Address) : s'.locked now a ≤ s.locked now a := by
  have hlocked := h.locked_le (hle.trans (Nat.add_zero _).ge) a
  rwa [ite_self] at hlocked

lemma isClaim_zero (rcp : Address) (value : ℕ) (s : State) : isClaim 0 rcp value s = false := by
  unfold isClaim
  grind

lemma claimed_zero (rcp : Address) (value : ℕ) (s : State) : claimed 0 rcp value s = 0 := by
  funext a
  simp [claimed, isClaim_zero]

lemma balances_locked_le (hnow : env.now < 2 ^ 64)
    (h : updateBalances env sender rcp value s = .ok s') (a : Address) :
    s'.locked env.now a ≤ s.locked env.now a + claimed sender rcp value s a := by
  obtain ⟨votes, -, ⟨-, rfl⟩ | ⟨-, -, hclaim⟩⟩ := balances_ok h
  · exact Nat.le_add_right ..
  · split_ifs at hclaim with hisCl
    · have hle := claimLoop_le hnow hclaim
      have hlocked := (claimLoop_edits hclaim).locked_le hle a
      simp only [claimed, hisCl, true_and]
      exact hlocked
    · subst hclaim
      exact Nat.le_add_right ..

/-- A new policy changes no entry. -/
lemma Settled.locked_create (h : Settled s) (hnew : policyDefined pid s = false) (a : Address) :
    ({ s with lockPolicies := update s.lockPolicies pid pol } : State).locked now a ≤
      s.locked now a := by
  unfold State.locked
  split_ifs
  · exact le_rfl
  · refine sumRemaining_le fun lock hlock => le_of_eq ?_
    unfold State.remaining
    split_ifs with hlockPen
    · rfl
    · have hne : lock.policyId ≠ pid := by
        intro heq
        rcases h.active a lock hlock with hid | hdefd
        · exact hlockPen hid
        · rw [heq, hnew] at hdefd
          cases hdefd
      simp only [update_of_ne hne]

lemma locked_start (hstart : s.tgeTimestamp = 0) (a : Address) :
    ({ s with tgeTimestamp } : State).locked now a ≤ s.locked now a := by
  unfold State.locked
  split_ifs
  · exact le_rfl
  · refine sumRemaining_le fun lock _ => ?_
    unfold State.remaining
    split_ifs
    · exact le_rfl
    · rw [hstart]
      exact LockPolicy.unvested_le_of_not_live

/-- An effect locks for an account at most what it grants. -/
lemma Effect.locked_le {granted : Address → ℕ} (heff : Effect env s granted s')
    (h : Settled s) (hnow : env.now < 2 ^ 64) (a : Address) :
    s'.locked env.now a ≤ s.locked env.now a + granted a := by
  cases heff with
  | administer _ => exact Nat.le_add_right ..
  | create hnew => exact h.locked_create hnew a
  | start hstart => exact locked_start hstart a
  | link _ hlink =>
    exact (linkPending_edits hlink).locked_le_of_le (linkPending_le hnow hlink) a
  | relink hrelk =>
    exact (relinkLock_edits hrelk).locked_le_of_le (relinkLock_le hnow hrelk) a
  | approve => exact Nat.le_add_right ..
  | delegate _ => exact Nat.le_add_right ..
  | mint _ hmint =>
    have hle := balances_locked_le hnow hmint a
    rwa [claimed_zero] at hle
  | allocate _ _ hmint hlock =>
    have hminted := balances_locked_le hnow hmint a
    have hlocked := (addLock_edits hlock).locked_le (addLock_le hnow hlock) a
    rw [claimed_zero] at hminted
    exact hlocked.trans (Nat.add_le_add_right hminted _)
  | transfer _ _ _ htrans => exact balances_locked_le hnow htrans a

end

/-! ## Coverage -/

/-- What an account holds and has bonded covers its locks. -/
def Covered (bonded : Address → ℕ) (now : ℕ) (s : State) : Prop :=
  ∀ account, s.locked now account ≤ s.votes.balanceOf account + bonded account

section

variable {env : Env} {s s' : State} {bonded : Address → ℕ} {now : ℕ}

lemma Covered.of_le (h : Covered bonded now s) (hlocked : ∀ a, s'.locked now a ≤ s.locked now a)
    (hbal : s'.votes.balanceOf = s.votes.balanceOf) : Covered bonded now s' := by
  intro a
  rw [hbal]
  exact (hlocked a).trans (h a)

variable {sender rcp : Address} {value : ℕ}

/-- What is spent was neither locked nor missing. -/
lemma transferable_covers (hnow : env.now < 2 ^ 64)
    (hbond : env.totalBonded sender = some (bonded sender))
    (h : s.locked env.now sender ≤ s.votes.balanceOf sender + bonded sender)
    (hrun : transferableBalanceOf env sender s = .ok transferable) (hle : value ≤ transferable) :
    s.locked env.now sender + value ≤ s.votes.balanceOf sender + bonded sender := by
  simp only [transferableBalanceOf, bind_ok, hbond, external] at hrun
  obtain ⟨locked, hlocked, hrun⟩ := hrun
  rw [lockedBalanceOf_ok hnow hlocked, ite_ok] at hrun
  rcases hrun with ⟨hzero, hrun⟩ | ⟨-, hrun⟩
  · have := pure_ok.1 hrun
    omega
  · simp only [run_ok] at hrun
    obtain ⟨_, rfl, rfl⟩ := hrun
    omega

/-- What a transfer does to balances and locks. -/
structure Transfers (env : Env) (bonded : Address → ℕ) (sender recipient : Address) (value : ℕ)
    (s s' : State) : Prop where
  held : value ≤ s.votes.balanceOf sender
  balance : s'.votes.balanceOf = s.votes.balanceOf.move sender recipient value
  locked : ∀ a, s'.locked env.now a ≤ s.locked env.now a + claimed sender recipient value s a
  spent : s.locked env.now sender ≤ s.votes.balanceOf sender + bonded sender →
    s'.locked env.now sender = 0 ∨
      s.locked env.now sender + value ≤ s.votes.balanceOf sender + bonded sender

lemma balances_transfers (hnow : env.now < 2 ^ 64)
    (hbond : env.totalBonded sender = some (bonded sender)) (hsender : sender ≠ 0)
    (hrcpt : rcp ≠ 0) (h : updateBalances env sender rcp value s = .ok s') :
    Transfers env bonded sender rcp value s s' := by
  obtain ⟨votes, hvotes, hedits⟩ := balances_edits h
  obtain ⟨hheld, hbal⟩ := Votes.update_transfer hsender hrcpt hvotes
  refine ⟨hheld, ?_, balances_locked_le hnow h, ?_⟩
  · obtain ⟨active, queue, rfl⟩ := hedits
    exact hbal
  · intro hcov
    obtain ⟨_, -, ⟨hend, rfl⟩ | ⟨-, hspent, -⟩⟩ := balances_ok h
    · exact .inl (if_pos hend)
    · obtain ⟨transferable, hrun, hle⟩ := hspent hsender
      exact .inr (transferable_covers hnow hbond hcov hrun hle)

lemma Transfers.covered (ht : Transfers env bonded sender rcp value s s')
    (h : Covered bonded env.now s) : Covered bonded env.now s' := by
  intro a
  have hlocked := ht.locked a
  have ha := h a
  have hclaimed : claimed sender rcp value s a ≤ if a = rcp then value else 0 := by
    unfold claimed
    grind
  rw [ht.balance]
  unfold Erc20.move
  by_cases hr : a = rcp
  · subst hr
    by_cases hs : a = sender
    · -- A transfer to oneself may lock, but only what was free.
      subst hs
      have hheld := ht.held
      rcases ht.spent ha with hnone | hspent
      · simp [hnone]
      · simp only [update_self, if_true] at hclaimed ⊢
        omega
    · simp only [update_self, update_of_ne hs, if_true] at hclaimed ⊢
      omega
  · rw [if_neg hr] at hclaimed
    by_cases hs : a = sender
    · subst hs
      rw [update_of_ne hr, update_self]
      rcases ht.spent ha with hnone | hspent
      · simp [hnone]
      · have hheld := ht.held
        omega
    · rw [update_of_ne hr, update_of_ne hs]
      omega

lemma balances_mint (hrcpt : rcp ≠ 0) (h : updateBalances env 0 rcp amount s = .ok s') :
    s'.votes.balanceOf = update s.votes.balanceOf rcp (s.votes.balanceOf rcp + amount) := by
  obtain ⟨votes, hvotes, active, queue, rfl⟩ := balances_edits h
  exact Votes.update_mint hrcpt hvotes

/-- The effects keep the locks covered. -/
lemma Effect.covered {granted : Address → ℕ} (heff : Effect env s granted s')
    (hsettled : Settled s) (hnow : env.now < 2 ^ 64)
    (hbond : ∀ a, env.totalBonded a = some (bonded a)) (h : Covered bonded env.now s) :
    Covered bonded env.now s' := by
  have hlocked := heff.locked_le hsettled hnow
  cases heff with
  | administer _ => exact h
  | create _ => exact h.of_le hlocked rfl
  | start _ => exact h.of_le hlocked rfl
  | link _ hlink =>
    refine h.of_le hlocked ?_
    obtain ⟨_, _, rfl⟩ := linkPending_edits hlink
    rfl
  | relink hrelk =>
    refine h.of_le hlocked ?_
    obtain ⟨_, _, rfl⟩ := relinkLock_edits hrelk
    rfl
  | approve => exact h
  | delegate hdel => exact h.of_le hlocked (Votes.delegate_balanceOf hdel)
  | @mint _ rcp amount hrcpt hmint =>
    intro a
    have ha := h a
    have hle : _ ≤ _ + 0 := hlocked a
    rw [balances_mint hrcpt hmint]
    by_cases hr : a = rcp
    · subst hr
      rw [update_self]
      omega
    · rw [update_of_ne hr]
      omega
  | @allocate s₁ _ rcp amount _ hrcpt _ hmint hlock =>
    intro a
    have ha := h a
    have hle := hlocked a
    have hbal : s'.votes.balanceOf = s₁.votes.balanceOf := by
      obtain ⟨_, _, rfl⟩ := addLock_edits hlock
      rfl
    rw [hbal, balances_mint hrcpt hmint]
    by_cases hr : a = rcp
    · subst hr
      simp only [update_self, if_true] at hle ⊢
      omega
    · simp only [update_of_ne hr, if_neg hr] at hle ⊢
      omega
  | transfer hsender hrcpt _ htrans =>
    exact (balances_transfers hnow (hbond _) hsender hrcpt htrans).covered h

end

/-! ## Calls -/

section

variable {env : Env} {s s' : State} {granted bonded : Address → ℕ}

section

variable (h : Effects env s granted s') (hsettled : Settled s)
include h hsettled

lemma Effects.settled : Settled s' := by
  induction h with
  | done s => exact hsettled
  | next heff _ ih => exact ih (heff.settled hsettled)

lemma Effects.locked_le (hnow : env.now < 2 ^ 64) (a : Address) :
    s'.locked env.now a ≤ s.locked env.now a + granted a := by
  induction h with
  | done s => exact Nat.le_add_right ..
  | @next s s₁ s₂ first rest heff _ ih =>
    have hfirst := heff.locked_le hsettled hnow a
    have hrest := ih (heff.settled hsettled)
    simp only [Pi.add_apply]
    omega

lemma Effects.covered (hnow : env.now < 2 ^ 64) (hbond : ∀ a, env.totalBonded a = some (bonded a))
    (hcov : Covered bonded env.now s) : Covered bonded env.now s' := by
  induction h with
  | done s => exact hcov
  | next heff _ ih =>
    exact ih (heff.settled hsettled) (heff.covered hsettled hnow hbond hcov)

end

/-- The end of the locks and the registry are immutable, and the claim source is set once. -/
structure Fixed (s s' : State) : Prop where
  noMoreLocks : s'.noMoreLocks = s.noMoreLocks
  bondingRegistry : s'.bondingRegistry = s.bondingRegistry
  claimSource : s.claimSource = 0 ∨ s'.claimSource = s.claimSource

lemma Fixed.refl (s : State) : Fixed s s :=
  ⟨rfl, rfl, .inr rfl⟩

lemma Fixed.trans (h : Fixed s s') (h' : Fixed s' s'') : Fixed s s'' := by
  refine ⟨h'.noMoreLocks.trans h.noMoreLocks, h'.bondingRegistry.trans h.bondingRegistry, ?_⟩
  rcases h.claimSource with hunset | hsame
  · exact .inl hunset
  · exact h'.claimSource.imp hsame.symm.trans fun hkept => hkept.trans hsame

lemma EditsLocks.fixed (h : EditsLocks acct s s') : Fixed s s' := by
  obtain ⟨_, _, rfl⟩ := h
  exact ⟨rfl, rfl, .inr rfl⟩

lemma balances_fixed (h : updateBalances env sender rcp value s = .ok s') : Fixed s s' := by
  obtain ⟨_, -, _, _, rfl⟩ := balances_edits h
  exact ⟨rfl, rfl, .inr rfl⟩

lemma Effect.fixed (h : Effect env s granted s') : Fixed s s' := by
  cases h with
  | administer hsrc => exact ⟨rfl, rfl, hsrc⟩
  | create _ => exact ⟨rfl, rfl, .inr rfl⟩
  | start _ => exact ⟨rfl, rfl, .inr rfl⟩
  | link _ hlink => exact (linkPending_edits hlink).fixed
  | relink hrelk => exact (relinkLock_edits hrelk).fixed
  | approve => exact ⟨rfl, rfl, .inr rfl⟩
  | delegate _ => exact ⟨rfl, rfl, .inr rfl⟩
  | mint _ hmint => exact balances_fixed hmint
  | allocate _ _ hmint hlock =>
    exact (balances_fixed hmint).trans (addLock_edits hlock).fixed
  | transfer _ _ _ htrans =>
    have hfixed := balances_fixed htrans
    exact ⟨hfixed.noMoreLocks, hfixed.bondingRegistry, hfixed.claimSource⟩

lemma Effects.fixed (h : Effects env s granted s') : Fixed s s' := by
  induction h with
  | done s => exact .refl s
  | next heff _ ih => exact heff.fixed.trans ih

/-- Time unlocks. -/
lemma locked_antitone (h : now ≤ later) (a : Address) : s.locked later a ≤ s.locked now a := by
  unfold State.locked
  by_cases hend : s.noMoreLocks ≤ later
  · rw [if_pos hend]
    exact Nat.zero_le _
  · rw [if_neg hend, if_neg fun hbef => hend (hbef.trans h)]
    refine sumRemaining_le fun lock _ => ?_
    unfold State.remaining
    split_ifs
    · exact le_rfl
    · exact LockPolicy.unvested_antitone h

end

end Interfold.Fold
