import Interfold.Contracts.Fold.Locks

/-!
# Claims and links in any order

Claims and links for one account meet in pairs: a claim takes from the queued links, a link takes
from the pending claims. What is locked under the policy is therefore what both sides have in
common, whichever came first and however they were split.
-/

namespace Interfold.Fold

open Transaction Function List

section

variable {p q : Key} {a b x amount : ℕ} {entries others : List Lock}

lemma entries_of_pair (hpq : p ≠ q) (h : entry p a ++ entry q b ~ ⟨q, x⟩ :: others) :
    x = b ∧ others ~ entry p a := by
  have hmem : (⟨q, x⟩ : Lock) ∈ entry p a ++ entry q b := h.mem_iff.2 mem_cons_self
  simp only [mem_append, mem_entry, Lock.mk.injEq] at hmem
  rcases hmem with ⟨-, hqp, -⟩ | ⟨hb, -, rfl⟩
  · exact absurd hqp.symm hpq
  · rw [entry_of_ne hb] at h
    exact ⟨rfl, ((perm_append_singleton _ _).symm.trans h).cons_inv.symm⟩

lemma length_entry_le (p : Key) (a : ℕ) : (entry p a).length ≤ 1 := by
  unfold entry
  split_ifs <;> simp

lemma eq_entry_of_perm (h : entries ~ entry p a) : entries = entry p a := by
  unfold entry at h ⊢
  split_ifs at h ⊢
  · exact h.eq_nil
  · exact perm_singleton.1 h

variable {entries' : List Lock}

/-- Adding to one of two entries. -/
lemma addOrInc_pair (hpq : p ≠ q) (hpair : entries ~ entry p a ++ entry q b)
    (hamount : amount ≠ 0) (h : addOrIncrementLock s now entries q amount isActive = .ok entries') :
    entries' ~ entry p a ++ entry q (b + amount) := by
  rw [entry_of_ne (show b + amount ≠ 0 by omega)]
  refine Perm.trans ?_ (perm_append_singleton _ _).symm
  rcases addOrInc_ok h with ⟨held, others, hheld, hrais⟩ | ⟨hnone, kept, hkept, rfl⟩
  · obtain ⟨rfl, hoth⟩ := entries_of_pair hpq (hpair.symm.trans hheld)
    exact hrais.trans (hoth.cons _)
  · -- There was no entry, and two entries are too few for pruning.
    obtain rfl : b = 0 := by
      by_contra hb
      refine hnone ⟨q, b⟩ (hpair.mem_iff.2 ?_) rfl
      exact mem_append_right _ (mem_entry.2 ⟨hb, rfl⟩)
    have hlen : entries.length ≤ 2 := by
      rw [hpair.length_eq, length_append]
      have hp := length_entry_le p a
      have hq := length_entry_le q 0
      omega
    rcases hkept with rfl | ⟨hfull, -⟩
    · rw [entry_zero, append_nil] at hpair
      rw [Nat.zero_add]
      exact (perm_append_singleton _ _).trans (hpair.cons _)
    · unfold maxLocksPerAccount at hfull
      omega

/-- Consuming one of two entries. -/
lemma consumeLock_pair (hpq : p ≠ q) (hq : q ≠ 0) (hpair : entries ~ entry p a ++ entry q b)
    (h : consumeLock entries q amount = .ok (used, source, entries')) :
    used = min b amount ∧ entries' ~ entry p a ++ entry q (b - used) := by
  rcases consumeLock_ok h with ⟨hnone, rfl, rfl⟩ | ⟨held, others, -, hfound, rfl, hheld, hleft⟩
  · obtain rfl : b = 0 := by
      by_contra hb
      refine hnone ⟨q, b⟩ (hpair.mem_iff.2 ?_) fun _ => rfl
      exact mem_append_right _ (mem_entry.2 ⟨hb, rfl⟩)
    exact ⟨(Nat.zero_min _).symm, hpair⟩
  · obtain rfl : source = q := foundLock_matches hfound hq
    obtain ⟨rfl, hoth⟩ := entries_of_pair hpq (hpair.symm.trans hheld)
    refine ⟨rfl, hleft.trans ?_⟩
    exact (hoth.append_left _).trans perm_append_comm

end

/-- The locks of an account that has claimed `c` and for which `l` was linked to `p`. -/
structure Matched (account : Address) (p : Key) (c l : ℕ) (s : State) : Prop where
  active : s.locks account ~ entry p (min c l) ++ entry pendingLockPolicyId (c - min c l)
  queued : s.queuedLocks account = entry p (l - min c l)
  claimable : s.claimLockExempt account = false

section

variable {acct : Address} {p : Key} {c l now : ℕ} {s s' : State}

variable {amount used locked rounds : ℕ} {entries queue : List Lock} {source target : Key}

variable (h : Matched acct p c l s) (hp : p ≠ pendingLockPolicyId)

include h

/-- What a round of a claim locks: a link that waits, or the rest as pending. -/
lemma Matched.claim_target (hamount : amount ≠ 0)
    (hcons : consumeLock (s.queuedLocks acct) 0 amount = .ok (used, source, queue))
    (hlock : (locked, target) = (if used = 0 then (amount, pendingLockPolicyId)
      else (used, source))) :
    (target = p ∧ locked = min (l - c) amount ∧ c < l ∧ queue = entry p (l - c - locked)) ∨
      (target = pendingLockPolicyId ∧ locked = amount ∧ l ≤ c ∧ queue = []) := by
  rcases consumeLock_ok hcons with ⟨hnone, rfl, rfl⟩ | ⟨held, others, hheld, -, rfl, hqueue, hleft⟩
  · -- No link waits.
    have hempty : s.queuedLocks acct = [] :=
      eq_nil_iff_forall_not_mem.2 fun lock hlock =>
        hnone lock hlock fun hne => absurd rfl hne
    have hdone : l ≤ c := by
      have hqueued := h.queued
      rw [hempty] at hqueued
      by_contra hlt
      rw [entry_of_ne (by omega)] at hqueued
      cases hqueued
    rw [if_pos rfl, Prod.mk.injEq] at hlock
    exact .inr ⟨hlock.2, hlock.1, hdone, hempty⟩
  · -- The link that waits is for the policy.
    rw [h.queued] at hqueue
    have hmem := hqueue.mem_iff.2 mem_cons_self
    obtain ⟨hpos, hsrc⟩ := mem_entry.1 hmem
    obtain ⟨rfl, rfl⟩ := Lock.mk.inj hsrc
    rw [entry_of_ne hpos] at hqueue
    obtain rfl : others = [] := by simpa using hqueue.length_eq
    rw [append_nil] at hleft
    have hwaits : min c l = c := by omega
    rw [hwaits] at hheld hleft hlock
    rw [if_neg (by omega), Prod.mk.injEq] at hlock
    obtain ⟨rfl, rfl⟩ := hlock
    exact .inl ⟨rfl, rfl, by omega, eq_entry_of_perm hleft⟩

lemma Matched.length_active : (s.locks acct).length < maxLocksPerAccount := by
  rw [h.active.length_eq, length_append, maxLocksPerAccount]
  have hpol := length_entry_le p (min c l)
  have hpend := length_entry_le pendingLockPolicyId (c - min c l)
  omega

lemma Matched.held_le (hheld : ⟨q, held⟩ ∈ s.locks acct) : held ≤ c := by
  have hmem := h.active.mem_iff.1 hheld
  simp only [mem_append, mem_entry, Lock.mk.injEq] at hmem
  omega

include hp

/-- Locking under the policy, out of a link that waited for the claim. -/
lemma Matched.claim_queued (hamount : amount ≠ 0) (hle : c + amount ≤ l)
    (hadd : addOrIncrementLock (s.setQueuedLocks acct (entry p (l - c - amount))) now
      (s.locks acct) p amount true = .ok entries) : Matched acct p (c + amount) l
      ((s.setQueuedLocks acct (entry p (l - c - amount))).setLocks acct entries) where
  active := by
    have hact := h.active
    rw [Nat.min_eq_left (by omega), Nat.sub_self] at hact
    have hadded := addOrInc_pair hp.symm (hact.trans perm_append_comm) hamount hadd
    rw [Nat.min_eq_left hle, Nat.sub_self]
    simp only [State.setLocks, update_self]
    exact hadded.trans perm_append_comm
  queued := by
    simp only [State.setLocks, State.setQueuedLocks, update_self]
    congr 1
    omega
  claimable := h.claimable

/-- Locking as pending, when no link waits. -/
lemma Matched.claim_pending (hamount : amount ≠ 0) (hle : l ≤ c)
    (hadd : addOrIncrementLock (s.setQueuedLocks acct []) now (s.locks acct)
      pendingLockPolicyId amount true = .ok entries) : Matched acct p (c + amount) l
      ((s.setQueuedLocks acct []).setLocks acct entries) where
  active := by
    have hadded := addOrInc_pair hp h.active hamount hadd
    rw [Nat.min_eq_right hle] at hadded
    rw [Nat.min_eq_right (by omega)]
    simp only [State.setLocks, update_self]
    convert hadded using 3
    omega
  queued := by
    simp only [State.setLocks, State.setQueuedLocks, update_self]
    rw [Nat.min_eq_right (by omega), Nat.sub_self, entry_zero]
  claimable := h.claimable

lemma Matched.claim_round (hamount : amount ≠ 0)
    (hcons : consumeLock (s.queuedLocks acct) 0 amount = .ok (used, source, queue))
    (hlock : (locked, target) = (if used = 0 then (amount, pendingLockPolicyId)
      else (used, source)))
    (hadd : addOrIncrementLock (s.setQueuedLocks acct queue) now (s.locks acct) target
      locked true = .ok entries) : Matched acct p (c + locked) l
      ((s.setQueuedLocks acct queue).setLocks acct entries) := by
  rcases h.claim_target hamount hcons hlock with
    ⟨rfl, hlocked, hlt, rfl⟩ | ⟨rfl, rfl, hle, rfl⟩
  · exact h.claim_queued hp (by omega) (by omega) hadd
  · exact h.claim_pending hp hamount hle hadd

lemma Matched.claimLoop (hrun : claimLoop now acct rounds amount s = .ok s') :
    Matched acct p (c + amount) l s' := by
  -- The induction is over the rounds; the totals move with what a round locks.
  induction rounds generalizing c amount s with
  | zero =>
    rw [Fold.claimLoop] at hrun
    split_ifs at hrun with hzero
    obtain rfl := pure_ok.1 hrun
    rwa [hzero]
  | succ rounds ih =>
    by_cases hzero : amount = 0
    · rw [hzero, claimLoop_zero] at hrun
      cases hrun
      rwa [hzero]
    · obtain ⟨used, source, queue, locked, target, s₁, hcons, hlock, hadd, hle, hloop⟩ :=
        (claimLoop_succ hzero).1 hrun
      obtain ⟨entries, hents, rfl⟩ := addLock_ok.1 hadd
      have htotal : c + amount = c + locked + (amount - locked) := by omega
      rw [htotal]
      exact ih (h.claim_round hp hzero hcons hlock hents) hloop

/-- A claim returns unless it overflows: a second round finds no link any more. -/
lemma Matched.claimLoop_returns
    (hfits : c + amount < wordSize) (hrnds : (s.queuedLocks acct).length < rounds) :
    ∃ s', Fold.claimLoop now acct rounds amount s = .ok s' := by
  induction rounds generalizing c amount s with
  | zero => omega
  | succ rounds ih =>
    by_cases hzero : amount = 0
    · exact ⟨s, hzero ▸ claimLoop_zero now acct _ s⟩
    · have hqueue : ∀ lock ∈ s.queuedLocks acct, lock.amount ≠ 0 := by
        intro lock hlock
        rw [h.queued] at hlock
        obtain ⟨hne, rfl⟩ := mem_entry.1 hlock
        exact hne
      obtain ⟨used, source, queue, hcons⟩ := consumeLock_returns hqueue 0 amount
      obtain ⟨locked, target, hlock⟩ : ∃ locked target, (locked, target) =
          (if used = 0 then (amount, pendingLockPolicyId) else (used, source)) := ⟨_, _, rfl⟩
      have htarg := h.claim_target hzero hcons hlock
      have hle : locked ≤ amount := by omega
      obtain ⟨entries, hadd⟩ : ∃ entries, addOrIncrementLock (s.setQueuedLocks acct queue) now
          (s.locks acct) target locked true = .ok entries := by
        refine addOrInc_returns _ _ _ h.length_active ?_
        intro held hheld
        have hheld_le := h.held_le hheld
        omega
      obtain ⟨s', hloop⟩ : ∃ s', Fold.claimLoop now acct rounds (amount - locked)
          ((s.setQueuedLocks acct queue).setLocks acct entries) = .ok s' := by
        by_cases hall : locked = amount
        · rw [hall, Nat.sub_self]
          exact ⟨_, claimLoop_zero now acct _ _⟩
        · refine ih (h.claim_round hp hzero hcons hlock hadd) (by omega) ?_
          obtain ⟨-, hlocked, hlt, rfl⟩ | ⟨-, hlocked, -, -⟩ := htarg
          · rw [h.queued, entry_of_ne (by omega)] at hrnds
            have hused : l - c - locked = 0 := by omega
            simp only [State.setLocks, State.setQueuedLocks, update_self, hused, entry_zero]
            exact Nat.lt_of_succ_lt_succ hrnds
          · exact absurd hlocked hall
      have hact := addLock_ok.2 ⟨entries, hadd, rfl⟩
      exact ⟨s', (claimLoop_succ hzero).2 ⟨_, _, _, _, _, _, hcons, hlock, hact, hle, hloop⟩⟩

lemma Matched.linkPending
    (hrun : linkPending now acct amount p s = .ok s') : Matched acct p c (l + amount) s' := by
  obtain ⟨used, source, entries, s₁, hcons, hle, hact, hqueue⟩ := linkPending_ok hrun
  obtain ⟨hconsum, hleft⟩ := consumeLock_pair hp pendingPolicy_ne_zero h.active hcons
  -- What the pending lock gave is now under the policy.
  have hlocks : s₁.locks acct ~ entry p (min c l + used) ++
      entry pendingLockPolicyId (c - min c l - used) := by
    split_ifs at hact with hzero
    · subst hact
      simp only [State.setLocks, update_self]
      rwa [hzero] at hleft ⊢
    · obtain ⟨entries', hadd, rfl⟩ := addLock_ok.1 hact
      simp only [State.setLocks, update_self] at hadd ⊢
      exact (addOrInc_pair hp.symm (hleft.trans perm_append_comm) hzero hadd).trans perm_append_comm
  have hframe : s₁.queuedLocks acct = s.queuedLocks acct ∧
      s₁.claimLockExempt = s.claimLockExempt := by
    split_ifs at hact
    · subst hact
      exact ⟨rfl, rfl⟩
    · obtain ⟨entries', -, rfl⟩ := addLock_ok.1 hact
      exact ⟨rfl, rfl⟩
  have hmin : min c (l + amount) = min c l + used := by omega
  rw [Nat.sub_sub, ← hmin] at hlocks
  have hclaimb : s₁.claimLockExempt acct = false := hframe.2 ▸ h.claimable
  split_ifs at hqueue with hall
  · subst hqueue
    refine ⟨hlocks, ?_, hclaimb⟩
    rw [hframe.1, h.queued, hmin]
    congr 1
    omega
  · obtain ⟨-, queue, hadd, rfl⟩ := hqueue
    have hpair : s₁.queuedLocks acct ~ entry pendingLockPolicyId 0 ++ entry p (l - min c l) := by
      rw [hframe.1, h.queued]
      exact Perm.refl _
    have hqueued := addOrInc_pair hp.symm hpair hall hadd
    refine ⟨hlocks, ?_, hclaimb⟩
    simp only [State.setQueuedLocks, update_self]
    rw [eq_entry_of_perm hqueued, hmin]
    congr 1
    omega

/-- A link returns unless it overflows. -/
lemma Matched.linkPending_returns (hc : c < wordSize) (hfits : l + amount < wordSize) :
    ∃ s', Fold.linkPending now acct amount p s = .ok s' := by
  have hnonz : ∀ lock ∈ s.locks acct, lock.amount ≠ 0 := by
    intro lock hlock
    have hmem := h.active.mem_iff.1 hlock
    simp only [mem_append, mem_entry] at hmem
    rcases hmem with ⟨hne, rfl⟩ | ⟨hne, rfl⟩
    · exact hne
    · exact hne
  obtain ⟨used, source, entries, hcons⟩ :=
    consumeLock_returns hnonz pendingLockPolicyId amount
  obtain ⟨hconsum, hleft⟩ := consumeLock_pair hp pendingPolicy_ne_zero h.active hcons
  have hshort : entries.length < maxLocksPerAccount := by
    rw [hleft.length_eq, length_append, maxLocksPerAccount]
    have hpol := length_entry_le p (min c l)
    have hpend := length_entry_le pendingLockPolicyId (c - min c l - used)
    omega
  obtain ⟨entries', hadd⟩ : ∃ entries', addOrIncrementLock (s.setLocks acct entries) now entries
      p used true = .ok entries' := by
    refine addOrInc_returns _ _ _ hshort ?_
    intro held hheld
    have hmem := hleft.mem_iff.1 hheld
    simp only [mem_append, mem_entry, Lock.mk.injEq] at hmem
    omega
  obtain ⟨s₁, hact, hqueued, hexem⟩ : ∃ s₁, (if used ≠ 0 then
      addActiveLock now acct p used (s.setLocks acct entries)
      else pure (s.setLocks acct entries)) = .ok s₁ ∧
      s₁.queuedLocks acct = s.queuedLocks acct ∧
      s₁.claimLockExempt acct = s.claimLockExempt acct := by
    split_ifs
    · refine ⟨(s.setLocks acct entries).setLocks acct entries', ?_, rfl, rfl⟩
      rw [addActiveLock, bind_ok]
      refine ⟨entries', ?_, rfl⟩
      simpa only [State.setLocks, update_self] using hadd
    · exact ⟨_, rfl, rfl, rfl⟩
  obtain ⟨queue, hqueue⟩ : ∃ queue, addOrIncrementLock s₁ now (s₁.queuedLocks acct) p
      (amount - used) false = .ok queue := by
    rw [hqueued, h.queued]
    have hone := length_entry_le p (l - min c l)
    refine addOrInc_returns _ _ _ (by unfold maxLocksPerAccount; omega) ?_
    intro held hheld
    simp only [mem_entry, Lock.mk.injEq] at hheld
    omega
  have hsame : validateQueuedClaimPolicy p (s₁.queuedLocks acct) = .ok () := by
    refine validateQueued_returns ?_
    rw [hqueued, h.queued]
    intro lock hlock
    obtain ⟨-, rfl⟩ := mem_entry.1 hlock
    rfl
  refine ⟨if amount - used ≠ 0 then s₁.setQueuedLocks acct queue else s₁, ?_⟩
  simp only [Fold.linkPending, run_ok, Prod.exists]
  refine ⟨used, source, entries, hcons, _, ⟨by omega, rfl⟩, s₁, hact, ?_⟩
  split_ifs
  · simp only [run_ok]
    exact ⟨(), hexem.trans h.claimable, (), hsame, queue, hqueue, rfl⟩
  · rfl

end

/-! ## Runs -/

/-- What a call claims for the account: a transfer from the claim source. -/
def claimedBy (env : Env) (account : Address) (s : State) : Call → ℕ
  | .transfer recipient value =>
    if env.sender = s.claimSource ∧ recipient = account then value else 0
  | .transferFrom sender recipient value =>
    if sender = s.claimSource ∧ recipient = account then value else 0
  | _ => 0

/-- What a call links for the account. -/
def linkedBy (account : Address) : Call → ℕ
  | .linkClaim a amount _ => if a = account then amount else 0
  | _ => 0

/-- The call links the account to no other policy, and neither mints to its locks, relinks them
nor changes its exemption. -/
def KeepsTo (account : Address) (p : Key) : Call → Prop
  | .mintAllocations allocations => ∀ allocation ∈ allocations, allocation.recipient ≠ account
  | .linkClaim a _ policyId => a = account → policyId = p
  | .relinkActiveLock a _ _ _ => a ≠ account
  | .setClaimLockExempt a _ => a ≠ account
  | _ => True

/-- Calls before the end of the locks, with the totals claimed by and linked for the account. Calls
that concern other accounts may come in between. -/
inductive ClaimRun (account : Address) (p : Key) (s : State) : ℕ → ℕ → State → Prop where
  | start : ClaimRun account p s 0 0 s
  | call {env : Env} {c l : ℕ} {s₁ s₂ : State} {call : Call} (h : ClaimRun account p s c l s₁)
      (hbefore : env.now < s₁.noMoreLocks) (hkeeps : KeepsTo account p call)
      (hexec : exec env s₁ call = .ok s₂) :
      ClaimRun account p s (c + claimedBy env account s₁ call) (l + linkedBy account call) s₂

section

variable {acct : Address} {p : Key} {c l : ℕ} {env : Env} {s s' : State}

lemma Matched.of_same (h : Matched acct p c l s) (hlocks : s'.locks acct = s.locks acct)
    (hqueue : s'.queuedLocks acct = s.queuedLocks acct)
    (hexem : s'.claimLockExempt acct = s.claimLockExempt acct) : Matched acct p c l s' :=
  ⟨hlocks ▸ h.active, hqueue.trans h.queued, hexem.trans h.claimable⟩

lemma Matched.edit (h : Matched acct p c l s) {a : Address} (ha : a ≠ acct)
    (hedit : EditsLocks a s s') : Matched acct p c l s' := by
  obtain ⟨hlocks, hqueue⟩ := hedit.other ha.symm
  obtain ⟨active, queue, rfl⟩ := hedit
  exact h.of_same hlocks hqueue rfl

variable {sender rcp : Address} {value : ℕ}

lemma Matched.updateBalances (h : Matched acct p c l s) (hp : p ≠ pendingLockPolicyId)
    (hbef : env.now < s.noMoreLocks)
    (hrun : updateBalances env sender rcp value s = .ok s') : Matched acct p
      (c + if isClaim sender rcp value s = true ∧ rcp = acct then value else 0) l
      s' := by
  obtain ⟨votes, -, ⟨hsuns, -⟩ | ⟨-, -, hclaim⟩⟩ := balances_ok hrun
  · omega
  · have hmoved : Matched acct p c l { s with votes } := h.of_same rfl rfl rfl
    by_cases hc : isClaim sender rcp value s = true
    · rw [if_pos hc] at hclaim
      by_cases ha : rcp = acct
      · subst ha
        rw [if_pos ⟨hc, rfl⟩]
        exact hmoved.claimLoop hp hclaim
      · rw [if_neg fun hand => ha hand.2, Nat.add_zero]
        exact hmoved.edit ha (claimLoop_edits hclaim)
    · rw [if_neg hc] at hclaim
      rw [if_neg fun hand => hc hand.1, Nat.add_zero, hclaim]
      exact hmoved

lemma Matched.transferBetween (h : Matched acct p c l s) (hp : p ≠ pendingLockPolicyId)
    (hbef : env.now < s.noMoreLocks) (hrun : transferBetween env sender rcp value s = .ok s') :
    Matched acct p (c + if sender = s.claimSource ∧ rcp = acct then value else 0) l s' := by
  simp only [Fold.transferBetween, run_ok] at hrun
  obtain ⟨-, hsender, -, hrcpt, hrun⟩ := hrun
  convert h.updateBalances hp hbef hrun using 2
  by_cases hfrom : sender = s.claimSource ∧ rcp = acct
  · obtain ⟨rfl, rfl⟩ := hfrom
    rcases Nat.eq_zero_or_pos value with rfl | hvalue
    · simp
    · simp [isClaim, hsender, hrcpt, h.claimable, hvalue.ne']
  · rw [if_neg hfrom, if_neg]
    rintro ⟨hclaim, rfl⟩
    simp only [isClaim, Bool.and_eq_true, decide_eq_true_eq] at hclaim
    exact hfrom ⟨hclaim.1.2, rfl⟩

lemma mintTokens_frame (hrun : mintTokens env rcp amount s = .ok s') :
    ∃ votes, s' = { s with votes } := by
  simp only [mintTokens, run_ok] at hrun
  obtain ⟨-, -, -, -, -, -, -, -, hrun⟩ := hrun
  have hmint : isClaim 0 rcp amount s = false := by
    unfold isClaim
    by_cases hsrc : s.claimSource = 0
    · simp [hsrc]
    · simp [Ne.symm hsrc]
  obtain ⟨votes, -, ⟨-, rfl⟩ | ⟨-, -, hclaim⟩⟩ := balances_ok hrun
  · exact ⟨votes, rfl⟩
  · rw [hmint, if_neg Bool.false_ne_true] at hclaim
    exact ⟨votes, hclaim⟩

lemma Matched.mintEach (h : Matched acct p c l s)
    (hother : ∀ allocation ∈ allocations, allocation.recipient ≠ acct)
    (hrun : mintEach env allocations s = .ok s') : Matched acct p c l s' := by
  induction allocations generalizing s with
  | nil =>
    simp only [Fold.mintEach, pure_ok] at hrun
    exact hrun ▸ h
  | cons allocation allocations ih =>
    simp only [Fold.mintEach, mintAllocation, run_ok] at hrun
    obtain ⟨s₂, ⟨-, -, -, -, s₁, hmint, hadd⟩, hrest⟩ := hrun
    obtain ⟨votes, rfl⟩ := mintTokens_frame hmint
    obtain ⟨entries, -, rfl⟩ := addLock_ok.1 hadd
    have hne := hother allocation mem_cons_self
    have hvotes : Matched acct p c l { s with votes } := h.of_same rfl rfl rfl
    exact ih (hvotes.edit hne (.setLocks _ entries))
      (fun a ha => hother a (mem_cons_of_mem _ ha)) hrest

/-- A call claims and links what it says, and leaves the account alone otherwise. -/
lemma Matched.exec (h : Matched acct p c l s) (hp : p ≠ pendingLockPolicyId)
    (hbef : env.now < s.noMoreLocks) (hkeeps : KeepsTo acct p call)
    (hexec : exec env s call = .ok s') :
    Matched acct p (c + claimedBy env acct s call) (l + linkedBy acct call) s' := by
  cases call with
  | transfer rcp value => exact h.transferBetween hp hbef hexec
  | transferFrom sender rcp value =>
    simp only [Fold.exec, transferFrom, bind_ok] at hexec
    obtain ⟨votes, -, hexec⟩ := hexec
    have hvotes : Matched acct p c l { s with votes } := h.of_same rfl rfl rfl
    exact hvotes.transferBetween hp hbef hexec
  | linkClaim a amount policyId =>
    simp only [Fold.exec, linkClaim, run_ok] at hexec
    obtain ⟨-, -, -, -, -, -, -, -, hexec⟩ := hexec
    by_cases ha : a = acct
    · obtain rfl := hkeeps ha
      subst ha
      simp only [claimedBy, linkedBy, if_true]
      exact h.linkPending hp hexec
    · simp only [claimedBy, linkedBy, if_neg ha]
      exact h.edit ha (linkPending_edits hexec)
  | mint rcp amount =>
    simp only [Fold.exec, mint, run_ok] at hexec
    obtain ⟨-, -, -, -, hexec⟩ := hexec
    obtain ⟨votes, rfl⟩ := mintTokens_frame hexec
    exact h.of_same rfl rfl rfl
  | mintAllocations allocations =>
    simp only [Fold.exec, mintAllocations, run_ok] at hexec
    obtain ⟨-, -, -, -, hexec⟩ := hexec
    exact h.mintEach hkeeps hexec
  | relinkActiveLock a fromPolicyId toPolicyId amount =>
    obtain ⟨-, -, -, -, _, _, entries, -, hadd⟩ := relinkLock_ok hexec
    obtain ⟨entries', -, rfl⟩ := addLock_ok.1 hadd
    exact h.edit hkeeps ((EditsLocks.setLocks s entries).trans (.setLocks _ entries'))
  | setClaimLockExempt a exempt =>
    simp only [Fold.exec, setClaimLockExempt, run_ok] at hexec
    obtain ⟨-, -, -, -, -, -, rfl⟩ := hexec
    exact h.of_same rfl rfl (update_of_ne (Ne.symm hkeeps) _ _)
  | createLockPolicy policyId policy =>
    simp only [Fold.exec, createLockPolicy, run_ok] at hexec
    obtain ⟨-, -, -, -, -, -, -, -, -, -, rfl⟩ := hexec
    exact h.of_same rfl rfl rfl
  | tge =>
    simp only [Fold.exec, tge, run_ok] at hexec
    obtain ⟨-, -, -, -, -, -, rfl⟩ := hexec
    exact h.of_same rfl rfl rfl
  | setClaimSource claimSource =>
    simp only [Fold.exec, setClaimSource, run_ok] at hexec
    obtain ⟨-, -, -, -, -, -, rfl⟩ := hexec
    exact h.of_same rfl rfl rfl
  | setTransferWhitelisted a whitelisted =>
    simp only [Fold.exec, setTransferWhitelisted, run_ok] at hexec
    obtain ⟨-, -, -, -, rfl⟩ := hexec
    exact h.of_same rfl rfl rfl
  | approve spender value =>
    simp only [Fold.exec, approve, run_ok] at hexec
    obtain ⟨votes, -, rfl⟩ := hexec
    exact h.of_same rfl rfl rfl
  | delegate delegatee =>
    simp only [Fold.exec, delegate, run_ok] at hexec
    obtain ⟨votes, -, rfl⟩ := hexec
    exact h.of_same rfl rfl rfl
  | grantRole role a =>
    simp only [Fold.exec, grantRole, run_ok] at hexec
    obtain ⟨-, -, rfl⟩ := hexec
    exact h.of_same rfl rfl rfl
  | revokeRole role a =>
    simp only [Fold.exec, revokeRole, run_ok] at hexec
    obtain ⟨-, -, rfl⟩ := hexec
    exact h.of_same rfl rfl rfl
  | renounceRole role a =>
    simp only [Fold.exec, renounceRole, run_ok] at hexec
    obtain ⟨-, -, -, -, rfl⟩ := hexec
    exact h.of_same rfl rfl rfl
  | transferOwnership newOwner =>
    simp only [Fold.exec, transferOwnership, run_ok] at hexec
    obtain ⟨-, -, rfl⟩ := hexec
    refine h.of_same ?_ ?_ ?_ <;> dsimp only [State.setAllRoles] <;> split_ifs <;> rfl

lemma matched_of_empty (hlocks : s.locks acct = []) (hqueue : s.queuedLocks acct = [])
    (hexem : s.claimLockExempt acct = false) : Matched acct p 0 0 s :=
  ⟨by simp [hlocks], by simp [hqueue], hexem⟩

lemma ClaimRun.matched (h : ClaimRun acct p s c l s') (hp : p ≠ pendingLockPolicyId)
    (hstart : Matched acct p 0 0 s) : Matched acct p c l s' := by
  induction h with
  | start => exact hstart
  | call _ hbef hkeeps hexec ih => exact ih.exec hp hbef hkeeps hexec

end

/-- Claims and links commute: however they are interleaved and split, what both have in common is
locked under the policy, the rest of the claims is pending and the rest of the links is queued.
None of the next ones reverts over the locks while the totals fit a word. -/
theorem claim_link_confluence {account : Address} {p : Key} {C L : ℕ} {s s' : State}
    (hp : p ≠ pendingLockPolicyId) (hexempt : s.claimLockExempt account = false)
    (hlocks : s.locks account = []) (hqueue : s.queuedLocks account = [])
    (hrun : ClaimRun account p s C L s') :
    s'.locks account ~ entry p (min C L) ++ entry pendingLockPolicyId (C - min C L) ∧
      s'.queuedLocks account = entry p (L - min C L) ∧
      (∀ now amount, C + amount < wordSize → ∃ s'', claim now account amount s' = .ok s'') ∧
      ∀ now amount, C < wordSize → L + amount < wordSize →
        ∃ s'', linkPending now account amount p s' = .ok s'' := by
  have hmatched := hrun.matched hp (matched_of_empty hlocks hqueue hexempt)
  refine ⟨hmatched.active, hmatched.queued, ?_, ?_⟩
  · intro now amount hfits
    exact hmatched.claimLoop_returns hp hfits (Nat.lt_succ_self _)
  · intro now amount hC hfits
    exact hmatched.linkPending_returns hp hC hfits

/-- A token with one policy, and a claim source that holds all of it. -/
def sampleToken : State where
  owner := 1
  hasRole _ account := account = 1
  ccaStart := 10
  ccaEnd := 20
  noMoreLocks := 10000000
  claimSource := 2
  bondingRegistry := 3
  tgeTimestamp := 0
  transferWhitelist _ := false
  claimLockExempt _ := false
  lockPolicies policyId := if policyId = 7 then ⟨0, ⟨.tge, 0, 50, 100⟩⟩ else ⟨0, ⟨.absolute, 0, 0, 0⟩⟩
  locks _ := []
  queuedLocks _ := []
  votes := { Votes.blank with
    balanceOf := update (fun _ => 0) 2 100, totalSupply := 100, totalCheckpoints := [⟨5, 100⟩] }

/-- The token after a link of five. -/
def linkedToken : State := (sampleToken.setLocks 4 []).setQueuedLocks 4 [⟨7, 5⟩]

/-- A link of five, and then a claim of eight. -/
lemma sampleToken_run : ∃ s', ClaimRun 4 7 sampleToken 8 5 s' := by
  have hlink : exec ⟨1, 30, fun _ => some 0⟩ sampleToken (.linkClaim 4 5 7) = .ok linkedToken := rfl
  have hpol : KeepsTo 4 7 (.linkClaim 4 5 7) := fun _ => rfl
  have hlinked : ClaimRun 4 7 sampleToken 0 5 linkedToken := .call .start (by decide) hpol hlink
  have htrans : KeepsTo 4 7 (.transfer 4 8) := trivial
  obtain ⟨s', hclaim⟩ : ∃ s', exec ⟨2, 31, fun _ => some 0⟩ linkedToken (.transfer 4 8) = .ok s' :=
    ⟨_, rfl⟩
  exact ⟨s', .call hlinked (by decide) htrans hclaim⟩

theorem claim_link_confluence_sample : ∃ s', ClaimRun 4 7 sampleToken 8 5 s' ∧
    s'.locks 4 ~ [⟨7, 5⟩, ⟨pendingLockPolicyId, 3⟩] ∧ s'.queuedLocks 4 = [] := by
  obtain ⟨s', hrun⟩ := sampleToken_run
  obtain ⟨hlocks, hqueue, -⟩ := claim_link_confluence (by decide) rfl rfl rfl hrun
  exact ⟨s', hrun, hlocks, hqueue⟩

end Interfold.Fold
