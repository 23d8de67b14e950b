import Interfold.Contracts.Fold.Model
import Interfold.Library.ListEdit

/-!
# Lock entries

The lock lists are edited in place: an entry is lowered, raised, appended, or replaced by the last
one. Up to the order of the entries, each of these edits changes one entry and keeps the others.
-/

namespace Interfold.Fold

open Transaction Function List ListEdit

lemma pendingPolicy_ne_zero : pendingLockPolicyId ≠ 0 := by decide

/-- One entry, unless there is nothing in it. -/
def entry (policyId : Key) (amount : ℕ) : List Lock :=
  if amount = 0 then [] else [⟨policyId, amount⟩]

@[simp]
lemma entry_zero (pid : Key) : entry pid 0 = [] :=
  rfl

variable {pid fid fp toPolicyId : Key}
  {amount i c now rounds remaining value : ℕ} {lock : Lock} {entries entries' : List Lock}
  {s s' : State} {acct sender rcp : Address} {env : Env}

lemma entry_of_ne (h : amount ≠ 0) : entry pid amount = [⟨pid, amount⟩] :=
  if_neg h

@[simp]
lemma mem_entry : lock ∈ entry pid amount ↔ amount ≠ 0 ∧ lock = ⟨pid, amount⟩ := by
  unfold entry
  split_ifs with h <;> simp [h]

lemma removeLockAt_perm (h : entries[i]? = some lock) :
    entries ~ lock :: removeLockAt entries i := by
  obtain ⟨l₁, l₂, rfl, rfl⟩ := split_at h
  refine perm_middle.trans (Perm.cons lock ?_)
  cases l₂ using reverseRecOn with
  | nil => simp [removeLockAt]
  | append_singleton l last =>
    have hlast : (l₁ ++ lock :: (l ++ [last])).getLast? = some last := by
      rw [← cons_append, ← append_assoc, getLast?_concat]
    have hset : (l₁ ++ lock :: (l ++ [last])).set l₁.length last = (l₁ ++ last :: l) ++ [last] := by
      rw [set_append_right _ _ le_rfl, Nat.sub_self, set_cons_zero, append_assoc, cons_append]
    simp only [removeLockAt, hlast, hset, dropLast_concat]
    rw [← append_assoc]
    exact (perm_append_singleton last (l₁ ++ l)).trans perm_middle.symm

lemma findIdx?_policy (h : (entries.findIdx? fun lock => lock.policyId = pid) = some i) :
    ∃ amount, entries[i]? = some ⟨pid, amount⟩ := by
  rw [findIdx?_eq_some_iff_getElem] at h
  obtain ⟨hlt, hpol, -⟩ := h
  have hid : (entries[i]).policyId = pid := by simpa using hpol
  refine ⟨(entries[i]).amount, ?_⟩
  rw [getElem?_eq_getElem hlt, ← hid]

lemma not_mem_of_findIdx? (h : (entries.findIdx? fun lock => lock.policyId = pid) = none) :
    ∀ lock ∈ entries, lock.policyId ≠ pid := by
  intro lock hlock
  have hnone := findIdx?_eq_none_iff.1 h lock hlock
  simpa using hnone

lemma findLockIndex_some (h : findLockIndex entries fid = some i) :
    ∃ lock, entries[i]? = some lock ∧ (fid ≠ 0 → lock.policyId = fid) := by
  unfold findLockIndex at h
  split_ifs at h with hfilt hlen
  · obtain ⟨amount, hlock⟩ := findIdx?_policy h
    exact ⟨_, hlock, fun _ => rfl⟩
  · obtain rfl := Option.some.inj h
    exact ⟨_, getElem?_eq_getElem hlen, fun hne => absurd hne hfilt⟩

/-- Whether an entry is one that a filter matches. -/
def Matches (filterPolicyId : Key) (lock : Lock) : Prop :=
  filterPolicyId ≠ 0 → lock.policyId = filterPolicyId

lemma findLockIndex_none (h : findLockIndex entries fid = none) :
    ∀ lock ∈ entries, ¬Matches fid lock := by
  unfold findLockIndex at h
  split_ifs at h with hfilt hlen
  · intro lock hlock hmatch
    exact not_mem_of_findIdx? h lock hlock (hmatch hfilt)
  · intro lock hlock
    exact absurd (length_pos_of_mem hlock) hlen

/-- The entry a consumption takes from. -/
def foundLock (entries : List Lock) (filterPolicyId : Key) : Option Lock :=
  (findLockIndex entries filterPolicyId).bind fun i => entries[i]?

lemma foundLock_matches (h : foundLock entries fid = some lock) : Matches fid lock := by
  obtain ⟨i, hi, hlock⟩ := Option.bind_eq_some_iff.1 h
  obtain ⟨lock', hlock', hmatch⟩ := findLockIndex_some hi
  cases hlock.symm.trans hlock'
  exact hmatch

/-- A consumption finds no entry, or lowers the one it finds and keeps the others. -/
lemma consumeLock_ok (h : consumeLock entries fid amount = .ok (c, pid, entries')) :
    ((∀ lock ∈ entries, ¬Matches fid lock) ∧ c = 0 ∧ entries' = entries) ∨
      ∃ held others, held ≠ 0 ∧ foundLock entries fid = some ⟨pid, held⟩ ∧
        c = min held amount ∧ entries ~ ⟨pid, held⟩ :: others ∧
        entries' ~ entry pid (held - c) ++ others := by
  rw [consumeLock] at h
  cases hfind : findLockIndex entries fid with
  | none =>
    simp only [hfind, pure_ok, Prod.mk.injEq] at h
    obtain ⟨rfl, -, rfl⟩ := h
    exact .inl ⟨findLockIndex_none hfind, rfl, rfl⟩
  | some i =>
    obtain ⟨lock, hlock, -⟩ := findLockIndex_some hfind
    have hfound : foundLock entries fid = some lock := by
      rw [foundLock, hfind, Option.bind_some, hlock]
    simp only [hfind, hlock] at h
    split_ifs at h with hzero hall
    · -- The entry is used up, and the last one takes its place.
      simp only [pure_ok, Prod.mk.injEq] at h
      obtain ⟨rfl, rfl, rfl⟩ := h
      refine .inr ⟨lock.amount, removeLockAt entries i, hzero, hfound, rfl,
        removeLockAt_perm hlock, ?_⟩
      rw [hall, entry_zero, nil_append]
    · simp only [pure_ok, Prod.mk.injEq] at h
      obtain ⟨rfl, rfl, rfl⟩ := h
      obtain ⟨others, hperm, hset⟩ :=
        perm_cons_of_getElem? hlock ⟨lock.policyId, lock.amount - min lock.amount amount⟩
      refine .inr ⟨lock.amount, others, hzero, hfound, rfl, hperm, ?_⟩
      rw [entry_of_ne hall]
      exact hset

/-- Only an empty entry could stop a consumption. -/
lemma consumeLock_returns (hents : ∀ lock ∈ entries, lock.amount ≠ 0) (fid : Key) (amount : ℕ) :
    ∃ c pid entries', consumeLock entries fid amount = .ok (c, pid, entries') := by
  rw [consumeLock]
  cases hfind : findLockIndex entries fid with
  | none => exact ⟨0, 0, entries, rfl⟩
  | some i =>
    obtain ⟨lock, hlock, -⟩ := findLockIndex_some hfind
    simp only [hlock, hents lock (mem_of_getElem? hlock), if_false]
    split_ifs
    · exact ⟨_, _, _, rfl⟩
    · exact ⟨_, _, _, rfl⟩

/-- Adding to a short list returns, unless the entry overflows. -/
lemma addOrInc_returns (s : State) (now : ℕ) (isActive : Bool)
    (hshort : entries.length < maxLocksPerAccount)
    (hfits : ∀ held, ⟨pid, held⟩ ∈ entries → held + amount < wordSize) :
    ∃ entries', addOrIncrementLock s now entries pid amount isActive = .ok entries' := by
  rw [addOrIncrementLock]
  cases hfind : entries.findIdx? fun lock => lock.policyId = pid with
  | some i =>
    obtain ⟨held, hheld⟩ := findIdx?_policy hfind
    have hsum := hfits held (mem_of_getElem? hheld)
    refine ⟨entries.set i ⟨pid, held + amount⟩, ?_⟩
    simp only [hheld, checkedAdd, if_pos hsum]
    rfl
  | none =>
    refine ⟨entries ++ [⟨pid, amount⟩], ?_⟩
    simp only [run_ok]
    refine ⟨entries, ?_, (), ?_, (), ?_, rfl⟩
    · rw [if_neg fun h => Nat.not_le.2 hshort h.2]
      rfl
    · exact fun h => Nat.not_le.2 hshort h.2
    · exact fun h => Nat.not_le.2 hshort h.2

/-- Adding to a policy raises its entry, or appends one to those that pruning kept. -/
lemma addOrInc_ok (h : addOrIncrementLock s now entries pid amount isActive = .ok entries') :
    (∃ held others, entries ~ ⟨pid, held⟩ :: others ∧ entries' ~ ⟨pid, held + amount⟩ :: others) ∨
      (∀ lock ∈ entries, lock.policyId ≠ pid) ∧ ∃ kept,
        (kept = entries ∨ maxLocksPerAccount ≤ entries.length ∧
          pruneMaturedActiveLocks s (toUint64 now) entries.length 0 entries = .ok kept) ∧
        entries' = kept ++ [⟨pid, amount⟩] := by
  rw [addOrIncrementLock] at h
  cases hfind : entries.findIdx? fun lock => lock.policyId = pid with
  | some i =>
    obtain ⟨held, hheld⟩ := findIdx?_policy hfind
    simp only [hfind, hheld, run_ok] at h
    obtain ⟨total, ⟨-, rfl⟩, rfl⟩ := h
    obtain ⟨others, hperm, hset⟩ := perm_cons_of_getElem? hheld ⟨pid, held + amount⟩
    exact .inl ⟨held, others, hperm, hset⟩
  | none =>
    simp only [hfind, run_ok] at h
    obtain ⟨kept, hkept, -, -, -, -, rfl⟩ := h
    refine .inr ⟨not_mem_of_findIdx? hfind, kept, ?_, rfl⟩
    split_ifs at hkept with hfull
    · exact .inr ⟨hfull.2, hkept⟩
    · exact .inl (pure_ok.1 hkept).symm

/-! ## What the lock operations leave alone -/

/-- The two states differ at most in the locks and links of one account. -/
def EditsLocks (account : Address) (s s' : State) : Prop :=
  ∃ active queue, s' = { s with
    locks := update s.locks account active
    queuedLocks := update s.queuedLocks account queue }

namespace EditsLocks

variable {acct : Address} {s s' s'' : State}

lemma refl (acct : Address) (s : State) : EditsLocks acct s s :=
  ⟨s.locks acct, s.queuedLocks acct, by simp⟩

lemma trans (h : EditsLocks acct s s') (h' : EditsLocks acct s' s'') : EditsLocks acct s s'' := by
  obtain ⟨active, queue, rfl⟩ := h
  obtain ⟨active', queue', rfl⟩ := h'
  exact ⟨active', queue', by simp⟩

lemma setLocks (s : State) (entries : List Lock) : EditsLocks acct s (s.setLocks acct entries) :=
  ⟨entries, s.queuedLocks acct, by simp [State.setLocks]⟩

lemma setQueuedLocks (s : State) (entries : List Lock) :
    EditsLocks acct s (s.setQueuedLocks acct entries) :=
  ⟨s.locks acct, entries, by simp [State.setQueuedLocks]⟩

/-- The lists of another account are the same. -/
lemma other (h : EditsLocks acct s s') (ha : a ≠ acct) :
    s'.locks a = s.locks a ∧ s'.queuedLocks a = s.queuedLocks a := by
  obtain ⟨active, queue, rfl⟩ := h
  exact ⟨update_of_ne ha _ _, update_of_ne ha _ _⟩

end EditsLocks

lemma addLock_ok : addActiveLock now acct pid amount s = .ok s' ↔
    ∃ entries, addOrIncrementLock s now (s.locks acct) pid amount true = .ok entries ∧
      s' = s.setLocks acct entries := by
  simp only [addActiveLock, run_ok, eq_comm (a := s')]

lemma claimLoop_zero (now : ℕ) (acct : Address) (rounds : ℕ) (s : State) :
    claimLoop now acct rounds 0 s = .ok s := by
  cases rounds <;> rfl

/-- One round of a claim: the amount that was locked, and under which policy. -/
lemma claimLoop_succ (hrem : remaining ≠ 0) :
    claimLoop now acct (rounds + 1) remaining s = .ok s' ↔ ∃ c pid queue locked target s₁,
      consumeLock (s.queuedLocks acct) 0 remaining = .ok (c, pid, queue) ∧
      (locked, target) = (if c = 0 then (remaining, pendingLockPolicyId)
        else (c, pid)) ∧
      addActiveLock now acct target locked (s.setQueuedLocks acct queue) = .ok s₁ ∧
      locked ≤ remaining ∧ claimLoop now acct rounds (remaining - locked) s₁ = .ok s' := by
  rw [claimLoop, if_neg hrem]
  simp only [run_ok, Prod.exists]
  constructor
  · rintro ⟨c, pid, queue, hcons, s₁, hadd, -, ⟨hle, rfl⟩, hloop⟩
    exact ⟨c, pid, queue, _, _, s₁, hcons, rfl, hadd, hle, hloop⟩
  · rintro ⟨c, pid, queue, locked, target, s₁, hcons, hlock, hadd, hle, hloop⟩
    obtain rfl := congrArg Prod.fst hlock
    obtain rfl := congrArg Prod.snd hlock
    exact ⟨c, pid, queue, hcons, s₁, hadd, _, ⟨hle, rfl⟩, hloop⟩

lemma claimLoop_edits (h : claimLoop now acct rounds remaining s = .ok s') :
    EditsLocks acct s s' := by
  induction rounds generalizing remaining s with
  | zero =>
    rw [claimLoop] at h
    split_ifs at h
    obtain rfl := pure_ok.1 h
    exact .refl acct s
  | succ rounds ih =>
    by_cases hrem : remaining = 0
    · rw [hrem, claimLoop_zero] at h
      cases h
      exact .refl acct _
    · obtain ⟨_, _, queue, _, _, s₁, -, -, hadd, -, hloop⟩ := (claimLoop_succ hrem).1 h
      obtain ⟨entries, -, rfl⟩ := addLock_ok.1 hadd
      exact ((EditsLocks.setQueuedLocks s queue).trans (.setLocks _ entries)).trans (ih hloop)

/-- What a link does: it takes from the pending lock, adds to the policy's lock, and queues what
is left. -/
lemma linkPending_ok (h : linkPending now acct amount pid s = .ok s') : ∃ c source entries s₁,
      consumeLock (s.locks acct) pendingLockPolicyId amount = .ok (c, source, entries) ∧
      c ≤ amount ∧
      (if c = 0 then s₁ = s.setLocks acct entries
        else addActiveLock now acct pid c (s.setLocks acct entries) = .ok s₁) ∧
      (if amount - c = 0 then s' = s₁
        else s₁.claimLockExempt acct = false ∧
          ∃ queue, addOrIncrementLock s₁ now (s₁.queuedLocks acct) pid
              (amount - c) false = .ok queue ∧
            s' = s₁.setQueuedLocks acct queue) := by
  simp only [linkPending, run_ok, Prod.exists] at h
  obtain ⟨c, source, entries, hcons, -, ⟨hle, rfl⟩, s₁, hact, hqueue⟩ := h
  refine ⟨c, source, entries, s₁, hcons, hle, ?_, ?_⟩
  · by_cases hzero : c = 0
    · rw [if_neg (not_not.2 hzero), pure_ok] at hact
      rw [if_pos hzero, hact]
    · rw [if_pos hzero] at hact
      rwa [if_neg hzero]
  · by_cases hzero : amount - c = 0
    · rw [if_neg (not_not.2 hzero), pure_ok] at hqueue
      rw [if_pos hzero, hqueue]
    · rw [if_pos hzero] at hqueue
      simp only [run_ok] at hqueue
      obtain ⟨-, hexem, -, -, queue, hadd, rfl⟩ := hqueue
      rw [if_neg hzero]
      exact ⟨hexem, queue, hadd, rfl⟩

lemma validateQueued_returns (h : ∀ lock ∈ entries, lock.policyId = pid) :
    validateQueuedClaimPolicy pid entries = .ok () := by
  induction entries with
  | nil => rfl
  | cons lock entries ih =>
    simp only [validateQueuedClaimPolicy, run_ok]
    exact ⟨(), h lock mem_cons_self, ih fun x hx => h x (mem_cons_of_mem _ hx)⟩

lemma linkPending_edits (h : linkPending now acct amount pid s = .ok s') :
    EditsLocks acct s s' := by
  obtain ⟨c, _, entries, s₁, -, -, hact, hqueue⟩ := linkPending_ok h
  have hfirst : EditsLocks acct s s₁ := by
    refine (EditsLocks.setLocks s entries).trans ?_
    split_ifs at hact
    · subst hact
      exact .refl acct _
    · obtain ⟨entries', -, rfl⟩ := addLock_ok.1 hact
      exact .setLocks _ entries'
  split_ifs at hqueue
  · subst hqueue
    exact hfirst
  · obtain ⟨-, queue, -, rfl⟩ := hqueue
    exact hfirst.trans (.setQueuedLocks _ queue)

/-- What a relink does: it moves a lock from one policy to another, before the token is live. -/
lemma relinkLock_ok (h : relinkActiveLock env acct fp toPolicyId amount s = .ok s') :
    s.tgeTimestamp = 0 ∧ validateRelinkParams acct fp toPolicyId amount s = .ok () ∧
      amount ≤ activeLockAmount acct fp s ∧
      validateRelinkSourceHasNoVestedPrincipal env fp (activeLockAmount acct fp s) s = .ok () ∧
      ∃ c source entries, consumeLock (s.locks acct) fp amount = .ok (c, source, entries) ∧
        addActiveLock env.now acct toPolicyId c (s.setLocks acct entries) = .ok s' := by
  simp only [relinkActiveLock, run_ok, Prod.exists] at h
  obtain ⟨-, -, -, htge, ⟨⟩, hpars, -, hamount, ⟨⟩, hvest, c, source, entries, hcons, hadd⟩ := h
  exact ⟨htge, hpars, hamount, hvest, c, source, entries, hcons, hadd⟩

lemma addLock_edits (h : addActiveLock now acct pid amount s = .ok s') : EditsLocks acct s s' := by
  obtain ⟨entries, -, rfl⟩ := addLock_ok.1 h
  exact .setLocks s entries

lemma relinkLock_edits (h : relinkActiveLock env acct fp toPolicyId amount s = .ok s') :
    EditsLocks acct s s' := by
  obtain ⟨-, -, -, -, c, source, entries, -, hadd⟩ := relinkLock_ok h
  exact (EditsLocks.setLocks s entries).trans (addLock_edits hadd)

/-- What a transfer does: it moves the balance and the votes, and before the end of the locks a
transfer from the claim source also locks. -/
lemma balances_ok (h : updateBalances env sender rcp value s = .ok s') :
    ∃ votes, s.votes.update env.now sender rcp value = .ok votes ∧
      (s.noMoreLocks ≤ env.now ∧ s' = { s with votes } ∨ env.now < s.noMoreLocks ∧
          (sender ≠ 0 → ∃ transferable, transferableBalanceOf env sender s = .ok transferable ∧
            value ≤ transferable) ∧
          if isClaim sender rcp value s = true then
            claim env.now rcp value { s with votes } = .ok s'
          else s' = { s with votes }) := by
  unfold updateBalances at h
  by_cases hsuns : s.noMoreLocks ≤ env.now
  · simp only [if_pos hsuns, run_ok] at h
    obtain ⟨votes, hvotes, rfl⟩ := h
    exact ⟨votes, hvotes, .inl ⟨hsuns, rfl⟩⟩
  · simp only [if_neg hsuns, run_ok] at h
    obtain ⟨-, -, ⟨⟩, hspend, votes, hvotes, hclaim⟩ := h
    refine ⟨votes, hvotes, .inr ⟨Nat.not_le.1 hsuns, ?_, ?_⟩⟩
    · intro hsender
      rw [if_pos hsender] at hspend
      simp only [run_ok] at hspend
      exact hspend
    · have hsame : isClaim sender rcp value { s with votes } =
          isClaim sender rcp value s := rfl
      rw [hsame] at hclaim
      split_ifs at hclaim ⊢
      · exact hclaim
      · exact (pure_ok.1 hclaim).symm

lemma balances_edits (h : updateBalances env sender rcp value s = .ok s') :
    ∃ votes, s.votes.update env.now sender rcp value = .ok votes ∧
      EditsLocks rcp { s with votes } s' := by
  obtain ⟨votes, hvotes, ⟨-, rfl⟩ | ⟨-, -, hclaim⟩⟩ := balances_ok h
  · exact ⟨votes, hvotes, .refl rcp _⟩
  · refine ⟨votes, hvotes, ?_⟩
    split_ifs at hclaim
    · exact claimLoop_edits hclaim
    · exact hclaim ▸ .refl rcp _

end Interfold.Fold
