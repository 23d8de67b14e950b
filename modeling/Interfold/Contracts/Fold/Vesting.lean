import Interfold.Contracts.Fold.Locks

/-!
# Vesting

What an account has locked, as a number that needs no check for overflow. It never grows with
time, it grows with an amount by no more than that amount, and the lock operations move it from
entry to entry without raising the sum.
-/

namespace Interfold.Fold

open Transaction Function List ListEdit Nat

/-- The time a curve counts from; zero while the token is not live. -/
def Curve.anchorTime (curve : Curve) (tgeTimestamp : ℕ) : ℕ :=
  match curve.anchor with
  | .tge => tgeTimestamp
  | .absolute => curve.start

/-- What is still locked of an amount. -/
def LockPolicy.unvested (policy : LockPolicy) (tgeTimestamp amount timestamp : ℕ) : ℕ :=
  if timestamp < policy.holdUntil ∨ policy.unlock.anchorTime tgeTimestamp = 0 ∨
      timestamp < policy.unlock.anchorTime tgeTimestamp + policy.unlock.cliffDuration then amount
  else if policy.unlock.vestDuration = 0 ∨
      policy.unlock.anchorTime tgeTimestamp + policy.unlock.vestDuration ≤ timestamp then 0
  else amount - amount * (timestamp - policy.unlock.anchorTime tgeTimestamp) /
    policy.unlock.vestDuration

namespace LockPolicy

variable {pol : LockPolicy} {tge amount ts n : ℕ}

lemma lockedAmount_eq : lockedAmount tge pol amount ts =
    if ts < pol.holdUntil ∨ pol.unlock.anchorTime tge = 0 ∨
        ts < pol.unlock.anchorTime tge + pol.unlock.cliffDuration then pure amount
    else if pol.unlock.vestDuration = 0 ∨
        pol.unlock.anchorTime tge + pol.unlock.vestDuration ≤ ts then pure 0
    else (do
      let elapsed ← checkedSub ts (pol.unlock.anchorTime tge)
      let product ← checkedMul amount elapsed
      let vested ← checkedDiv product pol.unlock.vestDuration
      checkedSub amount vested) := by
  by_cases hhold : ts < pol.holdUntil
  · rw [lockedAmount, if_pos hhold, if_pos (.inl hhold)]
  · rw [lockedAmount, if_neg hhold]
    simp only [hhold, false_or]
    rfl

lemma lockedAmount_ok (h : lockedAmount tge pol amount ts = .ok n) :
    n = pol.unvested tge amount ts := by
  rw [lockedAmount_eq] at h
  unfold unvested
  split_ifs at h ⊢
  · exact (pure_ok.1 h).symm
  · exact (pure_ok.1 h).symm
  · simp only [run_ok] at h
    obtain ⟨_, ⟨-, rfl⟩, _, ⟨-, rfl⟩, _, ⟨-, rfl⟩, -, rfl⟩ := h
    rfl

/-- The time that passed is a part of the vesting time. -/
lemma vested_le (amount : ℕ) (h : elapsed ≤ dur) : amount * elapsed / dur ≤ amount := by
  calc amount * elapsed / dur ≤ amount * dur / dur := Nat.div_le_div_right (Nat.mul_le_mul_left _ h)
    _ ≤ amount := Nat.div_le_of_le_mul (Nat.mul_comm amount dur).le

/-- Only the product can overflow. -/
lemma lockedAmount_returns (h : amount * ts < wordSize) :
    lockedAmount tge pol amount ts = .ok (pol.unvested tge amount ts) := by
  rw [lockedAmount_eq]
  unfold unvested
  split_ifs with hlocked hdone
  · rfl
  · rfl
  · have hprod : amount * (ts - pol.unlock.anchorTime tge) < wordSize :=
      (mul_le_mul_left amount (sub_le ..)).trans_lt h
    have hvest := vested_le amount
      (show ts - pol.unlock.anchorTime tge ≤ pol.unlock.vestDuration by omega)
    simp only [run_ok]
    exact ⟨_, ⟨by omega, rfl⟩, _, ⟨hprod, rfl⟩, _, ⟨by omega, rfl⟩, hvest, rfl⟩

lemma unvested_le : pol.unvested tge amount ts ≤ amount := by
  unfold unvested
  split_ifs
  · exact le_rfl
  · exact zero_le _
  · exact sub_le ..

lemma unvested_add_le (amount more : ℕ) : pol.unvested tge (amount + more) ts ≤
    pol.unvested tge amount ts + more := by
  unfold unvested
  split_ifs with hlocked hdone
  · exact le_rfl
  · exact zero_le _
  · have hvest := vested_le amount
      (show ts - pol.unlock.anchorTime tge ≤ pol.unlock.vestDuration by omega)
    have hmore := Nat.div_le_div_right (c := pol.unlock.vestDuration)
      (mul_le_mul_right (ts - pol.unlock.anchorTime tge) (le_add_right amount more))
    omega

/-- Nothing locks again. -/
lemma unvested_antitone (h : ts ≤ later) :
    pol.unvested tge amount later ≤ pol.unvested tge amount ts := by
  by_cases hlocked : ts < pol.holdUntil ∨ pol.unlock.anchorTime tge = 0 ∨
      ts < pol.unlock.anchorTime tge + pol.unlock.cliffDuration
  · calc pol.unvested tge amount later ≤ amount := unvested_le
      _ = pol.unvested tge amount ts := (if_pos hlocked).symm
  · unfold unvested
    rw [if_neg hlocked, if_neg (show ¬(_ ∨ _ ∨ _) by omega)]
    split_ifs
    · exact le_rfl
    · exact zero_le _
    · omega
    · have hvest := Nat.div_le_div_right (c := pol.unlock.vestDuration) (Nat.mul_le_mul_left amount
          (Nat.sub_le_sub_right h (pol.unlock.anchorTime tge)))
      omega

/-- Before the token is live, a curve that counts from then has not started. -/
lemma unvested_of_not_live (h : pol.unlock.anchor = .tge) : pol.unvested 0 amount ts = amount := by
  refine if_pos (.inr (.inl ?_))
  simp only [Curve.anchorTime, h]

lemma unvested_le_of_not_live : pol.unvested tge amount ts ≤ pol.unvested 0 amount ts := by
  cases hanch : pol.unlock.anchor with
  | tge => exact unvested_le.trans (unvested_of_not_live hanch).ge
  | absolute => simp [unvested, Curve.anchorTime, hanch]

end LockPolicy

/-! ## Locked balances -/

/-- What is still locked of one entry. -/
def State.remaining (s : State) (timestamp : ℕ) (lock : Lock) : ℕ :=
  if lock.policyId = pendingLockPolicyId then lock.amount
  else (s.lockPolicies lock.policyId).unvested s.tgeTimestamp lock.amount timestamp

def State.sumRemaining (s : State) (timestamp : ℕ) (entries : List Lock) : ℕ :=
  (entries.map (s.remaining timestamp)).sum

/-- What an account has locked. -/
def State.locked (s : State) (timestamp : ℕ) (account : Address) : ℕ :=
  if s.noMoreLocks ≤ timestamp then 0 else s.sumRemaining timestamp (s.locks account)

section

variable {s : State} {ts now : ℕ} {entries : List Lock} {acct : Address}

lemma remaining_le (lock : Lock) : s.remaining ts lock ≤ lock.amount := by
  unfold State.remaining
  split_ifs
  · exact le_rfl
  · exact LockPolicy.unvested_le

lemma remaining_add_le (pid : Key) (amount more : ℕ) : s.remaining ts ⟨pid, amount + more⟩ ≤
      s.remaining ts ⟨pid, amount⟩ + more := by
  unfold State.remaining
  split_ifs
  · exact le_rfl
  · exact LockPolicy.unvested_add_le amount more

lemma sumRemaining_cons (lock : Lock) : s.sumRemaining ts (lock :: entries) =
      s.remaining ts lock + s.sumRemaining ts entries :=
  rfl

lemma sumRemaining_append (l₁ l₂ : List Lock) : s.sumRemaining ts (l₁ ++ l₂) =
      s.sumRemaining ts l₁ + s.sumRemaining ts l₂ := by
  simp [State.sumRemaining]

lemma sumRemaining_perm (h : l₁ ~ l₂) : s.sumRemaining ts l₁ = s.sumRemaining ts l₂ :=
  (h.map _).sum_eq

lemma sumRemaining_entry_le (pid : Key) (amount : ℕ) :
    s.sumRemaining ts (entry pid amount) ≤ amount := by
  unfold entry
  split_ifs with h
  · exact zero_le _
  · simpa [State.sumRemaining] using remaining_le (s := s) (⟨pid, amount⟩ : Lock)

lemma sumRemaining_le {s' : State} {later : ℕ}
    (h : ∀ lock ∈ entries, s'.remaining later lock ≤ s.remaining ts lock) :
    s'.sumRemaining later entries ≤ s.sumRemaining ts entries :=
  List.sum_le_sum h

variable {n lockedBalance : ℕ}

lemma lockedOf_ok (h : lockedOf s ts lock = .ok n) : n = s.remaining ts lock := by
  unfold lockedOf at h
  unfold State.remaining
  split_ifs at h ⊢
  · exact (pure_ok.1 h).symm
  · exact LockPolicy.lockedAmount_ok h

lemma sumLocked_ok (h : sumLocked s ts entries lockedBalance = .ok n) :
    n = lockedBalance + s.sumRemaining ts entries := by
  induction entries generalizing lockedBalance with
  | nil => exact (pure_ok.1 h).symm
  | cons lock entries ih =>
    simp only [sumLocked, run_ok] at h
    obtain ⟨_, hlocked, _, ⟨-, rfl⟩, hrest⟩ := h
    rw [ih hrest, lockedOf_ok hlocked, sumRemaining_cons, add_assoc]

lemma lockedBalanceOf_ok (hnow : now < 2 ^ 64) (h : lockedBalanceOf now acct s = .ok n) :
    n = s.locked now acct := by
  rw [lockedBalanceOf, toUint64, mod_eq_of_lt hnow] at h
  unfold lockedBalanceAt at h
  unfold State.locked
  split_ifs at h ⊢
  · exact (pure_ok.1 h).symm
  · simpa using sumLocked_ok h

lemma sumLocked_returns (h : lockedBalance + (entries.map Lock.amount).sum < 2 ^ 192)
    (htime : ts < 2 ^ 64) : ∃ n, sumLocked s ts entries lockedBalance = .ok n := by
  induction entries generalizing lockedBalance with
  | nil => exact ⟨_, rfl⟩
  | cons lock entries ih =>
    rw [List.map_cons, List.sum_cons] at h
    have hprod : lock.amount * ts < wordSize := by
      calc lock.amount * ts ≤ 2 ^ 192 * ts := mul_le_mul_right _ (by omega)
        _ < 2 ^ 192 * 2 ^ 64 := mul_lt_mul_of_pos_left htime (by decide)
        _ = wordSize := rfl
    have hlocked : lockedOf s ts lock = .ok (s.remaining ts lock) := by
      unfold lockedOf State.remaining
      split_ifs
      · rfl
      · exact LockPolicy.lockedAmount_returns hprod
    have hle : s.remaining ts lock ≤ lock.amount := remaining_le lock
    have hsmall : lockedBalance + s.remaining ts lock + (entries.map Lock.amount).sum <
        2 ^ 192 := by omega
    obtain ⟨n, hn⟩ := ih hsmall
    refine ⟨n, ?_⟩
    simp only [sumLocked, run_ok]
    exact ⟨_, hlocked, _, ⟨by unfold wordSize; omega, rfl⟩, hn⟩

/-- The view returns as long as the entries are small. -/
lemma lockedBalanceOf_returns (hnow : now < 2 ^ 64)
    (h : ((s.locks acct).map Lock.amount).sum < 2 ^ 192) :
    lockedBalanceOf now acct s = .ok (s.locked now acct) := by
  obtain ⟨n, hn⟩ : ∃ n, lockedBalanceOf now acct s = .ok n := by
    rw [lockedBalanceOf, toUint64, mod_eq_of_lt hnow]
    unfold lockedBalanceAt
    split_ifs
    · exact ⟨0, rfl⟩
    · apply sumLocked_returns
      · simpa using h
      · exact hnow
  rw [hn, lockedBalanceOf_ok hnow hn]

end

/-! ## Lock operations -/

section

variable {s s' : State} {now ts : ℕ} {entries entries' : List Lock} {pid : Key}
  {amount : ℕ} {acct : Address}

variable {rounds used : ℕ} {fid : Key} {lock : Lock}

/-- Pruning drops entries of which nothing is locked. -/
lemma pruneMatured_ok (h : pruneMaturedActiveLocks s ts rounds i entries = .ok entries') :
    (∀ lock ∈ entries', lock ∈ entries) ∧
      s.sumRemaining ts entries' = s.sumRemaining ts entries := by
  induction rounds generalizing i entries with
  | zero =>
    obtain rfl := pure_ok.1 h
    exact ⟨fun _ hlock => hlock, rfl⟩
  | succ rounds ih =>
    unfold pruneMaturedActiveLocks at h
    cases hi : entries[i]? with
    | none =>
      simp only [hi, pure_ok] at h
      subst h
      exact ⟨fun _ hlock => hlock, rfl⟩
    | some lock =>
      simp only [hi] at h
      split_ifs at h with hpol
      · exact ih h
      · rw [bind_ok] at h
        obtain ⟨left, hleft, h⟩ := h
        split_ifs at h with hzero
        · exact ih h
        · -- Nothing is locked of the entry, so dropping it keeps the sum.
          obtain ⟨hmem, hsum⟩ := ih h
          have hperm := removeLockAt_perm hi
          have hnone : s.remaining ts lock = 0 := by
            rw [State.remaining, if_neg hpol, ← LockPolicy.lockedAmount_ok hleft]
            exact not_not.1 hzero
          refine ⟨fun x hx => hperm.mem_iff.2 (List.mem_cons_of_mem _ (hmem x hx)), ?_⟩
          rw [hsum, sumRemaining_perm hperm, sumRemaining_cons, hnone, zero_add]

/-- Locking more raises the sum by no more than the amount. -/
lemma addOrInc_le (hnow : now < 2 ^ 64)
    (h : addOrIncrementLock s now entries pid amount isActive = .ok entries') :
    s.sumRemaining now entries' ≤ s.sumRemaining now entries + amount := by
  rcases addOrInc_ok h with ⟨held, others, hbef, hafter⟩ | ⟨-, kept, hkept, rfl⟩
  · have hadd : s.remaining now ⟨pid, held + amount⟩ ≤ _ := remaining_add_le pid held amount
    rw [sumRemaining_perm hbef, sumRemaining_perm hafter, sumRemaining_cons, sumRemaining_cons]
    omega
  · have hsame : s.sumRemaining now kept = s.sumRemaining now entries := by
      rcases hkept with rfl | ⟨-, hprune⟩
      · rfl
      · rw [toUint64, mod_eq_of_lt hnow] at hprune
        exact (pruneMatured_ok hprune).2
    have hnew : s.remaining now ⟨pid, amount⟩ ≤ amount := remaining_le _
    rw [sumRemaining_append, hsame, sumRemaining_cons]
    exact Nat.add_le_add_left hnew _

/-- Taking from an entry that is locked as a whole lowers the sum by what was taken. -/
lemma consumeLock_le (h : consumeLock entries fid amount = .ok (used, pid, entries'))
    (hwhole : ∀ lock, foundLock entries fid = some lock → s.remaining ts lock = lock.amount) :
    s.sumRemaining ts entries' + used ≤ s.sumRemaining ts entries := by
  rcases consumeLock_ok h with ⟨-, rfl, rfl⟩ | ⟨held, others, -, hfound, rfl, hbef, hafter⟩
  · exact le_rfl
  · have hheld := hwhole _ hfound
    have hleft : s.sumRemaining ts (entry pid (held - min held amount)) ≤ _ :=
      sumRemaining_entry_le pid _
    rw [sumRemaining_perm hbef, sumRemaining_perm hafter, sumRemaining_cons,
      sumRemaining_append, hheld]
    dsimp only
    omega

lemma addLock_le (hnow : now < 2 ^ 64) (h : addActiveLock now acct pid amount s = .ok s') :
    s.sumRemaining now (s'.locks acct) ≤ s.sumRemaining now (s.locks acct) + amount := by
  obtain ⟨entries, hadd, rfl⟩ := addLock_ok.1 h
  simpa [State.setLocks] using addOrInc_le hnow hadd

lemma EditsLocks.sumRemaining_eq (h : EditsLocks acct s s') (entries : List Lock) :
    s'.sumRemaining ts entries = s.sumRemaining ts entries := by
  obtain ⟨active, queue, rfl⟩ := h
  rfl

/-- A claim locks no more than the amount that was claimed. -/
lemma claimLoop_le (hnow : now < 2 ^ 64) (h : claimLoop now acct rounds remaining s = .ok s') :
    s.sumRemaining now (s'.locks acct) ≤ s.sumRemaining now (s.locks acct) + remaining := by
  induction rounds generalizing remaining s with
  | zero =>
    rw [claimLoop] at h
    split_ifs at h
    obtain rfl := pure_ok.1 h
    exact Nat.le_add_right ..
  | succ rounds ih =>
    by_cases hrem : remaining = 0
    · rw [hrem, claimLoop_zero] at h
      cases h
      exact Nat.le_add_right ..
    · obtain ⟨_, _, queue, _, _, s₁, -, -, hadd, hle, hloop⟩ := (claimLoop_succ hrem).1 h
      have hround := addLock_le hnow hadd
      have hrest := ih hloop
      obtain ⟨entries, -, rfl⟩ := addLock_ok.1 hadd
      have hqueued : EditsLocks acct s (s.setQueuedLocks acct queue) :=
        .setQueuedLocks s queue
      have hlocked := hqueued.trans (.setLocks (s.setQueuedLocks acct queue) entries)
      rw [hqueued.sumRemaining_eq, hqueued.sumRemaining_eq] at hround
      rw [hlocked.sumRemaining_eq, hlocked.sumRemaining_eq] at hrest
      have hlocks : (s.setQueuedLocks acct queue).locks acct = s.locks acct := rfl
      rw [hlocks] at hround
      omega

/-- Moving an amount out of an entry that is locked as a whole, into another policy. -/
lemma moveLock_le (hnow : now < 2 ^ 64)
    (hcons : consumeLock (s.locks acct) fid amount = .ok (used, source, entries))
    (hwhole : ∀ lock, foundLock (s.locks acct) fid = some lock → s.remaining now lock = lock.amount)
    (hadd : addActiveLock now acct pid used (s.setLocks acct entries) = .ok s') :
    s.sumRemaining now (s'.locks acct) ≤ s.sumRemaining now (s.locks acct) := by
  have htaken := consumeLock_le hcons hwhole
  have hput := addLock_le hnow hadd
  have hedit : EditsLocks acct s (s.setLocks acct entries) := .setLocks s entries
  have hlocks : (s.setLocks acct entries).locks acct = entries := update_self ..
  rw [hedit.sumRemaining_eq, hedit.sumRemaining_eq, hlocks] at hput
  omega

lemma foundLock_pending (h : foundLock entries pendingLockPolicyId = some lock) :
    s.remaining ts lock = lock.amount := by
  have hpol := foundLock_matches h pendingPolicy_ne_zero
  exact if_pos hpol

/-- A link moves a pending lock, which is locked as a whole. -/
lemma linkPending_le (hnow : now < 2 ^ 64) (h : linkPending now acct amount pid s = .ok s') :
    s.sumRemaining now (s'.locks acct) ≤ s.sumRemaining now (s.locks acct) := by
  obtain ⟨used, source, entries, s₁, hcons, -, hact, hqueue⟩ := linkPending_ok h
  have hlocks : s'.locks acct = s₁.locks acct := by
    split_ifs at hqueue
    · rw [hqueue]
    · obtain ⟨-, queue, -, rfl⟩ := hqueue
      rfl
  have hwhole : ∀ lock, foundLock (s.locks acct) pendingLockPolicyId = some lock →
      s.remaining now lock = lock.amount := fun _ hfound => foundLock_pending hfound
  rw [hlocks]
  split_ifs at hact
  · subst hact
    simp only [State.setLocks, update_self]
    exact (le_add_right ..).trans (consumeLock_le hcons hwhole)
  · exact moveLock_le hnow hcons hwhole hact

lemma foundLock_amount (hpol : pid ≠ 0) (h : foundLock (s.locks acct) pid = some lock) :
    activeLockAmount acct pid s = lock.amount := by
  rw [foundLock, findLockIndex, if_pos hpol, ← List.find?_eq_bind_findIdx?_getElem?] at h
  rw [activeLockAmount, h]
  rfl

/-- A relink moves a lock of which nothing has vested. -/
lemma relinkLock_le (hnow : env.now < 2 ^ 64)
    (h : relinkActiveLock env acct fromPolicyId toPolicyId amount s = .ok s') :
    s.sumRemaining env.now (s'.locks acct) ≤ s.sumRemaining env.now (s.locks acct) := by
  obtain ⟨htge, hpars, -, hvest, used, source, entries, hcons, hadd⟩ :=
    relinkLock_ok h
  simp only [validateRelinkParams, run_ok] at hpars
  obtain ⟨-, -, -, -, -, hzero, -, -, -, hpend, -⟩ := hpars
  refine moveLock_le hnow hcons ?_ hadd
  intro lock hfound
  have hpol := foundLock_matches hfound hzero.1
  rw [State.remaining, if_neg (hpol ▸ hpend.1), hpol, htge]
  unfold validateRelinkSourceHasNoVestedPrincipal at hvest
  cases hanch : (s.lockPolicies fromPolicyId).unlock.anchor with
  | tge => exact LockPolicy.unvested_of_not_live hanch
  | absolute =>
    simp only [hanch, ne_eq, not_true_eq_false, if_false, run_ok] at hvest
    obtain ⟨left, hleft, hle⟩ := hvest
    rw [toUint64, mod_eq_of_lt hnow, htge, foundLock_amount hzero.1 hfound] at hleft
    rw [foundLock_amount hzero.1 hfound, LockPolicy.lockedAmount_ok hleft] at hle
    exact le_antisymm LockPolicy.unvested_le hle

end

/-! ## Policies of the entries -/

/-- Every entry is pending or under one of the given policies. -/
def Under (policies : Key → Prop) (entries : List Lock) : Prop :=
  ∀ lock ∈ entries, lock.policyId = pendingLockPolicyId ∨ policies lock.policyId

namespace Under

variable {policies : Key → Prop} {entries entries' : List Lock} {pid : Key} {amount : ℕ}
  {s s' : State} {now : ℕ} {acct : Address}

lemma consumeLock (h : Under policies entries)
    (hcons : Fold.consumeLock entries fid amount = .ok (used, pid, entries')) :
    Under policies entries' ∧ (used ≠ 0 → pid = pendingLockPolicyId ∨ policies pid) := by
  rcases consumeLock_ok hcons with ⟨-, rfl, rfl⟩ | ⟨held, others, -, -, -, hbef, hafter⟩
  · exact ⟨h, fun hne => absurd rfl hne⟩
  · have hheld := h _ (hbef.mem_iff.2 List.mem_cons_self)
    refine ⟨?_, fun _ => hheld⟩
    intro lock hlock
    rcases List.mem_append.1 (hafter.mem_iff.1 hlock) with hlock | hlock
    · obtain ⟨-, rfl⟩ := mem_entry.1 hlock
      exact hheld
    · exact h lock (hbef.mem_iff.2 (List.mem_cons_of_mem _ hlock))

lemma addOrIncrementLock (h : Under policies entries)
    (hpol : pid = pendingLockPolicyId ∨ policies pid)
    (hadd : Fold.addOrIncrementLock s now entries pid amount isActive = .ok entries') :
    Under policies entries' := by
  intro lock hlock
  rcases addOrInc_ok hadd with ⟨held, others, hbef, hafter⟩ | ⟨-, kept, hkept, rfl⟩
  · rcases List.mem_cons.1 (hafter.mem_iff.1 hlock) with rfl | hlock
    · exact hpol
    · exact h lock (hbef.mem_iff.2 (List.mem_cons_of_mem _ hlock))
  · rcases List.mem_append.1 hlock with hlock | hlock
    · rcases hkept with rfl | ⟨-, hprune⟩
      · exact h lock hlock
      · exact h lock ((pruneMatured_ok hprune).1 lock hlock)
    · obtain rfl := List.mem_singleton.1 hlock
      exact hpol

end Under

end Interfold.Fold
