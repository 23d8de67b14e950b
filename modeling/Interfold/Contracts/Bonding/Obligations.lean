import Interfold.Contracts.Bonding.TicketLedger

/-!
# No slashing obligation is orphaned

The slashing library keeps locks, bans, E3 assignments and reservations as records, and beside
them counters per manager, per E3 and per operator. Each counter is shown to be the tally of the
records it stands for. Revoking a manager requires its counters to be zero, so every live record
belongs to an authorized manager, who can release it.
-/

namespace Interfold.Bonding

open Transaction Function Ledger

/-! ## Tallies -/

/-- The three counters of locks. -/
structure LockTally (l : SlashingLayout) : Prop where
  byManager : ∀ manager, (l.managers manager).openSlashLocks =
    count fun proposalId => (l.slashLocks manager proposalId).operator ≠ 0
  byE3 : ∀ manager e3Id, l.e3Locks manager e3Id =
    count fun proposalId => (l.slashLocks manager proposalId).operator ≠ 0 ∧
      (l.slashLocks manager proposalId).e3Id = e3Id
  byOperator : ∀ operator, l.openSlashLocks operator =
    ∑ manager, count fun proposalId => (l.slashLocks manager proposalId).operator ≠ 0 ∧
      (l.slashLocks manager proposalId).operator = operator

/-- The two counters of bans. -/
structure BanTally (l : SlashingLayout) : Prop where
  byManager : ∀ manager, (l.managers manager).activeBans =
    count fun operator => l.managerBans manager operator = true
  byOperator : ∀ operator, l.activeBans operator =
    count fun manager => l.managerBans manager operator = true
  operator_ne_zero : ∀ manager operator, l.managerBans manager operator = true → operator ≠ 0

/-- The counter of E3 assignments, which have a destination and an interfold contract. -/
structure AssignmentTally (d : Destinations) (l : SlashingLayout) : Prop where
  byManager : ∀ manager, (l.managers manager).e3Assignments = count fun e3Id => d manager e3Id ≠ 0
  assigned_iff : ∀ manager e3Id, d manager e3Id ≠ 0 ↔ l.e3Interfold manager e3Id ≠ 0

/-- The counter of reservations per E3. -/
def RouteTally (reservations : Address → Key → SlashedTicketReservation) (l : SlashingLayout) :
    Prop :=
  ∀ manager e3Id, l.e3Routes manager e3Id =
    count fun proposalId => (reservations manager proposalId).amount ≠ 0 ∧
      (reservations manager proposalId).e3Id = e3Id

section

variable (field : SlashingManagerObligations → ℕ) {f : Address → SlashingManagerObligations}
  {mgr : Address} {o : SlashingManagerObligations}

/-- The obligations of `manager` are replaced by ones that agree in `field`. -/
lemma field_same (h : field o = field (f mgr)) (x : Address) :
    field (update f mgr o x) = field (f x) := by
  grind [update_apply]

lemma field_succ (h : field o = field (f mgr) + 1) (x : Address) :
    field (update f mgr o x) = field (f x) + if x = mgr then 1 else 0 := by
  grind [update_apply]

lemma field_pred (hpos : 1 ≤ field (f mgr)) (h : field o = field (f mgr) - 1)
    (x : Address) : field (update f mgr o x) + (if x = mgr then 1 else 0) = field (f x) := by
  grind [update_apply]

end

section

variable {l l' : SlashingLayout} {mgr : Address} {pid e3Id : Key} {op : Address}

/-- A lock record is overwritten and every counter moves by what it gained and lost. -/
lemma LockTally.write (h : LockTally l) (hlocks : l'.slashLocks = update₂ l.slashLocks mgr pid lock)
    (hmgr : ∀ x, (l'.managers x).openSlashLocks +
        (if x = mgr ∧ (l.slashLocks mgr pid).operator ≠ 0 then 1 else 0) =
      (l.managers x).openSlashLocks + if x = mgr ∧ lock.operator ≠ 0 then 1 else 0)
    (he3 : ∀ x e, l'.e3Locks x e + (if x = mgr ∧ (l.slashLocks mgr pid).operator ≠ 0 ∧
          (l.slashLocks mgr pid).e3Id = e then 1 else 0) =
      l.e3Locks x e + if x = mgr ∧ lock.operator ≠ 0 ∧ lock.e3Id = e then 1 else 0)
    (hoper : ∀ o, l'.openSlashLocks o + (if (l.slashLocks mgr pid).operator ≠ 0 ∧
          (l.slashLocks mgr pid).operator = o then 1 else 0) =
      l.openSlashLocks o + if lock.operator ≠ 0 ∧ lock.operator = o then 1 else 0) :
    LockTally l' where
  byManager x := by
    have hcount := count_row_write l.slashLocks mgr pid lock (·.operator ≠ 0) x
    have := hmgr x
    have := h.byManager x
    rw [hlocks]
    omega
  byE3 x e := by
    have hcount := count_row_write l.slashLocks mgr pid lock
      (fun k => k.operator ≠ 0 ∧ k.e3Id = e) x
    have := he3 x e
    have := h.byE3 x e
    rw [hlocks]
    omega
  byOperator o := by
    have hcount := count_table_write l.slashLocks mgr pid lock
      (fun k => k.operator ≠ 0 ∧ k.operator = o)
    have := hoper o
    have := h.byOperator o
    rw [hlocks]
    omega

lemma BanTally.write (h : BanTally l) (hne : op ≠ 0)
    (hbans : l'.managerBans = update₂ l.managerBans mgr op banned)
    (hmgr : ∀ x, (l'.managers x).activeBans +
        (if x = mgr ∧ l.managerBans mgr op = true then 1 else 0) =
      (l.managers x).activeBans + if x = mgr ∧ banned = true then 1 else 0)
    (hoper : ∀ o, l'.activeBans o + (if o = op ∧ l.managerBans mgr op = true then 1 else 0) =
      l.activeBans o + if o = op ∧ banned = true then 1 else 0) : BanTally l' where
  byManager x := by
    have hcount := count_row_write l.managerBans mgr op banned (· = true) x
    have := hmgr x
    have := h.byManager x
    rw [hbans]
    omega
  byOperator o := by
    have hcount := count_column_write l.managerBans mgr op banned (· = true) o
    have := hoper o
    have := h.byOperator o
    rw [hbans]
    omega
  operator_ne_zero x o := by
    rw [hbans, update₂_apply]
    split_ifs with hxo
    · exact fun _ => hxo.2 ▸ hne
    · exact h.operator_ne_zero x o

lemma AssignmentTally.write (h : AssignmentTally d l)
    (hifold : l'.e3Interfold = update₂ l.e3Interfold mgr e3Id interfold)
    (hpair : dst ≠ 0 ↔ interfold ≠ 0) (hmgr : ∀ x, (l'.managers x).e3Assignments +
        (if x = mgr ∧ d mgr e3Id ≠ 0 then 1 else 0) =
      (l.managers x).e3Assignments + if x = mgr ∧ dst ≠ 0 then 1 else 0) :
    AssignmentTally (update₂ d mgr e3Id dst) l' where
  byManager x := by
    have hcount := count_row_write d mgr e3Id dst (· ≠ 0) x
    have := hmgr x
    have := h.byManager x
    omega
  assigned_iff x e := by
    rw [hifold, update₂_apply, update₂_apply]
    split_ifs
    · exact hpair
    · exact h.assigned_iff x e

lemma RouteTally.write (h : RouteTally reservations l) (he3 : ∀ x e, l'.e3Routes x e +
        (if x = mgr ∧ (reservations mgr pid).amount ≠ 0 ∧
          (reservations mgr pid).e3Id = e then 1 else 0) =
      l.e3Routes x e + if x = mgr ∧ r.amount ≠ 0 ∧ r.e3Id = e then 1 else 0) :
    RouteTally (update₂ reservations mgr pid r) l' := by
  intro x e
  have hcount := count_row_write reservations mgr pid r (fun k => k.amount ≠ 0 ∧ k.e3Id = e) x
  have := he3 x e
  have := h x e
  omega

/-! A live record is counted by every tally. -/

lemma LockTally.pos (h : LockTally l) (hlive : (l.slashLocks mgr pid).operator ≠ 0) :
    0 < (l.managers mgr).openSlashLocks ∧ 0 < l.e3Locks mgr (l.slashLocks mgr pid).e3Id ∧
      0 < l.openSlashLocks (l.slashLocks mgr pid).operator := by
  rw [h.byManager, h.byE3, h.byOperator]
  refine ⟨count_pos (a := pid) hlive, count_pos (a := pid) ⟨hlive, rfl⟩, ?_⟩
  refine Nat.lt_of_lt_of_le ?_ (le_sum _ mgr)
  exact count_pos (a := pid) ⟨hlive, rfl⟩

lemma BanTally.pos (h : BanTally l) (hlive : l.managerBans mgr op = true) :
    0 < (l.managers mgr).activeBans ∧ 0 < l.activeBans op := by
  rw [h.byManager, h.byOperator]
  exact ⟨count_pos (a := op) hlive, count_pos (a := mgr) hlive⟩

lemma AssignmentTally.pos (h : AssignmentTally d l) (hlive : d mgr e3Id ≠ 0) :
    0 < (l.managers mgr).e3Assignments := by
  rw [h.byManager]
  exact count_pos (a := e3Id) hlive

/-! A tally survives a write to the obligations of one manager that leaves its counter alone. -/

lemma LockTally.of_same (h : LockTally l) (hmgrs : l'.managers = update l.managers mgr o)
    (ho : o.openSlashLocks = (l.managers mgr).openSlashLocks)
    (hlocks : l'.slashLocks = l.slashLocks) (he3 : l'.e3Locks = l.e3Locks)
    (hoper : l'.openSlashLocks = l.openSlashLocks) : LockTally l' where
  byManager x := by
    rw [hmgrs, field_same (·.openSlashLocks) ho, hlocks]
    exact h.byManager x
  byE3 := by
    rw [he3, hlocks]
    exact h.byE3
  byOperator := by
    rw [hoper, hlocks]
    exact h.byOperator

lemma BanTally.of_same (h : BanTally l) (hmgrs : l'.managers = update l.managers mgr o)
    (ho : o.activeBans = (l.managers mgr).activeBans) (hbans : l'.managerBans = l.managerBans)
    (hoper : l'.activeBans = l.activeBans) : BanTally l' where
  byManager x := by
    rw [hmgrs, field_same (·.activeBans) ho, hbans]
    exact h.byManager x
  byOperator := by
    rw [hoper, hbans]
    exact h.byOperator
  operator_ne_zero := by
    rw [hbans]
    exact h.operator_ne_zero

lemma AssignmentTally.of_same (h : AssignmentTally d l)
    (hmgrs : l'.managers = update l.managers mgr o)
    (ho : o.e3Assignments = (l.managers mgr).e3Assignments)
    (hifold : l'.e3Interfold = l.e3Interfold) : AssignmentTally d l' where
  byManager x := by
    rw [hmgrs, field_same (·.e3Assignments) ho]
    exact h.byManager x
  assigned_iff := by
    rw [hifold]
    exact h.assigned_iff

end

/-! ## What the library functions do -/

section

variable {env : Env} {l l' : SlashingLayout} {d d' : Destinations} {mgr op : Address}
  {e3Id pid : Key}

lemma openLock_spec (h : openLock mgr e3Id pid op d l = .ok l') :
    op ≠ 0 ∧ (l.slashLocks mgr pid).operator = 0 ∧
      l' = { l with
        slashLocks := update₂ l.slashLocks mgr pid ⟨e3Id, op⟩
        openSlashLocks := update l.openSlashLocks op (l.openSlashLocks op + 1)
        managers := update l.managers mgr { l.managers mgr with
          openSlashLocks := (l.managers mgr).openSlashLocks + 1 }
        e3Locks := update₂ l.e3Locks mgr e3Id (l.e3Locks mgr e3Id + 1) } := by
  simp only [openLock, run_ok] at h
  obtain ⟨-, hoper, -, -, -, hnew, _, ⟨-, rfl⟩, _, ⟨-, rfl⟩, _, ⟨-, rfl⟩, rfl⟩ := h
  exact ⟨hoper, hnew, rfl⟩

lemma closeLock_spec (h : closeLock mgr pid op l = .ok l') :
    op ≠ 0 ∧ (l.slashLocks mgr pid).operator = op ∧
      l' = { l with
        slashLocks := update₂ l.slashLocks mgr pid ⟨0, 0⟩
        openSlashLocks := update l.openSlashLocks op (l.openSlashLocks op - 1)
        managers := update l.managers mgr { l.managers mgr with
          openSlashLocks := (l.managers mgr).openSlashLocks - 1 }
        e3Locks := update₂ l.e3Locks mgr (l.slashLocks mgr pid).e3Id
          (l.e3Locks mgr (l.slashLocks mgr pid).e3Id - 1) } ∧
      1 ≤ l.openSlashLocks op ∧ 1 ≤ (l.managers mgr).openSlashLocks ∧
      1 ≤ l.e3Locks mgr (l.slashLocks mgr pid).e3Id := by
  simp only [closeLock, run_ok] at h
  obtain ⟨-, ⟨hlock, hoper⟩, _, ⟨h₁, rfl⟩, _, ⟨h₂, rfl⟩, _, ⟨h₃, rfl⟩, rfl⟩ := h
  exact ⟨hoper, hlock, rfl, h₁, h₂, h₃⟩

lemma openLock_locks (hl : LockTally l)
    (h : openLock mgr e3Id pid op d l = .ok l') : LockTally l' := by
  obtain ⟨hoper, hnew, rfl⟩ := openLock_spec h
  refine hl.write rfl ?_ ?_ ?_
  · intro x
    simpa [hnew, hoper] using field_succ (·.openSlashLocks) rfl x
  · intro x e
    simp [hnew, hoper, update₂_succ, eq_comm (a := e)]
  · intro o
    simp [hnew, hoper, update_succ, eq_comm (a := o)]

lemma closeLock_locks (hl : LockTally l) (h : closeLock mgr pid op l = .ok l') : LockTally l' := by
  obtain ⟨hoper, hlock, rfl, h₁, h₂, h₃⟩ := closeLock_spec h
  refine hl.write rfl ?_ ?_ ?_
  · intro x
    simpa [hlock, hoper] using field_pred (·.openSlashLocks) h₂ rfl x
  · intro x e
    simpa [hlock, hoper, eq_comm (a := e)] using update₂_pred l.e3Locks h₃ x e
  · intro o
    simpa [hlock, hoper, eq_comm (a := o)] using update_pred l.openSlashLocks h₁ o

lemma setBan_spec (h : setBan mgr op banned l = .ok (changed, l')) :
    l' = l ∨ ∃ bans managerBans, op ≠ 0 ∧ bans + (if l.managerBans mgr op = true then 1 else 0) =
        l.activeBans op + (if banned = true then 1 else 0) ∧
      managerBans + (if l.managerBans mgr op = true then 1 else 0) =
        (l.managers mgr).activeBans + (if banned = true then 1 else 0) ∧
      l' = { l with
        managerBans := update₂ l.managerBans mgr op banned
        activeBans := update l.activeBans op bans
        managers := update l.managers mgr { l.managers mgr with
          activeBans := managerBans } } := by
  simp only [setBan, run_ok] at h
  obtain ⟨-, hne, h⟩ := h
  rcases ite_ok.1 h with ⟨-, h⟩ | ⟨hchan, h⟩
  · simp only [pure_ok, Prod.mk.injEq] at h
    exact .inl h.2.symm
  · simp only [run_ok, Prod.mk.injEq] at h
    obtain ⟨bans, hbans, managerBans, hmanag, -, rfl⟩ := h
    have hold : l.managerBans mgr op = !banned := by
      cases hb : l.managerBans mgr op <;> cases banned <;> simp_all
    refine .inr ⟨bans, managerBans, hne, ?_, ?_, rfl⟩
    · rw [hold]
      cases banned <;> simp [run_ok] at hbans ⊢ <;> omega
    · rw [hold]
      cases banned <;> simp [run_ok] at hmanag ⊢ <;> omega

lemma setBan_bans (hl : BanTally l) (h : setBan mgr op banned l = .ok (changed, l')) :
    BanTally l' := by
  rcases setBan_spec h with rfl | ⟨bans, managerBans, hne, hbans, hmanag, rfl⟩
  · exact hl
  refine hl.write hne rfl ?_ ?_
  · intro x
    by_cases hx : x = mgr
    · subst hx
      simpa using hmanag
    · simp [hx]
  · intro o
    by_cases ho : o = op
    · subst ho
      simpa using hbans
    · simp [ho]

lemma snapshotE3_spec (h : snapshotE3 mgr e3Id refundManager interfold d l = .ok (d', l')) :
    refundManager ≠ 0 ∧ interfold ≠ 0 ∧ d mgr e3Id = 0 ∧ d' = update₂ d mgr e3Id refundManager ∧
      l' = { l with
        e3Interfold := update₂ l.e3Interfold mgr e3Id interfold
        managers := update l.managers mgr { l.managers mgr with
          e3Assignments := (l.managers mgr).e3Assignments + 1 } } := by
  simp only [snapshotE3, run_ok, Prod.mk.injEq] at h
  obtain ⟨-, ⟨hrefund, hifold⟩, -, hnew, _, ⟨-, rfl⟩, rfl, rfl⟩ := h
  exact ⟨hrefund, hifold, hnew, rfl, rfl⟩

lemma releaseE3_spec (h : releaseE3 env mgr e3Id d l = .ok (d', l')) :
    l.e3Interfold mgr e3Id ≠ 0 ∧ 1 ≤ (l.managers mgr).e3Assignments ∧ d' = update₂ d mgr e3Id 0 ∧
      l' = { l with
        e3Interfold := update₂ l.e3Interfold mgr e3Id 0
        managers := update l.managers mgr { l.managers mgr with
          e3Assignments := (l.managers mgr).e3Assignments - 1 } } := by
  simp only [releaseE3, run_ok, Prod.mk.injEq] at h
  obtain ⟨-, hifold, -, -, -, -, -, -, _, ⟨hpos, rfl⟩, rfl, rfl⟩ := h
  exact ⟨hifold, hpos, rfl, rfl⟩

lemma snapshotE3_assignments (hl : AssignmentTally d l)
    (h : snapshotE3 mgr e3Id refundManager interfold d l = .ok (d', l')) :
    AssignmentTally d' l' := by
  obtain ⟨hrefund, hifold, hnew, rfl, rfl⟩ := snapshotE3_spec h
  refine hl.write rfl (by simp [hrefund, hifold]) fun x => ?_
  simpa [hnew, hrefund] using field_succ (·.e3Assignments) rfl x

lemma releaseE3_assignments (hl : AssignmentTally d l)
    (h : releaseE3 env mgr e3Id d l = .ok (d', l')) : AssignmentTally d' l' := by
  obtain ⟨hifold, hpos, rfl, rfl⟩ := releaseE3_spec h
  have hassig : d mgr e3Id ≠ 0 := (hl.assigned_iff mgr e3Id).2 hifold
  refine hl.write rfl Iff.rfl fun x => ?_
  simpa [hassig] using field_pred (·.e3Assignments) hpos rfl x

lemma updateRouteCount_spec (h : updateRouteCount mgr e3Id increase l = .ok l') :
    ∃ routes, l' = { l with e3Routes := update₂ l.e3Routes mgr e3Id routes } ∧
      routes + (if increase = false then 1 else 0) =
        l.e3Routes mgr e3Id + if increase = true then 1 else 0 := by
  simp only [updateRouteCount, run_ok] at h
  obtain ⟨routes, hrout, rfl⟩ := h
  refine ⟨routes, rfl, ?_⟩
  cases increase <;> simp [run_ok] at hrout ⊢ <;> omega

lemma setObligation_spec (h : l.setCommitteeObligation sender registry e3Id op active = .ok l') :
    ∃ registries obligations members committees n, l' = { l with
      committeeRegistries := registries
      committeeObligations := obligations
      committeeMemberCounts := members
      unresolvedCommittees := committees
      unresolvedCommitteeCount := n } := by
  cases active
  · simp only [SlashingLayout.setCommitteeObligation, Bool.false_eq_true, if_false,
      releaseCommitteeObligation, bind_ok] at h
    obtain ⟨-, -, h⟩ := h
    split_ifs at h
    · simp only [run_ok] at h
      obtain ⟨-, -, n, -, rfl⟩ := h
      exact ⟨_, _, _, _, _, rfl⟩
    · simp only [run_ok] at h
      obtain ⟨members, -, committees, -, rfl⟩ := h
      exact ⟨_, _, _, _, _, rfl⟩
    · rw [pure_ok] at h
      exact ⟨_, _, _, _, _, h.symm⟩
  · simp only [SlashingLayout.setCommitteeObligation, if_true, openCommitteeObligation,
      bind_ok] at h
    obtain ⟨l₁, h₁, h⟩ := h
    have hl₁ : ∃ registries n, l₁ = { l with
        committeeRegistries := registries, unresolvedCommitteeCount := n } := by
      split_ifs at h₁
      · simp only [run_ok] at h₁
        obtain ⟨-, -, n, -, rfl⟩ := h₁
        exact ⟨_, _, rfl⟩
      · simp only [run_ok] at h₁
        obtain ⟨-, -, rfl⟩ := h₁
        exact ⟨_, _, rfl⟩
    obtain ⟨registries, n, rfl⟩ := hl₁
    split_ifs at h
    · rw [pure_ok] at h
      exact ⟨_, _, _, _, _, h.symm⟩
    · simp only [run_ok] at h
      obtain ⟨members, -, committees, -, rfl⟩ := h
      exact ⟨_, _, _, _, _, rfl⟩

end

/-! ## The invariant -/

structure ObligationInvariant (l : Ledgers) : Prop where
  tickets : TicketInvariant l
  locks : LockTally l.slashing
  bans : BanTally l.slashing
  assignments : AssignmentTally l.slashRouteDestinations l.slashing
  routes : RouteTally l.slashedTicketReservations l.slashing
  indexed : l.authorized.WellFormed
  /-- A manager that is not authorized has no obligation left. -/
  unauthorized : ∀ manager, l.authorized.indexPlusOne manager = 0 →
    l.slashing.managers manager = ⟨0, 0, 0⟩ ∧ l.pendingSlashRouteCount manager = 0

namespace ObligationInvariant

variable {env : Env} {l l' : Ledgers}

lemma installed (htoken : token ≠ 0) (underlying : Erc20) (bondTokenAddress : Address)
    (bondToken : Erc20) :
    ObligationInvariant (.installed this token underlying bondTokenAddress bondToken) where
  tickets := .installed htoken ..
  locks := by constructor <;> simp [Ledgers.installed, State.ledgers, State.blank,
    SlashingLayout.blank, count]
  bans := by constructor <;> simp [Ledgers.installed, State.ledgers, State.blank,
    SlashingLayout.blank, count]
  assignments := by constructor <;> simp [Ledgers.installed, State.ledgers, State.blank,
    SlashingLayout.blank, count]
  routes := by
    intro mgr e3Id
    simp [Ledgers.installed, State.ledgers, State.blank, SlashingLayout.blank, count]
  indexed := by
    intro x i
    simp [Ledgers.installed, State.ledgers, State.blank]
  unauthorized _ _ := ⟨rfl, rfl⟩

/-- Obligations of an authorized manager may change freely. -/
lemma managers_update (h : ObligationInvariant l) (hmgr : l.authorized.indexPlusOne mgr ≠ 0) :
    ∀ x, l.authorized.indexPlusOne x = 0 →
      update l.slashing.managers mgr o x = ⟨0, 0, 0⟩ ∧ l.pendingSlashRouteCount x = 0 := by
  intro x hx
  rw [update_of_ne (by rintro rfl; exact hmgr hx)]
  exact h.unauthorized x hx

lemma routes_update (h : ObligationInvariant l) (hmgr : l.authorized.indexPlusOne mgr ≠ 0) :
    ∀ x, l.authorized.indexPlusOne x = 0 →
      l.slashing.managers x = ⟨0, 0, 0⟩ ∧ update l.pendingSlashRouteCount mgr n x = 0 := by
  intro x hx
  rw [update_of_ne (by rintro rfl; exact hmgr hx)]
  exact h.unauthorized x hx

lemma effect (h : ObligationInvariant l) (heff : Effect env l l') : ObligationInvariant l' := by
  have hticks := h.tickets.effect heff
  have hinv := h
  obtain ⟨-, hlocks, hbans, hasg, hrout, hidx, hunauth⟩ := h
  cases heff with
  | idle | setBondOwner | acceptBondOwner | releaseAssets | addTickets | removeTickets | bond |
    unbond | claim | slashTickets | slashBond | withdraw | sweep | installTokens | transfers =>
    exact ⟨hticks, hlocks, hbans, hasg, hrout, hidx, hunauth⟩
  | snapshot hmgr hsnap =>
    have hasg' := snapshotE3_assignments hasg hsnap
    obtain ⟨-, -, -, rfl, rfl⟩ := snapshotE3_spec hsnap
    exact ⟨hticks, hlocks.of_same rfl rfl rfl rfl rfl, hbans.of_same rfl rfl rfl rfl, hasg', hrout,
      hidx, hinv.managers_update hmgr⟩
  | releaseE3 hmgr hrel =>
    have hasg' := releaseE3_assignments hasg hrel
    obtain ⟨-, -, rfl, rfl⟩ := releaseE3_spec hrel
    exact ⟨hticks, hlocks.of_same rfl rfl rfl rfl rfl, hbans.of_same rfl rfl rfl rfl, hasg', hrout,
      hidx, hinv.managers_update hmgr⟩
  | openLock hmgr hopen =>
    have hlocks' := openLock_locks hlocks hopen
    obtain ⟨-, -, rfl⟩ := openLock_spec hopen
    exact ⟨hticks, hlocks', hbans.of_same rfl rfl rfl rfl, hasg.of_same rfl rfl rfl, hrout, hidx,
      hinv.managers_update hmgr⟩
  | closeLock hmgr hclose =>
    have hlocks' := closeLock_locks hlocks hclose
    obtain ⟨-, -, rfl, -⟩ := closeLock_spec hclose
    exact ⟨hticks, hlocks', hbans.of_same rfl rfl rfl rfl, hasg.of_same rfl rfl rfl, hrout, hidx,
      hinv.managers_update hmgr⟩
  | ban hmgr hban =>
    have hbans' := setBan_bans hbans hban
    rcases setBan_spec hban with rfl | ⟨_, _, -, -, -, rfl⟩
    · exact ⟨hticks, hlocks, hbans, hasg, hrout, hidx, hunauth⟩
    exact ⟨hticks, hlocks.of_same rfl rfl rfl rfl rfl, hbans', hasg.of_same rfl rfl rfl, hrout,
      hidx, hinv.managers_update hmgr⟩
  | @reserve pid e3Id amount _ hmgr hpos hnew _ _ hroute =>
    obtain ⟨n, rfl, hn⟩ := updateRouteCount_spec hroute
    refine ⟨hticks, ⟨hlocks.1, hlocks.2, hlocks.3⟩, ⟨hbans.1, hbans.2, hbans.3⟩,
      ⟨hasg.1, hasg.2⟩, hrout.write fun x e => ?_, hidx, hinv.routes_update hmgr⟩
    · obtain rfl : n = l.slashing.e3Routes env.sender e3Id + 1 := by simpa using hn
      simp [hnew, hpos.ne', update₂_succ, eq_comm (a := e)]
  | @redirect pid _ _ hmgr hpos hroute _ =>
    obtain ⟨n, rfl, hn⟩ := updateRouteCount_spec hroute
    refine ⟨hticks, ⟨hlocks.1, hlocks.2, hlocks.3⟩, ⟨hbans.1, hbans.2, hbans.3⟩,
      ⟨hasg.1, hasg.2⟩, hrout.write fun x e => ?_, hidx, hinv.routes_update hmgr⟩
    · simp only [if_true, Bool.false_eq_true, if_false, Nat.add_zero] at hn
      obtain rfl := Nat.eq_sub_of_add_eq hn
      simpa [hpos, eq_comm (a := e)] using update₂_pred l.slashing.e3Routes (by omega) x e
  | committee hcomm =>
    obtain ⟨_, _, _, _, _, rfl⟩ := setObligation_spec hcomm
    exact ⟨hticks, ⟨hlocks.1, hlocks.2, hlocks.3⟩, ⟨hbans.1, hbans.2, hbans.3⟩,
      ⟨hasg.1, hasg.2⟩, hrout, hidx, hunauth⟩
  | authorize hauth =>
    simp only [authorizeManager, bind_ok] at hauth
    obtain ⟨-, -, hauth⟩ := hauth
    rw [ite_ok] at hauth
    rcases hauth with ⟨-, hsame⟩ | ⟨hnew, hpush⟩
    · rw [pure_ok] at hsame
      subst hsame
      exact ⟨hticks, hlocks, hbans, hasg, hrout, hidx, hunauth⟩
    · simp only [run_ok] at hpush
      obtain ⟨-, -, rfl⟩ := hpush
      exact ⟨hticks, hlocks, hbans, hasg, hrout, hidx.push (not_not.1 hnew),
        fun x hx => hunauth x (IndexedSet.absent_of_push hx)⟩
  | @revoke mgr _ m hrevoke =>
    simp only [revokeManager, run_ok] at hrevoke
    obtain ⟨-, -, -, hauthor, -, hroutesZero, -, hlocksZero, -, hbansZero, -, hassign,
      rfl⟩ := hrevoke
    refine ⟨hticks, hlocks, hbans, hasg, hrout, hidx.swapRemove hauthor, fun x hx => ?_⟩
    rcases IndexedSet.absent_of_swapRemove hauthor hx with rfl | hx
    · refine ⟨?_, hroutesZero⟩
      rw [SlashingManagerObligations.mk.injEq]
      exact ⟨hassign, hlocksZero, hbansZero⟩
    · exact hunauth x hx

/-! Every live record belongs to an authorized manager. -/

section

variable (h : ObligationInvariant l)
include h

lemma authorized_of_lock (hlive : (l.slashing.slashLocks mgr pid).operator ≠ 0) :
    l.authorized.indexPlusOne mgr ≠ 0 := by
  intro habs
  have hpos := (h.locks.pos hlive).1
  simp [(h.unauthorized mgr habs).1] at hpos

lemma authorized_of_ban (hlive : l.slashing.managerBans mgr op = true) :
    l.authorized.indexPlusOne mgr ≠ 0 := by
  intro habs
  have hpos := (h.bans.pos hlive).1
  simp [(h.unauthorized mgr habs).1] at hpos

lemma authorized_of_assignment (hlive : l.slashRouteDestinations mgr e3Id ≠ 0) :
    l.authorized.indexPlusOne mgr ≠ 0 := by
  intro habs
  have hpos := h.assignments.pos hlive
  simp [(h.unauthorized mgr habs).1] at hpos

lemma authorized_of_reservation (hlive : (l.slashedTicketReservations mgr pid).amount ≠ 0) :
    l.authorized.indexPlusOne mgr ≠ 0 := by
  intro habs
  have hpos : 0 < l.pendingSlashRouteCount mgr := by
    have hcount := h.tickets.agree.outstanding_eq mgr
    rw [show l.pendingSlashRouteCount mgr = _ from hcount]
    exact count_pos (a := pid) hlive
  simp [(h.unauthorized mgr habs).2] at hpos

end

/-! ## Releasing a record -/

variable {s : State}

/-- The manager of a live lock can close it: none of the counters underflows. -/
lemma closeSlashLock_ok (h : ObligationInvariant s.ledgers)
    (hlive : (s.slashing.slashLocks env.sender pid).operator ≠ 0) :
    ∃ s', closeSlashLock env pid (s.slashing.slashLocks env.sender pid).operator s =
      .ok s' ∧ (s'.slashing.slashLocks env.sender pid).operator = 0 := by
  have hmgr := h.authorized_of_lock hlive
  obtain ⟨hpos₁, hpos₂, hpos₃⟩ := h.locks.pos hlive
  simp only [closeSlashLock, onlyAuthorizedSlashingManager, closeLock, run_ok]
  refine ⟨_, ⟨(), hmgr, _, ⟨(), ⟨trivial, hlive⟩, _, ⟨hpos₃, rfl⟩, _, ⟨hpos₁, rfl⟩, _,
    ⟨hpos₂, rfl⟩, rfl⟩, rfl⟩, ?_⟩
  exact congrArg BondingSlashLock.operator (update₂_self ..)

/-- The manager of a ban can lift it: what remains is the status refresh of a registered
operator. -/
lemma setOperatorBan_ok (h : ObligationInvariant s.ledgers)
    (hlive : s.slashing.managerBans env.sender op = true) :
    ∃ l, l.managerBans env.sender op = false ∧ setOperatorBan env op false s =
        if (s.operators op).registered then
          updateOperatorStatus env op { s with slashing := l }
        else .ok { s with slashing := l } := by
  have hmgr := h.authorized_of_ban hlive
  obtain ⟨hpos₁, hpos₂⟩ := h.bans.pos hlive
  have hban : ∃ l, setBan env.sender op false s.slashing = .ok (true, l) ∧
      l.managerBans env.sender op = false := by
    have hne : op ≠ 0 := h.bans.operator_ne_zero env.sender op hlive
    simp only [setBan, hlive, Bool.true_eq_false, Bool.false_eq_true, if_false, run_ok]
    exact ⟨_, ⟨(), hne, _, ⟨hpos₂, rfl⟩, _, ⟨hpos₁, rfl⟩, rfl⟩, update₂_self ..⟩
  obtain ⟨l, hban, hlift⟩ := hban
  refine ⟨l, hlift, ?_⟩
  have hgate : onlyAuthorizedSlashingManager env s = .ok () := require_ok.2 hmgr
  simp only [setOperatorBan, applyBan, hgate, hban, bind, Except.bind, Bool.true_and]
  rfl

end ObligationInvariant

lemma Reachable.obligationInvariant (h : Reachable now s) : ObligationInvariant s.ledgers :=
  h.ledgers_induction (fun _ _ _ _ _ htoken => .installed htoken ..) fun _ _ _ heff hinv =>
    hinv.effect heff

/-- In every reachable state the counters are the tallies of the live records, the index map is
the inverse of the array of managers, every live record belongs to a manager in the array, and
this manager can release the locks and bans it holds. -/
theorem no_orphaned_obligation {now : ℕ} {s : State} (h : Reachable now s) : (∀ manager,
      (s.slashing.managers manager).openSlashLocks =
        count (fun proposalId => (s.slashing.slashLocks manager proposalId).operator ≠ 0) ∧
      (s.slashing.managers manager).activeBans =
        count (fun operator => s.slashing.managerBans manager operator = true) ∧
      (s.slashing.managers manager).e3Assignments =
        count (fun e3Id => s.slashRouteDestinations manager e3Id ≠ 0) ∧
      s.pendingSlashRouteCount manager =
        count fun proposalId => (s.slashedTicketReservations manager proposalId).amount ≠ 0) ∧
    (∀ manager e3Id, s.slashing.e3Locks manager e3Id =
        count (fun proposalId => (s.slashing.slashLocks manager proposalId).operator ≠ 0 ∧
          (s.slashing.slashLocks manager proposalId).e3Id = e3Id) ∧
      s.slashing.e3Routes manager e3Id =
        count fun proposalId => (s.slashedTicketReservations manager proposalId).amount ≠ 0 ∧
          (s.slashedTicketReservations manager proposalId).e3Id = e3Id) ∧
    (∀ operator, s.slashing.openSlashLocks operator = ∑ manager, count (fun proposalId =>
          (s.slashing.slashLocks manager proposalId).operator ≠ 0 ∧
            (s.slashing.slashLocks manager proposalId).operator = operator) ∧
      s.slashing.activeBans operator =
        count fun manager => s.slashing.managerBans manager operator = true) ∧
    (∀ manager i, s.authorized.indexPlusOne manager = i + 1 ↔
      s.authorized.items[i]? = some manager) ∧
    (∀ manager, (∃ proposalId, (s.slashing.slashLocks manager proposalId).operator ≠ 0) ∨
      (∃ operator, s.slashing.managerBans manager operator = true) ∨
      (∃ proposalId, (s.slashedTicketReservations manager proposalId).amount ≠ 0) ∨
      (∃ e3Id, s.slashRouteDestinations manager e3Id ≠ 0) → manager ∈ s.authorized.items) ∧
    ∀ env, (∀ proposalId, (s.slashing.slashLocks env.sender proposalId).operator ≠ 0 →
        ∃ s', closeSlashLock env proposalId
          (s.slashing.slashLocks env.sender proposalId).operator s = .ok s' ∧
          (s'.slashing.slashLocks env.sender proposalId).operator = 0) ∧
      ∀ operator, s.slashing.managerBans env.sender operator = true →
        ∃ l, l.managerBans env.sender operator = false ∧ setOperatorBan env operator false s =
            if (s.operators operator).registered then
              updateOperatorStatus env operator { s with slashing := l }
            else .ok { s with slashing := l } := by
  have hinv := h.obligationInvariant
  refine ⟨fun manager => ⟨hinv.locks.byManager manager, hinv.bans.byManager manager,
      hinv.assignments.byManager manager, hinv.tickets.agree.outstanding_eq manager⟩,
    fun manager e3Id => ⟨hinv.locks.byE3 manager e3Id, hinv.routes manager e3Id⟩,
    fun operator => ⟨hinv.locks.byOperator operator, hinv.bans.byOperator operator⟩,
    hinv.indexed, fun manager hlive => ?_, fun env => ⟨fun _ => hinv.closeSlashLock_ok,
      fun _ => hinv.setOperatorBan_ok⟩⟩
  refine (hinv.indexed.mem_iff manager).2 ?_
  obtain ⟨_, hlock⟩ | ⟨_, hban⟩ | ⟨_, hreservation⟩ | ⟨_, hassignment⟩ := hlive
  · exact hinv.authorized_of_lock hlock
  · exact hinv.authorized_of_ban hban
  · exact hinv.authorized_of_reservation hreservation
  · exact hinv.authorized_of_assignment hassignment

/-- Managers 6 and 16 both lock and ban operator 7. Manager 26, authorized between them, is
revoked, so manager 16 moves into its place. -/
def lockedOperatorCalls : List (Address × Call) :=
  [(9, .setSlashingManager 6), (9, .setSlashingManager 26), (9, .setSlashingManager 16),
    (6, .snapshotSlashRouteDestination 11 12 13), (16, .snapshotSlashRouteDestination 11 12 13),
    (6, .openSlashLock 11 14 7), (16, .openSlashLock 11 15 7), (6, .setOperatorBan 7 true),
    (16, .setOperatorBan 7 true), (9, .revokeSlashingManager 26)]

theorem no_orphaned_obligation_locked : ∃ s, deployed lockedOperatorCalls = .ok s ∧
    s.authorized.items = [6, 16] ∧ s.slashing.openSlashLocks 7 = 2 ∧
    ∃ s', closeSlashLock (deploymentEnv 16 1000) 15 7 s = .ok s' ∧
      (s'.slashing.slashLocks 16 15).operator = 0 := by
  have hrun : ∃ s, deployed lockedOperatorCalls = .ok s ∧ s.authorized.items = [6, 16] ∧
      s.slashing.openSlashLocks 7 = 2 ∧ (s.slashing.slashLocks 16 15).operator = 7 :=
    ⟨_, rfl, rfl, rfl, rfl⟩
  obtain ⟨s, hs, hitems, hlocks, hlock⟩ := hrun
  obtain ⟨-, -, -, -, -, hrelease⟩ := no_orphaned_obligation (Reachable.deployed (by decide) hs)
  have hlive : (s.slashing.slashLocks 16 15).operator ≠ 0 := by
    rw [hlock]
    decide
  have hclose := (hrelease (deploymentEnv 16 1000)).1 15 hlive
  rw [show (deploymentEnv 16 1000).sender = 16 from rfl, hlock] at hclose
  exact ⟨s, hs, hitems, hlocks, hclose⟩

end Interfold.Bonding
