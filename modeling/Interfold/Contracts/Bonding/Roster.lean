import Interfold.Contracts.Bonding.Registry

/-!
# What a call does to the roster

`Roster` is the part of the registry's storage that decides who is eligible and who owns what, and
`Move` lists everything a call can do to it. Bonds, tickets and slashing records reach it only
through the requirements that a status update reads, which are left open here.
-/

namespace Interfold.Bonding

open Transaction Function Relation

/-- The storage that eligibility depends on and that status updates write. -/
structure Roster where
  registered : Address → Bool
  /-- `eligibilityVersion` and `active`. -/
  status : Address → ℕ × Bool
  configurationVersion : ℕ
  numRegistered : ℕ
  numActive : ℕ
  bondOwnerOf : Address → Address
  pool : Pool

def State.roster (s : State) : Roster where
  registered operator := (s.operators operator).registered
  status operator := ((s.operators operator).eligibilityVersion, (s.operators operator).active)
  configurationVersion := s.eligibilityConfigurationVersion
  numRegistered := s.numRegisteredOperators
  numActive := s.numActiveOperators
  bondOwnerOf := s.bondOwnerOf
  pool := s.pool

namespace Roster

/-- The cached status counts only in the version it was computed for. -/
def wasActive (r : Roster) (operator : Address) : Bool :=
  decide ((r.status operator).1 = r.configurationVersion) && (r.status operator).2

def setStatus (r : Roster) (operator : Address) (pool : Pool) (count : ℕ) (active : Bool) :
    Roster :=
  { r with
    status := update r.status operator (r.configurationVersion, active)
    numActive := count
    pool }

/-- A status update, for some requirements of an operator that is or is not registered. -/
def Updates (env : Env) (operator : Address) (r : Roster) (pool : Pool) (count : ℕ)
    (active : Bool) : Prop :=
  ∃ this requirements, requirements.registered = r.registered operator ∧
    Eligibility.updateOperator env this operator r.bondOwnerOf r.numRegistered
      (r.wasActive operator) requirements r.configurationVersion r.numActive r.pool =
        .ok (pool, count, active)

def enter (r : Roster) (operator : Address) (pool : Pool) : Roster :=
  { r with
    registered := update r.registered operator true
    numRegistered := r.numRegistered + 1
    pool }

def leave (r : Roster) (operator : Address) (pool : Pool) : Roster :=
  { r with
    registered := update r.registered operator false
    numRegistered := r.numRegistered - 1
    pool }

end Roster

/-- The moves a call is made of. -/
inductive Move (env : Env) (r : Roster) : Roster → Prop
  | enter {operator : Address} {pool₁ pool₂ : Pool} (hnew : r.registered operator = false)
      (hexclude : Eligibility.excludeNewRegistration env r.numRegistered operator r.pool =
        .ok pool₁)
      (hstart : Admission.start env operator pool₁ = .ok pool₂) :
      Move env r (r.enter operator pool₂)
  | update (hupdate : r.Updates env operator pool count active) :
      Move env r (r.setStatus operator pool count active)
  | leave {operator : Address} {pool₁ pool₂ : Pool} {count : ℕ} {active : Bool}
      (hold : r.registered operator = true)
      (hcomplete : Eligibility.completeOperatorRefresh env r.numRegistered operator r.pool =
        .ok pool₁)
      (hupdate : (r.leave operator pool₁).Updates env operator pool₂ count active) :
      Move env r ((r.leave operator pool₁).setStatus operator pool₂ count active)
  | invalidate
      (h : Eligibility.invalidateConfiguration env r.configurationVersion r.numRegistered r.pool =
        .ok (version, pool)) :
      Move env r { r with configurationVersion := version, pool, numActive := 0 }
  | own (hne : newOwner ≠ 0)
      (h : recordOwner env r.bondOwnerOf operator (r.bondOwnerOf operator) newOwner r.pool =
        .ok pool) : Move env r { r with
        pool, bondOwnerOf := Function.update r.bondOwnerOf operator newOwner }
  | admissionPolicy (h : Admission.setPolicy env enabled duration paused r.pool = .ok pool) :
      Move env r { r with pool }
  | identityPolicy {registry : Address} {required : Bool} {pool : Pool}
      (h : Identity.setPolicy env registry required r.pool = .ok pool) :
      Move env r { r with pool }

abbrev Moves (env : Env) : Roster → Roster → Prop := ReflTransGen (Move env)

/-! ## Status updates -/

section

variable {env : Env} {s s' : State} {op : Address}

lemma roster_setOperator (s : State) (op : Address) (o : Operator) :
    (s.setOperator op o).roster = { s.roster with
      registered := update s.roster.registered op o.registered
      status := update s.roster.status op (o.eligibilityVersion, o.active) } := by
  simp only [State.roster, State.setOperator, Roster.mk.injEq, and_true]
  constructor
  · funext x
    by_cases hx : x = op
    · subst hx
      simp
    · simp [hx]
  · funext x
    by_cases hx : x = op
    · subst hx
      simp
    · simp [hx]

/-- Whether `o` has the cached status of the operator. -/
def Operator.SameStatus (s : State) (operator : Address) (o : Operator) : Prop :=
  (o.eligibilityVersion, o.active) = s.roster.status operator

lemma roster_setOperator_registered (h : o.SameStatus s op) : (s.setOperator op o).roster =
      { s.roster with registered := update s.roster.registered op o.registered } := by
  rw [roster_setOperator, h, update_eq_self]

lemma roster_setOperator_of_eq (h : o.SameStatus s op)
    (hreg : o.registered = s.roster.registered op) : (s.setOperator op o).roster = s.roster := by
  rw [roster_setOperator_registered h, hreg, update_eq_self]

lemma roster_setBond (op : Address) (n : ℕ) : (s.setBond op n).roster = s.roster :=
  roster_setOperator_of_eq rfl rfl

lemma updateStatus_updates (h : updateOperatorStatus env op s = .ok s') :
    ∃ pool count active, s.roster.Updates env op pool count active ∧
      s'.roster = s.roster.setStatus op pool count active := by
  simp only [updateOperatorStatus, run_ok, Prod.exists] at h
  obtain ⟨pool, count, active, hupd, rfl⟩ := h
  refine ⟨pool, count, active, ⟨_, _, ?_, hupd⟩, ?_⟩
  · rfl
  · have heq := roster_setOperator s op { s.operators op with
      eligibilityVersion := s.eligibilityConfigurationVersion, active }
    have hreg : update s.roster.registered op (s.operators op).registered =
        s.roster.registered := update_eq_self ..
    rw [hreg] at heq
    exact congrArg (fun r : Roster => { r with pool, numActive := count }) heq

lemma roster_setRegistered (h : o.SameStatus s op) (pool : Pool) (count : ℕ) :
    ({ s.setOperator op o with pool, numRegisteredOperators := count } : State).roster =
      { s.roster with
        registered := update s.roster.registered op o.registered
        numRegistered := count
        pool } :=
  congrArg (fun r : Roster => { r with pool, numRegistered := count })
    (roster_setOperator_registered h)

end

end Interfold.Bonding
