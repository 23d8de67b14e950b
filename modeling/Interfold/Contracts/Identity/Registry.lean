import Interfold.Contracts.Basic

/-!
# Owner identity registry

`OwnerIdentityRegistry` reserves identifiers for owners and records when the credential of an owner
expires. A credential is replaced only by one that lasts at least as long, unless it was revoked,
and every revocation of a current credential is counted.
-/

namespace Interfold.IdentityRegistry

open Transaction Checkpoints Function

structure Identity where
  identityId : Key
  expiresAt : ℕ
deriving DecidableEq

structure State where
  owner : Address
  verifier : Address
  ownerOfIdentity : Key → Address
  revoked : Key → Bool
  identities : Address → Identity
  history : Address → Trace ℕ
  revocationCounts : Trace ℕ

/-- The caller, the block, and what the verifier at an address answers to the evidence. -/
structure Env where
  sender : Address
  now : ℕ
  hasCode : Address → Bool
  verify : Address → Option (Key × Fin (2 ^ 48))

/-! ## Entry points -/

section

variable (env : Env)

/-- `_setVerifier`. -/
def installVerifier (newVerifier : Address) (s : State) : Tx State := do
  require (¬(newVerifier ≠ 0 ∧ env.hasCode newVerifier = false)) (.verifierHasNoCode newVerifier)
  pure { s with verifier := newVerifier }

def onlyOwner (s : State) : Tx Unit :=
  require (env.sender = s.owner) (.ownableUnauthorizedAccount env.sender)

def register (s : State) : Tx State := do
  require (s.verifier ≠ 0) .verifierNotSet
  let (identityId, expiry) ← external (env.verify s.verifier)
  let expiresAt := expiry.val
  require (env.now ≤ expiresAt) (.identityExpired identityId expiresAt)
  require (s.revoked identityId = false) (.identityIsRevoked identityId)
  let reservedOwner := s.ownerOfIdentity identityId
  require (reservedOwner = 0 ∨ reservedOwner = env.sender) (.identityInUse identityId reservedOwner)
  let current := s.identities env.sender
  require (current.expiresAt ≤ expiresAt) (.identityExpiryReduced current.expiresAt expiresAt)
  if current.identityId = identityId ∧ current.expiresAt = expiresAt then pure s else do
    let timepoint ← safeUint48 env.now
    let history ← pushCheckpoint (s.history env.sender) timepoint expiresAt
    pure { s with
      ownerOfIdentity := update s.ownerOfIdentity identityId env.sender
      identities := update s.identities env.sender ⟨identityId, expiresAt⟩
      history := update s.history env.sender history }

def revoke (identityId : Key) (s : State) : Tx State := do
  onlyOwner env s
  let identityOwner := s.ownerOfIdentity identityId
  require (identityOwner ≠ 0) (.unknownIdentity identityId)
  require (s.revoked identityId = false) (.identityIsRevoked identityId)
  let s := { s with revoked := update s.revoked identityId true }
  if (s.identities identityOwner).identityId = identityId then do
    let timepoint ← safeUint48 env.now
    let counts ← pushCheckpoint s.revocationCounts timepoint (s.revocationCounts.latest + 1)
    let history ← pushCheckpoint (s.history identityOwner) timepoint 0
    pure { s with
      revocationCounts := counts
      identities := update s.identities identityOwner ⟨0, 0⟩
      history := update s.history identityOwner history }
  else pure s

def setVerifier (newVerifier : Address) (s : State) : Tx State := do
  onlyOwner env s
  installVerifier env newVerifier s

/-- The effect of `Ownable2Step`'s two calls. -/
def transferOwnership (newOwner : Address) (s : State) : Tx State := do
  onlyOwner env s
  pure { s with owner := newOwner }

/-- The function `initialize` on the storage of a new proxy. -/
def deploy (owner verifier : Address) : Tx State :=
  installVerifier env verifier ⟨owner, 0, fun _ => 0, fun _ => false, fun _ => ⟨0, 0⟩, fun _ => [], []⟩

inductive Call where
  | register
  | revoke (identityId : Key)
  | setVerifier (newVerifier : Address)
  | transferOwnership (newOwner : Address)

def exec (s : State) : Call → Tx State
  | .register => register env s
  | .revoke identityId => revoke env identityId s
  | .setVerifier newVerifier => setVerifier env newVerifier s
  | .transferOwnership newOwner => transferOwnership env newOwner s

end

/-! ## Views -/

def isVerifiedAt (s : State) (identityOwner : Address) (timepoint : ℕ) : Tx Bool := do
  let key ← safeUint48 timepoint
  let expiresAt := (s.history identityOwner).upperLookup key
  pure (decide (expiresAt ≠ 0 ∧ timepoint ≤ expiresAt))

def identityOf (s : State) (identityOwner : Address) : Key × ℕ :=
  ((s.identities identityOwner).identityId, (s.identities identityOwner).expiresAt)

def revocationCountAt (s : State) (timepoint : ℕ) : Tx ℕ := do
  let key ← safeUint48 timepoint
  pure (s.revocationCounts.upperLookup key)

/-! ## What a call does to the credentials -/

/-- The newest expiry in the history of an owner is that of its credential. -/
structure Valid (now : ℕ) (s : State) : Prop where
  history : ∀ x, (s.history x).Ordered now
  revocations : s.revocationCounts.Ordered now
  current : ∀ x, (s.history x).latest = (s.identities x).expiresAt

/-- The past is final, and a credential gets shorter only by a revocation. -/
structure Evolves (now : ℕ) (s s' : State) : Prop where
  history : ∀ x, ∀ t < now, (s'.history x).upperLookup t = (s.history x).upperLookup t
  revocations : ∀ t < now, s'.revocationCounts.upperLookup t = s.revocationCounts.upperLookup t
  expiry : s'.revocationCounts.latest = s.revocationCounts.latest ∧
      (∀ x, (s.identities x).expiresAt ≤ (s'.identities x).expiresAt) ∨
    s.revocationCounts.latest < s'.revocationCounts.latest

section

variable {env : Env} {s s' : State} {now : ℕ}

lemma Evolves.of_eq (hhist : s'.history = s.history)
    (hcnts : s'.revocationCounts = s.revocationCounts) (hiden : s'.identities = s.identities) :
    Evolves now s s' where
  history x t _ := by rw [hhist]
  revocations t _ := by rw [hcnts]
  expiry := .inl ⟨by rw [hcnts], fun x => by rw [hiden]⟩

lemma Valid.of_eq (h : Valid now s) (hhist : s'.history = s.history)
    (hcnts : s'.revocationCounts = s.revocationCounts) (hiden : s'.identities = s.identities) :
    Valid now s' where
  history := hhist ▸ h.history
  revocations := hcnts ▸ h.revocations
  current x := by
    rw [hhist, hiden]
    exact h.current x

/-- One owner gets another credential. -/
lemma Valid.write {x : Address} {history : Trace ℕ} (identity : Identity) (h : Valid env.now s)
    (hpush : pushCheckpoint (s.history x) env.now identity.expiresAt = .ok history) :
    (∀ y, ((update s.history x history) y).Ordered env.now) ∧
      (∀ y, ((update s.history x history) y).latest =
        ((update s.identities x identity) y).expiresAt) ∧
      ∀ y, ∀ t < env.now, ((update s.history x history) y).upperLookup t =
        (s.history y).upperLookup t := by
  obtain ⟨hord, hlook⟩ := push_ok (h.history x) hpush
  refine ⟨?_, ?_, ?_⟩
  · intro y
    by_cases hy : y = x
    · subst hy
      simpa using hord
    · simpa [hy] using h.history y
  · intro y
    by_cases hy : y = x
    · subst hy
      rw [update_self, update_self, ← hord.lookup_now, hlook, if_pos (Nat.le_refl _)]
    · simpa [hy] using h.current y
  · intro y t ht
    by_cases hy : y = x
    · subst hy
      rw [update_self, hlook, if_neg (Nat.not_le.2 ht)]
    · rw [update_of_ne hy]

lemma register_ok (h : Valid env.now s) (hrun : register env s = .ok s') :
    Valid env.now s' ∧ Evolves env.now s s' := by
  simp only [register, run_ok, Prod.exists] at hrun
  obtain ⟨-, -, identityId, expiry, -, -, -, -, -, -, -, -, hlong, hrun⟩ := hrun
  split_ifs at hrun
  · obtain rfl := pure_ok.1 hrun
    exact ⟨h, .of_eq rfl rfl rfl⟩
  · simp only [run_ok, safeUint48_ok] at hrun
    obtain ⟨-, ⟨-, rfl⟩, history, hpush, rfl⟩ := hrun
    obtain ⟨hord, hcur, hpast⟩ := Valid.write ⟨identityId, expiry.val⟩ h hpush
    refine ⟨⟨hord, h.revocations, hcur⟩, hpast, fun _ _ => rfl, .inl ⟨rfl, fun x => ?_⟩⟩
    by_cases hx : x = env.sender
    · subst hx
      simpa using hlong
    · simp [hx]

lemma revoke_ok (h : Valid env.now s) (hrun : revoke env identityId s = .ok s') :
    Valid env.now s' ∧ Evolves env.now s s' := by
  simp only [revoke, bind_ok] at hrun
  obtain ⟨-, -, -, -, -, -, hrun⟩ := hrun
  split_ifs at hrun
  · simp only [run_ok, safeUint48_ok] at hrun
    obtain ⟨-, ⟨-, rfl⟩, counts, hcnts, history, hpush, rfl⟩ := hrun
    obtain ⟨hord, hcur, hpast⟩ := Valid.write ⟨0, 0⟩ h hpush
    obtain ⟨hcoun, hlook⟩ := push_ok h.revocations hcnts
    refine ⟨⟨hord, hcoun, hcur⟩, hpast, fun t ht => ?_, .inr ?_⟩
    · rw [hlook, if_neg (Nat.not_le.2 ht)]
    · rw [← hcoun.lookup_now, hlook, if_pos (Nat.le_refl _)]
      exact Nat.lt_succ_self _
  · obtain rfl := pure_ok.1 hrun
    exact ⟨h.of_eq rfl rfl rfl, .of_eq rfl rfl rfl⟩

lemma exec_ok (h : Valid env.now s) (hrun : exec env s c = .ok s') :
    Valid env.now s' ∧ Evolves env.now s s' := by
  cases c with
  | register => exact register_ok h hrun
  | revoke identityId => exact revoke_ok h hrun
  | setVerifier newVerifier =>
    simp only [exec, setVerifier, installVerifier, run_ok] at hrun
    obtain ⟨-, -, -, -, rfl⟩ := hrun
    exact ⟨h.of_eq rfl rfl rfl, .of_eq rfl rfl rfl⟩
  | transferOwnership newOwner =>
    simp only [exec, transferOwnership, run_ok] at hrun
    obtain ⟨-, -, rfl⟩ := hrun
    exact ⟨h.of_eq rfl rfl rfl, .of_eq rfl rfl rfl⟩

lemma deploy_ok (hrun : deploy env owner verifier = .ok s) :
    Valid now s ∧ (∀ x, s.history x = []) ∧ s.revocationCounts = [] := by
  simp only [deploy, installVerifier, run_ok] at hrun
  obtain ⟨-, -, rfl⟩ := hrun
  exact ⟨⟨fun _ => .nil now, .nil now, fun _ => rfl⟩, fun _ => rfl, rfl⟩

lemma Valid.mono (h : Valid now s) (hle : now ≤ later) : Valid later s :=
  ⟨fun x => (h.history x).mono hle, h.revocations.mono hle, h.current⟩

end

/-- States after calls that did not revert, at block times that never decrease. -/
inductive Reachable : ℕ → State → Prop
  | deploy (h : deploy env owner verifier = .ok s) : Reachable env.now s
  | wait (h : Reachable now s) (hle : now ≤ later) : Reachable later s
  | call {env : Env} {s s' : State} {c : Call} (h : Reachable env.now s)
      (hexec : exec env s c = .ok s') : Reachable env.now s'

lemma Reachable.valid (h : Reachable now s) : Valid now s := by
  induction h with
  | deploy h => exact (deploy_ok h).1
  | wait _ hle ih => exact ih.mono hle
  | call _ hexec ih => exact (exec_ok ih hexec).1

/-! ## Reservations -/

/-- A live credential is held by the owner that its identifier is reserved for. -/
def Bound (s : State) : Prop :=
  ∀ x ≠ 0, (s.identities x).expiresAt ≠ 0 →
    s.ownerOfIdentity (identityOf s x).1 = x ∧ s.revoked (identityOf s x).1 = false

/-- A reservation and a revocation are for good. -/
def Keeps (s s' : State) : Prop :=
  ∀ id, (s.ownerOfIdentity id ≠ 0 → s'.ownerOfIdentity id = s.ownerOfIdentity id) ∧
    (s.revoked id → s'.revoked id)

lemma exec_bound (hrun : exec env s c = .ok s') : (Bound s → Bound s') ∧ Keeps s s' := by
  unfold Bound Keeps identityOf
  cases c <;> simp only [exec, register, revoke, setVerifier, installVerifier, transferOwnership,
    run_ok, Prod.exists] at hrun
  case register =>
    obtain ⟨-, -, id, expiry, -, -, -, -, hfree, -, howner, -, -, hrun⟩ := hrun
    split_ifs at hrun <;> simp only [run_ok] at hrun
    · grind
    · obtain ⟨-, -, history, -, rfl⟩ := hrun
      grind [update_apply]
  case revoke id =>
    obtain ⟨-, -, -, -, -, -, hrun⟩ := hrun
    split_ifs at hrun <;> simp only [run_ok] at hrun
    · obtain ⟨-, -, counts, -, history, -, rfl⟩ := hrun
      grind [update_apply]
    · subst hrun
      grind [update_apply]
  · obtain ⟨-, -, -, -, rfl⟩ := hrun
    grind
  · obtain ⟨-, -, rfl⟩ := hrun
    grind

/-- An owner is verified only by an identifier that is reserved for it and not revoked, and no later
call lifts a reservation or a revocation. -/
theorem verified_identity_reserved (h : Reachable now s) :
    (∀ x ≠ 0, isVerifiedAt s x now = .ok true →
      s.ownerOfIdentity (identityOf s x).1 = x ∧ s.revoked (identityOf s x).1 = false) ∧
    ∀ s', Relation.ReflTransGen (fun s s' => ∃ env c, exec env s c = .ok s') s s' → Keeps s s' := by
  have hvalid := h.valid
  have hbound : Bound s := by
    induction h with
    | deploy h =>
      simp only [deploy, installVerifier, run_ok] at h
      obtain ⟨-, -, rfl⟩ := h
      exact fun x _ hlive => (hlive rfl).elim
    | wait h _ ih => exact ih h.valid
    | call h hexec ih => exact (exec_bound hexec).1 (ih h.valid)
  refine ⟨fun x hx hver => hbound x hx ?_, fun s' hrun => ?_⟩
  · simp only [isVerifiedAt, run_ok, safeUint48_ok] at hver
    obtain ⟨_, ⟨-, rfl⟩, hver⟩ := hver
    rw [← hvalid.current, ← (hvalid.history x).lookup_now]
    exact (of_decide_eq_true hver).1
  · induction hrun with
    | refl => exact fun _ => ⟨fun _ => rfl, id⟩
    | tail _ hstep ih =>
      obtain ⟨env, c, hexec⟩ := hstep
      grind [Keeps, exec_bound hexec]

def sampleEnv : Env := ⟨7, 100, fun _ => true, fun _ => some (5, 200)⟩

/-- A verifier issues the identifier five to the caller. -/
theorem verified_identity_registered :
    ∃ s, isVerifiedAt s 7 100 = .ok true ∧ s.ownerOfIdentity 5 = 7 :=
  have hdep : Reachable 100 _ := .deploy (show deploy sampleEnv 1 2 = .ok _ from rfl)
  have h : Reachable 100 _ := .call hdep (show exec sampleEnv _ .register = .ok _ from rfl)
  ⟨_, rfl, ((verified_identity_reserved h).1 7 (by decide) rfl).1⟩

end Interfold.IdentityRegistry
