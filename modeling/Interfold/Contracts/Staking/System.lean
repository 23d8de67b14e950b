import Interfold.Contracts.Bonding.Stake
import Interfold.Contracts.Fold.Effects
import Interfold.Contracts.Governance.BondedCheckpoints

/-!
# Token, registry and checkpoints together

The bond token, the registry that holds the bonds and the checkpoints of the bonded totals, as one
system. A call of the registry calls the token for the transfer it makes and the checkpoints for
the totals it reports, and reverts with them. The token asks the registry for the bonds of an
account, and the registry asks the token for the locks of an owner.
-/

namespace Interfold.Staking

open Transaction Function

/-- The addresses of the token and of the checkpoints. -/
structure Sites where
  token : Address
  checkpoints : Address
  token_ne_zero : token ≠ 0
  checkpoints_ne_zero : checkpoints ≠ 0

structure System where
  token : Fold.State
  bonding : Bonding.State
  checkpoints : BondedCheckpoints.State

/-- The token's view of a call: the registry answers with its bonds. -/
def tokenEnv (sender : Address) (now : ℕ) (bonded : Address → ℕ) : Fold.Env :=
  ⟨sender, now, fun account => some (bonded account)⟩

/-- What the registry asks is answered by the token and the checkpoints. Whether they accept what
the registry makes them do is decided by the calls themselves, in `execRegistry`. -/
def answered (sites : Sites) (env : Bonding.Env) (σ : System) : Bonding.Env :=
  { env with
    lockedBalanceOf := update env.lockedBalanceOf sites.token fun account =>
      (Fold.lockedBalanceOf env.now account σ.token).toOption
    checkpointsRegistry := update env.checkpointsRegistry sites.checkpoints
      (some σ.checkpoints.registry)
    acceptsBondTransfer := true
    checkpointsAccept := fun _ _ => true }

/-- A transfer by the registry: it sends what is its own and pulls what is not. -/
def tokenCall (this : Address) (payment : Bonding.Payment) : Fold.Call :=
  if payment.sender = this then .transfer payment.recipient payment.amount
  else .transferFrom payment.sender payment.recipient payment.amount

/-- The token after the transfer of a call, if it makes one. -/
def settle (this : Address) (now : ℕ) (bonded : Address → ℕ) (token : Fold.State) :
    Option Bonding.Payment → Tx Fold.State
  | none => pure token
  | some payment => Fold.exec (tokenEnv this now bonded) token (tokenCall this payment)

/-- The checkpoints after the reports of a call. -/
def report (this : Address) (now : ℕ) (bonded : Address → ℕ) :
    List Address → BondedCheckpoints.State → Tx BondedCheckpoints.State
  | [], checkpoints => pure checkpoints
  | owner :: owners, checkpoints => do
    let checkpoints ← BondedCheckpoints.sync this now owner (bonded owner) checkpoints
    report this now bonded owners checkpoints

/-- A call of the registry. The bonds are written before the token moves, so the token sees those
the call leaves. -/
def execRegistry (sites : Sites) (env : Bonding.Env) (c : Bonding.Call) (σ : System) :
    Tx System := do
  let bonding ← Bonding.exec (answered sites env σ) σ.bonding c
  let token ← settle σ.bonding.this env.now bonding.bondedByOwner σ.token
    (Bonding.payment env σ.bonding c)
  let checkpoints ← (if bonding.bondedCheckpoints = sites.checkpoints then
      report σ.bonding.this env.now bonding.bondedByOwner (Bonding.synced env σ.bonding c)
        σ.checkpoints
    else pure σ.checkpoints)
  pure ⟨token, bonding, checkpoints⟩

/-- A call of the token. The registry's copy of the ledger follows. -/
def execToken (sender : Address) (now : ℕ) (c : Fold.Call) (σ : System) : Tx System := do
  let token ← Fold.exec (tokenEnv sender now σ.bonding.bondedByOwner) σ.token c
  pure { σ with token, bonding := { σ.bonding with bondToken := token.votes.balanceOf } }

inductive Event where
  | token (sender : Address) (call : Fold.Call)
  | registry (env : Bonding.Env) (call : Bonding.Call)
  | underlying (ledger : Erc20)

/-- One transaction at a time. The registry calls the token only from its own calls, and its bond
token is this one, once there is one. The token under the tickets is moved by others, but not out
of the ticket token. -/
inductive Step (sites : Sites) (now : ℕ) (σ : System) : Event → System → Prop
  | token {σ' : System} {sender : Address} {call : Fold.Call} (hsender : sender ≠ 0)
      (hother : sender ≠ σ.bonding.this) (h : execToken sender now call σ = .ok σ') :
      Step sites now σ (.token sender call) σ'
  | registry {σ' : System} {env : Bonding.Env} {call : Bonding.Call} (hnow : env.now = now)
      (hsender : env.sender ≠ 0) (hsuits : Bonding.Suits sites.token σ.bonding call)
      (h : execRegistry sites env call σ = .ok σ') : Step sites now σ (.registry env call) σ'
  | underlying (hledger : σ.bonding.ticketToken.underlying σ.bonding.ticketToken.this ≤
        ledger σ.bonding.ticketToken.this) :
      Step sites now σ (.underlying ledger) { σ with bonding := { σ.bonding with
        ticketToken := { σ.bonding.ticketToken with underlying := ledger } } }

/-- The token is deployed for a registry that has no bonds yet. -/
structure Deployed (sites : Sites) (now : ℕ) (σ : System) : Prop where
  bonding : Bonding.Reachable now σ.bonding
  token : ∃ owner ccaStart ccaEnd noMoreLocks,
    Fold.deploy now owner ccaStart ccaEnd noMoreLocks σ.bonding.this true = .ok σ.token
  checkpoints : BondedCheckpoints.deploy σ.bonding.this = .ok σ.checkpoints
  asset : σ.bonding.bondTokenAddress = 0 ∨ σ.bonding.bondTokenAddress = sites.token
  ledger : σ.bonding.bondToken = fun _ => 0
  bonded : σ.bonding.bondedByOwner = fun _ => 0

/-- Transactions from a deployment on, at times that never decrease. Only steps that `permitted`
allows are taken. -/
inductive Reachable (sites : Sites) (permitted : System → System → Prop) : ℕ → System → Prop
  | deploy (h : Deployed sites now σ) : Reachable sites permitted now σ
  | wait (h : Reachable sites permitted now σ) (hle : now ≤ later) :
      Reachable sites permitted later σ
  | step {now : ℕ} {σ σ' : System} {event : Event} (h : Reachable sites permitted now σ)
      (hstep : Step sites now σ event σ') (hpermitted : permitted σ σ') :
      Reachable sites permitted now σ'

end Interfold.Staking
