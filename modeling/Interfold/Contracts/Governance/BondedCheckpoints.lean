import Interfold.Contracts.Basic

/-!
# Bonded checkpoints

The bonded total of every owner over time. Only the registry writes, and it writes totals, so that
the newest entry of an owner mirrors the registry's own record.
-/

namespace Interfold.BondedCheckpoints

open Transaction Checkpoints Function

structure State where
  registry : Address
  history : Address → Trace ℕ

def deploy (registry : Address) : Tx State := do
  require (registry ≠ 0) .zeroAddress
  pure ⟨registry, fun _ => []⟩

/-- A total that is already the newest one is not written again. -/
def sync (sender : Address) (now : ℕ) (bondOwner : Address) (amount : ℕ) (s : State) :
    Tx State := do
  require (sender = s.registry) (.onlyRegistry sender)
  if (s.history bondOwner).latest = amount then pure s else do
    let timepoint ← safeUint48 now
    let amount ← safeUint208 amount
    let trace ← pushCheckpoint (s.history bondOwner) timepoint amount
    pure { s with history := update s.history bondOwner trace }

def getPastBonded (now : ℕ) (account : Address) (timepoint : ℕ) (s : State) : Tx ℕ := do
  let currentClock ← safeUint48 now
  require (timepoint < currentClock) (.futureLookup timepoint currentClock)
  let key ← safeUint48 timepoint
  pure ((s.history account).upperLookup key)

def bonded (account : Address) (s : State) : ℕ := (s.history account).latest

/-- A report makes the reported total the newest one. -/
lemma sync_rewrites (h : sync sender now bondOwner amount s = .ok s')
    (hord : ∀ a, (s.history a).Ordered now) :
    Rewrites now (update (fun a => bonded a s) bondOwner amount) s.history s'.history := by
  simp only [sync, bind_ok] at h
  obtain ⟨-, -, h⟩ := h
  rw [ite_ok] at h
  rcases h with ⟨rfl, h⟩ | ⟨-, h⟩
  · obtain rfl := pure_ok.1 h
    have hsame := Rewrites.refl hord
    rwa [← update_eq_self bondOwner fun a => (s.history a).latest] at hsame
  · simp only [run_ok, safeUint48_ok] at h
    obtain ⟨_, ⟨-, rfl⟩, _, hamount, trace, hpush, rfl⟩ := h
    obtain rfl := safeUint208_ok hamount
    exact (Rewrites.refl hord).write (push_records (hord bondOwner) hpush)

lemma pastBonded_returns (hnow : now < 2 ^ 48) (h : t < now) (a : Address) (s : State) :
    getPastBonded now a t s = .ok ((s.history a).upperLookup t) := by
  simp only [getPastBonded, run_ok, safeUint48_ok]
  exact ⟨now, ⟨hnow, rfl⟩, (), h, t, ⟨h.trans hnow, rfl⟩, rfl⟩

end Interfold.BondedCheckpoints
