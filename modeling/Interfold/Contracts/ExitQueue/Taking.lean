import Interfold.Contracts.ExitQueue.Invariant
import Mathlib.Data.List.GetD

/-!
# What a claim or slash takes

With the head of each asset in place, a scan reaches everything that is pending. A claim therefore
pays what the preview shows, a slash of locked assets never falls short of the pending total, and
neither touches the other asset.
-/

namespace Interfold.ExitQueue

open Transaction OperatorQueue

variable {now wanted taken : ℕ} {asset : AssetType} {incl : Bool} {q q' : OperatorQueue}

variable {ts ts' : List ExitTranche} {b : AssetType}

lemma available_touched (hb : b ≠ asset) (h : List.Forall₂ (Touched incl now asset) ts ts') :
    available incl now b ts' = available incl now b ts := by
  induction h with
  | nil => rfl
  | cons htouch _ ih =>
    rw [available_cons, available_cons, ih, htouch.unlock, htouch.others b hb]

/-- What lies in the tranches that are not locked is the same for the other asset. -/
lemma Shrinks.available (h : Shrinks incl now asset q q') (hb : b ≠ asset) :
    available incl now b q'.operatorQueue = available incl now b q.operatorQueue := by
  obtain ⟨dead, hdead, htouch⟩ := h
  have hzero := available_eq_zero incl now fun t ht => (t.isEmpty_iff.1 (hdead t ht)) b
  rw [← available_touched hb htouch, available_append, hzero, Nat.add_zero]

end Interfold.ExitQueue
