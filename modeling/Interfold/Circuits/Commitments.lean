import Interfold.Circuits.Packing

/-!
# Commitments

A commitment is a hash of packed coefficients under a domain separator. The sponge is a parameter;
that it has no collisions among some payloads is a hypothesis about it.
-/

namespace Interfold.Circuits

inductive Separator where
  | pk
  | pkGeneration
  | shareComputation
  | shareEncryption
  | pkAggregation
  | ciphertext
  | aggregatedShares
  | thresholdDecryptionShare
deriving DecidableEq

/-- `compute_commitment`. -/
abbrev Sponge : Type := Separator → List Fr → Fr

/-- One polynomial per modulus, the coefficient of the highest degree first. -/
abbrev Limbs (L N : ℕ) : Type := Fin L → Fin N → Fr

variable {L N : ℕ}

/-- `multiple_polynomial_payload`, which is `flatten`. -/
def payload (w : Width) (polys : Limbs L N) : List Fr := (List.ofFn polys).flatMap w.pack

/-- The asserts of `flatten_checked`. -/
def PayloadChecked (w : Width) (polys : Limbs L N) : Prop :=
  ∀ j, (w.packChecked (polys j)).1 = true

lemma length_pack (w : Width) (v : Fin N → Fr) :
    (w.pack v).length = (N + w.group - 1) / w.group := by
  simp [Width.pack, Width.chunks]

variable {w : Width} {polys : Limbs L N}

lemma payload_inj (h : ∀ j i, w.Digit (polys j i)) (h' : ∀ j i, w.Digit (polys' j i))
    (heq : payload w polys = payload w polys') : polys = polys' := by
  induction L with
  | zero => exact Subsingleton.elim _ _
  | succ L ih =>
    simp only [payload, List.ofFn_succ, List.flatMap_cons] at heq
    obtain ⟨hhead, htail⟩ := List.append_inj heq (by simp [length_pack])
    have hfirst := Width.pack_inj (h 0) (h' 0) hhead
    have hrest := ih (fun j => h j.succ) (fun j => h' j.succ) htail
    funext j
    exact Fin.cases hfirst (fun j => congrFun hrest j) j

lemma PayloadChecked.digit (h : PayloadChecked w polys) (j : Fin L) (i : Fin N) :
    w.Digit (polys j i) :=
  (Width.packChecked_iff (polys j)).1 (h j) i

lemma payloadChecked_of_digit (h : ∀ j i, w.Digit (polys j i)) : PayloadChecked w polys :=
  fun j => (Width.packChecked_iff (polys j)).2 (h j)

/-- A commitment that is opened with checked digits opens to what was committed. -/
lemma opened_eq {sponge : Sponge} {separator : Separator} {committed : Limbs L N}
    (hinj : Set.InjOn (sponge separator) S) (hopen : payload w polys ∈ S)
    (hcomm : payload w committed ∈ S) (hdigs : ∀ j i, w.Digit (polys j i))
    (hdigs' : ∀ j i, w.Digit (committed j i))
    (h : sponge separator (payload w polys) = sponge separator (payload w committed)) :
    polys = committed :=
  payload_inj hdigs hdigs' (hinj hopen hcomm h)

end Interfold.Circuits
