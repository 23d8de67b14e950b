import Interfold.Circuits.NodeFold
import Mathlib.Tactic.Ring

/-!
# The DKG aggregator

`dkg_aggregator` verifies the last `nodes_fold` proof and the C5 proof, and links the rows of the
selected nodes with each other. Its proof is the one that is checked on-chain. The hash of the
committee is a parameter, and may fail for members that are not addresses.
-/

namespace Interfold.Circuits

open Recursion Arrays

/-- The cast of a field element to 32 bits keeps its low bits. -/
def asU32 (x : Fr) : ℕ := x.val % 2 ^ 32

section

variable (h n l : ℕ)

def nodeFoldReturnPublicLen : ℕ := 5 + n + 2 * n * l + 2 * h * l
def nodeFoldParamPublicLen : ℕ := nodeFoldPublicLen h n l - nodeFoldReturnPublicLen h n l
def nodesFoldParamPublicLen : ℕ := nodesFoldPublicLen h n l - h * nodeFoldPublicLen h n l

def nfPartyIdIdx : ℕ := 0
def nfC0PkIdx : ℕ := nodeFoldParamPublicLen h n l + 1
def nfC1PkIdx : ℕ := nodeFoldParamPublicLen h n l + 2
def nfC3PkBaseIdx : ℕ := nodeFoldParamPublicLen h n l + 3
def nfC2aBaseIdx : ℕ := nodeFoldParamPublicLen h n l + 3 + n
def nfC2bBaseIdx : ℕ := nfC2aBaseIdx h n l + n * l
def nfC4aBaseIdx : ℕ := nfC2bBaseIdx h n l + n * l
def nfC4bBaseIdx : ℕ := nfC4aBaseIdx h n l + h * l
def nfSkAggIdx : ℕ := nfC4bBaseIdx h n l + h * l
def nfEsmAggIdx : ℕ := nfSkAggIdx h n l + 1

/-- The position `k` of row `i` of the public inputs of `nodes_fold`. -/
def nodesCell (nodesFoldPublic : List Fr) (i k : ℕ) : Fr :=
  entry nodesFoldPublic (nodesFoldParamPublicLen h n l + i * nodeFoldPublicLen h n l + k)

end

section

variable (h n l : ℕ) (nodesFoldPublic partyIds : List Fr)

def AssertCanonicalPartyIds : Prop :=
  ∀ i < h, entry partyIds i = (asU32 (entry partyIds i) : Fr) ∧ asU32 (entry partyIds i) < n ∧
    (0 < i → asU32 (entry partyIds (i - 1)) < asU32 (entry partyIds i))

/-- The recipients of C3 are numbered by the committee, the rows by the selection. -/
def AssertSelectedC0C3Links : Prop :=
  ∀ i < h, ∀ j < h,
    nodesCell h n l nodesFoldPublic i (nfC3PkBaseIdx h n l + asU32 (entry partyIds j)) =
      nodesCell h n l nodesFoldPublic j (nfC0PkIdx h n l)

/-- The recipients of C2 are numbered by the committee, the senders of C4 by the selection. -/
def AssertSelectedC2C4Links : Prop :=
  ∀ i < h, ∀ j < h, ∀ k < l, nodesCell h n l nodesFoldPublic j (nfC4aBaseIdx h n l + i * l + k) =
      nodesCell h n l nodesFoldPublic i (nfC2aBaseIdx h n l + asU32 (entry partyIds j) * l + k) ∧
    nodesCell h n l nodesFoldPublic j (nfC4bBaseIdx h n l + i * l + k) =
      nodesCell h n l nodesFoldPublic i (nfC2bBaseIdx h n l + asU32 (entry partyIds j) * l + k)

instance : Decidable (AssertCanonicalPartyIds h n partyIds) :=
  inferInstanceAs (Decidable (∀ i < h, _ ∧ _ ∧ (_ → _)))

instance : Decidable (AssertSelectedC0C3Links h n l nodesFoldPublic partyIds) :=
  inferInstanceAs (Decidable (∀ i < h, ∀ j < h, _ = _))

instance : Decidable (AssertSelectedC2C4Links h n l nodesFoldPublic partyIds) :=
  inferInstanceAs (Decidable (∀ i < h, ∀ j < h, ∀ k < l, _ ∧ _))

end

structure DkgInputs where
  nodesFoldPublic : List Fr
  nodesFoldVkHash : Fr
  c5Public : List Fr
  nodesFoldKeyHash : Fr
  c5KeyHash : Fr
  partyIds : List Fr
  committeeMembers : List Fr
  committeeHashHi : Fr
  committeeHashLo : Fr

namespace DkgInputs

variable (computeVkHash : VkHash) (h n l : ℕ) (d : DkgInputs)

def nodeTreeHash : Fr :=
  entry d.nodesFoldPublic (nodesFoldParamPublicLen h n l + nodeFoldParamPublicLen h n l)

/-- The asserts of `main` after that of the committee hash. -/
def Checks : Prop :=
  AssertCanonicalPartyIds h n d.partyIds ∧
  entry d.nodesFoldPublic 1 = d.nodesFoldVkHash ∧
  (∀ i < h, nodesCell h n l d.nodesFoldPublic i (nodeFoldParamPublicLen h n l) =
    d.nodeTreeHash h n l) ∧
  d.nodesFoldKeyHash = computeVkHash [d.nodesFoldVkHash, entry d.nodesFoldPublic 2,
    entry d.nodesFoldPublic 0, d.nodeTreeHash h n l] ∧
  (∀ i < h, nodesCell h n l d.nodesFoldPublic i nfPartyIdIdx = entry d.partyIds i) ∧
  AssertSelectedC0C3Links h n l d.nodesFoldPublic d.partyIds ∧
  AssertSelectedC2C4Links h n l d.nodesFoldPublic d.partyIds ∧
  ∀ i < h, entry d.c5Public i = nodesCell h n l d.nodesFoldPublic i (nfC1PkIdx h n l)

instance : Decidable (d.Checks computeVkHash h n l) :=
  inferInstanceAs (Decidable (_ ∧ _ ∧ (∀ i < h, _ = _) ∧ _ ∧ (∀ i < h, _ = _) ∧ _ ∧ _ ∧
    ∀ i < h, _ = _))

/-- The public inputs of the aggregator. -/
def arrays : List (List Fr) :=
  [[d.nodesFoldKeyHash, d.c5KeyHash], d.partyIds, [d.committeeHashHi, d.committeeHashLo],
    [computeVkHash [d.nodesFoldKeyHash, d.c5KeyHash]],
    (List.range h).map fun i => nodesCell h n l d.nodesFoldPublic i (nfSkAggIdx h n l),
    (List.range h).map fun i => nodesCell h n l d.nodesFoldPublic i (nfEsmAggIdx h n l),
    [entry d.c5Public h]]

/-- The arrays have their declared lengths. -/
structure Sized : Prop where
  nodesFoldPublic : d.nodesFoldPublic.length = nodesFoldPublicLen h n l
  c5Public : d.c5Public.length = h + 1
  partyIds : d.partyIds.length = h
  committeeMembers : d.committeeMembers.length = n

end DkgInputs

def dkgAggregator (computeVkHash : VkHash) (committeeHashLimbs : List Fr → Option (Fr × Fr))
    (h n l : ℕ) (d : DkgInputs) : Option (List Verification × List Fr) :=
  if committeeHashLimbs d.committeeMembers = some (d.committeeHashHi, d.committeeHashLo) ∧
      d.Checks computeVkHash h n l then
    some ([(d.nodesFoldVkHash, d.nodesFoldPublic), (d.c5KeyHash, d.c5Public)],
      (d.arrays computeVkHash h n l).flatten)
  else none

def dkgAggregatorCircuit (computeVkHash : VkHash)
    (committeeHashLimbs : List Fr → Option (Fr × Fr)) (h n l : ℕ) : Circuit Fr Fr :=
  fun calls pub => ∃ d : DkgInputs, d.Sized h n l ∧
    dkgAggregator computeVkHash committeeHashLimbs h n l d = some (calls, pub)

/-! ### Offsets of the published values -/

section

variable {h n l : ℕ}

lemma publicLen_eq (h n l : ℕ) : nodeFoldPublicLen h n l = 11 + n + 2 * (n * l) + 2 * (h * l) := by
  unfold nodeFoldPublicLen
  ring

@[simp]
lemma paramPublicLen_eq (h n l : ℕ) : nodeFoldParamPublicLen h n l = 6 := by
  have hreturn : nodeFoldReturnPublicLen h n l = 5 + n + 2 * (n * l) + 2 * (h * l) := by
    unfold nodeFoldReturnPublicLen
    ring
  unfold nodeFoldParamPublicLen
  rw [publicLen_eq, hreturn]
  omega

@[simp]
lemma nodesParamLen_eq (h n l : ℕ) : nodesFoldParamPublicLen h n l = 5 := by
  unfold nodesFoldParamPublicLen nodesFoldPublicLen
  omega

/-- A cell of the fold is a position of its row. -/
lemma nodesCell_eq (hrow : nodesRow h n l pub i = row) (hk : k < nodeFoldPublicLen h n l) :
    nodesCell h n l pub i k = entry row k := by
  subst hrow
  unfold nodesCell nodesRow
  rw [nodesParamLen_eq, entry_map_range _ hk]

variable {computeVkHash : VkHash} {p : NodeProofs} {s : NodeInputs} {i j k : ℕ}

lemma nodeFold_treeHash :
    entry (nodeFoldArrays computeVkHash h n l p s).flatten 6 = computeVkHash (p.vkHashes s) :=
  rfl

lemma nodeFold_c0Pk :
    entry (nodeFoldArrays computeVkHash h n l p s).flatten (nfC0PkIdx h n l) = entry p.c0 0 := by
  rw [nfC0PkIdx, paramPublicLen_eq]
  rfl

lemma nodeFold_c1Pk :
    entry (nodeFoldArrays computeVkHash h n l p s).flatten (nfC1PkIdx h n l) = entry p.c1 1 := by
  rw [nfC1PkIdx, paramPublicLen_eq]
  rfl

lemma nodeFold_c3Pk (hj : j < n) :
    entry (nodeFoldArrays computeVkHash h n l p s).flatten (nfC3PkBaseIdx h n l + j) =
      p.c3Pk n l s j :=
  entry_flatten_column _ 2 (f := p.c3Pk n l s) rfl (by simp [nodeFoldArrays, nfC3PkBaseIdx]) hj

lemma nodeFold_c2a (hj : j < n) (hk : k < l) :
    entry (nodeFoldArrays computeVkHash h n l p s).flatten (nfC2aBaseIdx h n l + (j * l + k)) =
      entry p.c2ab (c2aSharesStart n l + j * l + k) :=
  entry_flatten_grid _ 3 (f := fun j k => entry p.c2ab (c2aSharesStart n l + j * l + k)) rfl
    (by simp [nodeFoldArrays, nfC2aBaseIdx]; omega) hj hk

lemma nodeFold_c2b (hj : j < n) (hk : k < l) :
    entry (nodeFoldArrays computeVkHash h n l p s).flatten (nfC2bBaseIdx h n l + (j * l + k)) =
      entry p.c2ab (c2bSharesStart n l + j * l + k) :=
  entry_flatten_grid _ 4 (f := fun j k => entry p.c2ab (c2bSharesStart n l + j * l + k)) rfl
    (by simp [nodeFoldArrays, nfC2bBaseIdx, nfC2aBaseIdx]; omega) hj hk

lemma nodeFold_c4a (hi : i < h) (hk : k < l) :
    entry (nodeFoldArrays computeVkHash h n l p s).flatten (nfC4aBaseIdx h n l + (i * l + k)) =
      entry p.c4ab (c4aInnerStart h l + i * l + k) :=
  entry_flatten_grid _ 5 (f := fun i k => entry p.c4ab (c4aInnerStart h l + i * l + k)) rfl
    (by simp [nodeFoldArrays, nfC4aBaseIdx, nfC2bBaseIdx, nfC2aBaseIdx]; omega) hi hk

lemma nodeFold_c4b (hi : i < h) (hk : k < l) :
    entry (nodeFoldArrays computeVkHash h n l p s).flatten (nfC4bBaseIdx h n l + (i * l + k)) =
      entry p.c4ab (c4bInnerStart h l + i * l + k) :=
  entry_flatten_grid _ 6 (f := fun i k => entry p.c4ab (c4bInnerStart h l + i * l + k)) rfl
    (by simp [nodeFoldArrays, nfC4bBaseIdx, nfC4aBaseIdx, nfC2bBaseIdx, nfC2aBaseIdx]; omega) hi hk

lemma length_nodeFold_before :
    ((nodeFoldArrays computeVkHash h n l p s).take 7).flatten.length = nfSkAggIdx h n l := by
  simp [nodeFoldArrays, nfSkAggIdx, nfC4bBaseIdx, nfC4aBaseIdx, nfC2bBaseIdx, nfC2aBaseIdx]
  omega

lemma nodeFold_skAgg : entry (nodeFoldArrays computeVkHash h n l p s).flatten (nfSkAggIdx h n l) =
      entry p.c4ab (skAggIndex h l) :=
  entry_flatten (i := 0) _ 7 length_nodeFold_before (by simp [nodeFoldArrays])

lemma nodeFold_esmAgg : entry (nodeFoldArrays computeVkHash h n l p s).flatten (nfEsmAggIdx h n l) =
      entry p.c4ab (esmAggIndex h l) :=
  entry_flatten (i := 1) _ 7 length_nodeFold_before (by simp [nodeFoldArrays])

end

end Interfold.Circuits
