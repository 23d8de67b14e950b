import Interfold.Circuits.SequentialFolds

/-!
# The proof tree of one node

`c2ab_fold`, `c3ab_fold` and `c4ab_fold` combine the proofs for the secret key with those for the
smudging error. `node_fold` verifies the three of them with C0 and C1 and links what belongs to the
same party. Public inputs are flat arrays; `n` is `N_PARTIES`, `h` is `H` and `l` is `L_THRESHOLD`.
-/

namespace Interfold.Circuits

open Recursion Arrays

/-- The hash of verification key hashes. -/
abbrev VkHash : Type := List Fr → Fr

section

variable (computeVkHash : VkHash)

def sequentialFoldVkHash (foldKeyHash kernelKeyHash innerKeyHash : Fr) : Fr :=
  computeVkHash [foldKeyHash, kernelKeyHash, innerKeyHash]

/-! ### `c2ab_fold` -/

variable (n l : ℕ)

def c2PublicLen : ℕ := 1 + n * l

def c2abFoldPublicLen : ℕ := 3 + 2 * c2PublicLen n l

def c2abArrays (c2aPublic c2bPublic : List Fr) (c2aKeyHash c2bKeyHash : Fr) : List (List Fr) :=
  [[c2aKeyHash, c2bKeyHash], [computeVkHash [c2aKeyHash, c2bKeyHash]],
    [entry c2aPublic 0], grid n l fun j k => entry c2aPublic (1 + j * l + k),
    [entry c2bPublic 0], grid n l fun j k => entry c2bPublic (1 + j * l + k)]

def c2abFold (c2aPublic c2bPublic : List Fr) (c2aKeyHash c2bKeyHash : Fr) :
    List Verification × List Fr :=
  ([(c2aKeyHash, c2aPublic), (c2bKeyHash, c2bPublic)],
    (c2abArrays computeVkHash n l c2aPublic c2bPublic c2aKeyHash c2bKeyHash).flatten)

/-! ### `c3ab_fold` -/

def c3abFoldPublicLen : ℕ := 2 + 1 + 6 * (n * l)

def c3abArrays (c3aPublic c3bPublic : List Fr) (c3aKeyHash c3bKeyHash : Fr) : List (List Fr) :=
  [[c3aKeyHash, c3bKeyHash], [computeVkHash [
      sequentialFoldVkHash computeVkHash c3aKeyHash (entry c3aPublic 2) (entry c3aPublic 0),
      sequentialFoldVkHash computeVkHash c3bKeyHash (entry c3bPublic 2) (entry c3bPublic 0)]],
    (List.range (n * l)).map fun j => entry c3aPublic (5 + j),
    (List.range (n * l)).map fun j => entry c3aPublic (5 + n * l + j),
    (List.range (n * l)).map fun j => entry c3aPublic (5 + n * l + n * l + j),
    (List.range (n * l)).map fun j => entry c3bPublic (5 + j),
    (List.range (n * l)).map fun j => entry c3bPublic (5 + n * l + j),
    (List.range (n * l)).map fun j => entry c3bPublic (5 + n * l + n * l + j)]

/-- Each chain publishes its own fold key, so the accumulators are of the same circuit. -/
def c3abFold (c3aPublic c3bPublic : List Fr) (c3aKeyHash c3bKeyHash : Fr) :
    Option (List Verification × List Fr) :=
  if entry c3aPublic 1 = c3aKeyHash ∧ entry c3bPublic 1 = c3bKeyHash then
    some ([(c3aKeyHash, c3aPublic), (c3bKeyHash, c3bPublic)],
      (c3abArrays computeVkHash n l c3aPublic c3bPublic c3aKeyHash c3bKeyHash).flatten)
  else none

/-! ### `c4ab_fold` -/

def c4PublicLen (h l : ℕ) : ℕ := h * l + 1

def c4abFoldPublicLen (h l : ℕ) : ℕ := 3 + 2 * c4PublicLen h l

def c4abArrays (h l : ℕ) (c4aPublic c4bPublic : List Fr) (c4aKeyHash c4bKeyHash : Fr) :
    List (List Fr) :=
  [[c4aKeyHash, c4bKeyHash], [computeVkHash [c4aKeyHash, c4bKeyHash]],
    grid h l fun i k => entry c4aPublic (i * l + k), [entry c4aPublic (h * l)],
    grid h l fun i k => entry c4bPublic (i * l + k), [entry c4bPublic (h * l)]]

def c4abFold (h l : ℕ) (c4aPublic c4bPublic : List Fr) (c4aKeyHash c4bKeyHash : Fr) :
    List Verification × List Fr :=
  ([(c4aKeyHash, c4aPublic), (c4bKeyHash, c4bPublic)],
    (c4abArrays computeVkHash h l c4aPublic c4bPublic c4aKeyHash c4bKeyHash).flatten)

end

/-! ### `node_fold` -/

section

variable (h n l : ℕ)

def c2abPrefixLen : ℕ := c2abFoldPublicLen n l - 2 * c2PublicLen n l
def c3abPrefixLen : ℕ := c3abFoldPublicLen n l - 6 * (n * l)
def c4abPrefixLen : ℕ := c4abFoldPublicLen h l - 2 * c4PublicLen h l

def c2aInnerStart : ℕ := c2abPrefixLen n l
def c2bInnerStart : ℕ := c2abPrefixLen n l + c2PublicLen n l
def c2aSharesStart : ℕ := c2aInnerStart n l + 1
def c2bSharesStart : ℕ := c2bInnerStart n l + 1

def c4aInnerStart : ℕ := c4abPrefixLen h l
def c4bInnerStart : ℕ := c4abPrefixLen h l + c4PublicLen h l
def skAggIndex : ℕ := c4aInnerStart h l + h * l
def esmAggIndex : ℕ := c4bInnerStart h l + h * l

def c3abPkAStart : ℕ := c3abPrefixLen n l
def c3abMsgAStart : ℕ := c3abPrefixLen n l + n * l
def c3abPkBStart : ℕ := c3abPrefixLen n l + 3 * (n * l)
def c3abMsgBStart : ℕ := c3abPrefixLen n l + 4 * (n * l)

end

/-- Both chains encrypt to one key for each limb and recipient; the limbs of another party have the
key of limb zero. -/
def AssertC3RecipientKeys (n l : ℕ) (partyId : Fr) (c3abPublic : List Fr) : Prop :=
  ∀ j < n, ∀ k < l, entry c3abPublic (c3abPkAStart n l + (j * l + k)) =
      entry c3abPublic (c3abPkBStart n l + (j * l + k)) ∧
    (partyId ≠ (j : Fr) ∧ k ≠ 0 → entry c3abPublic (c3abPkAStart n l + (j * l + k)) =
        entry c3abPublic (c3abPkAStart n l + j * l))

/-- What is encrypted for another party is its share. -/
def AssertC2C3Links (n l : ℕ) (partyId : Fr) (c2abPublic c3abPublic : List Fr) : Prop :=
  ∀ j < n, ∀ k < l, partyId ≠ (j : Fr) → entry c2abPublic (c2aSharesStart n l + (j * l + k)) =
      entry c3abPublic (c3abMsgAStart n l + (j * l + k)) ∧
    entry c2abPublic (c2bSharesStart n l + (j * l + k)) =
      entry c3abPublic (c3abMsgBStart n l + (j * l + k))

instance (n l : ℕ) (partyId : Fr) (c3abPublic : List Fr) :
    Decidable (AssertC3RecipientKeys n l partyId c3abPublic) :=
  inferInstanceAs (Decidable (∀ j < n, ∀ k < l, _ ∧ (_ → _)))

instance (n l : ℕ) (partyId : Fr) (c2abPublic c3abPublic : List Fr) :
    Decidable (AssertC2C3Links n l partyId c2abPublic c3abPublic) :=
  inferInstanceAs (Decidable (∀ j < n, ∀ k < l, _ → _ ∧ _))

/-- The public parameters of `node_fold`. -/
structure NodeInputs where
  partyId : Fr
  c0KeyHash : Fr
  c1KeyHash : Fr
  c2abKeyHash : Fr
  c3abKeyHash : Fr
  c4abKeyHash : Fr

/-- The public inputs of the proofs that `node_fold` verifies. -/
structure NodeProofs where
  c0 : List Fr
  c1 : List Fr
  c2ab : List Fr
  c3ab : List Fr
  c4ab : List Fr

def NodeProofs.vkHashes (p : NodeProofs) (s : NodeInputs) : List Fr :=
  [s.c0KeyHash, s.c1KeyHash, s.c2abKeyHash, entry p.c2ab 2, s.c3abKeyHash, entry p.c3ab 2,
    s.c4abKeyHash, entry p.c4ab 2]

/-- The key of each recipient; the own one is taken from C0. -/
def NodeProofs.c3Pk (n l : ℕ) (p : NodeProofs) (s : NodeInputs) (j : ℕ) : Fr :=
  if s.partyId = (j : Fr) then entry p.c0 0 else entry p.c3ab (c3abPkAStart n l + j * l)

variable (computeVkHash : VkHash)

/-- The public inputs of `node_fold`. -/
def nodeFoldArrays (h n l : ℕ) (p : NodeProofs) (s : NodeInputs) : List (List Fr) :=
  [[s.partyId, s.c0KeyHash, s.c1KeyHash, s.c2abKeyHash, s.c3abKeyHash, s.c4abKeyHash],
    [computeVkHash (p.vkHashes s), entry p.c0 0, entry p.c1 1],
    (List.range n).map (p.c3Pk n l s),
    grid n l fun j k => entry p.c2ab (c2aSharesStart n l + j * l + k),
    grid n l fun j k => entry p.c2ab (c2bSharesStart n l + j * l + k),
    grid h l fun i k => entry p.c4ab (c4aInnerStart h l + i * l + k),
    grid h l fun i k => entry p.c4ab (c4bInnerStart h l + i * l + k),
    [entry p.c4ab (skAggIndex h l), entry p.c4ab (esmAggIndex h l)]]

def nodeFold (h n l : ℕ) (p : NodeProofs) (s : NodeInputs) : Option (List Verification × List Fr) :=
  if entry p.c1 0 = entry p.c2ab (c2aInnerStart n l) ∧
      entry p.c1 2 = entry p.c2ab (c2bInnerStart n l) ∧
      AssertC3RecipientKeys n l s.partyId p.c3ab ∧ AssertC2C3Links n l s.partyId p.c2ab p.c3ab then
    some ([(s.c0KeyHash, p.c0), (s.c1KeyHash, p.c1), (s.c2abKeyHash, p.c2ab),
      (s.c3abKeyHash, p.c3ab), (s.c4abKeyHash, p.c4ab)],
      (nodeFoldArrays computeVkHash h n l p s).flatten)
  else none

/-! ### The circuits -/

def c2abFoldCircuit (n l : ℕ) : Circuit Fr Fr := fun calls pub =>
  ∃ c2a c2b ka kb, c2a.length = c2PublicLen n l ∧ c2b.length = c2PublicLen n l ∧
    c2abFold computeVkHash n l c2a c2b ka kb = (calls, pub)

def c3abFoldCircuit (n l : ℕ) : Circuit Fr Fr := fun calls pub =>
  ∃ c3a c3b ka kb, c3a.length = c3FoldPublicLen (n * l) ∧ c3b.length = c3FoldPublicLen (n * l) ∧
    c3abFold computeVkHash n l c3a c3b ka kb = some (calls, pub)

def c4abFoldCircuit (h l : ℕ) : Circuit Fr Fr := fun calls pub =>
  ∃ c4a c4b ka kb, c4a.length = c4PublicLen h l ∧ c4b.length = c4PublicLen h l ∧
    c4abFold computeVkHash h l c4a c4b ka kb = (calls, pub)

/-- The arrays of `node_fold` have their declared lengths. -/
structure NodeProofs.Sized (h n l : ℕ) (p : NodeProofs) : Prop where
  c0 : p.c0.length = 1
  c1 : p.c1.length = 3
  c2ab : p.c2ab.length = c2abFoldPublicLen n l
  c3ab : p.c3ab.length = c3abFoldPublicLen n l
  c4ab : p.c4ab.length = c4abFoldPublicLen h l

def nodeFoldCircuit (h n l : ℕ) : Circuit Fr Fr := fun calls pub =>
  ∃ p s, p.Sized h n l ∧ nodeFold computeVkHash h n l p s = some (calls, pub)

/-! ### Reading the arrays -/

@[simp]
lemma c2abPrefixLen_eq (n l : ℕ) : c2abPrefixLen n l = 3 := by
  unfold c2abPrefixLen c2abFoldPublicLen
  omega

@[simp]
lemma c3abPrefixLen_eq (n l : ℕ) : c3abPrefixLen n l = 3 := by
  unfold c3abPrefixLen c3abFoldPublicLen
  omega

@[simp]
lemma c4abPrefixLen_eq (h l : ℕ) : c4abPrefixLen h l = 3 := by
  unfold c4abPrefixLen c4abFoldPublicLen
  omega

variable {offset i rows width k n : ℕ}

variable (arrays : List (List Fr))

/-- A position in the array `m`, which starts at `offset`. -/
lemma entry_flatten (m : ℕ) (hoff : (arrays.take m).flatten.length = offset)
    (hi : i < (arrays.getD m []).length) :
    entry arrays.flatten (offset + i) = entry (arrays.getD m []) i :=
  getD_flatten 0 hoff hi

lemma entry_grid (f : ℕ → ℕ → Fr) (hi : i < rows) (hk : k < width) :
    entry (grid rows width f) (i * width + k) = f i k :=
  getD_grid f 0 hi hk

lemma entry_map_range (f : ℕ → Fr) (hi : i < n) : entry ((List.range n).map f) i = f i :=
  getD_map_range f 0 hi

/-- The cell of a grid that starts at `offset`. -/
lemma entry_flatten_grid (m : ℕ) (hgrid : arrays.getD m [] = grid rows width f)
    (hoff : (arrays.take m).flatten.length = offset) (hi : i < rows) (hk : k < width) :
    entry arrays.flatten (offset + (i * width + k)) = f i k := by
  rw [entry_flatten arrays m hoff (by rw [hgrid, length_grid]; exact index_lt hi hk), hgrid,
    entry_grid f hi hk]

/-- The element of a column that starts at `offset`. -/
lemma entry_flatten_column (m : ℕ) (hcol : arrays.getD m [] = (List.range n).map f)
    (hoff : (arrays.take m).flatten.length = offset) (hi : i < n) :
    entry arrays.flatten (offset + i) = f i := by
  have hlen : i < (arrays.getD m []).length := by
    rw [hcol]
    simpa using hi
  rw [entry_flatten arrays m hoff hlen, hcol, entry_map_range f hi]

/-- A single value at `offset`. -/
lemma entry_flatten_single (m : ℕ) (hsing : arrays.getD m [] = [x])
    (hoff : (arrays.take m).flatten.length = offset) : entry arrays.flatten offset = x := by
  have hread : entry arrays.flatten (offset + 0) = entry (arrays.getD m []) 0 :=
    entry_flatten arrays m hoff (by simp only [hsing, List.length_singleton, Nat.one_pos])
  rw [Nat.add_zero] at hread
  rw [hread, hsing]
  rfl

/-! ### What the inner folds publish -/

section

variable {vk : VkHash} {h n l : ℕ} {a b pub : List Fr} {ka kb : Fr}
  {calls : List Verification}

/-- The public inputs of `c2ab_fold`: for each proof the secret and the shares. -/
structure C2abPublished (computeVkHash : VkHash) (n l : ℕ) (a b : List Fr) (ka kb : Fr)
    (pub : List Fr) : Prop where
  keyHash : entry pub 2 = computeVkHash [ka, kb]
  secretA : entry pub (c2aInnerStart n l) = entry a 0
  secretB : entry pub (c2bInnerStart n l) = entry b 0
  shareA : ∀ j < n, ∀ k < l, entry pub (c2aSharesStart n l + (j * l + k)) = entry a (1 + j * l + k)
  shareB : ∀ j < n, ∀ k < l, entry pub (c2bSharesStart n l + (j * l + k)) = entry b (1 + j * l + k)

lemma c2abFold_eq (hfold : c2abFold vk n l a b ka kb = (calls, pub)) :
    calls = [(ka, a), (kb, b)] ∧ C2abPublished vk n l a b ka kb pub := by
  obtain ⟨rfl, rfl⟩ := Prod.mk.inj hfold
  refine ⟨rfl, rfl, ?_, ?_, ?_, ?_⟩
  · exact entry_flatten_single _ 2 rfl (by simp [c2abArrays, c2aInnerStart])
  · exact entry_flatten_single _ 4 rfl (by simp [c2abArrays, c2bInnerStart, c2PublicLen]; omega)
  · intro j hj k hk
    exact entry_flatten_grid _ 3 (f := fun j k => entry a (1 + j * l + k)) rfl
      (by simp [c2abArrays, c2aSharesStart, c2aInnerStart]) hj hk
  · intro j hj k hk
    exact entry_flatten_grid _ 5 (f := fun j k => entry b (1 + j * l + k)) rfl
      (by simp [c2abArrays, c2bSharesStart, c2bInnerStart, c2PublicLen]; omega) hj hk

/-- The public inputs of `c4ab_fold`: for each proof the expected commitments and the aggregate. -/
structure C4abPublished (computeVkHash : VkHash) (h l : ℕ) (a b : List Fr) (ka kb : Fr)
    (pub : List Fr) : Prop where
  keyHash : entry pub 2 = computeVkHash [ka, kb]
  expectedA : ∀ i < h, ∀ k < l, entry pub (c4aInnerStart h l + (i * l + k)) = entry a (i * l + k)
  expectedB : ∀ i < h, ∀ k < l, entry pub (c4bInnerStart h l + (i * l + k)) = entry b (i * l + k)
  aggregateA : entry pub (skAggIndex h l) = entry a (h * l)
  aggregateB : entry pub (esmAggIndex h l) = entry b (h * l)

lemma c4abFold_eq (hfold : c4abFold vk h l a b ka kb = (calls, pub)) :
    calls = [(ka, a), (kb, b)] ∧ C4abPublished vk h l a b ka kb pub := by
  obtain ⟨rfl, rfl⟩ := Prod.mk.inj hfold
  refine ⟨rfl, rfl, ?_, ?_, ?_, ?_⟩
  · intro i hi k hk
    exact entry_flatten_grid _ 2 (f := fun i k => entry a (i * l + k)) rfl
      (by simp [c4abArrays, c4aInnerStart]) hi hk
  · intro i hi k hk
    exact entry_flatten_grid _ 4 (f := fun i k => entry b (i * l + k)) rfl
      (by simp [c4abArrays, c4bInnerStart, c4PublicLen]; omega) hi hk
  · exact entry_flatten_single _ 3 rfl (by simp [c4abArrays, skAggIndex, c4aInnerStart]; omega)
  · exact entry_flatten_single _ 5 rfl
      (by simp [c4abArrays, esmAggIndex, c4bInnerStart, c4PublicLen]; omega)

/-- The public inputs of `c3ab_fold`, column by column. -/
structure C3abPublished (computeVkHash : VkHash) (n l : ℕ) (a b : List Fr) (ka kb : Fr)
    (pub : List Fr) : Prop where
  foldA : entry a 1 = ka
  foldB : entry b 1 = kb
  keyHash : entry pub 2 = computeVkHash [
    sequentialFoldVkHash computeVkHash ka (entry a 2) (entry a 0),
    sequentialFoldVkHash computeVkHash kb (entry b 2) (entry b 0)]
  pkA : ∀ slot < n * l, entry pub (c3abPkAStart n l + slot) = entry a (5 + slot)
  msgA : ∀ slot < n * l, entry pub (c3abMsgAStart n l + slot) = entry a (5 + n * l + slot)
  pkB : ∀ slot < n * l, entry pub (c3abPkBStart n l + slot) = entry b (5 + slot)
  msgB : ∀ slot < n * l, entry pub (c3abMsgBStart n l + slot) = entry b (5 + n * l + slot)

lemma c3abFold_eq_some (hfold : c3abFold vk n l a b ka kb = some (calls, pub)) :
    calls = [(ka, a), (kb, b)] ∧ C3abPublished vk n l a b ka kb pub := by
  unfold c3abFold at hfold
  split at hfold
  swap
  · cases hfold
  rename_i hkeys
  obtain ⟨rfl, rfl⟩ := Prod.mk.inj (Option.some.inj hfold)
  refine ⟨rfl, hkeys.1, hkeys.2, rfl, ?_, ?_, ?_, ?_⟩
  · intro slot hslot
    exact entry_flatten_column _ 2 (f := fun j => entry a (5 + j)) rfl
      (by simp [c3abArrays, c3abPkAStart]) hslot
  · intro slot hslot
    exact entry_flatten_column _ 3 (f := fun j => entry a (5 + n * l + j)) rfl
      (by simp [c3abArrays, c3abMsgAStart]; omega) hslot
  · intro slot hslot
    exact entry_flatten_column _ 5 (f := fun j => entry b (5 + j)) rfl
      (by simp [c3abArrays, c3abPkBStart]; omega) hslot
  · intro slot hslot
    exact entry_flatten_column _ 6 (f := fun j => entry b (5 + n * l + j)) rfl
      (by simp [c3abArrays, c3abMsgBStart]; omega) hslot

end

end Interfold.Circuits
