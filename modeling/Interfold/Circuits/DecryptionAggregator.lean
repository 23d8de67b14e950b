import Interfold.Circuits.DkgConsistency

/-!
# The decryption aggregator

`decryption_aggregator` verifies the last `c6_fold` proof and the C7 proof. It links the decryption
shares of both, checks the evaluation points of the parties and publishes the message of C7. The
number of coefficients of the message is `m`.
-/

namespace Interfold.Circuits

open Recursion Arrays

def c7PublicLen (t m : ℕ) : ℕ := 2 * (t + 1) + m

section

variable (t : ℕ)

def c6FoldPrefixLen : ℕ := c6FoldPublicLen t - 4 * (t + 1)
def c6FoldSkColOffset : ℕ := 0
def c6FoldEsmColOffset : ℕ := t + 1
def c6FoldCtColOffset : ℕ := 2 * (t + 1)
def c6FoldDColOffset : ℕ := 3 * (t + 1)

def c7DCommitmentOffset : ℕ := 0
def c7PartyIdOffset : ℕ := t + 1
def c7MessageOffset : ℕ := 2 * (t + 1)

end

/-- An evaluation point is one of `1, …, n`, after the cast. -/
def AssertValidPartyId (n : ℕ) (id : Fr) : Prop := 1 ≤ asU32 id ∧ asU32 id ≤ n

instance (n : ℕ) (id : Fr) : Decidable (AssertValidPartyId n id) :=
  inferInstanceAs (Decidable (_ ∧ _))

structure DecryptionInputs where
  c6FoldPublic : List Fr
  c6FoldVkHash : Fr
  c7Public : List Fr
  c6FoldKeyHash : Fr
  c7KeyHash : Fr
  committeeMembers : List Fr
  committeeHashHi : Fr
  committeeHashLo : Fr
  domainHi : Fr
  domainLo : Fr
  ciphertextCommitment : Fr

namespace DecryptionInputs

variable (computeVkHash : VkHash) (n t m : ℕ) (d : DecryptionInputs)

def c6Cell (offset i : ℕ) : Fr := entry d.c6FoldPublic (c6FoldPrefixLen t + offset + i)

def partyId (i : ℕ) : Fr := entry d.c7Public (c7PartyIdOffset t + i)

/-- The asserts of `main` after that of the committee hash. -/
def Checks : Prop :=
  entry d.c6FoldPublic 1 = d.c6FoldVkHash ∧
  d.c6FoldKeyHash = sequentialFoldVkHash computeVkHash d.c6FoldVkHash (entry d.c6FoldPublic 2)
    (entry d.c6FoldPublic 0) ∧
  entry d.c6FoldPublic 5 = d.domainHi ∧ entry d.c6FoldPublic 6 = d.domainLo ∧
  (∀ i < t + 1, d.c6Cell t (c6FoldCtColOffset t) i = d.ciphertextCommitment) ∧
  (∀ i < t + 1, d.c6Cell t (c6FoldDColOffset t) i = entry d.c7Public (c7DCommitmentOffset + i)) ∧
  ∀ i < t + 1, AssertValidPartyId n (d.partyId t i) ∧
    (0 < i → asU32 (d.partyId t (i - 1)) < asU32 (d.partyId t i))

instance : Decidable (d.Checks computeVkHash n t) :=
  inferInstanceAs (Decidable (_ ∧ _ ∧ _ ∧ _ ∧ (∀ i < t + 1, _ = _) ∧ (∀ i < t + 1, _ = _) ∧
    ∀ i < t + 1, _ ∧ (_ → _)))

/-- The public inputs of the aggregator. -/
def arrays : List (List Fr) :=
  [[d.c6FoldKeyHash, d.c7KeyHash], [d.committeeHashHi, d.committeeHashLo],
    [d.domainHi, d.domainLo], [d.ciphertextCommitment],
    [computeVkHash [d.c6FoldKeyHash, d.c7KeyHash]],
    (List.range (t + 1)).map (d.partyId t),
    (List.range (t + 1)).map (d.c6Cell t c6FoldSkColOffset),
    (List.range (t + 1)).map (d.c6Cell t (c6FoldEsmColOffset t)),
    (List.range m).map fun k => entry d.c7Public (c7MessageOffset t + k)]

/-- The arrays have their declared lengths. -/
structure Sized : Prop where
  c6FoldPublic : d.c6FoldPublic.length = c6FoldPublicLen t
  c7Public : d.c7Public.length = c7PublicLen t m
  committeeMembers : d.committeeMembers.length = n

end DecryptionInputs

def decryptionAggregator (computeVkHash : VkHash)
    (committeeHashLimbs : List Fr → Option (Fr × Fr)) (n t m : ℕ) (d : DecryptionInputs) :
    Option (List Verification × List Fr) :=
  if committeeHashLimbs d.committeeMembers = some (d.committeeHashHi, d.committeeHashLo) ∧
      d.Checks computeVkHash n t then
    some ([(d.c6FoldVkHash, d.c6FoldPublic), (d.c7KeyHash, d.c7Public)],
      (d.arrays computeVkHash t m).flatten)
  else none

def decryptionAggregatorCircuit (computeVkHash : VkHash)
    (committeeHashLimbs : List Fr → Option (Fr × Fr)) (n t m : ℕ) : Circuit Fr Fr :=
  fun calls pub => ∃ d : DecryptionInputs, d.Sized n t m ∧
    decryptionAggregator computeVkHash committeeHashLimbs n t m d = some (calls, pub)

/-! ### What an accepted proof shows -/

/-- The C6 proof at slot `i` of the fold, as far as the public inputs determine it. -/
structure ShareProof (circuit : Fr → Circuit Fr Fr) (c6 : Keys Fr) (t : ℕ)
    (steps : List (ℕ × List Fr)) (pub c7 : List Fr) (i : ℕ) (leaf : List Fr) : Prop where
  folded : (i, leaf) ∈ steps
  accepted : Accepted circuit c6.inner leaf
  domain : entry leaf 3 = entry pub 4 ∧ entry leaf 4 = entry pub 5
  ciphertext : entry leaf 2 = entry pub 6
  sk : entry leaf 0 = entry pub (8 + (t + 1) + i)
  esm : entry leaf 1 = entry pub (8 + (t + 1) + (t + 1) + i)
  share : entry leaf 5 = entry c7 i

/-- The proofs behind the public inputs `pub` of an accepted aggregator proof. -/
structure DecryptionTree (circuit : Fr → Circuit Fr Fr) (c6 : Keys Fr) (c7Key : Fr) (n t m : ℕ)
    (pub : List Fr) (steps : List (ℕ × List Fr)) (c6Public c7 : List Fr) (leaf : ℕ → List Fr) :
    Prop where
  chain : Chain circuit (c6Reading t) c6 steps c6Public
  shares : ∀ i < t + 1, ShareProof circuit c6 t steps pub c7 i (leaf i)
  c7Accepted : Accepted circuit c7Key c7
  partyId : ∀ i < t + 1, entry pub (8 + i) = entry c7 (t + 1 + i)
  /-- The points are in range and increase, after the cast. -/
  valid : ∀ i < t + 1, AssertValidPartyId n (entry c7 (t + 1 + i))
  increasing : ∀ j < t + 1, ∀ i < j, asU32 (entry c7 (t + 1 + i)) < asU32 (entry c7 (t + 1 + j))
  message : ∀ k < m, entry pub (8 + 3 * (t + 1) + k) = entry c7 (2 * (t + 1) + k)

section

variable {circuit : Fr → Circuit Fr Fr} {computeVkHash : VkHash} {n t m : ℕ} {c6 : Keys Fr}

@[simp]
lemma c6FoldPrefixLen_eq (t : ℕ) : c6FoldPrefixLen t = 7 := by
  unfold c6FoldPrefixLen c6FoldPublicLen
  omega

variable {committeeHashLimbs : List Fr → Option (Fr × Fr)} {calls : List Verification}
  {pub : List Fr}

lemma decryptionAggregator_eq_some {d : DecryptionInputs}
    (hfold : decryptionAggregator computeVkHash committeeHashLimbs n t m d = some (calls, pub)) :
    d.Checks computeVkHash n t ∧
    calls = [(d.c6FoldVkHash, d.c6FoldPublic), (d.c7KeyHash, d.c7Public)] ∧
    pub = (d.arrays computeVkHash t m).flatten := by
  unfold decryptionAggregator at hfold
  split at hfold
  · rename_i hchecks
    obtain ⟨rfl, rfl⟩ := Prod.mk.inj (Option.some.inj hfold)
    exact ⟨hchecks.2, rfl, rfl⟩
  · cases hfold

/-- A slot with a ciphertext was filled by an accepted C6 proof. -/
lemma c6_chain_leaf (hchain : Chain circuit (c6Reading t) c6 steps pub) (hi : i < t + 1)
    (hct : entry pub (7 + 2 * (t + 1) + i) ≠ 0) :
    ∃ leaf, (i, leaf) ∈ steps ∧ Accepted circuit c6.inner leaf ∧
      c6Row t pub i = c6New leaf ∧ c6Domain leaf = c6FoldDomain pub := by
  rcases hchain.row hi with hzero | ⟨leaf, hmem, hleaf, hrow⟩
  · have hrow : c6Row t pub i = [0, 0, 0, 0] := hzero
    simp only [c6Row, List.cons.injEq] at hrow
    exact absurd hrow.2.2.1 hct
  · exact ⟨leaf, hmem, hleaf, hrow, hchain.domain (i, leaf) hmem⟩

lemma decryptionTree_of_accepted (hfold : SequentialFold circuit (c6Reading t) c6)
    (hbind : ∀ ys, computeVkHash ys = computeVkHash (chainKeys c6) → ys = chainKeys c6)
    (hholds : decryptionAggregatorCircuit computeVkHash committeeHashLimbs n t m calls pub)
    (hcalls : ∀ call ∈ calls, Accepted circuit call.1 call.2)
    (hanch : entry pub 0 = computeVkHash (chainKeys c6)) (hct : entry pub 6 ≠ 0) :
    ∃ steps c6Public c7 leaf,
      DecryptionTree circuit c6 (entry pub 1) n t m pub steps c6Public c7 leaf := by
  obtain ⟨d, hsized, haggr⟩ := hholds
  obtain ⟨⟨hfoldKey, hhash, hdomainHi, hdomainLo, hcts, hds, hptys⟩, rfl, rfl⟩ :=
    decryptionAggregator_eq_some haggr
  obtain ⟨hvk, hkeys⟩ :=
    keysOf_eq_of_chainKeys hfoldKey (hbind _ (hhash.symm.trans hanch))
  have hc6 : Accepted circuit c6.fold d.c6FoldPublic :=
    hvk ▸ hcalls (d.c6FoldVkHash, d.c6FoldPublic) (by simp)
  obtain ⟨steps, hchain⟩ := hfold.chain hc6 hkeys
  have hcells : ∀ offset i, d.c6Cell t offset i = entry d.c6FoldPublic (7 + offset + i) := by
    intro offset i
    rw [DecryptionInputs.c6Cell, c6FoldPrefixLen_eq]
  have hleav : ∀ i, ∃ leaf, i < t + 1 → ShareProof circuit c6 t steps
      (d.arrays computeVkHash t m).flatten d.c7Public i leaf := by
    intro i
    by_cases hi : i < t + 1
    swap
    · exact ⟨[], fun hi' => absurd hi' hi⟩
    have hcti := hcts i hi
    rw [hcells] at hcti
    obtain ⟨leaf, hmem, hleaf, hrow, hdom⟩ :=
      c6_chain_leaf hchain hi (ne_of_eq_of_ne hcti hct)
    simp only [c6Row, c6New, List.cons.injEq, and_true] at hrow
    simp only [c6Domain, c6FoldDomain, List.cons.injEq, and_true] at hdom
    obtain ⟨hsk, hesm, hctleaf, hd⟩ := hrow
    refine ⟨leaf, fun _ => ⟨hmem, hleaf, ?_, ?_, ?_, ?_, ?_⟩⟩
    · exact ⟨hdom.1.trans hdomainHi, hdom.2.trans hdomainLo⟩
    · exact hctleaf.symm.trans hcti
    · rw [entry_flatten_column (d.arrays computeVkHash t m) 6
        (f := d.c6Cell t c6FoldSkColOffset) rfl (by simp [DecryptionInputs.arrays]; omega) hi,
        hcells]
      exact hsk.symm
    · rw [entry_flatten_column (d.arrays computeVkHash t m) 7
        (f := d.c6Cell t (c6FoldEsmColOffset t)) rfl
        (by simp [DecryptionInputs.arrays]; omega) hi, hcells]
      exact hesm.symm
    · have hdi := hds i hi
      rw [hcells, c7DCommitmentOffset, Nat.zero_add] at hdi
      exact hd.symm.trans hdi
  choose leaf hleaf using hleav
  refine ⟨steps, d.c6FoldPublic, d.c7Public, leaf, hchain, hleaf,
    hcalls (d.c7KeyHash, d.c7Public) (by simp), ?_, fun i hi => (hptys i hi).1,
    increasing_of_step fun i hi => (hptys i hi).2, ?_⟩
  · intro i hi
    exact entry_flatten_column (d.arrays computeVkHash t m) 5 (f := d.partyId t) rfl
      (by simp [DecryptionInputs.arrays]) hi
  · intro k hk
    exact entry_flatten_column (d.arrays computeVkHash t m) 8
      (f := fun k => entry d.c7Public (c7MessageOffset t + k)) rfl
      (by simp [DecryptionInputs.arrays]; omega) hk

end

end Interfold.Circuits
