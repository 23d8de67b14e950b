import Interfold.Circuits.DkgAggregator

/-!
# What an accepted DKG proof shows

The public inputs of the aggregator anchor all verification keys, from the fold of the nodes down to
the leaves. Every row of the fold that carries the anchored hash is therefore a proof tree of one
node, and the aggregator links these trees with each other.
-/

namespace Interfold.Circuits

open Recursion Arrays

/-! ### The anchored keys -/

/-- The keys in the proof tree of a node. The C3 chains have a leaf, a fold and a kernel. -/
structure NodeKeys where
  c0 : Fr
  c1 : Fr
  c2a : Fr
  c2b : Fr
  c2ab : Fr
  c3a : Keys Fr
  c3b : Keys Fr
  c3ab : Fr
  c4a : Fr
  c4b : Fr
  c4ab : Fr

structure DkgKeys where
  node : NodeKeys
  /-- The leaf of this fold is `node_fold`. -/
  nodes : Keys Fr
  c5 : Fr

section

variable (computeVkHash : VkHash)

def chainKeys (keys : Keys Fr) : List Fr := [keys.fold, keys.kernel, keys.inner]

def NodeKeys.chains (keys : NodeKeys) : List Fr :=
  [computeVkHash (chainKeys keys.c3a), computeVkHash (chainKeys keys.c3b)]

def NodeKeys.vkHashes (keys : NodeKeys) : List Fr :=
  [keys.c0, keys.c1, keys.c2ab, computeVkHash [keys.c2a, keys.c2b], keys.c3ab,
    computeVkHash (keys.chains computeVkHash), keys.c4ab, computeVkHash [keys.c4a, keys.c4b]]

def DkgKeys.vkHashes (keys : DkgKeys) : List Fr :=
  [keys.nodes.fold, keys.nodes.kernel, keys.nodes.inner,
    computeVkHash (keys.node.vkHashes computeVkHash)]

/-- Everything that is hashed into the anchor. -/
def DkgKeys.hashed (keys : DkgKeys) : List (List Fr) :=
  [keys.vkHashes computeVkHash, keys.node.vkHashes computeVkHash, [keys.node.c2a, keys.node.c2b],
    keys.node.chains computeVkHash, chainKeys keys.node.c3a, chainKeys keys.node.c3b,
    [keys.node.c4a, keys.node.c4b]]

end

/-- The keys are those of the circuits. Nothing else hashes to what the anchor is made of, and the
hashes of real data are not zero. The leaf circuits are arbitrary. -/
structure RealDkg (circuit : Fr → Circuit Fr Fr) (computeVkHash : VkHash) (h n l : ℕ)
    (keys : DkgKeys) : Prop where
  nodesFold : circuit keys.nodes.fold = nodesFoldCircuit h n l
  nodesFoldKernel : circuit keys.nodes.kernel = nodesFoldKernelCircuit h n l
  nodeFold : circuit keys.nodes.inner = nodeFoldCircuit computeVkHash h n l
  c2ab : circuit keys.node.c2ab = c2abFoldCircuit computeVkHash n l
  c3ab : circuit keys.node.c3ab = c3abFoldCircuit computeVkHash n l
  c4ab : circuit keys.node.c4ab = c4abFoldCircuit computeVkHash h l
  c3aFold : circuit keys.node.c3a.fold = c3FoldCircuit (n * l)
  c3aKernel : circuit keys.node.c3a.kernel = c3FoldKernelCircuit (n * l)
  c3bFold : circuit keys.node.c3b.fold = c3FoldCircuit (n * l)
  c3bKernel : circuit keys.node.c3b.kernel = c3FoldKernelCircuit (n * l)
  binding : ∀ xs ∈ keys.hashed computeVkHash, ∀ ys, computeVkHash ys = computeVkHash xs → ys = xs
  tree_ne_zero : computeVkHash (keys.node.vkHashes computeVkHash) ≠ 0
  share_ne_zero : ∀ key ∈ [keys.node.c2a, keys.node.c2b], ∀ pub, Accepted circuit key pub →
    pub.length = c2PublicLen n l → ∀ j < n, ∀ k < l, entry pub (1 + j * l + k) ≠ 0

/-! ### The tree of a node -/

/-- The proofs of one node. -/
structure NodeTree where
  c0 : List Fr
  c1 : List Fr
  c2a : List Fr
  c2b : List Fr
  c4a : List Fr
  c4b : List Fr
  /-- The slots and leaves of the two C3 chains. -/
  c3aSteps : List (ℕ × List Fr)
  c3bSteps : List (ℕ × List Fr)
  /-- The key to which the shares of a recipient are encrypted. -/
  recipientKey : ℕ → Fr
  deriving Inhabited

/-- The proofs were verified by one `node_fold` with public inputs `row`. -/
def NodeTree.FoldedInto (circuit : Fr → Circuit Fr Fr) (computeVkHash : VkHash) (h n l : ℕ)
    (keys : NodeKeys) (row : List Fr) (t : NodeTree) : Prop :=
  ∃ c2ab c3ab c4ab c3a c3b,
    nodeFoldCircuit computeVkHash h n l [(keys.c0, t.c0), (keys.c1, t.c1), (keys.c2ab, c2ab),
      (keys.c3ab, c3ab), (keys.c4ab, c4ab)] row ∧
    c2abFoldCircuit computeVkHash n l [(keys.c2a, t.c2a), (keys.c2b, t.c2b)] c2ab ∧
    c3abFoldCircuit computeVkHash n l [(keys.c3a.fold, c3a), (keys.c3b.fold, c3b)] c3ab ∧
    c4abFoldCircuit computeVkHash h l [(keys.c4a, t.c4a), (keys.c4b, t.c4b)] c4ab ∧
    Chain circuit (c3Reading (n * l)) keys.c3a t.c3aSteps c3a ∧
    Chain circuit (c3Reading (n * l)) keys.c3b t.c3bSteps c3b

/-- There is an accepted C3 proof at the slot that encrypts `msg` to `key`. -/
def Encrypts (circuit : Fr → Circuit Fr Fr) (inner : Fr) (steps : List (ℕ × List Fr)) (slot : ℕ)
    (key msg : Fr) : Prop :=
  ∃ leaf, (slot, leaf) ∈ steps ∧ Accepted circuit inner leaf ∧ entry leaf 0 = key ∧
    entry leaf 1 = msg

/-- The proofs of party `id` are accepted and belong together. -/
structure NodeTree.Proves (circuit : Fr → Circuit Fr Fr) (computeVkHash : VkHash) (h n l : ℕ)
    (keys : NodeKeys) (id : ℕ) (row : List Fr) (t : NodeTree) : Prop where
  folded : t.FoldedInto circuit computeVkHash h n l keys row
  partyId : entry row 0 = (id : Fr)
  c0 : Accepted circuit keys.c0 t.c0
  c1 : Accepted circuit keys.c1 t.c1
  c2a : Accepted circuit keys.c2a t.c2a
  c2b : Accepted circuit keys.c2b t.c2b
  c4a : Accepted circuit keys.c4a t.c4a
  c4b : Accepted circuit keys.c4b t.c4b
  /-- The secrets that are shared are those of the key generation. -/
  sk : entry t.c1 0 = entry t.c2a 0
  esm : entry t.c1 2 = entry t.c2b 0
  /-- Each share for another party is encrypted, all with one key. -/
  c3a : ∀ r < n, r ≠ id → ∀ k < l, Encrypts circuit keys.c3a.inner t.c3aSteps (r * l + k)
    (t.recipientKey r) (entry t.c2a (1 + r * l + k))
  c3b : ∀ r < n, r ≠ id → ∀ k < l, Encrypts circuit keys.c3b.inner t.c3bSteps (r * l + k)
    (t.recipientKey r) (entry t.c2b (1 + r * l + k))

/-- What the row of a node says about its proofs. -/
structure NodeTree.Exports (h n l id : ℕ) (row : List Fr) (t : NodeTree) : Prop where
  c0Pk : entry row (nfC0PkIdx h n l) = entry t.c0 0
  c1Pk : entry row (nfC1PkIdx h n l) = entry t.c1 1
  c3Pk : ∀ r < n, r ≠ id → entry row (nfC3PkBaseIdx h n l + r) = t.recipientKey r
  c2a : ∀ r < n, ∀ k < l, entry row (nfC2aBaseIdx h n l + (r * l + k)) = entry t.c2a (1 + r * l + k)
  c2b : ∀ r < n, ∀ k < l, entry row (nfC2bBaseIdx h n l + (r * l + k)) = entry t.c2b (1 + r * l + k)
  c4a : ∀ i < h, ∀ k < l, entry row (nfC4aBaseIdx h n l + (i * l + k)) = entry t.c4a (i * l + k)
  c4b : ∀ i < h, ∀ k < l, entry row (nfC4bBaseIdx h n l + (i * l + k)) = entry t.c4b (i * l + k)
  skAgg : entry row (nfSkAggIdx h n l) = entry t.c4a (h * l)
  esmAgg : entry row (nfEsmAggIdx h n l) = entry t.c4b (h * l)

section

variable {circuit : Fr → Circuit Fr Fr} {computeVkHash : VkHash} {h n l : ℕ} {keys : DkgKeys}
  {pub : List Fr}

lemma RealDkg.verified_c2ab (real : RealDkg circuit computeVkHash h n l keys)
    (haccd : Accepted circuit keys.node.c2ab pub)
    (hhash : entry pub 2 = computeVkHash [keys.node.c2a, keys.node.c2b]) :
    ∃ a b, c2abFoldCircuit computeVkHash n l [(keys.node.c2a, a), (keys.node.c2b, b)] pub ∧
      (Accepted circuit keys.node.c2a a ∧ a.length = c2PublicLen n l) ∧
      (Accepted circuit keys.node.c2b b ∧ b.length = c2PublicLen n l) ∧
      C2abPublished computeVkHash n l a b keys.node.c2a keys.node.c2b pub := by
  obtain ⟨calls, hcirc, hcalls⟩ := haccd.holds
  rw [real.c2ab] at hcirc
  have hkept := hcirc
  obtain ⟨a, b, ka, kb, ha, hb, hfold⟩ := hcirc
  obtain ⟨rfl, hpub⟩ := c2abFold_eq hfold
  obtain ⟨rfl, rfl⟩ : ka = keys.node.c2a ∧ kb = keys.node.c2b := by
    simpa using real.binding _ (by simp [DkgKeys.hashed]) _ (hpub.keyHash.symm.trans hhash)
  exact ⟨a, b, hkept, ⟨hcalls (_, a) (by simp), ha⟩, ⟨hcalls (_, b) (by simp), hb⟩, hpub⟩

lemma RealDkg.verified_c4ab (real : RealDkg circuit computeVkHash h n l keys)
    (haccd : Accepted circuit keys.node.c4ab pub)
    (hhash : entry pub 2 = computeVkHash [keys.node.c4a, keys.node.c4b]) :
    ∃ a b, c4abFoldCircuit computeVkHash h l [(keys.node.c4a, a), (keys.node.c4b, b)] pub ∧
      Accepted circuit keys.node.c4a a ∧ Accepted circuit keys.node.c4b b ∧
      C4abPublished computeVkHash h l a b keys.node.c4a keys.node.c4b pub := by
  obtain ⟨calls, hcirc, hcalls⟩ := haccd.holds
  rw [real.c4ab] at hcirc
  have hkept := hcirc
  obtain ⟨a, b, ka, kb, _, _, hfold⟩ := hcirc
  obtain ⟨rfl, hpub⟩ := c4abFold_eq hfold
  obtain ⟨rfl, rfl⟩ : ka = keys.node.c4a ∧ kb = keys.node.c4b := by
    simpa using real.binding _ (by simp [DkgKeys.hashed]) _ (hpub.keyHash.symm.trans hhash)
  exact ⟨a, b, hkept, hcalls (_, a) (by simp), hcalls (_, b) (by simp), hpub⟩

variable {chain : Keys Fr} {a : List Fr}

/-- The hashed keys of a chain are the keys that its proof publishes. -/
lemma keysOf_eq_of_chainKeys (hfold : entry a 1 = ka)
    (hkeys : [ka, entry a 2, entry a 0] = chainKeys chain) :
    ka = chain.fold ∧ keysOf a = chain := by
  obtain ⟨hka, hker, hinner, -⟩ :
      ka = chain.fold ∧ entry a 2 = chain.kernel ∧ entry a 0 = chain.inner ∧ True := by
    simpa [chainKeys] using hkeys
  refine ⟨hka, ?_⟩
  unfold keysOf
  rw [hfold, hker, hinner, hka]

lemma RealDkg.verified_c3ab (real : RealDkg circuit computeVkHash h n l keys)
    (haccd : Accepted circuit keys.node.c3ab pub)
    (hhash : entry pub 2 = computeVkHash (keys.node.chains computeVkHash)) :
    ∃ a b, c3abFoldCircuit computeVkHash n l
        [(keys.node.c3a.fold, a), (keys.node.c3b.fold, b)] pub ∧
      (Accepted circuit keys.node.c3a.fold a ∧ keysOf a = keys.node.c3a) ∧
      (Accepted circuit keys.node.c3b.fold b ∧ keysOf b = keys.node.c3b) ∧
      C3abPublished computeVkHash n l a b keys.node.c3a.fold keys.node.c3b.fold pub := by
  obtain ⟨calls, hcirc, hcalls⟩ := haccd.holds
  rw [real.c3ab] at hcirc
  have hkept := hcirc
  obtain ⟨a, b, ka, kb, _, _, hfold⟩ := hcirc
  obtain ⟨rfl, hpub⟩ := c3abFold_eq_some hfold
  have hchains := real.binding _ (by simp [DkgKeys.hashed]) _ (hpub.keyHash.symm.trans hhash)
  obtain ⟨hchainA, hchains⟩ := List.cons.inj hchains
  obtain ⟨hchainB, -⟩ := List.cons.inj hchains
  have hkeysA := real.binding _ (by simp [DkgKeys.hashed]) _ hchainA
  have hkeysB := real.binding _ (by simp [DkgKeys.hashed]) _ hchainB
  obtain ⟨rfl, hA⟩ := keysOf_eq_of_chainKeys hpub.foldA hkeysA
  obtain ⟨rfl, hB⟩ := keysOf_eq_of_chainKeys hpub.foldB hkeysB
  exact ⟨a, b, hkept, ⟨hcalls (_, a) (by simp), hA⟩, ⟨hcalls (_, b) (by simp), hB⟩, hpub⟩

/-- A slot of a chain with a message was filled by an accepted proof. -/
lemma c3_chain_encrypts (hfold : SequentialFold circuit (c3Reading slots) chain)
    (haccd : Accepted circuit chain.fold a) (hkeys : keysOf a = chain) :
    ∃ steps, Chain circuit (c3Reading slots) chain steps a ∧
      ∀ slot < slots, ∀ key msg, entry a (5 + slot) = key → entry a (5 + slots + slot) = msg →
        msg ≠ 0 → Encrypts circuit chain.inner steps slot key msg := by
  obtain ⟨steps, hchain⟩ := hfold.chain haccd hkeys
  refine ⟨steps, hchain, ?_⟩
  rintro slot hslot key msg rfl rfl hmsg
  rcases hchain.row hslot with hzero | ⟨leaf, hmem, hleaf, hrow⟩
  · have hrow : c3Row slots a slot = [0, 0, 0] := hzero
    simp only [c3Row, List.cons.injEq] at hrow
    exact absurd hrow.2.1 hmsg
  · have hrow : c3Row slots a slot = c3New leaf := hrow
    simp only [c3Row, c3New, List.cons.injEq] at hrow
    exact ⟨leaf, hmem, hleaf, hrow.1.symm, hrow.2.1.symm⟩

lemma fieldPrime_gt : 2 ^ 32 < fieldPrime := by
  norm_num [fieldPrime]

/-- Numbers of parties are different as field elements. -/
lemma natCast_ne_natCast {a b : ℕ} (ha : a < 2 ^ 32) (hb : b < 2 ^ 32) (hne : a ≠ b) :
    (a : Fr) ≠ (b : Fr) := by
  have hprime := fieldPrime_gt
  intro heq
  rw [ZMod.natCast_eq_natCast_iff', Nat.mod_eq_of_lt (by omega), Nat.mod_eq_of_lt (by omega)] at heq
  exact hne heq

lemma nodeFold_eq_some (hfold : nodeFold computeVkHash h n l p s = some (calls, pub)) :
    (entry p.c1 0 = entry p.c2ab (c2aInnerStart n l) ∧
      entry p.c1 2 = entry p.c2ab (c2bInnerStart n l) ∧
      AssertC3RecipientKeys n l s.partyId p.c3ab ∧
      AssertC2C3Links n l s.partyId p.c2ab p.c3ab) ∧
    calls = [(s.c0KeyHash, p.c0), (s.c1KeyHash, p.c1), (s.c2abKeyHash, p.c2ab),
      (s.c3abKeyHash, p.c3ab), (s.c4abKeyHash, p.c4ab)] ∧
    pub = (nodeFoldArrays computeVkHash h n l p s).flatten := by
  unfold nodeFold at hfold
  split at hfold
  · rename_i hchecks
    obtain ⟨rfl, rfl⟩ := Prod.mk.inj (Option.some.inj hfold)
    exact ⟨hchecks, rfl, rfl⟩
  · cases hfold

/-- Both chains have the exported key at every limb of another party. -/
lemma AssertC3RecipientKeys.key (hkeys : AssertC3RecipientKeys n l partyId c3ab) (hr : r < n)
    (hk : k < l) (hother : partyId ≠ (r : Fr)) :
    entry c3ab (c3abPkAStart n l + (r * l + k)) = entry c3ab (c3abPkAStart n l + r * l) ∧
      entry c3ab (c3abPkBStart n l + (r * l + k)) = entry c3ab (c3abPkAStart n l + r * l) := by
  obtain ⟨hsame, hlimb⟩ := hkeys r hr k hk
  have hzero : entry c3ab (c3abPkAStart n l + (r * l + k)) =
      entry c3ab (c3abPkAStart n l + r * l) := by
    by_cases hk0 : k = 0
    · rw [hk0, Nat.add_zero]
    · exact hlimb ⟨hother, hk0⟩
  exact ⟨hzero, hsame.symm.trans hzero⟩

/-- A row with the anchored hash is the proof tree of a node. -/
lemma RealDkg.node (real : RealDkg circuit computeVkHash h n l keys) (hn : n < 2 ^ 32)
    {row : List Fr} {id : ℕ} (haccd : Accepted circuit keys.nodes.inner row)
    (htree : entry row 6 = computeVkHash (keys.node.vkHashes computeVkHash))
    (hid : entry row 0 = (id : Fr)) (hidn : id < n) :
    ∃ t : NodeTree, t.Proves circuit computeVkHash h n l keys.node id row ∧
      t.Exports h n l id row := by
  obtain ⟨calls, hcirc, hcalls⟩ := haccd.holds
  rw [real.nodeFold] at hcirc
  have hkept := hcirc
  obtain ⟨p, s, _, hfold⟩ := hcirc
  obtain ⟨⟨hsk, hesm, hc3keys, hc3links⟩, rfl, rfl⟩ := nodeFold_eq_some hfold
  -- The tree hash fixes the key of every child and of its leaves.
  have hvks := real.binding _ (by simp [DkgKeys.hashed]) _ (nodeFold_treeHash.symm.trans htree)
  simp only [NodeProofs.vkHashes, NodeKeys.vkHashes, List.cons.injEq, and_true] at hvks
  obtain ⟨hk0, hk1, hk2ab, hh2, hk3ab, hh3, hk4ab, hh4⟩ := hvks
  rw [hk0, hk1, hk2ab, hk3ab, hk4ab] at hkept hcalls
  obtain ⟨c2a, c2b, hc2ab, ⟨hc2a, hlen2a⟩, ⟨hc2b, hlen2b⟩, hpub2⟩ :=
    real.verified_c2ab (hcalls (_, p.c2ab) (by simp)) hh2
  obtain ⟨c3a, c3b, hc3ab, ⟨hc3a, hkeys3a⟩, ⟨hc3b, hkeys3b⟩, hpub3⟩ :=
    real.verified_c3ab (hcalls (_, p.c3ab) (by simp)) hh3
  obtain ⟨c4a, c4b, hc4ab, hc4a, hc4b, hpub4⟩ :=
    real.verified_c4ab (hcalls (_, p.c4ab) (by simp)) hh4
  obtain ⟨stepsA, hchainA, hencr⟩ :=
    c3_chain_encrypts (c3_sequentialFold real.c3aFold real.c3aKernel) hc3a hkeys3a
  obtain ⟨stepsB, hchainB, hencry⟩ :=
    c3_chain_encrypts (c3_sequentialFold real.c3bFold real.c3bKernel) hc3b hkeys3b
  have hpart : s.partyId = (id : Fr) := hid
  have hother : ∀ r < n, r ≠ id → s.partyId ≠ (r : Fr) := by
    intro r hr hne
    rw [hpart]
    exact natCast_ne_natCast (by omega) (by omega) (Ne.symm hne)
  refine ⟨⟨p.c0, p.c1, c2a, c2b, c4a, c4b, stepsA, stepsB,
    fun r => entry p.c3ab (c3abPkAStart n l + r * l)⟩, ?_, ?_⟩
  · refine ⟨⟨p.c2ab, p.c3ab, p.c4ab, c3a, c3b, hkept, hc2ab, hc3ab, hc4ab, hchainA, hchainB⟩, hid,
      hcalls (_, p.c0) (by simp), hcalls (_, p.c1) (by simp), hc2a, hc2b, hc4a, hc4b,
      hsk.trans hpub2.secretA, hesm.trans hpub2.secretB, ?_, ?_⟩
    · intro r hr hne k hk
      have hslot := index_lt hr hk
      have hlink := hc3links r hr k hk (hother r hr hne)
      have hkey := hc3keys.key hr hk (hother r hr hne)
      refine hencr _ hslot _ _ ((hpub3.pkA _ hslot).symm.trans hkey.1) ?_
        (real.share_ne_zero _ (by simp) c2a hc2a hlen2a r hr k hk)
      rw [← hpub3.msgA _ hslot, ← hlink.1, hpub2.shareA r hr k hk]
    · intro r hr hne k hk
      have hslot := index_lt hr hk
      have hlink := hc3links r hr k hk (hother r hr hne)
      have hkey := hc3keys.key hr hk (hother r hr hne)
      refine hencry _ hslot _ _ ((hpub3.pkB _ hslot).symm.trans hkey.2) ?_
        (real.share_ne_zero _ (by simp) c2b hc2b hlen2b r hr k hk)
      rw [← hpub3.msgB _ hslot, ← hlink.2, hpub2.shareB r hr k hk]
  · refine ⟨nodeFold_c0Pk, nodeFold_c1Pk, ?_, ?_, ?_, ?_, ?_, ?_, ?_⟩
    · intro r hr hne
      rw [nodeFold_c3Pk hr]
      exact if_neg (hother r hr hne)
    · intro r hr k hk
      rw [nodeFold_c2a hr hk, Nat.add_assoc, hpub2.shareA r hr k hk]
    · intro r hr k hk
      rw [nodeFold_c2b hr hk, Nat.add_assoc, hpub2.shareB r hr k hk]
    · intro i hi k hk
      rw [nodeFold_c4a hi hk, Nat.add_assoc, hpub4.expectedA i hi k hk]
    · intro i hi k hk
      rw [nodeFold_c4b hi hk, Nat.add_assoc, hpub4.expectedB i hi k hk]
    · exact nodeFold_skAgg.trans hpub4.aggregateA
    · exact nodeFold_esmAgg.trans hpub4.aggregateB

end

/-! ### The selected nodes together -/

/-- What the public inputs of an accepted aggregator proof stand for: the selected parties, their
proof trees and the C5 proof. -/
structure ConsistentDkg (circuit : Fr → Circuit Fr Fr) (computeVkHash : VkHash) (h n l : ℕ)
    (keys : DkgKeys) (pub : List Fr) (ids : ℕ → ℕ) (node : ℕ → NodeTree) (c5 : List Fr) :
    Prop where
  partyId : ∀ i < h, entry pub (2 + i) = (ids i : Fr)
  inCommittee : ∀ i < h, ids i < n
  increasing : ∀ j < h, ∀ i < j, ids i < ids j
  /-- One `node_fold` for each of them. -/
  proves : ∀ i < h, ∃ row, Accepted circuit keys.nodes.inner row ∧
    (node i).Proves circuit computeVkHash h n l keys.node (ids i) row
  /-- Shares for a selected party are encrypted to its own key. -/
  recipientKey : ∀ i < h, ∀ j < h, i ≠ j → (node i).recipientKey (ids j) = entry (node j).c0 0
  /-- What a party decrypts is what was shared with it. -/
  c4a : ∀ i < h, ∀ j < h, ∀ k < l,
    entry (node j).c4a (i * l + k) = entry (node i).c2a (1 + ids j * l + k)
  c4b : ∀ i < h, ∀ j < h, ∀ k < l,
    entry (node j).c4b (i * l + k) = entry (node i).c2b (1 + ids j * l + k)
  c5Accepted : Accepted circuit keys.c5 c5
  c5Row : ∀ i < h, entry c5 i = entry (node i).c1 1
  skAgg : ∀ i < h, entry pub (5 + h + i) = entry (node i).c4a (h * l)
  esmAgg : ∀ i < h, entry pub (5 + h + h + i) = entry (node i).c4b (h * l)
  aggregatedPk : entry pub (5 + h + h + h) = entry c5 h

section

variable {circuit : Fr → Circuit Fr Fr} {computeVkHash : VkHash} {h n l : ℕ} {keys : DkgKeys}

lemma AssertCanonicalPartyIds.increasing (hids : AssertCanonicalPartyIds h n partyIds) :
    ∀ j < h, ∀ i < j, asU32 (entry partyIds i) < asU32 (entry partyIds j) :=
  increasing_of_step fun i hi => (hids i hi).2.2

variable {nodesPublic pub : List Fr} {i id : ℕ} {committeeHashLimbs : List Fr → Option (Fr × Fr)}
  {d : DkgInputs} {calls : List Verification}

/-- A fold row that carries the anchored hash is accepted, with the values that it exports. -/
lemma RealDkg.selected (real : RealDkg circuit computeVkHash h n l keys) (hn : n < 2 ^ 32)
    (haccd : Accepted circuit keys.nodes.fold nodesPublic)
    (hkeys : keysOf nodesPublic = keys.nodes) (hi : i < h)
    (htree : nodesCell h n l nodesPublic i 6 = computeVkHash (keys.node.vkHashes computeVkHash))
    (hid : nodesCell h n l nodesPublic i nfPartyIdIdx = (id : Fr)) (hidn : id < n) :
    ∃ t : NodeTree, ∃ row, Accepted circuit keys.nodes.inner row ∧
      t.Proves circuit computeVkHash h n l keys.node id row ∧ t.Exports h n l id row ∧
      ∀ k < nodeFoldPublicLen h n l, nodesCell h n l nodesPublic i k = entry row k := by
  obtain ⟨steps, hchain⟩ :=
    (nodes_sequentialFold real.nodesFold real.nodesFoldKernel).chain haccd hkeys
  have hlen := publicLen_eq h n l
  rcases hchain.row hi with hzero | ⟨row, -, hrow, heq⟩
  · -- An empty row has the hash zero.
    have hcell := nodesCell_eq hzero (show 6 < nodeFoldPublicLen h n l by omega)
    rw [hcell] at htree
    refine absurd htree.symm ?_
    have hentry : entry (zeroRow (nodeFoldPublicLen h n l)) 6 = 0 := by
      simp [entry, zeroRow]
    rw [show (nodesReading h n l).zero = zeroRow (nodeFoldPublicLen h n l) from rfl, hentry]
    exact real.tree_ne_zero
  · have hcells : ∀ k < nodeFoldPublicLen h n l, nodesCell h n l nodesPublic i k = entry row k :=
      fun k hk => nodesCell_eq heq hk
    rw [hcells 6 (by omega)] at htree
    rw [hcells nfPartyIdIdx (by unfold nfPartyIdIdx; omega)] at hid
    obtain ⟨t, hprov, hexpo⟩ := real.node hn hrow htree hid hidn
    exact ⟨t, row, hrow, hprov, hexpo, hcells⟩

/-- The rows of two selected nodes agree where the aggregator compares them. -/
lemma NodeTree.Exports.linked {t t' : NodeTree} {row row' : List Fr} {j id' : ℕ} (hi : i < h)
    (hid' : id' < n) (hexpo : t.Exports h n l id row) (hexpo' : t'.Exports h n l id' row')
    (hcells : ∀ k < nodeFoldPublicLen h n l, nodesCell h n l nodesPublic i k = entry row k)
    (hcells' : ∀ k < nodeFoldPublicLen h n l, nodesCell h n l nodesPublic j k = entry row' k) :
    (nodesCell h n l nodesPublic i (nfC3PkBaseIdx h n l + id') =
        nodesCell h n l nodesPublic j (nfC0PkIdx h n l) → id' ≠ id →
      t.recipientKey id' = entry t'.c0 0) ∧
    ∀ k < l, (nodesCell h n l nodesPublic j (nfC4aBaseIdx h n l + i * l + k) =
          nodesCell h n l nodesPublic i (nfC2aBaseIdx h n l + id' * l + k) →
        entry t'.c4a (i * l + k) = entry t.c2a (1 + id' * l + k)) ∧
      (nodesCell h n l nodesPublic j (nfC4bBaseIdx h n l + i * l + k) =
          nodesCell h n l nodesPublic i (nfC2bBaseIdx h n l + id' * l + k) →
        entry t'.c4b (i * l + k) = entry t.c2b (1 + id' * l + k)) := by
  have hlen := publicLen_eq h n l
  refine ⟨?_, ?_⟩
  · intro hlink hother
    rw [hcells _ (by simp only [nfC3PkBaseIdx, paramPublicLen_eq]; omega),
      hcells' _ (by simp only [nfC0PkIdx, paramPublicLen_eq]; omega),
      hexpo.c3Pk id' hid' hother, hexpo'.c0Pk] at hlink
    exact hlink
  · intro k hk
    have hsender := index_lt hi hk
    have hrcpt := index_lt hid' hk
    refine ⟨?_, ?_⟩
    · intro hlink
      rw [Nat.add_assoc, Nat.add_assoc,
        hcells' _ (by simp only [nfC4aBaseIdx, nfC2bBaseIdx, nfC2aBaseIdx,
          paramPublicLen_eq]; omega),
        hcells _ (by simp only [nfC2aBaseIdx, paramPublicLen_eq]; omega),
        hexpo'.c4a i hi k hk, hexpo.c2a id' hid' k hk] at hlink
      exact hlink
    · intro hlink
      rw [Nat.add_assoc, Nat.add_assoc,
        hcells' _ (by simp only [nfC4bBaseIdx, nfC4aBaseIdx, nfC2bBaseIdx, nfC2aBaseIdx,
          paramPublicLen_eq]; omega),
        hcells _ (by simp only [nfC2bBaseIdx, nfC2aBaseIdx, paramPublicLen_eq]; omega),
        hexpo'.c4b i hi k hk, hexpo.c2b id' hid' k hk] at hlink
      exact hlink

lemma dkgAggregator_eq_some
    (hfold : dkgAggregator computeVkHash committeeHashLimbs h n l d = some (calls, pub)) :
    d.Checks computeVkHash h n l ∧
    calls = [(d.nodesFoldVkHash, d.nodesFoldPublic), (d.c5KeyHash, d.c5Public)] ∧
    pub = (d.arrays computeVkHash h n l).flatten := by
  unfold dkgAggregator at hfold
  split at hfold
  · rename_i hchecks
    obtain ⟨rfl, rfl⟩ := Prod.mk.inj (Option.some.inj hfold)
    exact ⟨hchecks.2, rfl, rfl⟩
  · cases hfold

/-- The anchor fixes the keys of the fold, and the hash in its rows. -/
lemma RealDkg.anchored (real : RealDkg circuit computeVkHash h n l keys)
    (hfold : entry d.nodesFoldPublic 1 = d.nodesFoldVkHash)
    (hhash : d.nodesFoldKeyHash = computeVkHash [d.nodesFoldVkHash, entry d.nodesFoldPublic 2,
      entry d.nodesFoldPublic 0, d.nodeTreeHash h n l])
    (hanch : d.nodesFoldKeyHash = computeVkHash (keys.vkHashes computeVkHash)) :
    d.nodesFoldVkHash = keys.nodes.fold ∧ keysOf d.nodesFoldPublic = keys.nodes ∧
      d.nodeTreeHash h n l = computeVkHash (keys.node.vkHashes computeVkHash) := by
  have hvks := real.binding _ (by simp [DkgKeys.hashed]) _ (hhash.symm.trans hanch)
  simp only [DkgKeys.vkHashes, List.cons.injEq, and_true] at hvks
  obtain ⟨hvk, hker, hinner, htree⟩ := hvks
  refine ⟨hvk, ?_, htree⟩
  unfold keysOf
  rw [hfold, hker, hinner, hvk]

/-- What the aggregator verifies and checks, with the anchors of the real circuits. -/
lemma RealDkg.consistent (real : RealDkg circuit computeVkHash h n l keys) (hn : n < 2 ^ 32)
    (hholds : dkgAggregatorCircuit computeVkHash committeeHashLimbs h n l calls pub)
    (hcalls : ∀ call ∈ calls, Accepted circuit call.1 call.2)
    (hanch : entry pub 0 = computeVkHash (keys.vkHashes computeVkHash))
    (hc5 : entry pub 1 = keys.c5) :
    ∃ ids node c5, ConsistentDkg circuit computeVkHash h n l keys pub ids node c5 := by
  obtain ⟨d, hsized, hfold⟩ := hholds
  obtain ⟨⟨hids, hfoldKey, htrees, hhash, hparty, hc0c3, hc2c4, hc5rows⟩, rfl, rfl⟩ :=
    dkgAggregator_eq_some hfold
  obtain ⟨hvk, hkeys, htree⟩ := real.anchored hfoldKey hhash hanch
  have hnodes : Accepted circuit keys.nodes.fold d.nodesFoldPublic :=
    hvk ▸ hcalls (d.nodesFoldVkHash, d.nodesFoldPublic) (by simp)
  have hc5' : d.c5KeyHash = keys.c5 := hc5
  have hc5accepted : Accepted circuit keys.c5 d.c5Public :=
    hc5' ▸ hcalls (d.c5KeyHash, d.c5Public) (by simp)
  let ids : ℕ → ℕ := fun i => asU32 (entry d.partyIds i)
  have hsel : ∀ i, ∃ t : NodeTree, ∃ row, i < h → Accepted circuit keys.nodes.inner row ∧
      t.Proves circuit computeVkHash h n l keys.node (ids i) row ∧ t.Exports h n l (ids i) row ∧
      ∀ k < nodeFoldPublicLen h n l, nodesCell h n l d.nodesFoldPublic i k = entry row k := by
    intro i
    by_cases hi : i < h
    · have hcell := htrees i hi
      rw [paramPublicLen_eq, htree] at hcell
      obtain ⟨t, row, hrow⟩ := real.selected hn hnodes hkeys hi hcell
        ((hparty i hi).trans (hids i hi).1) (hids i hi).2.1
      exact ⟨t, row, fun _ => hrow⟩
    · exact ⟨default, [], fun hi' => absurd hi' hi⟩
  choose node row hnode using hsel
  have hlen := publicLen_eq h n l
  have hlinked : ∀ i < h, ∀ j < h, _ := fun i hi j hj => NodeTree.Exports.linked hi (hids j hj).2.1
    (hnode i hi).2.2.1 (hnode j hj).2.2.1 (hnode i hi).2.2.2 (hnode j hj).2.2.2
  refine ⟨ids, node, d.c5Public, ?_⟩
  refine
    { partyId := ?_
      inCommittee := fun i hi => (hids i hi).2.1
      increasing := hids.increasing
      proves := fun i hi => ⟨row i, (hnode i hi).1, (hnode i hi).2.1⟩
      recipientKey := ?_
      c4a := fun i hi j hj k hk => ((hlinked i hi j hj).2 k hk).1 (hc2c4 i hi j hj k hk).1
      c4b := fun i hi j hj k hk => ((hlinked i hi j hj).2 k hk).2 (hc2c4 i hi j hj k hk).2
      c5Accepted := hc5accepted
      c5Row := ?_
      skAgg := ?_
      esmAgg := ?_
      aggregatedPk := ?_ }
  · intro i hi
    refine (entry_flatten (d.arrays computeVkHash h n l) 1 rfl ?_).trans (hids i hi).1
    simpa [DkgInputs.arrays, hsized.partyIds] using hi
  · intro i hi j hj hij
    refine (hlinked i hi j hj).1 (hc0c3 i hi j hj) ?_
    rcases Nat.lt_or_gt_of_ne hij with hlt | hlt
    · exact (hids.increasing j hj i hlt).ne'
    · exact (hids.increasing i hi j hlt).ne
  · intro i hi
    rw [hc5rows i hi, (hnode i hi).2.2.2 _ (by
      simp only [nfC1PkIdx, paramPublicLen_eq]; omega), (hnode i hi).2.2.1.c1Pk]
  · intro i hi
    rw [entry_flatten_column (d.arrays computeVkHash h n l) 4
      (f := fun i => nodesCell h n l d.nodesFoldPublic i (nfSkAggIdx h n l)) rfl
      (by simp [DkgInputs.arrays, hsized.partyIds]; omega) hi,
      (hnode i hi).2.2.2 _ (by
        simp only [nfSkAggIdx, nfC4bBaseIdx, nfC4aBaseIdx, nfC2bBaseIdx, nfC2aBaseIdx,
          paramPublicLen_eq]; omega), (hnode i hi).2.2.1.skAgg]
  · intro i hi
    rw [entry_flatten_column (d.arrays computeVkHash h n l) 5
      (f := fun i => nodesCell h n l d.nodesFoldPublic i (nfEsmAggIdx h n l)) rfl
      (by simp [DkgInputs.arrays, hsized.partyIds]; omega) hi,
      (hnode i hi).2.2.2 _ (by
        simp only [nfEsmAggIdx, nfSkAggIdx, nfC4bBaseIdx, nfC4aBaseIdx, nfC2bBaseIdx, nfC2aBaseIdx,
          paramPublicLen_eq]; omega), (hnode i hi).2.2.1.esmAgg]
  · exact entry_flatten_single (d.arrays computeVkHash h n l) 6 rfl
      (by simp [DkgInputs.arrays, hsized.partyIds]; omega)

end

/-- An accepted aggregator proof with the anchors of the real circuits is a consistent DKG. -/
theorem dkg_aggregator_consistent (circuit : Fr → Circuit Fr Fr) (computeVkHash : VkHash)
    (committeeHashLimbs : List Fr → Option (Fr × Fr)) (h n l : ℕ) (hn : n < 2 ^ 32)
    (keys : DkgKeys) (real : RealDkg circuit computeVkHash h n l keys) (aggregator : Fr)
    (hcircuit : circuit aggregator = dkgAggregatorCircuit computeVkHash committeeHashLimbs h n l)
    (pub : List Fr) (haccepted : Accepted circuit aggregator pub)
    (hanchor : entry pub 0 = computeVkHash (keys.vkHashes computeVkHash))
    (hc5 : entry pub 1 = keys.c5) :
    ∃ ids node c5, ConsistentDkg circuit computeVkHash h n l keys pub ids node c5 := by
  obtain ⟨calls, hholds, hcalls⟩ := haccepted.holds
  rw [hcircuit] at hholds
  exact real.consistent hn hholds hcalls hanchor hc5

/-! ### A DKG of two parties -/

namespace SampleDkg

/-- A number as a key or as a public input. -/
def num (a : ℕ) : Fr := a

def c3Keys : Keys Fr := ⟨num 6, num 7, num 8⟩

def keys : DkgKeys where
  node := ⟨num 1, num 2, num 3, num 4, num 5, c3Keys, c3Keys, num 9, num 10, num 10, num 11⟩
  nodes := ⟨num 12, num 13, num 14⟩
  c5 := num 15

/-- What is hashed into the anchors, with different values. The last entry is a chain of C6. -/
def hashTable : List (List Fr × Fr) :=
  [([7, 8, 6], 21), ([21, 21], 22), ([3, 4], 23), ([10, 10], 24),
    ([1, 2, 5, 23, 9, 22, 11, 24], 25), ([13, 14, 12, 25], 26), ([18, 19, 17], 27)].map
    fun row => (row.1.map num, num row.2)

def hash : VkHash := fun xs => ((hashTable.find? fun p => p.1 = xs).map Prod.snd).getD 0

def committeeHash : List Fr → Option (Fr × Fr) := fun members => some (entry members 0, 0)

def leafCircuit : Circuit Fr Fr := fun calls pub => calls = [] ∧ 0 ∉ pub

/-- The circuits of the DKG, and `rest` for all other keys. -/
def circuitOf (rest : ℕ → Circuit Fr Fr) : ℕ → Circuit Fr Fr
  | 1 | 2 | 3 | 4 | 6 | 10 | 15 => leafCircuit
  | 5 => c2abFoldCircuit hash 2 1
  | 7 => c3FoldCircuit 2
  | 8 => c3FoldKernelCircuit 2
  | 9 => c3abFoldCircuit hash 2 1
  | 11 => c4abFoldCircuit hash 2 1
  | 12 => nodeFoldCircuit hash 2 2 1
  | 13 => nodesFoldCircuit 2 2 1
  | 14 => nodesFoldKernelCircuit 2 2 1
  | 16 => dkgAggregatorCircuit hash committeeHash 2 2 1
  | key => rest key

def circuit (rest : ℕ → Circuit Fr Fr) (key : Fr) : Circuit Fr Fr := circuitOf rest key.val

variable {rest : ℕ → Circuit Fr Fr}

variable {xs : List Fr} {i : ℕ}

lemma mem_hashTable (h : hash xs ≠ 0) : (xs, hash xs) ∈ hashTable := by
  unfold hash at h ⊢
  cases hfind : hashTable.find? fun p => p.1 = xs with
  | none => simp [hfind] at h
  | some p =>
    have hmem := List.mem_of_find?_eq_some hfind
    have hxs : p.1 = xs := by simpa using List.find?_some hfind
    simpa [← hxs] using hmem

/-- Only one list has a given value other than zero. -/
lemma hash_binding (hne : hash xs ≠ 0) (h : hash ys = hash xs) : ys = xs := by
  have hinj : ∀ p ∈ hashTable, ∀ q ∈ hashTable, p.2 = q.2 → p.1 = q.1 := by decide +kernel
  exact hinj _ (mem_hashTable (h ▸ hne)) _ (mem_hashTable hne) h

lemma real : RealDkg (circuit rest) hash 2 2 1 keys where
  nodesFold := rfl
  nodesFoldKernel := rfl
  nodeFold := rfl
  c2ab := rfl
  c3ab := rfl
  c4ab := rfl
  c3aFold := rfl
  c3aKernel := rfl
  c3bFold := rfl
  c3bKernel := rfl
  binding xs hxs ys := by
    have hne : ∀ xs ∈ keys.hashed hash, hash xs ≠ 0 := by decide +kernel
    exact hash_binding (hne xs hxs)
  tree_ne_zero := by decide +kernel
  share_ne_zero := by
    intro key hkey pub haccd hlen j hj k hk
    obtain ⟨calls, hholds, -⟩ := haccd.holds
    have hleaf : circuit rest key = leafCircuit := by
      fin_cases hkey <;> rfl
    rw [hleaf] at hholds
    have hlt : 1 + j * 1 + k < pub.length := by
      rw [hlen, c2PublicLen]
      omega
    intro hzero
    refine hholds.2 ?_
    rw [← hzero, entry, List.getD_eq_getElem _ _ hlt]
    exact List.getElem_mem hlt

lemma leaf (hkey : circuit rest key = leafCircuit) (hpub : 0 ∉ pub) :
    Accepted (circuit rest) key pub := by
  refine .intro key [] pub ?_ (by simp)
  rw [hkey]
  exact ⟨rfl, hpub⟩

/-- The leaves of party `i`, for the other party `1 - i`. -/
def c2a (i : ℕ) : List Fr := [(200 + i : ℕ), (500 + 10 * i : ℕ), (501 + 10 * i : ℕ)]
def c2b (i : ℕ) : List Fr := [(400 + i : ℕ), (600 + 10 * i : ℕ), (601 + 10 * i : ℕ)]
def c3a (i : ℕ) : List Fr := [(100 + (1 - i) : ℕ), entry (c2a i) (1 + (1 - i)), num 70]
def c3b (i : ℕ) : List Fr := [(100 + (1 - i) : ℕ), entry (c2b i) (1 + (1 - i)), num 80]
def c4a (i : ℕ) : List Fr := [(500 + i : ℕ), (510 + i : ℕ), (700 + i : ℕ)]
def c4b (i : ℕ) : List Fr := [(600 + i : ℕ), (610 + i : ℕ), (800 + i : ℕ)]

/-- A chain of one C3 proof. -/
def c3Step (i : ℕ) : StepInputs := ⟨num 6, num 7, num 8, true, 1 - i⟩

def c3Chain (i : ℕ) (c3 : List Fr) : List Fr :=
  (c3Step i).publicInputs ++ columns 3 ([0, 1].map fun r => if r = 1 - i then c3 else [0, 0, 0])

def proofs (i : ℕ) : NodeProofs :=
  { c0 := [(100 + i : ℕ)]
    c1 := [(200 + i : ℕ), (300 + i : ℕ), (400 + i : ℕ)]
    c2ab := (c2abArrays hash 2 1 (c2a i) (c2b i) (num 3) (num 4)).flatten
    c3ab := (c3abArrays hash 2 1 (c3Chain i (c3a i)) (c3Chain i (c3b i)) (num 7) (num 7)).flatten
    c4ab := (c4abArrays hash 2 1 (c4a i) (c4b i) (num 10) (num 10)).flatten }

def inputs (i : ℕ) : NodeInputs := ⟨i, num 1, num 2, num 5, num 9, num 11⟩

def row (i : ℕ) : List Fr := (nodeFoldArrays hash 2 2 1 (proofs i) (inputs i)).flatten

lemma c3Chain_accepted (hi : i < 2) (hlen : c3.length = 3) (hc3 : 0 ∉ c3) :
    Accepted (circuit rest) 7 (c3Chain i c3) := by
  have hleaf : Accepted (circuit rest) 6 c3 := leaf rfl hc3
  have hnew : c3New c3 = c3 := map_entry_range hlen
  have hslot : (c3Step i).slotIndex < 2 := by simp only [c3Step]; omega
  have hker : Accepted (circuit rest) 8 (c3Chain i c3) := by
    refine .intro 8 [(6, c3)] _ ⟨c3, c3Step i, hlen, ?_⟩ (by simpa using hleaf)
    unfold c3FoldKernel kernelStep
    rw [if_pos ⟨hslot, rfl⟩, hnew]
    rfl
  refine .intro 7 [(6, c3), (8, c3Chain i c3)] _
    ⟨c3, c3Chain i c3, c3Step i, hlen, by simp [c3Chain, columns, c3FoldPublicLen], ?_⟩ ?_
  · unfold c3Fold
    rw [foldStep_eq_some.2 ⟨hslot, rfl, by simp [c3Step], rfl, rfl⟩, hnew]
    rfl
  · intro call hcall
    rcases List.mem_cons.1 hcall with rfl | hcall
    · exact hleaf
    · rw [List.mem_singleton.1 hcall]
      exact hker

lemma leaves_ne_zero : ∀ i < 2, 0 ∉ (proofs i).c0 ∧ 0 ∉ (proofs i).c1 ∧ 0 ∉ c2a i ∧ 0 ∉ c2b i ∧
    0 ∉ c3a i ∧ 0 ∉ c3b i ∧ 0 ∉ c4a i ∧ 0 ∉ c4b i := by
  decide +kernel

lemma nodeFold_row (hi : i < 2) : nodeFold hash 2 2 1 (proofs i) (inputs i) =
    some ([(1, (proofs i).c0), (2, (proofs i).c1), (5, (proofs i).c2ab), (9, (proofs i).c3ab),
      (11, (proofs i).c4ab)], row i) := by
  have hchecks : ∀ i < 2, entry (proofs i).c1 0 = entry (proofs i).c2ab (c2aInnerStart 2 1) ∧
      entry (proofs i).c1 2 = entry (proofs i).c2ab (c2bInnerStart 2 1) ∧
      AssertC3RecipientKeys 2 1 (inputs i).partyId (proofs i).c3ab ∧
      AssertC2C3Links 2 1 (inputs i).partyId (proofs i).c2ab (proofs i).c3ab := by
    decide +kernel
  exact if_pos (hchecks i hi)

lemma row_accepted (hi : i < 2) : Accepted (circuit rest) 12 (row i) := by
  obtain ⟨hc0, hc1, hc2a, hc2b, hc3a, hc3b, hc4a, hc4b⟩ := leaves_ne_zero i hi
  have hc2ab : Accepted (circuit rest) 5 (proofs i).c2ab := by
    refine .intro 5 [(3, c2a i), (4, c2b i)] _ ⟨c2a i, c2b i, 3, 4, rfl, rfl, rfl⟩ ?_
    simpa using ⟨leaf rfl hc2a, leaf rfl hc2b⟩
  have hc3ab : Accepted (circuit rest) 9 (proofs i).c3ab := by
    refine .intro 9 [(7, c3Chain i (c3a i)), (7, c3Chain i (c3b i))] _
      ⟨_, _, 7, 7, by simp [c3Chain, columns, c3FoldPublicLen],
        by simp [c3Chain, columns, c3FoldPublicLen], if_pos ⟨rfl, rfl⟩⟩ ?_
    simpa using ⟨c3Chain_accepted hi rfl hc3a, c3Chain_accepted hi rfl hc3b⟩
  have hc4ab : Accepted (circuit rest) 11 (proofs i).c4ab := by
    refine .intro 11 [(10, c4a i), (10, c4b i)] _ ⟨c4a i, c4b i, 10, 10, rfl, rfl, rfl⟩ ?_
    simpa using ⟨leaf rfl hc4a, leaf rfl hc4b⟩
  refine .intro 12 _ _ ⟨proofs i, inputs i, ⟨rfl, rfl, rfl, rfl, rfl⟩, nodeFold_row hi⟩ ?_
  simpa using ⟨leaf rfl hc0, leaf rfl hc1, hc2ab, hc3ab, hc4ab⟩

/-- The rows of both parties, the first one taken in by a kernel proof. -/
def nodesFirst : List Fr :=
  StepInputs.publicInputs ⟨num 12, num 13, num 14, true, 0⟩ ++
    grid 2 21 fun i k => entry ([row 0, zeroRow 21].getD i []) k

def nodesPublic : List Fr :=
  StepInputs.publicInputs ⟨num 12, num 13, num 14, false, 1⟩ ++
    grid 2 21 fun i k => entry ([row 0, row 1].getD i []) k

lemma nodesPublic_accepted : Accepted (circuit rest) 13 nodesPublic := by
  have hker : Accepted (circuit rest) 14 nodesFirst := by
    refine .intro 14 [(12, row 0)] _ ⟨row 0, ⟨12, 13, 14, true, 0⟩, rfl, rfl⟩ ?_
    simpa using row_accepted (i := 0) (by omega)
  have hfirst : Accepted (circuit rest) 13 nodesFirst := by
    refine .intro 13 [(12, row 0), (14, nodesFirst)] _
      ⟨row 0, nodesFirst, ⟨12, 13, 14, true, 0⟩, rfl, rfl, by decide +kernel⟩ ?_
    simpa using ⟨row_accepted (i := 0) (by omega), hker⟩
  refine .intro 13 [(12, row 1), (13, nodesFirst)] _
    ⟨row 1, nodesFirst, ⟨12, 13, 14, false, 1⟩, rfl, rfl, by decide +kernel⟩ ?_
  simpa using ⟨row_accepted (i := 1) (by omega), hfirst⟩

def aggregated : DkgInputs :=
  { nodesFoldPublic := nodesPublic
    nodesFoldVkHash := num 13
    c5Public := [300, 301, 999].map num
    nodesFoldKeyHash := num 26
    c5KeyHash := num 15
    partyIds := [0, 1]
    committeeMembers := [40, 41].map num
    committeeHashHi := num 40
    committeeHashLo := 0 }

lemma aggregated_accepted : Accepted (circuit rest) 16 (aggregated.arrays hash 2 2 1).flatten := by
  have hc5 : Accepted (circuit rest) 15 [300, 301, 999] := leaf rfl (by decide +kernel)
  refine .intro 16 [(13, nodesPublic), (15, [300, 301, 999])] _
    ⟨aggregated, ⟨rfl, rfl, rfl, rfl⟩, if_pos (by decide +kernel)⟩ ?_
  simpa using ⟨nodesPublic_accepted, hc5⟩

end SampleDkg

/-- Two parties share with each other. -/
theorem dkg_aggregator_consistent_sample :
    ∃ ids node c5, ConsistentDkg (SampleDkg.circuit fun _ => SampleDkg.leafCircuit) SampleDkg.hash
      2 2 1 SampleDkg.keys (SampleDkg.aggregated.arrays SampleDkg.hash 2 2 1).flatten ids node c5 :=
  dkg_aggregator_consistent _ SampleDkg.hash SampleDkg.committeeHash 2 2 1 (by omega)
    SampleDkg.keys SampleDkg.real 16 rfl _ SampleDkg.aggregated_accepted
    (by decide +kernel) rfl

end Interfold.Circuits
