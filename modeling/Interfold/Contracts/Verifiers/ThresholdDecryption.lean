import Interfold.Circuits.DecryptionAggregator
import Interfold.Contracts.Verifiers.BfvDecryption

/-!
# Threshold decryption by anchored parties

The secrets of a decryption enter through C6, the evaluation points through C7, and the contract
pairs them with the anchors of the DKG. Together they leave one reading of an accepted call: one
decryption by parties of the committee, each with its own share at its own point.
-/

namespace Interfold.ThresholdDecryption

open Recursion Circuits BfvDecryption

/-! ### Words as field elements -/

def fields (words : List ℕ) : List Fr := words.map (Nat.cast : ℕ → Fr)

lemma entry_fields (words : List ℕ) (i : ℕ) : entry (fields words) i = (words.getD i 0 : Fr) := by
  unfold entry fields
  simp only [List.getD_eq_getElem?_getD, List.getElem?_map]
  cases words[i]? with
  | none => exact (Nat.cast_zero (R := Fr)).symm
  | some w => rfl

lemma entry_fields_of_getElem? {words : List ℕ} {i w : ℕ} (h : words[i]? = some w) :
    entry (fields words) i = (w : Fr) := by
  rw [entry_fields, List.getD_eq_getElem?_getD, h, Option.getD_some]

lemma natCast_ne_zero (hw : w < bn254ScalarModulus) (hne : w ≠ 0) : (w : Fr) ≠ 0 := by
  intro hzero
  have hdvd := (ZMod.natCast_eq_zero_iff w fieldPrime).1 hzero
  exact absurd (Nat.le_of_dvd (Nat.pos_of_ne_zero hne) hdvd) (not_le.2 hw)

/-- Canonical words are told apart by their field elements. -/
lemma eq_of_natCast_eq (ha : a < fieldPrime) (hb : b < fieldPrime) (h : (a : Fr) = (b : Fr)) :
    a = b := by
  rw [ZMod.natCast_eq_natCast_iff', Nat.mod_eq_of_lt ha, Nat.mod_eq_of_lt hb] at h
  exact h

lemma asU32_natCast {a : ℕ} (ha : a < 2 ^ 32) : asU32 (a : Fr) = a := by
  have hprime := fieldPrime_gt
  unfold asU32
  rw [ZMod.val_natCast, Nat.mod_eq_of_lt (lt_trans ha hprime), Nat.mod_eq_of_lt ha]

/-! ### Assumptions -/

/-- The columns of a DKG proof that are recorded in the registry. -/
def anchorsOf (h : ℕ) (words : List ℕ) : DkgAnchors where
  partyIds := (List.range h).map fun j => words.getD (2 + j) 0
  skAggCommits := (List.range h).map fun j => words.getD (5 + h + j) 0
  esmAggCommits := (List.range h).map fun j => words.getD (5 + h + h + j) 0

variable {Proof : Type}

/-- The contract is deployed for the real circuits, and its proof verification is sound. -/
structure RealDecryption (circuit : Fr → Circuit Fr Fr) (computeVkHash : VkHash)
    (committeeHashLimbs : List Fr → Option (Fr × Fr)) (n t : ℕ) (c6 : Keys Fr)
    (c7 decryptionKey : Fr) (v : Verifier) (env : Env Proof) : Prop where
  c6Fold : circuit c6.fold = c6FoldCircuit t
  c6Kernel : circuit c6.kernel = c6FoldKernelCircuit t
  aggregator : circuit decryptionKey =
    decryptionAggregatorCircuit computeVkHash committeeHashLimbs n t messageCoeffsCount
  binding : ∀ ys, computeVkHash ys = computeVkHash (chainKeys c6) → ys = chainKeys c6
  threshold : v.threshold = t
  c6Anchor : (v.expectedC6FoldKeyHash : Fr) = computeVkHash (chainKeys c6)
  c7Anchor : (v.expectedC7KeyHash : Fr) = c7
  sound : ∀ proof words, env.circuitVerify proof words = true →
    Accepted circuit decryptionKey (fields words)

/-- The anchors of an E3 come from an accepted proof of the DKG aggregator. -/
structure RecordedDkg (circuit : Fr → Circuit Fr Fr) (computeVkHash : VkHash)
    (committeeHashLimbs : List Fr → Option (Fr × Fr)) (h n l : ℕ) (keys : DkgKeys)
    (dkgKey : Fr) (env : Env Proof) (e3Id : ℕ) (words : List ℕ) : Prop where
  aggregator : circuit dkgKey = dkgAggregatorCircuit computeVkHash committeeHashLimbs h n l
  accepted : Accepted circuit dkgKey (fields words)
  anchor : entry (fields words) 0 = computeVkHash (keys.vkHashes computeVkHash)
  c5 : entry (fields words) 1 = keys.c5
  recorded : env.getDkgAnchors e3Id = some (anchorsOf h words)

/-! ### One decryption -/

/-- The proofs behind an accepted call: `leaf i` is the C6 proof at slot `i` of the fold, of the
party with evaluation point `party i`, which is row `row i` of the DKG. -/
structure OneDecryption (circuit : Fr → Circuit Fr Fr) (c6 : Keys Fr) (c7Key : Fr) (h n l t : ℕ)
    (env : Env Proof) (call : Call Proof) (ids : ℕ → ℕ) (node : ℕ → NodeTree)
    (steps : List (ℕ × List Fr)) (c6Public c7 : List Fr) (leaf : ℕ → List Fr)
    (party row : ℕ → ℕ) : Prop where
  chain : Chain circuit (c6Reading t) c6 steps c6Public
  folded : ∀ i < t + 1, (i, leaf i) ∈ steps
  accepted : ∀ i < t + 1, Accepted circuit c6.inner (leaf i)
  domain : ∀ i < t + 1,
    c6Domain (leaf i) = [(hi call.decryptionDomain : Fr), (lo call.decryptionDomain : Fr)]
  ciphertext : ∀ i < t + 1, entry (leaf i) 2 = (call.ciphertextCommitment : Fr)
  /-- The opened secrets are the aggregates of the party in that DKG. -/
  rowOf : ∀ i < t + 1, row i < h ∧ ids (row i) = party i - 1
  sk : ∀ i < t + 1, entry (leaf i) 0 = entry (node (row i)).c4a (h * l)
  esm : ∀ i < t + 1, entry (leaf i) 1 = entry (node (row i)).c4b (h * l)
  c7Accepted : Accepted circuit c7Key c7
  share : ∀ i < t + 1, entry (leaf i) 5 = entry c7 i
  partyId : ∀ i < t + 1, entry c7 (t + 1 + i) = (party i : Fr)
  inRange : ∀ i < t + 1, 1 ≤ party i ∧ party i ≤ n
  increasing : ∀ j < t + 1, ∀ i < j, party i < party j
  /-- The published message is that of C7. -/
  message : ∀ k < messageCoeffsCount,
    (call.publicInputs.getD (messageOffset t + k) 0 : Fr) = entry c7 (2 * (t + 1) + k)
  plaintext : env.keccak256 (plaintextBytes t call.publicInputs) = call.plaintextOutputHash

section

variable {circuit : Fr → Circuit Fr Fr} {computeVkHash : VkHash} {h n l t : ℕ} {keys : DkgKeys}
  {words publicInputs : List ℕ} {ids : ℕ → ℕ} {node : ℕ → NodeTree} {c5 : List Fr}

/-- What a matched anchor says about the public inputs of both proofs. -/
lemma anchored (hn : n < 2 ^ 32)
    (hdkg : ConsistentDkg circuit computeVkHash h n l keys (fields words) ids node c5)
    (hcanon : ∀ value ∈ publicInputs, value < bn254ScalarModulus)
    (hmatch : AnchorMatch t (anchorsOf h words) publicInputs i j) :
    j < h ∧ entry (fields publicInputs) (8 + i) = ((ids j + 1 : ℕ) : Fr) ∧
      entry (fields publicInputs) (8 + (t + 1) + i) = entry (node j).c4a (h * l) ∧
      entry (fields publicInputs) (8 + (t + 1) + (t + 1) + i) = entry (node j).c4b (h * l) := by
  obtain ⟨⟨party, hinput, hparty⟩, ⟨sk, hskIn, hsk⟩, ⟨esm, hesmIn, hesm⟩⟩ := hmatch
  have hprime := fieldPrime_gt
  have hj : j < h := by
    simpa [anchorsOf] using (List.getElem?_eq_some_iff.1 hparty).1
  simp only [anchorsOf, List.getElem?_map, List.getElem?_range hj, Option.map_some,
    Option.some.injEq] at hparty hsk hesm
  have hpart : party + 1 < fieldPrime := hcanon _ (List.mem_of_getElem? hinput)
  have hid : party = ids j := by
    have hids := hdkg.inCommittee j hj
    refine eq_of_natCast_eq (by omega) (by omega) ?_
    rw [← hparty, ← entry_fields, hdkg.partyId j hj]
  refine ⟨hj, ?_, ?_, ?_⟩
  · rw [← hid]
    exact entry_fields_of_getElem? hinput
  · rw [← hdkg.skAgg j hj, entry_fields words, hsk]
    exact entry_fields_of_getElem? hskIn
  · rw [← hdkg.esmAgg j hj, entry_fields words, hesm]
    exact entry_fields_of_getElem? hesmIn

end

/-- An accepted call is one decryption by anchored parties. -/
theorem decryption_by_anchored_parties (circuit : Fr → Circuit Fr Fr) (computeVkHash : VkHash)
    (committeeHashLimbs : List Fr → Option (Fr × Fr)) (h n l t : ℕ) (hn : n < 2 ^ 32)
    (keys : DkgKeys) (real : RealDkg circuit computeVkHash h n l keys) (c6 : Keys Fr)
    (c7 dkgKey decryptionKey : Fr) (v : Verifier) (env : Env Proof)
    (hreal : RealDecryption circuit computeVkHash committeeHashLimbs n t c6 c7 decryptionKey v env)
    (call : Call Proof) (words : List ℕ)
    (hdkg : RecordedDkg circuit computeVkHash committeeHashLimbs h n l keys dkgKey env call.e3Id
      words) (hverify : verify v env call = .ok true) (hct : call.ciphertextCommitment ≠ 0) :
    ∃ ids node c5, ConsistentDkg circuit computeVkHash h n l keys (fields words) ids node c5 ∧
      ∃ steps c6Public c7Public leaf party row, OneDecryption circuit c6 c7 h n l t env call ids
        node steps c6Public c7Public leaf party row := by
  obtain rfl := hreal.threshold
  have haccepts := verify_ok hverify
  -- The DKG behind the anchors.
  obtain ⟨dkgCalls, hdkgHolds, hdkgCalls⟩ := hdkg.accepted.holds
  rw [hdkg.aggregator] at hdkgHolds
  obtain ⟨ids, node, c5, hconsistent⟩ :=
    real.consistent hn hdkgHolds hdkgCalls hdkg.anchor hdkg.c5
  -- The proofs behind the call.
  obtain ⟨calls, hholds, hcalls⟩ := (hreal.sound _ _ haccepts.proof).holds
  rw [hreal.aggregator] at hholds
  have hpub := fun {i w : ℕ} (hw : call.publicInputs[i]? = some w) => entry_fields_of_getElem? hw
  have hctField : entry (fields call.publicInputs) 6 ≠ 0 := by
    rw [hpub haccepts.ciphertext]
    exact natCast_ne_zero (haccepts.canonical _ (List.mem_of_getElem? haccepts.ciphertext)) hct
  obtain ⟨steps, c6Public, c7Public, leaf, htree⟩ :=
    decryptionTree_of_accepted (c6_sequentialFold hreal.c6Fold hreal.c6Kernel) hreal.binding hholds
      hcalls ((hpub haccepts.c6FoldKeyHash).trans hreal.c6Anchor) hctField
  obtain ⟨anchors, hanchors, hmatches⟩ := haccepts.anchors
  obtain rfl : anchorsOf h words = anchors := Option.some.inj (hdkg.recorded.symm.trans hanchors)
  have hrows : ∀ i, ∃ j, i < v.threshold + 1 →
      AnchorMatch v.threshold (anchorsOf h words) call.publicInputs i j := by
    intro i
    by_cases hi : i < v.threshold + 1
    · obtain ⟨j, hj⟩ := hmatches i hi
      exact ⟨j, fun _ => hj⟩
    · exact ⟨0, fun hi' => absurd hi' hi⟩
  choose row hrow using hrows
  have hanchored := fun i hi => anchored hn hconsistent haccepts.canonical (hrow i hi)
  have hparty : ∀ i < v.threshold + 1,
      entry c7Public (v.threshold + 1 + i) = ((ids (row i) + 1 : ℕ) : Fr) :=
    fun i hi => (htree.partyId i hi).symm.trans (hanchored i hi).2.1
  have hbound : ∀ i < v.threshold + 1, ids (row i) + 1 ≤ n :=
    fun i hi => hconsistent.inCommittee _ (hanchored i hi).1
  refine ⟨ids, node, c5, hconsistent, steps, c6Public, c7Public, leaf,
    fun i => ids (row i) + 1, row, ?_⟩
  refine
    { chain := htree.chain
      folded := fun i hi => (htree.shares i hi).folded
      accepted := fun i hi => (htree.shares i hi).accepted
      domain := ?_
      ciphertext := fun i hi => (htree.shares i hi).ciphertext.trans (hpub haccepts.ciphertext)
      rowOf := fun i hi => ⟨(hanchored i hi).1, rfl⟩
      sk := fun i hi => (htree.shares i hi).sk.trans (hanchored i hi).2.2.1
      esm := fun i hi => (htree.shares i hi).esm.trans (hanchored i hi).2.2.2
      c7Accepted := ?_
      share := fun i hi => (htree.shares i hi).share
      partyId := hparty
      inRange := fun i hi => ⟨Nat.succ_pos _, hbound i hi⟩
      increasing := ?_
      message := ?_
      plaintext := haccepts.plaintext }
  · intro i hi
    obtain ⟨hhi, hlo⟩ := (htree.shares i hi).domain
    rw [c6Domain, hhi, hlo, hpub haccepts.domainHi, hpub haccepts.domainLo]
  · rw [← hreal.c7Anchor, ← hpub haccepts.c7KeyHash]
    exact htree.c7Accepted
  · -- In range, the cast of the circuit keeps the points apart.
    intro j hj i hij
    have hlt := htree.increasing j hj i hij
    have hi : i < v.threshold + 1 := by omega
    have hboundi := hbound i hi
    have hboundj := hbound j hj
    rw [hparty i hi, hparty j hj, asU32_natCast (by omega), asU32_natCast (by omega)] at hlt
    exact hlt
  · intro k hk
    rw [← entry_fields]
    exact htree.message k hk

/-! ### A decryption by the two parties of a DKG -/

namespace Sample

open Arrays SampleDkg

def c6Keys : Keys Fr := ⟨num 17, num 18, num 19⟩

/-- The circuits of the decryption, next to those of the DKG. -/
def rest : ℕ → Circuit Fr Fr
  | 18 => c6FoldCircuit 1
  | 19 => c6FoldKernelCircuit 1
  | 30 => decryptionAggregatorCircuit hash committeeHash 2 1 messageCoeffsCount
  | _ => leafCircuit

def c6Leaf (i : ℕ) : List Fr := [700 + i, 800 + i, 5000, 3, 4, 900 + i].map num

def c6First : List Fr :=
  StepInputs.publicInputs ⟨num 17, num 18, num 19, true, 0⟩ ++ [3, 4].map num ++
    columns 4 [[700, 800, 5000, 900].map num, [0, 0, 0, 0]]

def c6Public : List Fr :=
  StepInputs.publicInputs ⟨num 17, num 18, num 19, false, 1⟩ ++ [3, 4].map num ++
    columns 4 ([[700, 800, 5000, 900], [701, 801, 5000, 901]].map fun row => row.map num)

def c7Public : List Fr := ([900, 901, 1, 2] ++ List.replicate 50 1).map num

lemma c6Leaf_accepted (hi : i < 2) : Accepted (circuit rest) 17 (c6Leaf i) := by
  have hne : ∀ i < 2, 0 ∉ c6Leaf i := by decide +kernel
  exact leaf rfl (hne i hi)

lemma c6Public_accepted : Accepted (circuit rest) 18 c6Public := by
  have hker : Accepted (circuit rest) 19 c6First := by
    refine .intro 19 [(17, c6Leaf 0)] _ ⟨c6Leaf 0, ⟨17, 18, 19, true, 0⟩, rfl, by decide +kernel⟩ ?_
    simpa using c6Leaf_accepted (i := 0) (by omega)
  have hfirst : Accepted (circuit rest) 18 c6First := by
    refine .intro 18 [(17, c6Leaf 0), (19, c6First)] _
      ⟨c6Leaf 0, c6First, ⟨17, 18, 19, true, 0⟩, rfl, rfl, by decide +kernel⟩ ?_
    simpa using ⟨c6Leaf_accepted (i := 0) (by omega), hker⟩
  refine .intro 18 [(17, c6Leaf 1), (18, c6First)] _
    ⟨c6Leaf 1, c6First, ⟨17, 18, 19, false, 1⟩, rfl, rfl, by decide +kernel⟩ ?_
  simpa using ⟨c6Leaf_accepted (i := 1) (by omega), hfirst⟩

def aggregatedShares : DecryptionInputs :=
  { c6FoldPublic := c6Public
    c6FoldVkHash := num 18
    c7Public
    c6FoldKeyHash := num 27
    c7KeyHash := num 20
    committeeMembers := [40, 41].map num
    committeeHashHi := num 40
    committeeHashLo := 0
    domainHi := num 3
    domainLo := num 4
    ciphertextCommitment := num 5000 }

def decryptionWords : List ℕ :=
  [27, 20, 40, 0, 3, 4, 5000, 0, 1, 2, 700, 701, 800, 801] ++ List.replicate 50 1

def dkgWords : List ℕ := [26, 15, 0, 1, 40, 0, 0, 700, 701, 800, 801, 999]

lemma decryptionWords_accepted : Accepted (circuit rest) 30 (fields decryptionWords) := by
  have hwords : fields decryptionWords =
      (aggregatedShares.arrays hash 1 messageCoeffsCount).flatten := by decide +kernel
  have hc7 : Accepted (circuit rest) 20 c7Public := leaf rfl (by decide +kernel)
  rw [hwords]
  refine .intro 30 [(18, c6Public), (20, c7Public)] _
    ⟨aggregatedShares, ⟨rfl, rfl, rfl⟩, if_pos (by decide +kernel)⟩ ?_
  simpa using ⟨c6Public_accepted, hc7⟩

def verifier : Verifier := ⟨1, 27, 20⟩

def env : Env Unit :=
  { circuitVerify := fun _ words => words = decryptionWords
    getDkgAnchors := fun _ => some (anchorsOf 2 dkgWords)
    keccak256 := fun _ => 77 }

def call : Call Unit :=
  { e3Id := 1
    decryptionDomain := 3 * 2 ^ 128 + 4
    plaintextOutputHash := 77
    committeeHash := 40 * 2 ^ 128
    ciphertextCommitment := 5000
    rawProof := ()
    publicInputs := decryptionWords }

lemma real : RealDecryption (circuit rest) hash committeeHash 2 1 c6Keys 20 30 verifier env where
  c6Fold := rfl
  c6Kernel := rfl
  aggregator := rfl
  binding _ := hash_binding (by decide +kernel)
  threshold := rfl
  c6Anchor := by decide +kernel
  c7Anchor := by decide +kernel
  sound _ words haccd := by
    rw [show words = decryptionWords by simpa [env] using haccd]
    exact decryptionWords_accepted

lemma recorded :
    RecordedDkg (circuit rest) hash committeeHash 2 2 1 SampleDkg.keys 16 env 1 dkgWords where
  aggregator := rfl
  accepted := by
    have hwords : fields dkgWords = (aggregated.arrays hash 2 2 1).flatten := by decide +kernel
    rw [hwords]
    exact aggregated_accepted
  anchor := by decide +kernel
  c5 := by decide +kernel
  recorded := rfl

end Sample

theorem decryption_by_anchored_parties_sample :
    ∃ ids node c5, ConsistentDkg (SampleDkg.circuit Sample.rest) SampleDkg.hash 2 2 1
      SampleDkg.keys (fields Sample.dkgWords) ids node c5 ∧
      ∃ steps c6Public c7Public leaf party row, OneDecryption (SampleDkg.circuit Sample.rest)
        Sample.c6Keys 20 2 2 1 1 Sample.env Sample.call ids node steps c6Public c7Public leaf party
        row :=
  decryption_by_anchored_parties _ SampleDkg.hash SampleDkg.committeeHash 2 2 1 1 (by omega)
    SampleDkg.keys SampleDkg.real Sample.c6Keys 20 16 30 Sample.verifier Sample.env Sample.real
    Sample.call Sample.dkgWords Sample.recorded (by decide +kernel) (by decide +kernel)

end Interfold.ThresholdDecryption
