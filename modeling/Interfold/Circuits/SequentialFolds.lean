import Mathlib.Data.ZMod.Basic
import Interfold.Library.Arrays
import Interfold.Library.Recursion

/-!
# Sequential proof folds

The circuits `c3_fold`, `c6_fold` and `nodes_fold` take one leaf proof per step into an accumulator.
A `main` returns the proofs that it verifies, each with its key hash, and its public inputs, which
are the public parameters followed by the returned arrays. The witness values are its arguments.
-/

namespace Interfold.Circuits

open Recursion Arrays List

/-- The order of the scalar field of BN254. -/
def fieldPrime : ℕ := 21888242871839275222246405745257275088548364400416034343698204186575808495617

abbrev Fr : Type := ZMod fieldPrime

/-- A verified proof: its key hash and its public inputs. -/
abbrev Verification : Type := Fr × List Fr

def entry (xs : List Fr) (i : ℕ) : Fr := xs.getD i 0

def predecessorKeyHash (innerKeyHash foldKeyHash kernelKeyHash : Fr) (isFirstStep : Bool)
    (priorKeys : List Fr) : Option Fr :=
  if priorKeys = [innerKeyHash, foldKeyHash, kernelKeyHash] then
    some (if isFirstStep then kernelKeyHash else foldKeyHash)
  else none

/-- The public parameters of a step. -/
structure StepInputs where
  innerKeyHash : Fr
  foldKeyHash : Fr
  kernelKeyHash : Fr
  isFirstStep : Bool
  slotIndex : ℕ

def StepInputs.keys (s : StepInputs) : Keys Fr :=
  ⟨s.innerKeyHash, s.foldKeyHash, s.kernelKeyHash⟩

def StepInputs.publicInputs (s : StepInputs) : List Fr :=
  [s.innerKeyHash, s.foldKeyHash, s.kernelKeyHash, if s.isFirstStep then 1 else 0, s.slotIndex]

@[simp]
lemma StepInputs.length_publicInputs (s : StepInputs) : s.publicInputs.length = 5 := rfl

/-- One turn of the loop over the slots. -/
def foldSlot (s : StepInputs) (new zero : List Fr) (prior : ℕ → List Fr) (i : ℕ) :
    Option (List Fr) :=
  if s.isFirstStep then
    if i = s.slotIndex then some new else some zero
  else if i = s.slotIndex then
    if prior i = zero then some new else none
  else some (prior i)

section

variable (slots : ℕ)

/-- What the folds have in common; `row` reads a slot of the accumulator. -/
def foldStep (zero : List Fr) (row : List Fr → ℕ → List Fr) (leaf new acc : List Fr)
    (s : StepInputs) : Option (List Verification × List (List Fr)) :=
  if s.slotIndex < slots then
    match predecessorKeyHash s.innerKeyHash s.foldKeyHash s.kernelKeyHash s.isFirstStep
        [entry acc 0, entry acc 1, entry acc 2] with
    | none => none
    | some accKeyHash =>
      match (range slots).mapM (foldSlot s new zero (row acc)) with
      | none => none
      | some out => some ([(s.innerKeyHash, leaf), (accKeyHash, acc)], out)
  else none

/-- What the kernels have in common: only the leaf is verified. -/
def kernelStep (zero leaf new : List Fr) (s : StepInputs) :
    Option (List Verification × List (List Fr)) :=
  if s.slotIndex < slots ∧ s.isFirstStep then
    some ([(s.innerKeyHash, leaf)],
      (range slots).map fun i => if i = s.slotIndex then new else zero)
  else none

/-- The rows as one array for each column. -/
def columns (width : ℕ) (out : List (List Fr)) : List Fr :=
  grid width out.length fun k i => entry (out.getD i []) k

/-! ### `c3_fold` -/

def c3FoldPublicLen : ℕ := 5 + 3 * slots

def c3Row (pub : List Fr) (i : ℕ) : List Fr :=
  [entry pub (5 + i), entry pub (5 + slots + i), entry pub (5 + slots + slots + i)]

def c3New (c3PublicInputs : List Fr) : List Fr :=
  [entry c3PublicInputs 0, entry c3PublicInputs 1, entry c3PublicInputs 2]

def c3Fold (c3PublicInputs accPublicInputs : List Fr) (s : StepInputs) :
    Option (List Verification × List Fr) :=
  match foldStep slots [0, 0, 0] (c3Row slots) c3PublicInputs (c3New c3PublicInputs)
      accPublicInputs s with
  | none => none
  | some (calls, out) => some (calls, s.publicInputs ++ columns 3 out)

def c3FoldKernel (c3PublicInputs : List Fr) (s : StepInputs) :
    Option (List Verification × List Fr) :=
  match kernelStep slots [0, 0, 0] c3PublicInputs (c3New c3PublicInputs) s with
  | none => none
  | some (calls, out) => some (calls, s.publicInputs ++ columns 3 out)

/-! ### `c6_fold`

The only fold with a check of its own: a later step has the domain of the accumulator. -/

def c6PublicLen : ℕ := 6

def c6FoldPublicLen (t : ℕ) : ℕ := 7 + 4 * (t + 1)

def c6Row (t : ℕ) (pub : List Fr) (i : ℕ) : List Fr :=
  [entry pub (7 + i), entry pub (7 + (t + 1) + i), entry pub (7 + 2 * (t + 1) + i),
    entry pub (7 + 3 * (t + 1) + i)]

def c6New (c6PublicInputs : List Fr) : List Fr :=
  [entry c6PublicInputs 0, entry c6PublicInputs 1, entry c6PublicInputs 2, entry c6PublicInputs 5]

def c6Domain (c6PublicInputs : List Fr) : List Fr :=
  [entry c6PublicInputs 3, entry c6PublicInputs 4]

def c6FoldDomain (pub : List Fr) : List Fr := [entry pub 5, entry pub 6]

def c6Fold (t : ℕ) (c6PublicInputs accPublicInputs : List Fr) (s : StepInputs) :
    Option (List Verification × List Fr) :=
  match foldStep (t + 1) [0, 0, 0, 0] (c6Row t) c6PublicInputs (c6New c6PublicInputs)
      accPublicInputs s with
  | none => none
  | some (calls, out) =>
    if s.isFirstStep ∨ c6FoldDomain accPublicInputs = c6Domain c6PublicInputs then
      some (calls, s.publicInputs ++ c6Domain c6PublicInputs ++ columns 4 out)
    else none

def c6FoldKernel (t : ℕ) (c6PublicInputs : List Fr) (s : StepInputs) :
    Option (List Verification × List Fr) :=
  match kernelStep (t + 1) [0, 0, 0, 0] c6PublicInputs (c6New c6PublicInputs) s with
  | none => none
  | some (calls, out) =>
    some (calls, s.publicInputs ++ c6Domain c6PublicInputs ++ columns 4 out)

/-! ### `nodes_fold` -/

def nodeFoldPublicLen (h n l : ℕ) : ℕ := 11 + n + 2 * (n + h) * l

def nodesFoldPublicLen (h n l : ℕ) : ℕ := 5 + h * nodeFoldPublicLen h n l

def nodesRow (h n l : ℕ) (pub : List Fr) (i : ℕ) : List Fr :=
  (range (nodeFoldPublicLen h n l)).map fun k =>
    entry pub (5 + i * nodeFoldPublicLen h n l + k)

def zeroRow (width : ℕ) : List Fr := replicate width 0

def nodesFold (h n l : ℕ) (nodeFoldPublicInputs accPublicInputs : List Fr) (s : StepInputs) :
    Option (List Verification × List Fr) :=
  match foldStep h (zeroRow (nodeFoldPublicLen h n l)) (nodesRow h n l) nodeFoldPublicInputs
      nodeFoldPublicInputs accPublicInputs s with
  | none => none
  | some (calls, out) =>
    some (calls, s.publicInputs ++
      grid h (nodeFoldPublicLen h n l) fun i k => entry (out.getD i []) k)

def nodesFoldKernel (h n l : ℕ) (nodeFoldPublicInputs : List Fr) (s : StepInputs) :
    Option (List Verification × List Fr) :=
  match kernelStep h (zeroRow (nodeFoldPublicLen h n l)) nodeFoldPublicInputs
      nodeFoldPublicInputs s with
  | none => none
  | some (calls, out) =>
    some (calls, s.publicInputs ++
      grid h (nodeFoldPublicLen h n l) fun i k => entry (out.getD i []) k)

/-! ### The circuits, for arrays of the declared lengths -/

def c3FoldCircuit : Circuit Fr Fr := fun calls pub =>
  ∃ c3 acc s, c3.length = 3 ∧ acc.length = c3FoldPublicLen slots ∧
    c3Fold slots c3 acc s = some (calls, pub)

def c3FoldKernelCircuit : Circuit Fr Fr := fun calls pub =>
  ∃ c3 s, c3.length = 3 ∧ c3FoldKernel slots c3 s = some (calls, pub)

def c6FoldCircuit (t : ℕ) : Circuit Fr Fr := fun calls pub =>
  ∃ c6 acc s, c6.length = c6PublicLen ∧ acc.length = c6FoldPublicLen t ∧
    c6Fold t c6 acc s = some (calls, pub)

def c6FoldKernelCircuit (t : ℕ) : Circuit Fr Fr := fun calls pub =>
  ∃ c6 s, c6.length = c6PublicLen ∧ c6FoldKernel t c6 s = some (calls, pub)

def nodesFoldCircuit (h n l : ℕ) : Circuit Fr Fr := fun calls pub =>
  ∃ node acc s, node.length = nodeFoldPublicLen h n l ∧ acc.length = nodesFoldPublicLen h n l ∧
    nodesFold h n l node acc s = some (calls, pub)

def nodesFoldKernelCircuit (h n l : ℕ) : Circuit Fr Fr := fun calls pub =>
  ∃ node s, node.length = nodeFoldPublicLen h n l ∧ nodesFoldKernel h n l node s = some (calls, pub)

/-! ### Reading the public inputs -/

def keysOf (pub : List Fr) : Keys Fr := ⟨entry pub 0, entry pub 1, entry pub 2⟩

def c3Reading : Reading Fr Fr (List Fr) (List Fr) where
  slots
  zero := [0, 0, 0]
  keys := keysOf
  row := c3Row slots
  domain _ := []
  leafRow := c3New
  leafDomain _ := []
  leafLength := 3
  foldLength := c3FoldPublicLen slots

end

def c6Reading (t : ℕ) : Reading Fr Fr (List Fr) (List Fr) where
  slots := t + 1
  zero := [0, 0, 0, 0]
  keys := keysOf
  row := c6Row t
  domain := c6FoldDomain
  leafRow := c6New
  leafDomain := c6Domain
  leafLength := c6PublicLen
  foldLength := c6FoldPublicLen t

def nodesReading (h n l : ℕ) : Reading Fr Fr (List Fr) (List Fr) where
  slots := h
  zero := zeroRow (nodeFoldPublicLen h n l)
  keys := keysOf
  row := nodesRow h n l
  domain _ := []
  leafRow node := node
  leafDomain _ := []
  leafLength := nodeFoldPublicLen h n l
  foldLength := nodesFoldPublicLen h n l

/-! ### One step -/

/-- The row of a slot after a step. -/
def written (s : StepInputs) (new zero : List Fr) (prior : ℕ → List Fr) (i : ℕ) : List Fr :=
  if i = s.slotIndex then new else if s.isFirstStep then zero else prior i

variable {s : StepInputs} {new zero acc : List Fr} {prior : ℕ → List Fr} {i slots width : ℕ}
  {circuit : Fr → Circuit Fr Fr} {keys : Keys Fr}

lemma foldSlot_eq_written :
    ∀ i row, foldSlot s new zero prior i = some row → row = written s new zero prior i := by
  intro i row h
  unfold foldSlot at h
  unfold written
  grind

lemma foldSlot_written : foldSlot s new zero prior i = some (written s new zero prior i) ↔
      (s.isFirstStep = false → i = s.slotIndex → prior i = zero) := by
  unfold foldSlot written
  grind

lemma predecessorKeyHash_eq_some :
    predecessorKeyHash s.innerKeyHash s.foldKeyHash s.kernelKeyHash s.isFirstStep
        [entry acc 0, entry acc 1, entry acc 2] = some key ↔
      keysOf acc = s.keys ∧ key = s.keys.predecessor s.isFirstStep := by
  unfold predecessorKeyHash keysOf StepInputs.keys Keys.predecessor
  grind

lemma foldStep_eq_some : foldStep slots zero row leaf new acc s = some (calls, out) ↔
      s.slotIndex < slots ∧ keysOf acc = s.keys ∧
        (s.isFirstStep = false → row acc s.slotIndex = zero) ∧
        calls = [(s.keys.inner, leaf), (s.keys.predecessor s.isFirstStep, acc)] ∧
        out = (range slots).map (written s new zero (row acc)) := by
  unfold foldStep
  by_cases hslot : s.slotIndex < slots
  swap
  · simp [hslot]
  rw [if_pos hslot]
  constructor
  · intro h
    split at h
    · cases h
    rename_i key hkey
    split at h
    · cases h
    rename_i out' hout
    obtain ⟨hkeys, rfl⟩ := predecessorKeyHash_eq_some.1 hkey
    obtain ⟨hall, rfl⟩ := (mapM_eq_some foldSlot_eq_written).1 hout
    obtain ⟨rfl, rfl⟩ := Prod.mk.inj (Option.some.inj h)
    have hprior := foldSlot_written.1 (hall s.slotIndex (mem_range.2 hslot))
    exact ⟨hslot, hkeys, fun hlater => hprior hlater rfl, rfl, rfl⟩
  · rintro ⟨-, hkeys, hprior, rfl, rfl⟩
    have hall : ∀ i ∈ range slots, foldSlot s new zero (row acc) i =
        some (written s new zero (row acc) i) := by
      intro i _
      refine foldSlot_written.2 ?_
      rintro hlater rfl
      exact hprior hlater
    rw [predecessorKeyHash_eq_some.2 ⟨hkeys, rfl⟩, (mapM_eq_some foldSlot_eq_written).2 ⟨hall, rfl⟩]
    rfl

/-! ### From a circuit to a fold -/

/-- How a fold lays out its public inputs. -/
structure Encodes (R : Reading Fr Fr (List Fr) (List Fr))
    (encode : StepInputs → List Fr → List (List Fr) → List Fr) : Prop where
  keys_eq : R.keys = keysOf
  keys : ∀ s leaf out, keysOf (encode s leaf out) = s.keys
  domain : ∀ s leaf out, R.domain (encode s leaf out) = R.leafDomain leaf
  length : ∀ s leaf out, out.length = R.slots → (encode s leaf out).length = R.foldLength
  rows : ∀ s leaf acc, leaf.length = R.leafLength → ∀ i < R.slots,
    R.row (encode s leaf ((range R.slots).map (written s (R.leafRow leaf) R.zero (R.row acc)))) i =
      written s (R.leafRow leaf) R.zero (R.row acc) i

section

variable {R : Reading Fr Fr (List Fr) (List Fr)}
  {encode : StepInputs → List Fr → List (List Fr) → List Fr}

lemma Encodes.writes (h : Encodes R encode) {s : StepInputs} {leaf acc : List Fr}
    (hslot : s.slotIndex < R.slots) (hleaf : leaf.length = R.leafLength)
    (hkeys : keysOf acc = s.keys) (hprior : s.isFirstStep = false →
      R.domain acc = R.leafDomain leaf ∧ R.row acc s.slotIndex = R.zero) :
    Writes R s.isFirstStep s.slotIndex leaf acc (encode s leaf
      ((range R.slots).map (written s (R.leafRow leaf) R.zero (R.row acc)))) where
  slot_lt := hslot
  keys := by rw [h.keys_eq, h.keys, hkeys]
  domain := h.domain ..
  prior := hprior
  rows i hi := by rw [h.rows s leaf acc hleaf i hi]; rfl

/-- The circuits do a step of `R` and publish it as `encode` says. -/
structure Implements (R : Reading Fr Fr (List Fr) (List Fr))
    (encode : StepInputs → List Fr → List (List Fr) → List Fr) (fold kernel : Circuit Fr Fr) :
    Prop where
  fold : ∀ calls pub, fold calls pub ↔ ∃ leaf acc s out, leaf.length = R.leafLength ∧
    acc.length = R.foldLength ∧
    foldStep R.slots R.zero R.row leaf (R.leafRow leaf) acc s = some (calls, out) ∧
    (s.isFirstStep = false → R.domain acc = R.leafDomain leaf) ∧ pub = encode s leaf out
  kernel : ∀ leaf s, leaf.length = R.leafLength → s.slotIndex < R.slots → s.isFirstStep →
    ∃ out, out.length = R.slots ∧ kernel [(s.innerKeyHash, leaf)] (encode s leaf out)

lemma Encodes.sequentialFold (h : Encodes R encode)
    (himpl : Implements R encode (circuit keys.fold) (circuit keys.kernel)) :
    SequentialFold circuit R keys where
  sound calls pub hholds := by
    obtain ⟨leaf, acc, s, out, hleaf, _, hstep, hdom, rfl⟩ := (himpl.fold calls pub).1 hholds
    obtain ⟨hslot, hkeys, hprior, rfl, rfl⟩ := foldStep_eq_some.1 hstep
    refine ⟨s.isFirstStep, s.slotIndex, leaf, acc, ?_, ?_⟩
    · rw [h.keys_eq, h.keys]
    · exact h.writes hslot hleaf hkeys fun hlater => ⟨hdom hlater, hprior hlater⟩
  complete first slot leaf acc hslot hleaf hacc hkeys hprior := by
    let s : StepInputs := ⟨keys.inner, keys.fold, keys.kernel, first, slot⟩
    rw [h.keys_eq] at hkeys
    refine ⟨_, (himpl.fold _ _).2 ⟨leaf, acc, s, _, hleaf, hacc, foldStep_eq_some.2
      ⟨hslot, hkeys, fun hlater => (hprior hlater).2, rfl, rfl⟩, fun hlater => (hprior hlater).1,
      rfl⟩, ?_, ?_, ?_⟩
    · exact h.length _ _ _ (by simp)
    · rw [h.keys_eq, h.keys]
      rfl
    · exact @Encodes.writes _ _ h s leaf acc hslot hleaf hkeys hprior
  genesis slot leaf hslot hleaf := by
    let s : StepInputs := ⟨keys.inner, keys.fold, keys.kernel, true, slot⟩
    obtain ⟨out, hout, hker⟩ := himpl.kernel leaf s hleaf hslot rfl
    refine ⟨_, hker, h.length _ _ _ hout, ?_⟩
    rw [h.keys_eq, h.keys]
    rfl

end

/-! ### The three layouts -/

lemma length_written (hnew : new.length = width) (hzero : zero.length = width)
    (hprior : ∀ i, (prior i).length = width) (i : ℕ) :
    (written s new zero prior i).length = width := by
  unfold written
  grind

lemma map_entry_range (hrow : row.length = width) : (range width).map (entry row) = row :=
  map_getD_range row 0 hrow

/-- An element of a column, behind a known number of public inputs. -/
lemma entry_columns (row : ℕ → List Fr) (hk : k < width) (hi : i < slots) :
    entry (first ++ columns width ((range slots).map row)) (first.length + (k * slots + i)) =
      entry (row i) k := by
  unfold entry columns
  rw [getD_append_add, length_map, length_range, getD_grid _ _ hk hi, getD_map_range _ _ hi]
  rfl

lemma c3_encodes (slots : ℕ) :
    Encodes (c3Reading slots) fun s _ out => s.publicInputs ++ columns 3 out where
  keys_eq := rfl
  keys _ _ _ := rfl
  domain _ _ _ := rfl
  length s _ out hout := by
    have hslots : out.length = slots := hout
    simp [columns, c3Reading, c3FoldPublicLen, hslots]
  rows s leaf acc hleaf i hi := by
    let row := written s (c3New leaf) [0, 0, 0] (c3Row slots acc)
    have hlen : (row i).length = 3 := by
      apply length_written <;> simp [c3New, c3Row]
    have hcell : ∀ k < 3, entry (s.publicInputs ++ columns 3 ((range slots).map row))
        (5 + (k * slots + i)) = entry (row i) k := fun k hk => entry_columns row hk hi
    calc c3Row slots (s.publicInputs ++ columns 3 ((range slots).map row)) i
        = [entry (row i) 0, entry (row i) 1, entry (row i) 2] := by
          rw [← hcell 0 (by omega), ← hcell 1 (by omega), ← hcell 2 (by omega)]
          simp only [c3Row, Nat.zero_mul, Nat.zero_add, Nat.one_mul, Nat.two_mul, Nat.add_assoc]
      _ = row i := map_entry_range hlen

lemma c6_encodes (t : ℕ) :
    Encodes (c6Reading t) fun s leaf out => s.publicInputs ++ c6Domain leaf ++ columns 4 out where
  keys_eq := rfl
  keys _ _ _ := rfl
  domain _ _ _ := rfl
  length s leaf out hout := by
    have hslots : out.length = t + 1 := hout
    simp only [columns, c6Reading, c6Domain, c6FoldPublicLen, hslots, length_append,
      StepInputs.length_publicInputs, length_cons, length_nil, length_grid]
  rows s leaf acc hleaf i hi := by
    let row := written s (c6New leaf) [0, 0, 0, 0] (c6Row t acc)
    have hlen : (row i).length = 4 := by
      apply length_written <;> simp [c6New, c6Row]
    have hcell : ∀ k < 4, entry (s.publicInputs ++ c6Domain leaf ++
        columns 4 ((range (t + 1)).map row)) (7 + (k * (t + 1) + i)) = entry (row i) k :=
      fun k hk => entry_columns row hk hi
    calc c6Row t (s.publicInputs ++ c6Domain leaf ++ columns 4 ((range (t + 1)).map row)) i
        = [entry (row i) 0, entry (row i) 1, entry (row i) 2, entry (row i) 3] := by
          rw [← hcell 0 (by omega), ← hcell 1 (by omega), ← hcell 2 (by omega),
            ← hcell 3 (by omega)]
          simp only [c6Row, Nat.zero_mul, Nat.zero_add, Nat.one_mul, Nat.add_assoc]
      _ = row i := map_entry_range hlen

lemma nodes_encodes (h n l : ℕ) : Encodes (nodesReading h n l) fun s _ out => s.publicInputs ++
      grid h (nodeFoldPublicLen h n l) fun i k => entry (out.getD i []) k where
  keys_eq := rfl
  keys _ _ _ := rfl
  domain _ _ _ := rfl
  length s _ out hout := by
    simp [nodesReading, nodesFoldPublicLen]
  rows s leaf acc hleaf i hi := by
    let row := written s leaf (zeroRow (nodeFoldPublicLen h n l)) (nodesRow h n l acc)
    have hwidth : leaf.length = nodeFoldPublicLen h n l := hleaf
    have hlen : (row i).length = nodeFoldPublicLen h n l :=
      length_written hwidth (by simp [zeroRow]) (by simp [nodesRow]) i
    have hi' : i < h := hi
    calc nodesRow h n l (s.publicInputs ++ grid h (nodeFoldPublicLen h n l) fun i k =>
          entry (((range h).map row).getD i []) k) i
        = (range (nodeFoldPublicLen h n l)).map (entry (row i)) := by
          unfold nodesRow
          refine map_congr_left fun k hk => ?_
          rw [Nat.add_assoc]
          unfold entry
          rw [show 5 = s.publicInputs.length from rfl, getD_append_add,
            getD_grid _ _ hi' (mem_range.1 hk), getD_map_range _ _ hi']
      _ = row i := map_entry_range hlen

/-! ### The three circuits -/

lemma c3_implements (slots : ℕ) :
    Implements (c3Reading slots) (fun s _ out => s.publicInputs ++ columns 3 out)
      (c3FoldCircuit slots) (c3FoldKernelCircuit slots) where
  fold calls pub := by
    constructor
    · rintro ⟨leaf, acc, s, hleaf, hacc, hfold⟩
      unfold c3Fold at hfold
      split at hfold
      · cases hfold
      rename_i calls' out hstep
      obtain ⟨rfl, rfl⟩ := Prod.mk.inj (Option.some.inj hfold)
      exact ⟨leaf, acc, s, out, hleaf, hacc, hstep, fun _ => rfl, rfl⟩
    · rintro ⟨leaf, acc, s, out, hleaf, hacc, hstep, -, rfl⟩
      refine ⟨leaf, acc, s, hleaf, hacc, ?_⟩
      unfold c3Fold
      rw [show foldStep slots [0, 0, 0] (c3Row slots) leaf (c3New leaf) acc s = _ from hstep]
  kernel leaf s hleaf hslot hfirst := by
    refine ⟨(range slots).map fun i => if i = s.slotIndex then c3New leaf else [0, 0, 0],
      by simp [c3Reading], leaf, s, hleaf, ?_⟩
    unfold c3FoldKernel kernelStep
    rw [if_pos ⟨hslot, hfirst⟩]

lemma c6_implements (t : ℕ) :
    Implements (c6Reading t) (fun s leaf out => s.publicInputs ++ c6Domain leaf ++ columns 4 out)
      (c6FoldCircuit t) (c6FoldKernelCircuit t) where
  fold calls pub := by
    constructor
    · rintro ⟨leaf, acc, s, hleaf, hacc, hfold⟩
      unfold c6Fold at hfold
      split at hfold
      · cases hfold
      rename_i calls' out hstep
      split at hfold
      swap
      · cases hfold
      rename_i hdom
      obtain ⟨rfl, rfl⟩ := Prod.mk.inj (Option.some.inj hfold)
      exact ⟨leaf, acc, s, out, hleaf, hacc, hstep,
        fun hlater => hdom.resolve_left (by simp [hlater]), rfl⟩
    · rintro ⟨leaf, acc, s, out, hleaf, hacc, hstep, hdom, rfl⟩
      refine ⟨leaf, acc, s, hleaf, hacc, ?_⟩
      have hcheck : s.isFirstStep ∨ c6FoldDomain acc = c6Domain leaf := by
        cases hfirst : s.isFirstStep with
        | true => exact .inl rfl
        | false => exact .inr (hdom hfirst)
      unfold c6Fold
      rw [show foldStep (t + 1) [0, 0, 0, 0] (c6Row t) leaf (c6New leaf) acc s = _ from hstep]
      exact if_pos hcheck
  kernel leaf s hleaf hslot hfirst := by
    refine ⟨(range (t + 1)).map fun i => if i = s.slotIndex then c6New leaf else [0, 0, 0, 0],
      by simp [c6Reading], leaf, s, hleaf, ?_⟩
    unfold c6FoldKernel kernelStep
    rw [if_pos ⟨hslot, hfirst⟩]

lemma nodes_implements (h n l : ℕ) :
    Implements (nodesReading h n l) (fun s _ out => s.publicInputs ++
      grid h (nodeFoldPublicLen h n l) fun i k => entry (out.getD i []) k)
      (nodesFoldCircuit h n l) (nodesFoldKernelCircuit h n l) where
  fold calls pub := by
    constructor
    · rintro ⟨leaf, acc, s, hleaf, hacc, hfold⟩
      unfold nodesFold at hfold
      split at hfold
      · cases hfold
      rename_i calls' out hstep
      obtain ⟨rfl, rfl⟩ := Prod.mk.inj (Option.some.inj hfold)
      exact ⟨leaf, acc, s, out, hleaf, hacc, hstep, fun _ => rfl, rfl⟩
    · rintro ⟨leaf, acc, s, out, hleaf, hacc, hstep, -, rfl⟩
      refine ⟨leaf, acc, s, hleaf, hacc, ?_⟩
      unfold nodesFold
      rw [show foldStep h (zeroRow (nodeFoldPublicLen h n l)) (nodesRow h n l) leaf leaf acc s = _
        from hstep]
  kernel leaf s hleaf hslot hfirst := by
    refine ⟨(range h).map fun i =>
        if i = s.slotIndex then leaf else zeroRow (nodeFoldPublicLen h n l),
      by simp [nodesReading], leaf, s, hleaf, ?_⟩
    unfold nodesFoldKernel kernelStep
    rw [if_pos ⟨hslot, hfirst⟩]

lemma c3_sequentialFold (hfold : circuit keys.fold = c3FoldCircuit slots)
    (hker : circuit keys.kernel = c3FoldKernelCircuit slots) :
    SequentialFold circuit (c3Reading slots) keys :=
  (c3_encodes slots).sequentialFold (by rw [hfold, hker]; exact c3_implements slots)

lemma c6_sequentialFold (hfold : circuit keys.fold = c6FoldCircuit t)
    (hker : circuit keys.kernel = c6FoldKernelCircuit t) :
    SequentialFold circuit (c6Reading t) keys :=
  (c6_encodes t).sequentialFold (by rw [hfold, hker]; exact c6_implements t)

lemma nodes_sequentialFold (hfold : circuit keys.fold = nodesFoldCircuit h n l)
    (hker : circuit keys.kernel = nodesFoldKernelCircuit h n l) :
    SequentialFold circuit (nodesReading h n l) keys :=
  (nodes_encodes h n l).sequentialFold (by rw [hfold, hker]; exact nodes_implements h n l)

/-! ### Soundness of the folds -/

/-- What an accepted fold proof shows, and which fold proofs can be made. -/
structure SoundFold (circuit : Fr → Circuit Fr Fr) (R : Reading Fr Fr (List Fr) (List Fr))
    (keys : Keys Fr) : Prop where
  /-- Every row is zero or was read from an accepted leaf at its slot, the last slot is of the
  latter kind, no step replaces a row, and all leaves have the published domain. The chain has all
  of its proofs accepted under `keys`, and every one of them publishes `keys`. -/
  sound : ∀ pub, Accepted circuit keys.fold pub → R.keys pub = keys → ∃ steps,
    Chain circuit R keys steps pub ∧
    (∀ i < R.slots, R.row pub i = R.zero ∨ ∃ leaf, (i, leaf) ∈ steps ∧
      Accepted circuit keys.inner leaf ∧ R.row pub i = R.leafRow leaf) ∧
    (∃ before slot leaf, steps = before ++ [(slot, leaf)] ∧ slot < R.slots ∧
      R.row pub slot = R.leafRow leaf) ∧
    (∀ before after, steps = before ++ after → before ≠ [] → ∃ acc,
      Chain circuit R keys before acc ∧
        ∀ i < R.slots, R.row acc i ≠ R.zero → R.row pub i = R.row acc i) ∧
    ∀ step ∈ steps, R.leafDomain step.2 = R.domain pub
  /-- Leaves for different slots can be folded in every order. -/
  complete : ∀ steps, steps ≠ [] → Foldable circuit R keys steps →
    ∃ pub, Folded circuit R keys steps pub

lemma SoundFold.of_sequentialFold (hfold : SequentialFold circuit R keys) :
    SoundFold circuit R keys where
  sound pub haccd hkeys := by
    obtain ⟨steps, hchain⟩ := hfold.chain haccd hkeys
    exact ⟨steps, hchain, fun i hi => hchain.row hi, hchain.last, hchain.keeps, hchain.domain⟩
  complete steps hne hfoldab := hfold.folded hne hfoldab

theorem sequential_folds_sound (circuit : Fr → Circuit Fr Fr) (keys : Keys Fr) :
    (∀ slots, circuit keys.fold = c3FoldCircuit slots →
      circuit keys.kernel = c3FoldKernelCircuit slots →
      SoundFold circuit (c3Reading slots) keys) ∧
    (∀ t, circuit keys.fold = c6FoldCircuit t → circuit keys.kernel = c6FoldKernelCircuit t →
      SoundFold circuit (c6Reading t) keys) ∧
    (∀ h n l, circuit keys.fold = nodesFoldCircuit h n l →
      circuit keys.kernel = nodesFoldKernelCircuit h n l →
      SoundFold circuit (nodesReading h n l) keys) := by
  refine ⟨?_, ?_, ?_⟩
  · intro slots hfold hkernel
    exact .of_sequentialFold (c3_sequentialFold hfold hkernel)
  · intro t hfold hkernel
    exact .of_sequentialFold (c6_sequentialFold hfold hkernel)
  · intro h n l hfold hkernel
    exact .of_sequentialFold (nodes_sequentialFold hfold hkernel)

variable (fold kernel : Circuit Fr Fr)

/-- A leaf circuit that accepts everything, with a fold and its kernel. -/
def sampleCircuit (key : Fr) : Circuit Fr Fr :=
  if key = 1 then fun calls _ => calls = [] else if key = 2 then fold else kernel

def sampleKeys : Keys Fr := ⟨1, 2, 3⟩

lemma sampleCircuit_leaf (pub : List Fr) :
    Accepted (sampleCircuit fold kernel) sampleKeys.inner pub :=
  .intro _ [] _ (by simp [sampleCircuit, sampleKeys]) (by simp)

lemma sampleCircuit_fold : sampleCircuit fold kernel sampleKeys.fold = fold := by
  have hkey : (2 : Fr) ≠ 1 := by decide
  simp [sampleCircuit, sampleKeys, hkey]

lemma sampleCircuit_kernel : sampleCircuit fold kernel sampleKeys.kernel = kernel := by
  have hkey : (3 : Fr) ≠ 1 := by decide
  have hkey' : (3 : Fr) ≠ 2 := by decide
  simp [sampleCircuit, sampleKeys, hkey, hkey']

/-- Two decryption shares of one domain, folded into the second slot and then into the first. -/
theorem sequential_folds_sound_sample :
    ∃ pub, Accepted (sampleCircuit (c6FoldCircuit 2) (c6FoldKernelCircuit 2)) sampleKeys.fold pub ∧
      c6Row 2 pub 1 = [11, 12, 13, 14] ∧ c6Row 2 pub 0 = [21, 22, 23, 24] ∧
      c6Row 2 pub 2 = [0, 0, 0, 0] ∧ c6FoldDomain pub = [5, 6] := by
  have hsound := (sequential_folds_sound
    (sampleCircuit (c6FoldCircuit 2) (c6FoldKernelCircuit 2)) sampleKeys).2.1 2
    (sampleCircuit_fold _ _) (sampleCircuit_kernel _ _)
  obtain ⟨pub, hpub⟩ := hsound.complete
    [(1, [11, 12, 13, 5, 6, 14]), (0, [21, 22, 23, 5, 6, 24])] (by simp)
    { accepted := fun _ _ => sampleCircuit_leaf _ _ _
      length := by decide
      slot_lt := by decide
      distinct := by decide
      domain := by decide }
  exact ⟨pub, hpub.accepted, hpub.rows (1, [11, 12, 13, 5, 6, 14]) (by simp),
    hpub.rows (0, [21, 22, 23, 5, 6, 24]) (by simp), hpub.zero 2 (by decide) (by decide),
    hpub.domain (1, [11, 12, 13, 5, 6, 14]) (by simp)⟩

end Interfold.Circuits
