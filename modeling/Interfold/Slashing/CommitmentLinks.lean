import Interfold.Contracts.Basic
import Mathlib.Data.List.Range

/-!
# Links between proofs

A party proves every step of the protocol with a proof of its own, and the proofs repeat commitments
of each other. A link says which field of a source proof has to appear where in a target proof. The
public signals of a proof are fields of 32 bytes, the inputs of its circuit before the outputs.

Party numbers index the committee, so the products of the source do not overflow.
-/

namespace Interfold.Links

open List

abbrev Bytes := List UInt8

inductive ProofType where
  | c0PkBfv
  | c1PkGeneration
  | c2aSkShareComputation
  | c2bESmShareComputation
  | c3aSkShareEncryption
  | c3bESmShareEncryption
  | c4aSkShareDecryption
  | c4bESmShareDecryption
  | c5PkAggregation
  | c6ThresholdShareDecryption
  | c7DecryptedSharesAggregation
deriving DecidableEq

/-- `proof_type as u8`. -/
def ProofType.code : ProofType → ℕ
  | c0PkBfv => 0
  | c1PkGeneration => 1
  | c2aSkShareComputation => 2
  | c2bESmShareComputation => 3
  | c3aSkShareEncryption => 4
  | c3bESmShareEncryption => 5
  | c4aSkShareDecryption => 6
  | c4bESmShareDecryption => 7
  | c5PkAggregation => 8
  | c6ThresholdShareDecryption => 9
  | c7DecryptedSharesAggregation => 10

def fieldByteLen : ℕ := 32

def maxMsgNonZeroCoeffs : ℕ := 50

section

variable (signals : Bytes)

/-- `&signals[start..start + len]`. -/
def slice (start len : ℕ) : Bytes := (signals.drop start).take len

/-- The pieces of `n` bytes, the last of which may be shorter. -/
def chunks (n : ℕ) (bytes : Bytes) : List Bytes :=
  (range ((bytes.length + n - 1) / n)).map fun i => slice bytes (i * n) n

/-! ## Layouts -/

inductive CircuitName where
  | pkBfv
  | pkGeneration
  | skShareComputation
  | eSmShareComputation
  | shareEncryption
  | dkgShareDecryption
  | pkAggregation
  | thresholdShareDecryption
  | decryptedSharesAggregation
deriving DecidableEq

inductive CircuitOutputLayout where
  | fixed (fields : List String)
  | none
  | dynamic

inductive CircuitInputLayout where
  | fixed (fields : List String)
  | none

def CircuitName.outputLayout : CircuitName → CircuitOutputLayout
  | pkBfv => .fixed ["pk_commitment"]
  | pkGeneration => .fixed ["sk_commitment", "pk_commitment", "e_sm_commitment"]
  | skShareComputation | eSmShareComputation => .dynamic
  | shareEncryption => .fixed ["ct_commitment"]
  | dkgShareDecryption => .fixed ["commitment"]
  | pkAggregation => .fixed ["commitment"]
  | thresholdShareDecryption => .fixed ["d_commitment"]
  | decryptedSharesAggregation => .none

def CircuitName.inputLayout : CircuitName → CircuitInputLayout
  | shareEncryption => .fixed ["expected_pk_commitment", "expected_message_commitment"]
  | thresholdShareDecryption =>
    .fixed ["expected_sk_commitment", "expected_e_sm_commitment", "ct_commitment", "domain_hi",
      "domain_lo"]
  | _ => .none

def CircuitOutputLayout.fieldCount : CircuitOutputLayout → Option ℕ
  | fixed fields => some fields.length
  | none => some 0
  | dynamic => Option.none

/-- Outputs are counted from the end. -/
def CircuitOutputLayout.extractField (layout : CircuitOutputLayout) (signals : Bytes)
    (name : String) : Option Bytes :=
  match layout with
  | fixed fields =>
    match fields.idxOf? name with
    | Option.none => Option.none
    | some idx =>
      let total := fields.length * fieldByteLen
      if signals.length < total then Option.none
      else some (slice signals (signals.length - total + idx * fieldByteLen) fieldByteLen)
  | _ => Option.none

/-- Inputs are counted from the start. -/
def CircuitInputLayout.extractField (layout : CircuitInputLayout) (signals : Bytes)
    (name : String) : Option Bytes :=
  match layout with
  | fixed fields =>
    match fields.idxOf? name with
    | Option.none => Option.none
    | some idx =>
      let offset := idx * fieldByteLen
      if signals.length < offset + fieldByteLen then Option.none
      else some (slice signals offset fieldByteLen)
  | none => Option.none

/-! ## Links -/

inductive LinkScope where
  | sameParty
  | crossParty
  | sourceMustExistInTargets
deriving DecidableEq

/-- A link. The two numbers that a check gets are the row of the source and the target's party. -/
structure CommitmentLink where
  name : String
  sourceProofType : ProofType
  targetProofType : ProofType
  scope : LinkScope
  extractSourceValues : Bytes → List Bytes
  checkConsistency : List Bytes → Bytes → ℕ → ℕ → Bool

/-- The field of a source proof, if its signals are long enough. -/
def single (field : Option Bytes) : List Bytes :=
  match field with
  | none => []
  | some value => [value]

def extractExpectedPkCommitment : List Bytes :=
  single (CircuitName.shareEncryption.inputLayout.extractField signals "expected_pk_commitment")

def checkPkExistsInC0 (values : List Bytes) (target : Bytes) : Bool :=
  match values with
  | [] => false
  | value :: _ =>
    match CircuitName.pkBfv.outputLayout.extractField target "pk_commitment" with
    | none => false
    | some bytes => bytes = value

def c3ToC0 (name : String) (source : ProofType) : CommitmentLink where
  name
  sourceProofType := source
  targetProofType := .c0PkBfv
  scope := .sourceMustExistInTargets
  extractSourceValues := extractExpectedPkCommitment
  checkConsistency values target _ _ := checkPkExistsInC0 values target

def c3aToC0PkCommitmentLink : CommitmentLink :=
  c3ToC0 "C3a->C0 pk_commitment" .c3aSkShareEncryption

def c3bToC0PkCommitmentLink : CommitmentLink :=
  c3ToC0 "C3b->C0 pk_commitment" .c3bESmShareEncryption

/-- The secret of a share computation is the one of the key generation. -/
def c1ToC2 (name : String) (target : ProofType) (field : String) : CommitmentLink where
  name
  sourceProofType := .c1PkGeneration
  targetProofType := target
  scope := .sameParty
  extractSourceValues signals :=
    single (CircuitName.pkGeneration.outputLayout.extractField signals field)
  checkConsistency values target _ _ :=
    match values with
    | [] => false
    | value :: _ =>
      if target.length < fieldByteLen then false else slice target 0 fieldByteLen = value

def c1ToC2aSkCommitmentLink : CommitmentLink :=
  c1ToC2 "C1->C2a sk_commitment" .c2aSkShareComputation "sk_commitment"

def c1ToC2bESmCommitmentLink : CommitmentLink :=
  c1ToC2 "C1->C2b e_sm_commitment" .c2bESmShareComputation "e_sm_commitment"

/-- Whether one of the first `count` fields has this value. -/
def listed (value target : Bytes) (count : ℕ) : Bool :=
  (range count).any fun i => slice target (i * fieldByteLen) fieldByteLen = value

def c1ToC5PkCommitmentLink : CommitmentLink where
  name := "C1->C5 pk_commitment"
  sourceProofType := .c1PkGeneration
  targetProofType := .c5PkAggregation
  scope := .crossParty
  extractSourceValues signals :=
    single (CircuitName.pkGeneration.outputLayout.extractField signals "pk_commitment")
  checkConsistency values target _ _ :=
    match values with
    | [] => false
    | value :: _ =>
      let outputCount := CircuitName.pkAggregation.outputLayout.fieldCount.getD 1
      let totalFields := target.length / fieldByteLen
      if totalFields ≤ outputCount then false
      else listed value target (totalFields - outputCount)

def extractMessageCommitment : List Bytes :=
  single
    (CircuitName.shareEncryption.inputLayout.extractField signals "expected_message_commitment")

/-- The first half of signals that repeat it. -/
def deduplicate : Bytes :=
  if 2 * fieldByteLen ≤ signals.length ∧ signals.length % (2 * fieldByteLen) = 0 then
    let half := signals.length / 2
    if signals.take half = signals.drop half then signals.take half else signals
  else signals

def commitmentInC2Outputs (values : List Bytes) (target : Bytes) : Bool :=
  match values with
  | [] => false
  | value :: _ =>
    let signals := deduplicate target
    if signals.length < 2 * fieldByteLen then false
    else (chunks fieldByteLen (signals.drop fieldByteLen)).any (· = value)

def c3ToC2 (name : String) (source target : ProofType) : CommitmentLink where
  name
  sourceProofType := source
  targetProofType := target
  scope := .sameParty
  extractSourceValues := extractMessageCommitment
  checkConsistency values target _ _ := commitmentInC2Outputs values target

def c3aToC2aShareEncryptionLink : CommitmentLink :=
  c3ToC2 "C3a->C2a expected_message_commitment" .c3aSkShareEncryption .c2aSkShareComputation

def c3bToC2bShareEncryptionLink : CommitmentLink :=
  c3ToC2 "C3b->C2b expected_message_commitment" .c3bESmShareEncryption .c2bESmShareComputation

def extractShareCommitments : List Bytes :=
  if signals.length < 2 * fieldByteLen then []
  else (chunks fieldByteLen (signals.drop fieldByteLen)).filter (·.length = fieldByteLen)

/-- `check_exact_l_commitments`: the `l` commitments of the source for the target's party stand in
the target's row for the source. -/
def checkExactLCommitments (l : ℕ) (values : List Bytes) (target : Bytes) (srcRow tgtParty : ℕ) :
    Bool :=
  if values.isEmpty || l = 0 then false
  else
    let c2Start := tgtParty * l
    if values.length < c2Start + l then false
    else
      let c4RowStart := srcRow * l * fieldByteLen
      let c4RowEnd := c4RowStart + l * fieldByteLen
      if target.length < c4RowEnd + fieldByteLen then false
      else ((values.drop c2Start).take l).zipIdx.all fun (expected, i) =>
        slice target (c4RowStart + i * fieldByteLen) fieldByteLen = expected

def c2ToC4 (l : ℕ) (name : String) (source target : ProofType) : CommitmentLink where
  name
  sourceProofType := source
  targetProofType := target
  scope := .sourceMustExistInTargets
  extractSourceValues := extractShareCommitments
  checkConsistency := checkExactLCommitments l

def c2aToC4aShareCommitmentLink (l : ℕ) : CommitmentLink :=
  c2ToC4 l "C2a->C4a share commitments" .c2aSkShareComputation .c4aSkShareDecryption

def c2bToC4bShareCommitmentLink (l : ℕ) : CommitmentLink :=
  c2ToC4 l "C2b->C4b share commitments" .c2bESmShareComputation .c4bESmShareDecryption

def c6ToC7DCommitmentLink : CommitmentLink where
  name := "C6->C7 d_commitment"
  sourceProofType := .c6ThresholdShareDecryption
  targetProofType := .c7DecryptedSharesAggregation
  scope := .crossParty
  extractSourceValues signals :=
    single (CircuitName.thresholdShareDecryption.outputLayout.extractField signals "d_commitment")
  checkConsistency values target _ _ :=
    match values with
    | [] => false
    | value :: _ =>
      let totalFields := target.length / fieldByteLen
      if target.length % fieldByteLen ≠ 0 ∨ totalFields < maxMsgNonZeroCoeffs then false
      else
        let rem := totalFields - maxMsgNonZeroCoeffs
        if rem % 2 ≠ 0 ∨ rem / 2 = 0 then false
        else listed value target (rem / 2)

/-- The commitment of a key share is the one that the decryption share expects. -/
def c4ToC6 (name : String) (source : ProofType) (field : String) : CommitmentLink where
  name
  sourceProofType := source
  targetProofType := .c6ThresholdShareDecryption
  scope := .sameParty
  extractSourceValues signals :=
    single (CircuitName.dkgShareDecryption.outputLayout.extractField signals "commitment")
  checkConsistency values target _ _ :=
    match values with
    | [] => false
    | value :: _ =>
      CircuitName.thresholdShareDecryption.inputLayout.extractField target field = some value

def c4aToC6SkCommitmentLink : CommitmentLink :=
  c4ToC6 "C4a->C6 sk_commitment" .c4aSkShareDecryption "expected_sk_commitment"

def c4bToC6ESmCommitmentLink : CommitmentLink :=
  c4ToC6 "C4b->C6 e_sm_commitment" .c4bESmShareDecryption "expected_e_sm_commitment"

/-- The links of a checker, for `l` moduli. -/
def defaultLinks (l : ℕ) : List CommitmentLink :=
  [c3aToC0PkCommitmentLink, c3bToC0PkCommitmentLink, c1ToC2aSkCommitmentLink,
    c1ToC2bESmCommitmentLink, c1ToC5PkCommitmentLink, c3aToC2aShareEncryptionLink,
    c3bToC2bShareEncryptionLink, c2aToC4aShareCommitmentLink l, c2bToC4bShareCommitmentLink l,
    c6ToC7DCommitmentLink, c4aToC6SkCommitmentLink, c4bToC6ESmCommitmentLink]

/-! ## The rows of a share decryption -/

/-- The field at this place. -/
def field (i : ℕ) : Bytes := slice signals (i * fieldByteLen) fieldByteLen

end

/-- The share decryption of the party `h` has, in this row, the `l` commitments that the share
computation made for `h`. -/
structure ListsShares (l : ℕ) (c2 c4 : Bytes) (row h : ℕ) : Prop where
  moduli : 0 < l
  computed : (1 + (h + 1) * l) * fieldByteLen ≤ c2.length
  expected : ((row + 1) * l + 1) * fieldByteLen ≤ c4.length
  same : ∀ i < l, field c4 (row * l + i) = field c2 (1 + h * l + i)

instance (l : ℕ) (c2 c4 : Bytes) (row h : ℕ) : Decidable (ListsShares l c2 c4 row h) :=
  decidable_of_iff (0 < l ∧ (1 + (h + 1) * l) * fieldByteLen ≤ c2.length ∧
      ((row + 1) * l + 1) * fieldByteLen ≤ c4.length ∧
      ∀ i < l, field c4 (row * l + i) = field c2 (1 + h * l + i))
    ⟨fun ⟨hl, hc2, hc4, hsame⟩ => ⟨hl, hc2, hc4, hsame⟩,
      fun ⟨hl, hc2, hc4, hsame⟩ => ⟨hl, hc2, hc4, hsame⟩⟩

lemma length_slice (h : start + len ≤ signals.length) : (slice signals start len).length = len := by
  simp only [slice, length_take, length_drop]
  omega

lemma slice_drop (signals : Bytes) (skip start len : ℕ) :
    slice (signals.drop skip) start len = slice signals (skip + start) len := by
  rw [slice, slice, drop_drop]

/-- The whole fields after the first one. -/
lemma extractShares_eq (hlen : 2 * fieldByteLen ≤ signals.length) :
    extractShareCommitments signals =
      (range (signals.length / fieldByteLen - 1)).map fun i => field signals (1 + i) := by
  have hpiec : (signals.length - fieldByteLen + fieldByteLen - 1) / fieldByteLen =
      signals.length / fieldByteLen - 1 + (if signals.length % fieldByteLen = 0 then 0 else 1) := by
    unfold fieldByteLen at *
    split_ifs <;> omega
  have hpiece : ∀ i, slice (signals.drop fieldByteLen) (i * fieldByteLen) fieldByteLen =
      field signals (1 + i) := by
    intro i
    rw [slice_drop, field, Nat.add_mul, Nat.one_mul]
  rw [extractShareCommitments, if_neg (not_lt.2 hlen), chunks, length_drop, hpiec,
    range_add, map_append, filter_append]
  simp only [hpiece]
  rw [filter_eq_self.2, filter_eq_nil_iff.2, append_nil]
  · -- The piece after the whole ones is too short.
    intro piece hmem
    simp only [mem_map, mem_range] at hmem
    obtain ⟨_, ⟨i, hi, rfl⟩, rfl⟩ := hmem
    simp only [field, slice, length_take, length_drop, decide_eq_true_eq]
    unfold fieldByteLen at *
    split_ifs at hi <;> omega
  · intro piece hmem
    obtain ⟨i, hi, rfl⟩ := mem_map.1 hmem
    rw [mem_range] at hi
    refine decide_eq_true (length_slice ?_)
    unfold fieldByteLen at *
    omega

lemma ListsShares.check (hlists : ListsShares l c2 c4 row h) :
    checkExactLCommitments l (extractShareCommitments c2) c4 row h = true := by
  obtain ⟨hl, hc2, hc4, hsame⟩ := hlists
  have hmul : (h + 1) * l = h * l + l := Nat.succ_mul h l
  have hrow : (row + 1) * l = row * l + l := Nat.succ_mul row l
  rw [hmul] at hc2
  rw [hrow] at hc4
  have htwo : 2 * fieldByteLen ≤ c2.length :=
    (Nat.mul_le_mul_right fieldByteLen (by omega)).trans hc2
  have hvalues := extractShares_eq htwo
  set values := extractShareCommitments c2
  have hfiel : h * l + l ≤ c2.length / fieldByteLen - 1 := by
    have hle := (Nat.le_div_iff_mul_le (by decide : 0 < fieldByteLen)).2 hc2
    omega
  have hcount : h * l + l ≤ values.length := by
    rw [hvalues, length_map, length_range]
    exact hfiel
  have hne : values.isEmpty = false := by
    cases hcase : values with
    | nil =>
      rw [hcase, length_nil] at hcount
      omega
    | cons _ _ => rfl
  have hend : row * l * fieldByteLen + l * fieldByteLen + fieldByteLen ≤ c4.length := by
    rw [← Nat.add_mul, ← Nat.succ_mul]
    exact hc4
  rw [checkExactLCommitments, if_neg (by simp [hne, hl.ne']), if_neg (not_lt.2 hcount),
    if_neg (not_lt.2 hend), all_eq_true]
  rintro ⟨expected, i⟩ hmem
  rw [mem_zipIdx_iff_getElem?, getElem?_take] at hmem
  split_ifs at hmem with hi
  rw [getElem?_drop, hvalues, getElem?_map, getElem?_range (by omega),
    Option.map_some, Option.some.injEq] at hmem
  dsimp only at hmem hi
  refine decide_eq_true ?_
  rw [← hmem, ← Nat.add_mul, ← Nat.add_assoc]
  exact hsame i hi

end Interfold.Links
