import Interfold.Library.Radix
import Interfold.Circuits.Gadgets

/-!
# Packing

Commitments hash coefficients after several of them were packed into one carrier, as digits with an
offset that makes them non-negative. Digit widths are multiples of four, so a full carrier has at
most 252 bits and stays below the prime of the field: checked digits are determined by the carriers.
-/

namespace Interfold.Circuits

open Radix List

/-- A width `BIT` that `packing_layout` admits. -/
structure Width where
  bit : ℕ
  fits : (bit + 3) / 4 * 4 + 4 ≤ 254
  shares : 2 ≤ 254 / ((bit + 3) / 4 * 4 + 4)

namespace Width

variable (w : Width)

def nibbleBits : ℕ := (w.bit + 3) / 4 * 4

def group : ℕ := 254 / (w.nibbleBits + 4)

def base : ℕ := 2 ^ w.nibbleBits

def radix : ℕ := 2 ^ (w.nibbleBits + 4)

/-- The values of every carrier. -/
def chunks (values : List Fr) : List (List Fr) :=
  (range ((values.length + w.group - 1) / w.group)).map fun chunk =>
    (values.drop (chunk * w.group)).take w.group

/-- Unused slots hold the digit of zero. -/
def carrier (chunk : List Fr) : Fr :=
  horner w.radix (chunk.map (· + (w.base : Fr)) ++ replicate (w.group - chunk.length) (w.base : Fr))

def pack {A : ℕ} (values : Fin A → Fr) : List Fr := (w.chunks (ofFn values)).map w.carrier

/-- The digit of a value fits its slot. -/
def Digit (v : Fr) : Prop := FitsIn (w.nibbleBits + 4) (v + w.base)

instance (v : Fr) : Decidable (w.Digit v) := inferInstanceAs (Decidable (FitsIn _ _))

/-- The asserts so far, and the carrier so far. -/
def pushDigit (s : Bool × Fr) (v : Fr) : Bool × Fr :=
  (s.1 && w.Digit v, s.2 * w.radix + (v + w.base))

def carrierChecked (chunk : List Fr) : Bool × Fr :=
  let s := chunk.foldl w.pushDigit (true, 0)
  (s.1, (replicate (w.group - chunk.length) (w.base : Fr)).foldl
    (fun acc digit => acc * w.radix + digit) s.2)

/-- Whether all asserts hold, and the carriers. -/
def packChecked {A : ℕ} (values : Fin A → Fr) : Bool × List Fr :=
  let out := (w.chunks (ofFn values)).map w.carrierChecked
  (out.all (·.1), out.map (·.2))

variable {w}

lemma bit_le : w.bit ≤ 123 := by
  have h := (Nat.le_div_iff_mul_le (by omega)).1 w.shares
  omega

lemma nibbleBits_le : w.nibbleBits ≤ 123 := by
  have h := (Nat.le_div_iff_mul_le (by omega)).1 w.shares
  unfold nibbleBits
  omega

lemma group_pos : 0 < w.group := lt_of_lt_of_le (by norm_num) w.shares

lemma base_pos : 0 < w.base := Nat.two_pow_pos _

lemma radix_eq : w.radix = 16 * w.base := by
  unfold radix base
  rw [pow_add]
  omega

/-- A full carrier has at most 252 bits. -/
lemma radix_pow_group : w.radix ^ w.group ≤ 2 ^ 252 := by
  have hle : w.group * (w.nibbleBits + 4) ≤ 254 := Nat.div_mul_le_self 254 (w.nibbleBits + 4)
  have hfour : w.group * (w.nibbleBits + 4) = 4 * (w.group * ((w.bit + 3) / 4 + 1)) := by
    unfold nibbleBits
    ring
  unfold radix
  rw [← pow_mul, mul_comm]
  exact Nat.pow_le_pow_right (by norm_num) (by omega)

/-- The chunks are the values, in order. -/
lemma flatten_chunks (values : List Fr) : (w.chunks values).flatten = values := by
  have htake (n : ℕ) : ((range n).map fun chunk =>
      (values.drop (chunk * w.group)).take w.group).flatten = values.take (n * w.group) := by
    induction n with
    | zero => simp
    | succ n ih =>
      rw [range_succ, map_append, flatten_append, ih, Nat.succ_mul, take_add]
      simp
  have hpos := group_pos (w := w)
  unfold chunks
  rw [htake]
  apply take_of_length_le
  have hlast := Nat.lt_div_mul_add (a := values.length + w.group - 1) hpos
  omega

lemma carrierChecked_eq (chunk : List Fr) :
    w.carrierChecked chunk = (decide (∀ v ∈ chunk, w.Digit v), w.carrier chunk) := by
  have hfold : chunk.foldl w.pushDigit (true, 0) =
      (decide (∀ v ∈ chunk, w.Digit v), horner (w.radix : Fr) (chunk.map (· + (w.base : Fr)))) := by
    induction chunk using reverseRecOn with
    | nil => simp
    | append_singleton chunk v ih =>
      rw [foldl_append, ih]
      simp [pushDigit, or_imp, forall_and]
  simp [carrierChecked, hfold, carrier, horner]

lemma packChecked_carriers (values : Fin A → Fr) : (w.packChecked values).2 = w.pack values := by
  simp [packChecked, pack, carrierChecked_eq]

lemma packChecked_iff (values : Fin A → Fr) :
    (w.packChecked values).1 = true ↔ ∀ i, w.Digit (values i) := by
  have hmem (v : Fr) : v ∈ ofFn values ↔ ∃ chunk ∈ w.chunks (ofFn values), v ∈ chunk := by
    conv_lhs => rw [← flatten_chunks (w := w) (ofFn values)]
    exact mem_flatten
  constructor
  · intro h i
    obtain ⟨chunk, hchunk, hv⟩ := (hmem (values i)).1 (mem_ofFn.2 ⟨i, rfl⟩)
    simp only [packChecked, carrierChecked_eq, all_map, all_eq_true,
      Function.comp_apply, decide_eq_true_eq] at h
    exact h chunk hchunk _ hv
  · intro h
    simp only [packChecked, carrierChecked_eq, all_map, all_eq_true,
      Function.comp_apply, decide_eq_true_eq]
    intro chunk hchunk v hv
    obtain ⟨i, rfl⟩ := mem_ofFn.1 ((hmem v).2 ⟨chunk, hchunk, hv⟩)
    exact h i

/-- Checked digits are read off their carrier. -/
lemma carrier_inj (hlen : xs.length = ys.length) (hgroup : xs.length ≤ w.group)
    (hxs : ∀ v ∈ xs, w.Digit v) (hys : ∀ v ∈ ys, w.Digit v) (h : w.carrier xs = w.carrier ys) :
    xs = ys := by
  let digits (l : List Fr) : List ℕ :=
    l.map (fun v => (v + w.base : Fr).val) ++ replicate (w.group - l.length) w.base
  have hpos := base_pos (w := w)
  have hradix : w.base < w.radix := by
    rw [radix_eq]
    omega
  have hdigs {l : List Fr} (hl : ∀ v ∈ l, w.Digit v) : ∀ d ∈ digits l, d < w.radix := by
    intro d hd
    rcases mem_append.1 hd with hd | hd
    · obtain ⟨v, hv, rfl⟩ := mem_map.1 hd
      exact hl v hv
    · rw [eq_of_mem_replicate hd]
      exact hradix
  have hcarr (l : List Fr) : w.carrier l = ((horner w.radix (digits l) : ℕ) : Fr) := by
    simp [natCast_horner, carrier, digits, Function.comp_def]
  have hlt {l : List Fr} (hl : ∀ v ∈ l, w.Digit v) (hle : l.length ≤ w.group) :
      horner w.radix (digits l) < fieldPrime := by
    calc horner w.radix (digits l) < w.radix ^ (digits l).length := horner_lt (hdigs hl)
      _ = w.radix ^ w.group := by
        congr 1
        simp only [digits, length_append, length_map, length_replicate]
        omega
      _ ≤ 2 ^ 252 := radix_pow_group
      _ ≤ fieldPrime := by norm_num [fieldPrime]
  rw [hcarr, hcarr, ZMod.natCast_eq_natCast_iff', Nat.mod_eq_of_lt (hlt hxs hgroup),
    Nat.mod_eq_of_lt (hlt hys (hlen ▸ hgroup))] at h
  have hequal := horner_inj (by omega) (by simp [digits, hlen]) (hdigs hxs) (hdigs hys) h
  have hvalues := (append_inj hequal (by simp [hlen])).1
  refine map_injective_iff.2 (fun v v' hv => ?_) hvalues
  exact add_right_cancel (ZMod.val_injective fieldPrime hv)

lemma pack_inj {v v' : Fin A → Fr} (hv : ∀ i, w.Digit (v i)) (hv' : ∀ i, w.Digit (v' i))
    (h : w.pack v = w.pack v') : v = v' := by
  have hmem {u : Fin A → Fr} (hu : ∀ i, w.Digit (u i)) (chunk : ℕ) :
      ∀ x ∈ ((ofFn u).drop (chunk * w.group)).take w.group, w.Digit x := by
    intro x hx
    obtain ⟨i, rfl⟩ := mem_ofFn.1 (mem_of_mem_drop (mem_of_mem_take hx))
    exact hu i
  have hchun : w.chunks (ofFn v) = w.chunks (ofFn v') := by
    unfold pack chunks at h
    unfold chunks
    simp only [length_ofFn, map_map] at h ⊢
    rw [map_inj_left] at h ⊢
    intro chunk hchunk
    refine carrier_inj (by simp) (length_take_le _ _) (hmem hv chunk) (hmem hv' chunk) ?_
    exact h chunk hchunk
  apply ofFn_injective
  rw [← flatten_chunks (w := w) (ofFn v), hchun, flatten_chunks]

lemma digit_of_bounded (h : |signed v| ≤ 2 ^ w.bit) : w.Digit v := by
  have hpos := base_pos (w := w)
  have hbase : (2 : ℤ) ^ w.bit ≤ w.base := by
    unfold base nibbleBits
    exact_mod_cast Nat.pow_le_pow_right (by norm_num) (by omega)
  have hsmall : (w.base : ℤ) ≤ 2 ^ 123 := by
    unfold base
    exact_mod_cast Nat.pow_le_pow_right (by norm_num) nibbleBits_le
  have hradix : (2 : ℤ) ^ (w.nibbleBits + 4) = 16 * w.base := by
    exact_mod_cast radix_eq (w := w)
  have hbnds := abs_le.1 h
  have hprime := pow_lt_prime_int
  have hdigit : v + w.base = ((signed v + w.base : ℤ) : Fr) := by push_cast; simp
  unfold Digit
  rw [hdigit, fitsIn_intCast (by linarith) (by linarith)]
  omega

lemma digit_of_rangeCheck {A upper lower : ℕ} {v : Fin A → Fr} (hupper : upper ≤ 2 ^ w.bit)
    (hlower : lower ≤ 2 ^ w.bit) (h : RangeCheck2Bounds w.bit upper lower v) (i : Fin A) :
    w.Digit (v i) := by
  have hbit := bit_le (w := w)
  have hprime := pow_lt_prime
  have hpow : 2 ^ w.bit ≤ 2 ^ 251 := Nat.pow_le_pow_right (by norm_num) (by omega)
  obtain ⟨hlow, hhigh⟩ := h.bounds (by omega) (by omega) (by omega) i
  zify at hupper hlower
  exact digit_of_bounded (abs_le.2 ⟨by linarith, by linarith⟩)

/-- Checked packing is an injective opening, and plain packing is one for range-checked values. -/
theorem checked_packing (w : Width) (A : ℕ) :
    (∀ v v' : Fin A → Fr, (w.packChecked v).1 = true → (w.packChecked v').1 = true →
      (w.packChecked v).2 = (w.packChecked v').2 → v = v') ∧
    (∀ v : Fin A → Fr, w.pack v = (w.packChecked v).2) ∧
    (∀ v : Fin A → Fr, (∀ i, |signed (v i)| ≤ 2 ^ w.bit) → (w.packChecked v).1 = true) ∧
    (∀ (v : Fin A → Fr) (upper lower : ℕ), upper ≤ 2 ^ w.bit → lower ≤ 2 ^ w.bit →
      RangeCheck2Bounds w.bit upper lower v → (w.packChecked v).1 = true) ∧
    ∀ (v v' : Fin A → Fr) (upper lower upper' lower' : ℕ), upper ≤ 2 ^ w.bit → lower ≤ 2 ^ w.bit →
      upper' ≤ 2 ^ w.bit → lower' ≤ 2 ^ w.bit → RangeCheck2Bounds w.bit upper lower v →
      RangeCheck2Bounds w.bit upper' lower' v' → w.pack v = w.pack v' → v = v' := by
  refine ⟨?_, fun v => (packChecked_carriers v).symm, ?_, ?_, ?_⟩
  · intro v v' hv hv' h
    rw [packChecked_carriers, packChecked_carriers] at h
    exact pack_inj ((packChecked_iff v).1 hv) ((packChecked_iff v').1 hv') h
  · intro v hv
    exact (packChecked_iff v).2 fun i => digit_of_bounded (hv i)
  · intro v upper lower hupper hlower hv
    exact (packChecked_iff v).2 (digit_of_rangeCheck hupper hlower hv)
  · intro v v' upper lower upper' lower' hupper hlower hupper' hlower' hv hv' h
    have hdigits := digit_of_rangeCheck hupper hlower hv
    exact pack_inj hdigits (digit_of_rangeCheck hupper' hlower' hv') h

end Width

end Interfold.Circuits
