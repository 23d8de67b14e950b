import Mathlib.Tactic.Linarith
import Mathlib.Tactic.Ring
import Mathlib.Data.UInt

/-!
# Big-endian bytes

A number as a list of bytes, most significant byte first. Concatenating encodings of fixed widths
adds the numbers up as digits, so comparing the whole encoding compares the parts in order.
-/

namespace BigEndian

/-- The number that a list of bytes stands for. -/
def decode (bytes : List UInt8) : ℕ := bytes.foldl (fun n b => 256 * n + b.toNat) 0

/-- The lowest `width` bytes of a number. -/
def encode : ℕ → ℕ → List UInt8
  | 0, _ => []
  | width + 1, n => encode width (n / 256) ++ [UInt8.ofNat n]

lemma decode_snoc (bytes : List UInt8) (b : UInt8) :
    decode (bytes ++ [b]) = 256 * decode bytes + b.toNat := by
  simp [decode]

@[simp] lemma length_encode (width n : ℕ) : (encode width n).length = width := by
  induction width generalizing n with
  | zero => rfl
  | succ width ih => simp [encode, ih]

lemma decode_encode (h : n < 256 ^ width) : decode (encode width n) = n := by
  induction width generalizing n with
  | zero =>
    rw [pow_zero, Nat.lt_one_iff] at h
    rw [h]
    rfl
  | succ width ih =>
    have hdiv : n / 256 < 256 ^ width := by
      rw [pow_succ] at h
      exact Nat.div_lt_of_lt_mul (by rwa [mul_comm])
    rw [encode, decode_snoc, ih hdiv]
    simp only [UInt8.toNat_ofNat']
    omega

lemma encode_inj (hn : n < 256 ^ width) (hm : m < 256 ^ width)
    (h : encode width n = encode width m) : n = m := by
  rw [← decode_encode hn, h, decode_encode hm]

/-- The bytes of two parts are the digits of one number. -/
lemma decode_append (front back : List UInt8) :
    decode (front ++ back) = decode front * 256 ^ back.length + decode back := by
  induction back using List.reverseRecOn with
  | nil => simp [decode]
  | append_singleton back b ih =>
    rw [← List.append_assoc, decode_snoc, decode_snoc, ih,
      List.length_append, List.length_singleton, pow_succ]
    ring

/-- A list of bytes is the encoding of its number. -/
lemma encode_decode (bytes : List UInt8) : encode bytes.length (decode bytes) = bytes := by
  induction bytes using List.reverseRecOn with
  | nil => rfl
  | append_singleton bytes b ih =>
    have hb : b.toNat < 256 := b.toNat_lt
    have hdiv : (256 * decode bytes + b.toNat) / 256 = decode bytes := by omega
    have hlast : UInt8.ofNat (256 * decode bytes + b.toNat) = b := by
      apply UInt8.toNat_inj.1
      rw [UInt8.toNat_ofNat']
      omega
    rw [List.length_append, List.length_singleton, encode, decode_snoc, hdiv, hlast, ih]

/-- Numbers with a low digit below `m` compare by the high part first. -/
lemma compare_digits {m x y x' y' : ℕ} (hy : y < m) (hy' : y' < m) :
    compare (x * m + y) (x' * m + y') = (compare x x').then (compare y y') := by
  rcases Nat.lt_trichotomy x x' with hlt | rfl | hgt
  · have hmul : x * m + m ≤ x' * m := by
      rw [← Nat.succ_mul]
      exact Nat.mul_le_mul_right m hlt
    rw [Nat.compare_eq_lt.2 hlt, Nat.compare_eq_lt.2 (by omega)]
    rfl
  · rw [Nat.compare_eq_eq.2 rfl]
    rcases Nat.lt_trichotomy y y' with hlt | rfl | hgt
    · rw [Nat.compare_eq_lt.2 (by omega), Nat.compare_eq_lt.2 hlt]
      rfl
    · rw [Nat.compare_eq_eq.2 rfl, Nat.compare_eq_eq.2 rfl]
      rfl
    · rw [Nat.compare_eq_gt.2 (by omega), Nat.compare_eq_gt.2 hgt]
      rfl
  · have hmul : x' * m + m ≤ x * m := by
      rw [← Nat.succ_mul]
      exact Nat.mul_le_mul_right m hgt
    rw [Nat.compare_eq_gt.2 hgt, Nat.compare_eq_gt.2 (by omega)]
    rfl

lemma decode_lt (bytes : List UInt8) : decode bytes < 256 ^ bytes.length := by
  induction bytes using List.reverseRecOn with
  | nil => simp [decode]
  | append_singleton bytes b ih =>
    have hb : b.toNat < 256 := b.toNat_lt
    rw [decode_snoc, List.length_append, List.length_singleton, pow_succ]
    omega

/-- Encodings of one width are in the order of their numbers. -/
lemma lt_iff_decode {front back : List UInt8} (h : front.length = back.length) :
    front < back ↔ decode front < decode back := by
  induction front generalizing back with
  | nil => simp [List.length_eq_zero_iff.1 h.symm]
  | cons b front ih =>
    obtain _ | ⟨c, back⟩ := back
    · simp at h
    have hlen : front.length = back.length := by simpa using h
    have hcons := decode_append [b] front
    have hcons' := decode_append [c] back
    rw [List.singleton_append] at hcons hcons'
    rw [List.cons_lt_cons_iff, ih hlen, hcons, hcons', hlen, ← Nat.compare_eq_lt (a := _ + _),
      compare_digits (hlen ▸ decode_lt front) (decode_lt back), Ordering.then_eq_lt]
    simp [decode, UInt8.lt_iff_toNat_lt, UInt8.toNat_inj, Nat.compare_eq_lt]

end BigEndian
