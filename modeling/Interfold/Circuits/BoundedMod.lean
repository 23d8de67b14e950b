import Interfold.Circuits.PkAggregation

/-!
# Bounded modular gadgets

The prover hints a quotient. Its bound keeps `q * quotient + remainder` below the order of the
field, so that the equation of the circuit is the Euclidean division of integers.
-/

namespace Interfold.Circuits

/-- The remainder that `reduce_mod_bounded` returns if its checks pass. -/
def reduceModBounded (bitQ bitK : ℕ) (n q quotient : Fr) : Option Fr :=
  let remainder := n - q * quotient
  if FitsIn bitK quotient ∧ AssertInRange bitQ remainder q then some remainder else none

def centeredModBounded (bitQ bitK : ℕ) (n q quotient : Fr) : Option Fr :=
  let centered := n - q * quotient
  if FitsIn bitK quotient ∧ AssertInRange bitQ (centered + half q) q then some centered else none

/-- What the prover supplies to `inv_mod_bounded`: the inverse and a quotient for each reduction. -/
structure InverseHints where
  inverse : Fr
  quotient : Fr
  productQuotient : Fr

def invModBounded (bitQ bitK : ℕ) (a q : Fr) (hints : InverseHints) : Option Fr :=
  if AssertInRange bitQ hints.inverse q ∧ FitsIn 128 a then do
    let reduced ← reduceModBounded bitQ bitK a q hints.quotient
    let product ← reduceModBounded bitQ bitK (reduced * hints.inverse) q hints.productQuotient
    if product = 1 then some hints.inverse else none
  else none

/-- The widths of the checks cover `q`, and a division by `q` does not wrap. -/
structure Widths (q bitQ bitK : ℕ) : Prop where
  fits : q ≤ 2 ^ bitQ
  lift : q * (2 ^ bitK + 1) < fieldPrime
  width : 2 ^ (bitQ + 1) < fieldPrime

variable {q bitQ bitK : ℕ} {n a k r : Fr} {hints : InverseHints}

lemma val_mul_add (h : q * k.val + r.val < fieldPrime) :
    ((q : Fr) * k + r).val = q * k.val + r.val := by
  have hcast : (q : Fr) * k + r = ((q * k.val + r.val : ℕ) : Fr) := by simp
  rw [hcast, ZMod.val_natCast_of_lt h]

/-- The centered gadget reduces the input shifted by `half q`. -/
lemma centered_iff_reduce : centeredModBounded bitQ bitK n q k = some r ↔
    reduceModBounded bitQ bitK (n + half q) q k = some (r + half q) := by
  have hshift : n + half q - q * k = n - q * k + half q := by ring
  simp [centeredModBounded, reduceModBounded, hshift]

lemma inv_iff : invModBounded bitQ bitK a q hints = some r ↔
    r = hints.inverse ∧ AssertInRange bitQ hints.inverse q ∧ FitsIn 128 a ∧
      ∃ reduced, reduceModBounded bitQ bitK a q hints.quotient = some reduced ∧
        reduceModBounded bitQ bitK (reduced * hints.inverse) q hints.productQuotient = some 1 := by
  simp only [invModBounded, Option.bind_eq_bind, Option.bind_eq_some_iff,
    Option.ite_none_right_eq_some, Option.some.injEq]
  grind

namespace Widths

variable (h : Widths q bitQ bitK)
include h

lemma inRange_iff : AssertInRange bitQ r q ↔ r.val < q := by
  refine assertInRange_iff h.fits ?_ r
  by_contra hbig
  have hpow : 2 ^ 254 ≤ 2 ^ (bitQ + 1) := Nat.pow_le_pow_right (by norm_num) (by omega)
  exact absurd (hpow.trans_lt h.width) (by norm_num [fieldPrime])

lemma lt_fieldPrime (hn : m < q * 2 ^ bitK + q) : m < fieldPrime :=
  hn.trans (by linarith [h.lift])

/-- The checks hold exactly for the Euclidean division of the representative. -/
lemma reduce_iff : reduceModBounded bitQ bitK n q k = some r ↔
    k.val < 2 ^ bitK ∧ r.val < q ∧ n.val = q * k.val + r.val := by
  have hwrap (hk : k.val < 2 ^ bitK) (hr : r.val < q) : q * k.val + r.val < fieldPrime :=
    h.lt_fieldPrime (Nat.add_lt_add_of_le_of_lt (Nat.mul_le_mul_left q hk.le) hr)
  simp only [reduceModBounded, h.inRange_iff, Option.ite_none_right_eq_some, Option.some.injEq]
  constructor
  · rintro ⟨⟨hk, hr⟩, rfl⟩
    refine ⟨hk, hr, ?_⟩
    rw [← val_mul_add (hwrap hk hr), add_sub_cancel]
  · rintro ⟨hk, hr, heq⟩
    rw [← val_mul_add (hwrap hk hr)] at heq
    have hrest : n - q * k = r := by rw [ZMod.val_injective _ heq, add_sub_cancel_left]
    rw [hrest]
    exact ⟨⟨hk, hr⟩, rfl⟩

lemma reduce_eq_mod (hr : reduceModBounded bitQ bitK n q k = some r) : r.val = n.val % q := by
  obtain ⟨-, hlt, heq⟩ := h.reduce_iff.1 hr
  rw [heq, Nat.mul_add_mod, Nat.mod_eq_of_lt hlt]

/-- The honest quotient satisfies the checks. -/
lemma reduce_honest (hq : 0 < q) (hn : n.val < q * 2 ^ bitK) :
    reduceModBounded bitQ bitK n q ((n.val / q : ℕ) : Fr) = some ((n.val % q : ℕ) : Fr) := by
  have hdiv := Nat.div_lt_of_lt_mul hn
  have hmod := Nat.mod_lt n.val hq
  have hle : 2 ^ bitK ≤ q * 2 ^ bitK := Nat.le_mul_of_pos_left _ hq
  rw [h.reduce_iff, ZMod.val_natCast_of_lt (h.lt_fieldPrime (by omega)),
    ZMod.val_natCast_of_lt (h.lt_fieldPrime (by omega))]
  exact ⟨hdiv, hmod, (Nat.div_add_mod n.val q).symm⟩

lemma reduce_exists (hq : 0 < q) :
    (∃ k r, reduceModBounded bitQ bitK n q k = some r) ↔ n.val < q * 2 ^ bitK := by
  constructor
  · rintro ⟨k, r, hr⟩
    obtain ⟨hk, hlt, heq⟩ := h.reduce_iff.1 hr
    have hmul : q * (k.val + 1) ≤ q * 2 ^ bitK := Nat.mul_le_mul_left q hk
    rw [Nat.mul_succ] at hmul
    omega
  · intro hn
    exact ⟨_, _, h.reduce_honest hq hn⟩

/-! ### The centered representative -/

lemma val_add_half (hodd : Odd q)
    (hn : n.val < q * 2 ^ bitK - (q - 1) / 2) : (n + half q).val = n.val + (q - 1) / 2 := by
  have hcast : n + half q = ((n.val + (q - 1) / 2 : ℕ) : Fr) := by simp [half_natCast hodd]
  rw [hcast, ZMod.val_natCast_of_lt (h.lt_fieldPrime (by omega))]

lemma centered_exists (hodd : Odd q) (hn : n.val < q * 2 ^ bitK - (q - 1) / 2) :
    ∃ k r, centeredModBounded bitQ bitK n q k = some r := by
  have hlt : (n + half q).val < q * 2 ^ bitK := by
    rw [h.val_add_half hodd hn]
    omega
  have hsome := h.reduce_honest hodd.pos hlt
  exact ⟨_, _ - half q, centered_iff_reduce.2 (by rw [sub_add_cancel]; exact hsome)⟩

lemma centered_eq (hodd : Odd q)
    (hn : n.val < q * 2 ^ bitK - (q - 1) / 2) (hr : centeredModBounded bitQ bitK n q k = some r) :
    PkAggregation.IsCentered q n.val (signed r) := by
  obtain ⟨-, hlt, heq⟩ := h.reduce_iff.1 (centered_iff_reduce.1 hr)
  rw [h.val_add_half hodd hn] at heq
  obtain ⟨m, rfl⟩ := hodd
  have hhalf : (2 * m + 1 - 1) / 2 = m := by omega
  rw [hhalf] at heq
  have hm : 2 * m + 1 < fieldPrime := h.lt_fieldPrime (by omega)
  have hsigned : signed r = (r + half (2 * m + 1 : ℕ)).val - m := by
    have hcast : r = (((r + half (2 * m + 1 : ℕ)).val - m : ℤ) : Fr) := by
      rw [Int.cast_sub, intCast_val, half_natCast ⟨m, rfl⟩, hhalf, Int.cast_natCast,
        add_sub_cancel_right]
    nth_rewrite 1 [hcast]
    exact signed_intCast (by rw [abs_eq_max_neg]; omega)
  rw [hsigned]
  refine ⟨abs_le.2 (by omega), Int.modEq_iff_dvd.2 ⟨k.val, ?_⟩⟩
  push_cast
  linarith

/-! ### The inverse -/

/-- The product of two residues does not wrap. -/
lemma val_mul (hk : q ≤ 2 ^ bitK) (hn : n.val < q) (hr : r.val < q) :
    (n * r).val = n.val * r.val ∧ n.val * r.val < q * 2 ^ bitK := by
  have hlt : n.val * r.val < q * 2 ^ bitK :=
    (Nat.mul_lt_mul'' hn hr).trans_le (Nat.mul_le_mul_left q hk)
  exact ⟨ZMod.val_mul_of_lt (h.lt_fieldPrime (by omega)), hlt⟩

lemma inv_eq (hprime : q.Prime) (hk : q ≤ 2 ^ bitK)
    (hr : invModBounded bitQ bitK a q hints = some r) :
    1 ≤ r.val ∧ r.val < q ∧ a.val * r.val ≡ 1 [MOD q] := by
  obtain ⟨rfl, hinv, -, reduced, hreduced, hproduct⟩ := inv_iff.1 hr
  have hlt := h.inRange_iff.1 hinv
  have hmod := h.reduce_eq_mod hreduced
  have hone := h.reduce_eq_mod hproduct
  rw [(h.val_mul hk (hmod ▸ Nat.mod_lt _ hprime.pos) hlt).1, hmod, ZMod.val_one'' (by decide)]
    at hone
  have hmodEq : a.val * hints.inverse.val ≡ 1 [MOD q] := by
    rw [Nat.ModEq, Nat.mod_eq_of_lt hprime.one_lt, hone, Nat.mod_mul_mod]
  refine ⟨Nat.one_le_iff_ne_zero.2 fun hzero => ?_, hlt, hmodEq⟩
  exact hprime.not_dvd_one ((hmodEq.dvd_iff dvd_rfl).1 (by simp [hzero]))

lemma inv_exists (hprime : q.Prime) (hk : q ≤ 2 ^ bitK)
    (ha : a.val < 2 ^ 128) (hn : a.val < q * 2 ^ bitK) (hdvd : ¬ q ∣ a.val) :
    ∃ hints r, invModBounded bitQ bitK a q hints = some r := by
  obtain ⟨b, hb, hmul⟩ := Nat.exists_mul_mod_eq_one_of_coprime
    ((Nat.Prime.coprime_iff_not_dvd hprime).2 hdvd).symm hprime.one_lt
  have hval {m : ℕ} (hm : m < q) : (m : Fr).val = m :=
    ZMod.val_natCast_of_lt (h.lt_fieldPrime (by omega))
  have hmod := Nat.mod_lt a.val hprime.pos
  obtain ⟨hprod, hlt⟩ := h.val_mul hk (n := (a.val % q : ℕ)) (r := b)
    (by rwa [hval hmod]) (by rwa [hval hb])
  -- The reduced input times its inverse is one modulo `q`.
  have hone := h.reduce_honest hprime.pos (hprod ▸ hlt)
  rw [hprod, hval hmod, hval hb, Nat.mod_mul_mod, hmul, Nat.cast_one] at hone
  refine ⟨⟨b, (a.val / q : ℕ), _⟩, b, inv_iff.2 ⟨rfl, ?_, ha, _, ?_, hone⟩⟩
  · rwa [h.inRange_iff, hval hb]
  · exact h.reduce_honest hprime.pos hn

end Widths

/-- Every hint that satisfies a gadget returns the same result, and there is one for every input
that has a result. -/
theorem bounded_gadgets_pin (hprime : q.Prime) (hodd : Odd q) (h : Widths q bitQ bitK) : (∀ n : Fr,
      ((∃ k r, reduceModBounded bitQ bitK n q k = some r) ↔ n.val < q * 2 ^ bitK) ∧
      ∀ k r, reduceModBounded bitQ bitK n q k = some r → r.val = n.val % q) ∧
    (∀ n : Fr, n.val < q * 2 ^ bitK - (q - 1) / 2 →
      (∃ k r, centeredModBounded bitQ bitK n q k = some r) ∧
      ∀ k r, centeredModBounded bitQ bitK n q k = some r →
        PkAggregation.IsCentered q n.val (signed r)) ∧
    (q ≤ 2 ^ bitK → ∀ a : Fr, a.val < 2 ^ 128 → a.val < q * 2 ^ bitK →
      ((∃ hints r, invModBounded bitQ bitK a q hints = some r) ↔ ¬ q ∣ a.val) ∧
      ∀ hints r, invModBounded bitQ bitK a q hints = some r →
        1 ≤ r.val ∧ r.val < q ∧ a.val * r.val ≡ 1 [MOD q]) := by
  refine ⟨fun n => ⟨h.reduce_exists hprime.pos, fun k r => h.reduce_eq_mod⟩,
    fun n hn => ⟨h.centered_exists hodd hn, fun k r => h.centered_eq hodd hn⟩,
    fun hk a ha hn => ⟨⟨?_, h.inv_exists hprime hk ha hn⟩, fun hints r => h.inv_eq hprime hk⟩⟩
  rintro ⟨hints, r, hr⟩ hdvd
  have hmod := (h.inv_eq hprime hk hr).2.2
  exact hprime.not_dvd_one ((hmod.dvd_iff dvd_rfl).1 (hdvd.mul_right r.val))

/-- The widths of a five-bit modulus, whose inverses and centered residues are found. -/
theorem bounded_gadgets_pin_seventeen :
    (∃ hints r, invModBounded 5 5 (40 : Fr) (17 : ℕ) hints = some r) ∧
    (∃ k r, centeredModBounded 5 5 (40 : Fr) (17 : ℕ) k = some r) := by
  have h : Widths 17 5 5 := ⟨by norm_num, by norm_num [fieldPrime], by norm_num [fieldPrime]⟩
  have hpin := bounded_gadgets_pin (by decide) (by decide) h
  have hval : (40 : Fr).val = 40 := by decide +kernel
  refine ⟨(hpin.2.2 (by norm_num) 40 ?_ ?_).1.2 ?_, (hpin.2.1 40 ?_).1⟩ <;> rw [hval] <;> norm_num

end Interfold.Circuits
