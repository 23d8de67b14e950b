import Mathlib.Tactic.NormNum.Prime
import Mathlib.Tactic.ReduceModChar
import Mathlib.NumberTheory.LucasPrimality

/-!
# Prime certificates

Lucas' test for a number, given a generator and the prime factors of its predecessor.
-/

namespace Pratt

/-- The large factors have certificates of their own. -/
lemma prime_of_generator (a : ZMod p) (small large : List ℕ)
    (hprod : (small ++ large).prod = p - 1) (hsmall : ∀ q ∈ small, q.Prime)
    (hlarge : ∀ q ∈ large, q.Prime) (hone : a ^ (p - 1) = 1)
    (hne : ∀ q ∈ small ++ large, a ^ ((p - 1) / q) ≠ 1) : p.Prime := by
  refine lucas_primality p a hone fun q hq hdvd => ?_
  obtain ⟨q', hq', hdvd⟩ := (Prime.dvd_prod_iff hq.prime).1 (hprod ▸ hdvd)
  have hprime := (List.mem_append.1 hq').elim (hsmall q') (hlarge q')
  obtain rfl := (Nat.prime_dvd_prime_iff_eq hq hprime).1 hdvd
  exact hne q hq'

end Pratt
