import Interfold.Library.Pratt
import Interfold.Circuits.SequentialFolds

/-!
# The scalar field

The order of the scalar field is a prime, which counts the roots of polynomials over it.
-/

namespace Interfold.Circuits

open Pratt

lemma prime_12048837557 : Nat.Prime 12048837557 := by
  refine prime_of_generator 2 [2, 2, 7, 7, 661, 93001] [] (by norm_num) (by norm_num) (by simp)
    (by norm_num; reduce_mod_char) ?_
  norm_num
  reduce_mod_char
  decide

lemma prime_1670836401704629 : Nat.Prime 1670836401704629 := by
  have hfac : Nat.Prime 5156902474397 := by
    refine prime_of_generator 2 [2, 2, 107] [12048837557] (by norm_num) (by norm_num)
      (by simp [prime_12048837557]) (by norm_num; reduce_mod_char) ?_
    norm_num
    reduce_mod_char
    decide
  refine prime_of_generator 2 [2, 2, 3, 3, 3, 3] [5156902474397] (by norm_num) (by norm_num)
    (by simp [hfac]) (by norm_num; reduce_mod_char) ?_
  norm_num
  reduce_mod_char
  decide

lemma prime_65865678001877903 : Nat.Prime 65865678001877903 := by
  have hfac : Nat.Prime 639533339 := by
    refine prime_of_generator 2 [2, 229, 853, 1637] [] (by norm_num) (by norm_num) (by simp)
      (by norm_num; reduce_mod_char) ?_
    norm_num
    reduce_mod_char
    decide
  refine prime_of_generator 5 [2, 83, 379, 1637] [639533339] (by norm_num) (by norm_num)
    (by simp [hfac]) (by norm_num; reduce_mod_char) ?_
  norm_num
  reduce_mod_char
  decide

lemma prime_13818364434197438864469338081 : Nat.Prime 13818364434197438864469338081 := by
  refine prime_of_generator 3 [2, 2, 2, 2, 2, 5, 823, 1593227] [65865678001877903] (by norm_num)
    (by norm_num) (by simp [prime_65865678001877903]) (by norm_num; reduce_mod_char) ?_
  norm_num
  reduce_mod_char
  decide

lemma prime_405928799 : Nat.Prime 405928799 := by
  refine prime_of_generator 22 [2, 11, 3691, 4999] [] (by norm_num) (by norm_num) (by simp)
    (by norm_num; reduce_mod_char) ?_
  norm_num
  reduce_mod_char
  decide

lemma prime_fieldPrime : fieldPrime.Prime := by
  unfold fieldPrime
  refine prime_of_generator 5 (List.replicate 28 2 ++ [3, 3, 13, 29, 983, 11003, 237073])
    [405928799, 1670836401704629, 13818364434197438864469338081] (by norm_num) (by norm_num)
    (by simp [prime_405928799, prime_1670836401704629, prime_13818364434197438864469338081])
    (by norm_num; reduce_mod_char) ?_
  norm_num
  reduce_mod_char
  decide

end Interfold.Circuits
