import Interfold.Library.Ledger

/-!
# A payable balance shared by several classes of claimants

Accounts of type `ι` hold units of a token that is backed by an underlying asset. Burned units
become one payable balance, which is owed to accounts that are leaving and to a pool of seized
units. Reservations, kept by managers of type `μ` under keys of type `κ`, earmark parts of the
seized pool. Each operation keeps the payable balance equal to what is owed, so that no claimant
can spend what another one is owed.
-/

namespace Escrow

open Finset Function Ledger

/-- The records of the escrow. -/
@[ext]
structure Records (ι μ κ : Type*) where
  balance : ι → ℕ
  supply : ℕ
  payable : ℕ
  custody : ℕ
  pending : ι → ℕ
  seized : ℕ
  reservation : μ → κ → ℕ
  reserved : ℕ
  outstanding : μ → ℕ

variable {ι μ κ : Type*} [Fintype ι] [Fintype μ] [Fintype κ]

/-- Every total agrees with the records it sums up, and the underlying asset covers both the
units in circulation and the payable balance. -/
structure Agree (r : Records ι μ κ) : Prop where
  supply_eq : r.supply = ∑ i, r.balance i
  payable_eq : r.payable = ∑ i, r.pending i + r.seized
  covered : r.supply + r.payable ≤ r.custody
  reserved_eq : r.reserved = ∑ m, ∑ k, r.reservation m k
  reserved_le : r.reserved ≤ r.seized
  outstanding_eq : ∀ m, r.outstanding m = count fun k => r.reservation m k ≠ 0

namespace Records

variable [DecidableEq ι] [DecidableEq μ] [DecidableEq κ]

variable (r : Records ι μ κ)

def deposit (i : ι) (n : ℕ) : Records ι μ κ :=
  { r with
    balance := update r.balance i (r.balance i + n)
    supply := r.supply + n
    custody := r.custody + n }

/-- Burns `n` units of account `i` and puts them on its way out. -/
def leave (i : ι) (n : ℕ) : Records ι μ κ :=
  { r with
    balance := update r.balance i (r.balance i - n)
    supply := r.supply - n
    payable := r.payable + n
    pending := update r.pending i (r.pending i + n) }

/-- Seizes `n` units and `k` units that are already on their way out. -/
def seize (i : ι) (n k : ℕ) : Records ι μ κ :=
  { r with
    balance := update r.balance i (r.balance i - n)
    supply := r.supply - n
    payable := r.payable + n
    pending := update r.pending i (r.pending i - k)
    seized := r.seized + (n + k) }

def pay (i : ι) (n : ℕ) : Records ι μ κ :=
  { r with
    payable := r.payable - n
    custody := r.custody - n
    pending := update r.pending i (r.pending i - n) }

def reserve (m : μ) (k : κ) (n : ℕ) : Records ι μ κ :=
  { r with
    reservation := update₂ r.reservation m k n
    reserved := r.reserved + n
    outstanding := update r.outstanding m (r.outstanding m + 1) }

/-- Pays a reservation out of the seized pool. -/
def redeem (m : μ) (k : κ) : Records ι μ κ :=
  { r with
    payable := r.payable - r.reservation m k
    custody := r.custody - r.reservation m k
    seized := r.seized - r.reservation m k
    reservation := update₂ r.reservation m k 0
    reserved := r.reserved - r.reservation m k
    outstanding := update r.outstanding m (r.outstanding m - 1) }

def withdraw (n : ℕ) : Records ι μ κ :=
  { r with payable := r.payable - n, custody := r.custody - n, seized := r.seized - n }

end Records

namespace Agree

variable {r : Records ι μ κ}

/-! ## What a claimant can count on -/

lemma balance_le_supply (h : Agree r) (i : ι) : r.balance i ≤ r.supply :=
  h.supply_eq ▸ le_sum r.balance i

lemma pending_le_payable (h : Agree r) (i : ι) : r.pending i ≤ r.payable := by
  have := le_sum r.pending i
  have := h.payable_eq
  omega

lemma seized_le_payable (h : Agree r) : r.seized ≤ r.payable := by
  have := h.payable_eq
  omega

lemma reservation_le_reserved (h : Agree r) (m : μ) (k : κ) : r.reservation m k ≤ r.reserved := by
  rw [h.reserved_eq]
  exact (le_sum (r.reservation m) k).trans (le_sum (fun m => ∑ k, r.reservation m k) m)

lemma reservation_le_payable (h : Agree r) (m : μ) (k : κ) : r.reservation m k ≤ r.payable :=
  ((h.reservation_le_reserved m k).trans h.reserved_le).trans h.seized_le_payable

/-! ## Preservation -/

variable [DecidableEq ι] [DecidableEq μ] [DecidableEq κ]

lemma deposit (h : Agree r) (i : ι) (n : ℕ) : Agree (r.deposit i n) where
  supply_eq := by
    have hsum := sum_write (a := i) (f := r.balance) (g := (r.deposit i n).balance)
      fun x hx => update_of_ne hx ..
    have := h.supply_eq
    simp only [Records.deposit, update_self] at hsum ⊢
    omega
  payable_eq := h.payable_eq
  covered := by
    have := h.covered
    simp only [Records.deposit]
    omega
  reserved_eq := h.reserved_eq
  reserved_le := h.reserved_le
  outstanding_eq := h.outstanding_eq

variable {i : ι} {n : ℕ} {m : μ} {k : κ}

section

variable (h : Agree r)
include h

/-- Burning units of an account. The supply follows the balances, whatever the burn is for. -/
lemma supply_burn (hn : n ≤ r.balance i) :
    r.supply - n = ∑ x, update r.balance i (r.balance i - n) x := by
  have hsum := sum_write (a := i) (f := r.balance) (g := update r.balance i (r.balance i - n))
    fun x hx => update_of_ne hx ..
  have := h.supply_eq
  have := h.balance_le_supply i
  simp only [update_self] at hsum
  omega

lemma leave (hn : n ≤ r.balance i) : Agree (r.leave i n) where
  supply_eq := h.supply_burn hn
  payable_eq := by
    have hsum := sum_write (a := i) (f := r.pending) (g := (r.leave i n).pending)
      fun x hx => update_of_ne hx ..
    have := h.payable_eq
    simp only [Records.leave, update_self] at hsum ⊢
    omega
  covered := by
    have := h.covered
    have := h.balance_le_supply i
    simp only [Records.leave]
    omega
  reserved_eq := h.reserved_eq
  reserved_le := h.reserved_le
  outstanding_eq := h.outstanding_eq

lemma seize {k : ℕ} (hn : n ≤ r.balance i) (hk : k ≤ r.pending i) : Agree (r.seize i n k) where
  supply_eq := h.supply_burn hn
  payable_eq := by
    have hsum := sum_write (a := i) (f := r.pending) (g := (r.seize i n k).pending)
      fun x hx => update_of_ne hx ..
    have := h.payable_eq
    simp only [Records.seize, update_self] at hsum ⊢
    omega
  covered := by
    have := h.covered
    have := h.balance_le_supply i
    simp only [Records.seize]
    omega
  reserved_eq := h.reserved_eq
  reserved_le := h.reserved_le.trans (Nat.le_add_right ..)
  outstanding_eq := h.outstanding_eq

lemma pay (hn : n ≤ r.pending i) : Agree (r.pay i n) where
  supply_eq := h.supply_eq
  payable_eq := by
    have hsum := sum_write (a := i) (f := r.pending) (g := (r.pay i n).pending)
      fun x hx => update_of_ne hx ..
    have := h.payable_eq
    have := h.pending_le_payable i
    simp only [Records.pay, update_self] at hsum ⊢
    omega
  covered := by
    have := h.covered
    have := h.pending_le_payable i
    simp only [Records.pay]
    omega
  reserved_eq := h.reserved_eq
  reserved_le := h.reserved_le
  outstanding_eq := h.outstanding_eq

/-- Overwriting one reservation moves the number of outstanding ones of its manager only. -/
lemma count_update₂ (m : μ) (k : κ) (n c : ℕ)
    (hc : c + (if r.reservation m k ≠ 0 then 1 else 0) = r.outstanding m + if n ≠ 0 then 1 else 0)
    (x : μ) : update r.outstanding m c x = count fun y => update₂ r.reservation m k n x y ≠ 0 := by
  by_cases hx : x = m
  · subst hx
    have hcount := count_write (a := k) (p := fun y => r.reservation x y ≠ 0)
      (q := fun y => update₂ r.reservation x k n x y ≠ 0)
      fun y hy => by rw [update₂_of_ne _ _ fun hxy => hy hxy.2]
    rw [update₂_self, ← h.outstanding_eq] at hcount
    rw [update_self]
    omega
  · rw [update_of_ne hx, h.outstanding_eq]
    simp [update₂_apply, hx]

lemma reserve (hnew : r.reservation m k = 0) (hn : 0 < n) (hfree : r.reserved + n ≤ r.seized) :
    Agree (r.reserve m k n) where
  supply_eq := h.supply_eq
  payable_eq := h.payable_eq
  covered := h.covered
  reserved_eq := by
    have hsum := sum_sum_write (f := r.reservation) (g := (r.reserve m k n).reservation)
      fun x y hxy => update₂_of_ne _ _ hxy
    have := h.reserved_eq
    simp only [Records.reserve, update₂_self] at hsum ⊢
    omega
  reserved_le := hfree
  outstanding_eq := h.count_update₂ m k n _ (by simp [hnew, hn.ne'])

lemma redeem (hpos : r.reservation m k ≠ 0) : Agree (r.redeem m k) where
  supply_eq := h.supply_eq
  payable_eq := by
    have := h.payable_eq
    have := h.reservation_le_reserved m k
    have := h.reserved_le
    simp only [Records.redeem]
    omega
  covered := by
    have := h.covered
    have := h.reservation_le_payable m k
    simp only [Records.redeem]
    omega
  reserved_eq := by
    have hsum := sum_sum_write (f := r.reservation) (g := (r.redeem m k).reservation)
      fun x y hxy => update₂_of_ne _ _ hxy
    have := h.reserved_eq
    have := h.reservation_le_reserved m k
    simp only [Records.redeem, update₂_self] at hsum ⊢
    omega
  reserved_le := Nat.sub_le_sub_right h.reserved_le _
  outstanding_eq := by
    refine h.count_update₂ m k 0 _ ?_
    have hcount : 0 < r.outstanding m := by
      rw [h.outstanding_eq]
      exact card_pos.2 ⟨k, by simpa using hpos⟩
    simp only [ne_eq, hpos, not_false_eq_true, if_true, not_true_eq_false, if_false]
    omega

lemma withdraw (hfree : r.reserved + n ≤ r.seized) : Agree (r.withdraw n) where
  supply_eq := h.supply_eq
  payable_eq := by
    have := h.payable_eq
    simp only [Records.withdraw]
    omega
  covered := by
    have := h.covered
    have := h.seized_le_payable
    simp only [Records.withdraw]
    omega
  reserved_eq := h.reserved_eq
  reserved_le := by
    simp only [Records.withdraw]
    omega
  outstanding_eq := h.outstanding_eq

end

omit [DecidableEq ι] [DecidableEq μ] [DecidableEq κ] in
/-- Underlying assets may be added from outside. -/
lemma setCustody (h : Agree r) (hn : r.custody ≤ n) : Agree { r with custody := n } :=
  ⟨h.supply_eq, h.payable_eq, h.covered.trans hn, h.reserved_eq, h.reserved_le, h.outstanding_eq⟩

end Agree

end Escrow
