import Interfold.Library.Ledger

/-!
# Collateral held in custody

Accounts of type `ι` hold collateral, each for an owner of type `κ`. The custodian records what
it owes in four redundant ways: per account, per owner, as one liability and as the balance of
tokens it keeps. Seized collateral leaves its account but stays a liability until it is
withdrawn. Every operation below keeps the four records in step.
-/

namespace Custody

open Finset Function Ledger

/-- The records of a custodian. -/
@[ext]
structure Records (ι κ : Type*) where
  holding : ι → ℕ
  ownerOf : ι → κ
  byOwner : κ → ℕ
  liability : ℕ
  seized : ℕ
  balance : ℕ

variable {ι κ : Type*} [Fintype ι] [DecidableEq κ]

/-- The four records agree, and an account whose owner is `unset` holds nothing. -/
structure Agree (unset : κ) (r : Records ι κ) : Prop where
  liability_eq : r.liability = ∑ i, r.holding i + r.seized
  byOwner_eq : ∀ o, r.byOwner o = ∑ i, if r.ownerOf i = o then r.holding i else 0
  unowned : ∀ i, r.ownerOf i = unset → r.holding i = 0
  covered : r.liability ≤ r.balance

namespace Records

variable [DecidableEq ι]

variable (r : Records ι κ)

def deposit (i : ι) (n : ℕ) : Records ι κ :=
  { r with
    holding := update r.holding i (r.holding i + n)
    byOwner := update r.byOwner (r.ownerOf i) (r.byOwner (r.ownerOf i) + n)
    liability := r.liability + n
    balance := r.balance + n }

def release (i : ι) (n : ℕ) : Records ι κ :=
  { r with
    holding := update r.holding i (r.holding i - n)
    byOwner := update r.byOwner (r.ownerOf i) (r.byOwner (r.ownerOf i) - n)
    liability := r.liability - n
    balance := r.balance - n }

def seize (i : ι) (n : ℕ) : Records ι κ :=
  { r with
    holding := update r.holding i (r.holding i - n)
    byOwner := update r.byOwner (r.ownerOf i) (r.byOwner (r.ownerOf i) - n)
    seized := r.seized + n }

def withdraw (n : ℕ) : Records ι κ :=
  { r with seized := r.seized - n, liability := r.liability - n, balance := r.balance - n }

/-- Hands everything account `i` holds to owner `o`. -/
def reassign (i : ι) (o : κ) : Records ι κ :=
  let byOwner := update r.byOwner (r.ownerOf i) (r.byOwner (r.ownerOf i) - r.holding i)
  { r with
    ownerOf := update r.ownerOf i o
    byOwner := update byOwner o (byOwner o + r.holding i) }

end Records

namespace Agree

variable {unset : κ} {r : Records ι κ}

/-- The owners together hold no more than the custodian keeps. -/
lemma sum_byOwner_le [Fintype κ] (h : Agree unset r) : ∑ o, r.byOwner o ≤ r.balance := by
  have hsum : ∑ o, r.byOwner o = ∑ i, r.holding i := by
    simp only [h.byOwner_eq]
    rw [sum_comm]
    exact sum_congr rfl fun i _ => by simp
  have := h.liability_eq
  have := h.covered
  omega

lemma holding_le_liability (h : Agree unset r) (i : ι) : r.holding i ≤ r.liability := by
  have := le_sum r.holding i
  have := h.liability_eq
  omega

lemma holding_le_byOwner (h : Agree unset r) (i : ι) : r.holding i ≤ r.byOwner (r.ownerOf i) := by
  rw [h.byOwner_eq]
  simpa using le_sum (fun j => if r.ownerOf j = r.ownerOf i then r.holding j else 0) i

variable {n : ℕ} {i : ι}

/-- A balance may move freely as long as it still covers the liability. -/
lemma setBalance (h : Agree unset r) (hn : r.liability ≤ n) : Agree unset { r with balance := n } :=
  ⟨h.liability_eq, h.byOwner_eq, h.unowned, hn⟩

variable [DecidableEq ι]

/-- Writing one account's holding moves the total of its owner by the same amount, and no
other total. -/
lemma byOwner_write (h : Agree unset r) (hm : m + r.holding i = r.byOwner (r.ownerOf i) + n)
    (o : κ) : update r.byOwner (r.ownerOf i) m o =
      ∑ j, if r.ownerOf j = o then update r.holding i n j else 0 := by
  have hw := sum_write (a := i) (f := fun j => if r.ownerOf j = o then r.holding j else 0)
    (g := fun j => if r.ownerOf j = o then update r.holding i n j else 0)
    (fun j hj => by simp [hj])
  rw [← h.byOwner_eq] at hw
  by_cases ho : r.ownerOf i = o
  · subst ho
    simp only [if_true, update_self] at hw ⊢
    omega
  · simp only [ho, if_false, add_zero] at hw
    rw [update_of_ne (Ne.symm ho), hw]

omit [DecidableEq κ] in
lemma sum_holding_write (r : Records ι κ) (i : ι) (n : ℕ) :
    ∑ j, update r.holding i n j + r.holding i = ∑ j, r.holding j + n := by
  simpa using sum_write (a := i) (f := r.holding) (g := update r.holding i n)
    (fun j hj => update_of_ne hj ..)

lemma deposit (h : Agree unset r) (howner : r.ownerOf i ≠ unset) (n : ℕ) :
    Agree unset (r.deposit i n) where
  liability_eq := by
    have := h.liability_eq
    have := sum_holding_write r i (r.holding i + n)
    simp only [Records.deposit]
    omega
  byOwner_eq := h.byOwner_write (by omega)
  unowned := by
    intro j hj
    have hne : j ≠ i := fun e => howner (e ▸ hj)
    simpa [Records.deposit, hne] using h.unowned j hj
  covered := Nat.add_le_add_right h.covered n

lemma unowned_write (h : Agree unset r) (i : ι) (n : ℕ) :
    ∀ j, r.ownerOf j = unset → update r.holding i (r.holding i - n) j = 0 := by
  intro j hj
  have := h.unowned j hj
  by_cases hji : j = i
  · subst hji
    simp [this]
  · simp [hji, this]

lemma release (h : Agree unset r) (hn : n ≤ r.holding i) : Agree unset (r.release i n) where
  liability_eq := by
    have := h.liability_eq
    have := h.holding_le_liability i
    have := sum_holding_write r i (r.holding i - n)
    simp only [Records.release]
    omega
  byOwner_eq := by
    have := h.holding_le_byOwner i
    exact h.byOwner_write (by omega)
  unowned := h.unowned_write i n
  covered := Nat.sub_le_sub_right h.covered n

lemma seize (h : Agree unset r) (hn : n ≤ r.holding i) : Agree unset (r.seize i n) where
  liability_eq := by
    have := h.liability_eq
    have := sum_holding_write r i (r.holding i - n)
    simp only [Records.seize]
    omega
  byOwner_eq := by
    have := h.holding_le_byOwner i
    exact h.byOwner_write (by omega)
  unowned := h.unowned_write i n
  covered := h.covered

omit [DecidableEq ι] in
lemma withdraw (h : Agree unset r) {n : ℕ} (hn : n ≤ r.seized) : Agree unset (r.withdraw n) where
  liability_eq := by
    have := h.liability_eq
    simp only [Records.withdraw]
    omega
  byOwner_eq := h.byOwner_eq
  unowned := h.unowned
  covered := Nat.sub_le_sub_right h.covered n

lemma reassign (h : Agree unset r) (ho : o ≠ unset) : Agree unset (r.reassign i o) where
  liability_eq := h.liability_eq
  byOwner_eq := by
    intro o'
    have hw := sum_write (a := i) (f := fun j => if r.ownerOf j = o' then r.holding j else 0)
      (g := fun j => if update r.ownerOf i o j = o' then r.holding j else 0)
      (fun j hj => by simp [hj])
    rw [← h.byOwner_eq, update_self] at hw
    have hle := h.holding_le_byOwner i
    change update (update r.byOwner (r.ownerOf i) (r.byOwner (r.ownerOf i) - r.holding i)) o
      (update r.byOwner (r.ownerOf i) (r.byOwner (r.ownerOf i) - r.holding i) o + r.holding i) o' =
        ∑ j, if update r.ownerOf i o j = o' then r.holding j else 0
    by_cases hnew : o = o' <;> by_cases hold : r.ownerOf i = o'
    · subst hnew
      simp only [hold, if_true, update_self] at hw hle ⊢
      omega
    · subst hnew
      simp only [hold, if_true, if_false, update_self, update_of_ne (Ne.symm hold)] at hw ⊢
      omega
    · subst hold
      simp only [hnew, if_true, if_false, update_self, update_of_ne (Ne.symm hnew)] at hw ⊢
      omega
    · simp only [hnew, hold, if_false, update_of_ne (Ne.symm hnew),
        update_of_ne (Ne.symm hold)] at hw ⊢
      omega
  unowned := by
    intro j hj
    have hne : j ≠ i := by
      rintro rfl
      simp [Records.reassign] at hj
      exact ho hj
    simp only [Records.reassign, update_of_ne hne] at hj ⊢
    exact h.unowned j hj
  covered := h.covered

end Agree

end Custody
