import Mathlib.Tactic.Linarith

/-!
# Checkpointed histories

A trace records the value of a variable at increasing keys, newest first. A write at the key
of the newest checkpoint overwrites it; a write at an older key is refused.
-/

namespace Checkpoints

structure Checkpoint (α : Type) where
  key : ℕ
  value : α
deriving DecidableEq, Repr

/-- Checkpoints, newest first. -/
abbrev Trace (α : Type) := List (Checkpoint α)

variable {α : Type}

namespace Trace

def push (t : Trace α) (key : ℕ) (value : α) : Option (Trace α) :=
  match t with
  | [] => some [⟨key, value⟩]
  | last :: older =>
    if key < last.key then none
    else if last.key = key then some (⟨key, value⟩ :: older)
    else some (⟨key, value⟩ :: last :: older)

variable [Inhabited α]

/-- The newest value, or the default one for an empty trace. -/
def latest : Trace α → α
  | [] => default
  | last :: _ => last.value

/-- The value of the newest checkpoint whose key is at most `key`, or the default one. -/
def upperLookup : Trace α → ℕ → α
  | [], _ => default
  | last :: older, key => if last.key ≤ key then last.value else upperLookup older key

/-! ## Recorded times -/

/-- The keys decrease from the newest checkpoint on, and none is after `now`. -/
structure Ordered (now : ℕ) (t : Trace α) : Prop where
  decreasing : t.Pairwise fun newer older => older.key < newer.key
  bound : ∀ c ∈ t, c.key ≤ now

omit [Inhabited α] in
lemma Ordered.nil (now : ℕ) : Ordered now ([] : Trace α) :=
  ⟨.nil, by simp⟩

omit [Inhabited α] in
lemma Ordered.mono (h : Ordered now t) (hle : now ≤ later) : Ordered later t :=
  ⟨h.decreasing, fun c hc => Nat.le_trans (h.bound c hc) hle⟩

/-- Nothing is recorded after `now`, so what held at that time still holds. -/
lemma Ordered.lookup_latest {now key : ℕ} {t : Trace α} (h : Ordered now t)
    (hle : now ≤ key) : t.upperLookup key = t.latest := by
  cases t with
  | nil => rfl
  | cons last older =>
    have hlast := h.bound last List.mem_cons_self
    simp only [upperLookup, latest, if_pos (Nat.le_trans hlast hle)]

lemma Ordered.lookup_now {t : Trace α} (h : Ordered now t) : t.upperLookup now = t.latest :=
  h.lookup_latest (Nat.le_refl now)

/-- A write at the present time is never refused. It decides the value from then on and leaves
the past as it was. -/
lemma Ordered.push (h : Ordered now t) (value : α) :
    ∃ t', t.push now value = some t' ∧ Ordered now t' ∧
      ∀ key, t'.upperLookup key = if now ≤ key then value else t.upperLookup key := by
  cases t with
  | nil => exact ⟨[⟨now, value⟩], rfl, ⟨by simp, by simp⟩, fun key => by simp [upperLookup]⟩
  | cons last older =>
    have hlast := h.bound last List.mem_cons_self
    have holder := List.pairwise_cons.1 h.decreasing
    simp only [Trace.push, if_neg (Nat.not_lt.2 hlast)]
    split_ifs with hsame
    · refine ⟨_, rfl, ⟨List.pairwise_cons.2 ⟨?_, holder.2⟩, ?_⟩, ?_⟩
      · grind
      · grind [h.bound]
      · intro key
        simp only [upperLookup, hsame]
        split_ifs <;> rfl
    · refine ⟨_, rfl, ⟨List.pairwise_cons.2 ⟨?_, h.decreasing⟩, ?_⟩, fun key => rfl⟩
      · grind
      · grind [h.bound]

/-- A new value recorded at the present time. -/
structure Records (now : ℕ) (value : α) (t t' : Trace α) : Prop where
  ordered : t'.Ordered now
  latest : t'.latest = value
  past : ∀ key < now, t'.upperLookup key = t.upperLookup key

end Trace

/-! ## Families of histories -/

section

variable {ι : Type} [Inhabited α] {now : ℕ} {latest : ι → α} {book book' : ι → Trace α}

/-- A family of histories, rewritten at the present time to the values `latest`. -/
structure Rewrites (now : ℕ) (latest : ι → α) (book book' : ι → Trace α) : Prop where
  ordered : ∀ i, (book' i).Ordered now
  past : ∀ key < now, ∀ i, (book' i).upperLookup key = (book i).upperLookup key
  latest : ∀ i, (book' i).latest = latest i

lemma Rewrites.refl (h : ∀ i, (book i).Ordered now) :
    Rewrites now (fun i => (book i).latest) book book :=
  ⟨h, fun _ _ _ => rfl, fun _ => rfl⟩

lemma Rewrites.trans (h : Rewrites now latest book book')
    (h' : Rewrites now latest' book' book'') : Rewrites now latest' book book'' :=
  ⟨h'.ordered, fun key hkey i => (h'.past key hkey i).trans (h.past key hkey i), h'.latest⟩

lemma Rewrites.write [DecidableEq ι] (h : Rewrites now latest book book')
    (ht : Trace.Records now value (book' i) t) :
    Rewrites now (Function.update latest i value) book (Function.update book' i t) where
  ordered j := by
    by_cases hj : j = i
    · subst hj
      simpa only [Function.update_self] using ht.ordered
    · simpa only [Function.update_of_ne hj] using h.ordered j
  past key hkey j := by
    by_cases hj : j = i
    · subst hj
      simpa only [Function.update_self] using (ht.past key hkey).trans (h.past key hkey j)
    · simpa only [Function.update_of_ne hj] using h.past key hkey j
  latest j := by
    by_cases hj : j = i
    · subst hj
      simpa only [Function.update_self] using ht.latest
    · simpa only [Function.update_of_ne hj] using h.latest j

end

end Checkpoints
