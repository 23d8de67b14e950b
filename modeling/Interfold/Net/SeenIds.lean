import Interfold.Library.OwnerQueues
import Interfold.Net.IngressLimits
import Mathlib.Data.PNat.Notation

/-!
# Seen ids

The bounded memory of the ids that a node has already handled, in one queue per peer. A full memory
gives up an id before its time. The order in which the peers are visited may change at any time.
-/

namespace Interfold.Net

open List

variable {P K : Type} [DecidableEq P] [DecidableEq K]

/-- `SEEN_TTL` in nanoseconds. -/
def seenTtl : ℕ := 6 * 60 * 60 * 10 ^ 9

structure SeenIds (P K : Type) where
  capacity : ℕ
  ids : Finset K
  peers : OwnerQueues (Option P) (ℕ × K)
  latest : Option (Option P)
  earlyEvictions : ℕ

inductive Admission where
  | new
  | duplicate

namespace SeenIds

def new (capacity : ℕ) : SeenIds P K := ⟨capacity, ∅, .empty, none, 0⟩

def isExpired (now : ℕ) (entry : ℕ × K) : Bool := seenTtl ≤ now - entry.1

variable (s : SeenIds P K)

def expire (now : ℕ) : SeenIds P K :=
  let gone := s.peers.owners.flatMap fun p => (s.peers.queue p).takeWhile (isExpired now)
  { s with
    ids := s.ids \ (gone.map Prod.snd).toFinset
    peers := s.peers.map (dropWhile (isExpired now)) rfl }

def contains (id : K) (now : ℕ) : Bool × SeenIds P K := (id ∈ (s.expire now).ids, s.expire now)

/-- The eviction of an id when the memory is full. An owner without ids is a panic. -/
def evict (peer : Option P) : Option (Option (Option P × K) × SeenIds P K) :=
  if s.capacity ≤ s.ids.card then
    let owner := evictionOwner peer (s.peers.owners.map fun p => (p, (s.peers.queue p).length))
      s.capacity
    match s.peers.queue owner with
    | [] => none
    | entry :: entries =>
      some (some (owner, entry.2), { s with
        ids := s.ids.erase entry.2
        peers := s.peers.set owner entries
        earlyEvictions := min (s.earlyEvictions + 1) (2 ^ 64 - 1) })
  else some (none, s)

/-- `admit`. Also returns the id that was evicted, and its owner. -/
def admitId (peer : Option P) (id : K) (now : ℕ) :
    Option (Admission × Option (Option P × K) × SeenIds P K) :=
  let (seen, s) := s.contains id now
  if seen then some (.duplicate, none, s)
  else (s.evict peer).map fun (evicted, s) =>
    (.new, evicted, { s with
      ids := insert id s.ids
      peers := s.peers.set peer (s.peers.queue peer ++ [(now, id)])
      latest := some peer })

/-- Also says whether the id was rolled back. -/
def rollbackLatest (id : K) : Bool × SeenIds P K :=
  match s.latest with
  | none => (false, s)
  | some peer =>
    if (s.peers.queue peer).getLast?.any (·.2 = id) then
      (true, { s with
        latest := none
        ids := s.ids.erase id
        peers := s.peers.set peer (s.peers.queue peer).dropLast })
    else (false, { s with latest := none })

/-! ## Runs -/

inductive Call (P K : Type) where
  | contains (id : K)
  | admitId (peer : Option P) (id : K)
  | rollbackLatest (id : K)
  | rehash (owners : List (Option P))

/-- The memory, the time of the last call that read the clock, and for every id that was admitted
and since then neither rolled back nor evicted, who brought it and when. -/
structure Run (P K : Type) where
  seen : SeenIds P K
  now : ℕ
  admitted : K → Option (Option P × ℕ)

def Run.without (r : Run P K) : Option (Option P × K) → K → Option (Option P × ℕ)
  | none, k => r.admitted k
  | some (_, old), k => if k = old then none else r.admitted k

def Run.after (r : Run P K) (peer : Option P) (id : K) (now : ℕ) :
    Admission × Option (Option P × K) × SeenIds P K → Run P K
  | (.duplicate, _, seen) => { r with seen, now }
  | (.new, evicted, seen) =>
    ⟨seen, now, fun k => if k = id then some (peer, now) else r.without evicted k⟩

/-- One call, some time after the one before. -/
def Run.step (r : Run P K) (call : ℕ × Call P K) : Option (Run P K) :=
  let now := r.now + call.1
  match call.2 with
  | .contains id => some { r with seen := (r.seen.contains id now).2, now }
  | .admitId peer id => (r.seen.admitId peer id now).map (r.after peer id now)
  | .rollbackLatest id =>
    let (rolledBack, seen) := r.seen.rollbackLatest id
    some ⟨seen, r.now, fun k => if rolledBack ∧ k = id then none else r.admitted k⟩
  | .rehash owners => some { r with seen.peers := r.seen.peers.reorder owners }

def run (capacity start : ℕ) (calls : List (ℕ × Call P K)) : Option (Run P K) :=
  calls.foldlM Run.step ⟨.new capacity, start, fun _ => none⟩

/-! ## The memory and the queues -/

/-- The ids in the queues. -/
def held : List K := s.peers.owners.flatMap fun p => (s.peers.queue p).map Prod.snd

/-- An eviction takes the oldest id of its owner. The owner is the peer itself or, unless there are
more peers than room, holds more than its share. -/
def Fair (peer : Option P) (evicted : Option (Option P × K)) : Prop :=
  ∀ owner old, evicted = some (owner, old) → (s.peers.queue owner).head?.map Prod.snd = some old ∧
      let n := (insert peer s.peers.owners.toFinset).card
      (n ≤ s.capacity → owner = peer ∨ s.capacity / n < (s.peers.queue owner).length)

def Live (admitted : K → Option (Option P × ℕ)) (now : ℕ) (id : K) (p : Option P) (t : ℕ) : Prop :=
  admitted id = some (p, t) ∧ now - t < seenTtl

structure Run.Good (c : ℕ+) (r : Run P K) : Prop where
  mem : ∀ p t id, (t, id) ∈ r.seen.peers.queue p ↔ Live r.admitted r.now id p t
  ids : ∀ id, id ∈ r.seen.ids ↔ ∃ p t, Live r.admitted r.now id p t
  ordered : ∀ p, (r.seen.peers.queue p).Pairwise fun a b => a.1 ≤ b.1 ∧ a.2 ≠ b.2
  past : ∀ id p t, r.admitted id = some (p, t) → t ≤ r.now
  capacity : r.seen.capacity = c
  small : r.seen.ids.card ≤ c

variable {c : ℕ+} {r : Run P K} {now : ℕ} {id : K} {l : List (ℕ × K)}

lemma filter_expired (now : ℕ) (h : l.Pairwise fun a b => a.1 ≤ b.1 ∧ a.2 ≠ b.2) :
    l.takeWhile (isExpired now) = l.filter (isExpired now) ∧
      l.dropWhile (isExpired now) = l.filter (!isExpired now ·) := by
  induction l with
  | nil => simp
  | cons e l ih =>
    obtain ⟨hfirst, hrest⟩ := pairwise_cons.1 h
    by_cases he : isExpired now e
    · simp [he, ih hrest]
    · have hlater : ∀ x ∈ l, isExpired now x = false := by
        simp only [isExpired] at *
        grind
      have hkept : l.filter (!isExpired now ·) = l := filter_eq_self.2 (by simpa using hlater)
      have hgone : l.filter (isExpired now) = [] := filter_eq_nil_iff.2 (by simpa using hlater)
      simp [he, hkept, hgone]

namespace Run.Good

variable (h : r.Good c)
include h

lemma mem_owners (hlive : Live r.admitted r.now id p t) : p ∈ r.seen.peers.owners :=
  (r.seen.peers.mem_owners p).2 (ne_nil_of_mem ((h.mem p t id).2 hlive))

lemma held : r.seen.held.Nodup ∧ r.seen.held.toFinset = r.seen.ids := by
  constructor
  · refine nodup_flatMap.2 ⟨fun p _ => ?_, r.seen.peers.nodup.imp fun {p p'} hne id hid hid' => ?_⟩
    · exact pairwise_map.2 ((h.ordered p).imp And.right)
    · have := h.mem
      grind [Live]
  · ext id
    have hown (p t) (hlive : Live r.admitted r.now id p t) := h.mem_owners hlive
    simp only [SeenIds.held, mem_toFinset, mem_flatMap, mem_map, h.ids, Prod.exists, h.mem]
    grind

lemma expire (hle : r.now ≤ now) : Good c { r with seen := r.seen.expire now, now } := by
  have hfilter (p) := filter_expired now (h.ordered p)
  refine ⟨fun p t id => ?_, fun id => ?_, fun p => (h.ordered p).sublist (dropWhile_sublist _),
    fun id p t ht => (h.past id p t ht).trans hle, h.capacity,
    (Finset.card_le_card Finset.sdiff_subset).trans h.small⟩
  · simp only [SeenIds.expire, OwnerQueues.map, hfilter]
    grind [h.mem p t id, isExpired, Live]
  · have hown (p t) (hlive : Live r.admitted r.now id p t) := h.mem_owners hlive
    simp only [SeenIds.expire, Finset.mem_sdiff, mem_toFinset, mem_map, mem_flatMap, hfilter,
      mem_filter, Prod.exists, h.mem, h.ids, isExpired, Live] at *
    grind

lemma forget (hq : r.seen.peers.queue p = a ++ e :: b) :
    Good c ⟨{ r.seen with
      ids := r.seen.ids.erase e.2
      peers := r.seen.peers.set p (a ++ b)
      latest := x
      earlyEvictions := n }, r.now, fun k => if k = e.2 then none else r.admitted k⟩ := by
  have hother : ∀ x ∈ a ++ b, x.2 ≠ e.2 := by
    have := h.ordered p
    simp only [hq, pairwise_append, pairwise_cons] at this
    grind
  have hmine := (h.mem p e.1 e.2).1 (by simp [hq])
  refine ⟨fun p' t id => ?_, fun id => ?_, fun p' => ?_, fun id p' t => ?_, h.capacity,
    Finset.card_erase_le.trans h.small⟩
  · grind [h.mem p' t id, Live]
  · have := h.ids id
    simp only [Live] at *
    grind
  · grind [h.ordered p']
  · have := h.past id p' t
    grind

lemma push (hid : id ∉ r.seen.ids) (hroom : r.seen.ids.card < c) :
    Good c ⟨{ r.seen with
      ids := insert id r.seen.ids
      peers := r.seen.peers.set peer (r.seen.peers.queue peer ++ [(r.now, id)])
      latest := some peer }, r.now,
      fun k => if k = id then some (peer, r.now) else r.admitted k⟩ := by
  have hpos : 0 < seenTtl := by decide
  have hnot (p t) : ¬ Live r.admitted r.now id p t := fun hlive => hid ((h.ids id).2 ⟨p, t, hlive⟩)
  refine ⟨fun p t k => ?_, fun k => ?_, fun p => ?_, fun k p t => ?_, h.capacity,
    (Finset.card_insert_le ..).trans hroom⟩
  · grind [h.mem p t k, Live]
  · rcases eq_or_ne k id with rfl | hk
    · simp [Live, hpos]
    · simp [Live, hk, h.ids]
  · have := h.ordered p
    have := h.past
    have := h.mem p
    simp only [OwnerQueues.queue_set]
    split_ifs
    · simp only [pairwise_append]
      grind [Live]
    · exact h.ordered p
  · have := h.past k p t
    grind

lemma evict (peer : Option P) : ∃ evicted s', r.seen.evict peer = some (evicted, s') ∧
    Good c ⟨s', r.now, r.without evicted⟩ ∧ s'.ids ⊆ r.seen.ids ∧ s'.ids.card < c ∧
      r.seen.Fair peer evicted := by
  unfold SeenIds.evict
  split_ifs with hfull
  · have hsum : r.seen.capacity ≤
        (r.seen.peers.owners.map fun p => (r.seen.peers.queue p).length).sum := by
      rw [← h.held.2, toFinset_card_of_nodup h.held.1] at hfull
      simpa [SeenIds.held, length_flatMap] using hfull
    obtain ⟨hmem, hfair⟩ := evictionOwner_spec peer r.seen.peers.nodup
      (by simp [r.seen.peers.mem_owners]) (h.capacity ▸ c.2) hsum
    dsimp only at hmem hfair ⊢
    generalize evictionOwner peer _ _ = owner at *
    cases hq : r.seen.peers.queue owner with
    | nil => exact absurd hq ((r.seen.peers.mem_owners owner).1 hmem)
    | cons e entries =>
      refine ⟨_, _, rfl, ?_⟩
      refine ⟨h.forget (a := []) hq, Finset.erase_subset .., ?_, ?_⟩
      · have hid : e.2 ∈ r.seen.ids := (h.ids _).2 ⟨_, _, (h.mem owner e.1 e.2).1 (by simp [hq])⟩
        exact (Finset.card_erase_lt_of_mem hid).trans_le h.small
      · rintro _ _ ⟨⟩
        exact ⟨by simp [hq], hfair⟩
  · rw [h.capacity, not_le] at hfull
    exact ⟨none, r.seen, rfl, h, subset_rfl, hfull, nofun⟩

lemma admitId (hle : r.now ≤ now) (peer : Option P) (id : K) :
    ∃ result evicted seen, r.seen.admitId peer id now = some (result, evicted, seen) ∧
      (result = .duplicate ↔ ∃ p t, Live r.admitted now id p t) ∧
      (r.seen.expire now).Fair peer evicted ∧
      Good c (r.after peer id now (result, evicted, seen)) := by
  have hexp := h.expire hle
  have hids := hexp.ids id
  by_cases hid : id ∈ (r.seen.expire now).ids
  · exact ⟨.duplicate, none, _, by simp [SeenIds.admitId, contains, hid], by simpa [hid] using hids,
      nofun, hexp⟩
  · obtain ⟨evicted, s', hevict, hgood, hsub, hroom, hfair⟩ := hexp.evict peer
    refine ⟨.new, evicted, _, ?_, by simpa [hid] using hids, hfair,
      hgood.push (fun hmem => hid (hsub hmem)) hroom⟩
    simp only [SeenIds.admitId, contains, hid, decide_false, hevict]
    rfl

lemma step (call : ℕ × Call P K) : ∃ r', r.step call = some r' ∧ Good c r' := by
  obtain ⟨elapsed, call⟩ := call
  have hle : r.now ≤ r.now + elapsed := Nat.le_add_right ..
  cases call with
  | contains id => exact ⟨_, rfl, h.expire hle⟩
  | admitId peer id =>
    obtain ⟨result, evicted, seen, hadmit, -, -, hgood⟩ := h.admitId hle peer id
    refine ⟨_, ?_, hgood⟩
    simp [Run.step, hadmit]
  | rollbackLatest id =>
    refine ⟨_, rfl, ?_⟩
    cases hlatest : r.seen.latest with
    | none => simpa [SeenIds.rollbackLatest, hlatest] using h
    | some peer =>
      by_cases hlast : (r.seen.peers.queue peer).getLast?.any (·.2 = id)
      · obtain ⟨e, he, rfl⟩ : ∃ e, (r.seen.peers.queue peer).getLast? = some e ∧ e.2 = id := by
          simpa [Option.any_eq_true] using hlast
        obtain ⟨a, hq⟩ := getLast?_eq_some_iff.1 he
        simpa [SeenIds.rollbackLatest, hlatest, hq] using h.forget (b := []) hq
      · simp only [hlast]
        exact ⟨h.mem, h.ids, h.ordered, h.past, h.capacity, h.small⟩
  | rehash owners =>
    exact ⟨_, rfl, by simpa using h.mem, h.ids, by simpa using h.ordered, h.past, h.capacity,
      h.small⟩

end Run.Good

end SeenIds

end Interfold.Net
