import Interfold.Library.BigEndian
import Interfold.Library.CausalOrder

/-!
# Hybrid logical clock

A clock hands out timestamps made of a physical time, a logical counter and the identifier of its
node. It moves on when the physical time does, when it hands out a timestamp, when it receives one,
and when it is seeded from durable history. Physical time may stall or go back: the pair of time
and counter only ever grows.

The clock of the process is read once in every call; the reading is an argument here, and may
fail. The state behind the mutex is passed explicitly, so a call that fails shows what it left.
-/

namespace Interfold.Clock

open BigEndian Function

/-! ## Timestamps -/

structure HlcTimestamp where
  ts : UInt64
  counter : UInt32
  node : UInt32
deriving DecidableEq

inductive HlcError where
  | invalidLength (expected got : ℕ)
  | clockError
  | driftExceeded (remoteTs localTs maxDrift : UInt64)
  | counterOverflow (ts : UInt64)
deriving DecidableEq

namespace HlcTimestamp

variable (t : HlcTimestamp)

/-- Sixteen bytes: the time, the counter and the node, each big-endian. -/
def pack : List UInt8 :=
  encode 8 t.ts.toNat ++ (encode 4 t.counter.toNat ++ encode 4 t.node.toNat)

def unpack (bytes : List UInt8) : HlcTimestamp where
  ts := UInt64.ofNat (decode (bytes.take 8))
  counter := UInt32.ofNat (decode ((bytes.drop 8).take 4))
  node := UInt32.ofNat (decode ((bytes.drop 12).take 4))

def toU128 : ℕ := decode t.pack

def fromU128 (n : ℕ) : HlcTimestamp := unpack (encode 16 n)

def unpackSlice (bytes : List UInt8) : Except HlcError HlcTimestamp :=
  if bytes.length ≠ 16 then .error (.invalidLength 16 bytes.length) else .ok (unpack bytes)

variable (a b : HlcTimestamp)

def cmp : Ordering :=
  ((compare a.ts b.ts).then (compare a.counter b.counter)).then (compare a.node b.node)

/-- The part of a timestamp that the clock advances, as one number. -/
def rank (ts : UInt64) (counter : UInt32) : ℕ := ts.toNat * 2 ^ 32 + counter.toNat

lemma toU128_eq : t.toU128 = rank t.ts t.counter * 2 ^ 32 + t.node.toNat := by
  have hts : t.ts.toNat < 256 ^ 8 := t.ts.toNat_lt
  have hctr : t.counter.toNat < 256 ^ 4 := t.counter.toNat_lt
  have hnode : t.node.toNat < 256 ^ 4 := t.node.toNat_lt
  rw [toU128, pack, decode_append, decode_append, decode_encode hts, decode_encode hctr,
    decode_encode hnode, List.length_append, length_encode, length_encode, rank]
  ring

lemma compare_u64 (a b : UInt64) : compare a b = compare a.toNat b.toNat := by
  simp [compare, compareOfLessAndEq, UInt64.lt_iff_toNat_lt, ← UInt64.toNat_inj]

lemma compare_u32 (a b : UInt32) : compare a b = compare a.toNat b.toNat := by
  simp [compare, compareOfLessAndEq, UInt32.lt_iff_toNat_lt, ← UInt32.toNat_inj]

/-- The comparison of timestamps is that of their 128-bit numbers. -/
lemma cmp_eq : a.cmp b = compare a.toU128 b.toU128 := by
  rw [toU128_eq, toU128_eq, compare_digits a.node.toNat_lt b.node.toNat_lt, rank, rank,
    compare_digits a.counter.toNat_lt b.counter.toNat_lt, cmp, compare_u64, compare_u32, compare_u32]

instance : LT HlcTimestamp := ⟨fun a b => a.cmp b = .lt⟩

instance : LE HlcTimestamp := ⟨fun a b => a.cmp b ≠ .gt⟩

lemma lt_iff : a < b ↔ a.toU128 < b.toU128 := by
  change a.cmp b = .lt ↔ _
  rw [cmp_eq, Nat.compare_eq_lt]

lemma le_iff : a ≤ b ↔ a.toU128 ≤ b.toU128 := by
  change a.cmp b ≠ .gt ↔ _
  rw [cmp_eq, Ne, Nat.compare_eq_gt, Nat.not_lt]

instance : DecidableLT HlcTimestamp := fun a b => inferInstanceAs (Decidable (a.cmp b = .lt))

instance : Preorder HlcTimestamp where
  le_refl a := (le_iff a a).2 le_rfl
  le_trans a b c hab hbc := (le_iff a c).2 (((le_iff a b).1 hab).trans ((le_iff b c).1 hbc))
  lt_iff_le_not_ge a b := by
    rw [lt_iff, le_iff, le_iff]
    omega

lemma lt_of_rank_lt {a b : HlcTimestamp} (h : rank a.ts a.counter < rank b.ts b.counter) :
    a < b := by
  have hnode : a.node.toNat < 2 ^ 32 := a.node.toNat_lt
  rw [lt_iff, toU128_eq, toU128_eq]
  omega

lemma unpack_pack : unpack t.pack = t := by
  have hts : t.ts.toNat < 256 ^ 8 := t.ts.toNat_lt
  have hctr : t.counter.toNat < 256 ^ 4 := t.counter.toNat_lt
  have hnode : t.node.toNat < 256 ^ 4 := t.node.toNat_lt
  have hrest : t.pack.drop 8 = encode 4 t.counter.toNat ++ encode 4 t.node.toNat :=
    List.drop_left' (length_encode 8 _)
  have hlast : t.pack.drop 12 = encode 4 t.node.toNat := by
    rw [show 12 = 8 + 4 from rfl, ← List.drop_drop, hrest]
    exact List.drop_left' (length_encode 4 _)
  have hnode' : (encode 4 t.node.toNat).take 4 = encode 4 t.node.toNat :=
    List.take_of_length_le (by simp)
  rw [unpack, hrest, hlast, hnode', List.take_left' (length_encode 4 _), pack,
    List.take_left' (length_encode 8 _), decode_encode hts, decode_encode hctr,
    decode_encode hnode, UInt64.ofNat_toNat, UInt32.ofNat_toNat, UInt32.ofNat_toNat]

/-- A timestamp survives the conversion to a 128-bit number and back. -/
lemma fromU128_toU128 : fromU128 t.toU128 = t := by
  have hlen : t.pack.length = 16 := by simp [pack]
  rw [fromU128, toU128, ← hlen, encode_decode, unpack_pack]

lemma pack_unpack (h : bytes.length = 16) : (unpack bytes).pack = bytes := by
  have hpart (part : List UInt8) : decode part < 256 ^ part.length ∧
    encode part.length (decode part) = part := ⟨decode_lt part, encode_decode part⟩
  have hts := hpart (bytes.take 8)
  have hctr := hpart ((bytes.drop 8).take 4)
  have hnode := hpart ((bytes.drop 12).take 4)
  simp only [List.length_take, List.length_drop, h] at hts hctr hnode
  rw [pack, unpack, UInt64.toNat_ofNat_of_lt' hts.1, UInt32.toNat_ofNat_of_lt' hctr.1,
    UInt32.toNat_ofNat_of_lt' hnode.1]
  refine (congr_arg₂ _ hts.2 (congr_arg₂ _ hctr.2 hnode.2)).trans ?_
  rw [← List.append_assoc, ← List.take_add]
  exact List.take_add.symm.trans (List.take_of_length_le h.le)

/-- The sixteen bytes, and the numbers below `2 ^ 128`, are the timestamps, in the same order. -/
theorem wire_format (a b : HlcTimestamp) (bytes : List UInt8) :
    (unpackSlice bytes = .ok a ↔ bytes = a.pack) ∧ (a < b ↔ a.pack < b.pack) ∧
      (∀ n < 2 ^ 128, fromU128 n = a ↔ n = a.toU128) := by
  have hlen : a.pack.length = 16 := by simp [pack]
  refine ⟨?_, ?_, ?_⟩
  · unfold unpackSlice
    split_ifs with h
    · exact ⟨nofun, fun heq => (h (heq ▸ hlen)).elim⟩
    · rw [Except.ok.injEq]
      exact ⟨fun heq => heq ▸ (pack_unpack (not_not.1 h)).symm, fun heq => heq ▸ unpack_pack a⟩
  · rw [lt_iff_decode (by simp [pack])]
    exact lt_iff a b
  · intro n hn
    constructor
    · rintro rfl
      rw [fromU128, toU128, pack_unpack (length_encode ..), decode_encode hn]
    · rintro rfl
      exact fromU128_toU128 a

end HlcTimestamp

open HlcTimestamp

/-! ## The clock -/

/-- What does not change about a clock. -/
structure Hlc where
  node : UInt32
  maxDrift : UInt64

/-- `DEFAULT_MAX_DRIFT`: five minutes, in microseconds. -/
def defaultMaxDrift : UInt64 := 5 * 60 * 1000000

def Hlc.new (node : UInt32) : Hlc := ⟨node, defaultMaxDrift⟩

structure HlcInner where
  ts : UInt64
  counter : UInt32
deriving DecidableEq

def HlcInner.rank (s : HlcInner) : ℕ := HlcTimestamp.rank s.ts s.counter

def checkedAddOne64 (a : UInt64) : Option UInt64 :=
  if a.toNat + 1 < 2 ^ 64 then some (a + 1) else none

def checkedAddOne32 (a : UInt32) : Option UInt32 :=
  if a.toNat + 1 < 2 ^ 32 then some (a + 1) else none

def saturatingAdd (a b : UInt64) : UInt64 :=
  if a.toNat + b.toNat < 2 ^ 64 then a + b else UInt64.ofNat (2 ^ 64 - 1)

/-- The clock reading, or why there is none. -/
def nowPhysical (reading : Option UInt64) : Except HlcError UInt64 :=
  reading.elim (.error .clockError) .ok

namespace Hlc

variable (h : Hlc) (reading : Option UInt64)

/-- Stores a new state and hands it out as a timestamp. -/
def issue (s : HlcInner) : Except HlcError HlcTimestamp × HlcInner :=
  (.ok ⟨s.ts, s.counter, h.node⟩, s)

/-- Counts one up from a time and a counter, carrying into the time. -/
def count (ts : UInt64) (counter : UInt32) (s : HlcInner) :
    Except HlcError HlcTimestamp × HlcInner :=
  match checkedAddOne32 counter with
  | some c => h.issue ⟨ts, c⟩
  | none =>
    match checkedAddOne64 ts with
    | some ts' => h.issue ⟨ts', 0⟩
    | none => (.error (.counterOverflow ts), s)

def tick (s : HlcInner) : Except HlcError HlcTimestamp × HlcInner :=
  match nowPhysical reading with
  | .error e => (.error e, s)
  | .ok now => if s.ts < now then h.issue ⟨now, 0⟩ else h.count s.ts s.counter s

def latestAdmissible : Except HlcError HlcTimestamp :=
  (nowPhysical reading).map fun now =>
    ⟨saturatingAdd now h.maxDrift, UInt32.ofNat (2 ^ 32 - 1), UInt32.ofNat (2 ^ 32 - 1)⟩

/-- The counter of whichever side has the largest time. -/
def newCounter (maxTs : UInt64) (remote : HlcTimestamp) (s : HlcInner) : UInt32 :=
  if maxTs = s.ts ∧ maxTs = remote.ts then max s.counter remote.counter
  else if maxTs = s.ts then s.counter
  else remote.counter

def receive (remote : HlcTimestamp) (s : HlcInner) : Except HlcError HlcTimestamp × HlcInner :=
  match nowPhysical reading with
  | .error e => (.error e, s)
  | .ok now =>
    if saturatingAdd now h.maxDrift < remote.ts then
      (.error (.driftExceeded remote.ts now h.maxDrift), s)
    else
      let maxTs := max (max s.ts remote.ts) now
      if maxTs = now ∧ maxTs ≠ s.ts ∧ maxTs ≠ remote.ts then h.issue ⟨now, 0⟩
      else h.count maxTs (newCounter maxTs remote s) s

/-- `(persisted.ts, persisted.counter) > (inner.ts, inner.counter)` compares the time first. -/
def seedFromHistory (persisted : HlcTimestamp) (s : HlcInner) : HlcInner :=
  if s.ts < persisted.ts ∨ s.ts = persisted.ts ∧ s.counter < persisted.counter then
    ⟨persisted.ts, persisted.counter⟩
  else s

/-! ## What a call does -/

variable {h reading} {s s' : HlcInner} {t : HlcTimestamp}

/-- A call that handed out `t` moved the clock from `s` to `s'`. -/
structure Issues (h : Hlc) (s s' : HlcInner) (t : HlcTimestamp) : Prop where
  advances : s.rank < s'.rank
  stamp : t = ⟨s'.ts, s'.counter, h.node⟩

variable {ts : UInt64} {c : UInt32} {e : HlcError} {remote : HlcTimestamp}

lemma rank_of_checkedAddOne32 (hc : checkedAddOne32 c = some c') :
    HlcTimestamp.rank ts c' = HlcTimestamp.rank ts c + 1 := by
  unfold checkedAddOne32 at hc
  split_ifs at hc with hlt
  obtain rfl := Option.some.inj hc
  have hadd : (c + 1).toNat = c.toNat + 1 := by
    rw [UInt32.toNat_add]
    exact Nat.mod_eq_of_lt hlt
  rw [HlcTimestamp.rank, HlcTimestamp.rank, hadd]
  omega

lemma rank_of_carry (hc : checkedAddOne32 c = none) (hts : checkedAddOne64 ts = some ts') :
    HlcTimestamp.rank ts' 0 = HlcTimestamp.rank ts c + 1 := by
  unfold checkedAddOne32 at hc
  unfold checkedAddOne64 at hts
  split_ifs at hc hts with hfull hlt
  obtain rfl := Option.some.inj hts
  have hadd : (ts + 1).toNat = ts.toNat + 1 := by
    rw [UInt64.toNat_add]
    exact Nat.mod_eq_of_lt hlt
  have hmax : c.toNat < 2 ^ 32 := c.toNat_lt
  have hzero : (0 : UInt32).toNat = 0 := rfl
  rw [HlcTimestamp.rank, HlcTimestamp.rank, hadd, hzero]
  omega

lemma count_ok (hrun : h.count ts c s = (.ok t, s')) :
    s'.rank = HlcTimestamp.rank ts c + 1 ∧ t = ⟨s'.ts, s'.counter, h.node⟩ := by
  unfold count at hrun
  split at hrun
  next c' hc =>
    cases hrun
    exact ⟨rank_of_checkedAddOne32 hc, rfl⟩
  next hc =>
    split at hrun
    next ts' hts =>
      cases hrun
      exact ⟨rank_of_carry hc hts, rfl⟩
    next => cases hrun

lemma count_error (hrun : h.count ts c s = (.error e, s')) : s' = s ∧ e = .counterOverflow ts := by
  unfold count at hrun
  split at hrun
  · cases hrun
  · split at hrun
    · cases hrun
    · cases hrun
      exact ⟨rfl, rfl⟩

lemma rank_lt_of_ts_lt (hlt : ts < now) : HlcTimestamp.rank ts c < HlcTimestamp.rank now 0 := by
  have hlt' := UInt64.lt_iff_toNat_lt.1 hlt
  have hc : c.toNat < 2 ^ 32 := c.toNat_lt
  unfold HlcTimestamp.rank
  omega

lemma tick_ok (hrun : h.tick reading s = (.ok t, s')) : Issues h s s' t := by
  unfold tick at hrun
  split at hrun
  · cases hrun
  · split_ifs at hrun with hlt
    · cases hrun
      exact ⟨rank_lt_of_ts_lt hlt, rfl⟩
    · obtain ⟨hrank, hstamp⟩ := count_ok hrun
      refine ⟨?_, hstamp⟩
      rw [hrank]
      exact Nat.lt_succ_self _

lemma tick_error (hrun : h.tick reading s = (.error e, s')) : s' = s := by
  unfold tick at hrun
  split at hrun
  · cases hrun
    rfl
  · split_ifs at hrun
    · cases hrun
    · exact (count_error hrun).1

lemma toNat_max64 (a b : UInt64) : (max a b).toNat = max a.toNat b.toNat := by
  change (if a ≤ b then b else a).toNat = _
  split_ifs with hle
  · exact (max_eq_right (UInt64.le_iff_toNat_le.1 hle)).symm
  · rw [UInt64.le_iff_toNat_le] at hle
    exact (max_eq_left (by omega)).symm

lemma toNat_max32 (a b : UInt32) : (max a b).toNat = max a.toNat b.toNat := by
  change (if a ≤ b then b else a).toNat = _
  split_ifs with hle
  · exact (max_eq_right (UInt32.le_iff_toNat_le.1 hle)).symm
  · rw [UInt32.le_iff_toNat_le] at hle
    exact (max_eq_left (by omega)).symm

/-- The time and counter that `receive` counts up from dominate both sides. -/
lemma rank_le_newCounter (now : UInt64) (remote : HlcTimestamp) (s : HlcInner) :
    s.rank ≤ HlcTimestamp.rank (max (max s.ts remote.ts) now)
        (newCounter (max (max s.ts remote.ts) now) remote s) ∧
      HlcTimestamp.rank remote.ts remote.counter ≤ HlcTimestamp.rank (max (max s.ts remote.ts) now)
          (newCounter (max (max s.ts remote.ts) now) remote s) := by
  have hc : s.counter.toNat < 2 ^ 32 := s.counter.toNat_lt
  have hc' : remote.counter.toNat < 2 ^ 32 := remote.counter.toNat_lt
  simp only [newCounter, HlcInner.rank, HlcTimestamp.rank, ← UInt64.toNat_inj, toNat_max64]
  split_ifs with hboth hown
  · rw [toNat_max32]
    omega
  · omega
  · omega

lemma receive_ok (hrun : h.receive reading remote s = (.ok t, s')) :
    Issues h s s' t ∧ HlcTimestamp.rank remote.ts remote.counter < s'.rank := by
  dsimp only [receive] at hrun
  split at hrun
  · cases hrun
  next now _ =>
    split_ifs at hrun with hdrift hnow
    · cases hrun
    · -- Physical time is ahead of both sides.
      cases hrun
      simp only [ne_eq, ← UInt64.toNat_inj, toNat_max64] at hnow
      refine ⟨⟨rank_lt_of_ts_lt (UInt64.lt_iff_toNat_lt.2 ?_), rfl⟩,
        rank_lt_of_ts_lt (UInt64.lt_iff_toNat_lt.2 ?_)⟩
      · change s.ts.toNat < now.toNat
        omega
      · change remote.ts.toNat < now.toNat
        omega
    · obtain ⟨hrank, hstamp⟩ := count_ok hrun
      obtain ⟨hown, hremote⟩ := rank_le_newCounter now remote s
      refine ⟨⟨?_, hstamp⟩, ?_⟩
      · rw [hrank]
        exact Nat.lt_succ_of_le hown
      · rw [hrank]
        exact Nat.lt_succ_of_le hremote

lemma receive_error (hrun : h.receive reading remote s = (.error e, s')) : s' = s := by
  dsimp only [receive] at hrun
  split at hrun
  · cases hrun
    rfl
  · split_ifs at hrun
    · cases hrun
      rfl
    · cases hrun
    · exact (count_error hrun).1

lemma rank_seedFromHistory (persisted : HlcTimestamp) (s : HlcInner) :
    s.rank ≤ (seedFromHistory persisted s).rank ∧
      HlcTimestamp.rank persisted.ts persisted.counter ≤ (seedFromHistory persisted s).rank := by
  have hc : s.counter.toNat < 2 ^ 32 := s.counter.toNat_lt
  have hc' : persisted.counter.toNat < 2 ^ 32 := persisted.counter.toNat_lt
  unfold seedFromHistory
  split_ifs with hlt
  all_goals
    simp only [UInt64.lt_iff_toNat_lt, UInt32.lt_iff_toNat_lt, ← UInt64.toNat_inj] at hlt
    simp only [HlcInner.rank, HlcTimestamp.rank]
    omega

/-- Nothing is later than the largest counter and node at a time. -/
lemma latest_lt_iff (ts : UInt64) (t : HlcTimestamp) :
    (⟨ts, UInt32.ofNat (2 ^ 32 - 1), UInt32.ofNat (2 ^ 32 - 1)⟩ : HlcTimestamp) < t ↔ ts < t.ts := by
  have hctr : t.counter.toNat < 2 ^ 32 := t.counter.toNat_lt
  have hnode : t.node.toNat < 2 ^ 32 := t.node.toNat_lt
  have hmax : (UInt32.ofNat (2 ^ 32 - 1)).toNat = 2 ^ 32 - 1 := rfl
  rw [HlcTimestamp.lt_iff, toU128_eq, toU128_eq, UInt64.lt_iff_toNat_lt]
  simp only [HlcTimestamp.rank, hmax]
  omega

/-- The drift check rejects exactly what is later than the latest admissible timestamp. -/
lemma receive_drift_iff (remote : HlcTimestamp) (s : HlcInner) :
    (∃ a b c, (h.receive reading remote s).1 = .error (.driftExceeded a b c)) ↔
      ∃ l, h.latestAdmissible reading = .ok l ∧ l < remote := by
  cases reading with
  | none => simp [receive, latestAdmissible, nowPhysical, Except.map]
  | some now =>
    simp only [latestAdmissible, nowPhysical, Option.elim, Except.map, Except.ok.injEq,
      exists_eq_left', latest_lt_iff]
    constructor
    · rintro ⟨a, b, c, hrun⟩
      by_contra hnot
      obtain ⟨r, s', hr⟩ : ∃ r s', h.receive (some now) remote s = (r, s') := ⟨_, _, rfl⟩
      rw [hr] at hrun
      dsimp only [receive, nowPhysical, Option.elim] at hr
      rw [if_neg hnot] at hr
      split_ifs at hr
      · cases hr
        cases hrun
      · obtain rfl : r = _ := hrun
        exact HlcError.noConfusion (count_error hr).2
    · intro hlt
      refine ⟨remote.ts, now, h.maxDrift, ?_⟩
      dsimp only [receive, nowPhysical, Option.elim]
      rw [if_pos hlt]

end Hlc

/-! ## Networks of clocks -/

/-- Any number of clocks, no two with the same node identifier. -/
structure Network (ι : Type*) where
  clock : ι → Hlc
  node_injective : Injective fun i => (clock i).node

inductive Op where
  | tick
  | receive (remote : HlcTimestamp)
  | seedFromHistory (persisted : HlcTimestamp)

structure Call (ι : Type*) where
  process : ι
  op : Op
  reading : Option UInt64

/-- Runs one call of a clock. Seeding returns no timestamp. -/
def Op.run (h : Hlc) (reading : Option UInt64) (s : HlcInner) :
    Op → Except HlcError (Option HlcTimestamp) × HlcInner
  | .tick => let r := h.tick reading s; (r.1.map some, r.2)
  | .receive remote => let r := h.receive reading remote s; (r.1.map some, r.2)
  | .seedFromHistory persisted => (.ok none, Hlc.seedFromHistory persisted s)

/-- A call with its result. -/
structure Entry (ι : Type*) extends Call ι where
  result : Except HlcError (Option HlcTimestamp)

namespace Network

variable {ι : Type*} [DecidableEq ι]

/-- The log of a run from a state of the clocks. -/
def trace (net : Network ι) : (ι → HlcInner) → List (Call ι) → List (Entry ι)
  | _, [] => []
  | s, c :: cs =>
    let r := c.op.run (net.clock c.process) c.reading (s c.process)
    ⟨c, r.1⟩ :: net.trace (update s c.process r.2) cs

end Network

namespace Entry

variable {ι : Type*}

def issued (e : Entry ι) : Option HlcTimestamp := e.result.toOption.join

/-- The remote timestamp of a receipt that succeeded. -/
def received (e : Entry ι) : Option HlcTimestamp :=
  match e.op, e.result with
  | .receive remote, .ok _ => some remote
  | _, _ => none

/-- What the clock returned, received or was seeded with. -/
def seen (e : Entry ι) : List HlcTimestamp :=
  match e.op with
  | .seedFromHistory persisted => [persisted]
  | .tick | .receive _ => e.issued.toList ++ e.received.toList

/-- How the log of a network is read. -/
def view (ι : Type*) : CausalOrder.View (Entry ι) ι HlcTimestamp where
  process e := e.process
  issued
  received
  seen

end Entry

/-- What one call does: the clock moves up to everything its entry has seen, and past where it was
if it hands out a timestamp. -/
structure Entry.Moves {ι : Type*} (h : Hlc) (e : Entry ι) (s s' : HlcInner) : Prop where
  mono : s.rank ≤ s'.rank
  seen : ∀ u ∈ e.seen, HlcTimestamp.rank u.ts u.counter ≤ s'.rank
  issued_seen : ∀ t, e.issued = some t → t ∈ e.seen
  received_seen : ∀ u, e.received = some u → u ∈ e.seen
  issued : ∀ t, e.issued = some t → s.rank < HlcTimestamp.rank t.ts t.counter ∧ t.node = h.node
  received : ∀ u t, e.received = some u → e.issued = some t →
    HlcTimestamp.rank u.ts u.counter < HlcTimestamp.rank t.ts t.counter
  failed : ∀ err, e.result = .error err → s' = s

section

variable {ι : Type*} {i : ι} {h : Hlc} {reading : Option UInt64} {s s' : HlcInner}

variable {r : Except HlcError HlcTimestamp}

lemma moves_of_tick (hrun : h.tick reading s = (r, s')) :
    Entry.Moves h (⟨⟨i, .tick, reading⟩, r.map some⟩ : Entry ι) s s' := by
  cases r with
  | error err =>
    obtain rfl := Hlc.tick_error hrun
    constructor <;> simp [Entry.seen, Entry.issued, Entry.received, Except.map, Except.toOption]
  | ok t =>
    obtain ⟨hlt, rfl⟩ := Hlc.tick_ok hrun
    constructor
    · exact hlt.le
    · simp [Entry.seen, Entry.issued, Entry.received, Except.map, Except.toOption, HlcInner.rank]
    · simp [Entry.seen, Entry.issued, Except.map, Except.toOption]
    · simp [Entry.received]
    · simpa [Entry.issued, Except.map, Except.toOption, HlcInner.rank] using hlt
    · simp [Entry.received]
    · simp [Except.map]

lemma moves_of_receive (hrun : h.receive reading remote s = (r, s')) :
    Entry.Moves h (⟨⟨i, .receive remote, reading⟩, r.map some⟩ : Entry ι) s s' := by
  cases r with
  | error err =>
    obtain rfl := Hlc.receive_error hrun
    constructor <;> simp [Entry.seen, Entry.issued, Entry.received, Except.map, Except.toOption]
  | ok t =>
    obtain ⟨⟨hlt, rfl⟩, hremote⟩ := Hlc.receive_ok hrun
    constructor
    · exact hlt.le
    · simpa [Entry.seen, Entry.issued, Entry.received, Except.map, Except.toOption, HlcInner.rank]
        using hremote.le
    · simp [Entry.seen, Entry.issued, Except.map, Except.toOption]
    · simp [Entry.seen, Entry.received, Except.map]
    · simpa [Entry.issued, Except.map, Except.toOption, HlcInner.rank] using hlt
    · simpa [Entry.received, Entry.issued, Except.map, Except.toOption, HlcInner.rank] using hremote
    · simp [Except.map]

lemma moves_of_seed :
    Entry.Moves h (⟨⟨i, .seedFromHistory persisted, reading⟩, .ok none⟩ : Entry ι) s
      (Hlc.seedFromHistory persisted s) := by
  obtain ⟨hown, hpers⟩ := Hlc.rank_seedFromHistory persisted s
  constructor
  · exact hown
  · simpa [Entry.seen] using hpers
  all_goals simp [Entry.issued, Entry.received, Except.toOption]

lemma Op.run_moves (h : Hlc) (c : Call ι) (s : HlcInner) :
    Entry.Moves h ⟨c, (c.op.run h c.reading s).1⟩ s (c.op.run h c.reading s).2 := by
  obtain ⟨i, op, reading⟩ := c
  cases op with
  | tick => exact moves_of_tick rfl
  | receive remote => exact moves_of_receive rfl
  | seedFromHistory persisted => exact moves_of_seed

end

/-! ## Runs -/

section

variable {ι : Type*} [DecidableEq ι] {net : Network ι} {s : ι → HlcInner} {calls : List (Call ι)}
  {e : Entry ι} {k : ℕ} {t : HlcTimestamp}

/-- Whatever a clock issues later is past where it is now. -/
lemma rank_lt_of_issued (he : (net.trace s calls)[k]? = some e) (ht : e.issued = some t) :
    (s e.process).rank < HlcTimestamp.rank t.ts t.counter ∧ t.node = (net.clock e.process).node := by
  induction calls generalizing s k with
  | nil => simp [Network.trace] at he
  | cons c cs ih =>
    have hmoves := Op.run_moves (net.clock c.process) c (s c.process)
    rw [Network.trace] at he
    cases k with
    | zero =>
      obtain rfl := Option.some.inj he
      exact hmoves.issued t ht
    | succ k =>
      rw [List.getElem?_cons_succ] at he
      obtain ⟨hlt, hnode⟩ := ih he
      refine ⟨lt_of_le_of_lt ?_ hlt, hnode⟩
      by_cases hsame : e.process = c.process
      · rw [hsame, update_self]
        exact hmoves.mono
      · rw [update_of_ne hsame]

lemma moves_of_trace (he : (net.trace s calls)[k]? = some e) :
    ∃ s₁ s₂, e.Moves (net.clock e.process) s₁ s₂ := by
  induction calls generalizing s k with
  | nil => simp [Network.trace] at he
  | cons c cs ih =>
    rw [Network.trace] at he
    cases k with
    | zero =>
      obtain rfl := Option.some.inj he
      exact ⟨_, _, Op.run_moves (net.clock c.process) c (s c.process)⟩
    | succ k => exact ih he

variable {j : ℕ} {d : Entry ι} {u : HlcTimestamp}

/-- What a clock has seen stays below what it issues later. -/
lemma rank_lt_of_seen (hjk : j < k) (hd : (net.trace s calls)[j]? = some d)
    (he : (net.trace s calls)[k]? = some e) (hproc : d.process = e.process) (hu : u ∈ d.seen)
    (ht : e.issued = some t) :
    HlcTimestamp.rank u.ts u.counter < HlcTimestamp.rank t.ts t.counter := by
  induction calls generalizing s j k with
  | nil => simp [Network.trace] at hd
  | cons c cs ih =>
    obtain ⟨k, rfl⟩ := Nat.exists_eq_succ_of_ne_zero (Nat.ne_zero_of_lt hjk)
    rw [Network.trace, List.getElem?_cons_succ] at he
    rw [Network.trace] at hd
    cases j with
    | zero =>
      obtain rfl := Option.some.inj hd
      have hseen := (Op.run_moves (net.clock c.process) c (s c.process)).seen u hu
      have hlater := (rank_lt_of_issued he ht).1
      rw [← hproc, update_self] at hlater
      exact hseen.trans_lt hlater
    | succ j => exact ih (Nat.lt_of_succ_lt_succ hjk) hd he

lemma trace_advancing : CausalOrder.Advancing (Entry.view ι) (net.trace s calls) where
  later hjk hd he hproc hu ht := lt_of_rank_lt (rank_lt_of_seen hjk hd he hproc hu ht)
  receipt {k e u} he hu := by
    obtain ⟨s₁, s₂, hmoves⟩ := moves_of_trace he
    exact ⟨hmoves.received_seen u hu, fun t ht => lt_of_rank_lt (hmoves.received u t hu ht)⟩
  issued_seen {k e t} he ht := by
    obtain ⟨s₁, s₂, hmoves⟩ := moves_of_trace he
    exact hmoves.issued_seen t ht

/-- Two entries never issue the same timestamp. -/
lemma issued_ne (hjk : j < k) (hd : (net.trace s calls)[j]? = some d)
    (he : (net.trace s calls)[k]? = some e) (hu : d.issued = some u) (ht : e.issued = some t) :
    u ≠ t := by
  intro heq
  subst heq
  by_cases hproc : d.process = e.process
  · have hseen := trace_advancing.issued_seen hd hu
    exact lt_irrefl u (trace_advancing.later hjk hd he hproc hseen ht)
  · have hnode := (rank_lt_of_issued hd hu).2
    rw [(rank_lt_of_issued he ht).2] at hnode
    exact hproc (net.node_injective hnode.symm)

end

/-- In every run of a network of clocks, from any state and with any readings, a clock hands out
timestamps above all it has seen; happens-before is strict order; timestamps are distinct, and
their 128-bit numbers are ordered alike. A call that fails leaves its clock alone, and the drift
check rejects exactly what exceeds the latest admissible timestamp. -/
theorem hlc_causality {ι : Type*} [DecidableEq ι] (net : Network ι) (s : ι → HlcInner)
    (calls : List (Call ι)) :
    (∀ (j k : ℕ) (d e : Entry ι) (u t : HlcTimestamp), j < k → (net.trace s calls)[j]? = some d →
      (net.trace s calls)[k]? = some e → d.process = e.process → u ∈ d.seen → e.issued = some t → u < t) ∧
    (∀ (k : ℕ) (e : Entry ι) (u t : HlcTimestamp), (net.trace s calls)[k]? = some e →
      e.received = some u → e.issued = some t → u < t) ∧
    (∀ (j k : ℕ) (d e : Entry ι) (u t : HlcTimestamp),
      CausalOrder.HappensBefore (Entry.view ι) (net.trace s calls) j k → (net.trace s calls)[j]? = some d →
      (net.trace s calls)[k]? = some e → d.issued = some u → e.issued = some t → u < t) ∧
    (∀ (j k : ℕ) (d e : Entry ι) (u t : HlcTimestamp), j ≠ k → (net.trace s calls)[j]? = some d →
      (net.trace s calls)[k]? = some e → d.issued = some u → e.issued = some t → u ≠ t) ∧
    (∀ u t : HlcTimestamp, u < t ↔ u.toU128 < t.toU128) ∧
    (∀ (h : Hlc) (reading : Option UInt64) (s₀ : HlcInner) (err : HlcError),
      ((h.tick reading s₀).1 = .error err → (h.tick reading s₀).2 = s₀) ∧
      ∀ remote, (h.receive reading remote s₀).1 = .error err →
        (h.receive reading remote s₀).2 = s₀) ∧
    ∀ (h : Hlc) (reading : Option UInt64) (remote : HlcTimestamp) (s₀ : HlcInner),
      (∃ a b c, (h.receive reading remote s₀).1 = .error (.driftExceeded a b c)) ↔
        ∃ l, h.latestAdmissible reading = .ok l ∧ l < remote := by
  refine ⟨?_, ?_, ?_, ?_, lt_iff, ?_, ?_⟩
  · intro j k d e u t hjk hd he hprocess hu ht
    exact trace_advancing.later hjk hd he hprocess hu ht
  · intro k e u t he hu ht
    exact (trace_advancing.receipt he hu).2 t ht
  · intro j k d e u t hjk hd he hu ht
    exact trace_advancing.lt_of_happensBefore hjk hd hu he ht
  · intro j k d e u t hjk hd he hu ht
    rcases Nat.lt_or_gt_of_ne hjk with hlt | hgt
    · exact issued_ne hlt hd he hu ht
    · exact (issued_ne hgt he hd ht hu).symm
  · intro h reading s₀ err
    refine ⟨fun hrun => Hlc.tick_error (Prod.ext hrun rfl), fun remote hrun => ?_⟩
    exact Hlc.receive_error (Prod.ext hrun rfl)
  · intro h reading remote s₀
    exact Hlc.receive_drift_iff remote s₀

end Interfold.Clock
