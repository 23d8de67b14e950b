import Interfold.Library.Collections
import Interfold.Slashing.CommitmentLinks
import Mathlib.Data.Prod.Lex

/-!
# Consistency of commitments

A checker keeps the proofs of all parties of an E3 and evaluates the links between them. The party
of a source proof that contradicts its targets is accused and its proofs are dropped.

A link between the share computation of one party and the share decryptions of the others looks for
a target that agrees. It is evaluated when the share decryptions of the whole roster are there, so
one honest member of the roster is enough for an honest party. A link to an aggregate has no such
condition: an aggregate that leaves a party out accuses the party.
-/

namespace Interfold.CommitmentConsistency

open Links List

variable {ι : Type}

structure VerifiedProofData where
  partyId : ℕ
  address : Address
  publicSignals : Bytes
  dataHash : Key
  proofData : Bytes
deriving DecidableEq

/-- The verified proofs of every address and type. -/
abbrev Cache := List ((Address × ProofType) × List VerifiedProofData)

structure Snapshot where
  version : ℕ
  roster : Option (List ℕ)
  entries : Cache

def snapshotVersion : ℕ := 1

structure Mismatch where
  partyId : ℕ
  address : Address
  proofType : ProofType
  dataHash : Key
  proofData : Bytes
  publicSignals : Bytes

structure Violation (ι : Type) where
  e3Id : ι
  accusedPartyId : ℕ
  accusedAddress : Address
  proofType : ProofType
  dataHash : Key
  evidence : Bytes

inductive VerificationKind where
  | shareProofs
  | decryptionProofs
  | thresholdDecryptionProofs
  | pkGenerationProofs
deriving DecidableEq

structure PartyProofData where
  partyId : ℕ
  address : Address
  /-- The type, the public signals, the hash and the data of every proof. -/
  proofs : List (ProofType × Bytes × Key × Bytes)

structure CheckRequested (ι : Type) where
  e3Id : ι
  kind : VerificationKind
  correlationId : ℕ
  partyProofs : List PartyProofData

structure CheckComplete (ι : Type) where
  e3Id : ι
  kind : VerificationKind
  correlationId : ℕ
  inconsistentParties : Finset ℕ

structure PreZkOutcome (ι : Type) where
  violations : List (Violation ι)
  complete : CheckComplete ι

structure ProofVerificationPassed (ι : Type) where
  e3Id : ι
  partyId : ℕ
  address : Address
  proofType : ProofType
  dataHash : Key
  publicSignals : Bytes
  proofData : Bytes

structure RosterSelected (ι : Type) where
  e3Id : ι
  partyIds : List ℕ

/-- `CommitmentConsistency`. -/
structure Checker (ι : Type) where
  e3Id : ι
  links : List CommitmentLink
  committeeH : ℕ
  roster : Option (List ℕ)
  verified : Cache
  dirty : Bool

inductive ConsistencyError where
  | unsupportedVersion (version : ℕ)
deriving DecidableEq

def ConsistencyError.message : ConsistencyError → String
  | unsupportedVersion version =>
    "unsupported commitment-consistency snapshot version " ++ toString version

/-- A checker without proofs. -/
def Checker.new (e3Id : ι) (links : List CommitmentLink) (committeeH : ℕ) : Checker ι :=
  ⟨e3Id, links, committeeH, none, [], false⟩

namespace Checker

-- The standard library, and the encoding of a proof's data with its signals as evidence.
variable (lib : Collections) (abiEncode : Bytes → Bytes → Bytes) (s : Checker ι)

def snapshot : Snapshot where
  version := snapshotVersion
  roster := s.roster
  entries := lib.sortByKey (fun e : (Address × ProofType) × List VerifiedProofData =>
      toLex (e.1.1, e.1.2.code))
    ((lib.iterate s.verified).map fun e =>
      (e.1, lib.sortByKey (fun v : VerifiedProofData => Fin.val v.dataHash) e.2))

def takeSnapshotIfChanged : Option Snapshot × Checker ι :=
  if s.dirty then (some (s.snapshot lib), { s with dirty := false }) else (none, s)

def retrySnapshot : Checker ι := { s with dirty := true }

def restore (snap : Snapshot) : Except ConsistencyError (Checker ι) :=
  if snap.version ≠ snapshotVersion then .error (.unsupportedVersion snap.version)
  else .ok { s with roster := snap.roster, verified := snap.entries, dirty := false }

def cachedProofCount : ℕ := (s.verified.map fun e => e.2.length).sum

variable (link : CommitmentLink)

/-- The links from share computations to share decryptions. -/
def isShareLink : Bool :=
  (link.sourceProofType = .c2aSkShareComputation && link.targetProofType = .c4aSkShareDecryption) ||
    (link.sourceProofType = .c2bESmShareComputation &&
      link.targetProofType = .c4bESmShareDecryption)

def sourceRow (partyId : ℕ) : Option ℕ :=
  if isShareLink link then
    match s.roster with
    | none => none
    | some roster => roster.idxOf? partyId
  else some partyId

/-- A proof joins the others of its address and type, unless one of them has its hash. -/
def put (key : Address × ProofType) (data : VerifiedProofData) : Cache → Cache × Bool
  | [] => ([(key, [data])], true)
  | (k, entries) :: rest =>
    if k = key then
      if entries.any (·.dataHash = data.dataHash) then ((k, entries) :: rest, false)
      else ((k, entries ++ [data]) :: rest, true)
    else ((k, entries) :: (put key data rest).1, (put key data rest).2)

def insertVerified (address : Address) (proofType : ProofType) (data : VerifiedProofData) :
    Checker ι :=
  let (verified, changed) := put (address, proofType) data s.verified
  { s with verified, dirty := s.dirty || changed }

def mismatch (address : Address) (proofType : ProofType) (src : VerifiedProofData) : Mismatch :=
  ⟨src.partyId, address, proofType, src.dataHash, src.proofData, src.publicSignals⟩

/-- The sources of a type that have a row, with the row. -/
def sources : List (Address × VerifiedProofData × ℕ) :=
  (lib.iterate s.verified).flatMap fun ((address, proofType), srcs) =>
    if proofType = link.sourceProofType then
      srcs.filterMap fun src => (s.sourceRow link src.partyId).map fun row => (address, src, row)
    else []

def allTargets : List VerifiedProofData :=
  (lib.iterate s.verified).flatMap fun ((_, proofType), entries) =>
    if proofType = link.targetProofType then entries else []

/-- The sources that agree with no target. -/
def unmatched : List Mismatch :=
  let targets := s.allTargets lib link
  (s.sources lib link).filterMap fun (_, src, row) =>
    let vals := link.extractSourceValues src.publicSignals
    if vals.isEmpty then none
    else if targets.any fun tgt =>
        link.checkConsistency vals tgt.publicSignals row tgt.partyId then none
    else some (mismatch src.address link.sourceProofType src)

def findMismatches : List Mismatch :=
  match link.scope with
  | .sameParty =>
    (s.sources lib link).filterMap fun (address, src, row) =>
      match s.verified.lookup (address, link.targetProofType) with
      | none => none
      | some tgts =>
        let vals := link.extractSourceValues src.publicSignals
        if tgts.any fun tgt =>
            !link.checkConsistency vals tgt.publicSignals row tgt.partyId then
          some (mismatch address link.sourceProofType src)
        else none
  | .crossParty =>
    if (s.allTargets lib link).isEmpty then [] else s.unmatched lib link
  | .sourceMustExistInTargets =>
    if link.targetProofType = .c0PkBfv ∧ (link.sourceProofType = .c3aSkShareEncryption ∨
        link.sourceProofType = .c3bESmShareEncryption) then []
    else if (s.allTargets lib link).isEmpty then []
    else if isShareLink link then
      match s.roster with
      | none => []
      | some roster =>
        let received := (((s.allTargets lib link).map VerifiedProofData.partyId).filter
          (roster.contains ·)).dedup
        if received.length < s.committeeH then [] else s.unmatched lib link
    else s.unmatched lib link

def buildViolation (m : Mismatch) : Violation ι :=
  ⟨s.e3Id, m.partyId, m.address, m.proofType, m.dataHash, abiEncode m.proofData m.publicSignals⟩

def checkLinks (newProofType : ProofType) : List (Violation ι) :=
  s.links.flatMap fun link =>
    if newProofType ≠ link.sourceProofType ∧ newProofType ≠ link.targetProofType then []
    else (s.findMismatches lib link).filterMap fun m =>
      if m.dataHash = 0 then none else some (s.buildViolation abiEncode m)

variable [DecidableEq ι]

def onRosterSelected (event : RosterSelected ι) : List (Violation ι) × Checker ι :=
  if event.e3Id ≠ s.e3Id then ([], s)
  else if event.partyIds.length ≠ s.committeeH then ([], s)
  else if ¬event.partyIds.IsChain (· < ·) then ([], s)
  else match s.roster with
    | some _ => ([], s)
    | none =>
      let s := { s with roster := some event.partyIds, dirty := true }
      (s.checkLinks lib abiEncode .c4aSkShareDecryption ++
        s.checkLinks lib abiEncode .c4bESmShareDecryption, s)

def onProofVerified (data : ProofVerificationPassed ι) : List (Violation ι) × Checker ι :=
  if data.e3Id ≠ s.e3Id then ([], s)
  else
    let s := s.insertVerified data.address data.proofType
      ⟨data.partyId, data.address, data.publicSignals, data.dataHash, data.proofData⟩
    (s.checkLinks lib abiEncode data.proofType, s)

/-- Every proof of a party goes into the cache. -/
def insertParty (party : PartyProofData) : Checker ι :=
  party.proofs.foldl (fun s (proofType, publicSignals, dataHash, proofData) =>
    s.insertVerified party.address proofType
      ⟨party.partyId, party.address, publicSignals, dataHash, proofData⟩) s

/-- The proofs of some parties are dropped. -/
def evict (parties : Finset ℕ) : Checker ι :=
  if parties = ∅ then s
  else
    let verified := s.verified.filterMap fun (key, entries) =>
      let kept := entries.filter fun v => v.partyId ∉ parties
      if kept.isEmpty then none else some (key, kept)
    let s' := { s with verified }
    { s' with dirty := s.dirty || s'.cachedProofCount ≠ s.cachedProofCount }

def onCheckRequested (data : CheckRequested ι) : Option (PreZkOutcome ι) × Checker ι :=
  if data.e3Id ≠ s.e3Id then (none, s)
  else
    let s := data.partyProofs.foldl insertParty s
    let mismatches := s.links.flatMap (s.findMismatches lib)
    let inconsistentParties := (mismatches.map Mismatch.partyId).toFinset
    (some ⟨mismatches.map (s.buildViolation abiEncode),
      ⟨data.e3Id, data.kind, data.correlationId, inconsistentParties⟩⟩,
      s.evict inconsistentParties)

end Checker

/-! ## Runs -/

/-- What reaches a checker: proofs, each with its type, and rosters. -/
structure Delivered where
  proofs : List (ProofType × VerifiedProofData)
  rosters : List (List ℕ)

inductive Call (ι : Type) where
  | checkRequested (data : CheckRequested ι)
  | proofVerified (data : ProofVerificationPassed ι)
  | rosterSelected (event : RosterSelected ι)
  | takeSnapshot
  | retrySnapshot

section

variable [DecidableEq ι]

/-- The violations that a call returns. -/
def Call.violations (lib : Collections) (abiEncode : Bytes → Bytes → Bytes) (s : Checker ι) :
    Call ι → List (Violation ι)
  | checkRequested data =>
    match (s.onCheckRequested lib abiEncode data).1 with
    | none => []
    | some outcome => outcome.violations
  | proofVerified data => (s.onProofVerified lib abiEncode data).1
  | rosterSelected event => (s.onRosterSelected lib abiEncode event).1
  | takeSnapshot | retrySnapshot => []

/-- The parties that a call reports as inconsistent. -/
def Call.inconsistentParties (lib : Collections) (abiEncode : Bytes → Bytes → Bytes)
    (s : Checker ι) : Call ι → Finset ℕ
  | checkRequested data =>
    match (s.onCheckRequested lib abiEncode data).1 with
    | none => ∅
    | some outcome => outcome.complete.inconsistentParties
  | _ => ∅

def Call.run (lib : Collections) (abiEncode : Bytes → Bytes → Bytes) (s : Checker ι) :
    Call ι → Checker ι
  | checkRequested data => (s.onCheckRequested lib abiEncode data).2
  | proofVerified data => (s.onProofVerified lib abiEncode data).2
  | rosterSelected event => (s.onRosterSelected lib abiEncode event).2
  | takeSnapshot => (s.takeSnapshotIfChanged lib).2
  | retrySnapshot => s.retrySnapshot

end

/-- A call delivers nothing else. -/
def Call.Within (e3Id : ι) (d : Delivered) : Call ι → Prop
  | checkRequested data => data.e3Id = e3Id → ∀ party ∈ data.partyProofs, ∀ x ∈ party.proofs,
      (x.1, ⟨party.partyId, party.address, x.2.1, x.2.2.1, x.2.2.2⟩) ∈ d.proofs
  | proofVerified data => data.e3Id = e3Id →
      (data.proofType, ⟨data.partyId, data.address, data.publicSignals, data.dataHash,
        data.proofData⟩) ∈ d.proofs
  | rosterSelected event => event.e3Id = e3Id → event.partyIds ∈ d.rosters
  | takeSnapshot | retrySnapshot => True

/-- The states of a checker that got some of this, by any calls and any number of restarts from
snapshots. -/
inductive Reachable [DecidableEq ι] (lib : Collections) (abiEncode : Bytes → Bytes → Bytes)
    (e3Id : ι) (l H : ℕ) (d : Delivered) : Checker ι → Prop where
  | new : Reachable lib abiEncode e3Id l H d (.new e3Id (defaultLinks l) H)
  | call {s : Checker ι} (c : Call ι) : Reachable lib abiEncode e3Id l H d s → c.Within e3Id d →
      Reachable lib abiEncode e3Id l H d (c.run lib abiEncode s)
  | restore {s t s' : Checker ι} : Reachable lib abiEncode e3Id l H d s →
      Reachable lib abiEncode e3Id l H d t → s.restore (t.snapshot lib) = .ok s' →
      Reachable lib abiEncode e3Id l H d s'

/-- The cache holds what was delivered, and the roster is one of those that were. -/
structure Faithful (e3Id : ι) (l H : ℕ) (d : Delivered) (s : Checker ι) : Prop where
  e3Id_eq : s.e3Id = e3Id
  links_eq : s.links = defaultLinks l
  committeeH_eq : s.committeeH = H
  cached : ∀ e ∈ s.verified, ∀ v ∈ e.2, v.address = e.1.1 ∧ (e.1.2, v) ∈ d.proofs
  roster_mem : ∀ roster, s.roster = some roster →
    roster ∈ d.rosters ∧ roster.length = H ∧ roster.IsChain (· < ·)

section

variable {lib : Collections} {abiEncode : Bytes → Bytes → Bytes} {e3Id : ι} {l H : ℕ}
  {d : Delivered} {s s' : Checker ι}

lemma mem_put (he : e ∈ (Checker.put key data cache).1) (hv : v ∈ e.2) :
    (∃ e' ∈ cache, e'.1 = e.1 ∧ v ∈ e'.2) ∨ e.1 = key ∧ v = data := by
  induction cache with
  | nil =>
    rw [Checker.put, mem_singleton] at he
    subst he
    exact .inr ⟨rfl, mem_singleton.1 hv⟩
  | cons head rest ih =>
    obtain ⟨k, entries⟩ := head
    rw [Checker.put] at he
    split_ifs at he with hk hdup
    · exact .inl ⟨e, he, rfl, hv⟩
    · rcases mem_cons.1 he with rfl | he
      · rcases mem_append.1 hv with hv | hv
        · exact .inl ⟨(k, entries), mem_cons_self .., rfl, hv⟩
        · exact .inr ⟨hk, mem_singleton.1 hv⟩
      · exact .inl ⟨e, mem_cons_of_mem _ he, rfl, hv⟩
    · rcases mem_cons.1 he with rfl | he
      · exact .inl ⟨(k, entries), mem_cons_self .., rfl, hv⟩
      · rcases ih he with ⟨e', he', hkey, hv'⟩ | hnew
        · exact .inl ⟨e', mem_cons_of_mem _ he', hkey, hv'⟩
        · exact .inr hnew

section

variable (h : Faithful e3Id l H d s)
include h

lemma Faithful.insertVerified (hdata : (ty, data) ∈ d.proofs) :
    Faithful e3Id l H d (s.insertVerified data.address ty data) where
  e3Id_eq := h.e3Id_eq
  links_eq := h.links_eq
  committeeH_eq := h.committeeH_eq
  cached e he v hv := by
    rcases mem_put he hv with ⟨e', he', hkey, hv'⟩ | ⟨hkey, rfl⟩
    · exact hkey ▸ h.cached e' he' v hv'
    · rw [hkey]
      exact ⟨rfl, hdata⟩
  roster_mem := h.roster_mem

lemma Faithful.insertParty (hparty : ∀ x ∈ party.proofs,
      (x.1, ⟨party.partyId, party.address, x.2.1, x.2.2.1, x.2.2.2⟩) ∈ d.proofs) :
    Faithful e3Id l H d (s.insertParty party) := by
  refine foldlRecOn party.proofs _ h ?_
  intro t ht x hx
  exact ht.insertVerified (hparty x hx)

lemma Faithful.insertParties {parties : List PartyProofData}
    (hptys : ∀ party ∈ parties, ∀ x ∈ party.proofs,
      (x.1, ⟨party.partyId, party.address, x.2.1, x.2.2.1, x.2.2.2⟩) ∈ d.proofs) :
    Faithful e3Id l H d (parties.foldl Checker.insertParty s) := by
  refine foldlRecOn parties _ h ?_
  intro t ht party hparty
  exact ht.insertParty (hptys party hparty)

lemma Faithful.evict (parties : Finset ℕ) : Faithful e3Id l H d (s.evict parties) := by
  unfold Checker.evict
  split_ifs
  · exact h
  · refine ⟨h.e3Id_eq, h.links_eq, h.committeeH_eq, ?_, h.roster_mem⟩
    intro e he v hv
    obtain ⟨⟨key, entries⟩, hmem, hsome⟩ := mem_filterMap.1 he
    dsimp only at hsome
    split_ifs at hsome
    cases hsome
    exact h.cached (key, entries) hmem v (mem_of_mem_filter hv)

lemma Faithful.restore (ht : Faithful e3Id l H d t) (hrun : s.restore (t.snapshot lib) = .ok s') :
    Faithful e3Id l H d s' := by
  unfold Checker.restore at hrun
  split_ifs at hrun
  cases hrun
  refine ⟨h.e3Id_eq, h.links_eq, h.committeeH_eq, ?_, ht.roster_mem⟩
  intro e he v hv
  obtain ⟨e', he', rfl⟩ := mem_map.1 ((lib.sortByKey_perm _ _).mem_iff.1 he)
  exact ht.cached e' ((lib.iterate_perm _).mem_iff.1 he') v ((lib.sortByKey_perm _ _).mem_iff.1 hv)

end

variable [DecidableEq ι]

lemma Faithful.call (h : Faithful e3Id l H d s) (c : Call ι) (hc : c.Within e3Id d) :
    Faithful e3Id l H d (c.run lib abiEncode s) := by
  cases c with
  | checkRequested data =>
    simp only [Call.run, Checker.onCheckRequested]
    split_ifs with he3
    · exact h
    · rw [not_not] at he3
      exact (h.insertParties (hc (he3.trans h.e3Id_eq))).evict _
  | proofVerified data =>
    simp only [Call.run, Checker.onProofVerified]
    split_ifs with he3
    · exact h
    · rw [not_not] at he3
      exact h.insertVerified (hc (he3.trans h.e3Id_eq))
  | rosterSelected event =>
    simp only [Call.run, Checker.onRosterSelected]
    split_ifs with he3 hlen hchain
    · exact h
    · exact h
    · rw [not_not] at he3 hlen
      cases hrost : s.roster with
      | some _ => exact h
      | none =>
        refine ⟨h.e3Id_eq, h.links_eq, h.committeeH_eq, h.cached, ?_⟩
        rintro _ ⟨⟩
        exact ⟨hc (he3.trans h.e3Id_eq), hlen.trans h.committeeH_eq, hchain⟩
    · exact h
  | takeSnapshot =>
    simp only [Call.run, Checker.takeSnapshotIfChanged]
    split_ifs
    · exact { h with }
    · exact h
  | retrySnapshot => exact { h with }

lemma Reachable.faithful (h : Reachable lib abiEncode e3Id l H d s) : Faithful e3Id l H d s := by
  induction h with
  | new => exact ⟨rfl, rfl, rfl, by simp [Checker.new], by simp [Checker.new]⟩
  | call c _ hc ih => exact ih.call c hc
  | restore _ _ hrun ihs iht => exact ihs.restore iht hrun

end

/-! ## Honest parties -/

/-- The proofs of one type that a party delivered. -/
def Delivered.of (d : Delivered) (proofType : ProofType) (p : ℕ) : List VerifiedProofData :=
  (d.proofs.filter fun x => x.1 = proofType && x.2.partyId = p).map Prod.snd

/-- The proofs of one type. -/
def Delivered.all (d : Delivered) (proofType : ProofType) : List VerifiedProofData :=
  (d.proofs.filter fun x => x.1 = proofType).map Prod.snd

/-- The party `p` of a committee of distinct addresses is honest: its own proofs agree, and in every
roster with `p` the share decryption of some member lists what `p` computed for that member, in the
row of `p`. -/
structure Honest (committee : List Address) (l H : ℕ) (d : Delivered) (p : ℕ) : Prop where
  distinct : committee.Nodup
  members : ∀ x ∈ d.proofs, committee[x.2.partyId]? = some x.2.address
  sameParty : ∀ link ∈ defaultLinks l, link.scope = .sameParty →
    ∀ src ∈ d.of link.sourceProofType p, ∀ tgt ∈ d.of link.targetProofType p,
      link.checkConsistency (link.extractSourceValues src.publicSignals) tgt.publicSignals p p =
        true
  listed : ∀ roster ∈ d.rosters, roster.length = H → roster.IsChain (· < ·) →
    ∀ row < roster.length, roster[row]? = some p →
    ∀ link ∈ [c2aToC4aShareCommitmentLink l, c2bToC4bShareCommitmentLink l], ∃ h ∈ roster,
      ∀ src ∈ d.of link.sourceProofType p, ∀ tgt ∈ d.of link.targetProofType h,
        ListsShares l src.publicSignals tgt.publicSignals row h

/-- Every aggregate has the commitments of `p`, whoever made it. -/
def Aggregated (d : Delivered) (p : ℕ) : Prop :=
  ∀ link ∈ [c1ToC5PkCommitmentLink, c6ToC7DCommitmentLink],
    ∀ src ∈ d.of link.sourceProofType p, ∀ tgt ∈ d.all link.targetProofType,
      link.checkConsistency (link.extractSourceValues src.publicSignals) tgt.publicSignals p
        tgt.partyId = true

section

variable {lib : Collections} {abiEncode : Bytes → Bytes → Bytes} {e3Id : ι} {l H p : ℕ}
  {d : Delivered} {s : Checker ι} {link : CommitmentLink} {cm : List Address}
  {src tgt : VerifiedProofData} {address : Address} {row : ℕ} {m : Mismatch}

lemma mem_of : src ∈ d.of ty p ↔ (ty, src) ∈ d.proofs ∧ src.partyId = p := by
  simp only [Delivered.of, mem_map, mem_filter, Bool.and_eq_true, decide_eq_true_eq]
  constructor
  · rintro ⟨⟨_, _⟩, ⟨hmem, rfl, rfl⟩, rfl⟩
    exact ⟨hmem, rfl⟩
  · rintro ⟨hmem, rfl⟩
    exact ⟨(ty, src), ⟨hmem, rfl, rfl⟩, rfl⟩

lemma mem_all : tgt ∈ d.all ty ↔ (ty, tgt) ∈ d.proofs := by
  simp only [Delivered.all, mem_map, mem_filter, decide_eq_true_eq]
  constructor
  · rintro ⟨⟨_, _⟩, ⟨hmem, rfl⟩, rfl⟩
    exact hmem
  · intro hmem
    exact ⟨(ty, tgt), ⟨hmem, rfl⟩, rfl⟩

lemma Faithful.source (h : Faithful e3Id l H d s)
    (hmem : (address, src, row) ∈ s.sources lib link) :
    src.address = address ∧ (link.sourceProofType, src) ∈ d.proofs ∧
      s.sourceRow link src.partyId = some row := by
  obtain ⟨⟨⟨a, ty⟩, srcs⟩, he, hsrc⟩ := mem_flatMap.1 hmem
  rw [(lib.iterate_perm _).mem_iff] at he
  dsimp only at hsrc
  split_ifs at hsrc with htype
  · obtain ⟨v, hv, hrow⟩ := mem_filterMap.1 hsrc
    obtain ⟨r, hr, heq⟩ := Option.map_eq_some_iff.1 hrow
    cases heq
    obtain ⟨haddr, hdelv⟩ := h.cached _ he src hv
    exact ⟨haddr, htype ▸ hdelv, hr⟩
  · cases hsrc

lemma Faithful.target (h : Faithful e3Id l H d s) (hmem : tgt ∈ s.allTargets lib link) :
    (link.targetProofType, tgt) ∈ d.proofs := by
  obtain ⟨⟨⟨a, ty⟩, entries⟩, he, htgt⟩ := mem_flatMap.1 hmem
  rw [(lib.iterate_perm _).mem_iff] at he
  dsimp only at htgt
  split_ifs at htgt with htype
  · exact htype ▸ (h.cached _ he tgt htgt).2
  · cases htgt

lemma mem_unmatched (hm : m ∈ s.unmatched lib link) :
    ∃ address src row, (address, src, row) ∈ s.sources lib link ∧
      m = Checker.mismatch src.address link.sourceProofType src ∧
      ∀ tgt ∈ s.allTargets lib link, link.checkConsistency
        (link.extractSourceValues src.publicSignals) tgt.publicSignals row tgt.partyId = false := by
  obtain ⟨⟨address, src, row⟩, hmem, hsome⟩ := mem_filterMap.1 hm
  dsimp only at hsome
  split_ifs at hsome with hempty hany
  cases hsome
  refine ⟨address, src, row, hmem, rfl, ?_⟩
  intro tgt htgt
  rw [any_eq_true, not_exists] at hany
  exact Bool.eq_false_iff.2 fun htrue => hany tgt ⟨htgt, htrue⟩

/-- A link blames other parties only, each by its own address. -/
def Spares (lib : Collections) (committee : List Address) (p : ℕ) (s : Checker ι)
    (link : CommitmentLink) : Prop :=
  ∀ m ∈ s.findMismatches lib link, m.partyId ≠ p ∧ committee[m.partyId]? = some m.address

section

variable (hp : Honest cm l H d p) (h : Faithful e3Id l H d s)
include hp h

lemma Honest.spares_sameParty (hlink : link ∈ defaultLinks l) (hscope : link.scope = .sameParty)
    (hcont : ∀ vals signals r q, link.checkConsistency vals signals r q =
      link.checkConsistency vals signals p p) : Spares lib cm p s link := by
  intro m hm
  simp only [Checker.findMismatches, hscope] at hm
  obtain ⟨⟨address, src, row⟩, hmem, hsome⟩ := mem_filterMap.1 hm
  obtain ⟨haddr, hsrc, -⟩ := h.source hmem
  have hmember := hp.members _ hsrc
  dsimp only at hsome
  cases hlook : s.verified.lookup (address, link.targetProofType) with
  | none =>
    rw [hlook] at hsome
    cases hsome
  | some tgts =>
    simp only [hlook] at hsome
    split_ifs at hsome with hany
    cases hsome
    refine ⟨?_, haddr ▸ hmember⟩
    intro hpid
    obtain ⟨tgt, htgt, hfails⟩ := any_eq_true.1 hany
    obtain ⟨_, _, hverif, -⟩ := lookup_eq_some_iff.1 hlook
    have hentry : ((address, link.targetProofType), tgts) ∈ s.verified := by
      rw [hverif]
      exact mem_append_right _ (mem_cons_self ..)
    obtain ⟨htadd, htdel⟩ := h.cached _ hentry tgt htgt
    -- Both proofs are of the party that has this address.
    have hsame : tgt.partyId = p := by
      have htmem := hp.members _ htdel
      rw [htadd, ← haddr] at htmem
      have hlt := (List.getElem?_eq_some_iff.1 htmem).1
      rw [← hpid]
      exact (getElem?_inj hlt hp.distinct).1 (htmem.trans hmember.symm)
    have htrue := hp.sameParty link hlink hscope src (mem_of.2 ⟨hsrc, hpid⟩) tgt
      (mem_of.2 ⟨htdel, hsame⟩)
    rw [hcont, htrue] at hfails
    cases hfails

/-- A source that agrees with some target is not blamed. -/
lemma Honest.spares_of_target
    (htarg : ∀ src row, (link.sourceProofType, src) ∈ d.proofs → src.partyId = p →
      s.sourceRow link p = some row → ∃ tgt ∈ s.allTargets lib link,
        link.checkConsistency (link.extractSourceValues src.publicSignals) tgt.publicSignals row
          tgt.partyId = true) :
    ∀ m ∈ s.unmatched lib link, m.partyId ≠ p ∧ cm[m.partyId]? = some m.address := by
  intro m hm
  obtain ⟨address, src, row, hmem, rfl, hnone⟩ := mem_unmatched hm
  obtain ⟨haddr, hsrc, hrow⟩ := h.source hmem
  refine ⟨?_, hp.members _ hsrc⟩
  intro hpid
  change src.partyId = p at hpid
  rw [hpid] at hrow
  obtain ⟨tgt, htgt, htrue⟩ := htarg src row hsrc hpid hrow
  rw [hnone tgt htgt] at htrue
  cases htrue

lemma Honest.spares_crossParty (hagg : Aggregated d p)
    (hlink : link ∈ [c1ToC5PkCommitmentLink, c6ToC7DCommitmentLink])
    (hscope : link.scope = .crossParty) (hshare : Checker.isShareLink link = false) :
    Spares lib cm p s link := by
  intro m hm
  simp only [Checker.findMismatches, hscope] at hm
  split_ifs at hm with hempty
  · cases hm
  · refine hp.spares_of_target h ?_ m hm
    intro src row hsrc hpid hrow
    rw [Checker.sourceRow, hshare, if_neg (by simp), Option.some.injEq] at hrow
    subst hrow
    obtain ⟨tgt, htgt⟩ := exists_mem_of_ne_nil _ (by simpa using hempty)
    exact ⟨tgt, htgt, hagg link hlink src (mem_of.2 ⟨hsrc, hpid⟩) tgt (mem_all.2 (h.target htgt))⟩

end

/-- When a share link is evaluated, every member of the roster has a target. -/
lemma exists_target_of_received {roster : List ℕ}
    (hrecv : ¬(((s.allTargets lib link).map VerifiedProofData.partyId).filter
      (roster.contains ·)).dedup.length < roster.length) {q : ℕ} (hq : q ∈ roster) :
    ∃ tgt ∈ s.allTargets lib link, tgt.partyId = q := by
  set received := (((s.allTargets lib link).map VerifiedProofData.partyId).filter
    (roster.contains ·)).dedup
  have hsub : received ⊆ roster := by
    intro x hx
    simpa using (mem_filter.1 (mem_dedup.1 hx)).2
  have hperm := ((nodup_dedup _).subperm hsub).perm_of_length_le (not_lt.1 hrecv)
  have hmem := mem_dedup.1 (hperm.mem_iff.2 hq)
  obtain ⟨tgt, htgt, rfl⟩ := mem_map.1 (mem_of_mem_filter hmem)
  exact ⟨tgt, htgt, rfl⟩

lemma Honest.spares_shares (hp : Honest cm l H d p) (h : Faithful e3Id l H d s)
    (hlink : link ∈ [c2aToC4aShareCommitmentLink l, c2bToC4bShareCommitmentLink l])
    (hscope : link.scope = .sourceMustExistInTargets) (hshare : Checker.isShareLink link = true)
    (htype : link.targetProofType ≠ .c0PkBfv)
    (hextr : link.extractSourceValues = extractShareCommitments)
    (hcheck : link.checkConsistency = checkExactLCommitments l) : Spares lib cm p s link := by
  intro m hm
  simp only [Checker.findMismatches, hscope, htype, false_and, if_false, hshare, if_true] at hm
  split_ifs at hm
  · cases hm
  · cases hrost : s.roster with
    | none =>
      rw [hrost] at hm
      cases hm
    | some roster =>
      simp only [hrost] at hm
      obtain ⟨hdelv, hlen, hchain⟩ := h.roster_mem roster hrost
      split_ifs at hm with hrecv
      · cases hm
      · rw [h.committeeH_eq, ← hlen] at hrecv
        refine hp.spares_of_target h ?_ m hm
        intro src row hsrc hpid hrow
        simp only [Checker.sourceRow, hshare, if_true, hrost] at hrow
        obtain ⟨hlt, hrow, -⟩ := idxOf?_eq_some_iff.1 hrow
        have hget : roster[row]? = some p := by
          rw [getElem?_eq_getElem hlt, hrow]
        obtain ⟨q, hq, hlists⟩ := hp.listed roster hdelv hlen hchain row hlt hget _ hlink
        obtain ⟨tgt, htgt, rfl⟩ := exists_target_of_received hrecv hq
        refine ⟨tgt, htgt, ?_⟩
        rw [hextr, hcheck]
        exact (hlists src (mem_of.2 ⟨hsrc, hpid⟩) tgt (mem_of.2 ⟨h.target htgt, rfl⟩)).check

/-- A missing encryption key blames nobody. -/
lemma spares_c0 (hscope : link.scope = .sourceMustExistInTargets)
    (htarg : link.targetProofType = .c0PkBfv)
    (hsour : link.sourceProofType = .c3aSkShareEncryption ∨
      link.sourceProofType = .c3bESmShareEncryption) : Spares lib cm p s link := by
  intro m hm
  simp only [Checker.findMismatches, hscope] at hm
  rw [if_pos ⟨htarg, hsour⟩] at hm
  cases hm

lemma c2ToC4_target (l : ℕ) (htarg : target ≠ .c0PkBfv) :
    (c2ToC4 l name source target).targetProofType ≠ .c0PkBfv :=
  htarg

lemma Honest.spares (hp : Honest cm l H d p) (h : Faithful e3Id l H d s)
    (hagg : Aggregated d p) (hlink : link ∈ defaultLinks l) : Spares lib cm p s link := by
  have hin := hlink
  simp only [defaultLinks, mem_cons, not_mem_nil, or_false] at hin
  rcases hin with rfl | rfl | rfl | rfl | rfl | rfl | rfl | rfl | rfl | rfl | rfl | rfl
  · exact spares_c0 rfl rfl (.inl rfl)
  · exact spares_c0 rfl rfl (.inr rfl)
  · exact hp.spares_sameParty h hlink rfl fun _ _ _ _ => rfl
  · exact hp.spares_sameParty h hlink rfl fun _ _ _ _ => rfl
  · exact hp.spares_crossParty h hagg (by simp) rfl rfl
  · exact hp.spares_sameParty h hlink rfl fun _ _ _ _ => rfl
  · exact hp.spares_sameParty h hlink rfl fun _ _ _ _ => rfl
  · exact hp.spares_shares h (.head _) rfl rfl (c2ToC4_target _ (by decide)) rfl rfl
  · exact hp.spares_shares h (.tail _ (.head _)) rfl rfl (c2ToC4_target _ (by decide)) rfl rfl
  · exact hp.spares_crossParty h hagg (by simp) rfl rfl
  · exact hp.spares_sameParty h hlink rfl fun _ _ _ _ => rfl
  · exact hp.spares_sameParty h hlink rfl fun _ _ _ _ => rfl

/-- Each violation blames another party by its own address. -/
def Clears (committee : List Address) (p : ℕ) (violations : List (Violation ι)) : Prop :=
  ∀ v ∈ violations, v.accusedPartyId ≠ p ∧ committee[v.accusedPartyId]? = some v.accusedAddress

lemma Honest.clears_checkLinks (hp : Honest cm l H d p) (h : Faithful e3Id l H d s)
    (hagg : Aggregated d p) (ty : ProofType) : Clears cm p (s.checkLinks lib abiEncode ty) := by
  intro v hv
  obtain ⟨link, hlink, hv⟩ := mem_flatMap.1 hv
  rw [h.links_eq] at hlink
  split_ifs at hv
  · cases hv
  · obtain ⟨m, hm, hsome⟩ := mem_filterMap.1 hv
    split_ifs at hsome
    cases hsome
    exact hp.spares h hagg hlink m hm

variable [DecidableEq ι]

lemma Honest.clears_call (hp : Honest cm l H d p) (h : Faithful e3Id l H d s)
    (hagg : Aggregated d p) (c : Call ι) (hc : c.Within e3Id d) :
    Clears cm p (c.violations lib abiEncode s) ∧ p ∉ c.inconsistentParties lib abiEncode s := by
  have hnone : Clears cm p ([] : List (Violation ι)) :=
    fun _ hv => absurd hv not_mem_nil
  have hnext : Faithful e3Id l H d (c.run lib abiEncode s) := h.call c hc
  cases c with
  | checkRequested data =>
    simp only [Call.violations, Call.inconsistentParties, Checker.onCheckRequested]
    split_ifs with he3
    · exact ⟨hnone, Finset.notMem_empty p⟩
    · rw [not_not] at he3
      have hfait := h.insertParties (hc (he3.trans h.e3Id_eq))
      have hspar : ∀ m ∈ (data.partyProofs.foldl Checker.insertParty s).links.flatMap
          ((data.partyProofs.foldl Checker.insertParty s).findMismatches lib),
          m.partyId ≠ p ∧ cm[m.partyId]? = some m.address := by
        intro m hm
        obtain ⟨link, hlink, hm⟩ := mem_flatMap.1 hm
        exact hp.spares hfait hagg (hfait.links_eq ▸ hlink) m hm
      refine ⟨?_, ?_⟩
      · intro v hv
        obtain ⟨m, hm, rfl⟩ := mem_map.1 hv
        exact hspar m hm
      · intro hmem
        obtain ⟨m, hm, hpid⟩ := mem_map.1 (mem_toFinset.1 hmem)
        exact (hspar m hm).1 hpid
  | proofVerified data =>
    refine ⟨?_, Finset.notMem_empty p⟩
    simp only [Call.violations, Call.run, Checker.onProofVerified] at hnext ⊢
    split_ifs at hnext ⊢
    · exact hnone
    · exact hp.clears_checkLinks hnext hagg _
  | rosterSelected event =>
    refine ⟨?_, Finset.notMem_empty p⟩
    simp only [Call.violations, Call.run, Checker.onRosterSelected] at hnext ⊢
    split_ifs at hnext ⊢
    · exact hnone
    · exact hnone
    · cases hrost : s.roster with
      | some _ => exact hnone
      | none =>
        simp only [hrost] at hnext
        intro v hv
        rcases mem_append.1 hv with hv | hv
        · exact hp.clears_checkLinks hnext hagg _ v hv
        · exact hp.clears_checkLinks hnext hagg _ v hv
    · exact hnone
  | takeSnapshot => exact ⟨hnone, Finset.notMem_empty p⟩
  | retrySnapshot => exact ⟨hnone, Finset.notMem_empty p⟩

/-- In every run, with any number of restarts from snapshots, no call names the address of an honest
party or reports the party as inconsistent, if the aggregates that reach the checker have the
commitments of that party. -/
theorem honest_party_never_accused (lib : Collections) (abiEncode : Bytes → Bytes → Bytes)
    (e3Id : ι) (committee : List Address) (l H p : ℕ) (a : Address) (d : Delivered)
    (ha : committee[p]? = some a) (hp : Honest committee l H d p) (hagg : Aggregated d p)
    (s : Checker ι) (hs : Reachable lib abiEncode e3Id l H d s) (c : Call ι)
    (hc : c.Within e3Id d) : (∀ v ∈ c.violations lib abiEncode s, v.accusedAddress ≠ a) ∧
      p ∉ c.inconsistentParties lib abiEncode s := by
  obtain ⟨hclears, hparties⟩ := hp.clears_call hs.faithful hagg c hc
  refine ⟨?_, hparties⟩
  rintro v hv rfl
  obtain ⟨hne, hmember⟩ := hclears v hv
  have hlt := (List.getElem?_eq_some_iff.1 hmember).1
  exact hne ((getElem?_inj hlt hp.distinct).1 (hmember.trans ha.symm))

end

/-- A field of equal bytes. -/
def sampleField (b : UInt8) : Bytes := replicate fieldByteLen b

/-- The event of a delivered proof, for the E3 with the number 7. -/
def passed (x : ProofType × VerifiedProofData) : Call ℕ :=
  .proofVerified ⟨7, x.2.partyId, x.2.address, x.1, x.2.dataHash, x.2.publicSignals, x.2.proofData⟩

/-- The key generation of the party 0, and an aggregate of the party 1 without it. -/
def aggregateWithout : Delivered where
  proofs := [(.c1PkGeneration, ⟨0, 1, sampleField 3 ++ sampleField 7 ++ sampleField 8, 1, []⟩),
    (.c5PkAggregation, ⟨1, 2, sampleField 6 ++ sampleField 9, 2, []⟩)]
  rosters := []

/-- One aggregate that leaves an honest party out is enough to accuse this party. -/
theorem left_out_of_aggregate_accused : Honest [1, 2] 1 2 aggregateWithout 0 ∧
      ∃ s, Reachable .stable (· ++ ·) 7 1 2 aggregateWithout s ∧
        ∃ c : Call ℕ, c.Within 7 aggregateWithout ∧
          ∃ v ∈ c.violations .stable (· ++ ·) s, v.accusedAddress = 1 ∧ v.accusedPartyId = 0 := by
  refine ⟨⟨by decide, by decide, by decide +kernel, by decide⟩, ?_⟩
  refine ⟨_, .call (passed (.c1PkGeneration,
    ⟨0, 1, sampleField 3 ++ sampleField 7 ++ sampleField 8, 1, []⟩)) .new (fun _ => .head _), ?_⟩
  refine ⟨passed (.c5PkAggregation, ⟨1, 2, sampleField 6 ++ sampleField 9, 2, []⟩),
    fun _ => .tail _ (.head _), ?_⟩
  decide +kernel

/-- The party 0 computes shares for both parties, and the party 1 lists the share it got. The
aggregate has the key of the party 0. -/
def sampleDelivered : Delivered where
  proofs := [(.c1PkGeneration, ⟨0, 1, sampleField 3 ++ sampleField 7 ++ sampleField 8, 1, []⟩),
    (.c2aSkShareComputation, ⟨0, 1, sampleField 3 ++ sampleField 4 ++ sampleField 5, 2, []⟩),
    (.c4aSkShareDecryption, ⟨0, 1, sampleField 0 ++ sampleField 0 ++ sampleField 9, 3, []⟩),
    (.c4aSkShareDecryption, ⟨1, 2, sampleField 5 ++ sampleField 6 ++ sampleField 9, 4, []⟩),
    (.c5PkAggregation, ⟨1, 2, sampleField 7 ++ sampleField 9, 5, []⟩)]
  rosters := [[0, 1]]

/-- The checker after all these proofs. -/
def sampleChecker : Checker ℕ :=
  sampleDelivered.proofs.foldl (fun s x => (passed x).run .stable (· ++ ·) s)
    (.new 7 (defaultLinks 1) 2)

lemma sampleChecker_reachable : Reachable .stable (· ++ ·) 7 1 2 sampleDelivered sampleChecker := by
  refine foldlRecOn _ _ .new ?_
  intro s hs x hx
  exact .call (passed x) hs fun _ => hx

theorem honest_party_never_accused_sample : sampleChecker.cachedProofCount = 5 ∧
      ∀ v ∈ (Call.rosterSelected ⟨7, [0, 1]⟩).violations .stable (· ++ ·) sampleChecker,
        v.accusedAddress ≠ 1 := by
  have hhonest : Honest [1, 2] 1 2 sampleDelivered 0 :=
    ⟨by decide, by decide, by decide +kernel, by decide +kernel⟩
  have hagg : Aggregated sampleDelivered 0 := by
    unfold Aggregated
    decide +kernel
  refine ⟨by decide +kernel, ?_⟩
  exact (honest_party_never_accused .stable (· ++ ·) 7 [1, 2] 1 2 0 1 sampleDelivered rfl hhonest
    hagg sampleChecker sampleChecker_reachable (.rosterSelected ⟨7, [0, 1]⟩) (fun _ => .head _)).1

end Interfold.CommitmentConsistency
