import Interfold.Slashing.QuorumVotes

/-!
# The evidence of a quorum

A vote is signed over the hash of the proof that failed, and the evidence of a quorum is looked up
when the quorum is there. The cache it comes from has one place for all proofs of one type of a
node, so a later proof of the node takes the place of the one that the votes are about.

As long as nothing takes the place of a proof that this node has voted on, the evidence is a
preimage of what was signed.
-/

namespace Interfold.AccusationVoting

open Links AssocList Emission BigEndian
open CommitmentConsistency (ProofVerificationPassed Violation)

/-- `received_data`. -/
abbrev Cache := List ((Address × ProofType) × ReceivedProofData)

/-- The cache holds data with a hash for a proof type of a node. -/
def Holds (D : Cache) (key : Address × ProofType) (dataHash : Key) : Prop :=
  ∃ received, get D key = some received ∧ received.dataHash = dataHash

/-- All evidence of the cache is a preimage of its hash. -/
def Preimages (crypto : Crypto) (D : Cache) : Prop :=
  ∀ key received, get D key = some received → crypto.keccak256 received.evidence = received.dataHash

/-- The own votes of a tally are about the data in the cache. -/
structure OwnBound (crypto : Crypto) (e3 : E3Id) (me : Address) (D : Cache) (id : Key)
    (p : PendingAccusation) : Prop where
  id_eq : id = crypto.accusationId p.accusation
  e3Id : p.accusation.e3Id = e3
  own : ∀ v ∈ p.votesFor, v.voter = me →
    Holds D (p.accusation.accused, p.accusation.proofType) v.dataHash

structure Bound (crypto : Crypto) (e3 : E3Id) (me : Address) (D : Cache) (s : Voting) : Prop where
  e3Id : s.e3Id = e3
  myAddress : s.myAddress = me
  received : s.receivedData = D
  tally : ∀ id p, get s.pending id = some p → OwnBound crypto e3 me D id p
  reverifications : ∀ e ∈ s.pendingReverifications, crypto.keccak256 e.2.evidence = e.2.dataHash ∧
      e.2.accusationId = crypto.accusationKey e3 e.2.accused e.2.proofType

/-- The evidence of a quorum that agrees with this node is what the voters signed. -/
def EvidenceBound (crypto : Crypto) (me : Address) (q : AccusationQuorumReached) : Prop :=
  q.outcome = .accusedFaulted → (∃ v ∈ q.votesFor, v.voter = me) →
    ∀ v ∈ q.votesFor, crypto.keccak256 q.evidence = v.dataHash

/-- The accusations of one E3 have identifiers of their own. -/
def Crypto.DistinctIds (crypto : Crypto) (e3 : E3Id) : Prop :=
  Function.Injective fun key : Address × ProofType => crypto.accusationKey e3 key.1 key.2

section

variable {crypto : Crypto} {e3 : E3Id} {me : Address} {D : Cache} {s s' : Voting} {id : Key}
  {p : PendingAccusation}

abbrev SafeEvidence (crypto : Crypto) (e3 : E3Id) (me : Address) (D : Cache) :
    Voting.Effect → Prop :=
  Safe (Bound crypto e3 me D) (Decided (EvidenceBound crypto me))

lemma OwnBound.evidenceBound (hp : OwnBound crypto e3 me D id p) (hD : Preimages crypto D)
    (hs : s.receivedData = D) :
    EvidenceBound crypto me (s.quorumReached p (Voting.agreedOutcome p.votesFor)) := by
  rintro hfaul ⟨own, hmem, hme⟩ v hv
  obtain ⟨received, hget, hhash⟩ := hp.own own hmem hme
  have hevid : (s.quorumReached p (Voting.agreedOutcome p.votesFor)).evidence =
      received.evidence := by
    simp only [Voting.quorumReached, hs, hget]
  have hsame := (agreed_eq_faulted _).1 hfaul own hmem v hv
  rw [hevid, hD _ _ hget, hhash, hsame]

lemma Bound.frame (hs : Bound crypto e3 me D s) (h : Frame s s') : Bound crypto e3 me D s' := by
  refine ⟨(congrArg Roster.e3Id h.roster).trans hs.e3Id,
    (congrArg Roster.myAddress h.roster).trans hs.myAddress, h.received.trans hs.received, ?_, ?_⟩
  · rw [h.pending]
    exact hs.tally
  · exact fun e he => hs.reverifications e (h.reverifications e he)

lemma Bound.withPending (hs : Bound crypto e3 me D s) (hp : OwnBound crypto e3 me D id p) :
    Bound crypto e3 me D { s with pending := put s.pending id p } :=
  ⟨hs.e3Id, hs.myAddress, hs.received, forall_put (fun k p' _ => hs.tally k p') hp,
    hs.reverifications⟩

lemma Bound.withoutPending (hs : Bound crypto e3 me D s) (id : Key) :
    Bound crypto e3 me D { s with pending := remove s.pending id } :=
  ⟨hs.e3Id, hs.myAddress, hs.received, forall_remove hs.tally, hs.reverifications⟩

lemma OwnBound.push (hp : OwnBound crypto e3 me D id p)
    (hv : v.voter = me → Holds D (p.accusation.accused, p.accusation.proofType) v.dataHash) :
    OwnBound crypto e3 me D id { p with votesFor := p.votesFor ++ [v] } := by
  refine ⟨hp.id_eq, hp.e3Id, ?_⟩
  intro w hw hme
  rcases List.mem_append.1 hw with hw | hw
  · exact hp.own w hw hme
  · obtain rfl := List.mem_singleton.1 hw
    exact hv hme

lemma Bound.rules (hD : Preimages crypto D) :
    Rules crypto (Bound crypto e3 me D) (OwnBound crypto e3 me D) (EvidenceBound crypto me) where
  frame := Bound.frame
  tally := Bound.tally
  put := Bound.withPending
  remove := Bound.withoutPending
  quorum hs hp _ := hp.evidenceBound hD hs.received
  peer hs hp hadm _ _ _ _ := by
    -- The votes of peers are never this node's.
    have hpeer := hs.myAddress ▸ (Voting.admitVote_ok hadm).2.2.2.1
    exact hp.push fun hme => absurd hme hpeer

/-! ## Votes of this node -/

variable {acc : ProofFailureAccusation}

lemma ownBound_of_casts (he3 : acc.e3Id = e3)
    (hholds : Holds D (acc.accused, acc.proofType) dataHash)
    (hcasts : s.Casts crypto acc dataHash vote) (due : ℕ) :
    OwnBound crypto e3 me D (crypto.accusationId acc) ⟨acc, [vote], due⟩ := by
  refine ⟨rfl, he3, fun v hv _ => ?_⟩
  obtain rfl := List.mem_singleton.1 hv
  obtain ⟨signature, -, rfl⟩ := Voting.signVote_eq_some hcasts
  exact hholds

variable (hD : Preimages crypto D) (hs : Bound crypto e3 me D s)

include hD hs

variable {d : DeferredAccusation} {key : Address × ProofType} {received : ReceivedProofData}

lemma initiate_bound (now : ℕ) (hholds : Holds D (d.accusedAddress, d.proofType) d.dataHash) :
    SafeEvidence crypto e3 me D (s.initiateAccusation crypto now d) := by
  refine (Bound.rules hD).initiateAccusation hs now ?_
  intro acc vote due he3 haccd htype hcasts
  exact ownBound_of_casts (he3.trans hs.e3Id) (by rwa [haccd, htype]) hcasts due

lemma accuseWhenRun_bound (now : ℕ) (hholds : Holds D (d.accusedAddress, d.proofType) d.dataHash) :
    SafeEvidence crypto e3 me D (s.accuseWhenEffectsRun crypto now d) := by
  unfold Voting.accuseWhenEffectsRun
  split_ifs with heffs hheld
  · exact initiate_bound hD hs now hholds
  · exact .nil hs
  · exact .nil { hs with }

lemma onEffectsEnabled_bound (now : ℕ)
    (hholds : ∀ d ∈ s.deferredAccusations, Holds D (d.accusedAddress, d.proofType) d.dataHash) :
    SafeEvidence crypto e3 me D (s.onEffectsEnabled crypto now) := by
  exact (Bound.rules hD).onEffectsEnabled hs now { hs with } fun d hd s' hs' =>
    initiate_bound hD hs' now (hholds d hd)

/-! ## Accusations of peers -/

variable (hids : crypto.DistinctIds e3)

include hids in
omit hD hs in
/-- Accusations with one identifier are about one proof type of one node. -/
lemma same_proof (ha : a.e3Id = e3) (hb : b.e3Id = e3)
    (h : crypto.accusationId a = crypto.accusationId b) :
    (a.accused, a.proofType) = (b.accused, b.proofType) := by
  apply hids
  unfold Crypto.accusationId at h
  rwa [ha, hb] at h

include hids in
lemma adoptWindow_bound (now : ℕ) (he3 : acc.e3Id = e3) : SafeEvidence crypto e3 me D
      (s.adoptLaterVoteWindow crypto now (crypto.accusationId acc) acc) := by
  obtain hidle | ⟨votes, hvotes, hcoll⟩ := s.adoptWindow_cases crypto now acc
  · exact (Bound.rules hD).idle hs hidle
  · refine (Bound.rules hD).collects hs hcoll fun due => ⟨rfl, he3, ?_⟩
    rcases hvotes with rfl | ⟨p, v, w, hp, hv, hown, hsign, rfl⟩
    · simp
    · intro u hu _
      obtain rfl := List.mem_singleton.1 hu
      have hpend := hs.tally _ p hp
      obtain ⟨signature, -, rfl⟩ := Voting.signVote_eq_some hsign
      rw [same_proof hids he3 hpend.e3Id hpend.id_eq]
      exact hpend.own v hv (hown.trans hs.myAddress)

include hids in
lemma onAccusation_bound (now cid : ℕ) (acc : ProofFailureAccusation) :
    SafeEvidence crypto e3 me D (s.onAccusationReceived crypto now cid acc) := by
  refine (Bound.rules hD).onAccusationReceived hs now cid ?_ ?_ ?_
  · exact fun he3 => adoptWindow_bound hD hs hids now (he3.trans hs.e3Id)
  · intro received vote due he3 hrecv _ hcasts
    rw [hs.received] at hrecv
    exact ownBound_of_casts (he3.trans hs.e3Id) ⟨received, hrecv, rfl⟩ hcasts due
  · intro he3 forwarded
    replace he3 := he3.trans hs.e3Id
    refine (Bound.rules hD).reverifyForwarded hs now (fun _ => ⟨rfl, he3, by simp⟩) ?_
    refine fun s' hs' => { hs' with reverifications := fun e he => ?_ }
    rcases List.mem_cons.1 he with rfl | he
    · exact ⟨rfl, by rw [← he3]; rfl⟩
    · exact hs'.reverifications e (List.mem_filter.1 he).1

omit hD hs

/-! ## Results in the cache -/

/-- This node's votes on a proof type of a node are about data with a hash. -/
def Voting.Settled (s : Voting) (key : Address × ProofType) (dataHash : Key) : Prop :=
  ∀ id p, get s.pending id = some p → (p.accusation.accused, p.accusation.proofType) = key →
    ∀ v ∈ p.votesFor, v.voter = s.myAddress → v.dataHash = dataHash

include hD in
lemma Preimages.put (h : crypto.keccak256 received.evidence = received.dataHash) :
    Preimages crypto (put D key received) :=
  forall_put (fun k r _ => hD k r) h

/-- A result takes the place of another one that the votes are not about. -/
lemma OwnBound.cache (hp : OwnBound crypto e3 me D id p)
    (hsettled : (p.accusation.accused, p.accusation.proofType) = key →
      ∀ v ∈ p.votesFor, v.voter = me → v.dataHash = received.dataHash) :
    OwnBound crypto e3 me (put D key received) id p := by
  refine ⟨hp.id_eq, hp.e3Id, ?_⟩
  intro v hv hme
  by_cases hkey : (p.accusation.accused, p.accusation.proofType) = key
  · refine ⟨received, ?_, (hsettled hkey v hv hme).symm⟩
    rw [hkey, get_put_self]
  · obtain ⟨r, hr, hhash⟩ := hp.own v hv hme
    refine ⟨r, ?_, hhash⟩
    rw [get_put, if_neg hkey]
    exact hr

lemma Bound.cache (hs : Bound crypto e3 me D s) (hsettled : s.Settled key received.dataHash) :
    Bound crypto e3 me (put D key received) { s with
      receivedData := put s.receivedData key received } := by
  refine ⟨hs.e3Id, hs.myAddress, congrArg (put · key received) hs.received, ?_, hs.reverifications⟩
  intro id p hp
  refine (hs.tally id p hp).cache fun hkey v hv hme => ?_
  exact hsettled id p hp hkey v hv (hme.trans hs.myAddress.symm)

lemma holds_put (key : Address × ProofType) (received : ReceivedProofData) :
    Holds (put D key received) key received.dataHash :=
  ⟨received, get_put_self _ _ _, rfl⟩

include hD hs hids in
lemma voteAfter_bound (hid : r.accusationId = crypto.accusationKey e3 r.accused r.proofType)
    (hholds : Holds D (r.accused, r.proofType) r.dataHash) :
    SafeEvidence crypto e3 me D (s.voteAfterReverification crypto r) := by
  refine (Bound.rules hD).voteAfterReverification hs r fun p vote hp hvote => ?_
  have hpend := hs.tally _ p hp
  have hsame : (r.accused, r.proofType) = (p.accusation.accused, p.accusation.proofType) := by
    have hkeys := hid.symm.trans hpend.id_eq
    unfold Crypto.accusationId at hkeys
    rw [hpend.e3Id] at hkeys
    exact hids hkeys
  obtain ⟨signature, -, rfl⟩ := Voting.signVote_eq_some hvote
  exact hpend.push fun _ => hsame ▸ hholds

include hD hs hids in
lemma reverification_bound (cid : ℕ) (resp : Voting.ComputeResponse)
    (hsettled : ∀ r, get s.pendingReverifications cid = some r →
      s.Settled (r.accused, r.proofType) r.dataHash) :
    ∃ D', Preimages crypto D' ∧ SafeEvidence crypto e3 me D'
      (s.handleReverificationResponse crypto cid resp) := by
  obtain hidle | ⟨r, zkPassed, rest, hr, -, heq⟩ :=
    s.reverification_cases crypto cid resp
  · exact ⟨D, hD, (Bound.rules hD).idle hs hidle⟩
  · obtain ⟨hpreim, hid⟩ := hs.reverifications _ (mem_of_get hr)
    have hput : Preimages crypto (put D (r.accused, r.proofType)
        ⟨r.dataHash, zkPassed, r.evidence⟩) := hD.put hpreim
    have hcach := @Bound.cache crypto e3 me D s (r.accused, r.proofType)
      ⟨r.dataHash, zkPassed, r.evidence⟩ hs (hsettled r hr)
    have hafter : Bound crypto e3 me (put D (r.accused, r.proofType)
        ⟨r.dataHash, zkPassed, r.evidence⟩) (s.afterReverification cid r zkPassed) :=
      { hcach with
        reverifications := fun e he => hcach.reverifications e (List.mem_filter.1 he).1 }
    refine ⟨_, hput, ?_⟩
    rw [heq]
    cases zkPassed with
    | true => exact .nil hafter
    | false => exact voteAfter_bound hput hafter hids hid (holds_put _ _)

lemma OwnBound.purge (hp : OwnBound crypto e3 me D id p) (node : Address) :
    OwnBound crypto e3 me D id
      { p with votesFor := p.votesFor.filter fun v => v.voter ≠ node } :=
  ⟨hp.id_eq, hp.e3Id, fun v hv hme => hp.own v (List.mem_filter.1 hv).1 hme⟩

lemma onExpelled_bound (hs : Bound crypto e3 me D s) (e3Id : E3Id) (node : Address) :
    Bound crypto e3 me D (s.onMemberExpelled e3Id node) := by
  obtain hsame | ⟨buf, heq⟩ := s.onExpelled_cases e3Id node
  · rw [hsame]
    exact hs
  · rw [heq]
    refine ⟨hs.e3Id, hs.myAddress, hs.received, ?_, hs.reverifications⟩
    intro id p hp
    rw [get_mapValues] at hp
    obtain ⟨p', hp', rfl⟩ := Option.map_eq_some_iff.1 hp
    exact (hs.tally id p' hp').purge node

end

/-! ## Runs -/

/-- An event that leaves the data that this node has voted on in the cache, and whose own data is
what its hash says. -/
def Steady (crypto : Crypto) (s : Voting) : Event → Prop
  | .localProofFailure event => s.Settled (event.accusedAddress, event.proofType) event.dataHash
  | .consistencyViolation data => crypto.keccak256 data.evidence = data.dataHash ∧
    s.Settled (data.accusedAddress, data.proofType) data.dataHash
  | .proofVerificationPassed data =>
    crypto.keccak256 (crypto.abiEncode data.proofData data.publicSignals) = data.dataHash ∧
    s.Settled (data.address, data.proofType) data.dataHash
  | .reverificationResponse correlationId _ => ∀ r,
    get s.pendingReverifications correlationId = some r →
      s.Settled (r.accused, r.proofType) r.dataHash
  | .effectsEnabled => ∀ d ∈ s.deferredAccusations,
    Holds s.receivedData (d.accusedAddress, d.proofType) d.dataHash
  | _ => True

/-- The evidence is bound to the votes, with the cache as it is. -/
def EvidenceSound (crypto : Crypto) (e3 : E3Id) (me : Address) (s : Voting) : Prop :=
  Bound crypto e3 me s.receivedData s ∧ Preimages crypto s.receivedData

section

variable {crypto : Crypto} {e3 : E3Id} {me : Address} {s : Voting}

lemma SafeEvidence.sound (hD : Preimages crypto D) (hr : SafeEvidence crypto e3 me D r) :
    Safe (EvidenceSound crypto e3 me) (Decided (EvidenceBound crypto me)) r := by
  have hrecv := hr.state.received
  subst hrecv
  exact ⟨⟨hr.state, hD⟩, hr.actions⟩

lemma handle_evidence (now : ℕ) (hids : crypto.DistinctIds e3)
    (hs : EvidenceSound crypto e3 me s) (hsteady : Steady crypto s event) :
    Safe (EvidenceSound crypto e3 me) (Decided (EvidenceBound crypto me))
      (event.handle crypto now s) := by
  obtain ⟨hbound, hD⟩ := hs
  cases event with
  | localProofFailure event =>
    change Safe _ _ (s.onLocalProofFailure crypto now event)
    unfold Voting.onLocalProofFailure
    cases hadm : s.admitLocalFailure crypto event with
    | error _ => exact .nil ⟨hbound, hD⟩
    | ok event' =>
      obtain ⟨rfl, -, hhash⟩ := Voting.admitLocalFailure_ok hadm
      have hput : Preimages crypto (put s.receivedData (event'.accusedAddress, event'.proofType)
          ⟨event'.dataHash, false, crypto.payloadEvidence event'.signedPayload⟩) := hD.put hhash
      exact SafeEvidence.sound hput
        (accuseWhenRun_bound hput (hbound.cache hsteady) now (holds_put _ _))
  | consistencyViolation data =>
    change Safe _ _ (s.onConsistencyViolation crypto now data)
    unfold Voting.onConsistencyViolation
    cases hadm : s.admitViolation data with
    | error _ => exact .nil ⟨hbound, hD⟩
    | ok data' =>
      obtain ⟨rfl, -⟩ := Voting.admitViolation_ok hadm
      have hput : Preimages crypto (put s.receivedData (data'.accusedAddress, data'.proofType)
          ⟨data'.dataHash, false, data'.evidence⟩) := hD.put hsteady.1
      exact SafeEvidence.sound hput
        (accuseWhenRun_bound hput (hbound.cache hsteady.2) now (holds_put _ _))
  | proofVerificationPassed data =>
    change Safe _ _ ([], s.onProofVerificationPassed crypto data)
    unfold Voting.onProofVerificationPassed
    apply Safe.nil
    split_ifs
    · exact ⟨hbound, hD⟩
    · exact ⟨hbound.cache hsteady.2, hD.put hsteady.1⟩
    · exact ⟨hbound, hD⟩
  | accusationReceived cid acc =>
    exact SafeEvidence.sound hD (onAccusation_bound hD hbound hids now cid acc)
  | voteReceived vote => exact SafeEvidence.sound hD ((Bound.rules hD).onVoteReceived hbound vote)
  | voteTimeout id => exact SafeEvidence.sound hD ((Bound.rules hD).onVoteTimeout hbound id)
  | memberExpelled e3Id node =>
    exact SafeEvidence.sound hD (.nil (onExpelled_bound hbound e3Id node))
  | reverificationResponse cid resp =>
    obtain ⟨D', hD', hsafe⟩ :=
      reverification_bound hD hbound hids cid resp hsteady
    exact SafeEvidence.sound hD' hsafe
  | holdAccusations =>
    exact .nil ⟨{ hbound with }, hD⟩
  | effectsEnabled => exact SafeEvidence.sound hD (onEffectsEnabled_bound hD hbound now hsteady)
  | publishFailed key =>
    exact .nil ⟨{ hbound with }, hD⟩
  | dispatchFailed cid =>
    exact .nil ⟨⟨hbound.e3Id, hbound.myAddress, rfl, hbound.tally,
      fun e he => hbound.reverifications e (List.mem_filter.1 he).1⟩, hD⟩

lemma reachable_evidence (hids : crypto.DistinctIds e3)
    (hs : Reachable crypto (Steady crypto) (Voting.new e3 me slashingManager committee
      circuitThresholdT voteQuorumH voteValiditySecs skewSecs) s) :
    EvidenceSound crypto e3 me s := by
  induction hs with
  | start =>
    refine ⟨⟨rfl, rfl, rfl, ?_, ?_⟩, ?_⟩
    · simp [Voting.new]
    · simp [Voting.new]
    · simp [Voting.new, Preimages]
  | step now event _ hsteady ih => exact (handle_evidence now hids ih hsteady).state

/-- In a run whose events are all steady, the evidence of every quorum that finds a node at fault
and has this node's vote is a preimage of the hash that all its voters signed. -/
theorem quorum_evidence_bound {slashingManager : Address} {committee : List Address}
    {circuitThresholdT voteQuorumH voteValiditySecs skewSecs : ℕ} (hids : crypto.DistinctIds e3)
    (hs : Reachable crypto (Steady crypto) (Voting.new e3 me slashingManager committee
      circuitThresholdT voteQuorumH voteValiditySecs skewSecs) s)
    (now : ℕ) {event : Event} (hsteady : Steady crypto s event) {q : AccusationQuorumReached}
    (hq : .publishQuorum q ∈ (event.handle crypto now s).1)
    (hfaulted : q.outcome = .accusedFaulted) (hown : ∃ v ∈ q.votesFor, v.voter = me) :
    ∀ v ∈ q.votesFor, crypto.keccak256 q.evidence = v.dataHash := by
  have hsafe := handle_evidence now hids (reachable_evidence hids hs) hsteady
  have hdecided : q.outcome ≠ .inconclusive := by
    rw [hfaulted]
    nofun
  exact hsafe.actions _ hq hdecided hfaulted hown

end

/-! ## Two proofs of one type -/

/-- Another proof of the third member, which verifies. -/
def sampleOther : Event := .proofVerificationPassed
  ⟨sampleE3, 2, 3, .c3aSkShareEncryption, sampleCrypto.computePayloadHash (samplePayload 9), [8],
    [9]⟩

/-- The votes are about the proof that failed, and the evidence is the proof that verified. -/
theorem later_proof_replaces_evidence :
    ∃ s q, Reachable sampleCrypto (fun _ _ => True) sampleStart s ∧
      .publishQuorum q ∈ ((Event.voteReceived sampleVote).handle sampleCrypto 100 s).1 ∧
      q.outcome = .accusedFaulted ∧ q.votesFor.map AccusationVote.voter = [1, 2] ∧
      ∀ v ∈ q.votesFor, sampleCrypto.keccak256 q.evidence ≠ v.dataHash := by
  have hrun : (quorums ((Event.voteReceived sampleVote).handle sampleCrypto 100
      (runEvents sampleCrypto 100 [sampleFailure, sampleOther] sampleStart)).1).map
        (fun q => (q.outcome, q.votesFor.map AccusationVote.voter,
          decide (∀ v ∈ q.votesFor, sampleCrypto.keccak256 q.evidence ≠ v.dataHash))) =
      [(.accusedFaulted, [1, 2], true)] := by decide +kernel
  obtain ⟨q, hq, hpair⟩ := List.mem_map.1 (hrun ▸ List.mem_singleton_self _)
  obtain ⟨houtcome, hpair⟩ := Prod.mk.inj hpair
  obtain ⟨hvoters, hevidence⟩ := Prod.mk.inj hpair
  exact ⟨_, q, reachable_runEvents sampleCrypto 100 _ sampleStart, mem_of_mem_quorums hq, houtcome,
    hvoters, of_decide_eq_true hevidence⟩

lemma code_injective : Function.Injective ProofType.code := by
  intro a b h
  cases a <;> cases b <;> first | rfl | exact absurd h (by decide)

lemma code_lt (ty : ProofType) : ty.code < 189 := by
  cases ty <;> decide

lemma decode_word (k : Key) : decode (Evidence.word k) = Fin.val k :=
  decode_encode (lt_of_lt_of_le (Fin.isLt k) (by decide))

lemma decode_packedAddress (a : Address) : decode (Evidence.packedAddress a) = Fin.val a :=
  decode_encode (lt_of_lt_of_le (Fin.isLt a) (by decide))

/-- What is hashed for an identifier: the modulus is 189 below the weight of the address. -/
lemma decode_sample (a : Address) (ty : ProofType) :
    decode (Evidence.word sampleE3.chainId ++ (Evidence.word sampleE3.id ++
      (Evidence.packedAddress a ++ Evidence.word (u256 ty.code)))) = 256 ^ 84 + 4 * 256 ^ 52 +
          (Fin.val a * (2 ^ 256 - 189) + (189 * Fin.val a + ty.code)) := by
  have hcode : Fin.val (u256 ty.code) = ty.code :=
    Nat.mod_eq_of_lt (lt_trans (code_lt ty) (by decide))
  have hchain : Fin.val sampleE3.chainId = 1 := rfl
  have hid : Fin.val sampleE3.id = 4 := rfl
  have hword : ∀ k, (Evidence.word k).length = 32 := fun k => length_encode _ _
  have haddr : (Evidence.packedAddress a).length = 20 := length_encode _ _
  simp only [decode_append, decode_word, decode_packedAddress, List.length_append, hword,
    haddr, hcode, hchain, hid]
  omega

lemma sampleHash_modEq (h : sampleHash x = sampleHash y) :
    decode x ≡ decode y [MOD 2 ^ 256 - 189] := by
  have hval := congrArg Fin.val h
  have hlt : ∀ n : ℕ, n % (2 ^ 256 - 189) < 2 ^ 256 := fun n =>
    lt_trans (Nat.mod_lt n (by decide)) (by decide)
  simp only [sampleHash, Fin.val_ofNat, Nat.mod_eq_of_lt (hlt _)] at hval
  exact hval

lemma sampleCrypto_distinctIds : sampleCrypto.DistinctIds sampleE3 := by
  rintro ⟨a, t⟩ ⟨b, u⟩ h
  have hmod := sampleHash_modEq h
  rw [decode_sample, decode_sample] at hmod
  have hmod := Nat.ModEq.add_left_cancel' _ hmod
  have hsmall : 189 * Fin.val a + t.code ≡ 189 * Fin.val b + u.code [MOD 2 ^ 256 - 189] := by
    unfold Nat.ModEq at hmod ⊢
    rwa [Nat.mul_add_mod_self_right, Nat.mul_add_mod_self_right] at hmod
  have ha : Fin.val a < 2 ^ 160 := Fin.isLt a
  have hb : Fin.val b < 2 ^ 160 := Fin.isLt b
  have ht := code_lt t
  have hu := code_lt u
  have heq := hsmall.eq_of_lt_of_lt (by omega) (by omega)
  have hval : Fin.val a = Fin.val b := by omega
  have hcode : t.code = u.code := by omega
  rw [Fin.ext hval, code_injective hcode]

theorem quorum_evidence_bound_sample :
    ∃ s q, .publishQuorum q ∈ ((Event.voteReceived sampleVote).handle sampleCrypto 100 s).1 ∧
      q.votesFor.map AccusationVote.voter = [1, 2] ∧
      ∀ v ∈ q.votesFor, sampleCrypto.keccak256 q.evidence = v.dataHash := by
  obtain ⟨q, hq, houtcome, hvoters⟩ := sample_quorum
  have hstart : Steady sampleCrypto sampleStart sampleFailure :=
    fun id p hp => absurd hp (by simp [sampleStart, Voting.new])
  have hs : Reachable sampleCrypto (Steady sampleCrypto) sampleStart
      (sampleFailure.handle sampleCrypto 100 sampleStart).2 := .step 100 _ .start hstart
  have hsteady : Steady sampleCrypto (sampleFailure.handle sampleCrypto 100 sampleStart).2
      (.voteReceived sampleVote) := trivial
  have hown : ∃ v ∈ q.votesFor, v.voter = 1 := by
    apply List.mem_map.1
    rw [hvoters]
    exact List.mem_cons_self
  exact ⟨_, q, mem_of_mem_quorums hq, hvoters, quorum_evidence_bound sampleCrypto_distinctIds hs 100
    hsteady (mem_of_mem_quorums hq) houtcome hown⟩

end Interfold.AccusationVoting
