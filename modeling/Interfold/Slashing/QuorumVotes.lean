import Interfold.Slashing.AccusationSteps

/-!
# The votes of a quorum

Every way into a tally is followed by what the contract will ask of the votes: distinct voters on
the committee, none of them the accused, one accusation and one window. The votes of peers are
checked for all of it. A vote of this node that follows from a re-verification is not, and the tally
can get it twice or against the node itself.
-/

namespace Interfold.AccusationVoting

open Links AssocList Emission
open Evidence (word)

/-- The signature of a vote is the voter's. -/
def Crypto.Signed (crypto : Crypto) (slashingManager : Address) (v : AccusationVote) : Prop :=
  crypto.recoverPrehash (crypto.voteDigest v slashingManager) v.signature = some v.voter

/-- The node's own signatures are recovered as its own. -/
def Crypto.SignsFor (crypto : Crypto) (me : Address) : Prop :=
  ∀ digest signature, crypto.signHash digest = some signature →
    crypto.recoverPrehash digest signature = some me

/-- A vote that the contract would count for an accusation. -/
structure Counted (crypto : Crypto) (R : Roster) (accusation : ProofFailureAccusation)
    (v : AccusationVote) : Prop where
  e3Id : v.e3Id = R.e3Id
  accusationId : v.accusationId = crypto.accusationId accusation
  member : v.voter ∈ R.committee
  other : v.voter ≠ accusation.accused
  issuedAt : v.issuedAt = accusation.issuedAt
  deadline : v.deadline = accusation.deadline
  signed : crypto.Signed R.slashingManager v

structure Tally (crypto : Crypto) (R : Roster) (id : Key) (p : PendingAccusation) : Prop where
  id_eq : id = crypto.accusationId p.accusation
  e3Id : p.accusation.e3Id = R.e3Id
  distinct : (p.votesFor.map AccusationVote.voter).Nodup
  counted : ∀ v ∈ p.votesFor, Counted crypto R p.accusation v

/-- All tallies are right, and this node holds no accusation of itself. -/
structure Sound (crypto : Crypto) (R : Roster) (s : Voting) : Prop where
  roster : s.roster = R
  tally : ∀ id p, get s.pending id = some p → Tally crypto R id p
  deferred : ∀ d ∈ s.deferredAccusations, d.accusedAddress ≠ R.myAddress

/-- A quorum that the contract does not reject for its votes. -/
structure Acceptable (crypto : Crypto) (R : Roster) (q : AccusationQuorumReached) : Prop where
  e3Id : q.e3Id = R.e3Id
  quorum : R.voteQuorumH ≤ q.votesFor.length
  distinct : (q.votesFor.map AccusationVote.voter).Nodup
  votes : ∃ issuedAt deadline, ∀ v ∈ q.votesFor,
    v.e3Id = R.e3Id ∧ v.accusationId = crypto.accusationKey R.e3Id q.accused q.proofType ∧
    v.voter ∈ R.committee ∧ v.voter ≠ q.accused ∧
    v.issuedAt = issuedAt ∧ v.deadline = deadline ∧ crypto.Signed R.slashingManager v
  outcome : q.outcome = .accusedFaulted ↔
    ∀ v ∈ q.votesFor, ∀ w ∈ q.votesFor, v.dataHash = w.dataHash

/-! ## Quorums -/

lemma dedup_length_le_one_iff {α : Type} [DecidableEq α] (l : List α) :
    ¬1 < l.dedup.length ↔ ∀ a ∈ l, ∀ b ∈ l, a = b := by
  constructor
  · intro h a ha b hb
    by_contra hne
    have hsub : [a, b].Subperm l.dedup := by
      refine List.subperm_of_subset (by simpa using hne) ?_
      simp [ha, hb]
    exact h hsub.length_le
  · intro h hlen
    obtain ⟨a, b, rest, hdedup⟩ : ∃ a b rest, l.dedup = a :: b :: rest := by
      match hl : l.dedup with
      | [] => simp [hl] at hlen
      | [a] => simp [hl] at hlen
      | a :: b :: rest => exact ⟨a, b, rest, rfl⟩
    have hnodup := l.nodup_dedup
    rw [hdedup] at hnodup
    have ha : a ∈ l := List.mem_dedup.1 (by simp [hdedup])
    have hb : b ∈ l := List.mem_dedup.1 (by simp [hdedup])
    simp [h a ha b hb] at hnodup

lemma agreed_eq_faulted (votes : List AccusationVote) :
    Voting.agreedOutcome votes = .accusedFaulted ↔
      ∀ v ∈ votes, ∀ w ∈ votes, v.dataHash = w.dataHash := by
  have hall := dedup_length_le_one_iff (votes.map AccusationVote.dataHash)
  simp only [List.forall_mem_map] at hall
  rw [← hall]
  unfold Voting.agreedOutcome
  split_ifs with h <;> simp [h]

section

variable {crypto : Crypto} {R : Roster} {s s' : Voting} {id : Key} {p : PendingAccusation}

lemma Tally.acceptable (ht : Tally crypto R id p) (hs : Sound crypto R s)
    (hquor : s.voteQuorumH ≤ p.votesFor.length) :
    Acceptable crypto R (s.quorumReached p (Voting.agreedOutcome p.votesFor)) := by
  obtain rfl := hs.roster
  refine ⟨rfl, hquor, ht.distinct, ⟨p.accusation.issuedAt, p.accusation.deadline, ?_⟩,
    agreed_eq_faulted _⟩
  intro v hv
  have hc := ht.counted v hv
  refine ⟨hc.e3Id, ?_, hc.member, hc.other, hc.issuedAt, hc.deadline, hc.signed⟩
  rw [hc.accusationId, Crypto.accusationId, ht.e3Id]
  rfl

lemma Sound.frame (hs : Sound crypto R s) (h : Frame s s') : Sound crypto R s' := by
  refine ⟨h.roster.trans hs.roster, ?_, ?_⟩
  · rw [h.pending]
    exact hs.tally
  · rw [h.deferred]
    exact hs.deferred

lemma Sound.withPending (hs : Sound crypto R s) (ht : Tally crypto R id p) :
    Sound crypto R { s with pending := put s.pending id p } :=
  ⟨hs.roster, forall_put (fun k p' _ => hs.tally k p') ht, hs.deferred⟩

lemma Sound.withoutPending (hs : Sound crypto R s) (id : Key) :
    Sound crypto R { s with pending := remove s.pending id } :=
  ⟨hs.roster, forall_remove hs.tally, hs.deferred⟩

/-- The state stays sound and the quorums are acceptable. -/
abbrev SafeVotes (crypto : Crypto) (R : Roster) : Voting.Effect → Prop :=
  Safe (Sound crypto R) (Decided (Acceptable crypto R))

/-! ## Votes -/

/-- A vote by a new voter. -/
lemma Tally.push (ht : Tally crypto R id p) (hv : Counted crypto R p.accusation v)
    (hnew : ∀ w ∈ p.votesFor, w.voter ≠ v.voter) :
    Tally crypto R id { p with votesFor := p.votesFor ++ [v] } := by
  refine ⟨ht.id_eq, ht.e3Id, ?_, ?_⟩
  · rw [List.map_append, List.map_singleton, ← List.concat_eq_append]
    apply ht.distinct.concat
    intro hmem
    obtain ⟨w, hw, hvoter⟩ := List.mem_map.1 hmem
    exact hnew w hw hvoter
  · intro w hw
    rcases List.mem_append.1 hw with hw | hw
    · exact ht.counted w hw
    · exact List.mem_singleton.1 hw ▸ hv

lemma Sound.rules (crypto : Crypto) (R : Roster) :
    Rules crypto (Sound crypto R) (Tally crypto R) (Acceptable crypto R) where
  frame := Sound.frame
  tally := Sound.tally
  put := Sound.withPending
  remove := Sound.withoutPending
  quorum hs ht hquor := ht.acceptable hs hquor
  peer {s p v} hs ht hadmit hiss hdead hother hnew := by
    obtain ⟨-, he3, hmember, -, hsig⟩ := Voting.admitVote_ok hadmit
    obtain rfl := hs.roster
    have hsig : crypto.Signed s.slashingManager v := by
      simpa [Voting.verifyVoteSignature, Crypto.Signed] using hsig
    exact ht.push ⟨he3, ht.id_eq, hmember, hother, hiss, hdead, hsig⟩ hnew

/-! ## Votes of this node -/

variable {acc : ProofFailureAccusation} (hs : Sound crypto R s)
  (hsigns : crypto.SignsFor s.myAddress) (hmember : s.myAddress ∈ s.committee)

include hsigns in
lemma signed_of_signVote (hown : v.voter = s.myAddress) (h : s.signVote crypto v = some w) :
    crypto.Signed s.slashingManager w := by
  obtain ⟨sig, hsign, rfl⟩ := Voting.signVote_eq_some h
  have hrecov := hsigns _ _ hsign
  rw [← hown] at hrecov
  exact hrecov

include hsigns hmember in
/-- A vote that this node casts is counted when the node is on the committee and not accused. -/
lemma counted_of_casts (hother : s.myAddress ≠ acc.accused)
    (hcasts : s.Casts crypto acc dataHash vote) : Counted crypto s.roster acc vote := by
  have hsig := signed_of_signVote hsigns rfl hcasts
  obtain ⟨sig, -, rfl⟩ := Voting.signVote_eq_some hcasts
  exact ⟨rfl, rfl, hmember, hother, rfl, rfl, hsig⟩

include hs in
lemma tally_of_counted (he3 : acc.e3Id = s.e3Id) (hdist : (votes.map AccusationVote.voter).Nodup)
    (hcnt : ∀ v ∈ votes, Counted crypto R acc v) (due : ℕ) :
    Tally crypto R (crypto.accusationId acc) ⟨acc, votes, due⟩ :=
  ⟨rfl, he3.trans (congrArg Roster.e3Id hs.roster), hdist, hcnt⟩

include hs hsigns hmember

lemma tally_of_casts (he3 : acc.e3Id = s.e3Id) (hother : s.myAddress ≠ acc.accused)
    (hcasts : s.Casts crypto acc dataHash vote) (due : ℕ) :
    Tally crypto R (crypto.accusationId acc) ⟨acc, [vote], due⟩ := by
  obtain rfl := hs.roster
  refine ⟨rfl, he3, List.nodup_singleton _, fun v hv => ?_⟩
  rw [List.mem_singleton.1 hv]
  exact counted_of_casts hsigns hmember hother hcasts

variable {d : DeferredAccusation}

lemma initiate_safe (now : ℕ) (hother : d.accusedAddress ≠ s.myAddress) :
    SafeVotes crypto R (s.initiateAccusation crypto now d) := by
  refine (Sound.rules crypto R).initiateAccusation hs now ?_
  intro acc vote due he3 haccd _ hcasts
  exact tally_of_casts hs hsigns hmember he3 (haccd ▸ hother.symm) hcasts due

lemma accuseWhenRun_safe (now : ℕ) (hother : d.accusedAddress ≠ s.myAddress) :
    SafeVotes crypto R (s.accuseWhenEffectsRun crypto now d) := by
  unfold Voting.accuseWhenEffectsRun
  split_ifs with heffs hheld
  · exact initiate_safe hs hsigns hmember now hother
  · exact .nil hs
  · refine .nil { hs with deferred := ?_ }
    intro held hmem
    rcases List.mem_append.1 hmem with hmem | hmem
    · exact hs.deferred held hmem
    · rw [List.mem_singleton.1 hmem, ← hs.roster]
      exact hother

lemma onFailure_safe (now : ℕ) (event : ProofVerificationFailed) :
    SafeVotes crypto R (s.onLocalProofFailure crypto now event) := by
  unfold Voting.onLocalProofFailure
  cases hadmit : s.admitLocalFailure crypto event with
  | error _ => exact .nil hs
  | ok event' =>
    obtain ⟨rfl, hother, -⟩ := Voting.admitLocalFailure_ok hadmit
    refine accuseWhenRun_safe ?_ ?_ ?_ now ?_
    exacts [{ hs with }, hsigns, hmember, hother]

lemma onViolation_safe (now : ℕ) (data : CommitmentConsistency.Violation E3Id) :
    SafeVotes crypto R (s.onConsistencyViolation crypto now data) := by
  unfold Voting.onConsistencyViolation
  cases hadmit : s.admitViolation data with
  | error _ => exact .nil hs
  | ok data' =>
    obtain ⟨rfl, hother⟩ := Voting.admitViolation_ok hadmit
    refine accuseWhenRun_safe ?_ ?_ ?_ now ?_
    exacts [{ hs with }, hsigns, hmember, hother]

lemma onEffectsEnabled_safe (now : ℕ) : SafeVotes crypto R (s.onEffectsEnabled crypto now) := by
  obtain rfl := hs.roster
  refine (Sound.rules crypto _).onEffectsEnabled hs now ⟨rfl, hs.tally, by simp⟩ ?_
  intro d hd s' hs'
  have hme : s'.myAddress = s.myAddress := congrArg Roster.myAddress hs'.roster
  have hcomm : s'.committee = s.committee := congrArg Roster.committee hs'.roster
  refine initiate_safe hs' (hme ▸ hsigns) (by rwa [hme, hcomm]) now ?_
  rw [hme]
  exact hs.deferred d hd

/-- This node does not vote against itself on a peer's accusation. -/
def Voting.NotAgainstItself (crypto : Crypto) (s : Voting) (a : ProofFailureAccusation) : Prop :=
  a.accused = s.myAddress →
    (∀ received, get s.receivedData (a.accused, a.proofType) = some received →
      received.verificationPassed = true) ∧
    ∀ p, get s.pending (crypto.accusationId a) = some p → ∀ v ∈ p.votesFor, v.voter ≠ s.myAddress

omit hmember in
lemma adoptWindow_safe (now : ℕ) (he3 : acc.e3Id = s.e3Id)
    (hother : s.NotAgainstItself crypto acc) : SafeVotes crypto R
      (s.adoptLaterVoteWindow crypto now (crypto.accusationId acc) acc) := by
  obtain hidle | ⟨votes, hvotes, hcoll⟩ := s.adoptWindow_cases crypto now acc
  · exact (Sound.rules crypto R).idle hs hidle
  · refine (Sound.rules crypto R).collects hs hcoll ?_
    rcases hvotes with rfl | ⟨p, v, w, hp, hv, hown, hsign, rfl⟩
    · exact tally_of_counted hs he3 List.nodup_nil (by simp)
    · refine tally_of_counted hs he3 (List.nodup_singleton _) fun u hu => ?_
      obtain rfl := List.mem_singleton.1 hu
      -- The vote was counted for the window before, and only the window has changed.
      have hcnt := (hs.tally _ p hp).counted v hv
      obtain rfl := hs.roster
      have hsig := signed_of_signVote hsigns (by exact hown) hsign
      obtain ⟨sig, -, rfl⟩ := Voting.signVote_eq_some hsign
      refine ⟨hcnt.e3Id, ?_, hcnt.member, ?_, rfl, rfl, hsig⟩
      · exact hcnt.accusationId.trans (hs.tally _ p hp).id_eq.symm
      · intro haccd
        exact (hother (haccd.symm.trans hown)).2 p hp v hv hown

lemma onAccusation_safe (now : ℕ) (hother : s.NotAgainstItself crypto acc) (cid : ℕ) :
    SafeVotes crypto R (s.onAccusationReceived crypto now cid acc) := by
  refine (Sound.rules crypto R).onAccusationReceived hs now cid ?_ ?_ ?_
  · exact fun he3 => adoptWindow_safe hs hsigns now he3 hother
  · intro received vote due he3 hrecv hpass hcasts
    refine tally_of_casts hs hsigns hmember he3 (fun hme => ?_) hcasts due
    exact hpass ((hother hme.symm).1 received hrecv)
  · intro he3 forwarded
    exact (Sound.rules crypto R).reverifyForwarded hs now
      (tally_of_counted hs he3 List.nodup_nil (by simp)) fun s' hs' => { hs' with }

omit hs hsigns hmember

/-! ## Expulsions and re-verifications -/

lemma Tally.purge (ht : Tally crypto R id p) (node : Address) :
    Tally crypto { R with committee := R.committee.filter fun a => a ≠ node } id
      { p with votesFor := p.votesFor.filter fun v => v.voter ≠ node } := by
  refine ⟨ht.id_eq, ht.e3Id, ?_, ?_⟩
  · exact ht.distinct.sublist (List.filter_sublist.map _)
  · intro v hv
    obtain ⟨hv, hne⟩ := List.mem_filter.1 hv
    have hc := ht.counted v hv
    exact ⟨hc.e3Id, hc.accusationId, List.mem_filter.2 ⟨hc.member, hne⟩, hc.other, hc.issuedAt,
      hc.deadline, hc.signed⟩

/-- The votes of a member that is expelled go with it. -/
lemma onExpelled_sound (hs : Sound crypto s.roster s) (e3Id : E3Id) (node : Address) :
    Sound crypto (s.onMemberExpelled e3Id node).roster (s.onMemberExpelled e3Id node) := by
  obtain hsame | ⟨buf, heq⟩ := s.onExpelled_cases e3Id node
  · rw [hsame]
    exact hs
  · rw [heq]
    refine ⟨rfl, ?_, hs.deferred⟩
    intro id p hp
    rw [get_mapValues] at hp
    obtain ⟨p', hp', rfl⟩ := Option.map_eq_some_iff.1 hp
    exact (hs.tally id p' hp').purge node

/-- A failed re-verification finds a tally that this node may vote in and has not voted in. -/
def Voting.MayVote (s : Voting) (accusationId : Key) : Prop :=
  ∀ p, get s.pending accusationId = some p → s.myAddress ∈ s.committee ∧
    s.myAddress ≠ p.accusation.accused ∧ ∀ v ∈ p.votesFor, v.voter ≠ s.myAddress

include hs hsigns in
lemma voteAfter_safe (r : PendingReVerification) (hmay : s.MayVote r.accusationId) :
    SafeVotes crypto R (s.voteAfterReverification crypto r) := by
  refine (Sound.rules crypto R).voteAfterReverification hs r fun p vote hp hvote => ?_
  obtain ⟨hmember, hother, hnew⟩ := hmay p hp
  have ht := hs.tally _ p hp
  obtain rfl := hs.roster
  have hcasts : s.Casts crypto p.accusation r.dataHash vote := by
    unfold Voting.Casts
    rw [← ht.id_eq]
    exact hvote
  have hcnt := counted_of_casts hsigns hmember hother hcasts
  obtain ⟨sig, -, rfl⟩ := Voting.signVote_eq_some hvote
  exact ht.push hcnt hnew

include hs hsigns in
lemma reverification_safe (cid : ℕ) (resp : Voting.ComputeResponse)
    (hmay : ∀ r rest, get s.pendingReverifications cid = some r →
      resp = .verifyShareProofs (false :: rest) → s.MayVote r.accusationId) :
    SafeVotes crypto R (s.handleReverificationResponse crypto cid resp) := by
  obtain hidle | ⟨r, zkPassed, rest, hr, hresp, heq⟩ :=
    s.reverification_cases crypto cid resp
  · exact (Sound.rules crypto R).idle hs hidle
  · have hafter : Sound crypto R (s.afterReverification cid r zkPassed) := { hs with }
    rw [heq]
    cases zkPassed with
    | true => exact .nil hafter
    | false => exact voteAfter_safe hafter hsigns r (hmay r rest hr hresp)

end

/-! ## The contract -/

/-- `encode_attestation_evidence`, before the fields are encoded. -/
def attestationEvidence (q : AccusationQuorumReached) : Option Evidence.AttestationEvidence :=
  if q.votesFor.isEmpty ∨ q.evidence.isEmpty then none
  else
    let votes := Collections.stable.sortByKey AccusationVote.voter q.votesFor
    match votes with
    | [] => none
    | first :: _ => some
      { proofType := u256 q.proofType.code
        voters := votes.map AccusationVote.voter
        dataHashes := votes.map AccusationVote.dataHash
        evidence := q.evidence
        issuedAt := u256 first.issuedAt
        deadline := u256 first.deadline
        signatures := votes.map AccusationVote.signature }

/-- A chain that hashes as the node does, on which the node's committee is active, and that recovers
the signers of a quorum as the node did. -/
structure Chain (crypto : Crypto) (R : Roster) (q : AccusationQuorumReached) (evm : Evidence.Evm)
    (registry : Evidence.RegistryViews) : Prop where
  hash : evm.keccak256 = crypto.keccak256
  chainId : evm.chainId = R.e3Id.chainId
  active : ∀ a ∈ R.committee, a ≠ 0 ∧ registry.isCommitteeMemberActive R.e3Id.id a = true
  recover : ∀ v ∈ q.votesFor, ∀ digest,
    evm.recover digest v.signature = crypto.recoverPrehash digest v.signature

section

variable {crypto : Crypto} {R : Roster} {q : AccusationQuorumReached} {evm : Evidence.Evm}
  {reg : Evidence.RegistryViews} {att : Evidence.AttestationEvidence}

lemma evidence_eq_some (h : attestationEvidence q = some att) :
    ∃ votes first, votes = Collections.stable.sortByKey AccusationVote.voter q.votesFor ∧
      first ∈ votes ∧ att =
        { proofType := u256 q.proofType.code
          voters := votes.map AccusationVote.voter
          dataHashes := votes.map AccusationVote.dataHash
          evidence := q.evidence
          issuedAt := u256 first.issuedAt
          deadline := u256 first.deadline
          signatures := votes.map AccusationVote.signature } := by
  unfold attestationEvidence at h
  split_ifs at h
  dsimp only at h
  split at h
  · cases h
  · rename_i first rest hvotes
    refine ⟨_, first, rfl, ?_, ?_⟩
    · rw [hvotes]
      exact List.mem_cons_self
    · exact (Option.some.inj h).symm

/-- The node and the contract build one digest. -/
lemma voteDigest_eq (hhash : evm.keccak256 = crypto.keccak256) (he3 : context.e3Id = v.e3Id.id)
    (hid : context.accusationId = v.accusationId) (hdata : context.sharedDataHash = v.dataHash)
    (hiss : context.issuedAt = u256 v.issuedAt) (hdead : context.deadline = u256 v.deadline)
    (hdom : context.domainSeparator = crypto.voteDomainSeparator v.e3Id.chainId sm) :
    Evidence.voteDigest evm context v.voter = crypto.voteDigest v sm := by
  unfold Evidence.voteDigest Evidence.structBytes Evidence.digestBytes Crypto.voteDigest
  rw [hhash, he3, hid, hdata, hiss, hdead, hdom]
  rfl

/-- `_verifyVotes` accepts the votes of an acceptable quorum that agrees on the data. -/
lemma Acceptable.verifyVotes_ok (h : Acceptable crypto R q) (hfaul : q.outcome = .accusedFaulted)
    (hchain : Chain crypto R q evm reg) (hattes : attestationEvidence q = some att)
    (hshar : att.dataHashes[0]? = some sdh) : Evidence.verifyVotes evm reg att
      (Evidence.attestationContext evm att R.e3Id.id q.accused sdh
        (crypto.voteDomainSeparator R.e3Id.chainId R.slashingManager)) 0 0 att.voters =
      .ok () := by
  obtain ⟨issuedAt, deadline, hvotes⟩ := h.votes
  obtain ⟨votes, first, hsort, hfirst, rfl⟩ := evidence_eq_some hattes
  have hperm : votes.Perm q.votesFor := by
    rw [hsort]
    exact Collections.stable.sortByKey_perm _ _
  have hstr : votes.Pairwise fun v w => v.voter < w.voter := by
    rw [hsort]
    exact Collections.stable.sortByKey_strict h.distinct
  have hmem : ∀ v ∈ votes, v ∈ q.votesFor := fun v hv => hperm.mem_iff.1 hv
  have hsame : ∀ v ∈ votes, v.dataHash = sdh := by
    intro v hv
    obtain ⟨w, hw, rfl⟩ := List.mem_map.1 (List.mem_of_getElem? hshar)
    exact h.outcome.1 hfaul v (hmem v hv) w (hmem w hw)
  refine Evidence.verifyVotes_ok.2 ⟨?_, ?_⟩
  · refine List.pairwise_cons.2 ⟨?_, List.pairwise_map.2 hstr⟩
    intro voter hvoter
    obtain ⟨v, hv, rfl⟩ := List.mem_map.1 hvoter
    obtain ⟨-, -, hmember, -⟩ := hvotes v (hmem v hv)
    exact Fin.pos_iff_ne_zero.2 (hchain.active v.voter hmember).1
  · intro k voter hk
    obtain ⟨v, hv, rfl⟩ := Option.map_eq_some_iff.1 ((List.getElem?_map ..).symm.trans hk)
    have hin : v ∈ votes := List.mem_of_getElem? hv
    obtain ⟨he3, hid, hmember, hother, hiss, hdead, hsig⟩ := hvotes v (hmem v hin)
    obtain ⟨-, -, -, -, hiss', hdead', -⟩ := hvotes first (hmem first hfirst)
    refine ⟨hother, (hchain.active v.voter hmember).2, ?_, v.signature, ?_, ?_⟩
    · simp [hv, hsame v hin, Evidence.attestationContext]
    · simp [hv]
    · rw [hchain.recover v (hmem v hin), voteDigest_eq hchain.hash]
      · exact hsig
      · exact (congrArg E3Id.id he3).symm
      · rw [hid]
        simp only [Evidence.attestationContext, hchain.hash, hchain.chainId]
        rfl
      · exact (hsame v hin).symm
      · simp [Evidence.attestationContext, hiss, hiss']
      · simp [Evidence.attestationContext, hdead, hdead']
      · rw [he3]
        rfl

end

/-! ## Runs -/

/-- An event whose own votes are the contract's: the node is on the committee, does not vote against
itself and has not voted before. -/
def Proper (crypto : Crypto) (s : Voting) : Event → Prop
  | .localProofFailure _ | .consistencyViolation _ | .effectsEnabled => s.myAddress ∈ s.committee
  | .accusationReceived _ accusation =>
    s.myAddress ∈ s.committee ∧ s.NotAgainstItself crypto accusation
  | .reverificationResponse correlationId response =>
    ∀ r rest, get s.pendingReverifications correlationId = some r →
      response = .verifyShareProofs (false :: rest) → s.MayVote r.accusationId
  | _ => True

section

variable {crypto : Crypto} {s start : Voting}

lemma onExpelled_myAddress (e3Id : E3Id) (node : Address) :
    (s.onMemberExpelled e3Id node).myAddress = s.myAddress := by
  unfold Voting.onMemberExpelled
  dsimp only
  split_ifs <;> rfl

lemma handle_safe (now : ℕ) (hs : Sound crypto s.roster s)
    (hsigns : crypto.SignsFor s.myAddress) (hprop : Proper crypto s event) :
    (Sound crypto (event.handle crypto now s).2.roster (event.handle crypto now s).2 ∧
        (event.handle crypto now s).2.myAddress = s.myAddress) ∧
      ∀ a ∈ (event.handle crypto now s).1, Decided (Acceptable crypto s.roster) a := by
  -- Every event but an expulsion leaves the roster.
  have hkeeps : ∀ r : Voting.Effect, SafeVotes crypto s.roster r →
      (Sound crypto r.2.roster r.2 ∧ r.2.myAddress = s.myAddress) ∧
        ∀ a ∈ r.1, Decided (Acceptable crypto s.roster) a :=
    fun r hr => ⟨⟨hr.state.roster ▸ hr.state, congrArg Roster.myAddress hr.state.roster⟩,
      hr.actions⟩
  cases event with
  | localProofFailure event =>
    exact hkeeps _ (onFailure_safe hs hsigns hprop now event)
  | consistencyViolation data =>
    exact hkeeps _ (onViolation_safe hs hsigns hprop now data)
  | proofVerificationPassed data =>
    refine hkeeps _ (.nil ?_)
    unfold Voting.onProofVerificationPassed
    split_ifs <;> exact { hs with }
  | accusationReceived cid acc =>
    exact hkeeps _ (onAccusation_safe hs hsigns hprop.1 now hprop.2 cid)
  | voteReceived vote => exact hkeeps _ ((Sound.rules crypto _).onVoteReceived hs vote)
  | voteTimeout id => exact hkeeps _ ((Sound.rules crypto _).onVoteTimeout hs id)
  | memberExpelled e3Id node =>
    exact ⟨⟨onExpelled_sound hs e3Id node, onExpelled_myAddress e3Id node⟩,
      fun a ha => absurd ha List.not_mem_nil⟩
  | reverificationResponse cid resp =>
    exact hkeeps _ (reverification_safe hs hsigns cid resp hprop)
  | holdAccusations => exact hkeeps _ (.nil { hs with })
  | effectsEnabled => exact hkeeps _ (onEffectsEnabled_safe hs hsigns hprop now)
  | publishFailed key => exact hkeeps _ (.nil { hs with })
  | dispatchFailed cid => exact hkeeps _ (.nil { hs with })

lemma reachable_sound (hsigns : crypto.SignsFor me)
    (hs : Reachable crypto (Proper crypto) (Voting.new e3Id me sm committee
      circuitThresholdT voteQuorumH voteValiditySecs skewSecs) s) :
    Sound crypto s.roster s ∧ s.myAddress = me := by
  induction hs with
  | start => exact ⟨⟨rfl, by simp [Voting.new], by simp [Voting.new]⟩, rfl⟩
  | step now event _ hprop ih =>
    obtain ⟨hsound, hme⟩ := ih
    obtain ⟨⟨hsound', hme'⟩, -⟩ := handle_safe now hsound (hme ▸ hsigns) hprop
    exact ⟨hsound', hme'.trans hme⟩

/-- In a run whose events are all proper, every quorum with a decision has enough votes, from
distinct members other than the accused, for one accusation and one window, and its outcome says
whether they agree on the data. The contract accepts the votes that do. -/
theorem quorum_votes_acceptable {e3Id : E3Id} {me slashingManager : Address}
    {committee : List Address} {circuitThresholdT voteQuorumH voteValiditySecs skewSecs : ℕ}
    (hsigns : crypto.SignsFor me)
    (hs : Reachable crypto (Proper crypto) (Voting.new e3Id me slashingManager committee
      circuitThresholdT voteQuorumH voteValiditySecs skewSecs) s) (now : ℕ) {event : Event}
    (hproper : Proper crypto s event) {q : AccusationQuorumReached}
    (hq : .publishQuorum q ∈ (event.handle crypto now s).1) (hdecided : q.outcome ≠ .inconclusive) :
    Acceptable crypto s.roster q ∧
      (q.outcome = .accusedFaulted → ∀ evm registry attestation sharedDataHash,
        Chain crypto s.roster q evm registry → attestationEvidence q = some attestation →
        attestation.dataHashes[0]? = some sharedDataHash →
        Evidence.verifyVotes evm registry attestation
          (Evidence.attestationContext evm attestation s.e3Id.id q.accused sharedDataHash
            (crypto.voteDomainSeparator s.e3Id.chainId s.slashingManager)) 0 0
          attestation.voters = .ok ()) := by
  obtain ⟨hsound, hme⟩ := reachable_sound hsigns hs
  have hacceptable : Acceptable crypto s.roster q :=
    (handle_safe now hsound (hme ▸ hsigns) hproper).2 _ hq hdecided
  refine ⟨hacceptable, ?_⟩
  intro hfaulted evm registry attestation sharedDataHash hchain hattestation hshared
  exact hacceptable.verifyVotes_ok hfaulted hchain hattestation hshared

end

/-! ## A committee of three -/

/-- The quorums that are published. -/
def quorums (actions : List VoteAction) : List AccusationQuorumReached :=
  actions.filterMap fun
    | .publishQuorum q => some q
    | _ => none

lemma mem_of_mem_quorums (h : q ∈ quorums actions) : .publishQuorum q ∈ actions := by
  obtain ⟨a, ha, hq⟩ := List.mem_filterMap.1 h
  cases a <;> simp_all

def sampleHash (bytes : Bytes) : Key := Fin.ofNat _ (BigEndian.decode bytes % (2 ^ 256 - 189))

/-- A signature is the digest with the number of the signer. -/
def sampleSign (signer : UInt8) (digest : Key) : Bytes := word digest ++ [signer]

def sampleRecover (digest : Key) (signature : Bytes) : Option Address :=
  if signature.take 32 = word digest then some (Fin.ofNat _ (BigEndian.decode (signature.drop 32)))
  else none

/-- The node with the number 1. -/
def sampleCrypto : Crypto where
  keccak256 := sampleHash
  recoverMsg := sampleRecover
  recoverPrehash := sampleRecover
  recoverPayload signed := some (Fin.ofNat _ (BigEndian.decode signed.signature))
  signMsg digest := some (sampleSign 1 digest)
  signHash digest := some (sampleSign 1 digest)
  abiEncode data signals := data ++ signals

lemma sampleCrypto_signsFor : sampleCrypto.SignsFor 1 := by
  intro digest sig h
  obtain rfl := Option.some.inj h
  have hleng : (word digest).length = 32 := BigEndian.length_encode _ _
  simp only [sampleCrypto, sampleRecover, sampleSign, ← hleng, List.take_left, List.drop_left,
    if_true]
  rfl

def sampleE3 : E3Id := ⟨1, 4⟩

def sampleStart : Voting := Voting.new sampleE3 1 11 [1, 2, 3] 1 2 3600 30

/-- A proof of the third member. -/
def samplePayload (data : UInt8) : SignedProofPayload :=
  ⟨⟨sampleE3, .c3aSkShareEncryption, ⟨.shareEncryption, [data], [8]⟩⟩, [3]⟩

/-- The second member accuses the third and forwards the proof. -/
def sampleAccusation : ProofFailureAccusation :=
  let accusation : ProofFailureAccusation := ⟨sampleE3, 2, 3, 2, .c3aSkShareEncryption,
    sampleCrypto.computePayloadHash (samplePayload 7), 100, 160, some (samplePayload 7), []⟩
  { accusation with signature := sampleSign 2 (sampleCrypto.accusationDigest accusation) }

/-- The accusation times out while the proof is verified, and it is made again. -/
def sampleRun : List Event :=
  [.accusationReceived 1 sampleAccusation,
    .voteTimeout (sampleCrypto.accusationId sampleAccusation),
    .accusationReceived 2 sampleAccusation,
    .reverificationResponse 1 (.verifyShareProofs [false])]

/-- The events of a list, all at one time. -/
def runEvents (crypto : Crypto) (now : ℕ) (events : List Event) (s : Voting) : Voting :=
  events.foldl (fun s event => (event.handle crypto now s).2) s

lemma reachable_runEvents (crypto : Crypto) (now : ℕ) (events : List Event) (start : Voting) :
    Reachable crypto (fun _ _ => True) start (runEvents crypto now events start) := by
  refine List.foldlRecOn events _ .start ?_
  intro s hs event _
  exact .step now event hs trivial

/-- Both re-verifications of one proof count, and the quorum is one node. -/
theorem reverified_twice_counted_twice :
    ∃ s q, Reachable sampleCrypto (fun _ _ => True) sampleStart s ∧
      .publishQuorum q ∈ ((Event.reverificationResponse 2 (.verifyShareProofs [false])).handle
        sampleCrypto 100 s).1 ∧
      q.outcome = .accusedFaulted ∧ q.votesFor.map AccusationVote.voter = [1, 1] := by
  have hrun : (quorums ((Event.reverificationResponse 2 (.verifyShareProofs [false])).handle
      sampleCrypto 100 (runEvents sampleCrypto 100 sampleRun sampleStart)).1).map
        (fun q => (q.outcome, q.votesFor.map AccusationVote.voter)) =
      [(.accusedFaulted, [1, 1])] := by decide +kernel
  obtain ⟨q, hq, hpair⟩ := List.mem_map.1 (hrun ▸ List.mem_singleton_self _)
  obtain ⟨houtcome, hvoters⟩ := Prod.mk.inj hpair
  exact ⟨_, q, reachable_runEvents sampleCrypto 100 sampleRun sampleStart, mem_of_mem_quorums hq,
    houtcome, hvoters⟩

/-- The node sees the proof fail. -/
def sampleFailure : Event := .localProofFailure ⟨sampleE3, 2, 3, .c3aSkShareEncryption,
  sampleCrypto.computePayloadHash (samplePayload 7), samplePayload 7⟩

/-- The second member votes for the accusation that follows. -/
def sampleVote : AccusationVote :=
  let vote : AccusationVote := ⟨sampleE3, sampleCrypto.accusationId sampleAccusation, 2,
    sampleCrypto.computePayloadHash (samplePayload 7), 100, 3700, []⟩
  { vote with signature := sampleSign 2 (sampleCrypto.voteDigest vote 11) }

/-- The vote of the other member makes a quorum. -/
lemma sample_quorum : ∃ q ∈ quorums ((Event.voteReceived sampleVote).handle sampleCrypto 100
      (sampleFailure.handle sampleCrypto 100 sampleStart).2).1,
    q.outcome = .accusedFaulted ∧ q.votesFor.map AccusationVote.voter = [1, 2] := by
  decide +kernel

theorem quorum_votes_acceptable_sample :
    ∃ s q, .publishQuorum q ∈ ((Event.voteReceived sampleVote).handle sampleCrypto 100 s).1 ∧
      q.votesFor.map AccusationVote.voter = [1, 2] ∧ Acceptable sampleCrypto s.roster q := by
  obtain ⟨q, hq, houtcome, hvoters⟩ := sample_quorum
  have hmember : sampleStart.myAddress ∈ sampleStart.committee := by decide
  have hs : Reachable sampleCrypto (Proper sampleCrypto) sampleStart
      (sampleFailure.handle sampleCrypto 100 sampleStart).2 := .step 100 _ .start hmember
  have hproper : Proper sampleCrypto (sampleFailure.handle sampleCrypto 100 sampleStart).2
      (.voteReceived sampleVote) := trivial
  have hdecided : q.outcome ≠ .inconclusive := by
    rw [houtcome]
    nofun
  refine ⟨_, q, mem_of_mem_quorums hq, hvoters, ?_⟩
  exact (quorum_votes_acceptable sampleCrypto_signsFor hs 100 hproper (mem_of_mem_quorums hq)
    hdecided).1

end Interfold.AccusationVoting
