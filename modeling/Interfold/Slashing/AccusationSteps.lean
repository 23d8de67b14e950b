import Interfold.Slashing.AccusationVoting

/-!
# What a transition of the voting does

Every transition is said once by its cases: which votes reach which tally, under which checks, and
what else changes.
-/

namespace Interfold.AccusationVoting

open Links AssocList Emission
open CommitmentConsistency (Violation)

/-- What the votes of a tally are counted against. -/
structure Roster where
  e3Id : E3Id
  myAddress : Address
  slashingManager : Address
  committee : List Address
  voteQuorumH : ℕ

def Voting.roster (s : Voting) : Roster :=
  ⟨s.e3Id, s.myAddress, s.slashingManager, s.committee, s.voteQuorumH⟩

/-- An action other than the publication of a quorum. -/
def VoteAction.Quiet : VoteAction → Prop
  | publishQuorum _ => False
  | _ => True

/-- The tallies, the cache and what the node is are the same, and no re-verification is new. -/
structure Frame (s s' : Voting) : Prop where
  roster : s'.roster = s.roster
  pending : s'.pending = s.pending
  deferred : s'.deferredAccusations = s.deferredAccusations
  received : s'.receivedData = s.receivedData
  reverifications : ∀ e ∈ s'.pendingReverifications, e ∈ s.pendingReverifications

lemma Frame.refl (s : Voting) : Frame s s := ⟨rfl, rfl, rfl, rfl, fun _ h => h⟩

namespace Voting

variable {crypto : Crypto} {now : ℕ} {s : Voting}

/-! ## Admission -/

lemma admitVote_ok (h : s.admitVote crypto v = .ok v') :
    v' = v ∧ v.e3Id = s.e3Id ∧ v.voter ∈ s.committee ∧ v.voter ≠ s.myAddress ∧
      s.verifyVoteSignature crypto v := by
  unfold admitVote at h
  split_ifs at h with he3 hmember hown hsig
  cases h
  exact ⟨rfl, not_not.1 he3, hmember, hown, hsig⟩

lemma admitAccusation_ok (h : s.admitAccusation crypto now a = .ok a') :
    a' = a ∧ a.e3Id = s.e3Id ∧ a.accused ∈ s.committee := by
  unfold admitAccusation at h
  split_ifs at h with he3 _ _ _ _ haccd
  cases h
  exact ⟨rfl, not_not.1 he3, haccd⟩

lemma isSelfAccusation_false (h : ¬s.isSelfAccusation accuser accused n) : accused ≠ accuser := by
  rintro rfl
  simp [isSelfAccusation] at h

lemma admitLocalFailure_ok (h : s.admitLocalFailure crypto e = .ok e') :
    e' = e ∧ e.accusedAddress ≠ s.myAddress ∧
      crypto.computePayloadHash e.signedPayload = e.dataHash := by
  unfold admitLocalFailure at h
  dsimp only at h
  split_ifs at h with he3 hsig hself
  cases h
  push Not at hsig
  exact ⟨rfl, isSelfAccusation_false hself, hsig.2.2.2.2.2⟩

lemma admitViolation_ok (h : s.admitViolation d = .ok d') :
    d' = d ∧ d.accusedAddress ≠ s.myAddress := by
  unfold admitViolation at h
  split_ifs at h with he3 hmember hself
  cases h
  exact ⟨rfl, isSelfAccusation_false hself⟩

/-! ## Votes -/

lemma signVote_eq_some (h : s.signVote crypto v = some w) :
    ∃ signature, crypto.signHash (crypto.voteDigest v s.slashingManager) = some signature ∧
      w = { v with signature } := by
  obtain ⟨signature, hsign, rfl⟩ := Option.map_eq_some_iff.1 h
  exact ⟨signature, hsign, rfl⟩

lemma checkQuorum_cases (s : Voting) (id : Key) :
    s.checkQuorum id = ([], s) ∨ ∃ p, get s.pending id = some p ∧
      s.voteQuorumH ≤ p.votesFor.length ∧ s.checkQuorum id =
        ([.cancelTimeout id, .publishQuorum (s.quorumReached p (agreedOutcome p.votesFor))],
          { s with pending := remove s.pending id }) := by
  unfold checkQuorum emitQuorumReached
  cases hp : get s.pending id with
  | none => exact .inl rfl
  | some p =>
    dsimp only
    split_ifs with hless
    · exact .inl rfl
    · exact .inr ⟨p, rfl, not_lt.1 hless, rfl⟩

variable (crypto : Crypto)

variable (s : Voting)

/-- A vote is dropped or buffered, or it is the first of its voter for the pending accusation. -/
lemma onVote_cases (v : AccusationVote) :
    (∃ buf, s.onVoteReceived crypto v = ([], { s with bufferedVotes := buf })) ∨
    ∃ p, get s.pending v.accusationId = some p ∧ s.admitVote crypto v = .ok v ∧
      v.issuedAt = p.accusation.issuedAt ∧ v.deadline = p.accusation.deadline ∧
      v.voter ≠ p.accusation.accused ∧ (∀ w ∈ p.votesFor, w.voter ≠ v.voter) ∧
      s.onVoteReceived crypto v =
        checkQuorum { s with
          pending := put s.pending v.accusationId { p with votesFor := p.votesFor ++ [v] } }
          v.accusationId := by
  unfold onVoteReceived
  cases hadm : s.admitVote crypto v with
  | error _ => exact .inl ⟨s.bufferedVotes, rfl⟩
  | ok v' =>
    obtain rfl := (admitVote_ok hadm).1
    dsimp only
    cases hp : get s.pending v'.accusationId with
    | none => exact .inl ⟨_, rfl⟩
    | some p =>
      dsimp only
      split_ifs with hwin hlater haccd hvoted haccus
      · exact .inl ⟨_, rfl⟩
      · exact .inl ⟨s.bufferedVotes, rfl⟩
      · exact .inl ⟨s.bufferedVotes, rfl⟩
      · exact .inl ⟨s.bufferedVotes, rfl⟩
      · exact .inl ⟨s.bufferedVotes, rfl⟩
      · have hsame := Prod.mk.inj (not_not.1 hwin)
        exact .inr ⟨p, rfl, rfl, hsame.1, hsame.2, haccd,
          fun w hw hvoter => hvoted ⟨w, hw, hvoter⟩, rfl⟩

lemma onVoteTimeout_cases (id : Key) :
    s.onVoteTimeout id = ([], s) ∨ ∃ p out, get s.pending id = some p ∧ (out = .inconclusive ∨
        s.voteQuorumH ≤ p.votesFor.length ∧ out = agreedOutcome p.votesFor) ∧
      s.onVoteTimeout id = ([.publishQuorum (s.quorumReached p out)],
        { s with pending := remove s.pending id }) := by
  unfold onVoteTimeout
  cases hp : get s.pending id with
  | none => exact .inl rfl
  | some p =>
    refine .inr ⟨p, _, rfl, ?_, rfl⟩
    dsimp only
    split_ifs with hquor
    · exact .inr ⟨hquor, rfl⟩
    · exact .inl rfl

/-! ## Accusations -/

/-- Nothing happens that votes depend on. -/
def Idle (r : Effect) : Prop := (∀ a ∈ r.1, a.Quiet) ∧ Frame s r.2

/-- The votes for an accusation are collected from `votes` on. -/
def Collects (accusation : ProofFailureAccusation) (votes : List AccusationVote) (r : Effect) :
    Prop :=
  ∃ actions s' timeoutAt, r = after actions
      (s'.startCollecting crypto (crypto.accusationId accusation) ⟨accusation, votes, timeoutAt⟩) ∧
    (∀ a ∈ actions, VoteAction.Quiet a) ∧ Frame s s'

/-- This node signs a vote for an accusation. -/
def Casts (accusation : ProofFailureAccusation) (dataHash : Key) (vote : AccusationVote) : Prop :=
  s.signVote crypto (s.ownVote (crypto.accusationId accusation) dataHash accusation.issuedAt
    accusation.deadline) = some vote

lemma Idle.refl (s : Voting) : Idle s ([], s) := ⟨by simp, Frame.refl s⟩

lemma publishOwn_cases (now : ℕ) (s : Voting)
    (acc : ProofFailureAccusation) : Idle s (s.publishOwnAccusation crypto now acc) ∨
    ∃ vote, Casts crypto s acc acc.dataHash vote ∧
      Collects crypto s acc [vote] (s.publishOwnAccusation crypto now acc) := by
  unfold publishOwnAccusation
  dsimp only
  split
  · refine .inl ⟨by simp [VoteAction.Quiet], rfl, rfl, rfl, rfl, ?_⟩
    exact fun e he => (List.mem_filter.1 he).1
  · rename_i vote hvote
    refine .inr ⟨vote, hvote, _, _, _, rfl, ?_, rfl, rfl, rfl, rfl, ?_⟩
    · simp [VoteAction.Quiet]
    · exact fun e he => (List.mem_filter.1 he).1

lemma initiate_cases (now : ℕ) (s : Voting) (d : DeferredAccusation) :
    Idle s (s.initiateAccusation crypto now d) ∨
    ∃ acc vote, acc.e3Id = s.e3Id ∧ acc.accused = d.accusedAddress ∧
      acc.proofType = d.proofType ∧ Casts crypto s acc d.dataHash vote ∧
      Collects crypto s acc [vote] (s.initiateAccusation crypto now d) := by
  unfold initiateAccusation
  by_cases hmember : d.accusedAddress ∉ s.committee
  · rw [if_pos hmember]
    exact .inl (.refl s)
  rw [if_neg hmember]
  split_ifs with hdup hvalidity
  · exact .inl (.refl s)
  · exact .inl (.refl s)
  · dsimp only
    split
    · exact .inl (.refl s)
    · rename_i signature _
      obtain hidle | ⟨vote, hcasts, hcoll⟩ := publishOwn_cases crypto now s
        { s.accusationNow now d with signature }
      · exact .inl hidle
      · exact .inr ⟨_, vote, rfl, rfl, rfl, hcasts, hcoll⟩

lemma agreeWith_cases (now : ℕ) (s : Voting) (acc : ProofFailureAccusation)
    (dh : Key) : Idle s (s.agreeWith crypto now acc dh) ∨
    ∃ vote, Casts crypto s acc dh vote ∧
      Collects crypto s acc [vote] (s.agreeWith crypto now acc dh) := by
  unfold agreeWith
  dsimp only
  split
  · exact .inl (.refl s)
  · rename_i vote hvote
    exact .inr ⟨vote, hvote, _, _, _, rfl, by simp [VoteAction.Quiet], .refl s⟩

/-- Where a later window is adopted, this node's own vote is signed again and no other is kept. -/
lemma adoptWindow_cases (now : ℕ) (s : Voting) (incoming : ProofFailureAccusation) :
    Idle s (s.adoptLaterVoteWindow crypto now (crypto.accusationId incoming) incoming) ∨
    ∃ votes, (votes = [] ∨ ∃ p v w, get s.pending (crypto.accusationId incoming) = some p ∧
        v ∈ p.votesFor ∧ v.voter = s.myAddress ∧
        s.signVote crypto
          { v with issuedAt := incoming.issuedAt, deadline := incoming.deadline } = some w ∧
        votes = [w]) ∧
      Collects crypto s incoming votes
        (s.adoptLaterVoteWindow crypto now (crypto.accusationId incoming) incoming) := by
  unfold adoptLaterVoteWindow
  cases hp : get s.pending (crypto.accusationId incoming) with
  | none => exact .inl (.refl s)
  | some p =>
    dsimp only
    split_ifs with hmoves
    · exact .inl (.refl s)
    · split
      · refine .inr ⟨[], .inl rfl, _, _, _, rfl, ?_, rfl, rfl, rfl, rfl, fun _ h => h⟩
        simp [VoteAction.Quiet]
      · rename_i v hfound
        have hv : v ∈ p.votesFor := List.mem_of_find?_eq_some hfound
        have hown : v.voter = s.myAddress := by simpa using List.find?_some hfound
        split
        · exact .inl ⟨by simp, rfl, rfl, rfl, rfl, fun _ h => h⟩
        · rename_i w hw
          refine .inr ⟨[w], .inr ⟨p, v, w, rfl, hv, hown, hw, rfl⟩, _, _, _, rfl, ?_, rfl, rfl,
            rfl, rfl, fun _ h => h⟩
          simp [VoteAction.Quiet]

/-- The re-verification that an accusation with a proof starts. -/
def reverificationOf (accusation : ProofFailureAccusation) (forwarded : SignedProofPayload) :
    PendingReVerification :=
  ⟨crypto.accusationId accusation, crypto.computePayloadHash forwarded, accusation.accused,
    accusation.proofType, crypto.payloadEvidence forwarded⟩

lemma reverifyForwarded_cases (now : ℕ) (s : Voting)
    (acc : ProofFailureAccusation) (fwd : SignedProofPayload) (cid : ℕ) :
    Idle s (s.reverifyForwarded crypto now acc fwd cid) ∨
    ∃ due action, s.reverifyForwarded crypto now acc fwd cid =
        andThen (after [.startTimeout (crypto.accusationId acc)] (replayBuffered crypto
            { s with
              pending := put s.pending (crypto.accusationId acc) ⟨acc, [], due⟩ }
            (crypto.accusationId acc)))
          (fun s => ([action],
            { s with
              pendingReverifications := put s.pendingReverifications cid
                (reverificationOf crypto acc fwd) })) ∧
      VoteAction.Quiet action := by
  unfold reverifyForwarded
  dsimp only
  by_cases hvalid : s.forwardedValid crypto acc.accused fwd
  · rw [if_neg (not_not.2 hvalid)]
    split_ifs with htype hhash
    · exact .inl (.refl s)
    · exact .inl (.refl s)
    · split
      · exact .inl (.refl s)
      · exact .inr ⟨_, _, rfl, trivial⟩
  · rw [if_pos hvalid]
    exact .inl (.refl s)

/-! ## Expulsions and re-verifications -/

/-- An expulsion of nobody changes nothing, because the committee is then the same. -/
lemma onExpelled_cases (e3Id : E3Id) (node : Address) :
    s.onMemberExpelled e3Id node = s ∨ ∃ buf, s.onMemberExpelled e3Id node = { s with
      committee := s.committee.filter fun a => a ≠ node
      pending := mapValues (fun p =>
        { p with votesFor := p.votesFor.filter fun v => v.voter ≠ node }) s.pending
      bufferedVotes := buf } := by
  unfold onMemberExpelled
  by_cases he3 : e3Id ≠ s.e3Id
  · exact .inl (if_pos he3)
  rw [if_neg he3]
  dsimp only
  split_ifs with hshor
  · exact .inr ⟨_, rfl⟩
  · rw [List.filter_sublist.eq_of_length_le (not_lt.1 hshor)]
    exact .inl rfl

/-- The state in which the result of a re-verification is known. -/
def afterReverification (correlationId : ℕ) (r : PendingReVerification) (zkPassed : Bool) :
    Voting :=
  { s with
    pendingReverifications := remove s.pendingReverifications correlationId
    receivedData := put s.receivedData (r.accused, r.proofType) ⟨r.dataHash, zkPassed, r.evidence⟩ }

lemma reverification_cases (cid : ℕ)
    (resp : ComputeResponse) : Idle s (s.handleReverificationResponse crypto cid resp) ∨
    ∃ r zkPassed rest, get s.pendingReverifications cid = some r ∧
      resp = .verifyShareProofs (zkPassed :: rest) ∧
      s.handleReverificationResponse crypto cid resp =
        if zkPassed then ([], s.afterReverification cid r zkPassed)
        else (s.afterReverification cid r zkPassed).voteAfterReverification crypto r := by
  unfold handleReverificationResponse
  cases hr : get s.pendingReverifications cid with
  | none => exact .inl (.refl s)
  | some r =>
    have hidle : Idle s ([],
        { s with pendingReverifications := remove s.pendingReverifications cid }) :=
      ⟨by simp, rfl, rfl, rfl, rfl, fun e he => (List.mem_filter.1 he).1⟩
    match resp with
    | .other => exact .inl hidle
    | .verifyShareProofs [] => exact .inl hidle
    | .verifyShareProofs (zkPassed :: rest) => exact .inr ⟨r, zkPassed, rest, rfl, rfl, rfl⟩

end Voting

/-! ## Invariants -/

/-- Of the quorums only those with a decision are held to `P`. -/
def Decided (P : AccusationQuorumReached → Prop) : VoteAction → Prop
  | .publishQuorum q => q.outcome ≠ .inconclusive → P q
  | _ => True

lemma VoteAction.Quiet.decided (h : a.Quiet) : Decided P a := by
  cases a with
  | publishQuorum q => exact h.elim
  | _ => trivial

/-- An invariant of the voting with what it says of a tally and of a quorum. It holds of every
state with the same tallies, and the votes of peers keep it. -/
structure Rules (crypto : Crypto) (I : Voting → Prop) (T : Key → PendingAccusation → Prop)
    (Q : AccusationQuorumReached → Prop) : Prop where
  frame : ∀ {s s' : Voting}, I s → Frame s s' → I s'
  tally : ∀ {s : Voting}, I s → ∀ id p, get s.pending id = some p → T id p
  put : ∀ {s : Voting} {id : Key} {p : PendingAccusation}, I s → T id p →
    I { s with pending := put s.pending id p }
  remove : ∀ {s : Voting}, I s → ∀ id, I { s with pending := remove s.pending id }
  quorum : ∀ {s : Voting} {id : Key} {p : PendingAccusation}, I s → T id p →
    s.voteQuorumH ≤ p.votesFor.length →
    Q (s.quorumReached p (Voting.agreedOutcome p.votesFor))
  peer : ∀ {s : Voting} {p : PendingAccusation} {v : AccusationVote}, I s → T v.accusationId p →
    s.admitVote crypto v = .ok v → v.issuedAt = p.accusation.issuedAt →
    v.deadline = p.accusation.deadline → v.voter ≠ p.accusation.accused →
    (∀ w ∈ p.votesFor, w.voter ≠ v.voter) →
    T v.accusationId { p with votesFor := p.votesFor ++ [v] }

namespace Rules

variable {crypto : Crypto} {I : Voting → Prop} {T : Key → PendingAccusation → Prop}
  {Q : AccusationQuorumReached → Prop} {s : Voting} {acc : ProofFailureAccusation}
  (rules : Rules crypto I T Q) (hs : I s)

include rules hs

lemma idle (hidle : s.Idle r) : Safe I (Decided Q) r :=
  ⟨rules.frame hs hidle.2, fun a ha => (hidle.1 a ha).decided⟩

lemma checkQuorum (id : Key) : Safe I (Decided Q) (s.checkQuorum id) := by
  obtain hnone | ⟨p, hp, hquor, hsome⟩ := s.checkQuorum_cases id
  · rw [hnone]
    exact .nil hs
  · rw [hsome]
    refine ⟨rules.remove hs id, ?_⟩
    simp only [List.forall_mem_cons, List.not_mem_nil, false_imp_iff, implies_true, and_true]
    exact ⟨trivial, fun _ => rules.quorum hs (rules.tally hs id p hp) hquor⟩

lemma onVoteTimeout (id : Key) : Safe I (Decided Q) (s.onVoteTimeout id) := by
  obtain hnone | ⟨p, out, hp, houtc, hsome⟩ := s.onVoteTimeout_cases id
  · rw [hnone]
    exact .nil hs
  · rw [hsome]
    refine ⟨rules.remove hs id, ?_⟩
    intro a ha
    obtain rfl := List.mem_singleton.1 ha
    intro hdecid
    rcases houtc with rfl | ⟨hquor, rfl⟩
    · exact absurd rfl hdecid
    · exact rules.quorum hs (rules.tally hs id p hp) hquor

lemma onVoteReceived (v : AccusationVote) : Safe I (Decided Q) (s.onVoteReceived crypto v) := by
  obtain ⟨buf, hbuf⟩ | ⟨p, hp, hadm, hiss, hdead, hother, hnew, hcnt⟩ :=
    s.onVote_cases crypto v
  · rw [hbuf]
    exact .nil (rules.frame hs ⟨rfl, rfl, rfl, rfl, fun _ h => h⟩)
  · rw [hcnt]
    have hpush := rules.peer hs (rules.tally hs _ p hp) hadm hiss hdead hother hnew
    exact rules.checkQuorum (rules.put hs hpush) _

lemma replayBuffered (id : Key) : Safe I (Decided Q) (s.replayBuffered crypto id) := by
  unfold Voting.replayBuffered
  refine Safe.each ?_ _ fun v _ _ hs => rules.onVoteReceived hs v
  exact rules.frame hs ⟨rfl, rfl, rfl, rfl, fun _ h => h⟩

lemma collects (h : s.Collects crypto acc votes r)
    (ht : ∀ due, T (crypto.accusationId acc) ⟨acc, votes, due⟩) : Safe I (Decided Q) r := by
  obtain ⟨actions, s', due, rfl, hquiet, hframe⟩ := h
  refine Safe.after (fun a ha => (hquiet a ha).decided) ?_
  exact (rules.replayBuffered (rules.put (rules.frame hs hframe) (ht due)) _).andThen
    fun _ hs => rules.checkQuorum hs _

lemma initiateAccusation (now : ℕ) (ht : ∀ acc vote due, acc.e3Id = s.e3Id →
      acc.accused = d.accusedAddress → acc.proofType = d.proofType →
      s.Casts crypto acc d.dataHash vote →
      T (crypto.accusationId acc) ⟨acc, [vote], due⟩) :
    Safe I (Decided Q) (s.initiateAccusation crypto now d) := by
  obtain hidle | ⟨acc, vote, he3, haccd, htype, hcasts, hcoll⟩ :=
    s.initiate_cases crypto now d
  · exact rules.idle hs hidle
  · exact rules.collects hs hcoll fun _ => ht _ _ _ he3 haccd htype hcasts

lemma onEffectsEnabled (now : ℕ)
    (hset : I { s with effectsEnabled := true, deferredAccusations := [] })
    (hinit : ∀ d ∈ s.deferredAccusations, ∀ s', I s' →
      Safe I (Decided Q) (s'.initiateAccusation crypto now d)) :
    Safe I (Decided Q) (s.onEffectsEnabled crypto now) := by
  unfold Voting.onEffectsEnabled
  split_ifs with heffs
  · exact .nil hs
  refine Safe.andThen (Safe.each hset _ ?_) ?_
  · intro d hd s' hs'
    unfold Voting.accuseDeferred
    dsimp only
    split_ifs with hvoted
    · exact .nil (rules.frame hs' ⟨rfl, rfl, rfl, rfl, fun _ h => h⟩)
    · exact hinit d hd s' hs'
  · intro s' hs'
    refine ⟨rules.frame hs' ⟨rfl, rfl, rfl, rfl, fun _ h => h⟩, ?_⟩
    intro a ha
    obtain ⟨id, -, rfl⟩ := List.mem_map.1 ha
    trivial

lemma voteAfterReverification (r : PendingReVerification)
    (ht : ∀ p vote, get s.pending r.accusationId = some p → s.signVote crypto (s.ownVote
      r.accusationId r.dataHash p.accusation.issuedAt p.accusation.deadline) = some vote →
      T r.accusationId { p with votesFor := p.votesFor ++ [vote] }) :
    Safe I (Decided Q) (s.voteAfterReverification crypto r) := by
  unfold Voting.voteAfterReverification
  cases hp : get s.pending r.accusationId with
  | none => exact .nil hs
  | some p =>
    dsimp only
    split
    · exact .nil hs
    · rename_i vote hvote
      refine Safe.after ?_ (rules.checkQuorum (rules.put hs (ht p vote hp hvote)) _)
      intro a ha
      rw [List.mem_singleton.1 ha]
      trivial

lemma reverifyForwarded (now : ℕ) (ht : ∀ due, T (crypto.accusationId acc) ⟨acc, [], due⟩)
    (hstart : ∀ s', I s' → I { s' with
      pendingReverifications := AssocList.put s'.pendingReverifications cid
        (Voting.reverificationOf crypto acc fwd) }) :
    Safe I (Decided Q) (s.reverifyForwarded crypto now acc fwd cid) := by
  obtain hidle | ⟨due, action, heq, hquiet⟩ :=
    s.reverifyForwarded_cases crypto now acc fwd cid
  · exact rules.idle hs hidle
  · rw [heq]
    refine Safe.andThen (Safe.after ?_ (rules.replayBuffered (rules.put hs (ht due)) _)) ?_
    · intro a ha
      rw [List.mem_singleton.1 ha]
      trivial
    · intro s' hs'
      refine ⟨hstart s' hs', ?_⟩
      intro a ha
      rw [List.mem_singleton.1 ha]
      exact hquiet.decided

/-- A peer's accusation is followed in one of three ways. -/
lemma onAccusationReceived (now cid : ℕ) (hadopt : acc.e3Id = s.e3Id → Safe I (Decided Q)
      (s.adoptLaterVoteWindow crypto now (crypto.accusationId acc) acc))
    (hagree : ∀ received vote due, acc.e3Id = s.e3Id →
      get s.receivedData (acc.accused, acc.proofType) = some received →
      ¬received.verificationPassed → s.Casts crypto acc received.dataHash vote →
      T (crypto.accusationId acc) ⟨acc, [vote], due⟩)
    (hrever : acc.e3Id = s.e3Id → ∀ fwd, Safe I (Decided Q)
      (s.reverifyForwarded crypto now acc fwd cid)) :
    Safe I (Decided Q) (s.onAccusationReceived crypto now cid acc) := by
  unfold Voting.onAccusationReceived
  cases s.admitOwnReplayedAccusation crypto acc with
  | some key => exact .nil (rules.frame hs ⟨rfl, rfl, rfl, rfl, fun _ h => h⟩)
  | none =>
    cases hadm : s.admitAccusation crypto now acc with
    | error _ => exact .nil hs
    | ok acc' =>
      obtain ⟨rfl, he3, -⟩ := Voting.admitAccusation_ok hadm
      dsimp only
      split_ifs with hpend
      · exact hadopt he3
      · cases hrecv : get s.receivedData (acc'.accused, acc'.proofType) with
        | none =>
          cases acc'.signedPayload with
          | none => exact .nil hs
          | some fwd => exact hrever he3 fwd
        | some received =>
          dsimp only
          split_ifs with hpass
          · exact .nil hs
          · obtain hidle | ⟨vote, hcasts, hcoll⟩ :=
              s.agreeWith_cases crypto now acc' received.dataHash
            · exact rules.idle hs hidle
            · refine rules.collects hs hcoll fun due => ?_
              exact hagree received vote due he3 hrecv hpass hcasts

end Rules

end Interfold.AccusationVoting
