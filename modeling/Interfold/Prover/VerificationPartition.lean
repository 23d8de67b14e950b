import Interfold.Prover.ShareVerification

/-!
# The partition of a batch

Whatever the bundles of a batch, the verdict on its commitments and the answer of the workers are,
a batch ends with two disjoint sets: the parties whose proofs passed and the dishonest ones. They
cover the batch, the parties that were dishonest before and those that the verdict names.
-/

namespace Interfold.ShareVerification

open Links AssocList List PartyVerificationResult
open CommitmentConsistency (VerificationKind PartyProofData CheckRequested CheckComplete
  ProofVerificationPassed)

variable (crypto : Crypto) (data : ShareVerificationDispatched)

def ShareVerificationDispatched.ids (data : ShareVerificationDispatched) : Finset ℕ :=
  (data.parties.map Party.partyId).toFinset

/-! ## The first stage -/

section

variable {crypto}

lemma ecdsaLoop_passed {e3Id : E3Id}
    (h : (ecdsaLoop crypto e3Id signer expected proofs).passed = true) :
    ∀ signed ∈ proofs, signed.payload.e3Id = e3Id ∧ crypto.recoverAddress signed = some signer ∧
      signed.payload.proof.circuit ∈ signed.payload.proofType.circuitNames := by
  induction proofs generalizing expected with
  | nil => simp
  | cons signed rest ih =>
    unfold ecdsaLoop at h
    cases haddr : crypto.recoverAddress signed with
    | none => grind
    | some addr =>
      simp only [haddr] at h
      grind

lemma ecdsaLoop_failedPayload (e3Id : E3Id) (signer : Address) (expected : Option Address)
    (proofs : List SignedProofPayload) :
    (ecdsaLoop crypto e3Id signer expected proofs).failedPayload = none := by
  induction proofs generalizing expected with
  | nil => rfl
  | cons signed rest ih =>
    unfold ecdsaLoop
    cases crypto.recoverAddress signed with
    | none => grind
    | some addr => grind

lemma ecdsaValidate_failedPayload (proofs : List SignedProofPayload) (e3Id : E3Id)
    (signer : Option Address) :
    (ecdsaValidateSignedProofs crypto proofs e3Id signer).failedPayload = none := by
  unfold ecdsaValidateSignedProofs
  split_ifs
  · rfl
  · cases signer with
    | none => rfl
    | some signer => exact ecdsaLoop_failedPayload e3Id signer none proofs

end

/-- A bundle that the first stage lets through. -/
def accepts (committee : Option (List Address)) (conflicting : Finset ℕ) (party : Party) : Bool :=
  party.partyId ∉ conflicting ∧ hasCanonicalProofShape data.kind party.signedProofs
    data.paramsPreset ∧
  (ecdsaValidateSignedProofs crypto party.signedProofs data.e3Id
    (committee.bind fun members => members[party.partyId]?)).passed

lemma validateParty_eq (committee : Option (List Address)) (conf : Finset ℕ)
    (v : Validated) (party : Party) : validateParty crypto data committee conf v party =
      if accepts crypto data committee conf party then
        { v with passed := v.passed ++ [party] }
      else { v with ecdsaDishonest := insert party.partyId v.ecdsaDishonest } := by
  unfold validateParty accepts
  simp only [ecdsaValidate_failedPayload, append_nil]
  grind

lemma foldl_validateParty (committee : Option (List Address)) (conf : Finset ℕ)
    (v : Validated) (l : List Party) : l.foldl (validateParty crypto data committee conf) v =
      { ecdsaDishonest := v.ecdsaDishonest ∪ ((l.filter fun p =>
          !accepts crypto data committee conf p).map Party.partyId).toFinset
        failures := v.failures
        passed := v.passed ++ l.filter (accepts crypto data committee conf) } := by
  induction l generalizing v with
  | nil => simp
  | cons party l ih =>
    rw [foldl_cons, ih, validateParty_eq]
    cases hacc : accepts crypto data committee conf party with
    | true => simp [hacc]
    | false => simp [hacc, Finset.insert_union]

/-- What a bundle of the batch has to be for its party to go on: the only one of the party, of the
right shape, and with every proof signed for this E3 by the owner of the party's slot. -/
structure Validates (committee : Option (List Address)) (id : ℕ) (party : Party) : Prop where
  mem : party ∈ data.parties
  partyId : party.partyId = id
  only : ∀ other ∈ data.parties, other.partyId = id → other = party
  shape : hasCanonicalProofShape data.kind party.signedProofs data.paramsPreset = true
  nonempty : party.signedProofs ≠ []
  signed : ∃ members signer, committee = some members ∧ members.Nodup ∧
    members.length = data.committeeSize.values.n ∧ members[id]? = some signer ∧
    ∀ signed ∈ party.signedProofs, signed.payload.e3Id = data.e3Id ∧
      crypto.recoverAddress signed = some signer ∧
      signed.payload.proof.circuit ∈ signed.payload.proofType.circuitNames

section

variable {crypto data} (committee : Option (List Address))

lemma validates_of_accepts (huniq : Replays.Represents Party.partyId data.parties unique)
    (hmem : party ∈ unique.kept)
    (h : accepts crypto data (usableCommittee data.committeeSize committee) unique.conflicting
      party = true) : Validates crypto data committee party.partyId party := by
  obtain ⟨hfree, hshape, hpass⟩ := of_decide_eq_true h
  unfold ecdsaValidateSignedProofs at hpass
  split_ifs at hpass with hempty
  cases hsigner : (usableCommittee data.committeeSize committee).bind
      fun members => members[party.partyId]? with
  | none => simp [hsigner] at hpass
  | some signer =>
    simp only [hsigner] at hpass
    obtain ⟨members, husab, hslot⟩ := Option.bind_eq_some_iff.1 hsigner
    obtain ⟨hcomm, hmems⟩ := Option.filter_eq_some_iff.1 husab
    obtain ⟨hnodup, hlen⟩ := of_decide_eq_true hmems
    exact
      { mem := huniq.sub party hmem
        partyId := rfl
        only := fun other hother hid => huniq.unique party hmem hfree other hother hid
        shape := hshape
        nonempty := by simpa using hempty
        signed := ⟨members, signer, hcomm, hnodup, hlen, hslot, ecdsaLoop_passed hpass⟩ }

/-- What the first stage leaves of a batch. -/
structure FirstStage (crypto : Crypto) (data : ShareVerificationDispatched)
    (committee : Option (List Address)) (v : Validated) : Prop where
  failures : v.failures = []
  nodup : (v.passed.map Party.partyId).Nodup
  disjoint : Disjoint v.ecdsaDishonest (v.passed.map Party.partyId).toFinset
  cover : v.ecdsaDishonest ∪ (v.passed.map Party.partyId).toFinset = data.ids
  validates : ∀ party ∈ v.passed, Validates crypto data committee party.partyId party

lemma firstStage_validate : FirstStage crypto data committee (validate crypto data committee) := by
  have huniq := Replays.represents_collapse Party.partyId data.parties
  unfold validate
  simp only [foldl_validateParty, Finset.empty_union, nil_append]
  generalize Replays.collapse Party.partyId data.parties = unique at huniq ⊢
  refine ⟨rfl, ?_, ?_, ?_, ?_⟩
  · exact huniq.nodup.sublist (filter_sublist.map _)
  · -- Two different bundles that were kept belong to different parties.
    rw [Finset.disjoint_left]
    intro id hbad hgood
    simp only [mem_toFinset, mem_map, mem_filter] at hbad hgood
    obtain ⟨p, ⟨hp, hrej⟩, rfl⟩ := hbad
    obtain ⟨q, ⟨hq, haccd⟩, hid⟩ := hgood
    have hsame : q = p := inj_on_of_nodup_map huniq.nodup hq hp hid
    simp [hsame ▸ haccd] at hrej
  · ext id
    simp only [ShareVerificationDispatched.ids, Finset.mem_union, mem_toFinset, mem_map, mem_filter]
    grind [huniq.sub, huniq.covers]
  · intro party hparty
    obtain ⟨hmem, haccd⟩ := mem_filter.1 hparty
    exact validates_of_accepts committee huniq hmem haccd

end

/-! ## The tally -/

/-- The result of a party that passes. -/
def good (conflicting : Finset ℕ) (result : PartyVerificationResult) : Bool :=
  result.senderPartyId ∉ conflicting ∧ result.allVerified

def passedEvents (out : List Published) : List (ProofVerificationPassed E3Id) :=
  out.filterMap fun
    | .proofVerificationPassed event => some event
    | _ => none

def passedParties (out : List Published) : Finset ℕ :=
  ((passedEvents out).map ProofVerificationPassed.partyId).toFinset

/-- The dishonest sets that are published. -/
def completions (out : List Published) : List (E3Id × VerificationKind × Finset ℕ) :=
  out.filterMap fun
    | .shareVerificationComplete e3Id kind dishonest => some (e3Id, kind, dishonest)
    | _ => none

/-- The event for a proof that passed, with the hash and the signals of its own payload. -/
def passedEvent (e3Id : E3Id) (id : ℕ) (signer : Address) (signed : SignedProofPayload) :
    ProofVerificationPassed E3Id where
  e3Id
  partyId := id
  address := signer
  proofType := signed.payload.proofType
  dataHash := crypto.proofDataHash signed
  publicSignals := signed.payload.proof.publicSignals
  proofData := signed.payload.proof.data

/-- What a party has to have for its proofs to pass. -/
structure Qualifies (committee : Option (List Address)) (inconsistent : Finset ℕ)
    (results : List PartyVerificationResult) (id : ℕ) (party : Party) : Prop where
  bundle : Validates crypto data committee id party
  consistent : id ∉ inconsistent
  result : ∃ result ∈ results, result.senderPartyId = id ∧ result.allVerified = true ∧
    ∀ other ∈ results, other.senderPartyId = id → other = result

/-- A batch that is settled by what is published. -/
structure Settles (committee : Option (List Address)) (committees : List (E3Id × List Address))
    (inconsistent : Finset ℕ) (results : List PartyVerificationResult) (out : List Published) :
    Prop where
  complete : ∃ dishonest, completions out = [(data.e3Id, data.kind, dishonest)] ∧
    (Disjoint data.preDishonest data.ids → Disjoint dishonest (passedParties out)) ∧
    dishonest ∪ passedParties out = data.ids ∪ data.preDishonest ∪ inconsistent
  passed : ∀ id ∈ passedParties out, ∃ party signer,
    Qualifies crypto data committee inconsistent results id party ∧
    (∀ signed ∈ party.signedProofs, crypto.recoverAddress signed = some signer) ∧
    ((passedEvents out).filter fun event => event.partyId = id) =
      party.signedProofs.map (passedEvent crypto data.e3Id id signer)
  failed : ∀ event, .signedProofFailed event ∈ out →
    event.e3Id = data.e3Id ∧ event.signedPayload.payload.e3Id = data.e3Id ∧
    crypto.recoverAddress event.signedPayload = some event.faultingNode ∧
    ∃ result ∈ results, result.allVerified = false ∧
      result.failedSignedPayload = some event.signedPayload ∧
      ((get committees data.e3Id).bind fun members => members[result.senderPartyId]?) =
        some event.faultingNode

/-! ## What is kept between the stages -/

section

variable (committee : Option (List Address)) (inconsistent : Finset ℕ)

def checkOf : PendingConsistencyCheck :=
  .ofOutcome data (validateAndPrepare crypto data committee)

/-- The parties that passed the first stage and are not named by the verdict. -/
def consistentParties : List Party :=
  (validate crypto data committee).passed.filter fun party => party.partyId ∉ inconsistent

def verificationOf : PendingVerification :=
  .ofCheck (checkOf crypto data committee)
    (data.preDishonest ∪ (validate crypto data committee).ecdsaDishonest ∪ inconsistent)
    ((consistentParties crypto data committee inconsistent).map Party.partyId).toFinset

end

/-- A batch with the committee of its E3, the parties that the verdict on its commitments names
and the answer of the workers. -/
structure Run where
  crypto : Crypto
  data : ShareVerificationDispatched
  committee : Option (List Address)
  inconsistent : Finset ℕ
  results : List PartyVerificationResult

namespace Run

variable (r : Run)

def valid : Validated := validate r.crypto r.data r.committee

def parties : List Party := consistentParties r.crypto r.data r.committee r.inconsistent

def pending : PendingVerification := verificationOf r.crypto r.data r.committee r.inconsistent

lemma first : FirstStage r.crypto r.data r.committee r.valid := firstStage_validate r.committee

variable {r} {party : Party} {id : ℕ}

lemma mem_parties :
    party ∈ r.parties ↔ party ∈ r.valid.passed ∧ party.partyId ∉ r.inconsistent := by
  simp [parties, consistentParties, valid]

lemma mem_dispatched :
    id ∈ r.pending.dispatchedPartyIds ↔ ∃ party ∈ r.parties, party.partyId = id :=
  mem_toFinset.trans mem_map

section

variable (hparty : party ∈ r.parties)
  (hsigner : ∀ signed ∈ party.signedProofs, r.crypto.recoverAddress signed = some signer)
include hparty hsigner

end

variable (r) in
/-- The parties of a batch are those that go on and those that do not. -/
lemma cover : r.pending.preDishonest ∪ r.pending.dispatchedPartyIds =
    r.data.ids ∪ r.data.preDishonest ∪ r.inconsistent := by
  have hpre : r.pending.preDishonest =
      r.data.preDishonest ∪ r.valid.ecdsaDishonest ∪ r.inconsistent := rfl
  rw [← r.first.cover, hpre]
  ext id
  simp only [Finset.mem_union, mem_toFinset, mem_map, mem_dispatched, mem_parties]
  by_cases hid : id ∈ r.inconsistent
  · simp [hid]
  · grind

end Run

/-! ## The last stage -/

section

variable {crypto} {s : Actor} {res : PartyVerificationResult} {id : ℕ}

end

namespace Run

variable (r : Run) (s : Actor)

def tally : ZkTallyOutcome :=
  tallyZkResults r.pending.preDishonest ∅ r.pending.dispatchedPartyIds r.results

variable {r s} {res : PartyVerificationResult} {bad : Finset ℕ} {id : ℕ}

end Run

/-- A step that says nothing about any party yet. -/
structure Quiet (out : List Published) : Prop where
  completions : completions out = []
  passed : passedEvents out = []
  failed : ∀ event, .signedProofFailed event ∉ out

/-! ## The stages of a batch -/

section

variable {crypto data} (s : Actor)

end

section

def sampleCrypto : Crypto where
  recoverAddress := fun _ => some 11
  keccak256 := fun _ => 0
  abiEncode := fun data signals => data ++ signals

end

end Interfold.ShareVerification
