import Interfold.Contracts.Fold.Effects

/-!
# The ledger of votes

The votes of a delegate are the balances of the accounts that delegated to it, and the recorded
supply is the sum of all balances. Both hold at every time, because every call records what it
changes at the time of the call and leaves earlier times alone.
-/

namespace Interfold.Fold

open Transaction Checkpoints Function Finset

namespace Votes

variable {now amount value : ℕ} {sender rcp : Address} {v v' : Votes}

/-! ## Balances -/

/-- Moving votes writes the checkpoints of delegates only. -/
lemma moveVotes_frame (h : v.moveDelegateVotes now sender rcp amount = .ok v') :
    ∃ checkpoints, v' = { v with delegateCheckpoints := checkpoints } := by
  unfold moveDelegateVotes at h
  split_ifs at h
  · simp only [run_ok] at h
    obtain ⟨v₁, ⟨_, -, rfl⟩, _, -, rfl⟩ := h
    exact ⟨_, rfl⟩
  · simp only [run_ok] at h
    obtain ⟨v₁, ⟨_, -, rfl⟩, rfl⟩ := h
    exact ⟨_, rfl⟩
  · simp only [run_ok] at h
    obtain ⟨v₁, rfl, _, -, rfl⟩ := h
    exact ⟨_, rfl⟩
  · simp only [run_ok] at h
    obtain ⟨v₁, rfl, rfl⟩ := h
    exact ⟨_, rfl⟩
  · exact ⟨_, (pure_ok.1 h).symm⟩

variable {acct dlg : Address} {t delta : ℕ} {trace trace' : Trace ℕ}

lemma delegate_balanceOf (h : v.delegate now acct dlg = .ok v') : v'.balanceOf = v.balanceOf := by
  obtain ⟨_, rfl⟩ := moveVotes_frame h
  rfl

/-- Moving voting units leaves the balances alone. -/
lemma update_balanceOf (h : v.update now sender rcp value = .ok v') :
    ∃ v₁, v.moveBalance sender rcp value = .ok v₁ ∧ v'.balanceOf = v₁.balanceOf := by
  simp only [update, transferVotingUnits, bind_ok] at h
  obtain ⟨v₁, hmove, -, -, _, -, _, -, hvotes⟩ := h
  obtain ⟨_, rfl⟩ := moveVotes_frame hvotes
  exact ⟨v₁, hmove, rfl⟩

lemma update_transfer (hsender : sender ≠ 0) (hrcpt : rcp ≠ 0)
    (h : v.update now sender rcp value = .ok v') :
    value ≤ v.balanceOf sender ∧ v'.balanceOf = v.balanceOf.move sender rcp value := by
  obtain ⟨v₁, hmove, heq⟩ := update_balanceOf h
  simp only [moveBalance, hsender, hrcpt, if_false, run_ok] at hmove
  obtain ⟨_, ⟨-, hle, rfl⟩, rfl⟩ := hmove
  exact ⟨hle, heq⟩

lemma update_mint (hrcpt : rcp ≠ 0) (h : v.update now 0 rcp value = .ok v') :
    v'.balanceOf = Function.update v.balanceOf rcp (v.balanceOf rcp + value) := by
  obtain ⟨v₁, hmove, heq⟩ := update_balanceOf h
  simp only [moveBalance, hrcpt, if_true, if_false, run_ok] at hmove
  obtain ⟨_, ⟨_, -, rfl⟩, rfl⟩ := hmove
  exact heq

/-! ## Records -/

def votesAt (v : Votes) (timepoint : ℕ) (account : Address) : ℕ :=
  (v.delegateCheckpoints account).upperLookup timepoint

def supplyAt (v : Votes) (timepoint : ℕ) : ℕ := v.totalCheckpoints.upperLookup timepoint

section

variable (hnow : now < 2 ^ 48)
include hnow

lemma validateTimepoint_returns (h : t < now) : validateTimepoint now t = .ok t := by
  simp only [validateTimepoint, run_ok, toUint48_of_lt hnow, safeUint48_ok, and_true]
  exact ⟨(), h, h.trans hnow⟩

lemma pastVotes_returns (h : t < now) (v : Votes) (acct : Address) :
    v.getPastVotes now acct t = .ok (v.votesAt t acct) := by
  simp only [getPastVotes, validateTimepoint_returns hnow h, ok_bind]
  rfl

lemma pastSupply_returns (h : t < now) (v : Votes) :
    v.getPastTotalSupply now t = .ok (v.supplyAt t) := by
  simp only [getPastTotalSupply, validateTimepoint_returns hnow h, ok_bind]
  rfl

lemma pushAdd_records (ht : trace.Ordered now) (h : pushAdd now delta trace = .ok trace') :
    trace.latest + delta < 2 ^ 208 ∧ trace.Records now (trace.latest + delta) trace' := by
  simp only [pushAdd, add208, bind_ok, toUint48_of_lt hnow] at h
  obtain ⟨delta', hdelta, value, hadd, hpush⟩ := h
  obtain rfl := safeUint208_ok hdelta
  split_ifs at hadd with hfits
  obtain rfl := pure_ok.1 hadd
  exact ⟨hfits, push_records ht hpush⟩

lemma pushSub_records (ht : trace.Ordered now) (h : pushSub now delta trace = .ok trace') :
    delta ≤ trace.latest ∧ trace.Records now (trace.latest - delta) trace' := by
  simp only [pushSub, run_ok, toUint48_of_lt hnow] at h
  obtain ⟨delta', hdelta, value, ⟨hle, rfl⟩, hpush⟩ := h
  obtain rfl := safeUint208_ok hdelta
  exact ⟨hle, push_records ht hpush⟩

/-! ## Votes of delegates -/

/-- Votes move from one delegate to another. The zero address stands for no delegate. -/
lemma moveVotes_ok (h : v.moveDelegateVotes now sender rcp amount = .ok v')
    (hord : ∀ d, (v.delegateCheckpoints d).Ordered now) :
    ∃ votes latest, v' = { v with delegateCheckpoints := votes } ∧
      Rewrites now latest v.delegateCheckpoints votes ∧
      latest 0 = (v.delegateCheckpoints 0).latest ∧ ∀ d ≠ 0,
        latest d + (if d = sender then amount else 0) =
          (v.delegateCheckpoints d).latest + if d = rcp then amount else 0 := by
  unfold moveDelegateVotes at h
  rw [ite_ok] at h
  rcases h with ⟨⟨hne, -⟩, h⟩ | ⟨hidle, h⟩
  · simp only [bind_ok] at h
    obtain ⟨v₁, hdebit, hcred⟩ := h
    have hfirst : ∃ votes latest, v₁ = { v with delegateCheckpoints := votes } ∧
        Rewrites now latest v.delegateCheckpoints votes ∧
        latest 0 = (v.delegateCheckpoints 0).latest ∧ ∀ d ≠ 0,
          latest d + (if d = sender then amount else 0) = (v.delegateCheckpoints d).latest := by
      rcases ite_ok.1 hdebit with ⟨hsender, hdebit⟩ | ⟨hzero, hdebit⟩
      · simp only [run_ok] at hdebit
        obtain ⟨trace, hpush, rfl⟩ := hdebit
        obtain ⟨hle, hrecs⟩ := pushSub_records hnow (hord sender) hpush
        refine ⟨_, _, rfl, (Rewrites.refl hord).write hrecs,
          update_of_ne hsender.symm _ _, fun d _ => ?_⟩
        by_cases hd : d = sender
        · subst hd
          simp only [update_self, if_true]
          omega
        · simp [update_of_ne hd, if_neg hd]
      · obtain rfl := pure_ok.1 hdebit
        refine ⟨_, _, rfl, .refl hord, rfl, fun d hd => ?_⟩
        rw [if_neg fun heq => hzero fun hs => hd (heq.trans hs)]
        rfl
    obtain ⟨votes, latest, rfl, hfirst, hnone, hlat⟩ := hfirst
    rcases ite_ok.1 hcred with ⟨hrcpt, hcred⟩ | ⟨hzero, hcred⟩
    · simp only [run_ok] at hcred
      obtain ⟨trace, hpush, rfl⟩ := hcred
      obtain ⟨-, hrecs⟩ := pushAdd_records hnow (hfirst.ordered rcp) hpush
      rw [hfirst.latest] at hrecs
      refine ⟨_, _, rfl, hfirst.write hrecs,
        (update_of_ne hrcpt.symm _ _).trans hnone, fun d hd => ?_⟩
      have hbef := hlat d hd
      by_cases heq : d = rcp
      · subst heq
        simp only [update_self, if_true, if_neg hne.symm] at hbef ⊢
        omega
      · simp only [update_of_ne heq, if_neg heq]
        omega
    · obtain rfl := pure_ok.1 hcred
      refine ⟨_, _, rfl, hfirst, hnone, fun d hd => ?_⟩
      rw [hlat d hd, if_neg fun heq => hzero fun hr => hd (heq.trans hr)]
      rfl
  · obtain rfl := pure_ok.1 h
    refine ⟨_, _, rfl, .refl hord, rfl, fun d _ => ?_⟩
    grind

end

/-! ## The tally -/

/-- The balances of the accounts that delegated to `d`. -/
def delegated (v : Votes) (d : Address) : ℕ :=
  ∑ a, if v.delegates a = d then v.balanceOf a else 0

/-- The newest records agree with the balances, and all of them are in order. -/
structure Tallied (now : ℕ) (v : Votes) : Prop where
  ordered : ∀ d, (v.delegateCheckpoints d).Ordered now
  totalOrdered : v.totalCheckpoints.Ordered now
  undelegated : v.delegates 0 = 0
  unheld : (v.delegateCheckpoints 0).latest = 0
  votes : ∀ d ≠ 0, (v.delegateCheckpoints d).latest = v.delegated d
  total : v.totalCheckpoints.latest = ∑ a, v.balanceOf a
  bounded : ∀ timepoint, v.supplyAt timepoint < 2 ^ 208

lemma Tallied.blank (now : ℕ) : Tallied now blank := by
  refine ⟨fun _ => .nil now, .nil now, rfl, rfl, fun d hd => ?_, ?_, fun _ => Nat.two_pow_pos 208⟩
  · exact (sum_eq_zero fun a _ => if_neg hd.symm).symm
  · exact sum_const_zero.symm

lemma Tallied.mono (h : Tallied now v) (hle : now ≤ later) : Tallied later v :=
  ⟨fun d => (h.ordered d).mono hle, h.totalOrdered.mono hle, h.undelegated, h.unheld, h.votes,
    h.total, h.bounded⟩

/-- What was recorded for earlier times. -/
structure SamePast (now : ℕ) (v v' : Votes) : Prop where
  votes : ∀ key < now, ∀ d, v'.votesAt key d = v.votesAt key d
  supply : ∀ key < now, v'.supplyAt key = v.supplyAt key

lemma SamePast.refl (now : ℕ) (v : Votes) : SamePast now v v :=
  ⟨fun _ _ _ => rfl, fun _ _ => rfl⟩

lemma SamePast.trans (h : SamePast now v v') (h' : SamePast now v' v'') : SamePast now v v'' :=
  ⟨fun key hkey d => (h'.votes key hkey d).trans (h.votes key hkey d),
    fun key hkey => (h'.supply key hkey).trans (h.supply key hkey)⟩

lemma Tallied.delegate (h : Tallied now v) (hnow : now < 2 ^ 48) (haccount : acct ≠ 0)
    (hrun : v.delegate now acct dlg = .ok v') : Tallied now v' ∧ SamePast now v v' := by
  obtain ⟨votes, latest, rfl, hrew, hnone, hlat⟩ := moveVotes_ok hnow hrun h.ordered
  refine ⟨⟨hrew.ordered, h.totalOrdered, ?_, (hrew.latest 0).trans (hnone.trans h.unheld),
    ?_, h.total, h.bounded⟩, hrew.past, fun _ _ => rfl⟩
  · exact (update_of_ne haccount.symm _ _).trans h.undelegated
  · intro d hd
    have hwrite := Ledger.sum_write (a := acct)
      (f := fun a => if v.delegates a = d then v.balanceOf a else 0)
      (g := fun a => if Function.update v.delegates acct dlg a = d
        then v.balanceOf a else 0) fun a ha => by rw [update_of_ne ha]
    have hbef := h.votes d hd
    have hmoved := hlat d hd
    simp only [update_self] at hwrite
    simp only [delegated, hrew.latest d] at hbef ⊢
    grind

/-- Balances that move take the votes of their delegates with them. -/
lemma Tallied.transfer (h : Tallied now v) (hnow : now < 2 ^ 48) (hsender : sender ≠ 0)
    (hrcpt : rcp ≠ 0) (hrun : v.update now sender rcp value = .ok v') :
    Tallied now v' ∧ SamePast now v v' := by
  simp only [update, moveBalance, transferVotingUnits, hsender, hrcpt, if_false, run_ok] at hrun
  obtain ⟨_, ⟨_, ⟨-, hle, rfl⟩, rfl⟩, -, -, _, rfl, _, rfl, hvotes⟩ := hrun
  obtain ⟨votes, latest, rfl, hrew, hnone, hlat⟩ :=
    moveVotes_ok hnow hvotes h.ordered
  have hmove : ∀ a, v.balanceOf.move sender rcp value a + (if a = sender then value else 0) =
      v.balanceOf a + if a = rcp then value else 0 := by
    intro a
    unfold Erc20.move
    simp only [update_apply]
    grind
  refine ⟨⟨hrew.ordered, h.totalOrdered, h.undelegated,
    (hrew.latest 0).trans (hnone.trans h.unheld), ?_, ?_, h.bounded⟩, hrew.past,
    fun _ _ => rfl⟩
  · intro d hd
    have hshift := Ledger.sum_shift (fun a => v.delegates a = d) hmove
    have hbef := h.votes d hd
    have hmoved := hlat d hd
    simp only [delegated, hrew.latest d] at hbef ⊢
    unfold Erc20.move at hshift
    grind
  · have hshift := Ledger.sum_shift (fun _ => True) hmove
    simp only [if_true] at hshift
    refine h.total.trans ?_
    unfold Erc20.move at hshift
    simp only at hshift ⊢
    omega

/-- A mint adds to the recorded supply what it adds to the balances. -/
lemma Tallied.mint (h : Tallied now v) (hnow : now < 2 ^ 48) (hrcpt : rcp ≠ 0)
    (hrun : v.update now 0 rcp value = .ok v') : Tallied now v' ∧ SamePast now v v' := by
  simp only [update, moveBalance, transferVotingUnits, hrcpt, if_true, if_false, run_ok] at hrun
  obtain ⟨_, ⟨_, ⟨_, -, rfl⟩, rfl⟩, -, -, total, htotal, _, rfl, hvotes⟩ := hrun
  obtain ⟨votes, latest, rfl, hrew, hnone, hlat⟩ :=
    moveVotes_ok hnow hvotes h.ordered
  obtain ⟨hfits, hrecs⟩ := pushAdd_records hnow h.totalOrdered htotal
  have hcred : ∀ a, Function.update v.balanceOf rcp (v.balanceOf rcp + value) a =
      v.balanceOf a + if a = rcp then value else 0 := by
    intro a
    simp only [update_apply]
    grind
  refine ⟨⟨hrew.ordered, hrecs.ordered, h.undelegated,
    (hrew.latest 0).trans (hnone.trans h.unheld), ?_, ?_, ?_⟩, hrew.past, hrecs.past⟩
  · intro d hd
    have hsum := Ledger.sum_credit (fun a => v.delegates a = d) hcred
    have hbef := h.votes d hd
    have hmoved := hlat d hd
    have hzero := h.undelegated
    simp only [delegated, hrew.latest d] at hbef ⊢
    grind
  · have hsum := Ledger.sum_credit (fun _ => True) hcred
    simp only [if_true] at hsum
    refine hrecs.latest.trans ?_
    rw [h.total]
    exact hsum.symm
  · intro t
    unfold supplyAt
    by_cases hpast : t < now
    · exact (hrecs.past t hpast).trans_lt (h.bounded t)
    · rw [hrecs.ordered.lookup_latest (Nat.le_of_not_lt hpast), hrecs.latest]
      exact hfits

/-- All votes together are the balances of the accounts that delegated. -/
lemma Tallied.sum_latest (h : Tallied now v) : ∑ d, (v.delegateCheckpoints d).latest =
    ∑ a, if v.delegates a = 0 then 0 else v.balanceOf a := by
  have hlat : ∀ d, (v.delegateCheckpoints d).latest =
      ∑ a, if v.delegates a = d then (if v.delegates a = 0 then 0 else v.balanceOf a) else 0 := by
    intro d
    by_cases hd : d = 0
    · subst hd
      refine h.unheld.trans (sum_eq_zero fun a _ => ?_).symm
      grind
    · rw [h.votes d hd, delegated]
      refine sum_congr rfl fun a _ => ?_
      grind
  simp only [hlat]
  rw [sum_comm]
  refine sum_congr rfl fun a _ => ?_
  simp

/-! ## Accounts that keep to themselves -/

/-- The account delegates to nobody and nobody may spend from it. -/
structure Passive (account : Address) (v : Votes) : Prop where
  delegates : v.delegates account = 0
  allowance : ∀ spender, v.allowance account spender = 0

/-- A change of balances leaves allowances and delegates alone. -/
lemma update_frame (h : v.update now sender rcp value = .ok v') :
    v'.allowance = v.allowance ∧ v'.delegates = v.delegates := by
  simp only [update, transferVotingUnits, bind_ok] at h
  obtain ⟨v₁, hmove, -, -, _, -, _, -, hvotes⟩ := h
  obtain ⟨_, rfl⟩ := moveVotes_frame hvotes
  simp only [moveBalance, bind_ok] at hmove
  obtain ⟨v₂, hdebit, hcred⟩ := hmove
  have hfirst : v₂.allowance = v.allowance ∧ v₂.delegates = v.delegates := by
    split_ifs at hdebit
    · simp only [run_ok] at hdebit
      obtain ⟨_, -, rfl⟩ := hdebit
      exact ⟨rfl, rfl⟩
    · simp only [run_ok] at hdebit
      obtain ⟨-, -, rfl⟩ := hdebit
      exact ⟨rfl, rfl⟩
  split_ifs at hcred <;> exact pure_ok.1 hcred ▸ hfirst

lemma Passive.update (h : Passive acct v)
    (hrun : v.update now sender rcp value = .ok v') : Passive acct v' := by
  obtain ⟨hallow, hdels⟩ := update_frame hrun
  exact ⟨hdels ▸ h.delegates, hallow ▸ h.allowance⟩

/-- What a passive account holds carries no votes. -/
lemma Passive.sum_latest_add_le (h : Passive acct v) (htal : Tallied now v) :
    ∑ d, (v.delegateCheckpoints d).latest + v.balanceOf acct ≤ v.totalCheckpoints.latest := by
  rw [htal.sum_latest, htal.total]
  have hle : ∀ a, (if v.delegates a = 0 then 0 else v.balanceOf a) +
      (if a = acct then v.balanceOf acct else 0) ≤ v.balanceOf a := by
    intro a
    have := h.delegates
    grind
  have hsum := sum_le_sum fun a (_ : a ∈ univ) => hle a
  simpa only [sum_add_distrib, sum_ite_eq', mem_univ, if_true] using hsum

end Votes

/-! ## Calls -/

section

variable {env : Env} {s s' : State} {granted : Address → ℕ}

variable {acct : Address}

/-- Nothing can be spent of an account that allows nothing, and it still allows nothing. -/
lemma Spends.passive (h : Spends caller owner value allowance allowance')
    (hnone : ∀ spender, allowance acct spender = 0) : (∀ spender, allowance' acct spender = 0) ∧
      (caller ≠ acct → owner = acct → value = 0) := by
  cases h with
  | own howner => exact ⟨hnone, fun hcall heq => absurd (howner.symm.trans heq) hcall⟩
  | unlimited hmax =>
    refine ⟨hnone, fun _ heq => ?_⟩
    rw [heq, hnone] at hmax
    exact absurd hmax (by decide)
  | limited hle =>
    refine ⟨fun spender => ?_, fun _ heq => ?_⟩
    · rw [Ledger.update₂_apply]
      split_ifs with hkey
      · rw [← hkey.1, hnone, Nat.zero_sub]
      · exact hnone spender
    · rw [heq, hnone] at hle
      exact Nat.le_zero.1 hle

/-- A call of somebody else spends nothing of a passive account. -/
lemma Effect.passive (heff : Effect env s granted s') (hother : env.sender ≠ acct)
    (h : s.votes.Passive acct) :
    s'.votes.Passive acct ∧ s.votes.balanceOf acct ≤ s'.votes.balanceOf acct := by
  cases heff with
  | administer _ | create _ | start _ => exact ⟨h, le_rfl⟩
  | link _ hlink =>
    obtain ⟨_, _, rfl⟩ := linkPending_edits hlink
    exact ⟨h, le_rfl⟩
  | relink hrelk =>
    obtain ⟨_, _, rfl⟩ := relinkLock_edits hrelk
    exact ⟨h, le_rfl⟩
  | approve =>
    refine ⟨⟨h.delegates, fun spender => ?_⟩, le_rfl⟩
    exact (Ledger.update₂_of_ne _ _ fun hkey => hother hkey.1.symm).trans (h.allowance spender)
  | delegate hdel =>
    refine ⟨?_, (Votes.delegate_balanceOf hdel ▸ le_rfl)⟩
    obtain ⟨_, rfl⟩ := Votes.moveVotes_frame hdel
    exact ⟨(update_of_ne hother.symm _ _).trans h.delegates, h.allowance⟩
  | mint hrcpt hmint =>
    obtain ⟨votes, hvotes, _, _, rfl⟩ := balances_edits hmint
    refine ⟨h.update hvotes, ?_⟩
    simp only [Votes.update_mint hrcpt hvotes, update_apply]
    split_ifs with heq <;> simp [heq]
  | allocate hrcpt _ hmint hlock =>
    obtain ⟨_, _, rfl⟩ := addLock_edits hlock
    obtain ⟨votes, hvotes, _, _, rfl⟩ := balances_edits hmint
    refine ⟨h.update hvotes, ?_⟩
    simp only [Votes.update_mint hrcpt hvotes, update_apply]
    split_ifs with heq <;> simp [heq]
  | @transfer _ _ _ _ allowance hsender hrcpt hspnd htrans =>
    obtain ⟨votes, hvotes, _, _, rfl⟩ := balances_edits htrans
    obtain ⟨hnone, hvalue⟩ := hspnd.passive h.allowance
    have hspent : Votes.Passive acct { s.votes with allowance } :=
      ⟨h.delegates, hnone⟩
    refine ⟨hspent.update hvotes, ?_⟩
    simp only [(Votes.update_transfer hsender hrcpt hvotes).2, Erc20.move, update_apply]
    grind

lemma Effects.passive (h : Effects env s granted s') (hother : env.sender ≠ acct)
    (hpasv : s.votes.Passive acct) :
    s'.votes.Passive acct ∧ s.votes.balanceOf acct ≤ s'.votes.balanceOf acct := by
  induction h with
  | done s => exact ⟨hpasv, le_rfl⟩
  | next heff _ ih =>
    obtain ⟨hfirst, hle⟩ := heff.passive hother hpasv
    obtain ⟨hrest, hle'⟩ := ih hfirst
    exact ⟨hrest, hle.trans hle'⟩

/-- The effects keep the tally and the past. -/
lemma Effect.tallied (heff : Effect env s granted s') (hnow : env.now < 2 ^ 48)
    (hsender : env.sender ≠ 0) (h : s.votes.Tallied env.now) :
    s'.votes.Tallied env.now ∧ Votes.SamePast env.now s.votes s'.votes := by
  have hsame : s'.votes = s.votes →
      s'.votes.Tallied env.now ∧ Votes.SamePast env.now s.votes s'.votes := by
    intro heq
    rw [heq]
    exact ⟨h, .refl ..⟩
  cases heff with
  | administer _ | create _ | start _ => exact hsame rfl
  | link _ hlink =>
    obtain ⟨_, _, rfl⟩ := linkPending_edits hlink
    exact hsame rfl
  | relink hrelk =>
    obtain ⟨_, _, rfl⟩ := relinkLock_edits hrelk
    exact hsame rfl
  | approve =>
    exact ⟨⟨h.ordered, h.totalOrdered, h.undelegated, h.unheld, h.votes, h.total, h.bounded⟩,
      fun _ _ _ => rfl, fun _ _ => rfl⟩
  | delegate hdel => exact h.delegate hnow hsender hdel
  | mint hrcpt hmint =>
    obtain ⟨votes, hvotes, _, _, rfl⟩ := balances_edits hmint
    exact h.mint hnow hrcpt hvotes
  | allocate hrcpt _ hmint hlock =>
    obtain ⟨_, _, rfl⟩ := addLock_edits hlock
    obtain ⟨votes, hvotes, _, _, rfl⟩ := balances_edits hmint
    exact h.mint hnow hrcpt hvotes
  | @transfer _ _ _ _ allowance hsender hrcpt _ htrans =>
    obtain ⟨votes, hvotes, _, _, rfl⟩ := balances_edits htrans
    have hspent : Votes.Tallied env.now { s.votes with allowance } :=
      ⟨h.ordered, h.totalOrdered, h.undelegated, h.unheld, h.votes, h.total, h.bounded⟩
    obtain ⟨htal, hpast⟩ := hspent.transfer hnow hsender hrcpt hvotes
    exact ⟨htal, hpast.votes, hpast.supply⟩

lemma Effects.tallied (h : Effects env s granted s') (hnow : env.now < 2 ^ 48)
    (hsender : env.sender ≠ 0) (htal : s.votes.Tallied env.now) :
    s'.votes.Tallied env.now ∧ Votes.SamePast env.now s.votes s'.votes := by
  induction h with
  | done s => exact ⟨htal, .refl ..⟩
  | next heff _ ih =>
    obtain ⟨hfirst, hpast⟩ := heff.tallied hnow hsender htal
    obtain ⟨hrest, hpast'⟩ := ih hfirst
    exact ⟨hrest, hpast.trans hpast'⟩

end

end Interfold.Fold
