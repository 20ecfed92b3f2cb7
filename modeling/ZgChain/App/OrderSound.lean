import ZgChain.App.TallySound

/-!
# The order of the validators

The second pass of the tally goes over a map, in an order that is not determined. What
it adds for a validator depends on the first pass only and is not negative. So a sum is
in the range of decimals at every step if it is at the end, and the steps commute: the
tally has the same outcome in every order, a panic included.
-/

namespace ZgChain.Gov

/-! ## Adding a voting power -/

structure Adds (counts : Counts) (power : StoredDec) (options : List WeightedVoteOption)
    (counts' : Counts) : Prop where
  parts : ∀ w ∈ options, (power.val.mul w.weight.val).natAbs < 2 ^ maxDecBitLen
  results : ∀ o, (counts'.results o).val = (counts.results o).val + optionPower power.val o options
  total : counts'.totalVotingPower.val = counts.totalVotingPower.val + power.val

theorem optionPower_cons (power : Dec) (o : VoteOption) (w : WeightedVoteOption)
    (ws : List WeightedVoteOption) :
    optionPower power o (w :: ws) = (if w.option = o then power.mul w.weight.val else 0) +
      optionPower power o ws := by
  simp [optionPower]

section
variable {power : StoredDec} {options : List WeightedVoteOption}
  {results results' : VoteOption → StoredDec}
  {counts counts' : Counts}

theorem optionPower_nonneg (hpower : 0 ≤ power.val) (hw : ∀ w ∈ options, 0 ≤ w.weight.val)
    (o : VoteOption) :
    0 ≤ optionPower power.val o options := by
  refine List.sum_nonneg fun n hn => ?_
  obtain ⟨w, hmem, rfl⟩ := List.mem_map.mp hn
  by_cases ho : w.option = o
  · rw [if_pos ho]
    exact mul_nonneg_dec hpower (hw w hmem)
  · rw [if_neg ho]

theorem addOption_ok {w : WeightedVoteOption} : addOption power results w = .ok results' ↔
    (power.val.mul w.weight.val).natAbs < 2 ^ maxDecBitLen ∧
      ∀ o, (results' o).val =
        (results o).val + if w.option = o then power.val.mul w.weight.val else 0 := by
  simp only [addOption, StoredDec.mul, StoredDec.add, bind_eq_ok, orReject_eq_ok, storedDec_eq_some,
    pure_eq_ok]
  constructor
  · rintro ⟨sub, hsub, sum, hsum, rfl⟩
    refine ⟨hsub ▸ sub.property, fun o => ?_⟩
    by_cases ho : w.option = o
    · subst ho
      rw [Function.update_self, if_pos rfl, hsum, hsub]
    · rw [Function.update_of_ne (Ne.symm ho), if_neg ho, add_zero]
  · rintro ⟨hfits, hresults⟩
    refine ⟨⟨_, hfits⟩, rfl, results' w.option, ?_, ?_⟩
    · rw [hresults, if_pos rfl]
    · funext o
      by_cases ho : w.option = o
      · subst ho
        exact Function.update_self _ _ _
      · rw [Function.update_of_ne (Ne.symm ho), Subtype.ext_iff, hresults, if_neg ho, add_zero]

/-- Nothing is subtracted, so the sums on the way are in the range if the last ones are. -/
theorem addOptions_ok (hpower : 0 ≤ power.val) (hw : ∀ w ∈ options, 0 ≤ w.weight.val) :
    options.foldlM (addOption power) results = .ok results' ↔
      (∀ w ∈ options, (power.val.mul w.weight.val).natAbs < 2 ^ maxDecBitLen) ∧
        ∀ o, (results' o).val = (results o).val + optionPower power.val o options := by
  induction options generalizing results with
  | nil =>
    rw [List.foldlM_nil, pure_eq_ok, funext_iff]
    simp [optionPower, Subtype.ext_iff, eq_comm]
  | cons w ws ih =>
    obtain ⟨hhead, htail⟩ := List.forall_mem_cons.mp hw
    rw [List.foldlM_cons, List.forall_mem_cons]
    simp only [bind_eq_ok, ih htail, addOption_ok, optionPower_cons]
    constructor
    · rintro ⟨middle, ⟨hfits, hmiddle⟩, hall, hlast⟩
      refine ⟨⟨hfits, hall⟩, fun o => ?_⟩
      rw [hlast, hmiddle, add_assoc]
    · rintro ⟨⟨hfits, hall⟩, hlast⟩
      have hmiddle : ∀ o, ((results o).val + if w.option = o then power.val.mul w.weight.val
          else 0).natAbs <
          2 ^ maxDecBitLen := by
        intro o
        have hsub : 0 ≤ if w.option = o then power.val.mul w.weight.val else 0 := by
          by_cases ho : w.option = o
          · rw [if_pos ho]
            exact mul_nonneg_dec hpower hhead
          · rw [if_neg ho]
        refine inRange_of_between (a := results o) (b := results' o)
          (le_add_of_nonneg_right hsub) ?_
        rw [hlast, ← add_assoc]
        exact le_add_of_nonneg_right (optionPower_nonneg hpower htail o)
      refine ⟨fun o => ⟨_, hmiddle o⟩, ⟨hfits, fun o => rfl⟩, hall, fun o => ?_⟩
      rw [hlast, add_assoc]

theorem addVotingPower_ok (hpower : 0 ≤ power.val) (hw : ∀ w ∈ options, 0 ≤ w.weight.val) :
    addVotingPower counts power options = .ok counts' ↔ Adds counts power options counts' := by
  simp only [addVotingPower, StoredDec.add, bind_eq_ok, orReject_eq_ok, storedDec_eq_some,
    pure_eq_ok, addOptions_ok hpower hw]
  constructor
  · rintro ⟨results, ⟨hparts, hresults⟩, total, htotal, rfl⟩
    exact ⟨hparts, hresults, htotal⟩
  · intro h
    exact ⟨_, ⟨h.parts, h.results⟩, _, h.total, rfl⟩

theorem yieldsOr_addVotingPower (counts : Counts) (power : StoredDec)
    (options : List WeightedVoteOption) :
    YieldsOr Panic.intOverflow (addVotingPower counts power options) fun _ => True :=
  (yieldsOr_addOptions power counts.results options).bind fun _ _ => (yieldsOr_checked _).bind
    fun _ _ => .ok trivial

end

section
variable {p q : StoredDec} {os us : List WeightedVoteOption} (hp : 0 ≤ p.val)
  (hos : ∀ w ∈ os, 0 ≤ w.weight.val)
  (hq : 0 ≤ q.val) (hus : ∀ w ∈ us, 0 ≤ w.weight.val)
include hp hos hq hus

theorem Adds.swap {counts middle last : Counts} (h₁ : Adds counts p os middle)
    (h₂ : Adds middle q us last) :
    ∃ middle', Adds counts q us middle' ∧ Adds middle' p os last := by
  have hresults : ∀ o, (last.results o).val =
      (counts.results o).val + optionPower q.val o us + optionPower p.val o os := by
    intro o
    rw [h₂.results, h₁.results, add_right_comm]
  have htotal : last.totalVotingPower.val = counts.totalVotingPower.val + q.val + p.val := by
    rw [h₂.total, h₁.total, add_right_comm]
  have hmiddle : ∀ o, ((counts.results o).val + optionPower q.val o us).natAbs <
      2 ^ maxDecBitLen := by
    intro o
    refine inRange_of_between (a := counts.results o) (b := last.results o)
      (le_add_of_nonneg_right (optionPower_nonneg hq hus o)) ?_
    rw [hresults]
    exact le_add_of_nonneg_right (optionPower_nonneg hp hos o)
  have hmiddleTotal : (counts.totalVotingPower.val + q.val).natAbs < 2 ^ maxDecBitLen := by
    refine inRange_of_between (a := counts.totalVotingPower) (b := last.totalVotingPower)
      (le_add_of_nonneg_right hq) ?_
    rw [htotal]
    exact le_add_of_nonneg_right hp
  exact ⟨⟨fun o => ⟨_, hmiddle o⟩, ⟨_, hmiddleTotal⟩⟩, ⟨h₂.parts, fun _ => rfl, rfl⟩,
    ⟨h₁.parts, hresults, htotal⟩⟩

theorem addVotingPower_comm (counts : Counts) :
    (addVotingPower counts p os >>= fun middle => addVotingPower middle q us) =
      (addVotingPower counts q us >>= fun middle => addVotingPower middle p os) := by
  refine YieldsOr.eq_of_iff (e := Panic.intOverflow)
    ((yieldsOr_addVotingPower counts p os).bind fun middle _ => yieldsOr_addVotingPower middle q us)
    ((yieldsOr_addVotingPower counts q us).bind fun middle _ => yieldsOr_addVotingPower middle p os)
      fun last => ?_
  simp only [bind_eq_ok, addVotingPower_ok hp hos, addVotingPower_ok hq hus]
  constructor
  · rintro ⟨middle, h₁, h₂⟩
    exact h₁.swap hp hos hq hus h₂
  · rintro ⟨middle, h₁, h₂⟩
    exact h₁.swap hq hus hp hos h₂

end

/-! ## The second pass -/

def pendingPower (currValidators : KVStore Addr ValidatorGovInfo) (operator : Addr) :
    Except Panic (StoredDec × List WeightedVoteOption) :=
  match currValidators.get operator with
  | none => .ok (.zero, [])
  | some val =>
    if val.vote.isEmpty then .ok (.zero, [])
    else do
      let sharesAfterDeductions ←
        orReject (val.delegatorShares.sub val.delegatorDeductions) .intOverflow
      let votingPower ← votingPowerOf val sharesAfterDeductions
      return (votingPower, val.vote)

def Countable (currValidators : KVStore Addr ValidatorGovInfo) : Prop := ∀ operator val,
  currValidators.get operator = some val → 0 < val.delegatorShares.val ∧ 0 ≤ val.bondedTokens ∧
    val.delegatorDeductions.val ≤ val.delegatorShares.val ∧ ∀ w ∈ val.vote, 0 ≤ w.weight.val

theorem addVotingPower_nothing (counts : Counts) : addVotingPower counts .zero [] = .ok counts := by
  rw [addVotingPower_ok le_rfl (by simp)]
  exact ⟨by simp, fun o => by simp [optionPower], by simp [StoredDec.zero]⟩

theorem countValidator_eq (t : TallyState) (operator : Addr) : countValidator t operator = do
    let pending ← pendingPower t.currValidators operator
    let counts ← addVotingPower t.counts pending.1 pending.2
    return { t with counts } := by
  unfold countValidator pendingPower
  cases t.currValidators.get operator with
  | none =>
    rw [ok_bind, addVotingPower_nothing]
    rfl
  | some val =>
    by_cases hvote : val.vote.isEmpty = true
    · simp only [if_pos hvote]
      rw [ok_bind, addVotingPower_nothing]
      rfl
    · simp only [if_neg hvote, bind_assoc, pure_bind]

theorem yieldsOr_pendingPower {currValidators : KVStore Addr ValidatorGovInfo}
    (h : Countable currValidators) (operator : Addr) :
    YieldsOr Panic.intOverflow (pendingPower currValidators operator) fun pending =>
      0 ≤ pending.1.val ∧ ∀ w ∈ pending.2, 0 ≤ w.weight.val := by
  unfold pendingPower
  cases hget : currValidators.get operator with
  | none => exact .ok ⟨le_rfl, by simp⟩
  | some val =>
    obtain ⟨hshares, htokens, hdeductions, hweights⟩ := h operator val hget
    by_cases hvote : val.vote.isEmpty = true
    · simp only [if_pos hvote]
      exact .ok ⟨le_rfl, by simp⟩
    · simp only [if_neg hvote]
      refine (yieldsOr_checked _).bind fun left hleft => ?_
      refine (yieldsOr_votingPowerOf val left hshares.ne').bind fun power hpower => .ok
        ⟨?_, hweights⟩
      rw [hpower, hleft]
      exact quo_nonneg (mul_nonneg (Int.sub_nonneg_of_le hdeductions) htokens) hshares.le

theorem countValidator_keeps {t t' : TallyState} {operator : Addr}
    (h : countValidator t operator = .ok t') :
    t'.currValidators = t.currValidators := by
  rw [countValidator_eq] at h
  simp only [bind_eq_ok, pure_eq_ok] at h
  obtain ⟨_, _, _, _, rfl⟩ := h
  rfl

/-- A validator whose voting power overflows stops the pass, before or after another one. -/
theorem countValidator_stuck {t : TallyState} (h : Countable t.currValidators) {v : Addr}
    (hv : pendingPower t.currValidators v = .error .intOverflow) (w : Addr) :
    (countValidator t v >>= fun t' => countValidator t' w) = .error .intOverflow ∧
      (countValidator t w >>= fun t' => countValidator t' v) = .error .intOverflow := by
  simp only [countValidator_eq, bind_assoc, pure_bind, hv]
  refine ⟨rfl, ?_⟩
  rcases yieldsOr_pendingPower h w with hw | ⟨⟨q, us⟩, hw, _⟩
  · rw [hw]
    rfl
  · rw [hw, ok_bind]
    rcases yieldsOr_addVotingPower t.counts q us with hadd | ⟨counts, hadd, _⟩
    · rw [hadd]
      rfl
    · rw [hadd]
      rfl

theorem countValidator_comm {t : TallyState} (h : Countable t.currValidators) (v w : Addr) :
    (countValidator t v >>= fun t' => countValidator t' w) =
      (countValidator t w >>= fun t' => countValidator t' v) := by
  rcases yieldsOr_pendingPower h v with hv | ⟨⟨p, os⟩, hv, hp, hos⟩
  · obtain ⟨hfirst, hsecond⟩ := countValidator_stuck h hv w
    rw [hfirst, hsecond]
  · rcases yieldsOr_pendingPower h w with hw | ⟨⟨q, us⟩, hw, hq, hus⟩
    · obtain ⟨hfirst, hsecond⟩ := countValidator_stuck h hw v
      rw [hfirst, hsecond]
    · simp only [countValidator_eq, bind_assoc, pure_bind, hv, hw, ok_bind]
      rw [← bind_assoc, ← bind_assoc, addVotingPower_comm hp hos hq hus t.counts]

/-! ## The tally -/

section
variable {staking : Staking} {votes : Votes} {proposalId : UInt64}
  (hw : ∀ vote ∈ votes.list, ∀ w ∈ vote.options, 0 ≤ w.weight.val)
include hw

theorem firstPass_countable {t : TallyState}
    (h : (votesOf votes.list proposalId).foldlM (countVote staking)
      ⟨initValidators staking, noCounts, votes.list⟩ = .ok t) :
    Countable t.currValidators := by
  have hn := votesOf_voters_nodup votes proposalId
  have hne : (votesOf votes.list proposalId).foldlM (countVote staking)
      ⟨initValidators staking, noCounts, votes.list⟩ ≠
      .error .intOverflow := by
    rw [h]
    simp
  obtain ⟨t', ht', htracks⟩ := YieldsOr.result (firstPass_tracks _ _) hne
  rw [h] at ht'
  cases ht'
  intro operator val hget
  cases hv : staking.validator operator with
  | none =>
    rw [htracks.absent operator hv] at hget
    cases hget
  | some v =>
    obtain ⟨hmem, rfl⟩ := validator_spec hv
    obtain ⟨deductions, hded, hpresent⟩ := htracks.present _ v hv
    rw [hpresent] at hget
    cases hget
    have hshares : 0 ≤ v.delegatorShares.val := by
      rw [staking.shares_sum v hmem]
      exact sharesOf_nonneg _ _
    -- the deductions are shares of delegators that voted, each once
    have hleft : 0 ≤ v.delegatorShares.val -
        deductedByAll staking (votesOf votes.list proposalId) v.operator := by
      rw [remaining_eq hn hmem]
      exact sharesOf_nonneg _ _
    refine ⟨lt_of_le_of_ne hshares (staking.shares_ne v hmem).symm,
      staking.tokens_nonneg v hmem, ?_, ?_⟩
    · rw [hded]
      exact Int.le_of_sub_nonneg hleft
    · rw [lastVote_eq hn]
      cases hvote : voteOf (votesOf votes.list proposalId) v.operator with
      | none => simp
      | some vote => exact hw vote (List.mem_filter.mp (voteOf_voter hvote).1).1

theorem countVotes_perm {order order' : List Addr} (h : order.Perm order') :
    countVotes staking order votes proposalId = countVotes staking order' votes proposalId := by
  unfold countVotes
  cases hfirst : (votesOf votes.list proposalId).foldlM (countVote staking)
    ⟨initValidators staking, noCounts, votes.list⟩ with
  | error e => rfl
  | ok t =>
    rw [ok_bind, ok_bind]
    have hkeeps : ∀ s operator s', Countable s.currValidators → countValidator s operator = .ok s' →
        Countable s'.currValidators := by
      intro s operator s' hs hstep
      rw [countValidator_keeps hstep]
      exact hs
    exact foldlM_perm hkeeps (fun s v w hs => countValidator_comm hs v w) h
      (firstPass_countable hw hfirst)

end

/-- The outcome of the tally does not depend on the order in which the map of the validators
is iterated, and the tally does not divide by zero. -/
theorem tally_order_independent (params : TallyParams) (staking : Staking) (votes : Votes)
    (proposalId : UInt64)
    (hw : ∀ vote ∈ votes.list, ∀ w ∈ vote.options, 0 ≤ w.weight.val) (order order' : List Addr)
    (ho : order.Perm (staking.bonded.map BondedValidator.operator))
    (ho' : order'.Perm (staking.bonded.map BondedValidator.operator)) :
    tally params staking order votes proposalId = tally params staking order' votes proposalId ∧
      tally params staking order votes proposalId ≠ .error .divisionByZero := by
  constructor
  · rw [tally, tally, countVotes_perm hw (ho.trans ho'.symm)]
  · rcases tally_spec params staking ho votes proposalId with h | ⟨r, h, _⟩
    · rw [h]
      simp
    · rw [h]
      simp

/-! Two validators with one delegation each, whose operators vote. -/

def oneShare : StoredDec := ⟨decPrecision, decPrecision_inRange⟩

def otherOperator : Addr := [3]

def pairBonded : List BondedValidator := [⟨operatorAddr, 3, oneShare⟩, ⟨otherOperator, 5, oneShare⟩]

def pairDelegations : List Delegation :=
  [⟨delegatorAddr, operatorAddr, oneShare, decPrecision_pos.le⟩,
    ⟨delegatorAddr, otherOperator, oneShare, decPrecision_pos.le⟩]

theorem pairBonded_tokens : ∀ v ∈ pairBonded, 0 ≤ v.bondedTokens := by
  simp [pairBonded]

theorem pairBonded_shares : ∀ v ∈ pairBonded, v.delegatorShares.val ≠ 0 := by
  simp [pairBonded, oneShare, decPrecision]

theorem pairBonded_sum : ∀ v ∈ pairBonded,
    v.delegatorShares.val = sharesOf pairDelegations fun d => d.validatorAddress = v.operator := by
  simp [pairBonded, pairDelegations, sharesOf, operatorAddr, otherOperator]

theorem pairBonded_nodup : (pairBonded.map BondedValidator.operator).Nodup := by decide

def pairStaking : Staking :=
  ⟨pairBonded, pairDelegations, 8, pairBonded_nodup, pairBonded_tokens, pairBonded_shares,
    pairBonded_sum⟩

theorem pairVotes_nodup :
    ([yesVote operatorAddr, yesVote otherOperator].map fun vote =>
      (vote.proposalId, vote.voter)).Nodup := by
  decide

def pairVotes : Votes := ⟨[yesVote operatorAddr, yesVote otherOperator], pairVotes_nodup⟩

theorem tally_order_independent_pair :
    tally halfParams pairStaking [operatorAddr, otherOperator] pairVotes 1 =
        tally halfParams pairStaking [otherOperator, operatorAddr] pairVotes 1 ∧
      tally halfParams pairStaking [operatorAddr, otherOperator] pairVotes 1 ≠
        .error .divisionByZero := by
  apply tally_order_independent
  · intro vote hvote w hmem
    have hone : w = ⟨.yes, oneShare⟩ := by
      simp only [pairVotes, List.mem_cons, List.not_mem_nil, or_false] at hvote
      rcases hvote with rfl | rfl
      · exact List.mem_singleton.mp hmem
      · exact List.mem_singleton.mp hmem
    rw [hone]
    exact decPrecision_pos.le
  · exact List.Perm.refl _
  · exact List.Perm.swap _ _ _

end ZgChain.Gov
