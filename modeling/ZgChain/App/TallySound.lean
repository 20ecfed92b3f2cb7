import ZgChain.App.Tally
import ZgChain.Lib.Yields

/-!
# Every share is counted once

A delegation to a bonded validator is counted with the vote of the delegator, or else with
the vote of the validator's operator, or else not at all. The invariant of the first pass
says which shares have been counted and deducted for the votes visited so far; the second
pass counts what is left, which are the shares of the delegators that did not vote.
-/

namespace ZgChain.Gov

/-! ## Attributions of shares to votes -/

structure Attribution where
  validator : BondedValidator
  shares : Dec
  vote : Vote

def Attribution.power (a : Attribution) : Dec :=
  Dec.quo (a.shares * a.validator.bondedTokens : Int) a.validator.delegatorShares.val

def optionPower (power : Dec) (o : VoteOption) (options : List WeightedVoteOption) : Int :=
  (options.map fun w => if w.option = o then power.mul w.weight.val else 0).sum

def resultOf (o : VoteOption) (as : List Attribution) : Int :=
  (as.map fun a => optionPower a.power o a.vote.options).sum

def powerOf (as : List Attribution) : Int := (as.map Attribution.power).sum

def voteOf (votes : List Vote) (voter : Addr) : Option Vote :=
  votes.find? fun vote => vote.voter = voter

def Staking.validator (staking : Staking) (operator : Addr) : Option BondedValidator :=
  staking.bonded.find? fun v => v.operator = operator

/-- The vote that a delegation to a validator is counted with. -/
def decidingVote (votes : List Vote) (v : BondedValidator) (d : Delegation) : Option Vote :=
  (voteOf votes d.delegatorAddress).or (voteOf votes v.operator)

def ownAttribution (staking : Staking) (vote : Vote) (d : Delegation) : Option Attribution :=
  (staking.validator d.validatorAddress).map fun v => ⟨v, d.shares.val, vote⟩

def ownAttributions (staking : Staking) (vote : Vote) : List Attribution :=
  (staking.delegationsOf vote.voter).filterMap (ownAttribution staking vote)

/-- The shares of the delegators of a validator that did not vote. -/
def remainingShares (staking : Staking) (votes : List Vote) (operator : Addr) : Dec :=
  sharesOf staking.delegations fun d => d.validatorAddress = operator ∧
  (voteOf votes d.delegatorAddress).isNone

def remainingAttribution (staking : Staking) (votes : List Vote) (v : BondedValidator) :
    Option Attribution :=
  (voteOf votes v.operator).map fun vote => ⟨v, remainingShares staking votes v.operator, vote⟩

def attributions (staking : Staking) (votes : List Vote) : List Attribution :=
  votes.flatMap (ownAttributions staking) ++ staking.bonded.filterMap
    (remainingAttribution staking votes)

def attributedShares (as : List Attribution) (v : BondedValidator) (vote : Vote) : Int :=
  (as.map fun a => if a.validator.operator = v.operator ∧ a.vote.voter = vote.voter then
    a.shares else 0).sum

/-! ## Arithmetic that may overflow -/

theorem yieldsOr_checked (d : Dec) :
    YieldsOr Panic.intOverflow (orReject (storedDec d) Panic.intOverflow) fun a => a.val = d :=
  (yieldsOr_orReject _).mono fun _ h => storedDec_eq_some.mp h

theorem yieldsOr_quoDec (a : StoredDec) {d : Dec} (hd : d ≠ 0) :
    YieldsOr Panic.intOverflow (quoDec a d) fun q => q.val = a.val.quo d := by
  rw [quoDec, if_neg hd, StoredDec.quo, if_neg hd]
  exact yieldsOr_checked _

theorem yieldsOr_votingPowerOf (val : ValidatorGovInfo) (shares : StoredDec)
    (hs : val.delegatorShares.val ≠ 0) :
    YieldsOr Panic.intOverflow (votingPowerOf val shares) fun p =>
      p.val = Dec.quo (shares.val * val.bondedTokens : Int) val.delegatorShares.val := by
  refine (yieldsOr_checked _).bind fun bonded hb => ?_
  refine (yieldsOr_quoDec bonded hs).mono fun q hq => ?_
  rw [hq, hb]

theorem yieldsOr_addOptions (power : StoredDec) (results : VoteOption → StoredDec)
    (options : List WeightedVoteOption) :
    YieldsOr Panic.intOverflow (options.foldlM (addOption power) results) fun results' =>
      ∀ o, (results' o).val = (results o).val + optionPower power.val o options := by
  refine YieldsOr.foldlM
    (fun visited (results' : VoteOption → StoredDec) => ∀ o, (results' o).val = (results o).val +
    optionPower power.val o visited) (fun visited w results' hinv => ?_) options
      (fun o => by simp [optionPower])
  refine (yieldsOr_checked _).bind fun subPower hsub => (yieldsOr_checked _).bind fun sum hsum =>
    .ok fun o => ?_
  simp only [optionPower, List.map_append, List.map_cons, List.map_nil, List.sum_append,
    List.sum_cons, List.sum_nil, add_zero]
  by_cases ho : w.option = o
  · subst ho
    rw [Function.update_self, hsum, hinv, hsub, if_pos rfl, add_assoc]
    rfl
  · rw [Function.update_of_ne (Ne.symm ho), hinv, if_neg ho, add_zero]
    rfl

structure Counted (as : List Attribution) (counts : Counts) : Prop where
  results : ∀ o, (counts.results o).val = resultOf o as
  total : counts.totalVotingPower.val = powerOf as

theorem resultOf_append (o : VoteOption) (as bs : List Attribution) :
    resultOf o (as ++ bs) = resultOf o as + resultOf o bs := by
  simp [resultOf]

theorem powerOf_append (as bs : List Attribution) :
    powerOf (as ++ bs) = powerOf as + powerOf bs := by
  simp [powerOf]

theorem Counted.add {as : List Attribution} {counts : Counts} (h : Counted as counts)
    {a : Attribution} {power : StoredDec} (hp : power.val = a.power) :
    YieldsOr Panic.intOverflow (addVotingPower counts power a.vote.options)
      (Counted (as ++ [a])) := by
  refine (yieldsOr_addOptions power counts.results a.vote.options).bind fun results hres => ?_
  refine (yieldsOr_checked _).bind fun total htotal => .ok ⟨fun o => ?_, ?_⟩
  · rw [hres, h.results, resultOf_append, hp]
    simp [resultOf]
  · rw [htotal, h.total, powerOf_append, hp]
    simp [powerOf]

/-! ## The first pass -/

/-- What the tally has recorded: the deductions and the vote of every bonded validator, the
counts of the attributions made so far, and the votes that are left. -/
structure Tracks (staking : Staking) (deducted : Addr → Int) (vote : Addr → Option Vote)
    (as : List Attribution) (votes : List Vote) (t : TallyState) : Prop where
  absent : ∀ addr, staking.validator addr = none → t.currValidators.get addr = none
  present : ∀ addr v, staking.validator addr = some v → ∃ deductions : StoredDec, deductions.val =
    deducted addr ∧
    t.currValidators.get addr =
      some ⟨v.bondedTokens, v.delegatorShares, deductions, (vote addr).elim [] Vote.options⟩
  counts : Counted as t.counts
  votes : t.votes = votes

section
variable {staking : Staking} {deducted : Addr → Int} {vote : Addr → Option Vote}
  {as : List Attribution} {votes : List Vote}
  {t : TallyState}

theorem validator_spec {operator : Addr} {v : BondedValidator}
    (h : staking.validator operator = some v) :
    v ∈ staking.bonded ∧ v.operator = operator :=
  ⟨List.mem_of_find?_eq_some h, by simpa using List.find?_some h⟩

theorem validator_operator {v : BondedValidator} (h : v ∈ staking.bonded) :
    staking.validator v.operator = some v := by
  have hsome : (staking.validator v.operator).isSome = true := by
    rw [Staking.validator, List.find?_isSome]
    exact ⟨v, h, by simp⟩
  obtain ⟨w, hw⟩ := Option.isSome_iff_exists.mp hsome
  obtain ⟨hmem, hop⟩ := validator_spec hw
  rw [hw, List.inj_on_of_nodup_map staking.operators_nodup hmem h hop]

theorem initValidators_tracks (votes : List Vote) :
    Tracks staking (fun _ => 0) (fun _ => none) [] votes
      ⟨initValidators staking, noCounts, votes⟩ := by
  have hkeys : (staking.bonded.map BondedValidator.operator).Nodup := staking.operators_nodup
  refine ⟨fun addr h => ?_, fun addr v h => ?_, ⟨fun _ => rfl, rfl⟩, rfl⟩
  · have hne : addr ∉ staking.bonded.map BondedValidator.operator := by
      intro hmem
      obtain ⟨v, hv, rfl⟩ := List.mem_map.mp hmem
      rw [validator_operator hv] at h
      cases h
    exact KVStore.get_foldl_set_of_notMem _ (fun v _ => newValidatorGovInfo v) hne _
  · obtain ⟨hmem, rfl⟩ := validator_spec h
    exact ⟨.zero, rfl, KVStore.get_foldl_set _ (fun v _ => newValidatorGovInfo v) hkeys hmem _⟩

theorem Tracks.countDelegation (h : Tracks staking deducted vote as votes t) (u : Vote)
    (d : Delegation) :
    YieldsOr Panic.intOverflow (countDelegation u t d) (Tracks staking
      (fun addr => deducted addr + if d.validatorAddress = addr then d.shares.val else 0) vote
      (as ++ (ownAttribution staking u d).toList) votes) := by
  unfold Gov.countDelegation ownAttribution
  cases hv : staking.validator d.validatorAddress with
  | none =>
    -- a delegation to a validator that is not bonded is not counted
    rw [h.absent _ hv]
    refine .ok ⟨h.absent, fun addr v ha => ?_, by simpa using h.counts, h.votes⟩
    have hne : d.validatorAddress ≠ addr := by
      intro e
      rw [e, ha] at hv
      cases hv
    rw [if_neg hne, add_zero]
    exact h.present addr v ha
  | some v =>
    obtain ⟨deductions, hded, hget⟩ := h.present _ v hv
    rw [hget]
    have hne := staking.shares_ne v (validator_spec hv).1
    refine (yieldsOr_checked _).bind fun deductions' hded' => ?_
    refine (yieldsOr_votingPowerOf _ d.shares hne).bind fun power hp => ?_
    refine (h.counts.add (a := ⟨v, d.shares.val, u⟩) hp).bind fun counts hc => .ok ?_
    refine ⟨fun addr ha => ?_, fun addr w ha => ?_, hc, h.votes⟩
    · have hother : addr ≠ d.validatorAddress := by
        intro e
        rw [e, hv] at ha
        cases ha
      exact (KVStore.get_set_ne _ hother _).trans (h.absent addr ha)
    · by_cases e : d.validatorAddress = addr
      · subst e
        cases hv.symm.trans ha
        refine ⟨deductions', ?_, ?_⟩
        · rw [if_pos rfl, hded', hded]
        · exact KVStore.get_set_self _ _ _
      · obtain ⟨ded, hd, hg⟩ := h.present addr w ha
        refine ⟨ded, ?_, ?_⟩
        · rw [if_neg e, add_zero, hd]
        · exact (KVStore.get_set_ne _ (Ne.symm e) _).trans hg

theorem Tracks.recordVote (h : Tracks staking deducted vote as votes t) (u : Vote) :
    Tracks staking deducted (Function.update vote u.voter (some u)) as votes (recordVote t u) := by
  unfold Gov.recordVote
  cases hv : staking.validator u.voter with
  | none =>
    rw [h.absent _ hv]
    refine ⟨h.absent, fun addr v ha => ?_, h.counts, h.votes⟩
    have hne : addr ≠ u.voter := by
      intro e
      rw [← e, ha] at hv
      cases hv
    rw [Function.update_of_ne hne]
    exact h.present addr v ha
  | some v =>
    obtain ⟨deductions, hded, hget⟩ := h.present _ v hv
    rw [hget]
    refine ⟨fun addr ha => ?_, fun addr w ha => ?_, h.counts, h.votes⟩
    · have hother : addr ≠ u.voter := by
        intro e
        rw [e, hv] at ha
        cases ha
      exact (KVStore.get_set_ne _ hother _).trans (h.absent addr ha)
    · by_cases e : addr = u.voter
      · subst e
        cases hv.symm.trans ha
        refine ⟨deductions, hded, ?_⟩
        rw [Function.update_self]
        exact KVStore.get_set_self _ _ _
      · obtain ⟨ded, hd, hg⟩ := h.present addr w ha
        refine ⟨ded, hd, ?_⟩
        rw [Function.update_of_ne e]
        exact (KVStore.get_set_ne _ e _).trans hg

def deductedBy (staking : Staking) (u : Vote) (addr : Addr) : Int :=
  sharesOf (staking.delegationsOf u.voter) fun d => d.validatorAddress = addr

theorem sharesOf_append (ds ds' : List Delegation) (p : Delegation → Bool) :
    sharesOf (ds ++ ds') p = sharesOf ds p + sharesOf ds' p := by
  simp [sharesOf]

theorem filterMap_snoc {α β : Type} (f : α → Option β) (l : List α) (x : α) :
    (l ++ [x]).filterMap f = l.filterMap f ++ (f x).toList := by
  rw [List.filterMap_append, List.filterMap_cons]
  cases f x with
  | none => rfl
  | some y => rfl

theorem Tracks.countVote (h : Tracks staking deducted vote as votes t) (u : Vote) :
    YieldsOr Panic.intOverflow (countVote staking t u) (Tracks staking
      (fun addr => deducted addr + deductedBy staking u addr)
        (Function.update vote u.voter (some u))
      (as ++ ownAttributions staking u) (deleteVote votes u.proposalId u.voter)) := by
  have hfold := YieldsOr.foldlM (e := Panic.intOverflow) (f := Gov.countDelegation u)
    (fun visited => Tracks staking
      (fun addr => deducted addr + sharesOf visited fun d => d.validatorAddress = addr)
      (Function.update vote u.voter (some u))
        (as ++ visited.filterMap (ownAttribution staking u)) votes)
    (fun visited d t ht => ?_) (staking.delegationsOf u.voter) (s := Gov.recordVote t u) ?_
  · exact hfold.bind fun t' ht' => .ok
      ⟨ht'.absent, ht'.present, ht'.counts, congrArg (deleteVote · _ _) ht'.votes⟩
  · have hstep := ht.countDelegation u d
    have hded : ∀ addr, (deducted addr + sharesOf visited fun d => d.validatorAddress = addr) +
        (if d.validatorAddress = addr then d.shares.val else 0) =
        deducted addr + sharesOf (visited ++ [d]) fun d => d.validatorAddress = addr := by
      intro addr
      rw [sharesOf_append, ← add_assoc]
      simp [sharesOf]
    have has : as ++ visited.filterMap (ownAttribution staking u) ++
        (ownAttribution staking u d).toList =
        as ++ (visited ++ [d]).filterMap (ownAttribution staking u) := by
      rw [filterMap_snoc, List.append_assoc]
    simpa only [hded, has] using hstep
  · simpa [sharesOf] using h.recordVote u

def lastVote (votes : List Vote) : Addr → Option Vote :=
  votes.foldl (fun vote u => Function.update vote u.voter (some u)) fun _ => none

def deductedByAll (staking : Staking) (votes : List Vote) (addr : Addr) : Int :=
  (votes.map fun u => deductedBy staking u addr).sum

theorem firstPass_tracks (us all : List Vote) :
    YieldsOr Panic.intOverflow
      (us.foldlM (countVote staking) ⟨initValidators staking, noCounts, all⟩)
      (Tracks staking (deductedByAll staking us) (lastVote us)
        (us.flatMap (ownAttributions staking))
        (us.foldl (fun vs u => deleteVote vs u.proposalId u.voter) all)) := by
  refine YieldsOr.foldlM
    (fun visited => Tracks staking (deductedByAll staking visited) (lastVote visited)
    (visited.flatMap (ownAttributions staking))
      (visited.foldl (fun vs u => deleteVote vs u.proposalId u.voter) all))
    (fun visited u t ht => ?_) us (initValidators_tracks all)
  have hded : ∀ addr, deductedByAll staking visited addr + deductedBy staking u addr =
      deductedByAll staking (visited ++ [u]) addr := by
    intro addr
    simp [deductedByAll]
  refine (ht.countVote u).mono fun t' ht' => ?_
  rw [lastVote, List.foldl_append, List.flatMap_append, List.foldl_append]
  simpa [hded, lastVote] using ht'

/-! ## The second pass -/

def remaining (staking : Staking) (deducted : Addr → Int) (vote : Addr → Option Vote)
    (addr : Addr) : Option Attribution :=
  (staking.validator addr).bind fun v => (vote addr).map fun u =>
    ⟨v, v.delegatorShares.val - deducted addr, u⟩

theorem Tracks.countValidator (h : Tracks staking deducted vote as votes t) (addr : Addr) :
    YieldsOr Panic.intOverflow (countValidator t addr)
      (Tracks staking deducted vote (as ++ (remaining staking deducted vote addr).toList)
        votes) := by
  unfold Gov.countValidator remaining
  cases hv : staking.validator addr with
  | none =>
    rw [h.absent _ hv]
    exact .ok (by simpa using h)
  | some v =>
    obtain ⟨deductions, hded, hget⟩ := h.present _ v hv
    rw [hget]
    cases hvote : vote addr with
    | none => exact .ok (by simpa using h)
    | some u =>
      have hne : u.options.isEmpty = false := by simpa using u.options_ne
      have hshares := staking.shares_ne v (validator_spec hv).1
      simp only [Option.elim_some, hne, Bool.false_eq_true, if_false, Option.bind_some,
        Option.map_some]
      refine (yieldsOr_checked _).bind fun left hleft => ?_
      refine (yieldsOr_votingPowerOf _ left hshares).bind fun power hp => ?_
      have hpower : power.val = Attribution.power
          ⟨v, v.delegatorShares.val - deducted addr, u⟩ := by
        rw [hp, hleft, hded]
        rfl
      refine (h.counts.add (a := ⟨v, v.delegatorShares.val - deducted addr, u⟩) hpower).bind
        fun counts hc => .ok ?_
      exact ⟨h.absent, h.present, hc, h.votes⟩

theorem Tracks.secondPass (h : Tracks staking deducted vote as votes t) (order : List Addr) :
    YieldsOr Panic.intOverflow (order.foldlM Gov.countValidator t)
      (Tracks staking deducted vote (as ++ order.filterMap (remaining staking deducted vote))
        votes) := by
  refine YieldsOr.foldlM (fun visited => Tracks staking deducted vote
    (as ++ visited.filterMap (remaining staking deducted vote)) votes) (fun visited addr t ht => ?_)
      order (by simpa using h)
  rw [filterMap_snoc, ← List.append_assoc]
  exact ht.countValidator addr

theorem countVotes_tracks (order : List Addr) (votes : Votes) (proposalId : UInt64) :
    YieldsOr Panic.intOverflow (countVotes staking order votes proposalId)
      (Tracks staking (deductedByAll staking (votesOf votes.list proposalId))
        (lastVote (votesOf votes.list proposalId))
        ((votesOf votes.list proposalId).flatMap (ownAttributions staking) ++ order.filterMap
          (remaining staking (deductedByAll staking (votesOf votes.list proposalId))
            (lastVote (votesOf votes.list proposalId))))
        ((votesOf votes.list proposalId).foldl (fun vs u => deleteVote vs u.proposalId u.voter)
          votes.list)) :=
  (firstPass_tracks _ _).bind fun _ ht => ht.secondPass order

end

/-! ## Deductions are the shares of the voters -/

section
variable {ds : List Delegation} {p q r : Delegation → Bool}

theorem sharesOf_filter (ds : List Delegation) (p q : Delegation → Bool) :
    sharesOf (ds.filter q) p = sharesOf ds fun d => q d && p d := by
  induction ds with
  | nil => rfl
  | cons d ds ih =>
    simp only [sharesOf, List.filter_cons, List.map_cons, List.sum_cons] at ih ⊢
    by_cases hq : q d = true
    · simp [hq, ih]
    · simp [hq, ih]

theorem sharesOf_split (hor : ∀ d, r d = (p d || q d)) (hand : ∀ d, (p d && q d) = false) :
    sharesOf ds r = sharesOf ds p + sharesOf ds q := by
  induction ds with
  | nil => rfl
  | cons d ds ih =>
    have hd := hand d
    simp only [sharesOf, List.map_cons, List.sum_cons, hor] at ih ⊢
    rw [ih]
    by_cases hp : p d = true
    · have hq : q d = false := by simpa [hp] using hd
      simp only [hp, hq, Bool.or_false, Bool.false_eq_true, if_true, if_false]
      ring
    · simp only [hp, Bool.false_or, Bool.false_eq_true, if_false]
      ring

theorem sharesOf_none (h : ∀ d, p d = false) : sharesOf ds p = 0 := by
  simp [sharesOf, h]

theorem sharesOf_nonneg (ds : List Delegation) (p : Delegation → Bool) : 0 ≤ sharesOf ds p := by
  refine List.sum_nonneg fun n hn => ?_
  obtain ⟨d, _, rfl⟩ := List.mem_map.mp hn
  by_cases hp : p d = true
  · rw [if_pos hp]
    exact d.shares_nonneg
  · rw [if_neg hp]

end

section
variable {staking : Staking} {us : List Vote}

theorem voteOf_cons (u : Vote) (us : List Vote) (addr : Addr) :
    voteOf (u :: us) addr = if u.voter = addr then some u else voteOf us addr := by
  rw [voteOf, List.find?_cons]
  by_cases h : u.voter = addr
  · simp [h]
  · simp [h, voteOf]

theorem voteOf_eq_none {addr : Addr} : voteOf us addr = none ↔ addr ∉ us.map Vote.voter := by
  simp [voteOf]

theorem voteOf_voter {addr : Addr} {u : Vote} (h : voteOf us addr = some u) :
    u ∈ us ∧ u.voter = addr :=
  ⟨List.mem_of_find?_eq_some h, by simpa using List.find?_some h⟩

variable (hn : (us.map Vote.voter).Nodup)
include hn

theorem voteOf_self {u : Vote} (hu : u ∈ us) : voteOf us u.voter = some u := by
  cases h : voteOf us u.voter with
  | none => exact absurd (List.mem_map_of_mem hu) (voteOf_eq_none.mp h)
  | some w =>
    obtain ⟨hw, hv⟩ := voteOf_voter h
    rw [List.inj_on_of_nodup_map hn hw hu hv]

theorem lastVote_eq : lastVote us = voteOf us := by
  suffices h : ∀ (us : List Vote), (us.map Vote.voter).Nodup →
      ∀ (f : Addr → Option Vote) (addr : Addr),
      us.foldl (fun (vote : Addr → Option Vote) u => Function.update vote u.voter (some u)) f addr =
        (voteOf us addr).or (f addr) by
    funext addr
    rw [lastVote, h us hn, Option.or_none]
  intro us
  induction us with
  | nil => intro _ f addr; rfl
  | cons u us ih =>
    intro hn f addr
    rw [List.map_cons, List.nodup_cons] at hn
    rw [List.foldl_cons, ih hn.2, voteOf_cons]
    by_cases h : u.voter = addr
    · subst h
      rw [if_pos rfl, voteOf_eq_none.mpr hn.1, Function.update_self]
      rfl
    · rw [if_neg h, Function.update_of_ne (Ne.symm h)]

theorem deductedByAll_eq (addr : Addr) : deductedByAll staking us addr =
    sharesOf staking.delegations fun d => d.validatorAddress = addr ∧
    (voteOf us d.delegatorAddress).isSome := by
  induction us with
  | nil =>
    rw [sharesOf_none fun d => by simp [voteOf]]
    rfl
  | cons u us ih =>
    rw [List.map_cons, List.nodup_cons] at hn
    have hcons : deductedByAll staking (u :: us) addr = deductedBy staking u addr +
        deductedByAll staking us addr := by
      simp [deductedByAll]
    rw [hcons, ih hn.2, deductedBy, Staking.delegationsOf, sharesOf_filter]
    symm
    apply sharesOf_split
    · intro d
      rw [voteOf_cons]
      by_cases h : u.voter = d.delegatorAddress
      · rw [← h, voteOf_eq_none.mpr hn.1]
        simp
      · simp [h, Ne.symm h]
    · intro d
      by_cases h : d.delegatorAddress = u.voter
      · simp [h, voteOf_eq_none.mpr hn.1]
      · simp [h]

/-- What is left of a validator's shares are those of the delegators that did not vote. -/
theorem remaining_eq {v : BondedValidator} (hv : v ∈ staking.bonded) :
    v.delegatorShares.val - deductedByAll staking us v.operator =
      remainingShares staking us v.operator := by
  have hsplit : v.delegatorShares.val = deductedByAll staking us v.operator +
      remainingShares staking us v.operator := by
    rw [staking.shares_sum v hv, deductedByAll_eq hn, remainingShares]
    apply sharesOf_split
    · intro d
      cases voteOf us d.delegatorAddress with
      | none => simp
      | some u => simp
    · intro d
      cases voteOf us d.delegatorAddress with
      | none => simp
      | some u => simp
  rw [hsplit]
  ring

theorem remaining_perm {order : List Addr}
    (ho : order.Perm (staking.bonded.map BondedValidator.operator)) :
    (order.filterMap (remaining staking (deductedByAll staking us) (lastVote us))).Perm
      (staking.bonded.filterMap (remainingAttribution staking us)) := by
  refine (ho.filterMap _).trans ?_
  rw [List.filterMap_map]
  refine List.Perm.of_eq (List.filterMap_congr fun v hv => ?_)
  rw [Function.comp_apply, remaining, validator_operator hv, Option.bind_some, lastVote_eq hn,
    remaining_eq hn hv]
  rfl

end

/-! ## Exactly once -/

theorem sum_map_single {α κ : Type} [DecidableEq κ] (key : α → κ) (f : α → Int) {l : List α}
    (hn : (l.map key).Nodup)
    {a : α} (ha : a ∈ l) : (l.map fun x => if key x = key a then f x else 0).sum = f a := by
  induction l with
  | nil => cases ha
  | cons b l ih =>
    rw [List.map_cons, List.nodup_cons] at hn
    rw [List.map_cons, List.sum_cons]
    cases ha with
    | head =>
      have hzero : (l.map fun x => if key x = key a then f x else 0).sum = 0 := by
        refine List.sum_eq_zero fun n hmem => ?_
        obtain ⟨x, hx, rfl⟩ := List.mem_map.mp hmem
        refine if_neg fun e => hn.1 ?_
        rw [← e]
        exact List.mem_map_of_mem hx
      rw [if_pos rfl, hzero, add_zero]
    | tail _ ha =>
      have hne : key b ≠ key a := fun e => hn.1 (e ▸ List.mem_map_of_mem ha)
      rw [if_neg hne, zero_add, ih hn.2 ha]

theorem attributedShares_append (as bs : List Attribution) (v : BondedValidator) (u : Vote) :
    attributedShares (as ++ bs) v u = attributedShares as v u + attributedShares bs v u := by
  simp [attributedShares]

section
variable {staking : Staking} {us : List Vote} {v : BondedValidator} {u : Vote}

theorem attributedShares_own (hv : v ∈ staking.bonded) (w : Vote) :
    attributedShares (ownAttributions staking w) v u =
      if w.voter = u.voter then deductedBy staking w v.operator else 0 := by
  rw [ownAttributions, deductedBy]
  induction staking.delegationsOf w.voter with
  | nil => simp [attributedShares, sharesOf]
  | cons d ds ih =>
    have hds : sharesOf (d :: ds) (fun d => d.validatorAddress = v.operator) =
        (if d.validatorAddress = v.operator then d.shares.val else 0) +
          sharesOf ds (fun d => d.validatorAddress = v.operator) := by
      simp [sharesOf]
    rw [List.filterMap_cons, hds]
    cases hd : staking.validator d.validatorAddress with
    | none =>
      have hne : d.validatorAddress ≠ v.operator := by
        intro e
        rw [e, validator_operator hv] at hd
        cases hd
      simp only [ownAttribution, hd, Option.map_none, if_neg hne, zero_add]
      exact ih
    | some v' =>
      have hop := (validator_spec hd).2
      simp only [ownAttribution, hd, Option.map_some, attributedShares, List.map_cons,
        List.sum_cons, hop] at ih ⊢
      rw [ih]
      by_cases hw : w.voter = u.voter
      · simp [hw]
      · simp [hw]

theorem attributedShares_voters (hn : (us.map Vote.voter).Nodup) (hv : v ∈ staking.bonded)
    (hu : u ∈ us) :
    attributedShares (us.flatMap (ownAttributions staking)) v u =
      deductedBy staking u v.operator := by
  rw [← sum_map_single Vote.voter (fun w => deductedBy staking w v.operator) hn hu]
  clear hn hu
  induction us with
  | nil => rfl
  | cons w us ih =>
    rw [List.flatMap_cons, attributedShares_append, attributedShares_own hv, ih, List.map_cons,
      List.sum_cons]

theorem attributedShares_remaining (hn : (us.map Vote.voter).Nodup) (hv : v ∈ staking.bonded)
    (hu : u ∈ us) :
    attributedShares (staking.bonded.filterMap (remainingAttribution staking us)) v u =
      if v.operator = u.voter then remainingShares staking us v.operator else 0 := by
  rw [← sum_map_single BondedValidator.operator
    (fun w => if w.operator = u.voter then remainingShares staking us w.operator else 0)
      staking.operators_nodup hv]
  clear hv
  induction staking.bonded with
  | nil => rfl
  | cons w bonded ih =>
    rw [List.filterMap_cons, List.map_cons, List.sum_cons, ← ih, remainingAttribution]
    cases hw : voteOf us w.operator with
    | none =>
      have hne : w.operator ≠ u.voter := by
        intro e
        rw [e, voteOf_self hn hu] at hw
        cases hw
      simp [hne]
    | some x =>
      obtain ⟨_, hx⟩ := voteOf_voter hw
      simp only [Option.map_some, attributedShares, List.map_cons, List.sum_cons, hx]
      by_cases he : w.operator = v.operator
      · simp [he]
      · simp [he]

theorem decidingVote_eq (hu : u ∈ us) (hn : (us.map Vote.voter).Nodup) (d : Delegation) :
    (decidingVote us v d).map Vote.voter = some u.voter ↔
      d.delegatorAddress = u.voter ∨ v.operator = u.voter ∧
      (voteOf us d.delegatorAddress).isNone := by
  rw [decidingVote]
  cases hd : voteOf us d.delegatorAddress with
  | some w =>
    obtain ⟨_, hw⟩ := voteOf_voter hd
    simp [hw]
  | none =>
    have hne : d.delegatorAddress ≠ u.voter := by
      intro e
      rw [e, voteOf_self hn hu] at hd
      cases hd
    cases ho : voteOf us v.operator with
    | some w =>
      obtain ⟨_, hw⟩ := voteOf_voter ho
      simp [hw, hne]
    | none =>
      have hop : v.operator ≠ u.voter := by
        intro e
        rw [e, voteOf_self hn hu] at ho
        cases ho
      simp [hne, hop]

theorem attributedShares_eq (hn : (us.map Vote.voter).Nodup) (hv : v ∈ staking.bonded)
    (hu : u ∈ us) :
    attributedShares (attributions staking us) v u = sharesOf staking.delegations fun d =>
      d.validatorAddress = v.operator ∧ (decidingVote us v d).map Vote.voter = some u.voter := by
  have hrem : (if v.operator = u.voter then remainingShares staking us v.operator else 0) =
      sharesOf staking.delegations fun d =>
        (d.validatorAddress = v.operator ∧ (voteOf us d.delegatorAddress).isNone) ∧
        v.operator = u.voter := by
    by_cases ho : v.operator = u.voter
    · simp [ho, remainingShares]
    · rw [if_neg ho, sharesOf_none fun d => by simp [ho]]
  rw [attributions, attributedShares_append, attributedShares_voters hn hv hu,
    attributedShares_remaining hn hv hu, hrem, deductedBy, Staking.delegationsOf, sharesOf_filter]
  symm
  apply sharesOf_split
  · intro d
    simp only [decidingVote_eq hu hn]
    by_cases hd : d.validatorAddress = v.operator
    · by_cases ho : v.operator = u.voter
      · simp [hd, ho]
      · simp [hd, ho]
    · simp [hd]
  · intro d
    by_cases he : d.delegatorAddress = u.voter
    · simp [he, voteOf_self hn hu]
    · simp [he]

theorem attributions_spec {a : Attribution} (ha : a ∈ attributions staking us) :
    a.validator ∈ staking.bonded ∧ a.vote ∈ us ∧ 0 ≤ a.shares := by
  rw [attributions, List.mem_append, List.mem_flatMap, List.mem_filterMap] at ha
  rcases ha with ⟨u, hu, ha⟩ | ⟨v, hv, ha⟩
  · obtain ⟨d, _, hd⟩ := List.mem_filterMap.mp ha
    obtain ⟨v, hv, rfl⟩ := Option.map_eq_some_iff.mp hd
    exact ⟨(validator_spec hv).1, hu, d.shares_nonneg⟩
  · obtain ⟨u, hu, rfl⟩ := Option.map_eq_some_iff.mp ha
    exact ⟨hv, (voteOf_voter hu).1, sharesOf_nonneg _ _⟩

end

/-! ## The outcome -/

theorem Counted.perm {as bs : List Attribution} {counts : Counts} (h : Counted as counts)
    (hp : as.Perm bs) :
    Counted bs counts :=
  ⟨fun o => (h.results o).trans (hp.map _).sum_eq, h.total.trans (hp.map _).sum_eq⟩

theorem votesOf_voters_nodup (votes : Votes) (proposalId : UInt64) :
    ((votesOf votes.list proposalId).map Vote.voter).Nodup := by
  have hpairs := votes.nodup.sublist
    (List.Sublist.map (fun vote : Vote => (vote.proposalId, vote.voter))
    (List.filter_sublist (p := fun vote => decide (vote.proposalId = proposalId))))
  have heq : (votesOf votes.list proposalId).map (fun vote => (vote.proposalId, vote.voter)) =
      ((votesOf votes.list proposalId).map Vote.voter).map fun voter => (proposalId, voter) := by
    rw [List.map_map]
    refine List.map_congr_left fun vote hvote => ?_
    have hid : vote.proposalId = proposalId := by simpa using (List.mem_filter.mp hvote).2
    rw [hid]
    rfl
  exact List.Nodup.of_map _ (heq ▸ hpairs)

theorem foldl_deleteVote (us vs : List Vote) :
    us.foldl (fun vs u => deleteVote vs u.proposalId u.voter) vs =
      vs.filter fun w => ∀ u ∈ us, ¬ (w.proposalId = u.proposalId ∧ w.voter = u.voter) := by
  induction us generalizing vs with
  | nil => simp
  | cons u us ih =>
    rw [List.foldl_cons, ih, deleteVote, List.filter_filter]
    refine List.filter_congr fun w _ => ?_
    rw [Bool.and_comm, ← Bool.decide_and, decide_eq_decide, List.forall_mem_cons]

theorem votes_removed (votes : List Vote) (proposalId : UInt64) :
    (votesOf votes proposalId).foldl (fun vs u => deleteVote vs u.proposalId u.voter) votes =
      votes.filter fun w => w.proposalId ≠ proposalId := by
  rw [foldl_deleteVote]
  refine List.filter_congr fun w hw => ?_
  rw [decide_eq_decide]
  constructor
  · intro h hid
    exact h w (List.mem_filter.mpr ⟨hw, by simpa using hid⟩) ⟨rfl, rfl⟩
  · intro hne u hu hwu
    have hid : u.proposalId = proposalId := by simpa using (List.mem_filter.mp hu).2
    exact hne (hwu.1.trans hid)

theorem resultOf_eq_zero {as : List Attribution} (hpos : ∀ a ∈ as, 0 ≤ a.power) (h : powerOf as = 0)
    (o : VoteOption) :
    resultOf o as = 0 := by
  refine List.sum_eq_zero fun n hn => ?_
  obtain ⟨a, ha, rfl⟩ := List.mem_map.mp hn
  have hzero : a.power = 0 := by
    refine List.all_zero_of_le_zero_le_of_sum_eq_zero (fun p hp => ?_) h (List.mem_map_of_mem ha)
    obtain ⟨b, hb, rfl⟩ := List.mem_map.mp hp
    exact hpos b hb
  refine List.sum_eq_zero fun m hm => ?_
  obtain ⟨w, _, rfl⟩ := List.mem_map.mp hm
  rw [hzero]
  split
  · exact zero_mul_dec _
  · rfl

theorem power_nonneg {staking : Staking} {us : List Vote} {a : Attribution}
    (ha : a ∈ attributions staking us) :
    0 ≤ a.power := by
  obtain ⟨hv, _, hs⟩ := attributions_spec ha
  refine quo_nonneg (mul_nonneg hs (staking.tokens_nonneg _ hv)) ?_
  rw [staking.shares_sum _ hv]
  exact sharesOf_nonneg _ _

theorem yieldsOr_decideProposal (params : TallyParams) (totalBondedTokens : Int) (counts : Counts)
    (h : counts.totalVotingPower.val = 0 → (counts.results .abstain).val = 0) :
    YieldsOr Panic.intOverflow (decideProposal params totalBondedTokens counts) fun _ => True := by
  unfold decideProposal
  simp only
  split
  · exact .ok trivial
  · rename_i htokens
    have hne : newDec totalBondedTokens ≠ 0 := mul_ne_zero htokens (by decide)
    refine (yieldsOr_quoDec _ hne).bind fun percentVoting _ => ?_
    split
    · exact .ok trivial
    · refine (yieldsOr_checked _).bind fun nonAbstaining hna => ?_
      split
      · exact .ok trivial
      · rename_i hna0
        have htotal : counts.totalVotingPower.val ≠ 0 := by
          intro h0
          rw [hna, h0, h h0] at hna0
          exact hna0 rfl
        refine (yieldsOr_quoDec _ htotal).bind fun veto _ => ?_
        split
        · exact .ok trivial
        · refine (yieldsOr_quoDec _ hna0).bind fun approval _ => ?_
          split
          · exact .ok trivial
          · exact .ok trivial

theorem countVotes_spec (staking : Staking) {order : List Addr}
    (ho : order.Perm (staking.bonded.map BondedValidator.operator)) (votes : Votes)
    (proposalId : UInt64) :
    YieldsOr Panic.intOverflow (countVotes staking order votes proposalId) (Tracks staking
      (deductedByAll staking (votesOf votes.list proposalId))
        (voteOf (votesOf votes.list proposalId))
      (attributions staking (votesOf votes.list proposalId))
        (votes.list.filter fun w => w.proposalId ≠ proposalId)) := by
  have hn := votesOf_voters_nodup votes proposalId
  refine (countVotes_tracks order votes proposalId).mono fun t ht => ?_
  rw [votes_removed, lastVote_eq hn] at ht
  have hperm := (remaining_perm hn ho).append_left
    ((votesOf votes.list proposalId).flatMap (ownAttributions staking))
  rw [lastVote_eq hn] at hperm
  exact ⟨ht.absent, ht.present, ht.counts.perm hperm, ht.votes⟩

theorem tally_spec (params : TallyParams) (staking : Staking) {order : List Addr}
    (ho : order.Perm (staking.bonded.map BondedValidator.operator)) (votes : Votes)
    (proposalId : UInt64) :
    YieldsOr Panic.intOverflow (tally params staking order votes proposalId) fun r =>
      ∃ t, countVotes staking order votes proposalId = .ok t ∧ Tracks staking
        (deductedByAll staking (votesOf votes.list proposalId))
          (voteOf (votesOf votes.list proposalId))
        (attributions staking (votesOf votes.list proposalId))
          (votes.list.filter fun w => w.proposalId ≠ proposalId) t ∧
      r.tallyResults = newTallyResultFromMap t.counts.results ∧ r.votes = t.votes := by
  refine (countVotes_spec staking ho votes proposalId).eqn.bind fun t ht => ?_
  have habstain : t.counts.totalVotingPower.val = 0 → (t.counts.results .abstain).val = 0 := by
    intro h0
    rw [ht.2.counts.results]
    exact resultOf_eq_zero (fun a ha => power_nonneg ha) (ht.2.counts.total.symm.trans h0) _
  refine (yieldsOr_decideProposal params staking.totalBondedTokens t.counts habstain).bind
    fun _ _ => ?_
  exact .ok ⟨t, ht.1, ht.2, rfl, rfl⟩

/-- Unless a decimal overflows, the tally counts every delegation to a bonded validator once:
with the vote of the delegator, or else with that of the operator, or else not at all. -/
theorem tally_counts_once (params : TallyParams) (staking : Staking) (order : List Addr)
    (ho : order.Perm (staking.bonded.map BondedValidator.operator)) (votes : Votes)
    (proposalId : UInt64)
    (hok : tally params staking order votes proposalId ≠ .error .intOverflow) :
    ∃ t r, countVotes staking order votes proposalId = .ok t ∧
      tally params staking order votes proposalId = .ok r ∧
      r.tallyResults = newTallyResultFromMap t.counts.results ∧
      Counted (attributions staking (votesOf votes.list proposalId)) t.counts ∧
      (∀ a ∈ attributions staking (votesOf votes.list proposalId),
        a.validator ∈ staking.bonded ∧ a.vote ∈ votesOf votes.list proposalId ∧ 0 ≤ a.shares) ∧
      (∀ v ∈ staking.bonded, ∀ u ∈ votesOf votes.list proposalId,
        attributedShares (attributions staking (votesOf votes.list proposalId)) v u =
          sharesOf staking.delegations fun d => d.validatorAddress = v.operator ∧
            (decidingVote (votesOf votes.list proposalId) v d).map Vote.voter = some u.voter) ∧
      (∀ v ∈ staking.bonded, ∃ info, t.currValidators.get v.operator = some info ∧
        info.delegatorShares = v.delegatorShares ∧
        0 ≤ info.delegatorShares.val - info.delegatorDeductions.val) ∧
      r.votes = votes.list.filter fun w => w.proposalId ≠ proposalId := by
  have hn := votesOf_voters_nodup votes proposalId
  obtain ⟨r, hr, t, ht, htr, hres, hvotes⟩ :=
    (tally_spec params staking ho votes proposalId).result hok
  refine ⟨t, r, ht, hr, hres, htr.counts, fun a ha => attributions_spec ha,
    fun v hv u hu => attributedShares_eq hn hv hu,
    fun v hv => ?_, hvotes.trans htr.votes⟩
  obtain ⟨deductions, hded, hget⟩ := htr.present _ v (validator_operator hv)
  refine ⟨_, hget, rfl, ?_⟩
  simp only
  rw [hded, remaining_eq hn hv]
  exact sharesOf_nonneg _ _

/-! A validator with one delegation, of all its shares. -/

def operatorAddr : Addr := [1]

def delegatorAddr : Addr := [2]

def soleValidator (tokens : Nat) (shares : StoredDec) : BondedValidator :=
  ⟨operatorAddr, tokens, shares⟩

def soleDelegation (shares : StoredDec) (h : 0 ≤ shares.val) : Delegation :=
  ⟨delegatorAddr, operatorAddr, shares, h⟩

section
variable {tokens : Nat} {shares : StoredDec} {v : BondedValidator}
  (hv : v ∈ [soleValidator tokens shares])
include hv

theorem soleValidator_tokens : 0 ≤ v.bondedTokens := by
  rw [List.mem_singleton.mp hv]
  exact Int.natCast_nonneg tokens

theorem soleValidator_shares (h : 0 < shares.val) : v.delegatorShares.val ≠ 0 := by
  rw [List.mem_singleton.mp hv]
  exact h.ne'

theorem soleValidator_sum (h : 0 ≤ shares.val) :
    v.delegatorShares.val = sharesOf [soleDelegation shares h] fun d => d.validatorAddress =
      v.operator := by
  rw [List.mem_singleton.mp hv]
  simp [sharesOf, soleDelegation, soleValidator]

end

def soleStaking (tokens : Nat) (shares : StoredDec) (h : 0 < shares.val) : Staking where
  bonded := [soleValidator tokens shares]
  delegations := [soleDelegation shares h.le]
  totalBondedTokens := tokens
  operators_nodup := List.nodup_singleton _
  tokens_nonneg := fun _ hv => soleValidator_tokens hv
  shares_ne := fun _ hv => soleValidator_shares hv h
  shares_sum := fun _ hv => soleValidator_sum hv h.le

theorem decPrecision_inRange : decPrecision.natAbs < 2 ^ maxDecBitLen := by decide +kernel

def yesVote (voter : Addr) : Vote :=
  ⟨1, voter, [⟨.yes, ⟨decPrecision, decPrecision_inRange⟩⟩], List.cons_ne_nil _ _⟩

def soleVote (voter : Addr) : Votes := ⟨[yesVote voter], List.nodup_singleton _⟩

theorem decPrecision_pos : 0 < decPrecision := by decide

def threeTokens : Staking := soleStaking 3 ⟨decPrecision, decPrecision_inRange⟩ decPrecision_pos

def halfParams : TallyParams := ⟨decPrecision / 2, decPrecision / 2, decPrecision / 2⟩

/-- The delegator did not vote: all shares are counted with the vote of the operator. -/
theorem tally_counts_operator_vote :
    attributedShares (attributions threeTokens [yesVote operatorAddr])
      (soleValidator 3 ⟨decPrecision, decPrecision_inRange⟩)
        (yesVote operatorAddr) = decPrecision ∧
      ∃ r, tally halfParams threeTokens [operatorAddr] (soleVote operatorAddr) 1 = .ok r ∧
        r.votes = [] := by
  obtain ⟨_, r, _, hr, _, _, _, hshares, _, hvotes⟩ :=
    tally_counts_once halfParams threeTokens [operatorAddr]
    (List.Perm.refl _) (soleVote operatorAddr) 1 (by decide +kernel)
  refine ⟨?_, r, hr, hvotes.trans (by decide +kernel)⟩
  exact (hshares _ (List.mem_singleton_self _) _ (List.mem_singleton_self _)).trans
    (by decide +kernel)

theorem manyShares_inRange :
    ((2 : Int) ^ 128 * decPrecision).natAbs < 2 ^ maxDecBitLen := by decide +kernel

theorem manyShares_pos : 0 < (2 : Int) ^ 128 * decPrecision := by decide

def manyTokens : Staking :=
  soleStaking (2 ^ 128) ⟨(2 : Int) ^ 128 * decPrecision, manyShares_inRange⟩ manyShares_pos

/-- The product of the shares and the tokens of a validator has more than 315 bits. -/
theorem tally_overflows :
    tally halfParams manyTokens [operatorAddr] (soleVote delegatorAddr) 1 =
      .error .intOverflow := by
  decide +kernel

end ZgChain.Gov
