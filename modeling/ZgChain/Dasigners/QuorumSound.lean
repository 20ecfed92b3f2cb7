import ZgChain.Dasigners.EpochSound
import ZgChain.Lib.Chunks

/-!
# The number of quorums of an epoch

The loop that fills quorums stops when there are more of them than the cap, so it makes
one more than the cap if there are enough ballots. The quorum for the remaining ballots
is only added below the cap.
-/

namespace ZgChain.Dasigners

theorem fullQuorums_eq {slices : Nat} (hs : 0 < slices) (cap : Nat) (steps count : Nat)
    (ballots : List Ballot) (hl : ballots.length ≤ steps) (hc : count ≤ cap + 1) :
    fullQuorums slices cap steps count ballots =
      chunks slices (min (ballots.length / slices) (cap + 1 - count))
        (ballots.map Ballot.account) := by
  induction steps generalizing count ballots with
  | zero =>
    have hzero : ballots.length = 0 := by omega
    rw [hzero, Nat.zero_div, Nat.zero_min]
    rfl
  | succ steps ih =>
    unfold fullQuorums
    by_cases hmore : slices ≤ ballots.length ∧ ¬ (cap : Int) < count
    · have hdrop : (ballots.drop slices).length = ballots.length - slices := List.length_drop
      have hnext : min (ballots.length / slices) (cap + 1 - count) =
          min ((ballots.length - slices) / slices) (cap + 1 - (count + 1)) + 1 := by
        rw [Nat.div_eq_sub_div hs hmore.1]
        omega
      rw [if_pos hmore, ih (count + 1) _ (by omega) (by omega), hdrop, hnext, chunks_succ,
        List.map_take, List.map_drop]
    · rw [if_neg hmore]
      have hnone : min (ballots.length / slices) (cap + 1 - count) = 0 := by
        by_cases hfew : ballots.length < slices
        · rw [Nat.div_eq_of_lt hfew, Nat.zero_min]
        · have hcapped : cap + 1 - count = 0 := by omega
          rw [hcapped, Nat.min_zero]
      rw [hnone]
      rfl

theorem cyclicQuorum_eq (slices : Nat) (ballots : List Ballot) :
    cyclicQuorum slices ballots = cycled slices (ballots.map Ballot.account) "" := by
  unfold cyclicQuorum cycled
  refine List.map_congr_left fun i _ => ?_
  rw [List.length_map, List.getD_eq_getElem?_getD, List.getD_eq_getElem?_getD, List.getElem?_map]
  exact (Option.getD_map Ballot.account ⟨"", []⟩ _).symm

/-- The quorums of a list of accounts: whole chunks up to one more than the cap, and
below the cap one of the last accounts for what is left over. -/
def laidOut (slices cap : Nat) (accounts : List String) : Quorums :=
  let full := min (accounts.length / slices) (cap + 1)
  if accounts.length = 0 then [[]]
  else if accounts.length < slices then [cycled slices accounts ""]
  else if accounts.length % slices ≠ 0 ∧ full < cap then
    chunks slices full accounts ++ [accounts.drop (accounts.length - slices)]
  else chunks slices full accounts

theorem selectQuorums_eq {p : Params} (he : InRange p.encodedSlices)
    (hm : p.maxQuorums.toNat < 2 ^ 63) (ballots : List Ballot) : selectQuorums p ballots =
      .ok (laidOut p.encodedSlices.toNat p.maxQuorums.toNat (ballots.map Ballot.account)) := by
  obtain ⟨he₁, he₂⟩ := he
  have hslices : p.encodedSlices.toInt64.toInt = p.encodedSlices.toNat :=
    toInt_toInt64_of_lt (by omega)
  have hcap : p.maxQuorums.toInt64.toInt = p.maxQuorums.toNat := toInt_toInt64_of_lt hm
  have hmax : maxSliceLen = 2 ^ 44 := rfl
  unfold selectQuorums laidOut
  rw [List.length_map]
  by_cases hfull : p.encodedSlices.toInt64.toInt ≤ ballots.length
  · rw [if_pos hfull, if_neg (by omega), if_neg (by omega)]
    simp only [selectFullQuorums, hslices, hcap, Int.toNat_natCast]
    rw [rejectIf_neg (by omega), rejectIf_neg (by omega), ok_bind, ok_bind,
      fullQuorums_eq (by omega) _ _ _ _ le_rfl (by omega), Nat.sub_zero, length_chunks]
    by_cases hrest : ballots.length % p.encodedSlices.toNat ≠ 0 ∧
        min (ballots.length / p.encodedSlices.toNat) (p.maxQuorums.toNat + 1) < p.maxQuorums.toNat
    · rw [if_pos hrest, if_pos (by omega), List.map_drop]
      rfl
    · rw [if_neg hrest, if_neg (by omega)]
      rfl
  · rw [if_neg hfull]
    by_cases hpos : 0 < ballots.length
    · rw [if_pos hpos, rejectIf_neg (by omega), ok_bind, if_neg (by omega), if_pos (by omega),
        cyclicQuorum_eq]
      rfl
    · rw [if_neg hpos, if_pos (by omega)]

theorem length_laidOut_le (slices cap : Nat) (accounts : List String) :
    (laidOut slices cap accounts).length ≤ cap + 1 := by
  unfold laidOut
  dsimp only
  split
  · exact Nat.le_add_left 1 cap
  · split
    · exact Nat.le_add_left 1 cap
    · split
      · rw [List.length_append, length_chunks, List.length_singleton]
        omega
      · rw [length_chunks]
        exact Nat.min_le_right _ _

theorem length_laidOut_le_cap_iff {slices cap : Nat} (hs : 0 < slices) (hc : 0 < cap)
    (accounts : List String) :
    (laidOut slices cap accounts).length ≤ cap ↔ accounts.length < slices * (cap + 1) := by
  have hmany : slices ≤ slices * (cap + 1) := Nat.le_mul_of_pos_right _ (by omega)
  have hdiv : accounts.length / slices ≤ cap ↔ accounts.length < slices * (cap + 1) := by
    rw [← Nat.lt_succ_iff, Nat.div_lt_iff_lt_mul hs, mul_comm]
  unfold laidOut
  dsimp only
  split
  · rw [List.length_singleton]
    omega
  · split
    · rw [List.length_singleton]
      omega
    · split
      · rw [List.length_append, length_chunks, List.length_singleton, ← hdiv]
        omega
      · rw [length_chunks, ← hdiv]
        omega

/-- For every list of ballots the number of quorums is within the cap exactly if there are
too few ballots to fill one quorum more. A block that enters an epoch records the number of
the quorums it stores, and the same condition on its ballots decides whether that is within
the cap. -/
theorem quorums_within_cap_iff (s : State) (he : InRange s.params.encodedSlices)
    (hm : InRange s.params.maxQuorums) :
    (∀ ballots, ∃ quorums, selectQuorums s.params ballots = .ok quorums ∧
      (quorums.length ≤ s.params.maxQuorums.toNat ↔
        ballots.length < s.params.encodedSlices.toNat * (s.params.maxQuorums.toNat + 1))) ∧
    ∀ env ctx s' epoch, beginBlock env ctx s = .ok s' → s'.epochNumber = some epoch →
      s.epochNumber ≠ some epoch →
      ∃ ballots count, collectBallots env ctx s (iterateRegistrations s epoch) = .ok ballots ∧
        getQuorumCount s' epoch = .ok count ∧
        (∀ quorumId, (∃ quorum, getEpochQuorum s' epoch quorumId = .ok quorum) ↔ quorumId < count) ∧
        (count.toNat ≤ s.params.maxQuorums.toNat ↔
          ballots.length < s.params.encodedSlices.toNat * (s.params.maxQuorums.toNat + 1)) := by
  have hselect := selectQuorums_eq he (lt_trans hm.2 (by norm_num))
  constructor
  · intro ballots
    have hcap := length_laidOut_le_cap_iff he.1 hm.1 (ballots.map Ballot.account)
    rw [List.length_map] at hcap
    exact ⟨_, hselect ballots, hcap⟩
  · intro env ctx s' epoch h hepoch hnew
    obtain ⟨ballots, quorums, hb, hq, rfl⟩ := beginBlock_enters h hepoch hnew
    have hle := length_laidOut_le s.params.encodedSlices.toNat s.params.maxQuorums.toNat
      ((sortBallots ballots).map Ballot.account)
    have hcap := length_laidOut_le_cap_iff he.1 hm.1 ((sortBallots ballots).map Ballot.account)
    cases hq.symm.trans (hselect (sortBallots ballots))
    have hsorted : (sortBallots ballots).length = ballots.length :=
      List.length_insertionSort _ ballots
    rw [List.length_map, hsorted] at hcap
    generalize laidOut s.params.encodedSlices.toNat s.params.maxQuorums.toNat
      ((sortBallots ballots).map Ballot.account) = quorums at hle hcap
    have hcount : (UInt64.ofNat quorums.length).toNat = quorums.length := by
      obtain ⟨_, hlt⟩ := hm
      rw [UInt64.toNat_ofNat', Nat.mod_eq_of_lt (by omega)]
    refine ⟨ballots, _, hb, getQuorumCount_setEpochQuorums s epoch quorums,
      fun quorumId => ⟨fun h => ?_, fun h => ?_⟩, ?_⟩
    · obtain ⟨quorum, h⟩ := h
      obtain ⟨count, hc, hlt, _⟩ := getEpochQuorum_ok.mp h
      cases (getQuorumCount_setEpochQuorums s epoch quorums).symm.trans hc
      exact hlt
    · obtain ⟨quorum, h, _⟩ := getEpochQuorum_setEpochQuorums s epoch h
      exact ⟨quorum, h⟩
    · rw [hcount]
      exact hcap

def cappedGenesis : GenesisState := { sampleGenesis with params := ⟨5, 1024, 1, 2, 1⟩ }

def cappedState : State :=
  run sampleAbi sampleEnv (orElseKeep emptyState (initGenesis cappedGenesis))
    [.beginBlock (blockCtx 1), sampleMsgOp]

theorem cappedState_block : InRange cappedState.params.encodedSlices ∧
    InRange cappedState.params.maxQuorums ∧
    cappedState.params.maxQuorums = 1 ∧ cappedState.epochNumber ≠ some 1 ∧
    ∃ s', beginBlock sampleEnv (blockCtx 2) cappedState = .ok s' ∧ s'.epochNumber = some 1 ∧
      getQuorumCount s' 1 = .ok 2 ∧ ∃ quorum, getEpochQuorum s' 1 1 = .ok quorum := by
  decide +kernel

theorem quorums_within_cap_iff_two_votes :
    ∃ s' ballots count, beginBlock sampleEnv (blockCtx 2) cappedState = .ok s' ∧
    collectBallots sampleEnv (blockCtx 2) cappedState (iterateRegistrations cappedState 1) =
      .ok ballots ∧
    getQuorumCount s' 1 = .ok count ∧ (count.toNat ≤ cappedState.params.maxQuorums.toNat ↔
      ballots.length < cappedState.params.encodedSlices.toNat *
        (cappedState.params.maxQuorums.toNat + 1)) := by
  obtain ⟨he, hm, _, hold, s', hblock, hnew, _⟩ := cappedState_block
  obtain ⟨ballots, count, hb, hc, _, hcap⟩ :=
    (quorums_within_cap_iff cappedState he hm).2 _ _ _ 1 hblock hnew hold
  exact ⟨s', ballots, count, hblock, hb, hc, hcap⟩

/-- The block stores two quorums where the cap is one. -/
theorem two_quorums_above_cap : InRange cappedState.params.encodedSlices ∧
    InRange cappedState.params.maxQuorums ∧
    cappedState.params.maxQuorums = 1 ∧
    ∃ s', beginBlock sampleEnv (blockCtx 2) cappedState = .ok s' ∧
      getQuorumCount s' 1 = .ok 2 ∧ (∃ quorum, getEpochQuorum s' 1 1 = .ok quorum) := by
  obtain ⟨he, hm, hcap, _, s', hblock, _, hcount, hquorum⟩ := cappedState_block
  exact ⟨he, hm, hcap, s', hblock, hcount, hquorum⟩

end ZgChain.Dasigners
