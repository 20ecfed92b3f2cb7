import ZgChain.Council.HaltSound

/-!
# Who is seated

The votes that are accepted along a run are the ones in the store of votes, the latest of
each voter. The seats are filled from another place, the record of the next council, so the
members are those that the votes elect only where that record agrees with the store.
-/

namespace ZgChain.Councils

/-! ## Members elected by votes -/

/-- The members are voters of the smallest contents, one for each, in ascending order. -/
def Elects (votes : List Vote) (councilSize : UInt64) (members : List Addr) : Prop :=
  ∃ ballots, Smallest CastBallot.content (castBallots votes) councilSize.toNat ballots ∧
    members = ballots.map CastBallot.voter

def seatedMembers (councilSize : UInt64) (votes : List Vote) : List Addr :=
  ((sortedBallots votes).take councilSize.toNat).map CastBallot.voter

theorem elects_seatedMembers {councilSize : UInt64} {votes : List Vote}
    (h : CanSeat councilSize votes) :
    Elects votes councilSize (seatedMembers councilSize votes) := by
  refine ⟨_, smallest_firstOfEach ?_, rfl⟩
  rw [length_firstOfEach]
  exact h.2

/-- The members are the first ones to have cast the smallest contents, in ascending order. -/
def FirstElected (votes : List Vote) (councilSize : UInt64) (members : List Addr) : Prop :=
  ∃ ballots, Smallest CastBallot.content (castBallots votes) councilSize.toNat ballots ∧
    (∀ b ∈ ballots, IsFirst CastBallot.content (castBallots votes) b) ∧
    members = ballots.map CastBallot.voter

theorem firstElected_iff {councilSize : UInt64} {votes : List Vote} (h : CanSeat councilSize votes)
    {members : List Addr} :
    FirstElected votes councilSize members ↔ members = seatedMembers councilSize votes := by
  have hsmall : Smallest CastBallot.content (castBallots votes) councilSize.toNat
      ((sortedBallots votes).take councilSize.toNat) :=
    smallest_firstOfEach (by rw [length_firstOfEach]; exact h.2)
  have hfirst : ∀ b ∈ (sortedBallots votes).take councilSize.toNat,
      IsFirst CastBallot.content (castBallots votes) b := fun b hb =>
    (firstOfEach_kept _ _).first b ((ascendingBy_perm _ _).mem_iff.mp (List.mem_of_mem_take hb))
  constructor
  · intro ⟨ballots, hballots, hcast, hmembers⟩
    rw [hmembers, hballots.eq_of_first hsmall hcast hfirst]
    rfl
  · intro hmembers
    exact ⟨_, hsmall, hfirst, hmembers⟩

theorem elects_zero (votes : List Vote) : Elects votes 0 [] := ⟨[], smallest_zero.mpr rfl, rfl⟩

theorem Elects.voted {votes : List Vote} {councilSize : UInt64} {members : List Addr}
    (h : Elects votes councilSize members)
    {m : Addr} (hm : m ∈ members) : ∃ v ∈ votes, v.voter = m := by
  obtain ⟨ballots, hsmall, rfl⟩ := h
  obtain ⟨b, hb, rfl⟩ := List.mem_map.mp hm
  obtain ⟨v, hv, hcast⟩ := List.mem_flatMap.mp (hsmall.mem b hb)
  obtain ⟨_, _, rfl⟩ := List.mem_map.mp hcast
  exact ⟨v, hv, rfl⟩

/-! ## The block that ends a term -/

section
variable {height : Int} {s : State} {councilID : UInt64} {council : Council}

/-- The block does not panic, and if it makes the next council the current one, the members
are those that the stored votes elect. -/
def SeatsElected (height : Int) (s : State) (councilID : UInt64) : Prop :=
  ∃ s', beginBlock height s = .ok s' ∧ (s'.currentCouncilID = some (councilID + 1) →
    ∃ next, s'.getCouncil (councilID + 1) = some next ∧
      Elects (s.getVotesByCouncil (councilID + 1)) s.params.councilSize next.members)

/-- The record of the next council has votes for all seats, and those who cast its smallest contents
first are elected by the stored votes. -/
def RecordElects (s : State) (councilID : UInt64) : Prop :=
  ∃ next, s.getCouncil (councilID + 1) = some next ∧ CanSeat s.params.councilSize next.votes ∧
    ∃ members, FirstElected next.votes s.params.councilSize members ∧
      Elects (s.getVotesByCouncil (councilID + 1)) s.params.councilSize members

theorem succ_ne_self (id : UInt64) : id + 1 ≠ id := by
  intro h
  have hone : (1 : UInt64) = 0 := add_eq_left.mp h
  cases hone

variable (hn : s.currentCouncilID = some councilID)
include hn

theorem seatNext_members {P : List Addr → Prop} :
    (∃ s', seatNext s councilID = .ok s' ∧ (s'.currentCouncilID = some (councilID + 1) →
      ∃ next, s'.getCouncil (councilID + 1) = some next ∧ P next.members)) ↔
      ∃ next, s.getCouncil (councilID + 1) = some next ∧ CanSeat s.params.councilSize next.votes ∧
        P (seatedMembers s.params.councilSize next.votes) := by
  rw [seatNext_eq hn]
  cases hnext : s.getCouncil (councilID + 1) with
  | none =>
    constructor
    · rintro ⟨s', hs', hseated⟩
      cases hs'
      obtain ⟨next, hget, _⟩ := hseated rfl
      cases hnext.symm.trans hget
    · rintro ⟨next, hget, _⟩
      cases hget
  | some next =>
    have hid : councilID + 1 = next.id := (getCouncil_id hnext).symm
    have hget : ∀ members,
        ((s.setCurrentCouncilID (councilID + 1)).setCouncil { next with members }).getCouncil
          (councilID + 1) =
        some { next with members } := by
      intro members
      rw [getCouncil_setCouncil]
      exact if_pos hid
    constructor
    · rintro ⟨s', hs', hseated⟩
      obtain ⟨members, hmembers, hs⟩ := (bind_eq_ok _ _ _).mp hs'
      cases hs
      obtain ⟨hcan, rfl⟩ := electMembers_eq_ok.mp hmembers
      obtain ⟨c, hc, hP⟩ := hseated rfl
      cases (hget _).symm.trans hc
      exact ⟨next, rfl, hcan, hP⟩
    · rintro ⟨c, hc, hcan, hP⟩
      cases hc
      refine ⟨_, (bind_eq_ok _ _ _).mpr ⟨_, electMembers_eq_ok.mpr ⟨hcan, rfl⟩, rfl⟩, fun _ => ?_⟩
      exact ⟨_, hget _, hP⟩

variable (hc : s.getCouncil councilID = some council)
  (hend : signedHeight council.endHeight ≤ height)
include hc hend

theorem seatsElected_iff : SeatsElected height s councilID ↔
    if signedHeight council.startHeight ≤ height then s.votingPeriod.isSome = true →
    s.params.councilSize = 0
    else RecordElects s councilID := by
  unfold SeatsElected
  by_cases hstart : signedHeight council.startHeight ≤ height
  · rw [if_pos hstart]
    cases hp : s.votingPeriod with
    | none =>
      refine iff_of_true ⟨s, beginBlock_unset hn hc hstart hp, fun hnext => ?_⟩ (by simp)
      exact absurd (Option.some.inj (hn.symm.trans hnext)).symm (succ_ne_self councilID)
    | some votingPeriod =>
      have hnext : (s.setCouncil (newCouncil councilID council.startHeight votingPeriod)).getCouncil
          (councilID + 1) =
          some (newCouncil councilID council.startHeight votingPeriod) := by
        rw [getCouncil_setCouncil]
        exact if_pos rfl
      rw [beginBlock_started hn hc hstart hp, if_neg (not_lt.mpr hend),
        seatNext_members (s := s.setCouncil _) hn, hnext]
      constructor
      · rintro ⟨next, hget, hcan, _⟩ _
        cases hget
        exact canSeat_nil.mp hcan
      · intro hzero
        refine ⟨_, rfl, canSeat_nil.mpr (hzero rfl), ?_⟩
        have hsize : (s.setCouncil
            (newCouncil councilID council.startHeight votingPeriod)).params.councilSize =
              0 := hzero rfl
        rw [hzero rfl, hsize]
        exact elects_zero _
  · rw [if_neg hstart, beginBlock_before hn hc (not_le.mp hstart), if_neg (not_lt.mpr hend)]
    refine (seatNext_members hn).trans
      (exists_congr fun next => and_congr_right fun _ => and_congr_right fun hcan => ?_)
    simp only [firstElected_iff hcan, exists_eq_left]

end

/-! ## The votes of a run -/

def acceptedVote (env : Env) (c : Chain) : Step → Option Vote
  | .vote msg =>
    match env.valAddressFromBech32 msg.voter, vote env c.height c.state msg with
    | some voter, .ok _ => some ⟨msg.councilID, voter, msg.ballots⟩
    | _, _ => none
  | _ => none

def acceptedVotes (env : Env) : Chain → List Step → List Vote
  | _, [] => []
  | c, step :: rest => (acceptedVote env c step).toList ++
    match stepChain env c step with
    | .ok c' => acceptedVotes env c' rest
    | .error _ => []

/-- The last one of the votes of a voter for a council, or else an earlier one. -/
def latestVote (votes : List Vote) (councilID : UInt64) (voter : Addr) (earlier : Option Vote) :
    Option Vote :=
  votes.foldl (fun latest v => if v.councilID = councilID ∧ v.voter = voter then some v
    else latest) earlier

theorem getVote_setVote (s : State) (v : Vote) (councilID : UInt64) (voter : Addr) :
    (s.setVote v).getVote councilID voter = latestVote [v] councilID voter
      (s.getVote councilID voter) := by
  rw [State.getVote, State.setVote, KVStore.get_set]
  by_cases h : v.councilID = councilID ∧ v.voter = voter
  · obtain ⟨rfl, rfl⟩ := h
    simp [latestVote]
  · have hkey : getVoteKey councilID voter ≠ getVoteKey v.councilID v.voter := by
      intro e
      obtain ⟨hid, hvoter⟩ := idKey_append_inj e
      exact h ⟨hid.symm, hvoter.symm⟩
    rw [if_neg hkey]
    simp [latestVote, h, State.getVote]

theorem mem_getVotesByCouncil (s : State) (councilID : UInt64) (v : Vote) :
    v ∈ s.getVotesByCouncil councilID ↔ v.councilID = councilID ∧
    s.getVote councilID v.voter = some v := by
  rw [State.getVotesByCouncil, mem_valuesWithId (f := Vote.councilID) (g := Vote.voter)
    s.votes_keyed]
  constructor
  · rintro ⟨hget, rfl⟩
    exact ⟨rfl, hget⟩
  · rintro ⟨rfl, hget⟩
    exact ⟨hget, rfl⟩

theorem vote_eq_ok {env : Env} {height : Int} {s s' : State} {msg : MsgVote}
    (h : vote env height s msg = .ok s') :
    ∃ voter, env.valAddressFromBech32 msg.voter = some voter ∧
      s' = s.setVote ⟨msg.councilID, voter, msg.ballots⟩ := by
  obtain ⟨voter, hvoter, h⟩ := (bind_eq_ok _ _ _).mp h
  obtain ⟨com, _, h⟩ := (bind_eq_ok _ _ _).mp h
  obtain ⟨_, _, h⟩ := (bind_eq_ok _ _ _).mp h
  exact ⟨voter, (orReject_eq_ok _ _ _).mp hvoter, (Except.ok.inj h).symm⟩

section
variable {env : Env} {c c' : Chain} {steps : List Step} (councilID : UInt64) (voter : Addr)

theorem stepChain_getVote {step : Step} (h : stepChain env c step = .ok c') :
    c'.state.getVote councilID voter =
    latestVote (acceptedVote env c step).toList councilID voter
      (c.state.getVote councilID voter) := by
  cases step with
  | register isValidator msg =>
    cases h
    exact orElseKeep_rule
      (P := fun s : State => s.getVote councilID voter = c.state.getVote councilID voter) rfl
      fun s' hs => congrArg (KVStore.get · _) (register_untouched hs).votes
  | vote msg =>
    cases h
    rcases orElseKeep_cases c.state (vote env c.height c.state msg)
      with ⟨s', hvote, hkeep⟩ | ⟨⟨e, hvote⟩, hkeep⟩
    · obtain ⟨voter', hvoter, rfl⟩ := vote_eq_ok hvote
      rw [hkeep, acceptedVote, hvoter, hvote]
      exact getVote_setVote _ _ _ _
    · rw [hkeep, acceptedVote, hvote]
      cases env.valAddressFromBech32 msg.voter with
      | none => rfl
      | some voter' => rfl
  | beginBlock =>
    obtain ⟨s', hs', hc'⟩ := (bind_eq_ok _ _ _).mp h
    cases hc'
    exact congrArg (KVStore.get · _) (beginBlock_untouched hs').votes

theorem run_getVote (h : run env c steps = .ok c') : c'.state.getVote councilID voter =
    latestVote (acceptedVotes env c steps) councilID voter (c.state.getVote councilID voter) := by
  induction steps generalizing c with
  | nil =>
    cases h
    rfl
  | cons step steps ih =>
    obtain ⟨c₁, hstep, hrest⟩ := (bind_eq_ok _ _ _).mp (List.foldlM_cons.symm.trans h)
    rw [ih hrest, stepChain_getVote councilID voter hstep, acceptedVotes, hstep, latestVote,
      latestVote, latestVote, List.foldl_append]

end

/-! ## Turnover -/

/-- After any run, the votes stored for the next council are the latest ones that were accepted.
The block that ends the term seats the members they elect exactly if no seat is to be filled
or, in a block before the start of the term, the record of the next council agrees with them. -/
theorem turnover_elects_iff (env : Env) (c c₁ : Chain) (steps : List Step)
    (hrun : run env c steps = .ok c₁)
    (councilID : UInt64) (council : Council) (hn : c₁.state.currentCouncilID = some councilID)
    (hc : c₁.state.getCouncil councilID = some council)
    (hend : signedHeight council.endHeight ≤ c₁.height + 1) :
    (∀ v, v ∈ c₁.state.getVotesByCouncil (councilID + 1) ↔ v.councilID = councilID + 1 ∧
      latestVote (acceptedVotes env c steps) (councilID + 1) v.voter
        (c.state.getVote (councilID + 1) v.voter) = some v) ∧
    (SeatsElected (c₁.height + 1) c₁.state councilID ↔
      if signedHeight council.startHeight ≤ c₁.height + 1
      then c₁.state.votingPeriod.isSome = true → c₁.state.params.councilSize = 0
      else RecordElects c₁.state councilID) := by
  refine ⟨fun v => ?_, seatsElected_iff hn hc hend⟩
  rw [mem_getVotesByCouncil, run_getVote _ _ hrun]

/-! A term that ends before it starts, and a record of the next council that has votes. -/

def endedTerm : Council := ⟨1, 1, 10, 2, [], []⟩

def nextTerm (votes : List Vote) : Council := ⟨2, 1, 5, 9, votes, []⟩

def recordedVotes (votes : List Vote) : State :=
  { emptyState with params := ⟨1⟩, votingPeriod := some 2 }.setCurrentCouncilID 1
    |>.setCouncil endedTerm
    |>.setCouncil (nextTerm votes)

def castVote : Vote := ⟨2, [10], [⟨0, [7]⟩]⟩

def otherVote : Vote := ⟨2, [11], [⟨0, [9]⟩]⟩

/-- The record has the vote that was cast, and its voter is seated. -/
theorem turnover_elects_recorded :
    ∃ c₁, run hexEnv ⟨1, recordedVotes [castVote]⟩ [.vote firstVote] = .ok c₁ ∧
      SeatsElected (c₁.height + 1) c₁.state 1 := by
  have hrun := eq_ok_orElseKeep (x := run hexEnv ⟨1, recordedVotes [castVote]⟩ [.vote firstVote])
    (by decide +kernel)
    ⟨1, recordedVotes [castVote]⟩
  refine ⟨_, hrun,
    (turnover_elects_iff hexEnv _ _ _ hrun 1 endedTerm rfl (by decide +kernel)
      (by decide +kernel)).2.mpr ?_⟩
  rw [if_neg (by decide +kernel)]
  refine ⟨nextTerm [castVote], by decide +kernel, by decide +kernel, _,
    (firstElected_iff (by decide +kernel)).mpr rfl, ?_⟩
  have hstored : (orElseKeep ⟨1, recordedVotes [castVote]⟩
      (run hexEnv ⟨1, recordedVotes [castVote]⟩ [.vote firstVote])).state.getVotesByCouncil
        (1 + 1) = [castVote] := by
    decide +kernel
  rw [hstored]
  exact elects_seatedMembers (by decide +kernel)

/-- The only vote that is cast is for council 2, which has one seat. If its record was
written by the begin blocker, the block that ends the term panics. If the record has the
vote of another voter, that one is seated. -/
theorem turnover_ignores_cast_vote :
    run hexEnv ⟨1, oneSeat⟩ [.beginBlock, .vote firstVote, .beginBlock] =
      .error (.indexOutOfRange 0 0) ∧
    ∃ c₁, run hexEnv ⟨1, recordedVotes [otherVote]⟩ [.vote firstVote, .beginBlock] = .ok c₁ ∧
      c₁.state.currentCouncilID = some 2 ∧ c₁.state.getVotesByCouncil 2 = [castVote] ∧
      (c₁.state.getCouncil 2).map Council.members = some [otherVote.voter] ∧
      ¬ Elects [castVote] 1 [otherVote.voter] := by
  refine ⟨by decide +kernel, _,
    eq_ok_orElseKeep (by decide +kernel) ⟨1, recordedVotes [otherVote]⟩, by decide +kernel,
    by decide +kernel, by decide +kernel, fun h => ?_⟩
  obtain ⟨v, hv, hvoter⟩ := h.voted (List.mem_singleton_self _)
  cases List.mem_singleton.mp hv
  cases hvoter

end ZgChain.Councils
