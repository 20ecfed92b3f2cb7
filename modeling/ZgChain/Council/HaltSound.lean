import ZgChain.Council.Keeper

/-!
# When the begin blocker halts the chain

The seats are filled from the votes in the record of the next council. From the start of a
term on, every block writes that record anew, without votes, and so does the block that ends
the term: it finds no ballot for the first seat.
-/

namespace ZgChain.Councils

/-! ## Seats -/

def contents (votes : List Vote) : Finset Bytes :=
  ((castBallots votes).map CastBallot.content).toFinset

theorem length_sortedBallots (votes : List Vote) :
    (sortedBallots votes).length = (contents votes).card :=
  (ascendingBy_perm _ _).length_eq.trans (length_firstOfEach _ _)

theorem fillSeats_eq (ballots : List CastBallot) (n : Nat) :
    fillSeats ballots n = if n ≤ ballots.length then .ok ((ballots.take n).map CastBallot.voter)
      else .error (.indexOutOfRange ballots.length ballots.length) := by
  induction n with
  | zero => rfl
  | succ i ih =>
    rw [fillSeats, ih]
    by_cases h : i < ballots.length
    · rw [if_pos h.le, if_pos (Nat.succ_le_of_lt h), List.getElem?_eq_getElem h,
        List.take_succ_eq_append_getElem h, List.map_append]
      rfl
    · rw [if_neg fun hsucc => h (Nat.lt_of_succ_le hsucc)]
      by_cases hi : i ≤ ballots.length
      · have he : i = ballots.length := by omega
        rw [if_pos hi, he, List.getElem?_eq_none le_rfl]
        rfl
      · rw [if_neg hi]
        rfl

def CanSeat (councilSize : UInt64) (votes : List Vote) : Prop :=
  councilSize.toNat ≤ maxSliceLen ∧ councilSize.toNat ≤ (contents votes).card

instance decidableCanSeat (councilSize : UInt64) (votes : List Vote) :
    Decidable (CanSeat councilSize votes) :=
  inferInstanceAs (Decidable (_ ∧ _))

theorem electMembers_eq_ok {councilSize : UInt64} {votes : List Vote} {members : List Addr} :
    electMembers councilSize votes = .ok members ↔ CanSeat councilSize votes ∧
      members = ((sortedBallots votes).take councilSize.toNat).map CastBallot.voter := by
  unfold electMembers CanSeat
  simp only [bind_eq_ok, rejectIf_eq_ok, fillSeats_eq, length_sortedBallots, not_lt]
  by_cases h : councilSize.toNat ≤ (contents votes).card
  · simp [h, eq_comm]
  · simp [h]

theorem canSeat_nil {councilSize : UInt64} : CanSeat councilSize [] ↔ councilSize = 0 := by
  unfold CanSeat contents
  constructor
  · intro h
    exact UInt64.toNat_inj.mp (Nat.le_zero.mp h.2)
  · rintro rfl
    exact ⟨Nat.zero_le _, Nat.zero_le _⟩

/-! ## What one block does -/

def newCouncil (councilID votingStartHeight votingPeriod : UInt64) : Council :=
  ⟨councilID + 1, votingStartHeight, votingStartHeight + votingPeriod,
    votingStartHeight + votingPeriod * 2, [], []⟩

section
variable {height : Int} {s : State} {councilID : UInt64} {council : Council}

theorem getCouncil_setCouncil (s : State) (c : Council) (id : UInt64) :
    (s.setCouncil c).getCouncil id = if id = c.id then some c else s.getCouncil id := by
  rw [State.getCouncil, State.setCouncil, KVStore.get_set]
  by_cases h : id = c.id
  · rw [if_pos h, if_pos (congrArg getKeyFromID h)]
  · have hkey : getKeyFromID id ≠ getKeyFromID c.id := fun e => h (idKey_inj e)
    rw [if_neg h, if_neg hkey]
    rfl

theorem getCouncil_id {id : UInt64} {c : Council} (h : s.getCouncil id = some c) : c.id = id :=
  idKey_inj (s.councils_keyed _ c h)

variable (hn : s.currentCouncilID = some councilID)
include hn

theorem seatNext_eq : seatNext s councilID = match s.getCouncil (councilID + 1) with
    | none => .ok (s.setCurrentCouncilID (councilID + 1))
    | some next => do
      let members ← electMembers s.params.councilSize next.votes
      return (s.setCurrentCouncilID (councilID + 1)).setCouncil { next with members } := by
  have hinc : s.incrementCurrentCouncilID = .ok (s.setCurrentCouncilID (councilID + 1)) := by
    rw [State.incrementCurrentCouncilID, State.getCurrentCouncilID, hn]
    rfl
  rw [seatNext, hinc]
  rfl

theorem seatNext_returns_iff : (∃ s', seatNext s councilID = .ok s') ↔
    ∀ next, s.getCouncil (councilID + 1) = some next → CanSeat s.params.councilSize next.votes := by
  rw [seatNext_eq hn]
  cases hnext : s.getCouncil (councilID + 1) with
  | none => simp
  | some next =>
    simp only [bind_eq_ok, electMembers_eq_ok, Option.some.injEq]
    constructor
    · rintro ⟨s', members, ⟨hseat, _⟩, _⟩ c rfl
      exact hseat
    · intro h
      exact ⟨_, _, ⟨h next rfl, rfl⟩, rfl⟩

theorem storeNewCouncil_eq (votingStartHeight : UInt64) :
    s.storeNewCouncil votingStartHeight = match s.votingPeriod with
      | none => .error (.invalidGenesis "voting period not set at genesis")
      | some votingPeriod =>
        .ok (s.setCouncil (newCouncil councilID votingStartHeight votingPeriod)) := by
  rw [State.storeNewCouncil, State.getCurrentCouncilID, hn, State.getVotingPeriod]
  cases s.votingPeriod with
  | none => rfl
  | some votingPeriod => rfl

variable (hc : s.getCouncil councilID = some council)
include hc

theorem beginBlock_before (hstart : height < signedHeight council.startHeight) :
    beginBlock height s = if height < signedHeight council.endHeight then .ok s
      else seatNext s councilID := by
  unfold beginBlock
  simp only [State.getCurrentCouncilID, hn, orReject, hc, if_neg (not_le.mpr hstart)]

/-- Without a voting period nothing happens from the start of the term on. -/
theorem beginBlock_unset (hstart : signedHeight council.startHeight ≤ height)
    (hp : s.votingPeriod = none) :
    beginBlock height s = .ok s := by
  unfold beginBlock
  simp only [State.getCurrentCouncilID, hn, orReject, hc, if_pos hstart, storeNewCouncil_eq hn, hp]

theorem beginBlock_started {votingPeriod : UInt64}
    (hstart : signedHeight council.startHeight ≤ height) (hp : s.votingPeriod = some votingPeriod) :
    beginBlock height s = if height < signedHeight council.endHeight
      then .ok (s.setCouncil (newCouncil councilID council.startHeight votingPeriod))
      else seatNext (s.setCouncil (newCouncil councilID council.startHeight votingPeriod))
        councilID := by
  unfold beginBlock
  simp only [State.getCurrentCouncilID, hn, orReject, hc, if_pos hstart, storeNewCouncil_eq hn, hp]

end

structure Untouched (s s' : State) : Prop where
  params : s'.params = s.params
  votingStartHeight : s'.votingStartHeight = s.votingStartHeight
  votes : s'.votes = s.votes

theorem Untouched.rfl {s : State} : Untouched s s := ⟨Eq.refl _, Eq.refl _, Eq.refl _⟩

theorem register_untouched {env : Env} {isValidator : Addr → Bool} {s s' : State}
    {msg : MsgRegister} (h : register env isValidator s msg = .ok s') : Untouched s s' := by
  obtain ⟨valAddr, _, h⟩ := (bind_eq_ok _ _ _).mp h
  obtain ⟨_, _, h⟩ := (bind_eq_ok _ _ _).mp h
  obtain ⟨_, _, h⟩ := (bind_eq_ok _ _ _).mp h
  cases h
  exact ⟨rfl, rfl, rfl⟩

theorem seatNext_untouched {s s' : State} {councilID : UInt64}
    (hn : s.currentCouncilID = some councilID)
    (h : seatNext s councilID = .ok s') : Untouched s s' := by
  rw [seatNext_eq hn] at h
  cases hnext : s.getCouncil (councilID + 1) with
  | none =>
    rw [hnext] at h
    cases h
    exact ⟨rfl, rfl, rfl⟩
  | some next =>
    rw [hnext] at h
    obtain ⟨members, _, hs⟩ := (bind_eq_ok _ _ _).mp h
    cases hs
    exact ⟨rfl, rfl, rfl⟩

theorem beginBlock_untouched {height : Int} {s s' : State} (h : beginBlock height s = .ok s') :
    Untouched s s' := by
  cases hn : s.currentCouncilID with
  | none =>
    simp only [beginBlock, State.getCurrentCouncilID, hn, orReject, Except.ok.injEq] at h
    exact h ▸ .rfl
  | some councilID =>
    cases hc : s.getCouncil councilID with
    | none =>
      simp only [beginBlock, State.getCurrentCouncilID, hn, orReject, hc, Except.ok.injEq] at h
      exact h ▸ .rfl
    | some council =>
      by_cases hstart : signedHeight council.startHeight ≤ height
      · cases hp : s.votingPeriod with
        | none =>
          rw [beginBlock_unset hn hc hstart hp] at h
          exact Except.ok.inj h ▸ .rfl
        | some votingPeriod =>
          rw [beginBlock_started hn hc hstart hp] at h
          split at h
          · cases h
            exact ⟨rfl, rfl, rfl⟩
          · have hnext := seatNext_untouched (s := s.setCouncil _) hn h
            exact ⟨hnext.params, hnext.votingStartHeight, hnext.votes⟩
      · rw [beginBlock_before hn hc (not_le.mp hstart)] at h
        split at h
        · exact Except.ok.inj h ▸ .rfl
        · exact seatNext_untouched hn h

/-! ## Runs -/

/-- A block that ends a term can fill the seats of the next council. In a block from the start of
the term on there are no ballots for them. -/
def Seatable (height : Int) (s : State) : Prop :=
  ∀ councilID council, s.currentCouncilID = some councilID → s.getCouncil councilID = some council →
    signedHeight council.endHeight ≤ height →
    if signedHeight council.startHeight ≤ height then s.votingPeriod.isSome = true →
      s.params.councilSize = 0
    else ∀ next, s.getCouncil (councilID + 1) = some next → CanSeat s.params.councilSize next.votes

theorem seatable_iff {height : Int} {s : State} {councilID : UInt64} {council : Council}
    (hn : s.currentCouncilID = some councilID) (hc : s.getCouncil councilID = some council) :
    Seatable height s ↔ (signedHeight council.endHeight ≤ height →
      if signedHeight council.startHeight ≤ height then s.votingPeriod.isSome = true →
      s.params.councilSize = 0
      else ∀ next, s.getCouncil (councilID + 1) = some next →
      CanSeat s.params.councilSize next.votes) := by
  constructor
  · intro h
    exact h councilID council hn hc
  · intro h councilID' council' hn' hc'
    cases hn.symm.trans hn'
    cases hc.symm.trans hc'
    exact h

theorem beginBlock_returns_iff (height : Int) (s : State) :
    (∃ s', beginBlock height s = .ok s') ↔ Seatable height s := by
  cases hn : s.currentCouncilID with
  | none => simp [beginBlock, State.getCurrentCouncilID, hn, orReject, Seatable]
  | some councilID =>
    cases hc : s.getCouncil councilID with
    | none =>
      refine iff_of_true ⟨s, by simp [beginBlock, State.getCurrentCouncilID, hn, orReject, hc]⟩
        fun id c hid hget => ?_
      cases hn.symm.trans hid
      cases hc.symm.trans hget
    | some council =>
      rw [seatable_iff hn hc]
      by_cases hstart : signedHeight council.startHeight ≤ height
      · rw [if_pos hstart]
        cases hp : s.votingPeriod with
        | none => simp [beginBlock_unset hn hc hstart hp]
        | some votingPeriod =>
          rw [beginBlock_started hn hc hstart hp]
          by_cases hend : height < signedHeight council.endHeight
          · simp [hend]
          · have hnext : (s.setCouncil
                (newCouncil councilID council.startHeight votingPeriod)).getCouncil
                  (councilID + 1) =
                some (newCouncil councilID council.startHeight votingPeriod) := by
              rw [getCouncil_setCouncil]
              exact if_pos rfl
            rw [if_neg hend, seatNext_returns_iff (s := s.setCouncil _) hn, hnext]
            simp [not_lt.mp hend, newCouncil, canSeat_nil, State.setCouncil]
      · rw [beginBlock_before hn hc (not_le.mp hstart), if_neg hstart]
        by_cases hend : height < signedHeight council.endHeight
        · simp [hend]
        · rw [if_neg hend, seatNext_returns_iff hn]
          simp [not_lt.mp hend]

/-- A run reaches its end exactly if in each of its blocks the seats can be filled. -/
theorem beginBlocks_return_iff (env : Env) (c : Chain) (steps : List Step) :
    (∃ c', run env c steps = .ok c') ↔ ∀ before after c₁, steps = before ++ .beginBlock :: after →
      run env c before = .ok c₁ → Seatable (c₁.height + 1) c₁.state := by
  have hblock : ∀ c : Chain, (∃ c', stepChain env c .beginBlock = .ok c') ↔
      Seatable (c.height + 1) c.state := by
    intro c
    rw [← beginBlock_returns_iff]
    constructor
    · rintro ⟨c', h⟩
      obtain ⟨s, hs, _⟩ := (bind_eq_ok _ _ _).mp h
      exact ⟨s, hs⟩
    · rintro ⟨s, hs⟩
      exact ⟨⟨_, s⟩, (bind_eq_ok _ _ _).mpr ⟨s, hs, rfl⟩⟩
  rw [run, foldlM_returns_iff]
  constructor
  · intro h before after c₁ hsteps hrun
    exact (hblock c₁).mp (h before .beginBlock after c₁ hsteps hrun)
  · intro h before step after c₁ hsteps hrun
    cases step with
    | register isValidator msg => exact ⟨_, rfl⟩
    | vote msg => exact ⟨_, rfl⟩
    | beginBlock => exact (hblock c₁).mpr (h before after c₁ hsteps hrun)

/-! A term that ends at height 3 and a vote for the next council. -/

def hexEnv : Env where
  valAddressFromBech32 := decodeHex

def firstTerm : Council := ⟨1, 1, 2, 3, [], []⟩

def oneSeat : State :=
  { emptyState with params := ⟨1⟩, votingPeriod := some 2 }.setCurrentCouncilID 1
    |>.setCouncil firstTerm

def firstVote : MsgVote := ⟨2, "0a", [⟨0, [7]⟩]⟩

/-- The vote is accepted, and the block that ends the term panics although there is one seat. -/
theorem beginBlock_halts_after_vote :
    (run hexEnv ⟨1, oneSeat⟩ [.beginBlock, .vote firstVote]).toOption.map
        (fun c => c.state.getVotesByCouncil 2) = some [⟨2, [10], [⟨0, [7]⟩]⟩] ∧
      run hexEnv ⟨1, oneSeat⟩ [.beginBlock, .vote firstVote, .beginBlock] =
        .error (.indexOutOfRange 0 0) := by
  refine ⟨by decide +kernel, by decide +kernel⟩

end ZgChain.Councils
