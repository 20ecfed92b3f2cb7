import ZgChain.Council.ExportSound

/-!
# The first council stays

The begin blocker announces the next council with the voting period, which is not stored at
genesis. So it stops at the start of the first term, in every block from then on: no council
is ever added, none is elected, and votes are taken for the councils of the genesis state only.
-/

namespace ZgChain.Councils

/-- What neither a message nor a block changes after genesis. -/
structure Standing (gs : GenesisState) (s : State) : Prop where
  currentCouncilID : s.currentCouncilID = some gs.currentCouncilID
  votingPeriod : s.votingPeriod = none
  params : s.params = gs.params
  councils : s.councils = (initGenesis gs).councils

/-- No council of the genesis state ends before it starts. -/
def OrderedTerms (gs : GenesisState) : Prop :=
  ∀ c ∈ gs.councils, signedHeight c.startHeight ≤ signedHeight c.endHeight

instance decidableOrderedTerms (gs : GenesisState) : Decidable (OrderedTerms gs) :=
  inferInstanceAs (Decidable
    (∀ c ∈ gs.councils, signedHeight c.startHeight ≤ signedHeight c.endHeight))

theorem foldl_setCouncil_fields (councils : List Council) (s : State) :
    (councils.foldl State.setCouncil s).currentCouncilID = s.currentCouncilID ∧
      (councils.foldl State.setCouncil s).votingPeriod = s.votingPeriod ∧
      (councils.foldl State.setCouncil s).params = s.params := by
  induction councils generalizing s with
  | nil => exact ⟨rfl, rfl, rfl⟩
  | cons council councils ih => exact ih (s.setCouncil council)

theorem initGenesis_standing (gs : GenesisState) : Standing gs (initGenesis gs) := by
  obtain ⟨hid, hperiod, hparams⟩ := foldl_setCouncil_fields gs.councils
    ({ emptyState with params := gs.params }.setCurrentCouncilID gs.currentCouncilID)
  exact ⟨hid, hperiod, hparams, rfl⟩

theorem mem_of_getCouncil_foldl {councils : List Council} {s : State} {id : UInt64} {c : Council}
    (h : (councils.foldl State.setCouncil s).getCouncil id = some c) :
    c ∈ councils ∨ s.getCouncil id = some c := by
  induction councils generalizing s with
  | nil => exact Or.inr h
  | cons council councils ih =>
    rcases ih h with hmem | hget
    · exact Or.inl (List.mem_cons_of_mem _ hmem)
    · rw [getCouncil_setCouncil] at hget
      by_cases hid : id = council.id
      · rw [if_pos hid] at hget
        cases hget
        exact Or.inl List.mem_cons_self
      · rw [if_neg hid] at hget
        exact Or.inr hget

section
variable {env : Env} {gs : GenesisState} {s s' : State} {c c' : Chain}

theorem Standing.getCouncil_mem (h : Standing gs s) {id : UInt64} {council : Council}
    (hget : s.getCouncil id = some council) : council ∈ gs.councils ∧ council.id = id := by
  have hid := getCouncil_id hget
  rw [State.getCouncil, h.councils] at hget
  rcases mem_of_getCouncil_foldl hget with hmem | hnone
  · exact ⟨hmem, hid⟩
  · cases hnone

/-- A block does nothing, be it before the start of the term or after it. -/
theorem Standing.beginBlock (h : Standing gs s) (hterms : OrderedTerms gs) (height : Int) :
    Councils.beginBlock height s = .ok s := by
  cases hc : s.getCouncil gs.currentCouncilID with
  | none =>
    unfold Councils.beginBlock
    simp only [State.getCurrentCouncilID, h.currentCouncilID, orReject, hc]
  | some council =>
    by_cases hstart : signedHeight council.startHeight ≤ height
    · exact beginBlock_unset h.currentCouncilID hc hstart h.votingPeriod
    · have hend : height < signedHeight council.endHeight :=
        lt_of_lt_of_le (not_le.mp hstart) (hterms council (h.getCouncil_mem hc).1)
      rw [beginBlock_before h.currentCouncilID hc (not_le.mp hstart), if_pos hend]

theorem Standing.register (h : Standing gs s) {isValidator : Addr → Bool} {msg : MsgRegister}
    (hok : Councils.register env isValidator s msg = .ok s') :
    Standing gs s' ∧ s'.votes = s.votes := by
  obtain ⟨valAddr, _, hok⟩ := (bind_eq_ok _ _ _).mp hok
  obtain ⟨_, _, hok⟩ := (bind_eq_ok _ _ _).mp hok
  obtain ⟨_, _, hok⟩ := (bind_eq_ok _ _ _).mp hok
  cases hok
  exact ⟨⟨h.currentCouncilID, h.votingPeriod, h.params, h.councils⟩, rfl⟩

/-- A vote is taken for a council of the genesis state, before its start. -/
theorem Standing.vote (h : Standing gs s) {height : Int} {msg : MsgVote}
    (hok : Councils.vote env height s msg = .ok s') :
    Standing gs s' ∧ ∃ voter, env.valAddressFromBech32 msg.voter = some voter ∧
      s' = s.setVote ⟨msg.councilID, voter, msg.ballots⟩ ∧
      ∃ council ∈ gs.councils, council.id = msg.councilID ∧
        height < signedHeight council.startHeight := by
  obtain ⟨voter, hvoter, hok⟩ := (bind_eq_ok _ _ _).mp hok
  obtain ⟨council, hcouncil, hok⟩ := (bind_eq_ok _ _ _).mp hok
  obtain ⟨_, hopen, hok⟩ := (bind_eq_ok _ _ _).mp hok
  cases hok
  rw [orReject_eq_ok] at hvoter hcouncil
  rw [rejectIf_eq_ok, Council.hasVotingEndedBy, decide_eq_true_eq, not_le] at hopen
  obtain ⟨hmem, hid⟩ := h.getCouncil_mem hcouncil
  exact ⟨⟨h.currentCouncilID, h.votingPeriod, h.params, h.councils⟩, voter, hvoter, rfl, council,
    hmem, hid, hopen⟩

/-! ## Runs -/

theorem run_concat (c : Chain) (steps : List Step) (step : Step) :
    run env c (steps ++ [step]) = run env c steps >>= fun c' => stepChain env c' step := by
  rw [run, List.foldlM_append, ← run]
  cases run env c steps with
  | error e => rfl
  | ok c' =>
    rw [ok_bind, ok_bind, List.foldlM_cons]
    cases stepChain env c' step with
    | error e => rfl
    | ok c'' => rfl

/-- The vote was sent, and accepted before the start of its council. -/
def WasCast (env : Env) (gs : GenesisState) (c₀ : Chain) (steps : List Step) (v : Vote) : Prop :=
  ∃ before msg after c₁, steps = before ++ .vote msg :: after ∧ run env c₀ before = .ok c₁ ∧
    env.valAddressFromBech32 msg.voter = some v.voter ∧ msg.councilID = v.councilID ∧
    msg.ballots = v.ballots ∧
    ∃ council ∈ gs.councils, council.id = v.councilID ∧ c₁.height < signedHeight council.startHeight

theorem WasCast.concat {c₀ : Chain} {steps : List Step} {v : Vote} (h : WasCast env gs c₀ steps v)
    (step : Step) :
    WasCast env gs c₀ (steps ++ [step]) v := by
  obtain ⟨before, msg, after, c₁, hsteps, hcast⟩ := h
  exact ⟨before, msg, after ++ [step], c₁, by simp [hsteps], hcast⟩

def AllCast (env : Env) (gs : GenesisState) (c₀ : Chain) (steps : List Step) (s : State) : Prop :=
  ∀ key v, s.votes.get key = some v → WasCast env gs c₀ steps v

/-- What holds of the chain after the steps. -/
structure Stands (env : Env) (gs : GenesisState) (height : Int) (steps : List Step) (c : Chain) :
    Prop where
  reached : run env ⟨height, initGenesis gs⟩ steps = .ok c
  standing : Standing gs c.state
  votes : AllCast env gs ⟨height, initGenesis gs⟩ steps c.state

theorem initGenesis_votes (gs : GenesisState) : (initGenesis gs).votes = .empty := by
  have hfold : ∀ (councils : List Council) (s : State), (councils.foldl State.setCouncil s).votes =
      s.votes := by
    intro councils
    induction councils with
    | nil => exact fun _ => rfl
    | cons council councils ih => exact fun s => ih (s.setCouncil council)
  exact hfold _ _

theorem Stands.step {height : Int} {steps : List Step} (h : Stands env gs height steps c)
    (hterms : OrderedTerms gs) (step : Step) : ∃ c', stepChain env c step = .ok c' ∧
    Stands env gs height (steps ++ [step]) c' := by
  have hreached : ∀ {c'}, stepChain env c step = .ok c' →
      run env ⟨height, initGenesis gs⟩ (steps ++ [step]) = .ok c' := by
    intro c' hstep
    rw [run_concat, h.reached, ok_bind, hstep]
  have hkept : AllCast env gs ⟨height, initGenesis gs⟩ (steps ++ [step]) c.state :=
    fun key v hv => (h.votes key v hv).concat step
  cases step with
  | register isValidator msg =>
    refine ⟨_, rfl, hreached rfl, ?_, ?_⟩
    · exact orElseKeep_rule h.standing fun s' hs' => (h.standing.register hs').1
    · refine orElseKeep_rule hkept fun s' hs' => ?_
      unfold AllCast
      rw [(h.standing.register hs').2]
      exact hkept
  | vote msg =>
    refine ⟨_, rfl, hreached rfl, ?_, ?_⟩
    · exact orElseKeep_rule h.standing fun s' hs' => (h.standing.vote hs').1
    · refine orElseKeep_rule hkept fun s' hs' => ?_
      obtain ⟨_, voter, hvoter, rfl, hopen⟩ := h.standing.vote hs'
      intro key v hv
      rw [State.setVote, KVStore.get_set] at hv
      split at hv
      · cases hv
        exact ⟨steps, msg, [], c, rfl, h.reached, hvoter, rfl, rfl, hopen⟩
      · exact hkept key v hv
  | beginBlock =>
    have hstep : stepChain env c .beginBlock = .ok ⟨c.height + 1, c.state⟩ := by
      rw [stepChain, h.standing.beginBlock hterms]
      rfl
    exact ⟨_, hstep, hreached hstep, h.standing, hkept⟩

theorem stands_run (hterms : OrderedTerms gs) (height : Int) (steps : List Step) :
    ∃ c, Stands env gs height steps c := by
  induction steps using List.reverseRecOn with
  | nil =>
    refine ⟨_, rfl, initGenesis_standing gs, fun key v hv => ?_⟩
    rw [initGenesis_votes] at hv
    cases hv
  | append_singleton steps step ih =>
    obtain ⟨c, hc⟩ := ih
    obtain ⟨c', _, hc'⟩ := hc.step hterms step
    exact ⟨c', hc'⟩

end

/-- From every genesis state, if no council of it ends before it starts, every run of
registrations, votes and blocks reaches its end, in the first term: the current council and
all councils with their members are those of the genesis state. A vote that is stored was
cast for one of them before its start. -/
theorem first_council_stays (env : Env) (gs : GenesisState) (hterms : OrderedTerms gs)
    (height : Int) (steps : List Step) :
    ∃ c, run env ⟨height, initGenesis gs⟩ steps = .ok c ∧
      c.state.currentCouncilID = some gs.currentCouncilID ∧
      c.state.councils = (initGenesis gs).councils ∧
      ∀ councilID, ∀ v ∈ c.state.getVotesByCouncil councilID, WasCast env gs
        ⟨height, initGenesis gs⟩ steps v := by
  obtain ⟨c, hc⟩ := stands_run hterms height steps
  refine ⟨c, hc.reached, hc.standing.currentCouncilID, hc.standing.councils,
    fun councilID v hv => ?_⟩
  obtain ⟨_, hget⟩ := (mem_getVotesByCouncil _ _ _).mp hv
  exact hc.votes _ v hget

/-- A vote for the council that is in office by default. -/
theorem first_council_stays_default :
    ∃ c, run hexEnv ⟨0, initGenesis defaultGenesisState⟩
      [.vote ⟨1, "0a", [⟨0, [7]⟩]⟩, .beginBlock] = .ok c ∧
      c.state.currentCouncilID = some 1 ∧
      c.state.getVotesByCouncil 1 = [⟨1, [10], [⟨0, [7]⟩]⟩] := by
  obtain ⟨c, hrun, hid, _⟩ := first_council_stays hexEnv defaultGenesisState (by decide) 0
    [.vote ⟨1, "0a", [⟨0, [7]⟩]⟩, .beginBlock]
  have hvotes : (orElseKeep ⟨0, emptyState⟩ (run hexEnv ⟨0, initGenesis defaultGenesisState⟩
      [.vote ⟨1, "0a", [⟨0, [7]⟩]⟩, .beginBlock])).state.getVotesByCouncil 1 =
        [⟨1, [10], [⟨0, [7]⟩]⟩] := by
    decide +kernel
  rw [hrun] at hvotes
  exact ⟨c, hrun, hid, hvotes⟩

end ZgChain.Councils
