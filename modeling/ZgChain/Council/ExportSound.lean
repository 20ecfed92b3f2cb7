import ZgChain.Council.ElectSound

/-!
# The genesis state is never exported

The export reads the voting start height and the voting period. Nothing writes them: neither
a genesis state that is imported, nor a message, nor a block.
-/

namespace ZgChain.Councils

/-- The genesis state of a state, imported again, is that state. -/
structure Restored (s : State) (gs : GenesisState) : Prop where
  params : (initGenesis gs).params = s.params
  votingStartHeight : (initGenesis gs).votingStartHeight = s.votingStartHeight
  votingPeriod : (initGenesis gs).votingPeriod = s.votingPeriod
  currentCouncilID : (initGenesis gs).currentCouncilID = s.currentCouncilID
  councils : (initGenesis gs).councils = s.councils

theorem foldl_setCouncil_votingStartHeight (councils : List Council) (s : State) :
    (councils.foldl State.setCouncil s).votingStartHeight = s.votingStartHeight := by
  induction councils generalizing s with
  | nil => rfl
  | cons council councils ih =>
    rw [List.foldl_cons, ih]
    rfl

theorem initGenesis_votingStartHeight (gs : GenesisState) :
    (initGenesis gs).votingStartHeight = none :=
  foldl_setCouncil_votingStartHeight _ _

/-- The export succeeds only on a state that has what the import does not write. -/
theorem not_restored {s : State} {gs : GenesisState} (h : exportGenesis s = .ok gs) :
    ¬ Restored s gs := by
  intro hr
  have hnone := hr.votingStartHeight.symm.trans (initGenesis_votingStartHeight gs)
  rw [exportGenesis, State.getVotingStartHeight, hnone] at h
  cases h

section
variable {env : Env} {c c' : Chain} {steps : List Step}

theorem stepChain_votingStartHeight {step : Step} (h : stepChain env c step = .ok c') :
    c'.state.votingStartHeight = c.state.votingStartHeight := by
  cases step with
  | register isValidator msg =>
    cases h
    exact orElseKeep_rule
      (P := fun s : State => s.votingStartHeight = c.state.votingStartHeight) rfl
      fun s' hs => (register_untouched hs).votingStartHeight
  | vote msg =>
    cases h
    refine orElseKeep_rule (P := fun s : State => s.votingStartHeight = c.state.votingStartHeight)
      rfl fun s' hs => ?_
    obtain ⟨_, _, rfl⟩ := vote_eq_ok hs
    rfl
  | beginBlock =>
    obtain ⟨s', hs', hc'⟩ := (bind_eq_ok _ _ _).mp h
    cases hc'
    exact (beginBlock_untouched hs').votingStartHeight

theorem run_votingStartHeight (h : run env c steps = .ok c') :
    c'.state.votingStartHeight = c.state.votingStartHeight := by
  induction steps generalizing c with
  | nil =>
    cases h
    rfl
  | cons step steps ih =>
    obtain ⟨c₁, hstep, hrest⟩ := (bind_eq_ok _ _ _).mp (List.foldlM_cons.symm.trans h)
    rw [ih hrest, stepChain_votingStartHeight hstep]

end

/-- The export panics in every state that is reached from an imported genesis state, and no
state at all is restored from its export. -/
theorem genesis_never_exported (env : Env) (gs : GenesisState) (height : Int)
    (steps : List Step) (c : Chain) (h : run env ⟨height, initGenesis gs⟩ steps = .ok c) :
    exportGenesis c.state =
      .error (.genesis (.invalidGenesis "voting start height not set at genesis")) ∧
      ∀ s exported, exportGenesis s = .ok exported → ¬ Restored s exported := by
  refine ⟨?_, fun s exported => not_restored⟩
  rw [exportGenesis, State.getVotingStartHeight, run_votingStartHeight h,
    initGenesis_votingStartHeight]
  rfl

theorem genesis_never_exported_default :
    ∃ c, run hexEnv ⟨0, initGenesis defaultGenesisState⟩
      [.beginBlock, .vote ⟨1, "0a", [⟨0, [7]⟩]⟩, .beginBlock] = .ok c ∧
      exportGenesis c.state =
        .error (.genesis (.invalidGenesis "voting start height not set at genesis")) := by
  have hrun := eq_ok_orElseKeep
    (x := run hexEnv ⟨0, initGenesis defaultGenesisState⟩
      [.beginBlock, .vote ⟨1, "0a", [⟨0, [7]⟩]⟩, .beginBlock])
    (by decide +kernel) ⟨0, emptyState⟩
  exact ⟨_, hrun, (genesis_never_exported _ _ _ _ _ hrun).1⟩

/-- The default genesis state cannot be exported right after it is imported. -/
theorem default_genesis_export_panics :
    exportGenesis (initGenesis defaultGenesisState) =
      .error (.genesis (.invalidGenesis "voting start height not set at genesis")) := by
  decide +kernel

end ZgChain.Councils
