import ZgChain.Dasigners.EpochSound

/-!
# Blocks that stop the chain

The check of a genesis state does not look at the parameters. An epoch without blocks
makes the first block panic, and quorums without seats, or with more than a slice can
have, the first block of an epoch. So does a stake that is too large for a decimal, whatever the
parameters are. Other parameters are harmless: without tokens per vote nobody can register, so
there is no registration to divide for.
-/

namespace ZgChain.Dasigners

/-- The block divides by a number of blocks. If it enters an epoch, the stakes of the
accounts that have registered for it can be computed and the quorums can be laid out. -/
def BlockSafe (ctx : CallCtx) (s : State) : Prop :=
  s.params.epochBlocks ≠ 0 ∧ ∀ n, s.epochNumber = some n →
    n.toNat ≠ ctx.block.blockHeight / s.params.epochBlocks.toNat →
    (∀ registration ∈ iterateRegistrations s (n + 1), RegistrationInRange ctx registration) ∧
      SlicesOk s.params (ballotCount ctx s (iterateRegistrations s (n + 1)))

section
variable {abi : Precompile.Abi} {env : Env} {op : Op} {s s' : State}

/-! ## Registrations need tokens per vote -/

def RegistrationsPaid (s : State) : Prop := s.params.tokensPerVote = 0 → s.registrations = .empty

theorem registerNextEpoch_tokens {ctx : CallCtx} {msg : MsgRegisterNextEpoch}
    (h : registerNextEpoch env ctx s msg = .ok s') : s.params.tokensPerVote ≠ 0 := by
  simp only [registerNextEpoch, checkDelegations, votes, bind_eq_ok, rejectIf_eq_ok] at h
  obtain ⟨_, ⟨_, _, _, _, _, ⟨_, ht, _⟩, _⟩, _⟩ := h
  exact ht

theorem RegistrationsPaid.step (h : RegistrationsPaid s) :
    RegistrationsPaid (step abi env s op) := by
  intro ht
  have hparams : (Dasigners.step abi env s op).params = s.params := (step_turns s op).params
  rw [hparams] at ht
  have hstep : Evolves abi env op s (Dasigners.step abi env s op) := step_evolves s op
  generalize Dasigners.step abi env s op = s₁ at hstep
  cases hstep with
  | keep _ hr => exact hr.trans (h ht)
  | signer _ _ => exact h ht
  | socket _ _ => exact h ht
  | register ha =>
    obtain ⟨_, _, _, _, _, hr, _⟩ := ha
    exact absurd ht (registerNextEpoch_tokens hr)

theorem registrationsPaid_run {gs : GenesisState} {s₀ : State} (h₀ : initGenesis gs = .ok s₀)
    (ops : List Op) :
    RegistrationsPaid (run abi env s₀ ops) :=
  runSteps_inv (Dasigners.step abi env) (P := fun _ => True) (fun _ _ _ h => h.step)
    (fun _ => (initGenesis_ok h₀).2.registrations) ops fun _ _ => trivial

theorem RegistrationsPaid.collects_iff (h : RegistrationsPaid s) (env : Env) (ctx : CallCtx)
    (epoch : UInt64) :
    (∃ ballots, collectBallots env ctx s (iterateRegistrations s epoch) = .ok ballots) ↔
      ∀ registration ∈ iterateRegistrations s epoch, RegistrationInRange ctx registration := by
  by_cases ht : s.params.tokensPerVote = 0
  · have hnone : iterateRegistrations s epoch = [] := by
      rw [iterateRegistrations, h ht]
      rfl
    rw [hnone]
    exact ⟨fun _ _ hr => absurd hr List.not_mem_nil, fun _ => ⟨[], rfl⟩⟩
  · exact collectBallots_returns_iff env ht

/-! ## When a block returns -/

theorem enterEpoch_returns_iff {ctx : CallCtx} {epoch : UInt64} (hr : RegistrationsPaid s) :
    (∃ s', enterEpoch env ctx s epoch = .ok s') ↔
      (∀ registration ∈ iterateRegistrations s epoch, RegistrationInRange ctx registration) ∧
        SlicesOk s.params (ballotCount ctx s (iterateRegistrations s epoch)) := by
  rw [← hr.collects_iff env]
  have hlength : ∀ ballots, collectBallots env ctx s (iterateRegistrations s epoch) = .ok ballots →
      (sortBallots ballots).length = ballotCount ctx s (iterateRegistrations s epoch) := by
    intro ballots hb
    rw [sortBallots, List.length_insertionSort, length_ballots_eq_ballotCount hb]
  constructor
  · intro h
    obtain ⟨s', h⟩ := h
    obtain ⟨ballots, quorums, hb, hq, _⟩ := enterEpoch_ok.mp h
    have hslices := (selectQuorums_returns_iff _ _).mp ⟨quorums, hq⟩
    exact ⟨⟨ballots, hb⟩, hlength ballots hb ▸ hslices⟩
  · intro h
    obtain ⟨⟨ballots, hb⟩, hslices⟩ := h
    obtain ⟨quorums, hq⟩ := (selectQuorums_returns_iff s.params (sortBallots ballots)).mpr
      (hlength ballots hb ▸ hslices)
    exact ⟨_, enterEpoch_ok.mpr ⟨ballots, quorums, hb, hq, rfl⟩⟩

theorem beginBlock_returns_iff {ctx : CallCtx} (hr : RegistrationsPaid s)
    (hready : s.params.epochBlocks ≠ 0 → Ready s ctx.block.blockHeight) :
    (∃ s', beginBlock env ctx s = .ok s') ↔ BlockSafe ctx s := by
  by_cases hp : s.params.epochBlocks = 0
  · constructor
    · intro h
      obtain ⟨_, h⟩ := h
      simp only [beginBlock, bind_eq_ok, rejectIf_eq_ok] at h
      obtain ⟨_, _, _, hne, _⟩ := h
      exact absurd hp hne
    · intro h
      exact absurd hp h.1
  · -- the block is one of the current epoch or enters the next
    obtain ⟨n, hn, hnext⟩ := hready hp
    rw [beginBlock_eq env hp hn hnext]
    by_cases e : n.toNat = ctx.block.blockHeight / s.params.epochBlocks.toNat
    · rw [if_pos e]
      refine ⟨fun _ => ⟨hp, fun n' hn' hne => ?_⟩, fun _ => ⟨s, rfl⟩⟩
      cases hn.symm.trans hn'
      exact absurd e hne
    · rw [if_neg e, enterEpoch_returns_iff hr]
      refine ⟨fun h => ⟨hp, fun n' hn' _ => ?_⟩, fun h => h.2 n hn e⟩
      cases hn.symm.trans hn'
      exact h

theorem Params.Sound.blocksSafe (hp : s.params.Sound) {ops : List Op}
    (h : EveryBlock abi env s StakesInRange ops) :
    EveryBlock abi env s BlockSafe ops := by
  intro before ctx after e
  have hparams : (run abi env s before).params = s.params := params_run s before
  refine ⟨hparams ▸ hp.epochBlocks.ne_zero, fun n hn _ => ⟨h before ctx after e n hn, ?_⟩⟩
  rw [hparams]
  exact hp.slicesOk _

/-- From a valid genesis state, with the first block in its epoch or the next and a block at
every height, the blocks of a run all return exactly if each of them is safe. -/
theorem blocks_return_iff (abi : Precompile.Abi) (env : Env) {gs : GenesisState} {s₀ : State}
    (h₀ : initGenesis gs = .ok s₀) {initialHeight : Nat}
    (he : gs.params.epochBlocks ≠ 0 →
      gs.epochNumber.toNat = initialHeight / gs.params.epochBlocks.toNat ∨
      gs.epochNumber.toNat + 1 = initialHeight / gs.params.epochBlocks.toNat)
    {ops : List Op} (hc : Consecutive initialHeight ops) :
    EveryBlock abi env s₀ (Returns env) ops ↔ EveryBlock abi env s₀ BlockSafe ops := by
  obtain ⟨_, hst⟩ := initGenesis_ok h₀
  have hready : s₀.params.epochBlocks ≠ 0 → Ready s₀ initialHeight := by
    rw [hst.params]
    intro hp
    exact ⟨gs.epochNumber, hst.epochNumber, hst.params ▸ he hp⟩
  -- a block whose predecessors returned is executed at the height its state is ready for
  have hblock : ∀ before ctx after, ops = before ++ .beginBlock ctx :: after →
      EveryBlock abi env s₀ (Returns env) before →
      (Returns env ctx (run abi env s₀ before) ↔ BlockSafe ctx (run abi env s₀ before)) := by
    intro before ctx after e hbefore
    refine beginBlock_returns_iff (registrationsPaid_run h₀ before) fun hp => ?_
    rw [params_run] at hp
    exact ready_block hp (hready hp) (e ▸ hc) hbefore
  constructor
  · intro h before ctx after e
    exact (hblock before ctx after e (e ▸ h).left).mp (h before ctx after e)
  · intro h
    have hprefix : ∀ before after, ops = before ++ after →
        EveryBlock abi env s₀ (Returns env) before := by
      intro before
      induction before using List.reverseRecOn with
      | nil =>
        intro after _ before' ctx after' e
        exact absurd e (by simp)
      | append_singleton before op ih =>
        intro after e
        rw [List.append_assoc, List.singleton_append] at e
        have hbefore := ih (op :: after) e
        refine hbefore.concat fun ctx eop => ?_
        subst eop
        exact (hblock before ctx after e hbefore).mpr (h before ctx after e)
    exact hprefix ops [] (List.append_nil _).symm

end

def noBlocksGenesis : GenesisState := { defaultGenesisState with params := ⟨10, 1024, 10, 0, 3072⟩ }

def noSlicesGenesis : GenesisState := { defaultGenesisState with params := ⟨10, 1024, 10, 1, 0⟩ }

/-- Both states are stored, and the first block of the chain does not return: at any height, and
at a height of the next epoch. -/
theorem valid_genesis_halts :
    (∃ s, initGenesis noBlocksGenesis = .ok s ∧ ¬ Returns sampleEnv (blockCtx 1) s) ∧
    ∃ s, initGenesis noSlicesGenesis = .ok s ∧ noSlicesGenesis.epochNumber.toNat + 1 =
      1 / noSlicesGenesis.params.epochBlocks.toNat ∧
      ¬ Returns sampleEnv (blockCtx 1) s := by
  have hblocks := eq_ok_orElseKeep (x := initGenesis noBlocksGenesis) (by decide +kernel) emptyState
  have hslices := eq_ok_orElseKeep (x := initGenesis noSlicesGenesis) (by decide +kernel) emptyState
  unfold Returns
  exact ⟨⟨_, hblocks, by decide +kernel⟩, _, hslices, by decide +kernel, by decide +kernel⟩

theorem blocks_return_iff_short :
    Consecutive 1 shortOps ∧
    EveryBlock sampleAbi sampleEnv shortState (Returns sampleEnv) shortOps := by
  have hc : Consecutive 1 shortOps := by decide +kernel
  have hp : shortState.params.Sound := ⟨by decide +kernel, by decide +kernel, by decide +kernel⟩
  have he : shortGenesis.epochNumber.toNat = 1 / shortGenesis.params.epochBlocks.toNat := by
    decide +kernel
  exact ⟨hc, (blocks_return_iff sampleAbi sampleEnv initGenesis_shortState
    (fun _ => .inl he) hc).mpr
    (hp.blocksSafe shortOps_inRange)⟩

end ZgChain.Dasigners
