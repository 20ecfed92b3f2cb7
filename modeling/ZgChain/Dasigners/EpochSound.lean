import ZgChain.Dasigners.RandomnessSound
import ZgChain.Dasigners.StakeSound

/-!
# Epochs

A block enters at most the next epoch, so the epochs that have quorums are those
up to the current one, and the quorums of an epoch stay as they are. With sound
parameters and a block at every height the epoch number is the height divided by
the number of blocks in an epoch, and no block panics unless a stake is too large.
-/

namespace ZgChain.Dasigners

section
variable {abi : Precompile.Abi} {env : Env} {op : Op} {s s' : State} {n : UInt64}

/-! ## Quorums stay -/

theorem Turns.params (h : Turns env op s s') : s'.params = s.params := by
  cases h with
  | keep hp _ _ _ => exact hp
  | enter _ _ _ _ h =>
    obtain ⟨_, _, _, _, rfl⟩ := enterEpoch_ok.mp h
    rfl

theorem params_run (s : State) (ops : List Op) : (run abi env s ops).params = s.params := by
  have hstep : ∀ s₁ op, True → s₁.params = s.params → (step abi env s₁ op).params = s.params :=
    fun s₁ op _ h => (step_turns s₁ op).params.trans h
  exact runSteps_inv (step abi env) hstep rfl ops fun _ _ => trivial

def KeepsEpochs (n : UInt64) (s s' : State) : Prop :=
  (∃ n', s'.epochNumber = some n' ∧ n ≤ n') ∧ ∀ epoch ≤ n, SameEpoch s s' epoch

theorem Turns.keepsEpochs (h : Turns env op s s') (hn : s.epochNumber = some n) :
    KeepsEpochs n s s' := by
  cases h with
  | keep _ hn' hc hq =>
    exact ⟨⟨n, hn'.trans hn, UInt64.le_refl n⟩, fun epoch _ => .of_stores hc hq epoch⟩
  | enter _ hn' hlt _ h =>
    cases hn.symm.trans hn'
    obtain ⟨_, quorums, _, _, rfl⟩ := enterEpoch_ok.mp h
    refine ⟨⟨n + 1, rfl, UInt64.le_of_lt hlt⟩, fun epoch he => ?_⟩
    have hne : epoch ≠ n + 1 := by
      intro e
      exact UInt64.lt_irrefl n (UInt64.lt_of_lt_of_le hlt (e ▸ he))
    exact setEpochQuorums_other hne s quorums

theorem KeepsEpochs.trans {s₁ s₂ s₃ : State} {n' : UInt64} (h : KeepsEpochs n s₁ s₂)
    (h' : KeepsEpochs n' s₂ s₃) (hle : n ≤ n') : KeepsEpochs n s₁ s₃ := by
  obtain ⟨⟨n₃, hn₃, hle₃⟩, hsame⟩ := h'
  refine ⟨⟨n₃, hn₃, UInt64.le_trans hle hle₃⟩, fun epoch he => ?_⟩
  exact (h.2 epoch he).trans (hsame epoch (UInt64.le_trans he hle))

theorem keepsEpochs_run (hn : s.epochNumber = some n) (ops : List Op) :
    KeepsEpochs n s (run abi env s ops) := by
  refine runSteps_inv (step abi env) (P := fun _ => True) (fun s₁ op _ h => ?_) ?_ ops
    fun _ _ => trivial
  · obtain ⟨n₁, hn₁, hle⟩ := h.1
    exact h.trans ((step_turns s₁ op).keepsEpochs hn₁) hle
  · exact ⟨⟨n, hn, UInt64.le_refl n⟩, fun epoch _ => .refl s epoch⟩

/-! ## The history is complete -/

def Complete (s : State) : Prop := ∃ n, s.epochNumber = some n ∧ ∀ epoch ≤ n, Retrievable s epoch

theorem Turns.complete (h : Turns env op s s') (hc : Complete s) : Complete s' := by
  obtain ⟨n, hn, hr⟩ := hc
  have hkeep := h.keepsEpochs hn
  cases h with
  | keep _ hn' _ _ =>
    exact ⟨n, hn'.trans hn, fun epoch he => (hkeep.2 epoch he).retrievable (hr epoch he)⟩
  | enter _ hn' _ _ h =>
    cases hn.symm.trans hn'
    obtain ⟨_, quorums, _, _, rfl⟩ := enterEpoch_ok.mp h
    refine ⟨n + 1, rfl, fun epoch he => ?_⟩
    by_cases e : epoch = n + 1
    · rw [e]
      exact setEpochQuorums_retrievable s (n + 1) quorums
    · have hle : epoch ≤ n := by
        have hne : epoch.toNat ≠ (n + 1).toNat := fun h => e (UInt64.toNat_inj.mp h)
        rw [UInt64.le_iff_toNat_le] at he ⊢
        rw [UInt64.toNat_add, UInt64.toNat_one] at he hne
        omega
      exact (hkeep.2 epoch hle).retrievable (hr epoch hle)

theorem setQuorumsByEpoch_keeps {epoch : UInt64} (quorumsByEpoch : List Quorums)
    (i : Nat) (s : State)
    (h : Retrievable s epoch) : Retrievable (setQuorumsByEpoch i quorumsByEpoch s) epoch := by
  induction quorumsByEpoch generalizing i s with
  | nil => exact h
  | cons quorums rest ih => exact ih (i + 1) _ (h.setEpochQuorums (UInt64.ofNat i) quorums)

theorem setQuorumsByEpoch_retrievable (quorumsByEpoch : List Quorums) (i : Nat) (s : State)
    {k : Nat} (hi : i ≤ k) (hk : k < i + quorumsByEpoch.length) :
    Retrievable (setQuorumsByEpoch i quorumsByEpoch s) (UInt64.ofNat k) := by
  induction quorumsByEpoch generalizing i s with
  | nil => exact absurd hk (Nat.not_lt.mpr hi)
  | cons quorums rest ih =>
    rw [setQuorumsByEpoch]
    by_cases e : k = i
    · rw [e]
      exact setQuorumsByEpoch_keeps rest (i + 1) _
        (setEpochQuorums_retrievable s (UInt64.ofNat i) quorums)
    · rw [List.length_cons] at hk
      exact ih (i + 1) _ (by omega) (by omega)

theorem complete_genesis {gs : GenesisState} (h₀ : initGenesis gs = .ok s)
    (hn : gs.epochNumber.toNat < 2 ^ 63) :
    Complete s := by
  obtain ⟨hv, hst⟩ := initGenesis_ok h₀
  obtain ⟨s₁, _, _, hc, hq⟩ := hst.history
  refine ⟨gs.epochNumber, hst.epochNumber,
    fun epoch he => (SameEpoch.of_stores hc hq epoch).retrievable ?_⟩
  rw [UInt64.le_iff_toNat_le] at he
  rw [← UInt64.ofNat_toNat (x := epoch)]
  rcases GenesisState.history_length hv with ⟨hl, _⟩ | ⟨_, hmax⟩
  · exact setQuorumsByEpoch_retrievable _ 0 s₁ (Nat.zero_le _) (by omega)
  · omega

/-! ## Blocks succeed -/

def InRange (x : UInt64) : Prop := 1 ≤ x.toNat ∧ x.toNat < 2 ^ 31

instance (x : UInt64) : Decidable (InRange x) :=
  inferInstanceAs (Decidable (1 ≤ x.toNat ∧ x.toNat < 2 ^ 31))

structure Params.Sound (p : Params) : Prop where
  epochBlocks : InRange p.epochBlocks
  encodedSlices : InRange p.encodedSlices
  tokensPerVote : InRange p.tokensPerVote

theorem InRange.ne_zero {x : UInt64} (h : InRange x) : x ≠ 0 := by
  rintro rfl
  exact absurd h.1 (by decide)

/-- A quorum has seats, and either their number is that of a slice that can be made or no
quorum is made at all: all of them are cut off, or there are no ballots. -/
def SlicesOk (p : Params) (ballots : Nat) : Prop :=
  p.encodedSlices ≠ 0 ∧ (p.encodedSlices.toNat ≤ maxSliceLen ∨
    if p.encodedSlices.toInt64.toInt ≤ ballots then p.maxQuorums.toInt64.toInt < 0 else ballots = 0)

theorem toInt_toInt64_eq_zero {x : UInt64} : x.toInt64.toInt = 0 ↔ x = 0 := by
  rw [toInt_toInt64, ← UInt64.toNat_inj, UInt64.toNat_zero, Int.bmod_def]
  have hlt := x.toNat_lt
  split
  · omega
  · omega

theorem selectQuorums_returns_iff (p : Params) (ballots : List Ballot) :
    (∃ quorums, selectQuorums p ballots = .ok quorums) ↔ SlicesOk p ballots.length := by
  unfold selectQuorums SlicesOk
  -- whole quorums are filled if there are ballots for one, else the ballots are repeated
  by_cases hfull : p.encodedSlices.toInt64.toInt ≤ ballots.length
  · have hreturns : (∃ quorums, selectFullQuorums p ballots = .ok quorums) ↔
        ¬ p.encodedSlices.toInt64.toInt = 0 ∧
        ¬ (0 ≤ p.maxQuorums.toInt64.toInt ∧ maxSliceLen < p.encodedSlices.toNat) := by
      simp only [selectFullQuorums, bind_eq_ok, rejectIf_eq_ok]
      constructor
      · intro h
        obtain ⟨_, _, hz, _, hm, _⟩ := h
        exact ⟨hz, hm⟩
      · intro h
        by_cases hrest : (ballots.length : Int) % p.encodedSlices.toInt64.toInt ≠ 0 ∧
            ((fullQuorums p.encodedSlices.toInt64.toInt.toNat p.maxQuorums.toInt64.toInt
              ballots.length 0
              ballots).length : Int) < p.maxQuorums.toInt64.toInt
        · exact ⟨_, (), h.1, (), h.2, if_pos hrest⟩
        · exact ⟨_, (), h.1, (), h.2, if_neg hrest⟩
    rw [if_pos hfull, if_pos hfull, hreturns, toInt_toInt64_eq_zero, not_and_or, not_le, not_lt,
      or_comm]
  · have hslices : p.encodedSlices ≠ 0 := by
      intro e
      rw [toInt_toInt64_eq_zero.mpr e] at hfull
      omega
    rw [if_neg hfull, if_neg hfull]
    by_cases hpos : 0 < ballots.length
    · simp only [hpos, if_true, bind_eq_ok, rejectIf_eq_ok, pure_eq_ok, not_lt]
      constructor
      · intro h
        obtain ⟨_, _, hm, _⟩ := h
        exact ⟨hslices, .inl hm⟩
      · intro h
        exact ⟨_, (), h.2.resolve_right (by omega), rfl⟩
    · rw [if_neg hpos]
      exact ⟨fun _ => ⟨hslices, .inr (by omega)⟩, fun _ => ⟨_, rfl⟩⟩

theorem Params.Sound.slicesOk {p : Params} (hp : p.Sound) (ballots : Nat) : SlicesOk p ballots := by
  obtain ⟨_, hlt⟩ := hp.encodedSlices
  refine ⟨hp.encodedSlices.ne_zero, .inl ?_⟩
  unfold maxSliceLen
  omega

/-- The block at this height belongs to the current epoch or to the next one. -/
def Ready (s : State) (height : Nat) : Prop := ∃ n, s.epochNumber = some n ∧
  (n.toNat = height / s.params.epochBlocks.toNat ∨
    n.toNat + 1 = height / s.params.epochBlocks.toNat)

theorem beginBlock_eq (env : Env) {ctx : CallCtx} (hp : s.params.epochBlocks ≠ 0)
    (hn : s.epochNumber = some n)
    (hnext : n.toNat = ctx.block.blockHeight / s.params.epochBlocks.toNat ∨
      n.toNat + 1 = ctx.block.blockHeight / s.params.epochBlocks.toNat) :
    beginBlock env ctx s = if n.toNat =
      ctx.block.blockHeight / s.params.epochBlocks.toNat then .ok s
      else enterEpoch env ctx s (n + 1) := by
  have hheight := ctx.block.height_lt
  have hle : ctx.block.blockHeight / s.params.epochBlocks.toNat ≤ ctx.block.blockHeight :=
    Nat.div_le_self _ _
  have hexp : (UInt64.ofNat ctx.block.blockHeight / s.params.epochBlocks).toNat =
      ctx.block.blockHeight / s.params.epochBlocks.toNat := by
    rw [UInt64.toNat_div, UInt64.toNat_ofNat', Nat.mod_eq_of_lt (by omega)]
  generalize ctx.block.blockHeight / s.params.epochBlocks.toNat = quotient at hnext hle hexp ⊢
  simp only [beginBlock, getEpochNumber, hn, orReject, ok_bind, rejectIf_neg hp]
  by_cases e : n.toNat = quotient
  · rw [if_pos e, if_pos (UInt64.toNat_inj.mp (hexp.trans e.symm))]
    rfl
  · have hnew : UInt64.ofNat ctx.block.blockHeight / s.params.epochBlocks = n + 1 := by
      apply UInt64.toNat_inj.mp
      rw [hexp, UInt64.toNat_add, UInt64.toNat_one]
      omega
    have hcont : ¬ (n + 1 < UInt64.ofNat ctx.block.blockHeight / s.params.epochBlocks ∨
        UInt64.ofNat ctx.block.blockHeight / s.params.epochBlocks < n) := by
      rw [UInt64.lt_iff_toNat_lt, UInt64.lt_iff_toNat_lt, UInt64.toNat_add, UInt64.toNat_one, hexp]
      omega
    have hne : UInt64.ofNat ctx.block.blockHeight / s.params.epochBlocks ≠ n := by
      intro h
      exact e (by rw [← hexp, h])
    rw [if_neg e, if_neg hne, rejectIf_neg hcont, ok_bind, hnew]

theorem Ready.epochNumber {ctx : CallCtx} (hp : s.params.epochBlocks ≠ 0)
    (h : Ready s ctx.block.blockHeight) (hb : beginBlock env ctx s = .ok s') :
    s'.epochNumber = some (UInt64.ofNat (ctx.block.blockHeight / s.params.epochBlocks.toNat)) := by
  obtain ⟨n, hn, hnext⟩ := h
  rw [beginBlock_eq env hp hn hnext] at hb
  split at hb
  · rename_i e
    cases hb
    rw [hn, ← e, UInt64.ofNat_toNat]
  · rename_i hne
    obtain ⟨_, _, _, _, rfl⟩ := enterEpoch_ok.mp hb
    rw [← hnext.resolve_left hne, UInt64.ofNat_add, UInt64.ofNat_toNat]
    rfl

/-- A block at a height its state is ready for returns, or the stake of an account is too large. -/
theorem beginBlock_ready (env : Env) {ctx : CallCtx} (hp : s.params.Sound)
    (h : Ready s ctx.block.blockHeight) :
    (∃ s', beginBlock env ctx s = .ok s' ∧
      s'.epochNumber = some (UInt64.ofNat (ctx.block.blockHeight / s.params.epochBlocks.toNat))) ∨
    beginBlock env ctx s = .error intOverflow ∧ ¬ StakesInRange ctx s := by
  have hresult : (∃ s', beginBlock env ctx s = .ok s') ∨
      beginBlock env ctx s = .error intOverflow ∧ ¬ StakesInRange ctx s := by
    obtain ⟨n, hn, hnext⟩ := id h
    rw [beginBlock_eq env hp.epochBlocks.ne_zero hn hnext]
    split
    · exact .inl ⟨s, rfl⟩
    · rcases collectBallots_yields hp.tokensPerVote.ne_zero (iterateRegistrations s (n + 1))
        with he | ⟨ballots, hb, _⟩
      · refine .inr ⟨?_, fun hstakes => ?_⟩
        · rw [enterEpoch, he]
          rfl
        · obtain ⟨ballots, hb⟩ :=
            (collectBallots_returns_iff env hp.tokensPerVote.ne_zero).mpr (hstakes n hn)
          cases he.symm.trans hb
      · obtain ⟨quorums, hq⟩ :=
          (selectQuorums_returns_iff _ (sortBallots ballots)).mpr (hp.slicesOk _)
        exact .inl ⟨_, enterEpoch_ok.mpr ⟨ballots, quorums, hb, hq, rfl⟩⟩
  refine hresult.imp_left fun hreturns => ?_
  obtain ⟨s', hb⟩ := hreturns
  exact ⟨s', hb, h.epochNumber hp.epochBlocks.ne_zero hb⟩

theorem Ready.next {height : Nat} {p : Params} (hp : s'.params = p)
    (hn : s'.epochNumber = some (UInt64.ofNat (height / p.epochBlocks.toNat)))
    (hlt : height < 2 ^ 63) :
    Ready s' (height + 1) := by
  have hle : height / p.epochBlocks.toNat ≤ height := Nat.div_le_self _ _
  refine ⟨_, hn, ?_⟩
  rw [hp, UInt64.toNat_ofNat', Nat.mod_eq_of_lt (by omega), Nat.succ_div]
  split
  · exact .inr rfl
  · exact .inl rfl

/-! ## Blocks at every height -/

def blockHeights (ops : List Op) : List Nat :=
  ops.filterMap fun
    | .beginBlock ctx => some ctx.block.blockHeight
    | _ => none

def Consecutive (height : Nat) (ops : List Op) : Prop :=
  blockHeights ops = List.range' height (blockHeights ops).length

instance (height : Nat) (ops : List Op) : Decidable (Consecutive height ops) :=
  inferInstanceAs (Decidable (blockHeights ops = List.range' height (blockHeights ops).length))

theorem Consecutive.split {height : Nat} {before after : List Op}
    (h : Consecutive height (before ++ after)) :
    Consecutive height before ∧ Consecutive (height + (blockHeights before).length) after := by
  have happ : blockHeights (before ++ after) = blockHeights before ++ blockHeights after :=
    List.filterMap_append
  unfold Consecutive at h
  rw [happ, List.length_append, ← List.range'_append_1] at h
  exact List.append_inj h (by rw [List.length_range'])

theorem Consecutive.block {height : Nat} {ctx : CallCtx} {after : List Op}
    (h : Consecutive height (.beginBlock ctx :: after)) : ctx.block.blockHeight = height :=
  (List.cons.inj h).1

theorem Turns.epochNumber (h : Turns env op s s') (ho : ∀ ctx, op ≠ .beginBlock ctx) :
    s'.epochNumber = s.epochNumber := by
  cases h with
  | keep _ hn _ _ => exact hn
  | enter ho' _ _ _ _ => exact absurd ho' (ho _)

def EveryBlock (abi : Precompile.Abi) (env : Env) (s : State) (P : CallCtx → State → Prop)
    (ops : List Op) : Prop :=
  ∀ before ctx after, ops = before ++ .beginBlock ctx :: after → P ctx (run abi env s before)

theorem EveryBlock.left {P : CallCtx → State → Prop} {ops ops' : List Op}
    (h : EveryBlock abi env s P (ops ++ ops')) :
    EveryBlock abi env s P ops := by
  intro before ctx after e
  exact h before ctx (after ++ ops') (by rw [e, List.append_assoc, List.cons_append])

theorem EveryBlock.concat {P : CallCtx → State → Prop} {ops : List Op}
    (h : EveryBlock abi env s P ops)
    (hop : ∀ ctx, op = .beginBlock ctx → P ctx (run abi env s ops)) :
    EveryBlock abi env s P (ops ++ [op]) := by
  intro before ctx after e
  rcases List.eq_nil_or_concat after with rfl | ⟨after', op', rfl⟩
  · obtain ⟨rfl, e'⟩ := List.append_inj' e rfl
    cases e'
    exact hop ctx rfl
  · rw [List.concat_eq_append, ← List.cons_append, ← List.append_assoc] at e
    obtain ⟨rfl, _⟩ := List.append_inj' e rfl
    exact h before ctx after' rfl

def Returns (env : Env) (ctx : CallCtx) (s : State) : Prop := ∃ s', beginBlock env ctx s = .ok s'

theorem Ready.step {height : Nat} (hp : s.params.epochBlocks ≠ 0) (h : Ready s height)
    (hc : Consecutive height [op]) (hb : ∀ ctx, op = .beginBlock ctx → Returns env ctx s) :
    Ready (Dasigners.step abi env s op) (height + (blockHeights [op]).length) := by
  have hturn : Turns env op s (Dasigners.step abi env s op) := step_turns s op
  by_cases ho : ∃ ctx, op = .beginBlock ctx
  · obtain ⟨ctx, rfl⟩ := ho
    cases hc.block
    obtain ⟨s', hb⟩ := hb ctx rfl
    have hstep : Dasigners.step abi env s (.beginBlock ctx) = s' := by rw [Dasigners.step, hb]; rfl
    rw [hstep] at hturn ⊢
    exact Ready.next hturn.params (h.epochNumber hp hb) ctx.block.height_lt
  · have hne : ∀ ctx, op ≠ .beginBlock ctx := fun ctx e => ho ⟨ctx, e⟩
    have hnone : blockHeights [op] = [] := by
      cases op with
      | beginBlock ctx => exact absurd rfl (hne ctx)
      | _ => rfl
    unfold Ready
    rw [hnone, hturn.epochNumber hne, hturn.params]
    exact h

theorem ready_run {height : Nat} (hp : s.params.epochBlocks ≠ 0) (h : Ready s height)
    {ops : List Op} (hc : Consecutive height ops) (hb : EveryBlock abi env s (Returns env) ops) :
    Ready (run abi env s ops) (height + (blockHeights ops).length) := by
  induction ops using List.reverseRecOn with
  | nil => exact h
  | append_singleton ops op ih =>
    obtain ⟨hbefore, hop⟩ := hc.split
    have hparams : (run abi env s ops).params = s.params := params_run s ops
    have hheights : blockHeights (ops ++ [op]) = blockHeights ops ++ blockHeights [op] :=
      List.filterMap_append
    rw [run_concat, hheights, List.length_append, ← Nat.add_assoc]
    refine (ih hbefore hb.left).step (hparams ▸ hp) hop fun ctx e => ?_
    exact hb ops ctx [] (by rw [e])

theorem ready_block {height : Nat} (hp : s.params.epochBlocks ≠ 0) (h : Ready s height)
    {before after : List Op}
    {ctx : CallCtx} (hc : Consecutive height (before ++ .beginBlock ctx :: after))
    (hb : EveryBlock abi env s (Returns env) before) :
    Ready (run abi env s before) ctx.block.blockHeight := by
  obtain ⟨hbefore, hblock⟩ := hc.split
  rw [hblock.block]
  exact ready_run hp h hbefore hb

theorem sound_blocks_return {height : Nat} (hp : s.params.Sound) (h : Ready s height)
    {ops : List Op}
    (hc : Consecutive height ops) (hstakes : EveryBlock abi env s StakesInRange ops) :
    EveryBlock abi env s (Returns env) ops := by
  induction ops using List.reverseRecOn with
  | nil =>
    intro before ctx after e
    exact absurd e (by simp)
  | append_singleton ops op ih =>
    have hbefore := ih hc.split.1 hstakes.left
    refine hbefore.concat fun ctx e => ?_
    have hparams : (run abi env s ops).params = s.params := params_run s ops
    subst e
    rcases beginBlock_ready env (hparams ▸ hp) (ready_block hp.epochBlocks.ne_zero h hc hbefore)
      with
      ⟨s', hb, _⟩ | ⟨_, hlarge⟩
    · exact ⟨s', hb⟩
    · exact absurd (hstakes ops ctx [] rfl) hlarge

theorem complete_run (h : Complete s) (ops : List Op) : Complete (run abi env s ops) :=
  runSteps_inv (step abi env) (P := fun _ => True)
    (fun s₁ op _ h => (step_turns s₁ op).complete h) h ops
    fun _ _ => trivial

/-- With sound parameters, a genesis state whose epoch is that of the first block or the
one before, and a block at every height, a block that comes after blocks that returned leaves the
epoch of its height, or it panics because a stake is too large for a decimal; so all blocks return
if no stake is. In every state on the way all epochs up to the current one have their quorums, and
these are still the same at the end. -/
theorem epochs_follow_heights (abi : Precompile.Abi) (env : Env) {gs : GenesisState} {s₀ : State}
    (h₀ : initGenesis gs = .ok s₀) (hp : gs.params.Sound)
    {initialHeight : Nat} (hi : initialHeight < 2 ^ 63)
    (he : gs.epochNumber.toNat = initialHeight / gs.params.epochBlocks.toNat ∨
      gs.epochNumber.toNat + 1 = initialHeight / gs.params.epochBlocks.toNat)
    {ops : List Op} (hc : Consecutive initialHeight ops) :
    (∀ before ctx after, ops = before ++ .beginBlock ctx :: after →
      EveryBlock abi env s₀ (Returns env) before →
      (∃ s', beginBlock env ctx (run abi env s₀ before) = .ok s' ∧
        s'.epochNumber =
          some (UInt64.ofNat (ctx.block.blockHeight / gs.params.epochBlocks.toNat))) ∨
      beginBlock env ctx (run abi env s₀ before) = .error intOverflow ∧
        ¬ StakesInRange ctx (run abi env s₀ before)) ∧
    (EveryBlock abi env s₀ StakesInRange ops → EveryBlock abi env s₀ (Returns env) ops) ∧
    (∀ before after, ops = before ++ after →
      ∃ n, (run abi env s₀ before).epochNumber = some n ∧ ∀ epoch ≤ n,
        (∃ count, getQuorumCount (run abi env s₀ before) epoch = .ok count ∧ ∀ quorumId < count,
          ∃ quorum, getEpochQuorum (run abi env s₀ before) epoch quorumId = .ok quorum) ∧
        getQuorumCount (run abi env s₀ ops) epoch = getQuorumCount (run abi env s₀ before) epoch ∧
        ∀ quorumId, getEpochQuorum (run abi env s₀ ops) epoch quorumId =
          getEpochQuorum (run abi env s₀ before) epoch quorumId) := by
  obtain ⟨_, hst⟩ := initGenesis_ok h₀
  have hp₀ : s₀.params.Sound := hst.params ▸ hp
  have hready : Ready s₀ initialHeight := ⟨gs.epochNumber, hst.epochNumber, hst.params ▸ he⟩
  refine ⟨?_, sound_blocks_return hp₀ hready hc, ?_⟩
  · intro before ctx after e hreturns
    rw [e] at hc
    have hparams : (run abi env s₀ before).params = gs.params :=
      (params_run s₀ before).trans hst.params
    have hb := beginBlock_ready env (hparams ▸ hp)
      (ready_block hp₀.epochBlocks.ne_zero hready hc hreturns)
    rwa [hparams] at hb
  · intro before after e
    have hle : initialHeight / gs.params.epochBlocks.toNat ≤ initialHeight := Nat.div_le_self _ _
    have hcomplete : Complete (run abi env s₀ before) :=
      complete_run (complete_genesis h₀ (by omega)) before
    obtain ⟨n, hn, hr⟩ := hcomplete
    have hkeep : KeepsEpochs n (run abi env s₀ before) (run abi env s₀ ops) := by
      rw [e, run_append]
      exact keepsEpochs_run hn after
    exact ⟨n, hn, fun epoch hle => ⟨hr epoch hle, hkeep.2 epoch hle⟩⟩

end

/-! ## A run through two epochs -/

def shortGenesis : GenesisState := { sampleGenesis with params := ⟨10, 1024, 10, 2, 3⟩ }

def shortState : State := orElseKeep emptyState (initGenesis shortGenesis)

def blockCtx (height : Fin (2 ^ 63)) : CallCtx := ⟨.atHeight height 0, sampleStaking⟩

def shortOps : List Op := [.beginBlock (blockCtx 1), sampleMsgOp, .beginBlock (blockCtx 2)]

theorem initGenesis_shortState : initGenesis shortGenesis = .ok shortState :=
  eq_ok_orElseKeep (by decide +kernel) emptyState

theorem sampleStaking_inRange (delegator : Addr) : StakeInRange sampleStaking delegator := by
  unfold StakeInRange stakeTokens counted
  by_cases h : delegator = sampleAccount
  · rw [h]
    decide +kernel
  · have hnone : sampleStaking.delegations delegator = [] := if_neg h
    rw [hnone, List.take_nil]
    exact ⟨fun _ hd => absurd hd List.not_mem_nil, Int.pow_pos (by decide)⟩

theorem blockCtx_inRange (height : Fin (2 ^ 63)) (s : State) : StakesInRange (blockCtx height) s :=
  fun _ _ _ _ addr _ => sampleStaking_inRange addr

theorem shortOps_inRange : EveryBlock sampleAbi sampleEnv shortState StakesInRange shortOps := by
  intro before ctx after e
  have hctx : ∀ op ∈ shortOps, ∀ c, op = .beginBlock c → ∃ height, c = blockCtx height := by
    intro op hop c hc
    simp only [shortOps, List.mem_cons, List.not_mem_nil, or_false] at hop
    rcases hop with rfl | rfl | rfl
    · cases hc
      exact ⟨_, rfl⟩
    · cases hc
    · cases hc
      exact ⟨_, rfl⟩
  obtain ⟨height, rfl⟩ := hctx (.beginBlock ctx) (by rw [e]; simp) ctx rfl
  exact blockCtx_inRange height _

theorem epochs_follow_heights_short : Consecutive 1 shortOps ∧
    EveryBlock sampleAbi sampleEnv shortState (Returns sampleEnv) shortOps ∧
    (∃ s', beginBlock sampleEnv (blockCtx 2)
      (run sampleAbi sampleEnv shortState [.beginBlock (blockCtx 1), sampleMsgOp]) =
      .ok s' ∧ s'.epochNumber = some 1) ∧
    ∃ n, (run sampleAbi sampleEnv shortState shortOps).epochNumber = some n ∧ ∀ epoch ≤ n,
      ∃ count, getQuorumCount (run sampleAbi sampleEnv shortState shortOps) epoch = .ok count := by
  have hp : shortGenesis.params.Sound := ⟨by decide +kernel, by decide +kernel, by decide +kernel⟩
  have hc : Consecutive 1 shortOps := by decide +kernel
  obtain ⟨hblocks, hreturn, hstates⟩ :=
    epochs_follow_heights sampleAbi sampleEnv initGenesis_shortState hp
    (by decide) (.inl (by decide +kernel)) hc
  have hall : EveryBlock sampleAbi sampleEnv shortState (Returns sampleEnv)
      ([.beginBlock (blockCtx 1), sampleMsgOp] ++ [.beginBlock (blockCtx 2)]) :=
        hreturn shortOps_inRange
  have hsecond := hblocks [.beginBlock (blockCtx 1), sampleMsgOp] (blockCtx 2) [] rfl hall.left
  obtain ⟨n, hn, hepochs⟩ := hstates shortOps [] (List.append_nil _).symm
  refine ⟨hc, hall, hsecond.resolve_right fun h => h.2 (blockCtx_inRange 2 _), n, hn,
    fun epoch he => ?_⟩
  obtain ⟨⟨count, hcount, _⟩, _⟩ := hepochs epoch he
  exact ⟨count, hcount⟩

/-- Coordinates are added one by one, and every signature is accepted. -/
def plainCurve : Bn254util.Curve where
  keccak256 _ := []
  modSqrt := some
  add p q := ⟨p.x + q.x, p.y + q.y⟩
  scalarMultiplication p _ := p
  neg q := q
  pairingCheck _ _ := some true

def plainEnv : Env := ⟨plainCurve, some 16600⟩

end ZgChain.Dasigners
