import ZgChain.Dasigners.EpochSound

/-!
# Genesis round trip of the signers

The exported history ends before the current epoch and the check of a genesis state
asks for the current one too, so an exported state is rejected. The exception is the
largest epoch number, which is minus one as a signed number: a history without
entries is complete for it, and no block can enter an epoch from there.
-/

namespace ZgChain.Dasigners

def RoundTrips (s : State) : Prop :=
  ∃ gs s', exportGenesis s = .ok gs ∧ gs.validate = .ok () ∧ initGenesis gs = .ok s' ∧
  s'.params = s.params ∧
    s'.epochNumber = s.epochNumber ∧ s'.signers = s.signers ∧
    ∀ n, s.epochNumber = some n → ∀ epoch ≤ n, SameEpoch s s' epoch

section
variable {abi : Precompile.Abi} {env : Env} {op : Op} {s s' : State}

theorem exportGenesis_ok {gs : GenesisState} (h : exportGenesis s = .ok gs) :
    s.epochNumber = some gs.epochNumber ∧
    gs.quorumsByEpoch.length = gs.epochNumber.toInt64.toInt.toNat := by
  simp only [exportGenesis, getEpochNumber, bind_eq_ok, orReject_eq_ok, pure_eq_ok] at h
  obtain ⟨n, hn, history, hh, rfl⟩ := h
  exact ⟨hn, (length_of_mapM hh).trans List.length_range⟩

/-- The exported history is one entry short, except for the largest number. -/
theorem exported_valid_max {gs : GenesisState} (h : exportGenesis s = .ok gs)
    (hv : gs.validate = .ok ()) :
    gs.epochNumber.toNat = 2 ^ 64 - 1 := by
  obtain ⟨_, hlen⟩ := exportGenesis_ok h
  rcases GenesisState.history_length hv with ⟨hl, hlt⟩ | ⟨_, hmax⟩
  · rw [toInt_toInt64_of_lt (by omega)] at hlen
    omega
  · exact hmax

/-! ## The largest epoch number is there from the start or never -/

def EpochBelow (s : State) : Prop := ∃ n, s.epochNumber = some n ∧ n.toNat < 2 ^ 63

structure Blank (s : State) : Prop where
  epochNumber : ∃ n, s.epochNumber = some n ∧ n.toNat = 2 ^ 64 - 1
  quorumCounts : s.quorumCounts = .empty
  epochQuorums : s.epochQuorums = .empty

theorem Turns.epochBelow (h : Turns env op s s') (hb : EpochBelow s) : EpochBelow s' := by
  cases h with
  | keep _ hn _ _ =>
    unfold EpochBelow
    rw [hn]
    exact hb
  | @enter ctx n _ _ _ _ he h =>
    obtain ⟨_, _, _, _, rfl⟩ := enterEpoch_ok.mp h
    refine ⟨n + 1, rfl, ?_⟩
    have hheight := ctx.block.height_lt
    rw [← he, UInt64.toNat_div, UInt64.toNat_ofNat', Nat.mod_eq_of_lt (by omega)]
    exact lt_of_le_of_lt (Nat.div_le_self _ _) hheight

theorem Turns.blank (h : Turns env op s s') (hb : Blank s) : Blank s' := by
  cases h with
  | keep _ hn hc hq =>
    exact ⟨hn ▸ hb.epochNumber, hc.trans hb.quorumCounts, hq.trans hb.epochQuorums⟩
  | @enter ctx n _ _ hn hlt _ _ =>
    obtain ⟨n', hn', hmax⟩ := hb.epochNumber
    cases hn.symm.trans hn'
    rw [UInt64.lt_iff_toNat_lt, UInt64.toNat_add, UInt64.toNat_one, hmax] at hlt
    exact absurd hlt (by decide)

theorem epochBelow_run {gs : GenesisState} {s₀ : State} (h₀ : initGenesis gs = .ok s₀)
    (hn : gs.epochNumber.toNat ≠ 2 ^ 64 - 1) (ops : List Op) : EpochBelow (run abi env s₀ ops) := by
  refine runSteps_inv (step abi env) (P := fun _ => True)
    (fun s₁ op _ h => (step_turns s₁ op).epochBelow h) ?_ ops
    fun _ _ => trivial
  obtain ⟨hv, hst⟩ := initGenesis_ok h₀
  refine ⟨gs.epochNumber, hst.epochNumber, ?_⟩
  rcases GenesisState.history_length hv with ⟨_, hlt⟩ | ⟨_, hmax⟩
  · omega
  · exact absurd hmax hn

theorem blank_run {gs : GenesisState} {s₀ : State} (h₀ : initGenesis gs = .ok s₀)
    (hn : gs.epochNumber.toNat = 2 ^ 64 - 1) (ops : List Op) : Blank (run abi env s₀ ops) := by
  refine runSteps_inv (step abi env) (P := fun _ => True)
    (fun s₁ op _ h => (step_turns s₁ op).blank h) ?_ ops
    fun _ _ => trivial
  obtain ⟨hv, hst⟩ := initGenesis_ok h₀
  obtain ⟨s₁, hc₁, hq₁, hc, hq⟩ := hst.history
  have hnone : gs.quorumsByEpoch = [] := by
    rcases GenesisState.history_length hv with ⟨_, hlt⟩ | ⟨hl, _⟩
    · omega
    · exact List.length_eq_zero_iff.mp hl
  rw [hnone] at hc hq
  exact ⟨⟨_, hst.epochNumber, hn⟩, hc.trans hc₁, hq.trans hq₁⟩

/-! ## The exception round-trips -/

theorem toInt64_max {n : UInt64} (h : n.toNat = 2 ^ 64 - 1) : n.toInt64.toInt = -1 := by
  rw [toInt_toInt64, h]
  rfl

theorem Blank.exportGenesis (h : Blank s) : ∃ n, s.epochNumber = some n ∧ n.toNat = 2 ^ 64 - 1 ∧
    exportGenesis s = .ok ⟨s.params, n, s.signers.values, []⟩ := by
  obtain ⟨n, hn, hmax⟩ := h.epochNumber
  refine ⟨n, hn, hmax, ?_⟩
  simp only [Dasigners.exportGenesis, getEpochNumber, hn, orReject, ok_bind, toInt64_max hmax]
  rfl

theorem Blank.roundTrips (h : Blank s) (hv : SignersValid s) : RoundTrips s := by
  obtain ⟨n, hn, hmax, hexport⟩ := h.exportGenesis
  have hvalid : GenesisState.validate ⟨s.params, n, s.signers.values, []⟩ = .ok () := by
    refine GenesisState.validate_ok.mpr ⟨fun signer hs => ?_, ?_, fun account ha => nomatch ha⟩
    · obtain ⟨key, hk⟩ := (KVStore.mem_values _ signer).mp hs
      exact hv key signer hk
    · rw [Int64.toInt_add, toInt64_max hmax]
      rfl
  obtain ⟨s', hs'⟩ := initGenesis_returns hvalid
  obtain ⟨_, hst⟩ := initGenesis_ok hs'
  obtain ⟨s₁, hc₁, hq₁, hc, hq⟩ := hst.history
  have hsigners : s'.signers = s.signers :=
    hst.signers.trans
      (KVStore.setAll_values fun key signer hk => signerKey_of_decodes (s.keyed key signer hk))
  refine ⟨_, s', hexport, hvalid, hs', hst.params, hst.epochNumber.trans hn.symm, hsigners,
    fun _ _ epoch _ => ?_⟩
  exact .of_stores (hc.trans (hc₁.trans h.quorumCounts.symm))
    (hq.trans (hq₁.trans h.epochQuorums.symm)) epoch

/-- In every run from a valid genesis state, an export can be stored again and gives the
state back exactly if the number of the genesis epoch is the largest one. -/
theorem export_round_trips_iff (abi : Precompile.Abi) (env : Env) {gs : GenesisState} {s₀ : State}
    (h₀ : initGenesis gs = .ok s₀) (ops : List Op) :
    RoundTrips (run abi env s₀ ops) ↔ gs.epochNumber.toNat = 2 ^ 64 - 1 := by
  constructor
  · intro ⟨gs', _, hexport, hvalid, _⟩
    by_contra hn
    have hbelow : EpochBelow (run abi env s₀ ops) := epochBelow_run h₀ hn ops
    obtain ⟨n, hcur, hlt⟩ := hbelow
    have hmax := exported_valid_max hexport hvalid
    cases hcur.symm.trans (exportGenesis_ok hexport).1
    omega
  · intro hn
    exact (blank_run h₀ hn ops).roundTrips (signersValid_run h₀ ops)

end

def defaultState : State := orElseKeep emptyState (initGenesis defaultGenesisState)

/-- The default state is stored, and its export is rejected at once. -/
theorem default_export_rejected : initGenesis defaultGenesisState = .ok defaultState ∧
    ∃ gs, exportGenesis defaultState = .ok gs ∧
      gs.validate = .error (.invalid "epoch history missing") := by
  have h₀ : initGenesis defaultGenesisState = .ok defaultState :=
    eq_ok_orElseKeep (by decide +kernel) emptyState
  have hexport : exportGenesis defaultState =
      .ok { defaultGenesisState with quorumsByEpoch := [] } := by decide +kernel
  exact ⟨h₀, _, hexport, by decide +kernel⟩

def lastGenesis : GenesisState :=
  ⟨⟨10, 1024, 10, 5760, 3072⟩, 18446744073709551615, [sampleSigner], []⟩

theorem export_round_trips_iff_last : ∃ s₀, initGenesis lastGenesis = .ok s₀ ∧
    RoundTrips (run sampleAbi sampleEnv s₀
      [.beginBlock sampleCtx, .updateSocket ⟨encodeHex sampleAccount, "b"⟩]) := by
  have h₀ := eq_ok_orElseKeep (x := initGenesis lastGenesis) (by decide +kernel) emptyState
  exact ⟨_, h₀, (export_round_trips_iff sampleAbi sampleEnv h₀ _).mpr (by decide +kernel)⟩

end ZgChain.Dasigners
