import ZgChain.Dasigners.LayoutSound

/-!
# Rows follow the stake

The rows of an epoch are shared among the signers whose registrations for it were accepted.
A vote is worth one row, or as many as the votes go into a quorum if there are too few for
one, and no signer gets more than one further row for a vote. So the rows of a signer are
never more than twice what its votes are worth.
-/

namespace ZgChain.Dasigners

open Bn254util

/-! ## Rows of an account -/

def rowsOf (quorums : Quorums) (account : String) : Nat := quorums.flatten.count account

/-- The rows that each vote is worth. -/
def rowsPerVote (slices total : Nat) : Nat := max 1 (slices / total)

/-- The rows of the accounts, each of them being in the list once for each vote. -/
structure Shared (slices cap : Nat) (accounts : List String) (quorums : Quorums) : Prop where
  atMost : ∀ account, rowsOf quorums account ≤ (rowsPerVote slices accounts.length + 1) *
    accounts.count account
  atLeast : quorums.length < cap → ∀ account,
    rowsPerVote slices accounts.length * accounts.count account ≤ rowsOf quorums account
  exact : quorums.length < cap → slices ∣ accounts.length ∨ accounts.length ∣ slices → ∀ account,
    rowsOf quorums account = rowsPerVote slices accounts.length * accounts.count account

section
variable {slices cap : Nat} {accounts : List String}

theorem rowsPerVote_of_le (hs : 0 < slices) (h : slices ≤ accounts.length) :
    rowsPerVote slices accounts.length = 1 := by
  have hle : slices / accounts.length ≤ 1 := by
    rw [Nat.div_le_iff_le_mul_add_pred (by omega)]
    omega
  unfold rowsPerVote
  omega

theorem rowsPerVote_of_lt (hn : 0 < accounts.length) (h : accounts.length < slices) :
    rowsPerVote slices accounts.length = slices / accounts.length := by
  have hpos : 0 < slices / accounts.length := Nat.div_pos h.le hn
  unfold rowsPerVote
  omega

theorem shared_cycled (hn : 0 < accounts.length) (h : accounts.length < slices) (cap : Nat) :
    Shared slices cap accounts [cycled slices accounts ""] := by
  have hbounds := fun account => count_cycled_bounds account hn slices ""
  have hrows : ∀ account, rowsOf [cycled slices accounts ""] account =
      (cycled slices accounts "").count account := by
    intro account
    rw [rowsOf, List.flatten_singleton]
  have hworth := rowsPerVote_of_lt hn h
  refine ⟨fun account => ?_, fun _ account => ?_, fun _ hdvd account => ?_⟩
  · rw [hrows, hworth]
    exact (hbounds account).2.1
  · rw [hrows, hworth]
    exact (hbounds account).1
  · rw [hrows, hworth]
    apply (hbounds account).2.2
    rcases hdvd with hdvd | hdvd
    · exact absurd (Nat.le_of_dvd hn hdvd) (by omega)
    · exact hdvd

/-- Whole quorums take each vote once, and the one of the last votes takes some of them again. -/
theorem shared_chunks (hs : 0 < slices) (h : slices ≤ accounts.length) {count : Nat}
    {rest : Quorums} (hrest : rest.flatten.Sublist accounts)
    (hall : (chunks slices count accounts ++ rest).length < cap →
      accounts.Sublist (chunks slices count accounts ++ rest).flatten)
    (hnone : slices ∣ accounts.length → rest = []) :
    Shared slices cap accounts (chunks slices count accounts ++ rest) := by
  have hrows : ∀ account, rowsOf (chunks slices count accounts ++ rest) account =
      (accounts.take (count * slices)).count account + rest.flatten.count account := by
    intro account
    rw [rowsOf, List.flatten_append, flatten_chunks, List.count_append]
  have htake : ∀ account, (accounts.take (count * slices)).count account ≤ accounts.count account :=
    fun account => (List.take_sublist _ _).count_le account
  have hworth := rowsPerVote_of_le hs h
  refine ⟨fun account => ?_, fun hcap account => ?_, fun hcap hdvd account => ?_⟩
  · have hlast := hrest.count_le account
    have hfirst := htake account
    rw [hrows, hworth]
    omega
  · rw [hworth, Nat.one_mul]
    exact (hall hcap).count_le account
  · have hdvd' : slices ∣ accounts.length := by
      rcases hdvd with hdvd | hdvd
      · exact hdvd
      · rw [Nat.le_antisymm h (Nat.le_of_dvd hs hdvd)]
    have hle := (hall hcap).count_le account
    have hrow := hrows account
    rw [hnone hdvd'] at hle hrow ⊢
    rw [List.flatten_nil, List.count_nil, Nat.add_zero] at hrow
    rw [← rowsOf, hrow] at hle
    rw [hworth, Nat.one_mul, hrow]
    exact Nat.le_antisymm (htake account) hle

theorem laidOut_shared (hs : 0 < slices) (cap : Nat) (ballots : List Ballot) :
    Shared slices cap (ballots.map Ballot.account)
      (laidOut slices cap (ballots.map Ballot.account)) := by
  by_cases hn : ballots.length = 0
  · rw [List.length_eq_zero_iff.mp hn]
    exact ⟨fun _ => Nat.zero_le _, fun _ _ => Nat.zero_le _, fun _ _ _ => rfl⟩
  · have hseated := (laidOut_layout hs (Nat.pos_of_ne_zero hn) cap).seated
    have hlen : (ballots.map Ballot.account).length = ballots.length := List.length_map _
    rw [← hlen] at hn
    generalize ballots.map Ballot.account = accounts at hn hseated ⊢
    unfold laidOut at hseated ⊢
    dsimp only at hseated ⊢
    rw [if_neg hn] at hseated ⊢
    by_cases hfew : accounts.length < slices
    · rw [if_pos hfew]
      exact shared_cycled (Nat.pos_of_ne_zero hn) hfew cap
    · rw [if_neg hfew] at hseated ⊢
      by_cases hleft : accounts.length % slices ≠ 0 ∧ min (accounts.length / slices) (cap + 1) < cap
      · rw [if_pos hleft] at hseated ⊢
        refine shared_chunks hs (by omega) ?_ hseated fun hdvd => absurd
          (Nat.mod_eq_zero_of_dvd hdvd) hleft.1
        rw [List.flatten_singleton]
        exact List.drop_sublist _ _
      · rw [if_neg hleft, ← List.append_nil (chunks _ _ _)] at hseated ⊢
        exact shared_chunks hs (by omega) (List.nil_sublist _) hseated fun _ => rfl

end

/-! ## Votes -/

def registeredKeys (s : State) (epoch : UInt64) : List Bytes :=
  (s.registrations.entries.filter fun e => (beBytes 8 epoch.toNat).isPrefixOf e.1).map
    fun e => e.1.drop 8

/-- The votes of a signer in an epoch: those of its stake up to the maximum, if it has
registered. -/
def votesOf (ctx : CallCtx) (s : State) (epoch : UInt64) (key : Bytes) : Nat :=
  match registration s epoch key, getDelegatorBonded ctx.staking key >>= votes s.params with
  | some _, .ok n => min n.toNat s.params.maxVotesPerSigner.toNat
  | _, _ => 0

def totalVotes (ctx : CallCtx) (s : State) (epoch : UInt64) : Nat :=
  ((registeredKeys s epoch).map (votesOf ctx s epoch)).sum

section
variable {abi : Precompile.Abi} {env : Env} {ctx : CallCtx} {s : State} {epoch : UInt64}

theorem iterateRegistrations_accounts (s : State) (epoch : UInt64) :
    (iterateRegistrations s epoch).map Prod.fst = (registeredKeys s epoch).map encodeHex := by
  rw [iterateRegistrations, registeredKeys, List.map_map, List.map_map]
  rfl

theorem mem_registeredKeys {key : Bytes} :
    key ∈ registeredKeys s epoch ↔ ∃ signature, registration s epoch key = some signature := by
  constructor
  · intro h
    have hmem : encodeHex key ∈ (iterateRegistrations s epoch).map Prod.fst := by
      rw [iterateRegistrations_accounts]
      exact List.mem_map_of_mem h
    obtain ⟨r, hr, hfst⟩ := List.mem_map.mp hmem
    obtain ⟨key', hreg, haccount⟩ := iterateRegistrations_key hr
    have hsame : key = key' := by
      have hdecoded := congrArg decodeHex (hfst.symm.trans haccount)
      rwa [decodeHex_encodeHex, decodeHex_encodeHex, Option.some.injEq] at hdecoded
    exact ⟨r.2, hsame ▸ hreg⟩
  · intro h
    obtain ⟨signature, hreg⟩ := h
    have hentry := (KVStore.get_eq_some_iff _ _ _).mp hreg
    refine List.mem_map.mpr ⟨_, List.mem_filter.mpr ⟨hentry, ?_⟩, ?_⟩
    · exact List.isPrefixOf_iff_prefix.mpr (List.prefix_append _ _)
    · exact List.drop_left' (length_beBytes 8 epoch.toNat)

section
variable (hv : s.params.maxVotesPerSigner.toNat < 2 ^ 31)
  (hkeys : ∀ key ∈ registeredKeys s epoch, key ≠ [])
  {ballots : List Ballot}
    (h : collectBallots env ctx s (iterateRegistrations s epoch) = .ok ballots)
include hv hkeys h

theorem count_ballots (key : Bytes) :
    (ballots.map Ballot.account).count (encodeHex key) = votesOf ctx s epoch key := by
  cases hreg : registration s epoch key with
  | some signature =>
    have hkey := hkeys key (mem_registeredKeys.mpr ⟨signature, hreg⟩)
    obtain ⟨bonded, n, hbonded, hn, hcount⟩ := ballots_of_account hv h hkey hreg
    simp only [votesOf, hreg, hbonded, ok_bind, hn]
    omega
  | none =>
    have hnone : encodeHex key ∉ ballots.map Ballot.account := by
      intro hmem
      obtain ⟨b, hb, haccount⟩ := List.mem_map.mp hmem
      obtain ⟨r, hr, hfst⟩ := collectBallots_account h hb
      have hregistered : encodeHex key ∈ (registeredKeys s epoch).map encodeHex := by
        rw [← iterateRegistrations_accounts]
        exact List.mem_map.mpr ⟨r, hr, hfst.trans haccount⟩
      obtain ⟨key', hkey', hsame⟩ := List.mem_map.mp hregistered
      have hdecoded := congrArg decodeHex hsame
      rw [decodeHex_encodeHex, decodeHex_encodeHex, Option.some.injEq] at hdecoded
      obtain ⟨signature, hreg'⟩ := mem_registeredKeys.mp (hdecoded ▸ hkey')
      cases hreg.symm.trans hreg'
    rw [List.count_eq_zero_of_not_mem hnone]
    simp only [votesOf, hreg]

theorem length_ballots : ballots.length = totalVotes ctx s epoch := by
  have hd := iterateRegistrations_nodup s epoch
  have hlength := length_collectBallots h (f := fun r => (ballots.map Ballot.account).count r.1) (by
    intro r hr own hown
    obtain ⟨own', hown', hcount⟩ := count_collectBallots h hd hr
    cases hown.symm.trans hown'
    exact hcount.symm)
  have haccounts := congrArg (List.map fun account => (ballots.map Ballot.account).count account)
    (iterateRegistrations_accounts s epoch)
  rw [List.map_map, List.map_map] at haccounts
  rw [hlength, totalVotes]
  refine congrArg List.sum (haccounts.trans (List.map_congr_left fun key _ => ?_))
  exact count_ballots hv hkeys h key

end

/-! ## The rows of an epoch -/

theorem Holds.of_sameEpoch {s' : State} {quorums : Quorums} (h : Holds s epoch quorums)
    (hsame : SameEpoch s s' epoch) :
    Holds s' epoch quorums := by
  obtain ⟨⟨count, hcount, hlength⟩, hquorum⟩ := h
  exact ⟨⟨count, hsame.1.trans hcount, hlength⟩,
    fun q quorum hq => (hsame.2 _).trans (hquorum q quorum hq)⟩

theorem registeredKeys_ne_nil {gs : GenesisState} {s₀ : State} (h₀ : initGenesis gs = .ok s₀)
    (ops : List Op) {key : Bytes}
    (h : key ∈ registeredKeys (run abi env s₀ ops) epoch) : key ≠ [] := by
  obtain ⟨signature, hreg⟩ := mem_registeredKeys.mp h
  obtain ⟨signer, _, hsigner, _⟩ := (registration_signed h₀ hreg).checked
  obtain ⟨_, _, haccount⟩ := Signer.validate_ok.mp (signersValid_run h₀ ops key signer hsigner)
  obtain ⟨bytes, hbytes, hlength⟩ := validateHexAddress_ok haccount
  cases ((run abi env s₀ ops).keyed key signer hsigner).symm.trans hbytes
  intro e
  rw [e] at hlength
  cases hlength

theorem registration_stays {op : Op} {s' : State} (h : Evolves abi env op s s') {key : Bytes}
    (hreg : ∃ signature, registration s epoch key = some signature) :
    ∃ signature, registration s' epoch key = some signature := by
  cases h with
  | keep _ hr =>
    unfold registration at hreg ⊢
    rwa [hr]
  | signer _ _ => exact hreg
  | socket _ _ => exact hreg
  | @register epoch' key' signature' _ =>
    by_cases e : getEpochRegistrationKey epoch key = getEpochRegistrationKey epoch' key'
    · refine ⟨signature', ?_⟩
      rw [registration, e]
      exact KVStore.get_set_self _ _ _
    · obtain ⟨signature, hreg⟩ := hreg
      exact ⟨signature, (KVStore.get_set_ne _ e _).trans hreg⟩

/-- The keys that are registered for an epoch are those of the accepted registrations. -/
theorem mem_registeredKeys_run {gs : GenesisState} {s₀ : State} (h₀ : initGenesis gs = .ok s₀)
    (ops : List Op) (key : Bytes) :
    key ∈ registeredKeys (run abi env s₀ ops) epoch ↔ ∃ before op after signature, ops = before ++
      op :: after ∧
      Accepts abi env (run abi env s₀ before) op epoch key signature := by
  rw [mem_registeredKeys]
  constructor
  · intro h
    obtain ⟨signature, hreg⟩ := h
    obtain ⟨before, op, after, hops, ha⟩ := registration_accepted h₀ ops hreg
    exact ⟨before, op, after, signature, hops, ha⟩
  · intro h
    obtain ⟨before, op, after, signature, rfl, ctx, msg, s', n, ho, hok, hn, rfl, hkey, rfl⟩ := h
    have hreg : ∃ signature, registration (step abi env (run abi env s₀ before) op) (n + 1) key =
        some signature := by
      obtain ⟨key', _, n', _, hkey', _, hn', _, _, rfl⟩ := registerNextEpoch_ok hok
      cases hkey.symm.trans hkey'
      cases hn.symm.trans hn'
      rw [step_registration ho hok]
      exact ⟨msg.signature, KVStore.get_set_self _ _ _⟩
    rw [run_append]
    have hstep : ∀ s₁ op', True → (∃ signature, registration s₁ (n + 1) key = some signature) →
        ∃ signature, registration (step abi env s₁ op') (n + 1) key = some signature :=
      fun s₁ op' _ h => registration_stays (step_evolves s₁ op') h
    exact runSteps_inv (step abi env) hstep hreg after fun _ _ => trivial

end

/-- In every run, the signers of a new epoch are those whose registrations for it were
accepted. Of the rows that the epoch has from then on, each of them gets at most one more
for a vote than a vote is worth; below the cap it gets what its votes are worth at least,
and just that if the votes and the rows of a quorum go into each other. -/
theorem rows_follow_stake (abi : Precompile.Abi) (env : Env) {gs : GenesisState} {s₀ : State}
    (h₀ : initGenesis gs = .ok s₀)
    (he : InRange gs.params.encodedSlices) (hm : gs.params.maxQuorums.toNat < 2 ^ 63)
    (hv : gs.params.maxVotesPerSigner.toNat < 2 ^ 31) (before : List Op) (ctx : CallCtx)
    (later : List Op) (epoch : UInt64) (hold : (run abi env s₀ before).epochNumber ≠ some epoch)
    (hnew : (run abi env s₀ (before ++ [.beginBlock ctx])).epochNumber = some epoch) :
    let s := run abi env s₀ before
    let slices := gs.params.encodedSlices.toNat
    let worth := rowsPerVote slices (totalVotes ctx s epoch)
    (∀ key, key ∈ registeredKeys s epoch ↔ ∃ earlier op between signature, before = earlier ++
      op :: between ∧
      Accepts abi env (run abi env s₀ earlier) op epoch key signature) ∧
    ∃ quorums, Holds (run abi env s₀ (before ++ .beginBlock ctx :: later)) epoch quorums ∧ ∀ key,
      rowsOf quorums (encodeHex key) ≤ (worth + 1) * votesOf ctx s epoch key ∧
      (quorums.length < gs.params.maxQuorums.toNat →
        worth * votesOf ctx s epoch key ≤ rowsOf quorums (encodeHex key) ∧
        (slices ∣ totalVotes ctx s epoch ∨ totalVotes ctx s epoch ∣ slices →
          rowsOf quorums (encodeHex key) = worth * votesOf ctx s epoch key)) := by
  intro s slices worth
  refine ⟨mem_registeredKeys_run h₀ before, ?_⟩
  have hparams : s.params = gs.params := (params_run s₀ before).trans (initGenesis_ok h₀).2.params
  have hlater : run abi env s₀ (before ++ .beginBlock ctx :: later) =
      run abi env (run abi env s₀ (before ++ [.beginBlock ctx])) later := by
    rw [← run_append, List.append_assoc]
    rfl
  have hkeeps : KeepsEpochs epoch (run abi env s₀ (before ++ [.beginBlock ctx]))
      (run abi env (run abi env s₀ (before ++ [.beginBlock ctx])) later) :=
        keepsEpochs_run hnew later
  have hsame := hkeeps.2 epoch (UInt64.le_refl epoch)
  rw [← hlater] at hsame
  rw [run_concat] at hsame hnew
  -- the block has entered the epoch, so it has not failed
  cases hblock : beginBlock env ctx s with
  | error err =>
    have hkept : step abi env s (.beginBlock ctx) = s := by
      rw [step, hblock]
      rfl
    rw [hkept] at hnew
    exact absurd hnew hold
  | ok s' =>
    have hstep : step abi env s (.beginBlock ctx) = s' := by
      rw [step, hblock]
      rfl
    rw [hstep] at hsame hnew
    obtain ⟨ballots, quorums, hb, hq, rfl⟩ := beginBlock_enters hblock hnew hold
    rw [selectQuorums_eq (by rwa [hparams]) (by rwa [hparams])] at hq
    cases hq
    have hle := length_laidOut_le s.params.encodedSlices.toNat s.params.maxQuorums.toNat
      ((sortBallots ballots).map Ballot.account)
    have hshared := laidOut_shared he.1 gs.params.maxQuorums.toNat (sortBallots ballots)
    rw [hparams] at hle hsame
    refine ⟨_, (setEpochQuorums_holds s epoch (lt_of_le_of_lt hle (by omega))).of_sameEpoch hsame,
      fun key => ?_⟩
    have hkeys : ∀ key ∈ registeredKeys s epoch, key ≠ [] :=
      fun key hkey => registeredKeys_ne_nil h₀ before hkey
    have hvotes := count_ballots (by rwa [hparams]) hkeys hb key
    have htotal := length_ballots (by rwa [hparams]) hkeys hb
    rw [← ((sortBallots_perm ballots).map Ballot.account).count_eq] at hvotes
    have hlength : ((sortBallots ballots).map Ballot.account).length = totalVotes ctx s epoch := by
      rw [List.length_map, (sortBallots_perm ballots).length_eq, htotal]
    have hatMost := hshared.atMost (encodeHex key)
    rw [hvotes, hlength] at hatMost
    refine ⟨hatMost, fun hcap => ⟨?_, fun hdvd => ?_⟩⟩
    · have hatLeast := hshared.atLeast hcap (encodeHex key)
      rwa [hvotes, hlength] at hatLeast
    · rw [← hlength] at hdvd
      have hexact := hshared.exact hcap hdvd (encodeHex key)
      rwa [hvotes, hlength] at hexact

/-- One vote, where a quorum has three rows. -/
theorem rows_follow_stake_short :
    totalVotes (blockCtx 2)
      (run sampleAbi sampleEnv shortState [.beginBlock (blockCtx 1), sampleMsgOp]) 1 = 1 ∧
    ∃ quorums, Holds (run sampleAbi sampleEnv shortState shortOps) 1 quorums ∧
      rowsOf quorums (encodeHex sampleAccount) = 3 := by
  have hrun : totalVotes (blockCtx 2)
      (run sampleAbi sampleEnv shortState [.beginBlock (blockCtx 1), sampleMsgOp]) 1 = 1 ∧
      votesOf (blockCtx 2)
        (run sampleAbi sampleEnv shortState [.beginBlock (blockCtx 1), sampleMsgOp]) 1
          sampleAccount = 1 ∧
      (run sampleAbi sampleEnv shortState [.beginBlock (blockCtx 1), sampleMsgOp]).epochNumber ≠
        some 1 ∧
      (run sampleAbi sampleEnv shortState shortOps).epochNumber = some 1 ∧
      getQuorumCount (run sampleAbi sampleEnv shortState shortOps) 1 = .ok 1 := by
    decide +kernel
  obtain ⟨htotal, hvotes, hold, hnew, hcount⟩ := hrun
  obtain ⟨_, quorums, hholds, hrows⟩ :=
    rows_follow_stake sampleAbi sampleEnv initGenesis_shortState (by decide) (by decide)
    (by decide) [.beginBlock (blockCtx 1), sampleMsgOp] (blockCtx 2) [] 1 hold hnew
  refine ⟨htotal, quorums, hholds, ?_⟩
  obtain ⟨count, hcount', hlength⟩ := hholds.count
  cases hcount.symm.trans hcount'
  have hone : quorums.length = 1 := hlength.symm
  have hexact := ((hrows sampleAccount).2 (by rw [hone]; decide)).2 (by rw [htotal]; decide)
  rw [htotal, hvotes] at hexact
  exact hexact

end ZgChain.Dasigners
