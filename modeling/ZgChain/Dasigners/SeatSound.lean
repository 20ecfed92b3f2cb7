import ZgChain.Dasigners.EpochSound

/-!
# Quorum seats

The seats of a quorum are texts of accounts. Those of the genesis history name
listed signers; those of a later epoch are written from the keys of registrations
for it, and a registration is accepted from a stored signer only. Signers stay with
their keys, so the sum of the keys that a bitmap selects can always be computed,
and it stays the same.
-/

namespace ZgChain.Dasigners

open Bn254util

section
variable {abi : Precompile.Abi} {env : Env} {op : Op} {s s' : State} {epoch : UInt64}

/-! ## From a seat back to a registration -/

theorem castBallots_account {c : Curve} {account : String} {n : Nat} {content : Bytes} {b : Ballot}
    (h : b ∈ castBallots c account n content) : b.account = account := by
  induction n generalizing content with
  | zero => cases h
  | succ n ih =>
    rcases List.mem_cons.mp h with rfl | h
    · rfl
    · exact ih h

theorem registrationBallots_account {ctx : CallCtx} {registration : String × Bytes}
    {ballots : List Ballot}
    (h : registrationBallots env ctx s registration = .ok ballots) {b : Ballot} (hb : b ∈ ballots) :
    b.account = registration.1 := by
  unfold registrationBallots at h
  split at h
  · cases h
    cases hb
  · simp only [bind_eq_ok, pure_eq_ok] at h
    obtain ⟨_, _, _, _, rfl⟩ := h
    exact castBallots_account hb

theorem collectBallots_account {ctx : CallCtx} {registrations : List (String × Bytes)}
    {ballots : List Ballot}
    (h : collectBallots env ctx s registrations = .ok ballots) {b : Ballot} (hb : b ∈ ballots) :
    ∃ registration ∈ registrations, registration.1 = b.account := by
  induction registrations generalizing ballots with
  | nil =>
    cases h
    cases hb
  | cons registration rest ih =>
    simp only [collectBallots, bind_eq_ok, pure_eq_ok] at h
    obtain ⟨first, hfirst, others, hothers, rfl⟩ := h
    rcases List.mem_append.mp hb with hb | hb
    · exact ⟨registration, List.mem_cons_self, (registrationBallots_account hfirst hb).symm⟩
    · obtain ⟨r, hr, e⟩ := ih hothers hb
      exact ⟨r, List.mem_cons_of_mem _ hr, e⟩

def DrawnFrom (ballots : List Ballot) (quorums : Quorums) : Prop :=
  ∀ quorum ∈ quorums, ∀ account ∈ quorum, ∃ b ∈ ballots, b.account = account

theorem fullQuorums_part (slices : Nat) (maxQuorums : Int) (steps count : Nat)
    (ballots : List Ballot) {quorum : Quorum}
    (h : quorum ∈ fullQuorums slices maxQuorums steps count ballots) :
    ∃ part, part ⊆ ballots ∧ part.length ≤ slices ∧ quorum = part.map Ballot.account := by
  induction steps generalizing count ballots with
  | zero => cases h
  | succ steps ih =>
    unfold fullQuorums at h
    split at h
    · rcases List.mem_cons.mp h with rfl | h
      · exact ⟨_, List.take_subset _ _, List.length_take_le _ _, rfl⟩
      · obtain ⟨part, hpart, hlen, e⟩ := ih _ _ h
        exact ⟨part, List.Subset.trans hpart (List.drop_subset _ _), hlen, e⟩
    · cases h

theorem cyclicQuorum_part (slices : Nat) {ballots : List Ballot} (h : 0 < ballots.length) :
    ∃ part, part ⊆ ballots ∧ part.length ≤ slices ∧
      cyclicQuorum slices ballots = part.map Ballot.account := by
  refine ⟨(List.range slices).map fun i => ballots.getD (i % ballots.length) ⟨"", []⟩, ?_, ?_, ?_⟩
  · intro b hb
    obtain ⟨i, _, rfl⟩ := List.mem_map.mp hb
    have hi : i % ballots.length < ballots.length := Nat.mod_lt _ h
    rw [List.getD_eq_getElem _ _ hi]
    exact List.getElem_mem hi
  · rw [List.length_map, List.length_range]
  · rw [cyclicQuorum, List.map_map]
    rfl

theorem toInt64_toNat_le (x : UInt64) : x.toInt64.toInt.toNat ≤ x.toNat := by
  rw [toInt_toInt64, Int.bmod_def]
  split
  · omega
  · omega

theorem selectFullQuorums_part {p : Params} {ballots : List Ballot} {quorums : Quorums}
    {quorum : Quorum} (h : selectFullQuorums p ballots = .ok quorums) (hq : quorum ∈ quorums) :
    ∃ part, part ⊆ ballots ∧ part.length ≤ p.encodedSlices.toInt64.toInt.toNat ∧
      quorum = part.map Ballot.account := by
  simp only [selectFullQuorums, bind_eq_ok] at h
  obtain ⟨_, _, _, _, h⟩ := h
  split at h
  · cases h
    rcases List.mem_append.mp hq with hq | hq
    · exact fullQuorums_part _ _ _ _ _ hq
    · refine ⟨_, List.drop_subset _ _, ?_, List.mem_singleton.mp hq⟩
      rw [List.length_drop]
      omega
  · cases h
    exact fullQuorums_part _ _ _ _ _ hq

theorem selectQuorums_part {p : Params} {ballots : List Ballot} {quorums : Quorums}
    {quorum : Quorum} (h : selectQuorums p ballots = .ok quorums) (hq : quorum ∈ quorums) :
    ∃ part, part ⊆ ballots ∧ part.length ≤ p.encodedSlices.toNat ∧
      quorum = part.map Ballot.account := by
  unfold selectQuorums at h
  split at h
  · obtain ⟨part, hpart, hlen, e⟩ := selectFullQuorums_part h hq
    exact ⟨part, hpart, le_trans hlen (toInt64_toNat_le _), e⟩
  · split at h
    · rename_i hpos
      simp only [bind_eq_ok, pure_eq_ok] at h
      obtain ⟨_, _, rfl⟩ := h
      rw [List.mem_singleton.mp hq]
      exact cyclicQuorum_part _ hpos
    · cases h
      exact ⟨[], List.nil_subset _, Nat.zero_le _, List.mem_singleton.mp hq⟩

theorem selectQuorums_drawn {p : Params} {ballots : List Ballot} {quorums : Quorums}
    (h : selectQuorums p ballots = .ok quorums) : DrawnFrom ballots quorums := by
  intro quorum hq account ha
  obtain ⟨part, hpart, _, rfl⟩ := selectQuorums_part h hq
  obtain ⟨b, hb, e⟩ := List.mem_map.mp ha
  exact ⟨b, hpart hb, e⟩

theorem selectQuorums_rows_le {p : Params} {ballots : List Ballot} {quorums : Quorums}
    {quorum : Quorum} (h : selectQuorums p ballots = .ok quorums) (hq : quorum ∈ quorums) :
    quorum.length ≤ p.encodedSlices.toNat := by
  obtain ⟨part, _, hlen, rfl⟩ := selectQuorums_part h hq
  rwa [List.length_map]

theorem iterateRegistrations_key {r : String × Bytes} (h : r ∈ iterateRegistrations s epoch) :
    ∃ key, registration s epoch key = some r.2 ∧ r.1 = encodeHex key := by
  obtain ⟨e, he, rfl⟩ := List.mem_map.mp h
  obtain ⟨hmem, hp⟩ := List.mem_filter.mp he
  obtain ⟨key, hkey⟩ := List.isPrefixOf_iff_prefix.mp hp
  have hdrop : e.1.drop 8 = key := by
    rw [← hkey]
    exact List.drop_left' (length_beBytes 8 epoch.toNat)
  refine ⟨key, ?_, by rw [hdrop]⟩
  rw [registration, getEpochRegistrationKey, hkey]
  exact (KVStore.get_eq_some_iff _ _ _).mpr hmem

/-- The quorum is one of those that a block makes of the registrations for the epoch. -/
def Drawn (env : Env) (ctx : CallCtx) (s : State) (epoch : UInt64) (quorum : Quorum) : Prop :=
  ∃ ballots quorums, collectBallots env ctx s (iterateRegistrations s epoch) = .ok ballots ∧
    selectQuorums s.params (sortBallots ballots) = .ok quorums ∧ quorum ∈ quorums

theorem Drawn.seat {ctx : CallCtx} {quorum : Quorum} (h : Drawn env ctx s epoch quorum)
    {account : String} (ha : account ∈ quorum) : ∃ key signature, account = encodeHex key ∧
    registration s epoch key = some signature := by
  obtain ⟨ballots, quorums, hb, hq, hmem⟩ := h
  obtain ⟨b, hsorted, rfl⟩ := selectQuorums_drawn hq quorum hmem account ha
  obtain ⟨r, hr, e⟩ := collectBallots_account hb ((List.mem_insertionSort _).mp hsorted)
  obtain ⟨key, hreg, hkey⟩ := iterateRegistrations_key hr
  exact ⟨key, r.2, e.symm.trans hkey, hreg⟩

theorem enterEpoch_drawn {ctx : CallCtx} (h : enterEpoch env ctx s epoch = .ok s') :
    ∃ quorums : Quorums, s' = setEpochNumber (setEpochQuorums s epoch quorums) epoch ∧
      ∀ quorum ∈ quorums, Drawn env ctx s epoch quorum := by
  obtain ⟨ballots, quorums, hb, hq, rfl⟩ := enterEpoch_ok.mp h
  exact ⟨quorums, rfl, fun quorum hmem => ⟨ballots, quorums, hb, hq, hmem⟩⟩

theorem registration_accepted {gs : GenesisState} {s₀ : State} (h₀ : initGenesis gs = .ok s₀)
    (ops : List Op)
    {key signature : Bytes} (h : registration (run abi env s₀ ops) epoch key = some signature) :
    ∃ before op after, ops = before ++ op :: after ∧
      Accepts abi env (run abi env s₀ before) op epoch key signature := by
  induction ops using List.reverseRecOn with
  | nil =>
    rw [run, runSteps_nil, registration, (initGenesis_ok h₀).2.registrations] at h
    cases h
  | append_singleton ops op ih =>
    rw [run_concat] at h
    rcases (step_evolves (run abi env s₀ ops) op).registration h with ha | hb
    · exact ⟨ops, op, [], rfl, ha⟩
    · obtain ⟨before, op', after, rfl, ha⟩ := ih hb
      exact ⟨before, op', after ++ [op], by simp, ha⟩

/-! ## Seats have signers -/

def HasSigner (s : State) (account : String) : Prop :=
  ∃ signer, getSigner s account = .ok (some signer)

def Seated (s : State) : Prop :=
  ∀ key quorum, s.epochQuorums.get key = some quorum → ∀ account ∈ quorum, HasSigner s account

theorem HasSigner.mono {account : String} (hk : KeepsKeys s s') (h : HasSigner s account) :
    HasSigner s' account := by
  obtain ⟨signer, h⟩ := h
  obtain ⟨key, hkey, hs⟩ := getSigner_ok.mp h
  obtain ⟨signer', hs', _⟩ := hk key signer hs
  exact ⟨signer', getSigner_ok.mpr ⟨key, hkey, hs'⟩⟩

theorem Turns.seated (h : Turns env op s s') (hk : KeepsKeys s s')
    (hi : RegistrationInv env (fun _ => True) s) (hs : Seated s) : Seated s' := by
  intro key quorum hq account ha
  apply HasSigner.mono hk
  cases h with
  | keep _ _ _ he =>
    rw [he] at hq
    exact hs key quorum hq account ha
  | enter _ _ _ _ h =>
    obtain ⟨quorums, rfl, hdrawn⟩ := enterEpoch_drawn h
    rcases mem_of_get_putEpochQuorums hq with hmem | hold
    · obtain ⟨k, signature, rfl, hreg⟩ := (hdrawn quorum hmem).seat ha
      obtain ⟨signer, _, hsigner, _⟩ := (hi _ k signature hreg).2.checked
      exact ⟨signer, getSigner_ok.mpr ⟨k, decodeHex_encodeHex k, hsigner⟩⟩
    · exact hs key quorum hold account ha

theorem mem_of_get_setQuorumsByEpoch {quorumsByEpoch : List Quorums} {i : Nat} {key : Bytes}
    {quorum : Quorum}
    (h : (setQuorumsByEpoch i quorumsByEpoch s).epochQuorums.get key = some quorum) :
    quorum ∈ quorumsByEpoch.flatten ∨ s.epochQuorums.get key = some quorum := by
  induction quorumsByEpoch generalizing i s with
  | nil => exact .inr h
  | cons quorums rest ih =>
    rw [List.flatten_cons, List.mem_append]
    rcases ih h with hmem | hq
    · exact .inl (.inr hmem)
    · rcases mem_of_get_putEpochQuorums hq with hmem | hold
      · exact .inl (.inl hmem)
      · exact .inr hold

theorem seated_genesis {gs : GenesisState} (h₀ : initGenesis gs = .ok s) : Seated s := by
  obtain ⟨hv, hst⟩ := initGenesis_ok h₀
  obtain ⟨s₁, _, hempty, _, hquorums⟩ := hst.history
  obtain ⟨_, _, hseats⟩ := GenesisState.validate_ok.mp hv
  intro key quorum hq account ha
  rw [hquorums] at hq
  rcases mem_of_get_setQuorumsByEpoch hq with hmem | hold
  · have hseat := hseats account (List.mem_flatten.mpr ⟨quorum, hmem, ha⟩)
    simp only [validateSeat, bind_eq_ok, rejectIf_eq_ok, not_not] at hseat
    obtain ⟨_, haddr, hlisted⟩ := hseat
    obtain ⟨k, hk, _⟩ := validateHexAddress_ok haddr
    obtain ⟨signer, hsigner, rfl⟩ := List.mem_map.mp hlisted
    obtain ⟨signer', hget⟩ : ∃ signer', s.signers.get k = some signer' := by
      rw [hst.signers]
      exact KVStore.exists_get_setAll (.inl ⟨signer, hsigner, signerKey_of_decodes hk⟩)
    exact ⟨signer', getSigner_ok.mpr ⟨k, hk, hget⟩⟩
  · rw [hempty] at hold
    cases hold

theorem seated_run {gs : GenesisState} {s₀ : State} (h₀ : initGenesis gs = .ok s₀) (ops : List Op) :
    Seated (run abi env s₀ ops) := by
  induction ops using List.reverseRecOn with
  | nil => exact seated_genesis h₀
  | append_singleton ops op ih =>
    rw [run_concat]
    have hinv : RegistrationInv env (fun _ => True) (run abi env s₀ ops) :=
      RegistrationInv.run h₀ fun _ _ _ _ _ => trivial
    exact (step_turns _ op).seated (step_evolves _ op).keepsKeys hinv ih

/-! ## Epochs after genesis -/

def Bounded (s : State) : Prop :=
  ∃ n, s.epochNumber = some n ∧ ∀ epoch count, getQuorumCount s epoch = .ok count → epoch ≤ n

theorem Turns.bounded (h : Turns env op s s') (hb : Bounded s) : Bounded s' := by
  obtain ⟨n, hn, hle⟩ := hb
  cases h with
  | keep _ hn' hc hq =>
    refine ⟨n, hn'.trans hn, fun epoch count h => ?_⟩
    rw [(SameEpoch.of_stores hc hq epoch).1] at h
    exact hle epoch count h
  | enter _ hn' hlt _ h =>
    cases hn.symm.trans hn'
    obtain ⟨_, quorums, _, _, rfl⟩ := enterEpoch_ok.mp h
    refine ⟨n + 1, rfl, fun epoch count h => ?_⟩
    by_cases e : epoch = n + 1
    · exact UInt64.le_of_eq e
    · have h' : getQuorumCount s epoch = .ok count :=
        (setEpochQuorums_other e s quorums).1.symm.trans h
      exact UInt64.le_trans (hle epoch count h') (UInt64.le_of_lt hlt)

theorem setQuorumsByEpoch_count {quorumsByEpoch : List Quorums} {i : Nat} {count : UInt64}
    (h : getQuorumCount (setQuorumsByEpoch i quorumsByEpoch s) epoch = .ok count) :
    (∃ k, k < i + quorumsByEpoch.length ∧ epoch = UInt64.ofNat k) ∨
    getQuorumCount s epoch = .ok count := by
  induction quorumsByEpoch generalizing i s with
  | nil => exact .inr h
  | cons quorums rest ih =>
    rcases ih h with ⟨k, hk, e⟩ | h
    · refine .inl ⟨k, ?_, e⟩
      rw [List.length_cons]
      omega
    · by_cases e : epoch = UInt64.ofNat i
      · exact .inl ⟨i, by simp, e⟩
      · exact .inr ((setEpochQuorums_other e s quorums).1.symm.trans h)

theorem bounded_genesis {gs : GenesisState} (h₀ : initGenesis gs = .ok s) : Bounded s := by
  obtain ⟨hv, hst⟩ := initGenesis_ok h₀
  obtain ⟨s₁, hempty, _, hc, hq⟩ := hst.history
  refine ⟨gs.epochNumber, hst.epochNumber, fun epoch count h => ?_⟩
  rw [(SameEpoch.of_stores hc hq epoch).1] at h
  rcases setQuorumsByEpoch_count h with ⟨k, hk, rfl⟩ | h
  · rw [UInt64.le_iff_toNat_le, UInt64.toNat_ofNat']
    have hmod : k % 2 ^ 64 ≤ k := Nat.mod_le _ _
    rcases GenesisState.history_length hv with ⟨hl, _⟩ | ⟨hl, _⟩
    · omega
    · omega
  · rw [getQuorumCount_ok, hempty] at h
    cases h

theorem bounded_run {gs : GenesisState} {s₀ : State} (h₀ : initGenesis gs = .ok s₀)
    (ops : List Op) :
    Bounded (run abi env s₀ ops) :=
  runSteps_inv (step abi env) (P := fun _ => True) (fun s₁ op _ h => (step_turns s₁ op).bounded h)
    (bounded_genesis h₀)
    ops fun _ _ => trivial

theorem Bounded.epoch_le {n quorumId : UInt64} {quorum : Quorum} (hb : Bounded s)
    (hn : s.epochNumber = some n)
    (h : getEpochQuorum s epoch quorumId = .ok quorum) : epoch ≤ n := by
  obtain ⟨n', hn', hle⟩ := hb
  cases hn.symm.trans hn'
  obtain ⟨count, hc, _⟩ := getEpochQuorum_ok.mp h
  exact hle epoch count hc

/-- A quorum of an epoch after genesis was made by the block that entered the epoch. -/
theorem drawn_of_stored {gs : GenesisState} {s₀ : State} (h₀ : initGenesis gs = .ok s₀)
    (ops : List Op) (hlt : gs.epochNumber < epoch) {quorumId : UInt64} {quorum : Quorum}
    (h : getEpochQuorum (run abi env s₀ ops) epoch quorumId = .ok quorum) :
    ∃ before after ctx, ops = before ++ after ∧
      Drawn env ctx (run abi env s₀ before) epoch quorum := by
  induction ops using List.reverseRecOn with
  | nil =>
    have hle := (bounded_genesis h₀).epoch_le (initGenesis_ok h₀).2.epochNumber h
    exact absurd (UInt64.lt_of_lt_of_le hlt hle) (UInt64.lt_irrefl _)
  | append_singleton ops op ih =>
    have hearlier : getEpochQuorum (run abi env s₀ ops) epoch quorumId = .ok quorum →
        ∃ before after ctx, ops ++ [op] = before ++ after ∧
        Drawn env ctx (run abi env s₀ before) epoch quorum := by
      intro h
      obtain ⟨before, after, ctx, rfl, hdrawn⟩ := ih h
      exact ⟨before, after ++ [op], ctx, List.append_assoc _ _ _, hdrawn⟩
    rw [run_concat] at h
    have hturn : Turns env op (run abi env s₀ ops) (step abi env (run abi env s₀ ops) op) :=
      step_turns _ op
    generalize step abi env (run abi env s₀ ops) op = s' at hturn h
    cases hturn with
    | keep _ _ hc hq =>
      rw [(SameEpoch.of_stores hc hq epoch).2] at h
      exact hearlier h
    | @enter ctx n _ _ _ _ _ he =>
      obtain ⟨quorums, rfl, hdrawn⟩ := enterEpoch_drawn he
      by_cases e : epoch = n + 1
      · subst e
        obtain ⟨count, hc, hid, _⟩ := getEpochQuorum_ok.mp h
        cases (getQuorumCount_setEpochQuorums (run abi env s₀ ops) (n + 1) quorums).symm.trans hc
        obtain ⟨quorum', hq', hmem⟩ :=
          getEpochQuorum_setEpochQuorums (run abi env s₀ ops) (n + 1) hid
        cases hq'.symm.trans h
        exact ⟨ops, [op], ctx, rfl, hdrawn quorum hmem⟩
      · rw [show getEpochQuorum
          (setEpochNumber (setEpochQuorums (run abi env s₀ ops) (n + 1) quorums) (n + 1)) epoch
          quorumId = _ from (setEpochQuorums_other e _ quorums).2 quorumId] at h
        exact hearlier h

/-- The account was seated because a registration for the epoch was accepted before it. -/
def SeatAccepted (abi : Precompile.Abi) (env : Env) (s₀ : State) (ops : List Op) (epoch : UInt64)
    (account : String) :
    Prop :=
  ∃ before op after key signature, ops = before ++ op :: after ∧ decodeHex account = some key ∧
    Accepts abi env (run abi env s₀ before) op epoch key signature

theorem seats_accepted {gs : GenesisState} {s₀ : State} (h₀ : initGenesis gs = .ok s₀)
    (ops : List Op) (hlt : gs.epochNumber < epoch) {quorumId : UInt64} {quorum : Quorum}
    (h : getEpochQuorum (run abi env s₀ ops) epoch quorumId = .ok quorum) {account : String}
    (ha : account ∈ quorum) :
    SeatAccepted abi env s₀ ops epoch account := by
  obtain ⟨entered, later, ctx, rfl, hdrawn⟩ := drawn_of_stored h₀ ops hlt h
  obtain ⟨key, signature, rfl, hreg⟩ := hdrawn.seat ha
  obtain ⟨before, op, after, rfl, hacc⟩ := registration_accepted h₀ entered hreg
  exact ⟨before, op, after ++ later, key, signature, by simp, decodeHex_encodeHex key, hacc⟩

/-! ## Aggregate keys -/

namespace Query

theorem getSigner_keeps {account : String} {signer : Signer} (hk : KeepsKeys s s')
    (h : getSigner s account = .ok (some signer)) :
    ∃ signer', getSigner s' account = .ok (some signer') ∧ signer'.pubkeyG1 = signer.pubkeyG1 := by
  obtain ⟨key, hkey, hs⟩ := getSigner_ok.mp h
  obtain ⟨signer', hs', hpub, _⟩ := hk key signer hs
  exact ⟨signer', getSigner_ok.mpr ⟨key, hkey, hs'⟩, hpub⟩

theorem addRow_keeps {bitmap : Bytes} {i : Nat} {acc acc' : Aggregate} {account : String}
    (hk : KeepsKeys s s') (h : addRow env s bitmap i acc account = .ok acc') :
    addRow env s' bitmap i acc account = .ok acc' := by
  unfold addRow at h ⊢
  split
  · rename_i hadded
    rwa [if_pos hadded] at h
  · rename_i hadded
    rw [if_neg hadded, bind_eq_ok] at h
    obtain ⟨b, hb, h⟩ := h
    rw [hb, ok_bind]
    split
    · rename_i hb
      rwa [if_pos hb] at h
    · rename_i hb
      rw [if_neg hb] at h
      simp only [addKey, bind_eq_ok, orReject_eq_ok] at h
      obtain ⟨_, hs, signer, rfl, pubkeyG1, hp, h⟩ := h
      obtain ⟨signer', hs', hpub⟩ := getSigner_keeps hk hs
      rw [addKey, hs', ok_bind]
      simp only [orReject, ok_bind, hpub, hp]
      exact h

theorem addRows_keeps {bitmap : Bytes} {i : Nat} {acc acc' : Aggregate} {quorum : Quorum}
    (hk : KeepsKeys s s') (h : addRows env s bitmap i acc quorum = .ok acc') :
    addRows env s' bitmap i acc quorum = .ok acc' := by
  induction quorum generalizing i acc with
  | nil => exact h
  | cons account rest ih =>
    rw [addRows, bind_eq_ok] at h
    obtain ⟨acc₁, hrow, h⟩ := h
    rw [addRows, addRow_keeps hk hrow, ok_bind]
    exact ih h

theorem addRow_returns (env : Env) {bitmap : Bytes} {i : Nat} (acc : Aggregate) {account : String}
    (hv : SignersValid s) (hs : HasSigner s account) (hi : i / 8 < bitmap.length) :
    ∃ acc', addRow env s bitmap i acc account = .ok acc' := by
  unfold addRow
  split
  · exact ⟨_, rfl⟩
  · rw [rowBit, List.getElem?_eq_getElem hi]
    simp only [orReject, ok_bind, pure, Except.pure]
    split
    · exact ⟨_, rfl⟩
    · obtain ⟨signer, hsigner⟩ := hs
      obtain ⟨key, _, hget⟩ := getSigner_ok.mp hsigner
      obtain ⟨hlen, _⟩ := Signer.validate_ok.mp (hv key signer hget)
      rw [addKey, hsigner, ok_bind]
      simp only [orReject, ok_bind, deserializeG1, if_pos hlen.ge]
      exact ⟨_, rfl⟩

theorem addRows_returns (env : Env) {bitmap : Bytes} {i : Nat} (acc : Aggregate) {quorum : Quorum}
    (hv : SignersValid s) (hs : ∀ account ∈ quorum, HasSigner s account)
    (hi : ∀ j < quorum.length, (i + j) / 8 < bitmap.length) :
    ∃ acc', addRows env s bitmap i acc quorum = .ok acc' := by
  induction quorum generalizing i acc with
  | nil => exact ⟨acc, rfl⟩
  | cons account rest ih =>
    obtain ⟨acc₁, hrow⟩ :=
      addRow_returns env acc hv (hs account List.mem_cons_self) (hi 0 (by simp))
    rw [Nat.add_zero] at hrow
    rw [addRows, hrow, ok_bind]
    refine ih acc₁ (fun account' h => hs account' (List.mem_cons_of_mem _ h)) fun j hj => ?_
    rw [show i + 1 + j = i + (j + 1) by omega]
    exact hi (j + 1) (by simpa using hj)

theorem aggregatePubkeyG1_ok {quorumId : UInt64} {bitmap : Bytes} {r : AggregatePubkeyG1Response} :
    aggregatePubkeyG1 env s epoch quorumId bitmap = .ok r ↔
    ∃ quorum acc, getEpochQuorum s epoch quorumId = .ok quorum ∧
      (quorum.length + 7) / 8 = bitmap.length ∧
      addRows env s bitmap 0 ⟨⟨0, 0⟩, 0, []⟩ quorum = .ok acc ∧
      r = ⟨serializeG1 acc.pubkeyG1, UInt64.ofNat quorum.length, UInt64.ofNat acc.hit⟩ := by
  simp only [aggregatePubkeyG1, bind_eq_ok, rejectIf_eq_ok, not_not, pure_eq_ok]
  constructor
  · intro h
    obtain ⟨quorum, hq, _, hl, acc, hacc, e⟩ := h
    exact ⟨quorum, acc, hq, hl, hacc, e.symm⟩
  · intro h
    obtain ⟨quorum, acc, hq, hl, hacc, e⟩ := h
    exact ⟨quorum, hq, (), hl, acc, hacc, e.symm⟩

end Query

/-- Keys stay with their signers. Every seat of every stored quorum has a signer, and in an
epoch entered after genesis every seat goes back to a registration that was accepted
in the epoch before. The sum of the keys of any quorum under a bitmap of its length is
returned, and every later state returns it again. -/
theorem seats_belong_to_signers (abi : Precompile.Abi) (env : Env) {gs : GenesisState} {s₀ : State}
    (h₀ : initGenesis gs = .ok s₀) (ops : List Op) :
    (∀ later key signer, (run abi env s₀ ops).signers.get key = some signer →
      ∃ signer', (run abi env s₀ (ops ++ later)).signers.get key = some signer' ∧
        signer'.pubkeyG1 = signer.pubkeyG1 ∧ signer'.pubkeyG2 = signer.pubkeyG2) ∧
    (∀ key quorum, (run abi env s₀ ops).epochQuorums.get key = some quorum → ∀ account ∈ quorum,
      ∃ signer, getSigner (run abi env s₀ ops) account = .ok (some signer)) ∧
    (∀ epoch quorumId quorum, gs.epochNumber < epoch →
      getEpochQuorum (run abi env s₀ ops) epoch quorumId = .ok quorum → ∀ account ∈ quorum,
      ∃ before op after key signature, ops = before ++ op :: after ∧ decodeHex account = some key ∧
        (run abi env s₀ before).epochNumber = some (epoch - 1) ∧
        Accepts abi env (run abi env s₀ before) op epoch key signature) ∧
    (∀ epoch quorumId quorum bitmap, getEpochQuorum (run abi env s₀ ops) epoch quorumId =
      .ok quorum →
      (quorum.length + 7) / 8 = bitmap.length →
      ∃ r, ∀ later,
        Query.aggregatePubkeyG1 env (run abi env s₀ (ops ++ later)) epoch quorumId bitmap =
          .ok r) := by
  refine ⟨?_, ?_, ?_, ?_⟩
  · intro later key signer hs
    rw [run_append]
    exact keepsKeys_run _ later key signer hs
  · exact seated_run h₀ ops
  · intro epoch quorumId quorum hlt h account ha
    obtain ⟨before, op, after, key, signature, e, hk, hacc⟩ := seats_accepted h₀ ops hlt h ha
    obtain ⟨_, _, _, n, _, _, hn, rfl, _, _⟩ := id hacc
    refine ⟨before, op, after, key, signature, e, hk, ?_, hacc⟩
    rw [hn, UInt64.add_sub_cancel]
  · intro epoch quorumId quorum bitmap h hl
    have hseats : ∀ account ∈ quorum, HasSigner (run abi env s₀ ops) account := by
      obtain ⟨_, _, _, hq⟩ := getEpochQuorum_ok.mp h
      exact seated_run h₀ ops _ quorum hq
    have hbits : ∀ j < quorum.length, (0 + j) / 8 < bitmap.length := by
      intro j hj
      omega
    obtain ⟨acc, hacc⟩ :=
      Query.addRows_returns env ⟨⟨0, 0⟩, 0, []⟩ (signersValid_run h₀ ops) hseats hbits
    refine ⟨_, fun later => Query.aggregatePubkeyG1_ok.mpr ⟨quorum, acc, ?_, hl, ?_, rfl⟩⟩
    · have hb : Bounded (run abi env s₀ ops) := bounded_run h₀ ops
      obtain ⟨n, hn, _⟩ := id hb
      have hle := hb.epoch_le hn h
      rw [run_append, ((keepsEpochs_run hn later).2 epoch hle).2]
      exact h
    · rw [run_append]
      exact Query.addRows_keeps (keepsKeys_run _ later) hacc

end

theorem getEpochQuorum_shortOps : getEpochQuorum (run sampleAbi sampleEnv shortState shortOps) 1 0 =
    .ok (List.replicate 3 (encodeHex sampleAccount)) := by decide +kernel

theorem seats_belong_to_signers_short :
    getEpochQuorum (run sampleAbi sampleEnv shortState shortOps) 1 0 =
      .ok (List.replicate 3 (encodeHex sampleAccount)) ∧
    (∃ before op after signature, shortOps = before ++ op :: after ∧
      (run sampleAbi sampleEnv shortState before).epochNumber = some 0 ∧
      Accepts sampleAbi sampleEnv (run sampleAbi sampleEnv shortState before) op 1 sampleAccount
        signature) ∧
    ∃ r, ∀ later, Query.aggregatePubkeyG1 sampleEnv
      (run sampleAbi sampleEnv shortState (shortOps ++ later)) 1 0 [5] =
      .ok r := by
  have hq := getEpochQuorum_shortOps
  obtain ⟨_, _, haccepted, haggregate⟩ :=
    seats_belong_to_signers sampleAbi sampleEnv initGenesis_shortState shortOps
  obtain ⟨before, op, after, key, signature, e, hk, hn, hacc⟩ :=
    haccepted 1 0 _ (by decide +kernel) hq (encodeHex sampleAccount) List.mem_cons_self
  rw [decodeHex_encodeHex] at hk
  cases hk
  exact ⟨hq, ⟨before, op, after, signature, e, hn, hacc⟩, haggregate 1 0 _ [5] hq rfl⟩

end ZgChain.Dasigners
