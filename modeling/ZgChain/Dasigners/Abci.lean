import ZgChain.Dasigners.Keeper

/-!
# Data availability signers: begin blocker and genesis

At the first block of an epoch the registrations for it are turned into ballots:
a signer's first ballot is the stored signature and each further one the hash of
the one before. The ballots, sorted by content, are laid out in quorums.
-/

namespace ZgChain.Dasigners

open Bn254util

/-! ## Ballots -/

structure Ballot where
  account : String
  content : Bytes
  deriving DecidableEq, Repr

def castBallots (c : Curve) (account : String) : Nat → Bytes → List Ballot
  | 0, _ => []
  | num + 1, content => ⟨account, content⟩ :: castBallots c account num (c.keccak256 content)

def ballotNum (p : Params) (num : Int) : Nat :=
  (if p.maxVotesPerSigner.toInt64.toInt < num then p.maxVotesPerSigner.toInt64.toInt else num).toNat

def registrationBallots (env : Env) (ctx : CallCtx) (s : State) (registration : String × Bytes) :
    Except Error (List Ballot) :=
  match accAddressFromHexUnsafe registration.1 with
  -- an account that cannot be read is skipped
  | .error _ => .ok []
  | .ok accAddr => do
    let bonded ← getDelegatorBonded ctx.staking accAddr
    let num ← votes s.params bonded
    return castBallots env.curve registration.1 (ballotNum s.params num) registration.2

def collectBallots (env : Env) (ctx : CallCtx) (s : State) :
    List (String × Bytes) → Except Error (List Ballot)
  | [] => .ok []
  | registration :: rest => do
    let ballots ← registrationBallots env ctx s registration
    let others ← collectBallots env ctx s rest
    return ballots ++ others

def sortBallots (ballots : List Ballot) : List Ballot :=
  ballots.insertionSort fun a b => a.content ≤ b.content

/-! ## Quorums -/

def maxSliceLen : Nat := 2 ^ 44

def makesliceOutOfRange : Error := .panic "runtime error: makeslice: len out of range"

/-- Fill quorums one after the other, `count` of them being there, until the
ballots run out or there are more than `maxQuorums`. A step uses up a ballot or more. -/
def fullQuorums (slices : Nat) (maxQuorums : Int) : Nat → Nat → List Ballot → Quorums
  | 0, _, _ => []
  | steps + 1, count, ballots =>
    if slices ≤ ballots.length ∧ ¬ maxQuorums < count then
      (ballots.take slices).map Ballot.account :: fullQuorums slices maxQuorums steps (count + 1)
        (ballots.drop slices)
    else []

def selectFullQuorums (p : Params) (ballots : List Ballot) : Except Error Quorums := do
  let slices := p.encodedSlices.toInt64.toInt
  let maxQuorums := p.maxQuorums.toInt64.toInt
  -- without a slice the loop does not advance and the division after it panics
  rejectIf (slices = 0) divideByZero
  rejectIf (0 ≤ maxQuorums ∧ maxSliceLen < p.encodedSlices.toNat) makesliceOutOfRange
  let quorums := fullQuorums slices.toNat maxQuorums ballots.length 0 ballots
  if (ballots.length : Int) % slices ≠ 0 ∧ (quorums.length : Int) < maxQuorums then
    return quorums ++ [(ballots.drop (ballots.length - slices.toNat)).map Ballot.account]
  else
    return quorums

def cyclicQuorum (slices : Nat) (ballots : List Ballot) : Quorum :=
  (List.range slices).map fun i => (ballots.getD (i % ballots.length) ⟨"", []⟩).account

def selectQuorums (p : Params) (ballots : List Ballot) : Except Error Quorums :=
  if p.encodedSlices.toInt64.toInt ≤ ballots.length then selectFullQuorums p ballots
  else if 0 < ballots.length then do
    rejectIf (maxSliceLen < p.encodedSlices.toNat) makesliceOutOfRange
    return [cyclicQuorum p.encodedSlices.toNat ballots]
  else .ok [[]]

def enterEpoch (env : Env) (ctx : CallCtx) (s : State) (epoch : UInt64) : Except Error State := do
  let ballots ← collectBallots env ctx s (iterateRegistrations s epoch)
  let quorums ← selectQuorums s.params (sortBallots ballots)
  return setEpochNumber (setEpochQuorums s epoch quorums) epoch

def beginBlock (env : Env) (ctx : CallCtx) (s : State) : Except Error State := do
  let epochNumber ← getEpochNumber s
  rejectIf (s.params.epochBlocks = 0) divideByZero
  let expectedEpoch := UInt64.ofNat ctx.block.blockHeight / s.params.epochBlocks
  if expectedEpoch = epochNumber then return s
  rejectIf (epochNumber + 1 < expectedEpoch ∨ expectedEpoch < epochNumber)
    (.panic "block height is not continuous")
  enterEpoch env ctx s expectedEpoch

/-! ## What a block does -/

section
variable {env : Env} {ctx : CallCtx} {s s' : State}

theorem enterEpoch_ok {epoch : UInt64} : enterEpoch env ctx s epoch = .ok s' ↔ ∃ ballots quorums,
    collectBallots env ctx s (iterateRegistrations s epoch) = .ok ballots ∧
    selectQuorums s.params (sortBallots ballots) = .ok quorums ∧
    s' = setEpochNumber (setEpochQuorums s epoch quorums) epoch := by
  simp only [enterEpoch, bind_eq_ok, pure_eq_ok]
  constructor
  · intro h
    obtain ⟨ballots, hb, quorums, hq, h⟩ := h
    exact ⟨ballots, quorums, hb, hq, h.symm⟩
  · intro h
    obtain ⟨ballots, quorums, hb, hq, h⟩ := h
    exact ⟨ballots, hb, quorums, hq, h.symm⟩

/-- The only epoch that a block can enter is the next one, and it is never the first. -/
theorem beginBlock_ok (h : beginBlock env ctx s = .ok s') : ∃ n, s.epochNumber = some n ∧ (s' = s ∨
    (n < n + 1 ∧ UInt64.ofNat ctx.block.blockHeight / s.params.epochBlocks = n + 1 ∧
      enterEpoch env ctx s (n + 1) = .ok s')) := by
  simp only [beginBlock, getEpochNumber, bind_eq_ok, orReject_eq_ok] at h
  obtain ⟨n, hn, _, _, h⟩ := h
  refine ⟨n, hn, ?_⟩
  generalize he : UInt64.ofNat ctx.block.blockHeight / s.params.epochBlocks = expected at h
  split at h
  · cases h
    exact .inl rfl
  · rename_i hne
    rw [bind_eq_ok] at h
    obtain ⟨_, hc, h⟩ := h
    rw [rejectIf_eq_ok, not_or, UInt64.not_lt, UInt64.not_lt] at hc
    obtain ⟨hle, hge⟩ := hc
    rw [UInt64.le_iff_toNat_le, UInt64.toNat_add, UInt64.toNat_one] at hle
    rw [UInt64.le_iff_toNat_le] at hge
    have hne' : expected.toNat ≠ n.toNat := fun e => hne (UInt64.toNat_inj.mp e)
    have hlt := n.toNat_lt
    have hexp : expected = n + 1 := by
      apply UInt64.toNat_inj.mp
      rw [UInt64.toNat_add, UInt64.toNat_one]
      omega
    refine .inr ⟨?_, hexp, hexp ▸ h⟩
    rw [UInt64.lt_iff_toNat_lt, ← hexp]
    omega

theorem beginBlock_enters {epoch : UInt64} (h : beginBlock env ctx s = .ok s')
    (hepoch : s'.epochNumber = some epoch) (hnew : s.epochNumber ≠ some epoch) : ∃ ballots quorums,
      collectBallots env ctx s (iterateRegistrations s epoch) = .ok ballots ∧
      selectQuorums s.params (sortBallots ballots) = .ok quorums ∧
      s' = setEpochNumber (setEpochQuorums s epoch quorums) epoch := by
  obtain ⟨n, _, rfl | ⟨_, _, henter⟩⟩ := beginBlock_ok h
  · exact absurd hepoch hnew
  · obtain ⟨ballots, quorums, hb, hq, rfl⟩ := enterEpoch_ok.mp henter
    cases hepoch
    exact ⟨ballots, quorums, hb, hq, rfl⟩

theorem beginBlock_frame (h : beginBlock env ctx s = .ok s') :
    s'.signers = s.signers ∧ s'.registrations = s.registrations := by
  obtain ⟨_, _, rfl | ⟨_, _, h⟩⟩ := beginBlock_ok h
  · exact ⟨rfl, rfl⟩
  · obtain ⟨_, _, _, _, rfl⟩ := enterEpoch_ok.mp h
    exact ⟨rfl, rfl⟩

end

/-! ## Genesis -/

structure GenesisState where
  params : Params
  epochNumber : UInt64
  signers : List Signer
  quorumsByEpoch : List Quorums
  deriving DecidableEq, Repr

def defaultGenesisState : GenesisState := ⟨⟨10, 1024, 10, 5760, 3072⟩, 0, [], [[]]⟩

/-- Every seat of the history belongs to a listed signer, by the text of its account. -/
def validateSeat (signers : List Signer) (account : String) : Except Error Unit := do
  validateHexAddress account
  rejectIf (account ∉ signers.map Signer.account) (.invalid "historical signer detail missing")

def GenesisState.validate (gs : GenesisState) : Except Error Unit := do
  gs.signers.forM Signer.validate
  rejectIf ((gs.quorumsByEpoch.length : Int) ≠ (gs.epochNumber.toInt64 + 1).toInt)
    (.invalid "epoch history missing")
  gs.quorumsByEpoch.flatten.flatten.forM (validateSeat gs.signers)

def emptyState : State :=
  ⟨⟨0, 0, 0, 0, 0⟩, none, .empty, .empty, .empty, .empty, by simp⟩

def setQuorumsByEpoch : Nat → List Quorums → State → State
  | _, [], s => s
  | epoch, quorums :: rest, s =>
    setQuorumsByEpoch (epoch + 1) rest (setEpochQuorums s (UInt64.ofNat epoch) quorums)

def initGenesis (gs : GenesisState) : Except Error State := do
  gs.validate
  let s ← gs.signers.foldlM setSigner (setEpochNumber emptyState gs.epochNumber)
  return { setQuorumsByEpoch 0 gs.quorumsByEpoch s with params := gs.params }

/-- The quorums of one epoch; what is missing makes the export panic. -/
def exportQuorums (s : State) (epoch : UInt64) : Except Error Quorums := do
  let quorumCnt ← (getQuorumCount s epoch).mapError fun _ => .panic "historical quorums not found"
  (List.range quorumCnt.toNat).mapM fun quorumId =>
    (getEpochQuorum s epoch (UInt64.ofNat quorumId)).mapError fun _ =>
      .panic "failed to load historical quorum"

/-- The history that is exported ends before the current epoch. -/
def exportGenesis (s : State) : Except Error GenesisState := do
  let epochNumber ← getEpochNumber s
  let epochQuorums ← (List.range epochNumber.toInt64.toInt.toNat).mapM fun i => exportQuorums s
      (UInt64.ofNat i)
  return ⟨s.params, epochNumber, s.signers.values, epochQuorums⟩

/-! ## What genesis stores -/

def signerKey (signer : Signer) : Bytes := (decodeHex signer.account).getD []

theorem signerKey_of_decodes {signer : Signer} {key : Bytes}
    (h : decodeHex signer.account = some key) :
    signerKey signer = key := by
  rw [signerKey, h]
  rfl

theorem GenesisState.validate_ok {gs : GenesisState} {u : Unit} : gs.validate = .ok u ↔
    (∀ signer ∈ gs.signers, signer.validate = .ok ()) ∧
    (gs.quorumsByEpoch.length : Int) = (gs.epochNumber.toInt64 + 1).toInt ∧
    ∀ account ∈ gs.quorumsByEpoch.flatten.flatten, validateSeat gs.signers account = .ok () := by
  simp only [GenesisState.validate, bind_eq_ok, forM_eq_ok, rejectIf_eq_ok, not_not]
  constructor
  · intro h
    obtain ⟨_, h₁, _, h₂, h₃⟩ := h
    exact ⟨h₁, h₂, h₃⟩
  · intro h
    obtain ⟨h₁, h₂, h₃⟩ := h
    exact ⟨(), h₁, (), h₂, h₃⟩

theorem toInt_toInt64 (n : UInt64) : n.toInt64.toInt = (n.toNat : Int).bmod (2 ^ 64) := by
  rw [Int64.toInt, UInt64.toBitVec_toInt64, BitVec.toInt_eq_toNat_bmod, UInt64.toNat_toBitVec]

theorem toInt_toInt64_of_lt {n : UInt64} (h : n.toNat < 2 ^ 63) : n.toInt64.toInt = n.toNat := by
  rw [toInt_toInt64, Int.bmod_def]
  split
  · omega
  · omega

/-- The history has an entry for each epoch up to the current one, or it is empty and
the number of the epoch is the largest one, which is minus one as a signed number. -/
theorem GenesisState.history_length {gs : GenesisState} {u : Unit} (h : gs.validate = .ok u) :
    (gs.quorumsByEpoch.length = gs.epochNumber.toNat + 1 ∧ gs.epochNumber.toNat + 1 < 2 ^ 63) ∨
      (gs.quorumsByEpoch.length = 0 ∧ gs.epochNumber.toNat = 2 ^ 64 - 1) := by
  have hl := (GenesisState.validate_ok.mp h).2.1
  have hone : (1 : Int64).toInt = 1 := rfl
  rw [Int64.toInt_add, toInt_toInt64, hone, Int.bmod_add_bmod, Int.bmod_def] at hl
  have hlt := gs.epochNumber.toNat_lt
  split at hl
  · omega
  · omega

theorem foldlM_setSigner_ok {signers : List Signer} {s s' : State}
    (h : signers.foldlM setSigner s = .ok s') :
    s'.signers = KVStore.setAll signerKey s.signers signers ∧ s'.epochNumber = s.epochNumber ∧
      s'.quorumCounts = s.quorumCounts ∧ s'.epochQuorums = s.epochQuorums ∧
      s'.registrations = s.registrations := by
  induction signers generalizing s with
  | nil =>
    cases h
    exact ⟨rfl, rfl, rfl, rfl, rfl⟩
  | cons signer rest ih =>
    simp only [List.foldlM_cons, bind_eq_ok, setSigner_ok] at h
    obtain ⟨_, ⟨key, hk, rfl⟩, h⟩ := h
    obtain ⟨hs, hrest⟩ := ih h
    refine ⟨?_, hrest⟩
    have hput : (putSigner s key signer hk).signers = s.signers.set (signerKey signer) signer := by
      rw [signerKey_of_decodes hk]
      rfl
    rw [hs, hput]
    rfl

theorem setQuorumsByEpoch_frame (quorums : List Quorums) (epoch : Nat) (s : State) :
    (setQuorumsByEpoch epoch quorums s).signers = s.signers ∧
      (setQuorumsByEpoch epoch quorums s).epochNumber = s.epochNumber ∧
      (setQuorumsByEpoch epoch quorums s).registrations = s.registrations := by
  induction quorums generalizing epoch s with
  | nil => exact ⟨rfl, rfl, rfl⟩
  | cons q rest ih => exact ih (epoch + 1) (setEpochQuorums s (UInt64.ofNat epoch) q)

structure GenesisStores (gs : GenesisState) (s : State) : Prop where
  params : s.params = gs.params
  epochNumber : s.epochNumber = some gs.epochNumber
  signers : s.signers = KVStore.setAll signerKey .empty gs.signers
  registrations : s.registrations = .empty
  history : ∃ s₁, s₁.quorumCounts = .empty ∧ s₁.epochQuorums = .empty ∧
    s.quorumCounts = (setQuorumsByEpoch 0 gs.quorumsByEpoch s₁).quorumCounts ∧
    s.epochQuorums = (setQuorumsByEpoch 0 gs.quorumsByEpoch s₁).epochQuorums

theorem initGenesis_ok {gs : GenesisState} {s : State} (h : initGenesis gs = .ok s) :
    gs.validate = .ok () ∧ GenesisStores gs s := by
  simp only [initGenesis, bind_eq_ok, pure_eq_ok] at h
  obtain ⟨_, hv, s₁, hs, rfl⟩ := h
  obtain ⟨h₁, h₂, h₃, h₄, h₅⟩ := foldlM_setSigner_ok hs
  obtain ⟨f₁, f₂, f₃⟩ := setQuorumsByEpoch_frame gs.quorumsByEpoch 0 s₁
  exact ⟨hv, rfl, f₂.trans h₂, f₁.trans h₁, f₃.trans h₅, s₁, h₃, h₄, rfl, rfl⟩

theorem initGenesis_returns {gs : GenesisState} (h : gs.validate = .ok ()) :
    ∃ s, initGenesis gs = .ok s := by
  have hkeys : ∀ signer ∈ gs.signers, ∃ key, decodeHex signer.account = some key := by
    intro signer hs
    obtain ⟨_, _, ha⟩ := Signer.validate_ok.mp ((GenesisState.validate_ok.mp h).1 signer hs)
    obtain ⟨key, hk, _⟩ := validateHexAddress_ok ha
    exact ⟨key, hk⟩
  have hset : ∀ s signer, (∃ s', setSigner s signer = .ok s') ↔
      ∃ key, decodeHex signer.account = some key := by
    intro s signer
    simp only [setSigner_ok]
    constructor
    · intro h
      obtain ⟨_, key, hk, _⟩ := h
      exact ⟨key, hk⟩
    · intro h
      obtain ⟨key, hk⟩ := h
      exact ⟨_, key, hk, rfl⟩
  obtain ⟨s₁, hs⟩ :=
    (foldlM_returns_iff_forall hset gs.signers (setEpochNumber emptyState gs.epochNumber)).mpr hkeys
  exact ⟨_, by rw [initGenesis, h, ok_bind, hs, ok_bind]; rfl⟩

end ZgChain.Dasigners
