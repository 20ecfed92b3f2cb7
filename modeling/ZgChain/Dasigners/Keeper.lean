import ZgChain.Dasigners.Types

/-!
# Data availability signers: keeper and messages

The stores of the module, the stake an account has behind it, and the three
messages. A registration for the next epoch is stored as the bytes that were
sent, after the point they encode passed the check.
-/

namespace ZgChain.Dasigners

open Bn254util

/-! ## Stores -/

def getEpochNumber (s : State) : Except Error UInt64 := orReject s.epochNumber .epochNumberNotSet

def setEpochNumber (s : State) (epoch : UInt64) : State := { s with epochNumber := some epoch }

def getQuorumCount (s : State) (epoch : UInt64) : Except Error UInt64 :=
  orReject (s.quorumCounts.get (getQuorumCountKey epoch)) .quorumNotFound

def setQuorumCount (s : State) (epoch quorums : UInt64) : State :=
  { s with quorumCounts := s.quorumCounts.set (getQuorumCountKey epoch) quorums }

def getSignerKeyFromAccount (account : String) : Except Error Bytes :=
  orReject (decodeHex account) (.invalidHex account)

def getSigner (s : State) (account : String) : Except Error (Option Signer) := do
  let key ← getSignerKeyFromAccount account
  return s.signers.get key

theorem keyed_set {st : KVStore Bytes Signer}
    (h : ∀ key signer, st.get key = some signer → decodeHex signer.account = some key)
    {key : Bytes} {signer : Signer} (hk : decodeHex signer.account = some key) :
    ∀ key' signer', (st.set key signer).get key' = some signer' →
      decodeHex signer'.account = some key' := by
  intro key' signer' h'
  rw [KVStore.get_set] at h'
  split at h'
  · rename_i e
    cases h'
    rw [e, hk]
  · exact h key' signer' h'

def putSigner (s : State) (key : Bytes) (signer : Signer)
    (hk : decodeHex signer.account = some key) : State :=
  { s with signers := s.signers.set key signer, keyed := keyed_set s.keyed hk }

def setSigner (s : State) (signer : Signer) : Except Error State :=
  match h : decodeHex signer.account with
  | some key => .ok (putSigner s key signer h)
  | none => .error (.invalidHex signer.account)

def getEpochQuorum (s : State) (epoch quorumId : UInt64) : Except Error Quorum := do
  let quorumCount ← getQuorumCount s epoch
  rejectIf (quorumCount ≤ quorumId) .quorumIdOutOfBound
  orReject (s.epochQuorums.get (getEpochQuorumKey epoch quorumId)) .quorumNotFound

def putEpochQuorums (epoch : UInt64) : Nat → Quorums → KVStore Bytes Quorum → KVStore Bytes Quorum
  | _, [], st => st
  | quorumId, quorum :: quorums, st =>
    putEpochQuorums epoch (quorumId + 1) quorums
      (st.set (getEpochQuorumKey epoch (UInt64.ofNat quorumId)) quorum)

def setEpochQuorums (s : State) (epoch : UInt64) (quorums : Quorums) : State :=
  setQuorumCount { s with epochQuorums := putEpochQuorums epoch 0 quorums s.epochQuorums } epoch
    (UInt64.ofNat quorums.length)

def getRegistration (s : State) (epoch : UInt64) (account : String) :
    Except Error (Option Bytes) := do
  let key ← getSignerKeyFromAccount account
  return s.registrations.get (getEpochRegistrationKey epoch key)

def iterateRegistrations (s : State) (epoch : UInt64) : List (String × Bytes) :=
  (s.registrations.entries.filter fun e => (beBytes 8 epoch.toNat).isPrefixOf e.1).map fun e =>
    (encodeHex (e.1.drop 8), e.2)

def setRegistration (s : State) (epoch : UInt64) (account : String) (signature : Bytes) : State :=
  match decodeHex account with
  | some key =>
    { s with registrations := s.registrations.set (getEpochRegistrationKey epoch key) signature }
  -- an account that is no hexadecimal text leaves the store as it is
  | none => s

/-! ## Stake -/

def bondedConversionRate : Int := 10 ^ 6

/-- Add what a delegation is worth; one to a validator that is not there adds nothing. -/
def addDelegation (staking : Staking) (bonded : StoredDec) (delegation : Delegation) :
    Except Error StoredDec :=
  match staking.getValidator delegation.validatorAddress with
  | none => .ok bonded
  | some validator => do
    let tokens ← orReject (validator.tokensFromSharesTruncated delegation.shares.val) intOverflow
    orReject (bonded.add tokens) intOverflow

/-- Add up delegations until more than ten have been counted. -/
def addDelegations (staking : Staking) : Nat → StoredDec → List Delegation → Except Error StoredDec
  | _, bonded, [] => .ok bonded
  | cnt, bonded, delegation :: rest => do
    let bonded ← addDelegation staking bonded delegation
    if 10 < cnt + 1 then return bonded else addDelegations staking (cnt + 1) bonded rest

def getDelegatorBonded (staking : Staking) (delegator : Addr) : Except Error Int := do
  let bonded ← addDelegations staking 0 .zero (staking.delegations delegator)
  return bonded.val.roundInt

def accAddressFromHexUnsafe (account : String) : Except Error Addr := do
  rejectIf (account = "") .emptyHexAddress
  orReject (decodeHex account) (.invalidHex account)

def votes (p : Params) (bonded : Int) : Except Error Int := do
  rejectIf (p.tokensPerVote = 0) divideByZero
  return |(bonded.tdiv bondedConversionRate).tdiv p.tokensPerVote.toNat|

def checkDelegations (ctx : CallCtx) (s : State) (account : String) : Except Error Unit := do
  let accAddr ← accAddressFromHexUnsafe account
  let bonded ← getDelegatorBonded ctx.staking accAddr
  let n ← votes s.params bonded
  rejectIf (n ≤ 0) .insufficientBonded

/-! ## Messages -/

/-- Check a signature in bytes; a point that cannot be read makes the code panic. -/
def checkSignature (env : Env) (signer : Signer) (hash : Option G1Affine) (signature : Bytes) :
    Except Error Unit := do
  let hash ← orReject hash (.panic "no point of the curve found")
  let point ← orReject (deserializeG1 signature) sliceOutOfRange
  let valid ← signer.validateSignature env.curve hash point
  rejectIf (valid = false) .invalidSignature

def registerSigner (env : Env) (ctx : CallCtx) (s : State) (msg : MsgRegisterSigner) :
    Except Error State := do
  checkDelegations ctx s msg.signer.account
  let found ← getSigner s msg.signer.account
  rejectIf (found.isSome = true) .signerExists
  let chainID ← orReject env.chainID .invalidChainID
  let hash := pubkeyRegistrationHash env.curve (hexToAddress msg.signer.account) chainID
  checkSignature env msg.signer hash msg.signature
  setSigner s msg.signer

def updateSocket (s : State) (msg : MsgUpdateSocket) : Except Error State := do
  let found ← getSigner s msg.account
  let signer ← orReject found .signerNotFound
  setSigner s { signer with socket := msg.socket }

def registerNextEpoch (env : Env) (ctx : CallCtx) (s : State) (msg : MsgRegisterNextEpoch) :
    Except Error State := do
  checkDelegations ctx s msg.account
  let found ← getSigner s msg.account
  let signer ← orReject found .signerNotFound
  let epochNumber ← getEpochNumber s
  let chainID ← orReject env.chainID .invalidChainID
  let hash := epochRegistrationHash env.curve (hexToAddress msg.account) (epochNumber + 1) chainID
  checkSignature env signer hash msg.signature
  return setRegistration s (epochNumber + 1) msg.account msg.signature

/-! ## The quorums of an epoch -/

theorem getQuorumCount_ok {s : State} {epoch count : UInt64} :
    getQuorumCount s epoch = .ok count ↔ s.quorumCounts.get (getQuorumCountKey epoch) =
      some count :=
  orReject_eq_ok _ _ _

theorem getEpochQuorum_ok {s : State} {epoch quorumId : UInt64} {quorum : Quorum} :
    getEpochQuorum s epoch quorumId = .ok quorum ↔ ∃ count, getQuorumCount s epoch = .ok count ∧
    quorumId < count ∧
      s.epochQuorums.get (getEpochQuorumKey epoch quorumId) = some quorum := by
  simp only [getEpochQuorum, bind_eq_ok, rejectIf_eq_ok, orReject_eq_ok, UInt64.not_le]
  constructor
  · intro h
    obtain ⟨count, hc, _, hq, h⟩ := h
    exact ⟨count, hc, hq, h⟩
  · intro h
    obtain ⟨count, hc, hq, h⟩ := h
    exact ⟨count, hc, (), hq, h⟩

theorem get_putEpochQuorums_ne {epoch epoch' : UInt64} (h : epoch' ≠ epoch) (quorumId : UInt64)
    (quorums : Quorums) (i : Nat) (st : KVStore Bytes Quorum) :
    (putEpochQuorums epoch i quorums st).get (getEpochQuorumKey epoch' quorumId) =
      st.get (getEpochQuorumKey epoch' quorumId) := by
  induction quorums generalizing i st with
  | nil => rfl
  | cons quorum quorums ih =>
    rw [putEpochQuorums, ih, KVStore.get_set_ne]
    intro e
    exact h (getEpochQuorumKey_inj e).1

theorem mem_of_get_putEpochQuorums {epoch : UInt64} {quorums : Quorums} {i : Nat}
    {st : KVStore Bytes Quorum} {key : Bytes} {quorum : Quorum}
    (h : (putEpochQuorums epoch i quorums st).get key = some quorum) :
    quorum ∈ quorums ∨ st.get key = some quorum := by
  induction quorums generalizing i st with
  | nil => exact .inr h
  | cons q quorums ih =>
    rcases ih h with hq | hq
    · exact .inl (List.mem_cons_of_mem _ hq)
    · rw [KVStore.get_set] at hq
      split at hq
      · cases hq
        exact .inl List.mem_cons_self
      · exact .inr hq

theorem putEpochQuorums_keeps {epoch : UInt64} {P : Quorum → Prop} {quorums : Quorums} {i : Nat}
    {st : KVStore Bytes Quorum} {key : Bytes} (hP : ∀ quorum ∈ quorums, P quorum)
    (h : ∃ quorum, st.get key = some quorum ∧ P quorum) :
    ∃ quorum, (putEpochQuorums epoch i quorums st).get key = some quorum ∧ P quorum := by
  induction quorums generalizing i st with
  | nil => exact h
  | cons q quorums ih =>
    refine ih (fun quorum hq => hP quorum (List.mem_cons_of_mem _ hq)) ?_
    rw [KVStore.get_set]
    split
    · exact ⟨q, rfl, hP q List.mem_cons_self⟩
    · exact h

theorem get_putEpochQuorums (epoch : UInt64) {P : Quorum → Prop} {quorums : Quorums} {i j : Nat}
    (st : KVStore Bytes Quorum) (hP : ∀ quorum ∈ quorums, P quorum) (hj : j < quorums.length) :
    ∃ quorum, (putEpochQuorums epoch i quorums st).get
      (getEpochQuorumKey epoch (UInt64.ofNat (i + j))) = some quorum ∧
      P quorum := by
  induction quorums generalizing i j st with
  | nil => cases hj
  | cons q quorums ih =>
    have hrest : ∀ quorum ∈ quorums, P quorum :=
      fun quorum hq => hP quorum (List.mem_cons_of_mem _ hq)
    cases j with
    | zero =>
      rw [putEpochQuorums]
      exact putEpochQuorums_keeps hrest ⟨q, KVStore.get_set_self _ _ _, hP q List.mem_cons_self⟩
    | succ j =>
      rw [show i + (j + 1) = i + 1 + j by omega]
      exact ih _ hrest (Nat.lt_of_succ_lt_succ hj)

theorem get_putEpochQuorums_below (epoch : UInt64) {quorums : Quorums} {i k : Nat}
    (st : KVStore Bytes Quorum) (hl : i + quorums.length ≤ 2 ^ 64) (hk : k < i) :
    (putEpochQuorums epoch i quorums st).get (getEpochQuorumKey epoch (UInt64.ofNat k)) =
      st.get (getEpochQuorumKey epoch (UInt64.ofNat k)) := by
  induction quorums generalizing i st with
  | nil => rfl
  | cons q quorums ih =>
    rw [List.length_cons] at hl
    rw [putEpochQuorums, ih _ (by omega) (by omega), KVStore.get_set_ne]
    intro e
    have hid := UInt64.toNat_inj.mpr (getEpochQuorumKey_inj e).2
    rw [UInt64.toNat_ofNat', UInt64.toNat_ofNat', Nat.mod_eq_of_lt (by omega),
      Nat.mod_eq_of_lt (by omega)] at hid
    omega

/-- As long as the numbers do not wrap around, each quorum is stored under its own. -/
theorem get_putEpochQuorums_at (epoch : UInt64) {quorums : Quorums} {i j : Nat}
    (st : KVStore Bytes Quorum) (hl : i + quorums.length ≤ 2 ^ 64) (hj : j < quorums.length) :
    (putEpochQuorums epoch i quorums st).get (getEpochQuorumKey epoch (UInt64.ofNat (i + j))) =
      quorums[j]? := by
  induction quorums generalizing i j st with
  | nil => cases hj
  | cons q quorums ih =>
    rw [List.length_cons] at hl hj
    rw [putEpochQuorums]
    cases j with
    | zero =>
      have hkept := get_putEpochQuorums_below epoch
        (st.set (getEpochQuorumKey epoch (UInt64.ofNat i)) q)
        (show i + 1 + quorums.length ≤ 2 ^ 64 by omega) (Nat.lt_add_one i)
      rw [KVStore.get_set_self] at hkept
      exact hkept
    | succ j =>
      rw [show i + (j + 1) = i + 1 + j by omega, ih _ (by omega) (by omega)]
      rfl

def SameEpoch (s s' : State) (epoch : UInt64) : Prop :=
  getQuorumCount s' epoch = getQuorumCount s epoch ∧
    ∀ quorumId, getEpochQuorum s' epoch quorumId = getEpochQuorum s epoch quorumId

def Retrievable (s : State) (epoch : UInt64) : Prop :=
  ∃ count, getQuorumCount s epoch = .ok count ∧
    ∀ quorumId < count, ∃ quorum, getEpochQuorum s epoch quorumId = .ok quorum

theorem SameEpoch.refl (s : State) (epoch : UInt64) : SameEpoch s s epoch := ⟨rfl, fun _ => rfl⟩

theorem SameEpoch.trans {s₁ s₂ s₃ : State} {epoch : UInt64} (h : SameEpoch s₁ s₂ epoch)
    (h' : SameEpoch s₂ s₃ epoch) :
    SameEpoch s₁ s₃ epoch := ⟨h'.1.trans h.1, fun quorumId => (h'.2 quorumId).trans (h.2 quorumId)⟩

theorem SameEpoch.of_stores {s s' : State} (hc : s'.quorumCounts = s.quorumCounts)
    (hq : s'.epochQuorums = s.epochQuorums) (epoch : UInt64) : SameEpoch s s' epoch := by
  unfold SameEpoch getEpochQuorum getQuorumCount
  rw [hc, hq]
  exact ⟨rfl, fun _ => rfl⟩

theorem SameEpoch.retrievable {s s' : State} {epoch : UInt64} (h : SameEpoch s s' epoch)
    (hr : Retrievable s epoch) :
    Retrievable s' epoch := by
  unfold Retrievable
  simp only [h.1, h.2]
  exact hr

theorem setEpochQuorums_other {epoch epoch' : UInt64} (h : epoch' ≠ epoch) (s : State)
    (quorums : Quorums) :
    SameEpoch s (setEpochQuorums s epoch quorums) epoch' := by
  have hc : getQuorumCount (setEpochQuorums s epoch quorums) epoch' = getQuorumCount s epoch' := by
    unfold getQuorumCount
    rw [setEpochQuorums, setQuorumCount, KVStore.get_set_ne]
    intro e
    exact h (getQuorumCountKey_inj e)
  refine ⟨hc, fun quorumId => ?_⟩
  rw [getEpochQuorum, hc, getEpochQuorum]
  simp only [setEpochQuorums, setQuorumCount, get_putEpochQuorums_ne h]

@[simp] theorem getQuorumCount_setEpochQuorums (s : State) (epoch : UInt64) (quorums : Quorums) :
    getQuorumCount (setEpochQuorums s epoch quorums) epoch = .ok (UInt64.ofNat quorums.length) := by
  rw [getQuorumCount_ok, setEpochQuorums, setQuorumCount, KVStore.get_set_self]

theorem getEpochQuorum_setEpochQuorums (s : State) (epoch : UInt64) {quorumId : UInt64}
    {quorums : Quorums} (h : quorumId < UInt64.ofNat quorums.length) :
    ∃ quorum, getEpochQuorum (setEpochQuorums s epoch quorums) epoch quorumId = .ok quorum ∧
      quorum ∈ quorums := by
  have hj : quorumId.toNat < quorums.length := by
    rw [UInt64.lt_iff_toNat_lt, UInt64.toNat_ofNat'] at h
    exact lt_of_lt_of_le h (Nat.mod_le _ _)
  obtain ⟨quorum, hq, hmem⟩ :=
    get_putEpochQuorums epoch (P := (· ∈ quorums)) (i := 0) s.epochQuorums (fun _ hq => hq) hj
  rw [Nat.zero_add, UInt64.ofNat_toNat] at hq
  exact ⟨quorum, getEpochQuorum_ok.mpr ⟨_, getQuorumCount_setEpochQuorums s epoch quorums, h, hq⟩,
    hmem⟩

theorem getEpochQuorum_setEpochQuorums_at (s : State) (epoch : UInt64) {quorums : Quorums} {q : Nat}
    {quorum : Quorum} (hl : quorums.length < 2 ^ 64) (h : quorums[q]? = some quorum) :
    getEpochQuorum (setEpochQuorums s epoch quorums) epoch (UInt64.ofNat q) = .ok quorum := by
  obtain ⟨hq, _⟩ := List.getElem?_eq_some_iff.mp h
  have hstored := get_putEpochQuorums_at epoch (i := 0) s.epochQuorums (by omega) hq
  rw [Nat.zero_add] at hstored
  refine getEpochQuorum_ok.mpr
    ⟨_, getQuorumCount_setEpochQuorums s epoch quorums, ?_, hstored.trans h⟩
  rw [UInt64.lt_iff_toNat_lt, UInt64.toNat_ofNat', UInt64.toNat_ofNat', Nat.mod_eq_of_lt (by omega),
    Nat.mod_eq_of_lt hl]
  exact hq

theorem setEpochQuorums_retrievable (s : State) (epoch : UInt64) (quorums : Quorums) :
    Retrievable (setEpochQuorums s epoch quorums) epoch := by
  refine ⟨_, getQuorumCount_setEpochQuorums s epoch quorums, fun quorumId hq => ?_⟩
  obtain ⟨quorum, h, _⟩ := getEpochQuorum_setEpochQuorums s epoch hq
  exact ⟨quorum, h⟩

theorem Retrievable.setEpochQuorums {s : State} {epoch : UInt64} (h : Retrievable s epoch)
    (epoch' : UInt64)
    (quorums : Quorums) : Retrievable (setEpochQuorums s epoch' quorums) epoch := by
  by_cases e : epoch = epoch'
  · rw [e]
    exact setEpochQuorums_retrievable s epoch' quorums
  · exact (setEpochQuorums_other e s quorums).retrievable h

/-! ## What the messages do -/

@[simp] theorem getSignerKeyFromAccount_ok {account : String} {key : Bytes} :
    getSignerKeyFromAccount account = .ok key ↔ decodeHex account = some key := by
  simp [getSignerKeyFromAccount]

theorem getSigner_ok {s : State} {account : String} {found : Option Signer} :
    getSigner s account = .ok found ↔ ∃ key, decodeHex account = some key ∧
    s.signers.get key = found := by
  simp only [getSigner, bind_eq_ok, getSignerKeyFromAccount_ok, pure_eq_ok]

theorem setSigner_ok {s s' : State} {signer : Signer} :
    setSigner s signer = .ok s' ↔ ∃ key, ∃ hk : decodeHex signer.account = some key, s' =
      putSigner s key signer hk := by
  unfold setSigner
  split
  · rename_i key hk
    constructor
    · intro h
      cases h
      exact ⟨key, hk, rfl⟩
    · rintro ⟨key', hk', rfl⟩
      cases hk.symm.trans hk'
      rfl
  · rename_i hk
    constructor
    · intro h
      cases h
    · rintro ⟨key', hk', -⟩
      cases hk.symm.trans hk'

theorem checkSignature_ok {env : Env} {signer : Signer} {hash : Option G1Affine} {signature : Bytes}
    {u : Unit} :
    checkSignature env signer hash signature = .ok u ↔ ∃ h p, hash = some h ∧
    deserializeG1 signature = some p ∧
      signer.validateSignature env.curve h p = .ok true := by
  simp only [checkSignature, bind_eq_ok, orReject_eq_ok, rejectIf_eq_ok, Bool.not_eq_false]
  constructor
  · rintro ⟨h, hh, p, hp, valid, hv, rfl⟩
    exact ⟨h, p, hh, hp, hv⟩
  · rintro ⟨h, p, hh, hp, hv⟩
    exact ⟨h, hh, p, hp, true, hv, rfl⟩

theorem registerSigner_ok {env : Env} {ctx : CallCtx} {s s' : State} {msg : MsgRegisterSigner}
    (h : registerSigner env ctx s msg = .ok s') :
    ∃ key, ∃ hk : decodeHex msg.signer.account = some key, s.signers.get key = none ∧
      s' = putSigner s key msg.signer hk := by
  simp only [registerSigner, bind_eq_ok, getSigner_ok, rejectIf_eq_ok, setSigner_ok] at h
  obtain ⟨_, _, _, ⟨key, hk, rfl⟩, _, hnone, _, _, _, _, key', hk', rfl⟩ := h
  cases hk.symm.trans hk'
  exact ⟨key, hk, by simpa using hnone, rfl⟩

theorem updateSocket_ok {s s' : State} {msg : MsgUpdateSocket} :
    updateSocket s msg = .ok s' ↔ ∃ key signer, ∃ hs : s.signers.get key = some signer,
      decodeHex msg.account = some key ∧
      s' = putSigner s key { signer with socket := msg.socket } (s.keyed key signer hs) := by
  simp only [updateSocket, bind_eq_ok, getSigner_ok, orReject_eq_ok, setSigner_ok]
  constructor
  · rintro ⟨_, ⟨key, hk, rfl⟩, signer, hs, key', hk', rfl⟩
    cases (s.keyed key signer hs).symm.trans hk'
    exact ⟨key, signer, hs, hk, rfl⟩
  · rintro ⟨key, signer, hs, hk, rfl⟩
    exact ⟨_, ⟨key, hk, rfl⟩, signer, hs, key, s.keyed key signer hs, rfl⟩

theorem registerNextEpoch_ok {env : Env} {ctx : CallCtx} {s s' : State} {msg : MsgRegisterNextEpoch}
    (h : registerNextEpoch env ctx s msg = .ok s') :
    ∃ key signer epoch chainID, decodeHex msg.account = some key ∧ s.signers.get key = some signer ∧
      s.epochNumber = some epoch ∧ env.chainID = some chainID ∧
      checkSignature env signer
        (epochRegistrationHash env.curve (bytesToAddress key) (epoch + 1) chainID)
        msg.signature = .ok () ∧
      s' = { s with
        registrations :=
          s.registrations.set (getEpochRegistrationKey (epoch + 1) key) msg.signature } := by
  simp only [registerNextEpoch, bind_eq_ok, getSigner_ok, getEpochNumber, orReject_eq_ok,
    pure_eq_ok] at h
  obtain ⟨_, _, _, ⟨key, hk, rfl⟩, signer, hs, epoch, he, chainID, hc, _, hsig, rfl⟩ := h
  rw [hexToAddress_of_decodes hk] at hsig
  refine ⟨key, signer, epoch, chainID, hk, hs, he, hc, hsig, ?_⟩
  rw [setRegistration, hk]

end ZgChain.Dasigners
