import ZgChain.Sdk.Bank

/-!
# Atomic swaps: types

Swaps, asset parameters and asset supplies of the bep3 module, with their
validation, and the keys the swaps are stored and indexed under. The hash of the
chain, the lower casing of strings and the decoding of account addresses are
parameters.
-/

namespace ZgChain.Bep3

structure Env where
  /-- The chain's hash of a byte string. -/
  sum : Bytes → Bytes
  toLower : String → String
  accAddressFromBech32 : String → Option Addr

/-! ## Swaps -/

inductive SwapStatus where
  | unspecified
  | open
  | completed
  | expired
  deriving DecidableEq, Repr

inductive SwapDirection where
  | unspecified
  | incoming
  | outgoing
  deriving DecidableEq, Repr

structure AtomicSwap where
  amount : Coins
  randomNumberHash : Bytes
  expireHeight : UInt64
  timestamp : Int64
  sender : Addr
  recipient : Addr
  senderOtherChain : String
  recipientOtherChain : String
  closedBlock : Int64
  status : SwapStatus
  crossChain : Bool
  direction : SwapDirection
  deriving DecidableEq, Repr

inductive Error where
  | atomicSwapAlreadyExists (id : Bytes)
  | atomicSwapNotFound (id : Bytes)
  | moduleAccount (recipient : Addr)
  | notOneCoin
  | assetNotSupported (d : Denom)
  | assetNotActive (d : Denom)
  | invalidAmount (amount min max : Int)
  | invalidTimestamp (blockTime : Time) (timestamp : Int64)
  | deputyIsBoth (deputy : Addr)
  | deputyNotRecipient (recipient : Addr)
  | invalidHeightSpan (span min max : UInt64)
  | insufficientAmount (c : Coin)
  | exceedsSupplyLimit (increase supply limit : Coin)
  | exceedsTimeBasedSupplyLimit (increase supply limit : Coin)
  | exceedsAvailableSupply (increase : Coin) (available : Int)
  | invalidCurrentSupply (decrease supply : Coin)
  | invalidIncomingSupply (decrease supply : Coin)
  | invalidOutgoingSupply (decrease supply : Coin)
  | swapNotClaimable (status : SwapStatus)
  | swapNotRefundable (status : SwapStatus)
  | invalidClaimSecret
  | invalidDirection (dir : SwapDirection)
  | invalidSwap (text : String)
  | invalidAsset (denom : Denom) (text : String)
  | invalidSupply (text : String)
  | invalidGenesis (text : String)
  | invalidMsg (text : String)
  | panic (text : String)
  | bank (e : BankError)
  deriving DecidableEq, Repr

def randomNumberHashLength : Nat := 32

def randomNumberLength : Nat := 32

def calculateRandomHash (env : Env) (randomNumber : Bytes) (timestamp : Int64) : Bytes :=
  -- the number is cut or padded to its length, and the time follows
  let number := randomNumber.take randomNumberLength
  env.sum (number ++ List.replicate (randomNumberLength - number.length) 0 ++
    beBytes 8 timestamp.toUInt64.toNat)

def calculateSwapID (env : Env) (randomNumberHash : Bytes) (sender : Addr)
    (senderOtherChain : String) : Bytes :=
  env.sum (randomNumberHash ++ sender ++ strBytes (env.toLower senderOtherChain))

def AtomicSwap.getSwapID (env : Env) (a : AtomicSwap) : Bytes :=
  calculateSwapID env a.randomNumberHash a.sender a.senderOtherChain

def AtomicSwap.validate (a : AtomicSwap) : Except Error Unit := do
  rejectIf (a.amount.isValid = false) (.invalidSwap "invalid amount")
  rejectIf (a.amount.isAllPositive = false) (.invalidSwap "the swapped out coin must be positive")
  rejectIf (a.randomNumberHash.length ≠ randomNumberHashLength)
    (.invalidSwap "the length of random number hash should be 32")
  rejectIf (a.expireHeight = 0) (.invalidSwap "expire height cannot be 0")
  rejectIf (a.timestamp = 0) (.invalidSwap "timestamp cannot be 0")
  rejectIf (a.sender = []) (.invalidSwap "sender cannot be empty")
  rejectIf (a.recipient = []) (.invalidSwap "recipient cannot be empty")
  rejectIf (isBlank a.senderOtherChain = true) (.invalidSwap "sender other chain cannot be blank")
  rejectIf (isBlank a.recipientOtherChain = true)
    (.invalidSwap "recipient other chain cannot be blank")
  rejectIf (a.status = .completed ∧ a.closedBlock = 0) (.invalidSwap "closed block cannot be 0")
  rejectIf (a.status = .unspecified) (.invalidSwap "invalid swap status")
  rejectIf (a.direction = .unspecified) (.invalidSwap "invalid swap direction")

/-! ## Index keys -/

def getAtomicSwapByHeightKey (height : UInt64) (swapID : Bytes) : Bytes :=
  beBytes 8 height.toNat ++ swapID

def defaultLongtermStorageDuration : UInt64 := 86400

def deletionHeight (a : AtomicSwap) : UInt64 :=
  a.closedBlock.toUInt64 + defaultLongtermStorageDuration

theorem getAtomicSwapByHeightKey_inj {h h' : UInt64} {id id' : Bytes}
    (e : getAtomicSwapByHeightKey h id = getAtomicSwapByHeightKey h' id') : h = h' ∧ id = id' := by
  obtain ⟨e₁, e₂⟩ := List.append_inj e (by simp)
  exact ⟨UInt64.toNat_inj.mp (beBytes_injective h.toNat_lt h'.toNat_lt e₁), e₂⟩

/-! ## Asset parameters -/

structure SupplyLimit where
  limit : Int
  timeLimited : Bool
  timePeriod : Duration
  timeBasedLimit : Int
  deriving DecidableEq, Repr

structure AssetParam where
  denom : Denom
  coinID : Int64
  supplyLimit : SupplyLimit
  active : Bool
  deputyAddress : Addr
  fixedFee : Int
  minSwapAmount : Int
  maxSwapAmount : Int
  minBlockLock : UInt64
  maxBlockLock : UInt64
  deriving DecidableEq, Repr

def AssetParam.validate (seen : List Denom) (asset : AssetParam) : Except Error Unit := do
  let invalid := Error.invalidAsset asset.denom
  rejectIf (validateDenom asset.denom = false) (invalid "asset denom invalid")
  rejectIf (asset.coinID < 0) (invalid "coin id must be a non negative integer")
  rejectIf (asset.supplyLimit.limit < 0) (invalid "has invalid (negative) supply limit")
  rejectIf (asset.supplyLimit.timeBasedLimit < 0)
    (invalid "has invalid (negative) supply time limit")
  rejectIf (asset.supplyLimit.limit < asset.supplyLimit.timeBasedLimit)
    (invalid "cannot have supply time limit > supply limit")
  rejectIf (asset.denom ∈ seen) (invalid "cannot have duplicate denom")
  rejectIf (asset.deputyAddress = []) (invalid "deputy address cannot be empty")
  rejectIf (asset.fixedFee < 0) (invalid "cannot have a negative fixed fee")
  rejectIf (asset.maxBlockLock < asset.minBlockLock)
    (invalid "has minimum block lock > maximum block lock")
  rejectIf (¬ 0 < asset.minSwapAmount) (invalid "must have a positive minimum swap amount")
  rejectIf (¬ 0 < asset.maxSwapAmount) (invalid "must have a positive maximum swap amount")
  rejectIf (asset.maxSwapAmount < asset.minSwapAmount)
    (invalid "has minimum swap amount > maximum swap amount")

def validateAssetParams (seen : List Denom) : List AssetParam → Except Error Unit
  | [] => .ok ()
  | asset :: rest => do
    asset.validate seen
    validateAssetParams (asset.denom :: seen) rest

structure Params where
  assetParams : List AssetParam
  deriving DecidableEq, Repr

def Params.validate (p : Params) : Except Error Unit := validateAssetParams [] p.assetParams

abbrev ValidParams := { p : Params // p.validate = .ok () }

theorem validateAssetParams_mem {assets : List AssetParam} {seen : List Denom} {u : Unit}
    (h : validateAssetParams seen assets = .ok u) {asset : AssetParam} (hm : asset ∈ assets) :
    ∃ seen, asset.validate seen = .ok () := by
  induction assets generalizing seen with
  | nil => cases hm
  | cons a rest ih =>
    simp only [validateAssetParams, bind_eq_ok] at h
    obtain ⟨_, ha, h⟩ := h
    cases hm with
    | head => exact ⟨seen, ha⟩
    | tail _ hm => exact ih h hm

theorem AssetParam.validate_ok {asset : AssetParam} {seen : List Denom} {u : Unit}
    (h : asset.validate seen = .ok u) :
    validateDenom asset.denom = true ∧ 0 ≤ asset.supplyLimit.limit ∧
    0 ≤ asset.supplyLimit.timeBasedLimit ∧
    0 < asset.minSwapAmount := by
  simp only [AssetParam.validate, bind_eq_ok, rejectIf_eq_ok, Bool.not_eq_false, not_lt,
    not_le] at h
  obtain ⟨_, hd, _, _, _, hl, _, ht, _, _, _, _, _, _, _, _, _, _, _, hm, _⟩ := h
  exact ⟨hd, hl, ht, hm⟩

/-! ## Asset supplies -/

structure AssetSupply where
  incomingSupply : Coin
  outgoingSupply : Coin
  currentSupply : Coin
  timeLimitedCurrentSupply : Coin
  timeElapsed : Duration
  deriving DecidableEq, Repr

def AssetSupply.getDenom (a : AssetSupply) : Denom := a.currentSupply.denom

def AssetSupply.validate (a : AssetSupply) : Except Error Unit := do
  rejectIf (a.incomingSupply.isValid = false) (.invalidSupply "incoming supply")
  rejectIf (a.outgoingSupply.isValid = false) (.invalidSupply "outgoing supply")
  rejectIf (a.currentSupply.isValid = false) (.invalidSupply "current supply")
  rejectIf (a.timeLimitedCurrentSupply.isValid = false)
    (.invalidSupply "time-limited current supply")
  let denom := a.currentSupply.denom
  rejectIf (a.incomingSupply.denom ≠ denom ∨ a.outgoingSupply.denom ≠ denom ∨
    a.timeLimitedCurrentSupply.denom ≠ denom) (.invalidSupply "asset supply denoms do not match")

/-! ## The state -/

structure State (A : ModuleAddrs) where
  params : ValidParams
  swaps : KVStore Bytes AtomicSwap
  byBlock : KVStore Bytes Bytes
  longterm : KVStore Bytes Bytes
  supplies : KVStore Denom AssetSupply
  previousBlockTime : Option Time
  bank : Bank A

end ZgChain.Bep3
