import ZgChain.Crypto.Bn254util
import ZgChain.Sdk.Staking

/-!
# Data availability signers: types

Signers with their keys, the parameters of the module and its messages with
their checks. Accounts are hexadecimal text and stored under the bytes the text
stands for, so texts that differ in case name one account.
-/

namespace ZgChain.Dasigners

open Bn254util

abbrev UInt256 := Fin (2 ^ 256)

instance neZero_uint256 : NeZero (2 ^ 256) := ⟨by decide⟩

structure Env where
  curve : Curve
  /-- The number in the chain's name, if the name has one. -/
  chainID : Option UInt256

structure CallCtx where
  block : Ctx
  staking : Staking

inductive Error where
  | signerExists
  | epochNumberNotSet
  | signerNotFound
  | invalidSignature
  | quorumNotFound
  | quorumIdOutOfBound
  | quorumBitmapLengthMismatch
  | insufficientBonded
  | rowIndexOutOfBound
  | invalidHex (text : String)
  | emptyHexAddress
  | invalidChainID
  | invalid (text : String)
  | panic (text : String)
  deriving DecidableEq, Repr

def sliceOutOfRange : Error := .panic "runtime error: slice bounds out of range"

def divideByZero : Error := .panic "division by zero"

def intOverflow : Error := .panic "Int overflow"

structure Params where
  tokensPerVote : UInt64
  maxVotesPerSigner : UInt64
  maxQuorums : UInt64
  epochBlocks : UInt64
  encodedSlices : UInt64
  deriving DecidableEq, Repr

abbrev Quorum := List String

abbrev Quorums := List Quorum

/-! ## Signers -/

structure Signer where
  account : String
  socket : String
  pubkeyG1 : Bytes
  pubkeyG2 : Bytes
  deriving DecidableEq, Repr

def validateHexAddress (account : String) : Except Error Unit := do
  let addr ← orReject (decodeHex account) (.invalidHex account)
  rejectIf (addr.length ≠ 20) (.invalid "invalid address length")

def Signer.validate (s : Signer) : Except Error Unit := do
  rejectIf (s.pubkeyG1.length ≠ g1PointSize) (.invalid "invalid G1 pubkey length")
  rejectIf (s.pubkeyG2.length ≠ g2PointSize) (.invalid "invalid G2 pubkey length")
  validateHexAddress s.account

/-- The signature is checked together with the equality of the two keys, `gamma`
times the latter. -/
def Signer.validateSignature (c : Curve) (s : Signer) (hash signature : G1Affine) :
    Except Error Bool := do
  let pubkeyG1 ← orReject (deserializeG1 s.pubkeyG1) sliceOutOfRange
  let pubkeyG2 ← orReject (deserializeG2 s.pubkeyG2) sliceOutOfRange
  let gamma := gamma c hash signature pubkeyG1 pubkeyG2
  let p := [c.add signature (c.scalarMultiplication pubkeyG1 gamma),
    c.add hash (c.scalarMultiplication getG1Generator gamma)]
  let q := [c.neg getG2Generator, pubkeyG2]
  return (c.pairingCheck p q).getD false

/-! ## Hashes -/

/-- The bytes of the digits up to the first that is none. -/
def decodeHexPrefix : List Char → Bytes
  | c :: c' :: cs =>
    match hexDigit c, hexDigit c' with
    | some hi, some lo => Fin.ofNat 256 (16 * hi + lo) :: decodeHexPrefix cs
    | _, _ => []
  | _ => []

def strip0x : List Char → List Char
  | '0' :: 'x' :: cs => cs
  | '0' :: 'X' :: cs => cs
  | cs => cs

/-- Reads any text: a leading `0x` is dropped and an odd number of digits filled up. -/
def hexToAddress (text : String) : Addr :=
  let cs := strip0x text.toList
  bytesToAddress (decodeHexPrefix (if cs.length % 2 = 1 then '0' :: cs else cs))

/-- The first 32 bytes, filled up with zeros behind. -/
def toBytes32 (b : Bytes) : Bytes := b.take 32 ++ List.replicate (32 - b.length) 0

def pubkeyRegistrationHash (c : Curve) (operatorAddress : Addr) (chainId : UInt256) :
    Option G1Affine :=
  mapToCurve c (toBytes32 (c.keccak256
    (operatorAddress ++ beBytes 32 chainId.val ++ strBytes "0G_BN254_Pubkey_Registration")))

def epochRegistrationHash (c : Curve) (operatorAddress : Addr) (epoch : UInt64)
    (chainId : UInt256) : Option G1Affine :=
  mapToCurve c (toBytes32 (c.keccak256
    (operatorAddress ++ beBytes 8 epoch.toNat ++ beBytes 32 chainId.val)))

/-! ## Messages -/

structure MsgRegisterSigner where
  signer : Signer
  signature : Bytes
  deriving DecidableEq, Repr

structure MsgUpdateSocket where
  account : String
  socket : String
  deriving DecidableEq, Repr

structure MsgRegisterNextEpoch where
  account : String
  signature : Bytes
  deriving DecidableEq, Repr

def MsgRegisterSigner.validateBasic (msg : MsgRegisterSigner) : Except Error Unit := do
  msg.signer.validate
  rejectIf (msg.signature.length ≠ g1PointSize) (.invalid "invalid signature")

def MsgUpdateSocket.validateBasic (msg : MsgUpdateSocket) : Except Error Unit :=
  validateHexAddress msg.account

def MsgRegisterNextEpoch.validateBasic (msg : MsgRegisterNextEpoch) : Except Error Unit := do
  validateHexAddress msg.account
  rejectIf (msg.signature.length ≠ g1PointSize) (.invalid "invalid signature")

/-! ## The state -/

def getEpochQuorumKey (epoch quorumId : UInt64) : Bytes :=
  beBytes 8 epoch.toNat ++ beBytes 8 quorumId.toNat

def getQuorumCountKey (epoch : UInt64) : Bytes := beBytes 8 epoch.toNat

/-- The key of a registration, after the part that all of them share. -/
def getEpochRegistrationKey (epoch : UInt64) (account : Bytes) : Bytes :=
  beBytes 8 epoch.toNat ++ account

structure State where
  params : Params
  epochNumber : Option UInt64
  signers : KVStore Bytes Signer
  quorumCounts : KVStore Bytes UInt64
  epochQuorums : KVStore Bytes Quorum
  registrations : KVStore Bytes Bytes
  keyed : ∀ key signer, signers.get key = some signer → decodeHex signer.account = some key

theorem getEpochRegistrationKey_inj {e e' : UInt64} {a a' : Bytes}
    (h : getEpochRegistrationKey e a = getEpochRegistrationKey e' a') : e = e' ∧ a = a' := by
  obtain ⟨h₁, h₂⟩ := List.append_inj h (by simp)
  exact ⟨UInt64.toNat_inj.mp (beBytes_injective e.toNat_lt e'.toNat_lt h₁), h₂⟩

theorem getQuorumCountKey_inj {e e' : UInt64} (h : getQuorumCountKey e = getQuorumCountKey e') :
    e = e' :=
  UInt64.toNat_inj.mp (beBytes_injective e.toNat_lt e'.toNat_lt h)

theorem getEpochQuorumKey_inj {e e' q q' : UInt64}
    (h : getEpochQuorumKey e q = getEpochQuorumKey e' q') :
    e = e' ∧ q = q' := by
  obtain ⟨h₁, h₂⟩ := List.append_inj h (by simp)
  exact ⟨getQuorumCountKey_inj h₁, getQuorumCountKey_inj h₂⟩

theorem decodeHexPrefix_of_decodes {cs : List Char} {b : Bytes} (h : decodeHexDigits cs = some b) :
    decodeHexPrefix cs = b ∧ cs.length % 2 = 0 := by
  induction cs using decodeHexDigits.induct generalizing b with
  | case1 => cases h; exact ⟨rfl, rfl⟩
  | case2 => cases h
  | case3 c c' cs ih =>
    simp only [decodeHexDigits, Option.bind_eq_bind, Option.bind_eq_some_iff, Option.pure_def,
      Option.some.injEq] at h
    obtain ⟨hi, hc, lo, hc', rest, hrest, rfl⟩ := h
    obtain ⟨hp, hl⟩ := ih hrest
    refine ⟨by rw [decodeHexPrefix, hc, hc', hp], ?_⟩
    simp only [List.length_cons]
    omega

theorem strip0x_of_decodes {cs : List Char} {b : Bytes} (h : decodeHexDigits cs = some b) :
    strip0x cs = cs := by
  unfold strip0x
  split
  · simp [decodeHexDigits, show hexDigit 'x' = none by decide] at h
  · simp [decodeHexDigits, show hexDigit 'X' = none by decide] at h
  · rfl

theorem hexToAddress_of_decodes {text : String} {b : Bytes} (h : decodeHex text = some b) :
    hexToAddress text = bytesToAddress b := by
  obtain ⟨hp, hl⟩ := decodeHexPrefix_of_decodes h
  simp only [hexToAddress, strip0x_of_decodes h, hl, zero_ne_one, if_false, hp]

theorem validateHexAddress_ok {account : String} {u : Unit}
    (h : validateHexAddress account = .ok u) :
    ∃ b, decodeHex account = some b ∧ b.length = 20 := by
  simp only [validateHexAddress, bind_eq_ok, orReject_eq_ok, rejectIf_eq_ok, not_not] at h
  exact h

theorem validateHexAddress_of_decodes {account : String} {b : Bytes}
    (h : decodeHex account = some b)
    (hl : b.length = 20) : validateHexAddress account = .ok () := by
  simp [validateHexAddress, h, hl, orReject, rejectIf]

theorem Signer.validate_ok {signer : Signer} {u : Unit} :
    signer.validate = .ok u ↔ signer.pubkeyG1.length = g1PointSize ∧
    signer.pubkeyG2.length = g2PointSize ∧
      validateHexAddress signer.account = .ok () := by
  simp only [Signer.validate, bind_eq_ok, rejectIf_eq_ok, not_not]
  constructor
  · intro h
    obtain ⟨_, h₁, _, h₂, h₃⟩ := h
    exact ⟨h₁, h₂, h₃⟩
  · intro h
    obtain ⟨h₁, h₂, h₃⟩ := h
    exact ⟨(), h₁, (), h₂, h₃⟩

theorem MsgRegisterNextEpoch.validateBasic_ok {msg : MsgRegisterNextEpoch} {u : Unit}
    (h : msg.validateBasic = .ok u) :
    (∃ b, decodeHex msg.account = some b ∧ b.length = 20) ∧ msg.signature.length = g1PointSize := by
  simp only [MsgRegisterNextEpoch.validateBasic, bind_eq_ok, rejectIf_eq_ok, not_not] at h
  obtain ⟨_, ha, hs⟩ := h
  exact ⟨validateHexAddress_ok ha, hs⟩

end ZgChain.Dasigners
