import ZgChain.Dasigners.Query

/-!
# The precompiled contract of the data availability signers

Contracts reach the keeper through a contract at a fixed address: eight methods
read and three write. The first four bytes of a call select the method. The
coding of arguments and results is a parameter that works on typed values.
-/

namespace ZgChain.Dasigners.Precompile

abbrev Address := { a : Addr // a.length = 20 }

def Address.ofHex (text : String) : Address := ⟨hexToAddress text, length_bytesToAddress _⟩

def toLowerHexWithoutPrefix (a : Address) : String := encodeHex a.val

structure G1Point where
  x : UInt256
  y : UInt256
  deriving DecidableEq, Repr

structure G2Point where
  x : UInt256 × UInt256
  y : UInt256 × UInt256
  deriving DecidableEq, Repr

structure SignerDetail where
  signer : Address
  socket : String
  pkG1 : G1Point
  pkG2 : G2Point
  deriving DecidableEq

/-- A coordinate of fewer than 32 bytes is filled up in front. -/
def serializeG1 (p : G1Point) : Bytes := beBytes 32 p.x.val ++ beBytes 32 p.y.val

def serializeG2 (p : G2Point) : Bytes :=
  beBytes 32 p.x.1.val ++ beBytes 32 p.x.2.val ++ beBytes 32 p.y.1.val ++ beBytes 32 p.y.2.val

def readWord (b : Bytes) (i : Nat) : UInt256 := Fin.ofNat (2 ^ 256) (beToNat (Bn254util.word b i))

def newBN254G1Point (b : Bytes) : Except Error G1Point := do
  rejectIf (b.length < Bn254util.g1PointSize) sliceOutOfRange
  return ⟨readWord b 0, readWord b 1⟩

def newBN254G2Point (b : Bytes) : Except Error G2Point := do
  rejectIf (b.length < Bn254util.g2PointSize) sliceOutOfRange
  return ⟨(readWord b 0, readWord b 1), (readWord b 2, readWord b 3)⟩

def newIDASignersSignerDetail (signer : Signer) : Except Error SignerDetail := do
  let pkG1 ← newBN254G1Point signer.pubkeyG1
  let pkG2 ← newBN254G2Point signer.pubkeyG2
  return ⟨.ofHex signer.account, signer.socket, pkG1, pkG2⟩

theorem readWord_serializeG1 (p : G1Point) :
    readWord (serializeG1 p) 0 = p.x ∧ readWord (serializeG1 p) 1 = p.y := by
  have hword (n : UInt256) : Fin.ofNat (2 ^ 256) (beToNat (beBytes 32 n.val)) = n := by
    have hn : n.val < 256 ^ 32 := lt_of_lt_of_eq n.isLt (by norm_num)
    rw [beToNat_beBytes, Nat.mod_eq_of_lt hn]
    apply Fin.ext
    exact Nat.mod_eq_of_lt n.isLt
  obtain ⟨h₀, h₁⟩ := Bn254util.words_append (length_beBytes 32 p.x.val) (length_beBytes 32 p.y.val)
  constructor
  · rw [readWord, serializeG1, h₀, hword]
  · rw [readWord, serializeG1, h₁, hword]

/-! ## Methods -/

inductive Method where
  | epochNumber
  | quorumCount
  | getSigner
  | getQuorum
  | getQuorumRow
  | registerSigner
  | updateSocket
  | registerNextEpoch
  | getAggPkG1
  | isSigner
  | registeredEpoch
  deriving DecidableEq, Repr

def methodById (selector : Bytes) : Option Method :=
  match selector.map Fin.val with
  | [0xf4, 0x14, 0x5a, 0x83] => some .epochNumber
  | [0x5e, 0xcb, 0xa5, 0x03] => some .quorumCount
  | [0xd1, 0xf5, 0xe5, 0xf8] => some .getSigner
  | [0x6a, 0xb6, 0xf6, 0x54] => some .getQuorum
  | [0xfa, 0x6f, 0xcb, 0xa6] => some .getQuorumRow
  | [0x7c, 0xa4, 0xdd, 0x5e] => some .registerSigner
  | [0x0c, 0xf4, 0xb7, 0x67] => some .updateSocket
  | [0x56, 0xa3, 0x23, 0x72] => some .registerNextEpoch
  | [0x50, 0xb7, 0x37, 0x39] => some .getAggPkG1
  | [0x7d, 0xf7, 0x3e, 0x27] => some .isSigner
  | [0x6c, 0x9e, 0x56, 0x0c] => some .registeredEpoch
  | _ => none

abbrev Args : Method → Type
  | .epochNumber => Unit
  | .quorumCount => UInt256
  | .getSigner => List Address
  | .getQuorum => UInt256 × UInt256
  | .getQuorumRow => UInt256 × UInt256 × UInt32
  | .registerSigner => SignerDetail × G1Point
  | .updateSocket => String
  | .registerNextEpoch => G1Point
  | .getAggPkG1 => UInt256 × UInt256 × Bytes
  | .isSigner => Address
  | .registeredEpoch => Address × UInt256

abbrev Outputs : Method → Type
  | .epochNumber | .quorumCount => Int
  | .getSigner => List SignerDetail
  | .getQuorum => List Address
  | .getQuorumRow => Address
  | .getAggPkG1 => G1Point × Int × Int
  | .isSigner | .registeredEpoch => Bool
  | .registerSigner | .updateSocket | .registerNextEpoch => Unit

/-- The coding of typed values. Packing a value of its type does not fail. -/
structure Abi where
  unpack : (m : Method) → Bytes → Option (Args m)
  pack : (m : Method) → Outputs m → Bytes

inductive Log where
  | newSigner (signer : Address) (pkG1 : G1Point) (pkG2 : G2Point) (blockNumber : Nat)
  | socketUpdated (signer : Address) (socket : String) (blockNumber : Nat)
  deriving DecidableEq

inductive RunError where
  | executionReverted
  | unpack
  | invalidSender (sender account : String)
  | keeper (e : Error)
  | outOfGas
  deriving DecidableEq, Repr

structure World where
  store : State
  logs : List Log

structure Evm where
  origin : Address

structure Contract where
  caller : Address
  input : Bytes
  gas : Nat

/-! ## Queries -/

/-- Only the low 64 bits of a number are passed on. -/
def low64 (n : UInt256) : UInt64 := UInt64.ofNat n.val

/-- Numbers are returned as signed ones. -/
def toBig (n : UInt64) : Int := n.toInt64.toInt

def epochNumber (s : State) : Except Error Int := do
  let epoch ← getEpochNumber s
  return toBig epoch

def quorumCount (s : State) (epoch : UInt256) : Except Error Int := do
  let count ← getQuorumCount s (low64 epoch)
  return toBig count

/-- An account without a record gives no response, and reading it panics. -/
def getSigner (s : State) (accounts : List Address) : Except Error (List SignerDetail) := do
  let response ← Query.signer s (accounts.map toLowerHexWithoutPrefix)
  let signers ← orReject response (.panic "invalid memory address or nil pointer dereference")
  signers.mapM newIDASignersSignerDetail

def isSigner (s : State) (account : Address) : Except Error Bool := do
  let found ← Dasigners.getSigner s (toLowerHexWithoutPrefix account)
  return found.isSome

def registeredEpoch (s : State) (account : Address) (epoch : UInt256) : Except Error Bool := do
  let found ← getRegistration s (low64 epoch) (toLowerHexWithoutPrefix account)
  return found.isSome

def getQuorum (s : State) (epoch quorumId : UInt256) : Except Error (List Address) := do
  let signers ← getEpochQuorum s (low64 epoch) (low64 quorumId)
  return signers.map Address.ofHex

def getQuorumRow (s : State) (epoch quorumId : UInt256) (rowIndex : UInt32) :
    Except Error Address := do
  let signer ← Query.epochQuorumRow s (low64 epoch) (low64 quorumId) rowIndex
  return .ofHex signer

def getAggPkG1 (env : Env) (s : State) (epoch quorumId : UInt256) (quorumBitmap : Bytes) :
    Except Error (G1Point × Int × Int) := do
  let response ← Query.aggregatePubkeyG1 env s (low64 epoch) (low64 quorumId) quorumBitmap
  let point ← newBN254G1Point response.aggregatePubkeyG1
  return (point, toBig response.total, toBig response.hit)

/-! ## Transactions -/

def newMsgRegisterSigner (detail : SignerDetail) (signature : G1Point) : MsgRegisterSigner :=
  ⟨⟨toLowerHexWithoutPrefix detail.signer, detail.socket, serializeG1 detail.pkG1,
    serializeG2 detail.pkG2⟩,
    serializeG1 signature⟩

def newMsgRegisterNextEpoch (signature : G1Point) (account : String) : MsgRegisterNextEpoch :=
  ⟨account, serializeG1 signature⟩

def newMsgUpdateSocket (socket account : String) : MsgUpdateSocket := ⟨account, socket⟩

def socketUpdatedEvent (ctx : CallCtx) (signer : Address) (socket : String) : List Log :=
  [.socketUpdated signer socket ctx.block.blockHeight]

def newSignerEvent (ctx : CallCtx) (detail : SignerDetail) : List Log :=
  .newSigner detail.signer detail.pkG1 detail.pkG2 ctx.block.blockHeight ::
    socketUpdatedEvent ctx detail.signer detail.socket

def commit (w : World) (x : Except Error State) (logs : List Log) : Except RunError Unit × World :=
  match x with
  | .ok s => (.ok (), ⟨s, w.logs ++ logs⟩)
  | .error e => (.error (.keeper e), w)

def registerSigner (env : Env) (ctx : CallCtx) (evm : Evm) (w : World) (detail : SignerDetail)
    (signature : G1Point) :
    Except RunError Unit × World :=
  let msg := newMsgRegisterSigner detail signature
  let sender := toLowerHexWithoutPrefix evm.origin
  if sender ≠ msg.signer.account then (.error (.invalidSender sender msg.signer.account), w)
  else commit w (Dasigners.registerSigner env ctx w.store msg) (newSignerEvent ctx detail)

def registerNextEpoch (env : Env) (ctx : CallCtx) (evm : Evm) (w : World) (signature : G1Point) :
    Except RunError Unit × World :=
  let msg := newMsgRegisterNextEpoch signature (toLowerHexWithoutPrefix evm.origin)
  commit w (Dasigners.registerNextEpoch env ctx w.store msg) []

def updateSocket (ctx : CallCtx) (evm : Evm) (w : World) (socket : String) :
    Except RunError Unit × World :=
  let msg := newMsgUpdateSocket socket (toLowerHexWithoutPrefix evm.origin)
  commit w (Dasigners.updateSocket w.store msg) (socketUpdatedEvent ctx evm.origin socket)

/-! ## Calls -/

def answer {α : Type} (w : World) (x : Except Error α) : Except RunError α × World :=
  (x.mapError .keeper, w)

def dispatch (env : Env) (ctx : CallCtx) (evm : Evm) (w : World) :
    (m : Method) → Args m → Except RunError (Outputs m) × World
  | .epochNumber, _ => answer w (epochNumber w.store)
  | .quorumCount, epoch => answer w (quorumCount w.store epoch)
  | .getSigner, accounts => answer w (getSigner w.store accounts)
  | .getQuorum, (epoch, quorumId) => answer w (getQuorum w.store epoch quorumId)
  | .getQuorumRow, (epoch, quorumId, rowIndex) =>
    answer w (getQuorumRow w.store epoch quorumId rowIndex)
  | .getAggPkG1, (epoch, quorumId, bitmap) =>
    answer w (getAggPkG1 env w.store epoch quorumId bitmap)
  | .isSigner, account => answer w (isSigner w.store account)
  | .registeredEpoch, (account, epoch) => answer w (registeredEpoch w.store account epoch)
  | .registerSigner, (detail, signature) => registerSigner env ctx evm w detail signature
  | .registerNextEpoch, signature => registerNextEpoch env ctx evm w signature
  | .updateSocket, socket => updateSocket ctx evm w socket

/-- Under the configuration that the contract sets, the store charges nothing. -/
def storeGas : Nat := 0

def decode (abi : Abi) (input : Bytes) : Except RunError ((m : Method) × Args m) := do
  rejectIf (input.length < 4) .executionReverted
  let m ← orReject (methodById (input.take 4)) .executionReverted
  let args ← orReject (abi.unpack m (input.drop 4)) .unpack
  return ⟨m, args⟩

/-- Whether the caller asked for a call without effects is not looked at. -/
def run (abi : Abi) (env : Env) (ctx : CallCtx) (evm : Evm) (contract : Contract) (_readonly : Bool)
    (w : World) :
    Except RunError Bytes × World :=
  match decode abi contract.input with
  | .error e => (.error e, w)
  | .ok ⟨m, args⟩ =>
    match dispatch env ctx evm w m args with
    | (.error e, w') => (.error e, w')
    | (.ok out, w') =>
      (if contract.gas < storeGas then .error .outOfGas else .ok (abi.pack m out), w')

/-! ## What calls change -/

theorem decode_ok {abi : Abi} {input : Bytes} {m : Method} {args : Args m} :
    decode abi input = .ok ⟨m, args⟩ ↔
      4 ≤ input.length ∧ methodById (input.take 4) = some m ∧
      abi.unpack m (input.drop 4) = some args := by
  simp only [decode, bind_eq_ok, rejectIf_eq_ok, orReject_eq_ok, pure_eq_ok, not_lt]
  constructor
  · rintro ⟨_, hl, m', hm, args', ha, e⟩
    cases e
    exact ⟨hl, hm, ha⟩
  · rintro ⟨hl, hm, ha⟩
    exact ⟨(), hl, m, hm, args, ha, rfl⟩

@[simp] theorem answer_world {α : Type} (w : World) (x : Except Error α) : (answer w x).2 = w := rfl

theorem run_world (abi : Abi) (env : Env) (ctx : CallCtx) (evm : Evm) (contract : Contract)
    (readonly : Bool) (w : World) :
    (run abi env ctx evm contract readonly w).2 =
      match decode abi contract.input with
      | .error _ => w
      | .ok ⟨m, args⟩ => (dispatch env ctx evm w m args).2 := by
  unfold run
  cases decode abi contract.input with
  | error e => rfl
  | ok call =>
    obtain ⟨m, args⟩ := call
    dsimp only
    split
    · rename_i h
      rw [h]
    · rename_i h
      rw [h]

theorem commit_world_iff {w : World} {x : Except Error State} {logs : List Log} :
    (commit w x logs).2 = w ↔ ∀ s, x = .ok s → s = w.store ∧ logs = [] := by
  cases x with
  | error e => simp [commit]
  | ok s =>
    obtain ⟨store, ls⟩ := w
    simp [commit]

end ZgChain.Dasigners.Precompile
