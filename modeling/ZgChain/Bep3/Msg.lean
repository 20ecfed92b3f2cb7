import ZgChain.Bep3.Swap

/-!
# The messages

A message carries addresses and byte strings as text. It is checked by itself
before it is delivered, and the server decodes it again for the keeper.
-/

namespace ZgChain.Bep3

variable {A : ModuleAddrs}

def maxOtherChainAddrLength : Nat := 64

def swapIDLength : Nat := 32

structure MsgCreateAtomicSwap where
  fromAddr : String
  toAddr : String
  recipientOtherChain : String
  senderOtherChain : String
  randomNumberHash : String
  timestamp : Int64
  amount : Coins
  heightSpan : UInt64
  deriving DecidableEq, Repr

structure MsgClaimAtomicSwap where
  fromAddr : String
  swapID : String
  randomNumber : String
  deriving DecidableEq, Repr

structure MsgRefundAtomicSwap where
  fromAddr : String
  swapID : String
  deriving DecidableEq, Repr

inductive Msg where
  | create (msg : MsgCreateAtomicSwap)
  | claim (msg : MsgClaimAtomicSwap)
  | refund (msg : MsgRefundAtomicSwap)
  deriving DecidableEq, Repr

def decodeAddress (env : Env) (str : String) : Except Error Addr :=
  orReject (env.accAddressFromBech32 str) (.invalidMsg "invalid address")

def decodeBytes (str text : String) : Except Error Bytes :=
  orReject (decodeHex str) (.invalidMsg text)

/-! ## Checks -/

def validateBytes (str : String) (length : Nat) (hexText lengthText : String) :
    Except Error Unit := do
  let bytes ← decodeBytes str hexText
  rejectIf (bytes.length ≠ length) (.invalidMsg lengthText)

def MsgCreateAtomicSwap.validateBasic (env : Env) (msg : MsgCreateAtomicSwap) :
    Except Error Unit := do
  let sender ← decodeAddress env msg.fromAddr
  let recipient ← decodeAddress env msg.toAddr
  rejectIf (sender = []) (.invalidMsg "sender address cannot be empty")
  rejectIf (recipient = []) (.invalidMsg "recipient address cannot be empty")
  rejectIf (isBlank msg.recipientOtherChain = true)
    (.invalidMsg "missing recipient address on other chain")
  rejectIf (maxOtherChainAddrLength < (strBytes msg.recipientOtherChain).length)
    (.invalidMsg "the length of recipient address on other chain should be less than 64")
  rejectIf (maxOtherChainAddrLength < (strBytes msg.senderOtherChain).length)
    (.invalidMsg "the length of sender address on other chain should be less than 64")
  validateBytes msg.randomNumberHash randomNumberHashLength "random number hash should be valid hex"
    "the length of random number hash should be 32"
  rejectIf (msg.timestamp ≤ 0) (.invalidMsg "timestamp must be positive")
  rejectIf (msg.amount = []) (.invalidMsg "amount cannot be empty")
  rejectIf (msg.amount.isValid = false) (.invalidMsg "invalid coins")
  rejectIf (msg.heightSpan ≤ 0) (.invalidMsg "height span must be positive")

def MsgClaimAtomicSwap.validateBasic (env : Env) (msg : MsgClaimAtomicSwap) :
    Except Error Unit := do
  let sender ← decodeAddress env msg.fromAddr
  rejectIf (sender = []) (.invalidMsg "sender address cannot be empty")
  validateBytes msg.swapID swapIDLength "swap id should be valid hex"
    "the length of swapID should be 32"
  validateBytes msg.randomNumber randomNumberLength "random number should be valid hex"
    "the length of random number should be 32"

def MsgRefundAtomicSwap.validateBasic (env : Env) (msg : MsgRefundAtomicSwap) :
    Except Error Unit := do
  let sender ← decodeAddress env msg.fromAddr
  rejectIf (sender = []) (.invalidMsg "sender address cannot be empty")
  validateBytes msg.swapID swapIDLength "swap id should be valid hex"
    "the length of swapID should be 32"

def Msg.validateBasic (env : Env) : Msg → Except Error Unit
  | .create msg => msg.validateBasic env
  | .claim msg => msg.validateBasic env
  | .refund msg => msg.validateBasic env

/-! ## The server -/

namespace MsgServer

def createAtomicSwap (env : Env) (ctx : Ctx) (s : State A) (msg : MsgCreateAtomicSwap) :
    Except Error (State A) := do
  let sender ← decodeAddress env msg.fromAddr
  let recipient ← decodeAddress env msg.toAddr
  let randomNumberHash ← decodeBytes msg.randomNumberHash "random number hash should be valid hex"
  Bep3.createAtomicSwap env ctx s
    { randomNumberHash := randomNumberHash
      timestamp := msg.timestamp
      heightSpan := msg.heightSpan
      sender := sender
      recipient := recipient
      senderOtherChain := msg.senderOtherChain
      recipientOtherChain := msg.recipientOtherChain
      amount := msg.amount
      crossChain := true }

def claimAtomicSwap (env : Env) (ctx : Ctx) (s : State A) (msg : MsgClaimAtomicSwap) :
    Except Error (State A) := do
  -- decoded, and then only named in events
  let _sender ← decodeAddress env msg.fromAddr
  let swapID ← decodeBytes msg.swapID "swap id should be valid hex"
  let randomNumber ← decodeBytes msg.randomNumber "random number should be valid hex"
  Bep3.claimAtomicSwap env ctx s swapID randomNumber

def refundAtomicSwap (env : Env) (ctx : Ctx) (s : State A) (msg : MsgRefundAtomicSwap) :
    Except Error (State A) := do
  let _sender ← decodeAddress env msg.fromAddr
  let swapID ← decodeBytes msg.swapID "swap id should be valid hex"
  Bep3.refundAtomicSwap env ctx s swapID

end MsgServer

def handle (env : Env) (ctx : Ctx) (s : State A) (msg : Msg) : Except Error (State A) := do
  msg.validateBasic env
  match msg with
  | .create msg => MsgServer.createAtomicSwap env ctx s msg
  | .claim msg => MsgServer.claimAtomicSwap env ctx s msg
  | .refund msg => MsgServer.refundAtomicSwap env ctx s msg

inductive Event where
  | beginBlock (ctx : Ctx)
  | deliver (ctx : Ctx) (msg : Msg)

def exec (env : Env) (s : State A) : Event → State A
  | .beginBlock ctx => beginBlocker env ctx s
  -- a failed message leaves the state as it was
  | .deliver ctx msg => orElseKeep s (handle env ctx s msg)

def Event.height : Event → Nat
  | .beginBlock ctx => ctx.blockHeight
  | .deliver ctx _ => ctx.blockHeight

def Event.next (height : Nat) : Event → Nat
  | .beginBlock _ => height + 1
  | .deliver _ _ => height

/-- The events belong to consecutive blocks, beginning in the block at a height. -/
def Follows : Nat → List Event → Prop
  | _, [] => True
  | height, e :: es => e.height = e.next height ∧ Follows e.height es

/-! ## What a handled message did -/

theorem handle_create_ok {env : Env} {ctx : Ctx} {s s' : State A} {msg : MsgCreateAtomicSwap}
    (h : handle env ctx s (.create msg) = .ok s') :
    ∃ args, createAtomicSwap env ctx s args = .ok s' ∧ env.accAddressFromBech32 msg.fromAddr =
      some args.sender ∧
      env.accAddressFromBech32 msg.toAddr = some args.recipient ∧ args.amount = msg.amount ∧
      args.heightSpan = msg.heightSpan ∧ 0 < msg.heightSpan := by
  simp only [handle, Msg.validateBasic, MsgCreateAtomicSwap.validateBasic,
    MsgServer.createAtomicSwap, bind_eq_ok, decodeAddress, orReject_eq_ok, rejectIf_eq_ok] at h
  obtain ⟨_, ⟨_, _, _, _, _, _, _, _, _, _, _, _, _, _, _, _, _, _, _, _, _, _, hspan⟩, sender,
    hsender, recipient,
    hrecipient, hash, _, h⟩ := h
  exact ⟨_, h, hsender, hrecipient, rfl, rfl, UInt64.not_le.mp hspan⟩

theorem handle_claim_ok {env : Env} {ctx : Ctx} {s s' : State A} {msg : MsgClaimAtomicSwap}
    (h : handle env ctx s (.claim msg) = .ok s') :
    ∃ id number, decodeHex msg.swapID = some id ∧ claimAtomicSwap env ctx s id number = .ok s' := by
  simp only [handle, MsgServer.claimAtomicSwap, bind_eq_ok, decodeBytes, orReject_eq_ok] at h
  obtain ⟨_, _, _, _, id, hid, number, _, h⟩ := h
  exact ⟨id, number, hid, h⟩

theorem handle_refund_ok {env : Env} {ctx : Ctx} {s s' : State A} {msg : MsgRefundAtomicSwap}
    (h : handle env ctx s (.refund msg) = .ok s') :
    ∃ id, decodeHex msg.swapID = some id ∧ refundAtomicSwap env ctx s id = .ok s' := by
  simp only [handle, MsgServer.refundAtomicSwap, bind_eq_ok, decodeBytes, orReject_eq_ok] at h
  obtain ⟨_, _, _, _, id, hid, h⟩ := h
  exact ⟨id, hid, h⟩

end ZgChain.Bep3
