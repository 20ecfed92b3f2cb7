import ZgChain.Issuance.Keeper

/-!
# The issuance messages

The owner's messages, their checks and their server, and the runs made of these
messages, transfers between accounts, new vesting accounts and begin blockers.
-/

namespace ZgChain.Issuance

variable {A : ModuleAddrs}

structure MsgIssueTokens where
  sender : String
  tokens : Coin
  receiver : String
  deriving DecidableEq, Repr

structure MsgRedeemTokens where
  sender : String
  tokens : Coin
  deriving DecidableEq, Repr

structure MsgBlockAddress where
  sender : String
  denom : Denom
  blockedAddress : String
  deriving DecidableEq, Repr

structure MsgUnblockAddress where
  sender : String
  denom : Denom
  blockedAddress : String
  deriving DecidableEq, Repr

structure MsgSetPauseStatus where
  sender : String
  denom : Denom
  status : Bool
  deriving DecidableEq, Repr

inductive Msg where
  | issueTokens (msg : MsgIssueTokens)
  | redeemTokens (msg : MsgRedeemTokens)
  | blockAddress (msg : MsgBlockAddress)
  | unblockAddress (msg : MsgUnblockAddress)
  | setPauseStatus (msg : MsgSetPauseStatus)
  deriving DecidableEq, Repr

/-! ## Checks -/

section
variable (env : Env)

def validateAddress (address emptyText invalidText : String) : Except Error Unit := do
  rejectIf (address = "") (.invalidAddress emptyText)
  rejectIf (env.accAddressFromBech32 address = none) (.invalidAddress invalidText)

def validateSender (sender : String) : Except Error Unit :=
  validateAddress env sender "sender address cannot be empty" "invalid sender bech32 address"

def validateTokens (tokens : Coin) : Except Error Unit :=
  rejectIf (tokens.amount = 0 ∨ tokens.isValid = false) (.invalidCoins tokens)

def MsgIssueTokens.validateBasic (msg : MsgIssueTokens) : Except Error Unit := do
  validateSender env msg.sender
  validateTokens msg.tokens
  validateAddress env msg.receiver "receiver address cannot be empty"
    "invalid receiver bech32 address"

def MsgRedeemTokens.validateBasic (msg : MsgRedeemTokens) : Except Error Unit := do
  validateSender env msg.sender
  validateTokens msg.tokens

/-- A listed address need not be an address. -/
def validateListing (sender : String) (denom : Denom) (blockedAddress : String) :
    Except Error Unit := do
  validateSender env sender
  rejectIf (blockedAddress = "") (.invalidAddress "blocked address cannot be empty")
  rejectIf (validateDenom denom = false) (.invalidDenom denom)

def MsgBlockAddress.validateBasic (msg : MsgBlockAddress) : Except Error Unit :=
  validateListing env msg.sender msg.denom msg.blockedAddress

def MsgUnblockAddress.validateBasic (msg : MsgUnblockAddress) : Except Error Unit :=
  validateListing env msg.sender msg.denom msg.blockedAddress

def MsgSetPauseStatus.validateBasic (msg : MsgSetPauseStatus) : Except Error Unit := do
  validateSender env msg.sender
  rejectIf (validateDenom msg.denom = false) (.invalidDenom msg.denom)

def Msg.validateBasic : Msg → Except Error Unit
  | .issueTokens msg => msg.validateBasic env
  | .redeemTokens msg => msg.validateBasic env
  | .blockAddress msg => msg.validateBasic env
  | .unblockAddress msg => msg.validateBasic env
  | .setPauseStatus msg => msg.validateBasic env

/-! ## The server -/

variable (s : State A)

namespace MsgServer

def issueTokens (msg : MsgIssueTokens) : Except Error (State A) := do
  let sender ← decodeAddress env msg.sender
  let receiver ← decodeAddress env msg.receiver
  Issuance.issueTokens env s msg.tokens sender receiver

def redeemTokens (msg : MsgRedeemTokens) : Except Error (State A) := do
  let sender ← decodeAddress env msg.sender
  Issuance.redeemTokens env s msg.tokens sender

def blockAddress (msg : MsgBlockAddress) : Except Error (State A) := do
  let sender ← decodeAddress env msg.sender
  let blockedAddress ← decodeAddress env msg.blockedAddress
  Issuance.blockAddress env s msg.denom sender blockedAddress

def unblockAddress (msg : MsgUnblockAddress) : Except Error (State A) := do
  let sender ← decodeAddress env msg.sender
  let blockedAddress ← decodeAddress env msg.blockedAddress
  Issuance.unblockAddress env s msg.denom sender blockedAddress

def setPauseStatus (msg : MsgSetPauseStatus) : Except Error (State A) := do
  let sender ← decodeAddress env msg.sender
  Issuance.setPauseStatus env s sender msg.denom msg.status

end MsgServer

def handle (msg : Msg) : Except Error (State A) := do
  msg.validateBasic env
  match msg with
  | .issueTokens msg => MsgServer.issueTokens env s msg
  | .redeemTokens msg => MsgServer.redeemTokens env s msg
  | .blockAddress msg => MsgServer.blockAddress env s msg
  | .unblockAddress msg => MsgServer.unblockAddress env s msg
  | .setPauseStatus msg => MsgServer.setPauseStatus env s msg

/-! ## Runs -/

inductive Op where
  | deliver (msg : Msg)
  | send (src dst : Addr) (amt : Coins)
  | createVestingAccount (src dst : Addr) (amt : Coins)
  | vest (a : Addr) (d : Denom) (n : Nat)
  | beginBlock (ctx : Ctx)

def step : Op → State A
  | .deliver msg => orElseKeep s (handle env s msg)
  | .send src dst amt => orElseKeep s (withBank s (s.bank.sendCoins src dst amt))
  | .createVestingAccount src dst amt =>
    orElseKeep s (withBank s (s.bank.createVestingAccount src dst amt))
  | .vest a d n => { s with bank := s.bank.vest a d n }
  | .beginBlock ctx => orElseKeep s (beginBlocker env ctx s)

end

end ZgChain.Issuance
