import ZgChain.Lib.Result
import ZgChain.Lib.Slots
import ZgChain.Sdk.Types

/-!
# The signer

The loop that signs requests with one key and broadcasts them to a node. It takes one
request at a time, keeps the transactions that are in the mempool in slots by their sequence
modulo the limit, and answers a request when the account's sequence has passed its
transaction or when the transaction is refused for good. Sequences are machine words: the
next one wraps around, and so does a difference.
-/

namespace ZgChain.Client

variable {R ε : Type}

structure Account where
  sequence : UInt64
  accountNumber : UInt64
  deriving DecidableEq, Repr

structure SignerData where
  chainID : String
  accountNumber : UInt64
  sequence : UInt64
  deriving DecidableEq, Repr

inductive ResponseError (ε : Type) where
  | sign (err : ε)
  | broadcast (err : ε)
  | unrecoverable (code : Nat)
  deriving DecidableEq, Repr

/-- `result` is the code of the node's last answer, if there was one. -/
structure ZgChainMsgResponse (R ε : Type) where
  request : R
  txBytes : Bytes
  result : Option Nat
  err : Option (ResponseError ε)
  deriving DecidableEq, Repr

structure ZgChainSigner (R ε : Type) where
  chainID : String
  sign : R → SignerData → Except ε Bytes
  inflightTxLimit : UInt64

/-! ## A broadcast -/

/-- What a node does with a transaction: it refuses it before a check, cannot be reached, or
answers with a code. -/
inductive Reply (ε : Type) where
  | preCheck (err : ε)
  | unreachable (err : ε)
  | answer (code : Nat)
  deriving DecidableEq, Repr

inductive BroadcastTxResult where
  | ok
  | failed
  | retry
  | resetSequence
  deriving DecidableEq, Repr

def txResult (code : Nat) : BroadcastTxResult :=
  match code with
  | 0 => .ok
  -- unauthorized
  | 4 => .resetSequence
  -- in the mempool already
  | 19 => .ok
  -- mempool full
  | 20 => .retry
  -- wrong sequence
  | 32 => .resetSequence
  | _ => .failed

/-- The response is updated in place, whatever comes of the broadcast. -/
def afterBroadcast (response : ZgChainMsgResponse R ε) :
    Reply ε → ZgChainMsgResponse R ε × BroadcastTxResult
  | .preCheck err => ({ response with err := some (.broadcast err) }, .failed)
  | .unreachable err => ({ response with err := some (.broadcast err) }, .retry)
  | .answer code =>
    let response := { response with result := some code }
    match txResult code with
    | .failed => ({ response with err := some (.unrecoverable code) }, .failed)
    | r => (response, r)

/-! ## The state of the loop -/

structure State (R ε : Type) where
  account : Account
  currentRequest : Option R
  inflight : List (Option (ZgChainMsgResponse R ε))
  prevDeliverTxSeq : UInt64
  checkTxSeq : UInt64
  broadcastTxSeq : UInt64
  /-- The responses sent so far. -/
  responses : List (ZgChainMsgResponse R ε)

namespace State

def start (limit : UInt64) (account : Account) : State R ε where
  account := account
  currentRequest := none
  inflight := List.replicate limit.toNat none
  prevDeliverTxSeq := account.sequence
  checkTxSeq := account.sequence
  broadcastTxSeq := account.sequence
  responses := []

/-- No request is taken while one is on its way or the limit is reached. -/
def busy (s : State R ε) : Bool :=
  s.currentRequest.isSome || decide (s.inflight.length ≤ (s.checkTxSeq - s.account.sequence).toNat)

def respond (s : State R ε) (response : ZgChainMsgResponse R ε) : State R ε :=
  { s with responses := s.responses ++ [response] }

/-- A delivered sequence: its response is sent, if there is one, and its slot cleared. -/
def deliverOne (s : State R ε) (i : Nat) : State R ε :=
  { s with
    responses := s.responses ++ (Slots.get s.inflight i).toList
    inflight := Slots.put s.inflight i none }

def deliver (s : State R ε) : State R ε :=
  if s.prevDeliverTxSeq < s.account.sequence then
    let delivered :=
      List.range' s.prevDeliverTxSeq.toNat (s.account.sequence.toNat - s.prevDeliverTxSeq.toNat)
    { delivered.foldl deliverOne s with prevDeliverTxSeq := s.account.sequence }
  else s

/-- Sequences used by others are skipped. -/
def catchUp (s : State R ε) : State R ε :=
  if s.checkTxSeq < s.account.sequence then { s with checkTxSeq := s.account.sequence } else s

/-- The sequence of the current request, or the one before. -/
def lastRequestTxSeq (s : State R ε) : UInt64 :=
  if s.currentRequest.isNone && 0 < s.checkTxSeq then s.checkTxSeq - 1 else s.checkTxSeq

def resetBroadcast (s : State R ε) : State R ε :=
  if s.lastRequestTxSeq < s.broadcastTxSeq then
    { s with broadcastTxSeq := s.lastRequestTxSeq } else s

/-- What follows a broadcast of the response, which `stored` says was in its slot before. -/
def settle (s : State R ε) (sendingCurrentRequest stored : Bool) (response : ZgChainMsgResponse R ε)
    (reply : Reply ε) : ForInStep (State R ε) :=
  match afterBroadcast response reply with
  | (response, .ok) =>
    .yield { s with
      inflight := Slots.put s.inflight s.broadcastTxSeq.toNat (some { response with err := none })
      currentRequest := if sendingCurrentRequest then none else s.currentRequest
      checkTxSeq := if sendingCurrentRequest then s.checkTxSeq + 1 else s.checkTxSeq
      broadcastTxSeq := s.broadcastTxSeq + 1 }
  | (response, .failed) =>
    .yield (respond { s with
      inflight := Slots.put s.inflight s.broadcastTxSeq.toNat none
      currentRequest := if sendingCurrentRequest then none else s.currentRequest
      broadcastTxSeq := s.broadcastTxSeq + 1 } response)
  -- the slot has the response itself, not a copy
  | (response, .retry) =>
    .done { s with
      inflight := if stored then Slots.put s.inflight s.broadcastTxSeq.toNat (some response)
        else s.inflight }
  | (response, .resetSequence) =>
    .done { s with
      inflight := if stored then Slots.put s.inflight s.broadcastTxSeq.toNat (some response)
        else s.inflight
      broadcastTxSeq := s.account.sequence }

section
variable (signer : ZgChainSigner R ε)

/-- One turn of the broadcast loop. -/
def broadcastOne (last : UInt64) (reply : Reply ε) (s : State R ε) : ForInStep (State R ε) :=
  let sending := if s.broadcastTxSeq = last then s.currentRequest else none
  match Slots.get s.inflight s.broadcastTxSeq.toNat with
  | some response => s.settle sending.isSome true response reply
  | none =>
    match sending with
    | none => .yield { s with broadcastTxSeq := s.broadcastTxSeq + 1 }
    | some request =>
      match signer.sign request ⟨signer.chainID, s.account.accountNumber, s.broadcastTxSeq⟩ with
      | .error err =>
        .yield (respond { s with currentRequest := none, broadcastTxSeq := s.broadcastTxSeq + 1 }
          ⟨request, [], none, some (.sign err)⟩)
      | .ok txBytes => s.settle true false ⟨request, txBytes, none, none⟩ reply

/-- The loop up to `last`, with `n` sequences to go. -/
def broadcastLoop (last : UInt64) (reply : UInt64 → Reply ε) : Nat → State R ε → State R ε
  | 0, s => s
  | n + 1, s =>
    match s.broadcastOne signer last (reply s.broadcastTxSeq) with
    | .done s => s
    | .yield s => broadcastLoop last reply n s

/-- At the last of all sequences the loop of the source starts over from 0; this one ends. -/
def broadcast (reply : UInt64 → Reply ε) (s : State R ε) : State R ε :=
  s.broadcastLoop signer s.lastRequestTxSeq reply
    (s.lastRequestTxSeq.toNat + 1 - s.broadcastTxSeq.toNat)

end

end State

/-! ## Runs -/

inductive Input (R : Type) where
  | account (account : Account)
  | request (request : R)
  deriving DecidableEq, Repr

/-- What comes in, and how the node answers the broadcasts of the pass that follows. -/
structure Event (R ε : Type) where
  input : Input R
  reply : UInt64 → Reply ε

namespace State

/-- The state after the wait, or nothing if the loop does not take the input now. -/
def receive (s : State R ε) : Input R → Option (State R ε)
  | .account account => some { s with account := account }
  | .request request => if s.busy then none else some { s with currentRequest := some request }

variable (signer : ZgChainSigner R ε)

/-- A pass of the loop. -/
def pass (reply : UInt64 → Reply ε) (s : State R ε) : State R ε :=
  s.deliver.catchUp.resetBroadcast.broadcast signer reply

def step (s : State R ε) (e : Event R ε) : State R ε :=
  match s.receive e.input with
  | none => s
  | some s => s.pass signer e.reply

end State

/-- The signer's loop from the first state of the account it reads. -/
def ZgChainSigner.run (signer : ZgChainSigner R ε) (account : Account) (events : List (Event R ε)) :
    State R ε :=
  runSteps (State.step signer) (State.start signer.inflightTxLimit account) events

/-- The request that an event hands to the loop. -/
def taken (s : State R ε) (e : Event R ε) : List R :=
  match e.input with
  | .account _ => []
  | .request request => if s.busy then [] else [request]

def takenOver (signer : ZgChainSigner R ε) : State R ε → List (Event R ε) → List R
  | _, [] => []
  | s, e :: events => taken s e ++ takenOver signer (s.step signer e) events

end ZgChain.Client
