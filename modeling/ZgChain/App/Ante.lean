import ZgChain.App.AuthzLimiter
import ZgChain.Bep3.Keeper
import ZgChain.Pricefeed.Keeper
import ZgChain.Sdk.Coins

/-!
# The ante handler

A transaction takes one of three routes, chosen by its extension option. On each route it
passes a chain of decorators, some of this application and most of the libraries, which are
parameters here. A panic on the way is turned into an error.
-/

namespace ZgChain

/-- The addresses without those that occurred before. -/
def uniqueAddresses (addresses : List Addr) : List Addr :=
  addresses.foldl (fun unique a => if a ∈ unique then unique else unique ++ [a]) []

/-- The deputies of all assets. -/
def Bep3.getAuthorizedAddresses (params : Bep3.ValidParams) : List Addr :=
  uniqueAddresses (params.val.assetParams.map AssetParam.deputyAddress)

/-- The oracles of all markets. -/
def Pricefeed.getAuthorizedAddresses (params : Pricefeed.ValidParams) : List Addr :=
  uniqueAddresses (params.markets.flatMap Market.oracles)

namespace Ante

open Authz

/-- What the decorators of the application read of a context, and what the libraries keep in it. -/
structure Context (C : Type) where
  isCheckTx : Bool
  /-- Prices for a unit of gas, in units of `10 ^ -18`. -/
  minGasPrices : Coins
  bep3Params : Bep3.ValidParams
  pricefeedParams : Pricefeed.ValidParams
  evmDenom : Denom
  rest : C

/-- Transactions of some types have no extension options, or no signers that could be verified. -/
structure Tx where
  getMsgs : List Msg
  getExtensionOptions : Option (List String)
  getSigners : Option (List Addr)

inductive AnteError (ε : Type) where
  | logic (text : String)
  | invalidRequest (text : String)
  | unknownExtensionOptions (typeURL : String)
  | txDecode (text : String)
  | unauthorized (text : String)
  | notSupported (typeURL : String)
  | disabledMsg (err : CheckError)
  /-- A panic that nobody has recovered from. -/
  | panic (text : String)
  | errPanic (text : String)
  | library (err : ε)
  deriving DecidableEq, Repr

variable {C ε : Type}

abbrev AnteHandler (C ε : Type) := Context C → Tx → Bool → Except (AnteError ε) (Context C)

abbrev AnteDecorator (C ε : Type) :=
  Context C → Tx → Bool → AnteHandler C ε → Except (AnteError ε) (Context C)

def chainAnteDecorators : List (AnteDecorator C ε) → AnteHandler C ε
  | [] => fun ctx _ _ => .ok ctx
  | d :: decorators => fun ctx tx simulate => d ctx tx simulate (chainAnteDecorators decorators)

/-! ## The decorators of the application -/

abbrev AddressFetcher (C : Type) := Context C → List Addr

def fetchAuthorizedAddresses (addressFetchers : List (AddressFetcher C)) (ctx : Context C) :
    List Addr :=
  addressFetchers.flatMap fun fetch => fetch ctx

def commonAddressesExist (addresses1 addresses2 : List Addr) : Bool :=
  addresses1.any fun a1 => addresses2.any fun a2 => a1 == a2

def authenticatedMempoolDecorator (addressFetchers : List (AddressFetcher C)) : AnteDecorator C ε :=
  fun ctx tx simulate next =>
    if ctx.isCheckTx = true ∧ simulate = false then do
      let signers ← orReject tx.getSigners (.txDecode "tx must be sig verifiable tx")
      rejectIf (commonAddressesExist signers (fetchAuthorizedAddresses addressFetchers ctx) = false)
        (.unauthorized "tx contains no signers authorized for this mempool")
      next ctx tx simulate
    else next ctx tx simulate

def filterMinGasPrices (evmDenom : Denom) (prices : Coins) : Coins :=
  prices.foldl (fun filtered gasPrice => if gasPrice.denom ≠ evmDenom then filtered.addCoin gasPrice
    else filtered) []

def evmMinGasFilter : AnteDecorator C ε :=
  fun ctx tx simulate next =>
    if validateDenom ctx.evmDenom = false then .error (.panic s!"invalid denom: {ctx.evmDenom}")
    else if 0 < ctx.minGasPrices.amountOf ctx.evmDenom then
      next { ctx with minGasPrices := filterMinGasPrices ctx.evmDenom ctx.minGasPrices } tx simulate
    else next ctx tx simulate

def vestingDisabledMsgTypeUrls : List String := []

def vestingAccountDecorator : AnteDecorator C ε :=
  fun ctx tx simulate next =>
    match tx.getMsgs.find? fun msg => vestingDisabledMsgTypeUrls.any fun url =>
      msg.typeURL == url with
    | some msg => .error (.notSupported msg.typeURL)
    | none => next ctx tx simulate

def authzLimiterDecorator (disabledMsgTypes : List String) : AnteDecorator C ε :=
  fun ctx tx simulate next =>
    match (AuthzLimiterDecorator.mk disabledMsgTypes).checkForDisabledMsg true tx.getMsgs with
    | .error err => .error (.disabledMsg err)
    | .ok () => next ctx tx simulate

/-! ## The routes -/

/-- The decorators of the libraries. -/
inductive Library where
  | rejectMessages
  | setUpContext
  | extensionOptions
  | sigVerification
  | legacyEip712SigVerification
  | validateBasic
  | txTimeoutHeight
  | validateMemo
  | consumeGasForTxSize
  | deductFee
  | setPubKey
  | validateSigCount
  | sigGasConsume
  | incrementSequence
  | redundantRelay
  | ethSetUpContext
  | ethMempoolFee
  | ethValidateBasic
  | ethSigVerification
  | ethAccountVerification
  | canTransfer
  | ethGasConsume
  | ethIncrementSenderSequence
  | ethEmitEvent
  deriving DecidableEq, Repr

/-- Whether the keepers that are checked are given, and what the handler uses of the rest. -/
structure HandlerOptions (C ε : Type) where
  accountKeeper : Bool
  bankKeeper : Bool
  signModeHandler : Bool
  evmKeeper : Bool
  addressFetchers : List (AddressFetcher C)
  library : Library → AnteDecorator C ε

def HandlerOptions.validate (options : HandlerOptions C ε) : Except (AnteError ε) Unit := do
  rejectIf (options.accountKeeper = false) (.logic "account keeper is required for AnteHandler")
  rejectIf (options.bankKeeper = false) (.logic "bank keeper is required for AnteHandler")
  rejectIf (options.signModeHandler = false)
    (.logic "sign mode handler is required for ante builder")
  rejectIf (options.evmKeeper = false) (.logic "evm keeper is required for AnteHandler")

/-- The messages that authorizations may not carry. -/
def authzDisabledMsgTypes : List String :=
  [ethereumTxURL,
    "/cosmos.vesting.v1beta1.MsgCreateVestingAccount",
    "/cosmos.vesting.v1beta1.MsgCreatePermanentLockedAccount",
    "/cosmos.vesting.v1beta1.MsgCreatePeriodicVestingAccount"]

def newCosmosAnteHandler (options : HandlerOptions C ε) (isEIP712 : Bool) : AnteHandler C ε :=
  chainAnteDecorators <|
    [options.library .rejectMessages, options.library .setUpContext] ++
    (if isEIP712 then [] else [options.library .extensionOptions]) ++
    (if options.addressFetchers.isEmpty then []
      else [authenticatedMempoolDecorator options.addressFetchers]) ++
    [evmMinGasFilter, vestingAccountDecorator, authzLimiterDecorator authzDisabledMsgTypes,
      options.library .validateBasic,
      options.library .txTimeoutHeight,
      options.library .validateMemo,
      options.library .consumeGasForTxSize,
      options.library .deductFee,
      options.library .setPubKey,
      options.library .validateSigCount,
      options.library .sigGasConsume,
      options.library (if isEIP712 then .legacyEip712SigVerification else .sigVerification),
      options.library .incrementSequence,
      options.library .redundantRelay]

def newEthAnteHandler (options : HandlerOptions C ε) : AnteHandler C ε :=
  chainAnteDecorators
    [options.library .ethSetUpContext,
      options.library .ethMempoolFee,
      options.library .ethValidateBasic,
      options.library .ethSigVerification,
      options.library .ethAccountVerification,
      options.library .canTransfer,
      options.library .ethGasConsume,
      options.library .ethIncrementSenderSequence,
      options.library .ethEmitEvent]

def recover {α : Type} : Except (AnteError ε) α → Except (AnteError ε) α
  | .error (.panic text) => .error (.errPanic text)
  | result => result

def extensionOptionsEthereumTx : String := "/ethermint.evm.v1.ExtensionOptionsEthereumTx"

def extensionOptionsWeb3Tx : String := "/ethermint.types.v1.ExtensionOptionsWeb3Tx"

/-- The handler that the extension option of the transaction calls for. -/
def route (options : HandlerOptions C ε) (tx : Tx) : Except (AnteError ε) (AnteHandler C ε) :=
  match tx.getExtensionOptions.getD [] with
  | [] => .ok (newCosmosAnteHandler options false)
  | [typeURL] =>
    if typeURL = extensionOptionsEthereumTx then .ok (newEthAnteHandler options)
    else if typeURL = extensionOptionsWeb3Tx then .ok (newCosmosAnteHandler options true)
    else .error (.unknownExtensionOptions typeURL)
  | _ => .error (.invalidRequest "rejecting tx with more than 1 extension option")

def newAnteHandler (options : HandlerOptions C ε) : Except (AnteError ε) (AnteHandler C ε) := do
  options.validate
  return fun ctx tx simulate => recover do
    let anteHandler ← route options tx
    anteHandler ctx tx simulate

/-! ## The addresses that a closed mempool admits -/

def mempoolFetchers (mempoolEnableAuth : Bool) (mempoolAuthAddresses : List Addr) :
    List (AddressFetcher C) :=
  if mempoolEnableAuth then
    [fun _ => mempoolAuthAddresses, fun ctx => Bep3.getAuthorizedAddresses ctx.bep3Params,
      fun ctx => Pricefeed.getAuthorizedAddresses ctx.pricefeedParams]
  else []

end Ante

end ZgChain
