import ZgChain.Evmutil.LedgerSound
import ZgChain.Evmutil.Params

/-!
# Conversions between coins and ERC20 tokens

A coin of the chain is wrapped: the module account locks it and an ERC20 contract of the
module mints as much. A token of the EVM is locked by the module account's address there, and
the bank mints a coin for it. The EVM is a parameter: its state is of any type, and calls
of contracts may fail.
-/

namespace ZgChain.Evmutil

inductive ConvertError where
  | sdkConversionNotEnabled (denom : Denom)
  | denomNotEnabled (denom : Denom)
  | contractNotEnabled (address : InternalEVMAddress)
  | invalidCosmosDenom (denom : Denom)
  | nilContract (denom : Denom)
  | insufficientFunds
  | evmCall (method : String)
  | balanceInvariance (expected actual : Int)
  | unexpectedContractEvent
  | invalidToken (e : ParamsError)
  | bank (e : BankError)
  | evmBank (e : Error)
  | panic (text : String)
  deriving DecidableEq, Repr

abbrev Log := List String

structure EvmKeeper (E : Type) where
  deploy : E → AllowedCosmosCoinERC20Token → Option (InternalEVMAddress × E)
  mint : E → (contract receiver : InternalEVMAddress) → (amount : Int) → Option E
  burn : E → (contract initiator : InternalEVMAddress) → (amount : Int) → Option E
  transfer : E → (contract sender receiver : InternalEVMAddress) → (amount : Int) →
    Option (E × List Log)
  balanceOf : E → (contract account : InternalEVMAddress) → Option Int
  totalSupply : E → (contract : InternalEVMAddress) → Option Int

structure World (A : ModuleAddrs) (E : Type) where
  state : State A
  params : ValidParams
  deployed : KVStore Denom InternalEVMAddress
  evm : E

variable {A : ModuleAddrs} {E : Type}

def moduleEVMAddress (A : ModuleAddrs) : InternalEVMAddress :=
  bytesToInternalEVMAddress (A.addr .evmutil)

namespace World

def bank (w : World A E) : Bank A := w.state.bank

def moduleBalance (w : World A E) (d : Denom) : Int := w.bank.balances (A.addr .evmutil) d

def setBank (w : World A E) (b : Bank A) : World A E :=
  { w with state := { w.state with bank := b } }

def withBank (w : World A E) (x : Except BankError (Bank A)) : Except ConvertError (World A E) :=
  Bank.store w.setBank .bank x

end World

/-- The coins of one coin; an invalid coin makes the code panic. -/
def mustNewCoins (c : Coin) : Except ConvertError Coins := do
  rejectIf ((newCoins c).isValid = false) (.panic "invalid coins")
  return newCoins c

/-! ## Coins of the chain -/

def setDeployedCosmosCoinContract (w : World A E) (cosmosDenom : Denom)
    (contractAddress : InternalEVMAddress) :
    Except ConvertError (World A E) := do
  rejectIf (validateDenom cosmosDenom = false) (.invalidCosmosDenom cosmosDenom)
  rejectIf (contractAddress.isNil = true) (.nilContract cosmosDenom)
  return { w with deployed := w.deployed.set cosmosDenom contractAddress }

def getDeployedCosmosCoinContract (w : World A E) (cosmosDenom : Denom) :
    Option InternalEVMAddress :=
  w.deployed.get cosmosDenom

def deployZgChainWrappedCosmosCoinERC20Contract (evm : EvmKeeper E) (w : World A E)
    (token : AllowedCosmosCoinERC20Token) :
    Except ConvertError (InternalEVMAddress × World A E) := do
  token.validate.mapError .invalidToken
  let (contractAddr, e) ← orReject (evm.deploy w.evm token) (.evmCall "deploy")
  return (contractAddr, { w with evm := e })

def getOrDeployCosmosCoinERC20Contract (evm : EvmKeeper E) (w : World A E)
    (tokenInfo : AllowedCosmosCoinERC20Token) :
    Except ConvertError (InternalEVMAddress × World A E) :=
  match getDeployedCosmosCoinContract w tokenInfo.cosmosDenom with
  | some contractAddress => return (contractAddress, w)
  | none => do
    let (contractAddress, w) ← deployZgChainWrappedCosmosCoinERC20Contract evm w tokenInfo
    let w ← setDeployedCosmosCoinContract w tokenInfo.cosmosDenom contractAddress
    return (contractAddress, w)

def mintERC20 (evm : EvmKeeper E) (w : World A E) (contractAddr receiver : InternalEVMAddress)
    (amount : Int) :
    Except ConvertError (World A E) := do
  let e ← orReject (evm.mint w.evm contractAddr receiver amount) (.evmCall "mint")
  return { w with evm := e }

def burnERC20 (evm : EvmKeeper E) (w : World A E) (contractAddr initiator : InternalEVMAddress)
    (amount : Int) :
    Except ConvertError (World A E) := do
  let e ← orReject (evm.burn w.evm contractAddr initiator amount) (.evmCall "burn")
  return { w with evm := e }

def queryERC20BalanceOf (evm : EvmKeeper E) (w : World A E)
    (contractAddr account : InternalEVMAddress) :
    Except ConvertError Int :=
  orReject (evm.balanceOf w.evm contractAddr account) (.evmCall "balanceOf")

def convertCosmosCoinToERC20 (evm : EvmKeeper E) (w : World A E) (initiator : Addr)
    (receiver : InternalEVMAddress) (amount : Coin) : Except ConvertError (World A E) := do
  let tokenInfo ← orReject (getAllowedTokenMetadata w.params.val amount.denom)
      (.sdkConversionNotEnabled amount.denom)
  let coins ← mustNewCoins amount
  let w ← w.withBank (w.bank.sendCoinsFromAccountToModule initiator .evmutil coins)
  let (contractAddress, w) ← getOrDeployCosmosCoinERC20Contract evm w tokenInfo
  mintERC20 evm w contractAddress receiver amount.amount

def convertCosmosCoinFromERC20 (evm : EvmKeeper E) (w : World A E) (initiator : InternalEVMAddress)
    (receiver : Addr) (coin : Coin) : Except ConvertError (World A E) := do
  let contractAddress ← orReject (getDeployedCosmosCoinContract w coin.denom)
      (.invalidCosmosDenom coin.denom)
  let balance ← queryERC20BalanceOf evm w contractAddress initiator
  rejectIf (balance < coin.amount) .insufficientFunds
  let w ← burnERC20 evm w contractAddress initiator coin.amount
  let coins ← mustNewCoins coin
  w.withBank (w.bank.sendCoinsFromModuleToAccount .evmutil receiver coins)

/-! ## Tokens of the EVM -/

/-- The hash of `Approval(address,address,uint256)`. -/
def logApprovalSigHash : String :=
  "0x8c5be1e5ebec7d5bd14f71427d1e84f3dd0314c0f7b2291e5b200ac8c7c3b925"

def monitorApprovalEvent : List Log → Except ConvertError Unit
  | [] => .ok ()
  -- a log without topics makes the code panic
  | [] :: _ => .error (.panic "index out of range")
  | (topic :: _) :: logs => do
    rejectIf (topic = logApprovalSigHash) .unexpectedContractEvent
    monitorApprovalEvent logs

def callTransfer (evm : EvmKeeper E) (w : World A E)
    (contractAddr sender receiver : InternalEVMAddress) (amount : Int) :
    Except ConvertError (World A E × List Log) := do
  let (e, logs) ← orReject (evm.transfer w.evm contractAddr sender receiver amount)
      (.evmCall "transfer")
  return ({ w with evm := e }, logs)

def unlockERC20Tokens (evm : EvmKeeper E) (w : World A E) (pair : ConversionPair) (amount : Int)
    (receiver : InternalEVMAddress) : Except ConvertError (World A E) := do
  let startBal ← queryERC20BalanceOf evm w pair.getAddress receiver
  let (w, logs) ← callTransfer evm w pair.getAddress (moduleEVMAddress A) receiver amount
  let endBal ← queryERC20BalanceOf evm w pair.getAddress receiver
  -- the receiver has to have the amount afterwards
  rejectIf (startBal + amount ≠ endBal) (.balanceInvariance (startBal + amount) endBal)
  monitorApprovalEvent logs
  return w

def lockERC20Tokens (evm : EvmKeeper E) (w : World A E) (pair : ConversionPair) (amount : Int)
    (initiator : InternalEVMAddress) : Except ConvertError (World A E) := do
  let initiatorStartBal ← queryERC20BalanceOf evm w pair.getAddress initiator
  let (w, logs) ← callTransfer evm w pair.getAddress initiator (moduleEVMAddress A) amount
  let initiatorEndBal ← queryERC20BalanceOf evm w pair.getAddress initiator
  -- the initiator has to have the amount less; what the module got is not looked at
  rejectIf (initiatorStartBal - amount ≠ initiatorEndBal)
    (.balanceInvariance (initiatorStartBal - amount) initiatorEndBal)
  monitorApprovalEvent logs
  return w

def mintConversionPairCoin (w : World A E) (pair : ConversionPair) (amount : Int)
    (recipient : Addr) :
    Except ConvertError (World A E) := do
  let coins ← mustNewCoins ⟨pair.denom, amount⟩
  let w ← w.withBank (w.bank.mintCoins .evmutil coins)
  w.withBank (w.bank.sendCoinsFromModuleToAccount .evmutil recipient coins)

def burnConversionPairCoin (w : World A E) (coin : Coin) (account : Addr) :
    Except ConvertError (World A E) := do
  let coins ← mustNewCoins coin
  let w ← w.withBank (w.bank.sendCoinsFromAccountToModule account .evmutil coins)
  w.withBank (w.bank.burnCoins .evmutil coins)

def convertCoinToERC20 (evm : EvmKeeper E) (w : World A E) (initiatorAccount : Addr)
    (receiverAccount : InternalEVMAddress) (coin : Coin) : Except ConvertError (World A E) := do
  let pair ← orReject (getEnabledConversionPairFromDenom w.params.val coin.denom)
      (.denomNotEnabled coin.denom)
  let w ← burnConversionPairCoin w coin initiatorAccount
  unlockERC20Tokens evm w pair coin.amount receiverAccount

def convertERC20ToCoin (evm : EvmKeeper E) (w : World A E) (initiator : InternalEVMAddress)
    (receiver : Addr)
    (contractAddr : InternalEVMAddress) (amount : Int) : Except ConvertError (World A E) := do
  let pair ← orReject (getEnabledConversionPairFromERC20Address w.params.val contractAddr)
      (.contractNotEnabled contractAddr)
  let w ← lockERC20Tokens evm w pair amount initiator
  mintConversionPairCoin w pair amount receiver

/-! ## Runs -/

inductive Op where
  | convertCosmosCoinToERC20 (initiator : Addr) (receiver : InternalEVMAddress) (amount : Coin)
  | convertCosmosCoinFromERC20 (initiator : InternalEVMAddress) (receiver : Addr) (coin : Coin)
  | convertCoinToERC20 (initiatorAccount : Addr) (receiverAccount : InternalEVMAddress)
      (coin : Coin)
  | convertERC20ToCoin (initiator : InternalEVMAddress) (receiver : Addr)
      (contractAddr : InternalEVMAddress) (amount : Int)
  | evmBank (op : EvmOp)
  /-- A holder's transfer, made on the EVM. -/
  | transfer (contractAddr sender receiver : InternalEVMAddress) (amount : Int)
  deriving DecidableEq

def evmBankOp (w : World A E) (op : EvmOp) : Except ConvertError (World A E) :=
  ((op.exec w.state).map fun s => { w with state := s }).mapError .evmBank

def Op.exec (evm : EvmKeeper E) (w : World A E) : Op → Except ConvertError (World A E)
  | convertCosmosCoinToERC20 initiator receiver amount =>
    Evmutil.convertCosmosCoinToERC20 evm w initiator receiver amount
  | convertCosmosCoinFromERC20 initiator receiver coin =>
    Evmutil.convertCosmosCoinFromERC20 evm w initiator receiver coin
  | convertCoinToERC20 initiator receiver coin =>
    Evmutil.convertCoinToERC20 evm w initiator receiver coin
  | convertERC20ToCoin initiator receiver contract amount =>
    Evmutil.convertERC20ToCoin evm w initiator receiver contract amount
  | evmBank op => evmBankOp w op
  | transfer contract sender receiver amount =>
    Prod.fst <$> callTransfer evm w contract sender receiver amount

/-- A failed operation leaves the world as it was. -/
def step (evm : EvmKeeper E) (w : World A E) (op : Op) : World A E := orElseKeep w (op.exec evm w)

def run (evm : EvmKeeper E) (w : World A E) (ops : List Op) : World A E := runSteps (step evm) w ops

end ZgChain.Evmutil
