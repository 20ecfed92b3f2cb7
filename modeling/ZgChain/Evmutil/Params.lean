import ZgChain.Sdk.Types

/-!
# Parameters of evmutil

Two lists say what may be converted: pairs of an ERC20 contract and a denom for tokens of
the EVM, and the denoms of coins that get an ERC20 contract of their own. Both are
checked before they are stored.
-/

namespace ZgChain.Evmutil

abbrev InternalEVMAddress := { a : Addr // a.length = 20 }

def bytesToInternalEVMAddress (b : Bytes) : InternalEVMAddress :=
  ⟨bytesToAddress b, length_bytesToAddress b⟩

def InternalEVMAddress.isNil (a : InternalEVMAddress) : Bool := a.val == List.replicate 20 0

inductive ParamsError where
  | pairDenomInvalid (denom : Denom)
  | pairAddressLength (length : Nat)
  | pairAddressZero
  | duplicatePairAddress (address : Bytes)
  | duplicatePairDenom (denom : Denom)
  | tokenDenomInvalid (denom : Denom)
  | tokenNameEmpty
  | tokenSymbolEmpty
  | tokenDecimals (decimals : UInt32)
  | tokenAt (index : Nat) (e : ParamsError)
  | duplicateTokenDenom (denom : Denom)
  | duplicateTokenSymbol (symbol : String)
  deriving DecidableEq, Repr

/-! ## Pairs for tokens of the EVM -/

structure ConversionPair where
  zgChainERC20Address : Bytes
  denom : Denom
  deriving DecidableEq, Repr

def ConversionPair.getAddress (pair : ConversionPair) : InternalEVMAddress :=
  bytesToInternalEVMAddress pair.zgChainERC20Address

def ConversionPair.validate (pair : ConversionPair) : Except ParamsError Unit := do
  rejectIf (validateDenom pair.denom = false) (.pairDenomInvalid pair.denom)
  rejectIf (pair.zgChainERC20Address.length ≠ 20)
    (.pairAddressLength pair.zgChainERC20Address.length)
  rejectIf (pair.zgChainERC20Address = List.replicate 20 0) .pairAddressZero

def validateConversionPairs (addrs : List Bytes) (denoms : List Denom) :
    List ConversionPair → Except ParamsError Unit
  | [] => .ok ()
  | pair :: pairs => do
    rejectIf (pair.zgChainERC20Address ∈ addrs) (.duplicatePairAddress pair.zgChainERC20Address)
    rejectIf (pair.denom ∈ denoms) (.duplicatePairDenom pair.denom)
    pair.validate
    validateConversionPairs (pair.zgChainERC20Address :: addrs) (pair.denom :: denoms) pairs

/-! ## Coins with a contract of their own -/

structure AllowedCosmosCoinERC20Token where
  cosmosDenom : Denom
  name : String
  symbol : String
  decimals : UInt32
  deriving DecidableEq, Repr

def AllowedCosmosCoinERC20Token.validate (token : AllowedCosmosCoinERC20Token) :
    Except ParamsError Unit := do
  rejectIf (validateDenom token.cosmosDenom = false) (.tokenDenomInvalid token.cosmosDenom)
  rejectIf (token.name = "") .tokenNameEmpty
  rejectIf (token.symbol = "") .tokenSymbolEmpty
  rejectIf (255 < token.decimals) (.tokenDecimals token.decimals)

def validateAllowedCosmosCoinERC20Tokens (denoms : List Denom) (symbols : List String) (i : Nat) :
    List AllowedCosmosCoinERC20Token → Except ParamsError Unit
  | [] => .ok ()
  | t :: tokens => do
    t.validate.mapError (.tokenAt i)
    rejectIf (t.cosmosDenom ∈ denoms) (.duplicateTokenDenom t.cosmosDenom)
    rejectIf (t.symbol ∈ symbols) (.duplicateTokenSymbol t.symbol)
    validateAllowedCosmosCoinERC20Tokens (t.cosmosDenom :: denoms) (t.symbol :: symbols)
      (i + 1) tokens

structure Params where
  enabledConversionPairs : List ConversionPair
  allowedCosmosDenoms : List AllowedCosmosCoinERC20Token
  deriving DecidableEq, Repr

def Params.validate (p : Params) : Except ParamsError Unit := do
  validateConversionPairs [] [] p.enabledConversionPairs
  validateAllowedCosmosCoinERC20Tokens [] [] 0 p.allowedCosmosDenoms

abbrev ValidParams := { p : Params // p.validate = .ok () }

/-! ## Lookups -/

def getAllowedTokenMetadata (p : Params) (cosmosDenom : Denom) :
    Option AllowedCosmosCoinERC20Token :=
  p.allowedCosmosDenoms.find? fun token => token.cosmosDenom == cosmosDenom

def getEnabledConversionPairFromERC20Address (p : Params) (address : InternalEVMAddress) :
    Option ConversionPair :=
  p.enabledConversionPairs.find? fun pair => pair.zgChainERC20Address == address.val

def getEnabledConversionPairFromDenom (p : Params) (denom : Denom) : Option ConversionPair :=
  p.enabledConversionPairs.find? fun pair => pair.denom == denom

end ZgChain.Evmutil
