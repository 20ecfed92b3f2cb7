import ZgChain.Issuance.Types

/-!
# The issuance keeper

Owners issue and redeem the tokens of their assets, and block addresses, whose
tokens the begin blocker returns to the owner. Parameters are validated whenever
they are written; a failed validation panics, as does an error of the begin
blocker, and both are errors here.
-/

namespace ZgChain.Issuance

variable {A : ModuleAddrs}

def withBank (s : State A) (x : Except BankError (Bank A)) : Except Error (State A) :=
  Bank.store (fun b => { s with bank := b }) .bank x

@[simp] theorem withBank_eq_ok (s s' : State A) (x : Except BankError (Bank A)) :
    withBank s x = .ok s' ↔ ∃ b, x = .ok b ∧ { s with bank := b } = s' :=
  Bank.store_eq_ok

theorem withBank_bank {s s' : State A} {x : Except BankError (Bank A)} (h : withBank s x = .ok s') :
    x = .ok s'.bank :=
  Bank.stored State.bank (fun _ => rfl) h

/-! ## Parameters -/

def setParams (s : State A) (params : Params) : Except Error (State A) :=
  match h : params.validate with
  | .error e => .error e
  | .ok _ => .ok { s with params := ⟨params, h⟩ }

def getAsset (s : State A) (denom : Denom) : Except Error Asset :=
  orReject (s.params.val.assets.find? fun asset => asset.denom = denom) (.assetNotFound denom)

def setAsset (s : State A) (asset : Asset) : Except Error (State A) :=
  setParams s ⟨s.params.val.assets.map fun a => if a.denom = asset.denom then asset else a⟩

def getRateLimit (s : State A) (denom : Denom) : RateLimit :=
  match getAsset s denom with
  | .ok asset => asset.rateLimit
  -- an unknown asset has no limit
  | .error _ => ⟨false, 0, 0⟩

def synchronizeBlockList (s : State A) : Except Error (State A) :=
  s.params.val.assets.foldlM (fun s asset =>
    if asset.blockable = false ∧ asset.blockedAddresses ≠ [] then
      setAsset s { asset with blockedAddresses := [] }
    else .ok s) s

/-! ## Supplies -/

def setAssetSupply (s : State A) (supply : AssetSupply) (denom : Denom) : State A :=
  { s with supplies := s.supplies.set denom supply }

def zeroSupply (denom : Denom) : AssetSupply := ⟨⟨denom, 0⟩, 0⟩

def incrementCurrentAssetSupply (s : State A) (coin : Coin) : Except Error (State A) := do
  let supply ← orReject (s.supplies.get coin.denom) (.assetNotFound coin.denom)
  let limit := getRateLimit s coin.denom
  if limit.active = true then
    rejectIf (limit.limit < 0) (.panic "negative coin amount")
    let supplyLimit : Coin := ⟨coin.denom, limit.limit⟩
    let increased ← orReject (supply.currentSupply.add coin) (.panic "invalid coin denominations")
    let exceeds ← orReject (supplyLimit.isLT increased) (.panic "invalid coin denominations")
    rejectIf (exceeds = true) (.exceedsSupplyLimit coin supply.currentSupply supplyLimit)
    return setAssetSupply s { supply with currentSupply := increased } coin.denom
  else return s

/-- One asset's turn of the rate limit window, from the supply it has or a new one. -/
def updateTimeBasedSupplyLimit (timeElapsed : Duration) (s : State A) (asset : Asset) : State A :=
  let supply := (s.supplies.get asset.denom).getD (zeroSupply asset.denom)
  let supply :=
    if asset.rateLimit.active = false then
      { supply with currentSupply := ⟨asset.denom, 0⟩, timeElapsed := 0 }
    else if supply.timeElapsed + timeElapsed < asset.rateLimit.timePeriod then
      { supply with timeElapsed := supply.timeElapsed + timeElapsed }
    else { supply with currentSupply := ⟨asset.denom, 0⟩, timeElapsed := 0 }
  setAssetSupply s supply asset.denom

def updateTimeBasedSupplyLimits (ctx : Ctx) (s : State A) : State A :=
  let previousBlockTime := s.previousBlockTime.getD ctx.blockTime
  let timeElapsed := Time.sub ctx.blockTime previousBlockTime
  let s := s.params.val.assets.foldl (updateTimeBasedSupplyLimit timeElapsed) s
  { s with previousBlockTime := some ctx.blockTime }

/-! ## Tokens -/

section
variable (env : Env) (s : State A)

def checkOwner (asset : Asset) (owner : Addr) : Except Error Unit :=
  rejectIf (env.bech32 owner ≠ asset.owner) (.notAuthorized asset.owner (env.bech32 owner))

def checkBlockedAddress (asset : Asset) (checkAddress : String) : Option Nat :=
  asset.blockedAddresses.findIdx? fun address => address = checkAddress

def issueTokens (tokens : Coin) (owner receiver : Addr) : Except Error (State A) := do
  let asset ← getAsset s tokens.denom
  checkOwner env asset owner
  rejectIf (asset.paused = true) (.assetPaused tokens.denom)
  rejectIf (asset.blockable = true ∧
    (checkBlockedAddress asset (env.bech32 receiver)).isSome = true)
    (.accountBlocked (env.bech32 receiver))
  rejectIf (s.bank.accounts receiver = true ∧ A.moduleAccountAddrs receiver = true)
    (.issueToModuleAccount (env.bech32 receiver))
  let s ← (if asset.rateLimit.active = true then incrementCurrentAssetSupply s tokens else .ok s)
  let s ← withBank s (s.bank.mintCoins .issuance (newCoins tokens))
  withBank s (s.bank.sendCoinsFromModuleToAccount .issuance receiver (newCoins tokens))

def redeemTokens (tokens : Coin) (owner : Addr) : Except Error (State A) := do
  let asset ← getAsset s tokens.denom
  checkOwner env asset owner
  rejectIf (asset.paused = true) (.assetPaused tokens.denom)
  let s ← withBank s (s.bank.sendCoinsFromAccountToModule owner .issuance (newCoins tokens))
  withBank s (s.bank.burnCoins .issuance (newCoins tokens))

/-! ## Block lists -/

def blockAddress (denom : Denom) (owner blockedAddress : Addr) : Except Error (State A) := do
  let asset ← getAsset s denom
  rejectIf (asset.blockable = false) (.assetUnblockable denom)
  checkOwner env asset owner
  rejectIf ((checkBlockedAddress asset (env.bech32 blockedAddress)).isSome = true)
    (.accountAlreadyBlocked (env.bech32 blockedAddress))
  rejectIf (s.bank.accounts blockedAddress = false) (.accountNotFound (env.bech32 blockedAddress))
  setAsset s { asset with blockedAddresses := asset.blockedAddresses ++
    [env.bech32 blockedAddress] }

/-- The last entry takes the place of the removed one. -/
def removeBlockedAddress (blockedAddrs : List String) (i : Nat) : List String :=
  (blockedAddrs.set i (blockedAddrs.getLast?.getD "")).dropLast

def unblockAddress (denom : Denom) (owner addr : Addr) : Except Error (State A) := do
  let asset ← getAsset s denom
  rejectIf (asset.blockable = false) (.assetUnblockable denom)
  checkOwner env asset owner
  let i ← orReject (checkBlockedAddress asset (env.bech32 addr))
      (.accountAlreadyUnblocked (env.bech32 addr))
  setAsset s { asset with blockedAddresses := removeBlockedAddress asset.blockedAddresses i }

def setPauseStatus (owner : Addr) (denom : Denom) (status : Bool) : Except Error (State A) := do
  let asset ← getAsset s denom
  checkOwner env asset owner
  if asset.paused = status then return s
  else setAsset s { asset with paused := !asset.paused }

end

/-! ## Seizure -/

section
variable (env : Env)

def decodeAddress (str : String) : Except Error Addr :=
  orReject (env.accAddressFromBech32 str) (.invalidAddress "invalid bech32 address")

/-- All coins of an asset that a listed address holds go to the owner, by way of the module
account. -/
def seizeFrom (asset : Asset) (b : Bank A) (address : String) : Except Error (Bank A) := do
  let addr ← decodeAddress env address
  if b.accounts addr = false then return b
  else
    let coinsAmount := b.balances addr asset.denom
    if coinsAmount ≤ 0 then return b
    else
      let coins := newCoins ⟨asset.denom, coinsAmount⟩
      let b ← (b.sendCoinsFromAccountToModule addr .issuance coins).mapError .bank
      let owner ← decodeAddress env asset.owner
      (b.sendCoinsFromModuleToAccount .issuance owner coins).mapError .bank

def seizeCoinsFromBlockedAddresses (s : State A) (denom : Denom) : Except Error (State A) := do
  let asset ← getAsset s denom
  let bank ← asset.blockedAddresses.foldlM (seizeFrom env asset) s.bank
  return { s with bank := bank }

def seizeCoinsForBlockableAssets (s : State A) : Except Error (State A) :=
  s.params.val.assets.foldlM (fun s asset =>
    if asset.blockable = true then seizeCoinsFromBlockedAddresses env s asset.denom else .ok s) s

def beginBlocker (ctx : Ctx) (s : State A) : Except Error (State A) := do
  let s ← seizeCoinsForBlockableAssets env s
  let s ← synchronizeBlockList s
  return updateTimeBasedSupplyLimits ctx s

end

end ZgChain.Issuance
