import ZgChain.Bep3.Types

/-!
# The bep3 keeper: stores, parameters and supplies

The swap store and its two indexes, the asset parameters, and the four counters
kept for each asset. Arithmetic on coins of different denoms, and a negative coin,
make the code panic; here they are errors.
-/

namespace ZgChain.Bep3

variable {A : ModuleAddrs}

/-! ## Swaps and their indexes -/

section
variable (env : Env) (s : State A)

def setAtomicSwap (a : AtomicSwap) : State A := { s with swaps := s.swaps.set (a.getSwapID env) a }

def getAtomicSwap (swapID : Bytes) : Option AtomicSwap := s.swaps.get swapID

def removeAtomicSwap (swapID : Bytes) : State A := { s with swaps := s.swaps.delete swapID }

def byBlockKey (a : AtomicSwap) : Bytes := getAtomicSwapByHeightKey a.expireHeight (a.getSwapID env)

def longtermKey (a : AtomicSwap) : Bytes :=
  getAtomicSwapByHeightKey (deletionHeight a) (a.getSwapID env)

def insertIntoByBlockIndex (a : AtomicSwap) : State A :=
  { s with byBlock := s.byBlock.set (byBlockKey env a) (a.getSwapID env) }

def removeFromByBlockIndex (a : AtomicSwap) : State A :=
  { s with byBlock := s.byBlock.delete (byBlockKey env a) }

def insertIntoLongtermStorage (a : AtomicSwap) : State A :=
  { s with longterm := s.longterm.set (longtermKey env a) (a.getSwapID env) }

def removeFromLongtermStorage (a : AtomicSwap) : State A :=
  { s with longterm := s.longterm.delete (longtermKey env a) }

def iterateUpTo (index : KVStore Bytes Bytes) (inclusiveCutoff : UInt64) : List Bytes :=
  index.valuesBelow (prefixEndBytes (beBytes 8 inclusiveCutoff.toNat))

end

/-! ## Parameters -/

def getAssets (s : State A) : List AssetParam := s.params.val.assetParams

def getAsset (s : State A) (denom : Denom) : Except Error AssetParam :=
  orReject ((getAssets s).find? fun asset => asset.denom = denom) (.assetNotSupported denom)

def validateLiveAsset (s : State A) (coin : Coin) : Except Error Unit := do
  let asset ← getAsset s coin.denom
  rejectIf (asset.active = false) (.assetNotActive asset.denom)

def getSupplyLimit (s : State A) (denom : Denom) : Except Error SupplyLimit := do
  let asset ← getAsset s denom
  return asset.supplyLimit

theorem getAsset_ok {s : State A} {denom : Denom} {asset : AssetParam}
    (h : getAsset s denom = .ok asset) :
    asset.denom = denom ∧ ∃ seen, asset.validate seen = .ok () := by
  have h := (orReject_eq_ok _ _ _).mp h
  exact ⟨by simpa using List.find?_some h, validateAssetParams_mem s.params.property
    (List.mem_of_find?_eq_some h)⟩

/-! ## Supplies -/

def getAssetSupply (s : State A) (denom : Denom) : Except Error AssetSupply :=
  orReject (s.supplies.get denom) (.assetNotSupported denom)

def setAssetSupply (s : State A) (supply : AssetSupply) (denom : Denom) : State A :=
  { s with supplies := s.supplies.set denom supply }

def addCoin (a b : Coin) : Except Error Coin :=
  orReject (a.add b) (.panic "invalid coin denominations")

def subCoin (a b : Coin) : Except Error Coin := orReject (a.sub b) (.panic "negative coin amount")

def coinIsLT (a b : Coin) : Except Error Bool :=
  orReject (a.isLT b) (.panic "invalid coin denominations")

def incrementCurrentAssetSupply (s : State A) (coin : Coin) : Except Error (State A) := do
  let supply ← getAssetSupply s coin.denom
  let limit ← getSupplyLimit s coin.denom
  let supplyLimit : Coin := ⟨coin.denom, limit.limit⟩
  let increased ← addCoin supply.currentSupply coin
  let exceeds ← coinIsLT supplyLimit increased
  rejectIf (exceeds = true) (.exceedsSupplyLimit coin supply.currentSupply supplyLimit)
  let timeLimited ← (if limit.timeLimited = true then do
      let timeBasedSupplyLimit : Coin := ⟨coin.denom, limit.timeBasedLimit⟩
      let increased ← addCoin supply.timeLimitedCurrentSupply coin
      let exceeds ← coinIsLT timeBasedSupplyLimit increased
      rejectIf (exceeds = true)
        (.exceedsTimeBasedSupplyLimit coin supply.timeLimitedCurrentSupply timeBasedSupplyLimit)
      return increased
    else return supply.timeLimitedCurrentSupply)
  return setAssetSupply s
    { supply with currentSupply := increased, timeLimitedCurrentSupply := timeLimited } coin.denom

def incrementIncomingAssetSupply (s : State A) (coin : Coin) : Except Error (State A) := do
  let supply ← getAssetSupply s coin.denom
  let totalSupply ← addCoin supply.currentSupply supply.incomingSupply
  let limit ← getSupplyLimit s coin.denom
  let supplyLimit : Coin := ⟨coin.denom, limit.limit⟩
  let increased ← addCoin totalSupply coin
  let exceeds ← coinIsLT supplyLimit increased
  rejectIf (exceeds = true) (.exceedsSupplyLimit coin totalSupply supplyLimit)
  (if limit.timeLimited = true then do
      let timeLimitedTotalSupply ← addCoin supply.timeLimitedCurrentSupply supply.incomingSupply
      let timeBasedSupplyLimit : Coin := ⟨coin.denom, limit.timeBasedLimit⟩
      let increased ← addCoin timeLimitedTotalSupply coin
      let exceeds ← coinIsLT timeBasedSupplyLimit increased
      rejectIf (exceeds = true)
        (.exceedsTimeBasedSupplyLimit coin supply.timeLimitedCurrentSupply timeBasedSupplyLimit)
    else return ())
  let incoming ← addCoin supply.incomingSupply coin
  return setAssetSupply s { supply with incomingSupply := incoming } coin.denom

def incrementOutgoingAssetSupply (s : State A) (coin : Coin) : Except Error (State A) := do
  let supply ← getAssetSupply s coin.denom
  let outgoing ← addCoin supply.outgoingSupply coin
  let exceeds ← coinIsLT supply.currentSupply outgoing
  rejectIf (exceeds = true)
    (.exceedsAvailableSupply coin (supply.currentSupply.amount - supply.outgoingSupply.amount))
  return setAssetSupply s { supply with outgoingSupply := outgoing } coin.denom

def decrementAssetSupply (counter : AssetSupply → Coin) (update : AssetSupply → Coin → AssetSupply)
    (error : Coin → Coin → Error) (s : State A) (coin : Coin) : Except Error (State A) := do
  let supply ← getAssetSupply s coin.denom
  rejectIf ((counter supply).amount - coin.amount < 0) (error coin (counter supply))
  let decreased ← subCoin (counter supply) coin
  return setAssetSupply s (update supply decreased) coin.denom

def decrementCurrentAssetSupply (s : State A) (coin : Coin) : Except Error (State A) :=
  decrementAssetSupply AssetSupply.currentSupply
    (fun supply c => { supply with currentSupply := c })
    .invalidCurrentSupply s coin

def decrementIncomingAssetSupply (s : State A) (coin : Coin) : Except Error (State A) :=
  decrementAssetSupply AssetSupply.incomingSupply
    (fun supply c => { supply with incomingSupply := c })
    .invalidIncomingSupply s coin

def decrementOutgoingAssetSupply (s : State A) (coin : Coin) : Except Error (State A) :=
  decrementAssetSupply AssetSupply.outgoingSupply
    (fun supply c => { supply with outgoingSupply := c })
    .invalidOutgoingSupply s coin

def zeroSupply (denom : Denom) (timeElapsed : Duration) : AssetSupply :=
  ⟨⟨denom, 0⟩, ⟨denom, 0⟩, ⟨denom, 0⟩, ⟨denom, 0⟩, timeElapsed⟩

/-- One asset's turn of the time window, from the supply it has or a new one. -/
def updateTimeBasedSupplyLimit (timeElapsed : Duration) (s : State A) (asset : AssetParam) :
    State A :=
  let supply := (s.supplies.get asset.denom).getD (zeroSupply asset.denom 0)
  let newTimeElapsed := supply.timeElapsed + timeElapsed
  let supply :=
    if asset.supplyLimit.timeLimited = true ∧ newTimeElapsed < asset.supplyLimit.timePeriod then
      { supply with timeElapsed := newTimeElapsed }
    else { supply with timeElapsed := 0, timeLimitedCurrentSupply := ⟨asset.denom, 0⟩ }
  setAssetSupply s supply asset.denom

def updateTimeBasedSupplyLimits (ctx : Ctx) (s : State A) : State A :=
  if getAssets s = [] then s
  else
    let previousBlockTime := s.previousBlockTime.getD ctx.blockTime
    let timeElapsed := Time.sub ctx.blockTime previousBlockTime
    let s := (getAssets s).foldl (updateTimeBasedSupplyLimit timeElapsed) s
    { s with previousBlockTime := some ctx.blockTime }

end ZgChain.Bep3
