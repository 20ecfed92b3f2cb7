import ZgChain.Lib.Region
import ZgChain.Pricefeed.Keeper

/-!
# Price feed: the store of bytes

The keeper has one store. Posted and current prices are kept there as bytes, told apart
by the first byte of the key, and the prices of a market are found by a scan of the keys
with a common start. Each record that a scan visits is decoded as a posted price,
whatever was written there.
-/

namespace ZgChain.Pricefeed

/-- The codec of the keeper. The expiry of a posted price may be out of the range of
the encoding; what has been encoded is decoded to what it was. -/
structure Codec where
  marshalPostedPrice : PostedPrice → Except Error Bytes
  unmarshalPostedPrice : Bytes → Except Error PostedPrice
  marshalCurrentPrice : CurrentPrice → Bytes
  unmarshalCurrentPrice : Bytes → Except Error CurrentPrice
  postedPrice : ∀ pp bz, marshalPostedPrice pp = .ok bz → unmarshalPostedPrice bz = .ok pp
  currentPrice : ∀ cp, unmarshalCurrentPrice (marshalCurrentPrice cp) = .ok cp

/-- The parameters are in a store of their own. -/
structure ByteState where
  params : ValidParams
  store : KVStore Bytes Bytes

namespace ByteState

variable (cdc : Codec)

def getMarket (b : ByteState) (marketID : String) : Option Market :=
  b.params.markets.find? fun m => m.marketID = marketID

def setPrice (now : Time) (b : ByteState) (oracle : Addr) (marketID : String) (price : StoredDec)
    (expiry : Time) :
    Except Error ByteState := do
  rejectIf (¬ now < expiry) .expired
  let key ← rawPriceKey marketID oracle
  let bz ← cdc.marshalPostedPrice ⟨marketID, oracle, price, expiry⟩
  return { b with store := b.store.set key bz }

def getRawPrices (b : ByteState) (marketID : String) : Except Error (List PostedPrice) := do
  let key ← rawPriceIteratorKey marketID
  (b.store.entries.filter fun e => key.isPrefixOf e.1).mapM fun e => cdc.unmarshalPostedPrice e.2

def setCurrentPrice (b : ByteState) (marketID : String) (cp : CurrentPrice) : ByteState :=
  { b with store := b.store.set (currentPriceKey marketID) (cdc.marshalCurrentPrice cp) }

def getCurrentPrice (b : ByteState) (marketID : String) : Except Error CurrentPrice :=
  match b.store.get (currentPriceKey marketID) with
  | none => .error .noValidPrice
  | some bz => do
    let price ← cdc.unmarshalCurrentPrice bz
    if price.price.val = 0 then .error .noValidPrice else .ok price

/-- The previous price is read for an event only. -/
def setCurrentPrices (now : Time) (b : ByteState) (marketID : String) :
    Except Error (Option Error × ByteState) :=
  match b.getMarket marketID with
  | none => .ok (some (.invalidMarket marketID), b)
  | some _ => do
    let prices ← b.getRawPrices cdc marketID
    let notExpiredPrices :=
      (prices.filter fun pp => now < pp.expiry).map fun pp => ⟨pp.marketID, pp.price⟩
    if notExpiredPrices = [] then
      return (some .noValidPrice, b.setCurrentPrice cdc marketID .empty)
    let medianPrice ← calculateMedianPrice notExpiredPrices
    return (none, b.setCurrentPrice cdc marketID ⟨marketID, medianPrice⟩)

end ByteState

/-! ## Calls -/

inductive Call where
  | setPrice (now : Time) (oracle : Addr) (marketID : String) (price : StoredDec) (expiry : Time)
  | setCurrentPrices (now : Time) (marketID : String)

namespace ByteState

variable (cdc : Codec)

/-- A call that panics does so before it writes. -/
def call (b : ByteState) : Call → ByteState
  | .setPrice now oracle marketID price expiry =>
    orElseKeep b (b.setPrice cdc now oracle marketID price expiry)
  | .setCurrentPrices now marketID =>
    match b.setCurrentPrices cdc now marketID with
    | .ok (_, b') => b'
    | .error _ => b

def accepted (b : ByteState) : Call → Option PostedPrice
  | .setPrice now oracle marketID price expiry =>
    match b.setPrice cdc now oracle marketID price expiry with
    | .ok _ => some ⟨marketID, oracle, price, expiry⟩
    | .error _ => none
  | .setCurrentPrices _ _ => none

def history (b : ByteState) : List Call → List PostedPrice
  | [] => []
  | c :: cs => (b.accepted cdc c).toList ++ history (b.call cdc c) cs

end ByteState

end ZgChain.Pricefeed
