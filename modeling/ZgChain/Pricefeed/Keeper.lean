import ZgChain.Lib.Median
import ZgChain.Pricefeed.Types

/-!
# Price feed: keeper, end blocker and genesis

An oracle is checked when it posts a price, and a price is checked for expiry when the
current price of its market is set. The median of two middle prices is their mean, and
their sum may be too large for a decimal.
-/

namespace ZgChain.Pricefeed

structure State where
  params : ValidParams
  rawPrices : KVStore Bytes PostedPrice
  currentPrices : KVStore Bytes CurrentPrice
  keyed : ∀ k pp, rawPrices.get k = some pp → rawPriceKey pp.marketID pp.oracleAddress = .ok k

/-! ## Parameters -/

def setParams (s : State) (p : Params) : Except Error State :=
  match h : p.validate with
  | .ok () => .ok { s with params := ⟨p, h⟩ }
  | .error e => .error e

def getMarket (s : State) (marketID : String) : Option Market :=
  s.params.markets.find? fun m => m.marketID = marketID

def getOracles (s : State) (marketID : String) : Except Error (List Addr) := do
  let m ← orReject (getMarket s marketID) (.invalidMarket marketID)
  return m.oracles

def getOracle (s : State) (marketID : String) (address : Addr) : Except Error Addr := do
  let oracles ← getOracles s marketID
  rejectIf (address ∉ oracles) (.invalidOracle address)
  return address

/-! ## Prices -/

def putPrice (s : State) (pp : PostedPrice) (k : Bytes)
    (hk : rawPriceKey pp.marketID pp.oracleAddress = .ok k) : State :=
  { s with
    rawPrices := s.rawPrices.set k pp
    keyed := by
      intro k' pp' h
      rw [KVStore.get_set] at h
      split at h
      · cases h
        rename_i e
        rw [e]
        exact hk
      · exact s.keyed k' pp' h }

def setPrice (now : Time) (s : State) (oracle : Addr) (marketID : String) (price : StoredDec)
    (expiry : Time) :
    Except Error State := do
  rejectIf (¬ now < expiry) .expired
  match h : rawPriceKey marketID oracle with
  | .ok k => return putPrice s ⟨marketID, oracle, price, expiry⟩ k h
  | .error e => .error e

def getRawPrices (s : State) (marketID : String) : Except Error (List PostedPrice) := do
  let key ← rawPriceIteratorKey marketID
  return (s.rawPrices.entries.filter fun e => key.isPrefixOf e.1).map Prod.snd

def setCurrentPrice (s : State) (marketID : String) (cp : CurrentPrice) : State :=
  { s with currentPrices := s.currentPrices.set (currentPriceKey marketID) cp }

def intOverflow : Error := .panic "Int overflow"

def calculateMeanPrice (priceA priceB : StoredDec) : Except Error StoredDec := do
  let sum ← orReject (priceA.add priceB) intOverflow
  orReject (sum.quo (newDec 2)) intOverflow

def indexOutOfRange : Error := .panic "runtime error: index out of range"

/-- Of the sorted slice only the prices are read, and equal prices are the same. -/
def calculateMedianPrice (prices : List CurrentPrice) : Except Error StoredDec :=
  let l := prices.length
  let sorted := ascending (prices.map CurrentPrice.price)
  if l = 1 then
    orReject ((prices.map CurrentPrice.price)[0]?) indexOutOfRange
  else if l % 2 = 0 then do
    let priceA ← orReject (sorted[l / 2 - 1]?) indexOutOfRange
    let priceB ← orReject (sorted[l / 2]?) indexOutOfRange
    calculateMeanPrice priceA priceB
  else
    orReject (sorted[l / 2]?) indexOutOfRange

/-- The error that is returned, with the state: a market without a price is written
and is an error. An error of the whole is a panic. -/
def setCurrentPrices (now : Time) (s : State) (marketID : String) :
    Except Error (Option Error × State) :=
  match getMarket s marketID with
  | none => .ok (some (.invalidMarket marketID), s)
  | some _ => do
    let prices ← getRawPrices s marketID
    let notExpiredPrices :=
      (prices.filter fun pp => now < pp.expiry).map fun pp => ⟨pp.marketID, pp.price⟩
    if notExpiredPrices = [] then
      return (some .noValidPrice, setCurrentPrice s marketID .empty)
    let medianPrice ← calculateMedianPrice notExpiredPrices
    return (none, setCurrentPrice s marketID ⟨marketID, medianPrice⟩)

def getCurrentPrice (s : State) (marketID : String) : Except Error CurrentPrice :=
  match s.currentPrices.get (currentPriceKey marketID) with
  | none => .error .noValidPrice
  | some price => if price.price.val = 0 then .error .noValidPrice else .ok price

/-! ## Messages and blocks -/

def postPrice (env : Env) (now : Time) (s : State) (msg : MsgPostPrice) : Except Error State := do
  msg.validateBasic
  let sender ← orReject (env.accAddressFromBech32 msg.sender) (.invalidAddress msg.sender)
  let _ ← getOracle s msg.marketID sender
  setPrice now s sender msg.marketID msg.price msg.expiry

def endBlockMarket (now : Time) (s : State) (market : Market) : Except Error State :=
  if market.active = false then .ok s
  else do
    let (err, s') ← setCurrentPrices now s market.marketID
    match err with
    | none => return s'
    | some .noValidPrice => return s'
    | some e => .error e

def endBlocker (now : Time) (s : State) : Except Error State :=
  s.params.markets.foldlM (endBlockMarket now) s

/-! ## Genesis -/

structure GenesisState where
  params : Params
  postedPrices : List PostedPrice

theorem noParams_valid : Params.validate ⟨[]⟩ = .ok () := rfl

theorem empty_keyed (k : Bytes) (pp : PostedPrice)
    (h : (KVStore.empty : KVStore Bytes PostedPrice).get k = some pp) :
    rawPriceKey pp.marketID pp.oracleAddress = .ok k := by
  cases h

def emptyState : State := ⟨⟨⟨[]⟩, noParams_valid⟩, .empty, .empty, empty_keyed⟩

def initPrice (now : Time) (s : State) (pp : PostedPrice) : Except Error State :=
  -- a price that has expired is left out
  if now < pp.expiry then setPrice now s pp.oracleAddress pp.marketID pp.price pp.expiry else .ok s

def initMarket (now : Time) (s : State) (market : Market) : Except Error State :=
  if market.active = false then .ok s
  else do
    let rps ← getRawPrices s market.marketID
    -- a market without prices is left out
    if rps = [] then return s
    let (err, s') ← setCurrentPrices now s market.marketID
    match err with
    | none => return s'
    -- any other error is a panic
    | some e => .error e

def initGenesis (now : Time) (gs : GenesisState) : Except Error State := do
  let s ← setParams emptyState gs.params
  let s ← gs.postedPrices.foldlM (initPrice now) s
  s.params.markets.foldlM (initMarket now) s

def exportGenesis (s : State) : Except Error GenesisState := do
  let prices ← s.params.markets.mapM fun market => getRawPrices s market.marketID
  return ⟨s.params.toParams, prices.flatten⟩

/-! ## Runs -/

inductive Op where
  | postPrice (msg : MsgPostPrice)
  | setParams (p : Params)
  | endBlocker

structure Event where
  time : Time
  op : Op

def step (env : Env) (s : State) (ev : Event) : Except Error State :=
  match ev.op with
  -- what fails leaves the state as it was
  | .postPrice msg => .ok (orElseKeep s (postPrice env ev.time s msg))
  | .setParams p => .ok (orElseKeep s (setParams s p))
  -- a panic stops the chain
  | .endBlocker => endBlocker ev.time s

def run (env : Env) (s : State) (evs : List Event) : Except Error State := evs.foldlM (step env) s

def startState (p : ValidParams) : State := { emptyState with params := p }

end ZgChain.Pricefeed
