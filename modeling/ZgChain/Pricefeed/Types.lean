import ZgChain.Lib.LengthPrefix
import ZgChain.Sdk.Dec

/-!
# Price feed: types

Markets with the oracles that may post prices for them, posted prices with their
expiry, and the keys of the store. The checks of a market do not bound the length of
its identifier, but a key holds the length in one byte.
-/

namespace ZgChain.Pricefeed

structure Env where
  accAddressFromBech32 : String → Option Addr

inductive Error where
  | expired
  | noValidPrice
  | invalidMarket (marketID : String)
  | invalidOracle (oracle : Addr)
  | invalidAddress (text : String)
  | emptyOracle (index : Nat)
  | duplicatedOracle (oracle : Addr)
  | duplicatedMarket (marketID : String)
  | invalid (text : String)
  | panic (text : String)
  deriving DecidableEq, Repr

/-! ## Markets -/

structure Market where
  marketID : String
  baseAsset : Denom
  quoteAsset : Denom
  oracles : List Addr
  active : Bool
  deriving DecidableEq, Repr

def validateOracles : Nat → List Addr → List Addr → Except Error Unit
  | _, _, [] => .ok ()
  | i, seenOracles, oracle :: rest => do
    rejectIf (oracle = []) (.emptyOracle i)
    rejectIf (oracle ∈ seenOracles) (.duplicatedOracle oracle)
    validateOracles (i + 1) (oracle :: seenOracles) rest

def Market.validate (m : Market) : Except Error Unit := do
  rejectIf (isBlank m.marketID = true) (.invalid "market id cannot be blank")
  rejectIf (validateDenom m.baseAsset = false) (.invalid "invalid base asset")
  rejectIf (validateDenom m.quoteAsset = false) (.invalid "invalid quote asset")
  validateOracles 0 [] m.oracles

abbrev Markets := List Market

def validateMarkets : List String → Markets → Except Error Unit
  | _, [] => .ok ()
  | seenMarkets, m :: rest => do
    rejectIf (m.marketID ∈ seenMarkets) (.duplicatedMarket m.marketID)
    m.validate
    validateMarkets (m.marketID :: seenMarkets) rest

def Markets.validate (ms : Markets) : Except Error Unit := validateMarkets [] ms

structure Params where
  markets : Markets
  deriving DecidableEq, Repr

def Params.validate (p : Params) : Except Error Unit := p.markets.validate

/-- Parameters are checked before they are stored. -/
structure ValidParams extends Params where
  valid : toParams.validate = .ok ()

theorem validateOracles_ok {oracles : List Addr} {i : Nat} {seen : List Addr} {u : Unit}
    (h : validateOracles i seen oracles = .ok u) :
    oracles.Nodup ∧ ∀ oracle ∈ oracles, oracle ∉ seen := by
  induction oracles generalizing i seen with
  | nil => exact ⟨List.nodup_nil, by simp⟩
  | cons oracle rest ih =>
    simp only [validateOracles, bind_eq_ok, rejectIf_eq_ok] at h
    obtain ⟨_, _, _, hnew, h⟩ := h
    obtain ⟨hn, hseen⟩ := ih h
    rw [← List.map_id rest] at hn
    have hfresh := nodup_fresh_cons.mpr ⟨hnew, hn, hseen⟩
    rwa [List.map_id] at hfresh

theorem Market.validate_ok {m : Market} {u : Unit} (h : m.validate = .ok u) : m.oracles.Nodup := by
  simp only [Market.validate, bind_eq_ok] at h
  obtain ⟨_, _, _, _, _, _, h⟩ := h
  exact (validateOracles_ok h).1

theorem validateMarkets_ok {ms : Markets} {seen : List String} {u : Unit}
    (h : validateMarkets seen ms = .ok u) :
    (ms.map Market.marketID).Nodup ∧ (∀ m ∈ ms, m.marketID ∉ seen) ∧ ∀ m ∈ ms, m.oracles.Nodup := by
  induction ms generalizing seen with
  | nil => exact ⟨List.nodup_nil, by simp, by simp⟩
  | cons m rest ih =>
    simp only [validateMarkets, bind_eq_ok, rejectIf_eq_ok] at h
    obtain ⟨_, hnew, _, hm, h⟩ := h
    obtain ⟨hn, hseen, ho⟩ := ih h
    obtain ⟨hids, hfresh⟩ := nodup_fresh_cons.mpr ⟨hnew, hn, hseen⟩
    exact ⟨hids, hfresh, List.forall_mem_cons.mpr ⟨Market.validate_ok hm, ho⟩⟩

theorem ValidParams.ids_nodup (p : ValidParams) : (p.markets.map Market.marketID).Nodup :=
  (validateMarkets_ok p.valid).1

theorem ValidParams.oracles_nodup (p : ValidParams) {m : Market} (h : m ∈ p.markets) :
    m.oracles.Nodup :=
  (validateMarkets_ok p.valid).2.2 m h

/-! ## Prices -/

structure PostedPrice where
  marketID : String
  oracleAddress : Addr
  price : StoredDec
  expiry : Time
  deriving DecidableEq

structure CurrentPrice where
  marketID : String
  price : StoredDec
  deriving DecidableEq

/-- The record without a price; its decimal is stored as zero. -/
def CurrentPrice.empty : CurrentPrice := ⟨"", .zero⟩

/-- The message is decoded, so its price is in the range of decimals. -/
structure MsgPostPrice where
  sender : String
  marketID : String
  price : StoredDec
  expiry : Time

def MsgPostPrice.validateBasic (msg : MsgPostPrice) : Except Error Unit := do
  rejectIf (msg.sender = "") (.invalidAddress "sender address cannot be empty")
  rejectIf (isBlank msg.marketID = true) (.invalid "market id cannot be blank")
  rejectIf (msg.price.val < 0) (.invalid "price cannot be negative")
  rejectIf (msg.expiry.unix ≤ 0) (.invalid "must set an expiration time")

/-! ## Keys -/

def currentPriceKey (marketID : String) : Bytes := 0 :: strBytes marketID

def lengthPrefixWithByte (bz : Bytes) : Except Error Bytes := do
  rejectIf (255 < bz.length) (.panic "cannot length prefix more than 255 bytes with single byte")
  return lengthPrefixed bz

def rawPriceIteratorKey (marketID : String) : Except Error Bytes := do
  let market ← lengthPrefixWithByte (strBytes marketID)
  return 1 :: market

def rawPriceKey (marketID : String) (oracleAddr : Addr) : Except Error Bytes := do
  let market ← rawPriceIteratorKey marketID
  let oracle ← lengthPrefixWithByte oracleAddr
  return market ++ oracle

def idFits (marketID : String) : Prop := (strBytes marketID).length ≤ 255

instance decidableIdFits (marketID : String) : Decidable (idFits marketID) :=
  inferInstanceAs (Decidable ((strBytes marketID).length ≤ 255))

theorem currentPriceKey_inj {m m' : String} (h : currentPriceKey m = currentPriceKey m') : m = m' :=
  strBytes_injective (List.cons.inj h).2

theorem rawPriceIteratorKey_ok {m : String} {k : Bytes} :
    rawPriceIteratorKey m = .ok k ↔ idFits m ∧ k = 1 :: lengthPrefixed (strBytes m) := by
  simp only [rawPriceIteratorKey, lengthPrefixWithByte, bind_eq_ok, rejectIf_eq_ok, pure_eq_ok,
    idFits, not_lt]
  constructor
  · rintro ⟨_, ⟨_, hm, hp⟩, hk⟩
    exact ⟨hm, by rw [← hk, ← hp]⟩
  · rintro ⟨hm, hk⟩
    exact ⟨_, ⟨(), hm, rfl⟩, hk.symm⟩

theorem rawPriceKey_ok {m : String} {o : Addr} {k : Bytes} : rawPriceKey m o = .ok k ↔
    idFits m ∧ o.length ≤ 255 ∧ k = 1 :: (lengthPrefixed (strBytes m) ++ lengthPrefixed o) := by
  simp only [rawPriceKey, rawPriceIteratorKey_ok, lengthPrefixWithByte, bind_eq_ok, rejectIf_eq_ok,
    pure_eq_ok, not_lt]
  constructor
  · rintro ⟨_, ⟨hm, hp⟩, _, ⟨_, ho, hq⟩, hk⟩
    exact ⟨hm, ho, by rw [← hk, hp, ← hq]; rfl⟩
  · rintro ⟨hm, ho, hk⟩
    exact ⟨_, ⟨hm, rfl⟩, _, ⟨(), ho, rfl⟩, by rw [hk]; rfl⟩

theorem rawPriceKey_inj {m m' : String} {o o' : Addr} {k : Bytes} (h : rawPriceKey m o = .ok k)
    (h' : rawPriceKey m' o' = .ok k) : m = m' ∧ o = o' := by
  obtain ⟨hm, ho, hk⟩ := rawPriceKey_ok.mp h
  obtain ⟨hm', ho', hk'⟩ := rawPriceKey_ok.mp h'
  obtain ⟨hmarket, horacle⟩ :=
    lengthPrefixed_append_inj hm hm' (List.cons.inj (hk.symm.trans hk')).2
  rw [← List.append_nil (lengthPrefixed o), ← List.append_nil (lengthPrefixed o')] at horacle
  exact ⟨strBytes_injective hmarket, (lengthPrefixed_append_inj ho ho' horacle).1⟩

/-- The keys that start with the first part for a market are those of its prices. -/
theorem isPrefixOf_rawPriceKey {m m' : String} {o : Addr} {p k : Bytes}
    (hp : rawPriceIteratorKey m = .ok p)
    (hk : rawPriceKey m' o = .ok k) : p.isPrefixOf k = true ↔ m' = m := by
  obtain ⟨hm, rfl⟩ := rawPriceIteratorKey_ok.mp hp
  obtain ⟨hm', _, rfl⟩ := rawPriceKey_ok.mp hk
  rw [List.isPrefixOf_iff_prefix, List.cons_prefix_cons, lengthPrefixed_prefix hm hm']
  constructor
  · intro h
    exact (strBytes_injective h.2).symm
  · intro h
    rw [h]
    exact ⟨rfl, rfl⟩

end ZgChain.Pricefeed
