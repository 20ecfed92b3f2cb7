import ZgChain.Sdk.Bank

/-!
# Issuance: types

Assets with their owners, block lists and rate limits, as parameters of the
module. Owners and listed addresses are text, and nothing validates that the text
is an address.
-/

namespace ZgChain.Issuance

structure Env where
  accAddressFromBech32 : String → Option Addr
  /-- The text of an address. -/
  bech32 : Addr → String

inductive Error where
  | assetNotFound (d : Denom)
  | notAuthorized (owner address : String)
  | assetPaused (d : Denom)
  | accountBlocked (address : String)
  | issueToModuleAccount (address : String)
  | assetUnblockable (d : Denom)
  | accountAlreadyBlocked (address : String)
  | accountAlreadyUnblocked (address : String)
  | accountNotFound (address : String)
  | exceedsSupplyLimit (increase supply limit : Coin)
  | invalidAddress (text : String)
  | invalidCoins (c : Coin)
  | invalidDenom (d : Denom)
  | invalidParams (text : String)
  | invalidSupply (c : Coin)
  | bank (e : BankError)
  | panic (text : String)
  deriving DecidableEq, Repr

/-! ## Assets -/

structure RateLimit where
  active : Bool
  limit : Int
  timePeriod : Duration
  deriving DecidableEq, Repr

structure Asset where
  owner : String
  denom : Denom
  blockedAddresses : List String
  paused : Bool
  blockable : Bool
  rateLimit : RateLimit
  deriving DecidableEq, Repr

def validateBlockedAddress (asset : Asset) (address : String) : Except Error Unit := do
  rejectIf (address = "") (.invalidParams "blocked address must not be empty")
  rejectIf (asset.owner = address) (.invalidParams "asset owner cannot be blocked")

def Asset.validate (asset : Asset) : Except Error Unit := do
  rejectIf (asset.owner = "") (.invalidParams "owner must not be empty")
  rejectIf (asset.blockable = false ∧ asset.blockedAddresses ≠ [])
    (.invalidParams "asset does not support blocking, blocked-list should be empty")
  asset.blockedAddresses.forM (validateBlockedAddress asset)
  rejectIf (validateDenom asset.denom = false) (.invalidDenom asset.denom)

def validateAssets (assetDenoms : List Denom) : List Asset → Except Error Unit
  | [] => .ok ()
  | asset :: assets => do
    rejectIf (asset.denom ∈ assetDenoms) (.invalidParams "cannot have duplicate asset denoms")
    asset.validate
    validateAssets (asset.denom :: assetDenoms) assets

structure Params where
  assets : List Asset
  deriving DecidableEq, Repr

def Params.validate (p : Params) : Except Error Unit := validateAssets [] p.assets

abbrev ValidParams := { p : Params // p.validate = .ok () }

theorem validateAssets_mem {assets : List Asset} {seen : List Denom} {u : Unit}
    (h : validateAssets seen assets = .ok u)
    {asset : Asset} (hm : asset ∈ assets) : asset.validate = .ok () := by
  induction assets generalizing seen with
  | nil => cases hm
  | cons a assets ih =>
    simp only [validateAssets, bind_eq_ok] at h
    obtain ⟨_, _, _, ha, h⟩ := h
    cases hm with
    | head => exact ha
    | tail _ hm => exact ih h hm

theorem validateAssets_denoms {assets : List Asset} {seen : List Denom} {u : Unit}
    (h : validateAssets seen assets = .ok u) :
    (assets.map Asset.denom).Nodup ∧ ∀ asset ∈ assets, asset.denom ∉ seen := by
  induction assets generalizing seen with
  | nil => exact ⟨List.nodup_nil, fun _ hm => nomatch hm⟩
  | cons a assets ih =>
    simp only [validateAssets, bind_eq_ok, rejectIf_eq_ok] at h
    obtain ⟨_, hnew, _, _, h⟩ := h
    obtain ⟨hn, hseen⟩ := ih h
    refine ⟨List.nodup_cons.mpr ⟨fun hm => ?_, hn⟩, fun asset hm => ?_⟩
    · obtain ⟨b, hb, e⟩ := List.mem_map.mp hm
      exact hseen b hb (by simp [e])
    · cases hm with
      | head => exact hnew
      | tail _ hm => exact fun hs => hseen asset hm (List.mem_cons_of_mem _ hs)

theorem Asset.validate_ok {asset : Asset} {u : Unit} (h : asset.validate = .ok u) :
    validateDenom asset.denom = true ∧ (asset.blockable = false → asset.blockedAddresses = []) := by
  simp only [Asset.validate, bind_eq_ok, rejectIf_eq_ok, Bool.not_eq_false, not_and, not_not] at h
  obtain ⟨_, _, _, hb, _, _, hd⟩ := h
  exact ⟨hd, hb⟩

/-! ## Supplies and the state -/

structure AssetSupply where
  currentSupply : Coin
  timeElapsed : Duration
  deriving DecidableEq, Repr

def AssetSupply.validate (a : AssetSupply) : Except Error Unit :=
  rejectIf (a.currentSupply.isValid = false) (.invalidSupply a.currentSupply)

def AssetSupply.getDenom (a : AssetSupply) : Denom := a.currentSupply.denom

structure State (A : ModuleAddrs) where
  params : ValidParams
  supplies : KVStore Denom AssetSupply
  previousBlockTime : Option Time
  bank : Bank A

end ZgChain.Issuance
