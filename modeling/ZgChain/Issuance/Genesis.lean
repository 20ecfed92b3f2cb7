import ZgChain.Issuance.RateSound

/-!
# Issuance: genesis states

An exported state holds the parameters and the counted supplies, but not the time of the
last block. Loading it validates both, creates the module account if there is none, and
starts a supply for every asset with an active limit that has none.
-/

namespace ZgChain.Issuance

variable {A : ModuleAddrs} {env : Env} {s s₁ s' : State A}

structure GenesisState where
  params : Params
  supplies : List AssetSupply
  deriving DecidableEq, Repr

def GenesisState.validate (gs : GenesisState) : Except Error Unit := do
  gs.supplies.forM AssetSupply.validate
  gs.params.validate

def createNewAssetSupply (s : State A) (denom : Denom) : State A :=
  setAssetSupply s (zeroSupply denom) denom

def createMissingSupply (s : State A) (asset : Asset) : State A :=
  if asset.rateLimit.active = true ∧ s.supplies.get asset.denom = none then
    createNewAssetSupply s asset.denom else s

theorem emptyParams_valid : Params.validate ⟨[]⟩ = .ok () := rfl

/-- Looking the module account up creates it. -/
def emptyStore (bank : Bank A) : State A where
  params := ⟨⟨[]⟩, emptyParams_valid⟩
  supplies := .empty
  previousBlockTime := none
  bank := bank.setAccount (A.addr .issuance)

def initGenesis (bank : Bank A) (gs : GenesisState) : Except Error (State A) := do
  gs.validate
  let s ← setParams (emptyStore bank) gs.params
  let s := gs.supplies.foldl (fun s supply => setAssetSupply s supply supply.getDenom) s
  return gs.params.assets.foldl createMissingSupply s

def exportGenesis (s : State A) : GenesisState := ⟨s.params.val, s.supplies.values⟩

/-! ## What can be exported -/

/-- Every supply is stored under its denom and valid. -/
structure SuppliesOk (s : State A) : Prop where
  denoms : ∀ d supply, s.supplies.get d = some supply → supply.getDenom = d
  valid : ∀ d supply, s.supplies.get d = some supply → supply.currentSupply.isValid = true

/-- The counted supplies can be exported and loaded again, and every asset with an active
limit has one. -/
structure Exportable (s : State A) : Prop extends SuppliesOk s where
  counted : ∀ d, (getRateLimit s d).active = true → s.supplies.get d ≠ none

theorem foldl_setAssetSupply (supplies : List AssetSupply) (s : State A) :
    supplies.foldl (fun s supply => setAssetSupply s supply supply.getDenom) s =
      { s with supplies := KVStore.setAll AssetSupply.getDenom s.supplies supplies } := by
  induction supplies generalizing s with
  | nil => rfl
  | cons supply supplies ih =>
    rw [List.foldl_cons, ih]
    rfl

theorem createMissingSupply_of_counted {assets : List Asset}
    (h : ∀ asset ∈ assets, asset.rateLimit.active = true → s.supplies.get asset.denom ≠ none) :
    assets.foldl createMissingSupply s = s := by
  induction assets with
  | nil => rfl
  | cons asset assets ih =>
    have hkeep : createMissingSupply s asset = s := if_neg fun hc => h asset (by simp) hc.1 hc.2
    rw [List.foldl_cons, hkeep]
    exact ih fun a ha => h a (by simp [ha])

theorem setParams_of_valid (s : State A) {p : Params} (hp : p.validate = .ok ()) :
    setParams s p = .ok { s with params := ⟨p, hp⟩ } := by
  unfold setParams
  split
  · rename_i e he
    rw [hp] at he
    cases he
  · rfl

def loadedState (bank : Bank A) (params : ValidParams) (supplies : List AssetSupply) : State A where
  params := params
  supplies := KVStore.setAll AssetSupply.getDenom .empty supplies
  previousBlockTime := none
  bank := bank.setAccount (A.addr .issuance)

theorem AssetSupply.validate_iff (supply : AssetSupply) :
    supply.validate = .ok () ↔ supply.currentSupply.isValid = true := by
  simp [AssetSupply.validate]

theorem initGenesis_iff {bank : Bank A} {gs : GenesisState} : initGenesis bank gs = .ok s ↔
    (∀ supply ∈ gs.supplies, supply.currentSupply.isValid = true) ∧
    ∃ hp : gs.params.validate = .ok (),
      gs.params.assets.foldl createMissingSupply
        (loadedState bank ⟨gs.params, hp⟩ gs.supplies) = s := by
  simp only [initGenesis, GenesisState.validate, bind_eq_ok, pure_eq_ok, forM_eq_ok,
    foldl_setAssetSupply, AssetSupply.validate_iff]
  constructor
  · intro h
    obtain ⟨_, ⟨_, hsupplies, hp⟩, s₁, hset, rfl⟩ := h
    rw [setParams_of_valid _ hp] at hset
    cases hset
    exact ⟨hsupplies, hp, rfl⟩
  · intro h
    obtain ⟨hsupplies, hp, rfl⟩ := h
    exact ⟨(), ⟨(), hsupplies, hp⟩, _, setParams_of_valid _ hp, rfl⟩

/-- What an export loses is the time of the last block. -/
theorem initGenesis_exportGenesis (h : Exportable s) : initGenesis s.bank (exportGenesis s) =
    .ok { s with previousBlockTime := none, bank := s.bank.setAccount (A.addr .issuance) } := by
  have hloaded : loadedState s.bank s.params s.supplies.values =
      { s with previousBlockTime := none, bank := s.bank.setAccount (A.addr .issuance) } := by
    rw [loadedState, KVStore.setAll_values h.denoms]
  refine initGenesis_iff.mpr ⟨fun supply hm => ?_, s.params.property, ?_⟩
  · obtain ⟨d, hd⟩ := (s.supplies.mem_values supply).mp hm
    exact h.valid d supply hd
  · change s.params.val.assets.foldl createMissingSupply
      (loadedState s.bank s.params s.supplies.values) = _
    rw [hloaded]
    refine createMissingSupply_of_counted fun asset ha hactive => h.counted asset.denom ?_
    rw [getRateLimit_of_getAsset (getAsset_mem s ha)]
    exact hactive

/-! ## What is loaded can be exported -/

theorem SuppliesOk.set (h : SuppliesOk s) {supply : AssetSupply}
    (hv : supply.currentSupply.isValid = true) {d : Denom}
    (hd : supply.getDenom = d) : SuppliesOk (setAssetSupply s supply d) := by
  refine ⟨fun k sup hk => ?_, fun k sup hk => ?_⟩
  · rw [setAssetSupply, KVStore.get_set] at hk
    split at hk
    · rename_i hkd
      cases hk
      rw [hd, hkd]
    · exact h.denoms k sup hk
  · rw [setAssetSupply, KVStore.get_set] at hk
    split at hk
    · cases hk
      exact hv
    · exact h.valid k sup hk

theorem zeroSupply_valid {d : Denom} (hd : validateDenom d = true) :
    (zeroSupply d).currentSupply.isValid = true := by
  simp [zeroSupply, Coin.isValid, hd]

theorem createMissingSupply_ok {asset : Asset} (h : SuppliesOk s)
    (hd : validateDenom asset.denom = true) :
    SuppliesOk (createMissingSupply s asset) := by
  unfold createMissingSupply
  split
  · exact h.set (zeroSupply_valid hd) rfl
  · exact h

theorem createMissingSupply_has (asset : Asset) {d : Denom} (h : s.supplies.get d ≠ none) :
    (createMissingSupply s asset).supplies.get d ≠ none := by
  unfold createMissingSupply
  split
  · rename_i hmissing
    have hne : d ≠ asset.denom := fun e => h (e ▸ hmissing.2)
    rw [createNewAssetSupply, setAssetSupply, KVStore.get_set_ne _ hne]
    exact h
  · exact h

theorem createMissingSupply_params (s : State A) (asset : Asset) :
    (createMissingSupply s asset).params = s.params := by
  unfold createMissingSupply
  split <;> rfl

theorem foldl_createMissingSupply {assets : List Asset} (h : SuppliesOk s)
    (hd : ∀ asset ∈ assets, validateDenom asset.denom = true) :
    SuppliesOk (assets.foldl createMissingSupply s) ∧
    (assets.foldl createMissingSupply s).params = s.params ∧
    (∀ d, s.supplies.get d ≠ none → (assets.foldl createMissingSupply s).supplies.get d ≠ none) ∧
    ∀ asset ∈ assets, asset.rateLimit.active = true →
      (assets.foldl createMissingSupply s).supplies.get asset.denom ≠ none := by
  induction assets generalizing s with
  | nil => exact ⟨h, rfl, fun _ hs => hs, fun _ hm => nomatch hm⟩
  | cons asset assets ih =>
    obtain ⟨hok, hparams, hkeep, hnew⟩ := ih (createMissingSupply_ok h (hd asset (by simp)))
      fun a ha => hd a (by simp [ha])
    rw [List.foldl_cons]
    refine ⟨hok, hparams.trans (createMissingSupply_params s asset),
      fun d hs => hkeep d (createMissingSupply_has asset hs),
      fun a ha hactive => ?_⟩
    rcases List.mem_cons.mp ha with rfl | ha
    · refine hkeep _ ?_
      by_cases hmissing : s.supplies.get a.denom = none
      · rw [createMissingSupply, if_pos ⟨hactive, hmissing⟩, createNewAssetSupply, setAssetSupply,
          KVStore.get_set_self]
        exact Option.some_ne_none _
      · exact createMissingSupply_has a hmissing
    · exact hnew a ha hactive

theorem loadedState_ok (bank : Bank A) (params : ValidParams) {supplies : List AssetSupply}
    (h : ∀ supply ∈ supplies, supply.currentSupply.isValid = true) :
    SuppliesOk (loadedState bank params supplies) := by
  refine ⟨fun d supply hd => ?_, fun d supply hd => ?_⟩
  · rcases KVStore.mem_of_get_setAll hd with hm | hm
    · exact hm.2
    · cases hm
  · rcases KVStore.mem_of_get_setAll hd with hm | hm
    · exact h supply hm.1
    · cases hm

/-- A state that was loaded can be exported. -/
theorem initGenesis_exportable {bank : Bank A} {gs : GenesisState}
    (h : initGenesis bank gs = .ok s) :
    Exportable s ∧ s.params.val = gs.params := by
  obtain ⟨hsupplies, hp, rfl⟩ := initGenesis_iff.mp h
  obtain ⟨hok, hparams, _, hcounted⟩ :=
    foldl_createMissingSupply (loadedState_ok bank ⟨gs.params, hp⟩ hsupplies)
    fun asset ha => (Asset.validate_ok (validateAssets_mem hp ha)).1
  refine ⟨⟨hok, fun d hactive => ?_⟩, by rw [hparams]; rfl⟩
  obtain ⟨asset, ha, rfl, hr⟩ := getAsset_of_active hactive
  rw [hparams] at ha
  exact hcounted asset ha (hr ▸ hactive)

end ZgChain.Issuance
