import ZgChain.Bep3.Swap

/-!
# Genesis

The stored state of the module as one value, its validation, and how a new chain's
store is filled from it and read back. What makes the initialisation panic is an
error here.
-/

namespace ZgChain.Bep3

variable {A : ModuleAddrs}

structure GenesisState where
  params : Params
  atomicSwaps : List AtomicSwap
  supplies : List AssetSupply
  previousBlockTime : Time
  deriving DecidableEq, Repr

def validateSwaps (env : Env) (ids : List Bytes) : List AtomicSwap → Except Error Unit
  | [] => .ok ()
  | swap :: swaps => do
    rejectIf (swap.getSwapID env ∈ ids) (.invalidGenesis "found duplicate atomic swap ID")
    swap.validate
    validateSwaps env (swap.getSwapID env :: ids) swaps

def validateSupplies (denoms : List Denom) : List AssetSupply → Except Error Unit
  | [] => .ok ()
  | supply :: supplies => do
    supply.validate
    rejectIf (supply.getDenom ∈ denoms) (.invalidGenesis "found duplicate denom in asset supplies")
    validateSupplies (supply.getDenom :: denoms) supplies

def GenesisState.validate (env : Env) (gs : GenesisState) : Except Error Unit := do
  gs.params.validate
  validateSwaps env [] gs.atomicSwaps
  validateSupplies [] gs.supplies

/-- The store of a new chain with the given parameters, which are validated when they are set. -/
def setParams (params : Params) (previousBlockTime : Time) (bank : Bank A) :
    Except Error (State A) :=
  match h : params.validate with
  | .error e => .error e
  | .ok _ => .ok
    { params := ⟨params, h⟩
      swaps := KVStore.empty
      byBlock := KVStore.empty
      longterm := KVStore.empty
      supplies := KVStore.empty
      previousBlockTime := some previousBlockTime
      bank := bank }

structure Loaded (A : ModuleAddrs) where
  state : State A
  incomingSupplies : Coins
  outgoingSupplies : Coins

def loadSwap (env : Env) (l : Loaded A) (swap : AtomicSwap) : Except Error (Loaded A) := do
  swap.validate
  let coin ← firstCoin swap
  validateLiveAsset l.state coin
  let s := setAtomicSwap env l.state swap
  match swap.direction with
  | .incoming =>
    match swap.status with
    | .open =>
      return ⟨insertIntoByBlockIndex env s swap, l.incomingSupplies ++ swap.amount,
        l.outgoingSupplies⟩
    | .expired => return ⟨s, l.incomingSupplies ++ swap.amount, l.outgoingSupplies⟩
    | .completed =>
      return ⟨insertIntoLongtermStorage env s swap, l.incomingSupplies, l.outgoingSupplies⟩
    | .unspecified => throw (.panic "swap has invalid status")
  | .outgoing =>
    match swap.status with
    | .open =>
      return ⟨insertIntoByBlockIndex env s swap, l.incomingSupplies, l.outgoingSupplies ++
        swap.amount⟩
    | .expired => return ⟨s, l.incomingSupplies, l.outgoingSupplies ++ swap.amount⟩
    | .completed =>
      return ⟨insertIntoLongtermStorage env s swap, l.incomingSupplies, l.outgoingSupplies⟩
    | .unspecified => throw (.panic "swap has invalid status")
  | .unspecified => throw (.panic "swap has invalid direction")

def checkSupply (l : Loaded A) (supply : AssetSupply) : Except Error Unit := do
  let incomingSupply := l.incomingSupplies.amountOf supply.getDenom
  rejectIf (supply.incomingSupply.amount ≠ incomingSupply)
    (.panic "asset's incoming supply does not match amount in incoming atomic swaps")
  let outgoingSupply := l.outgoingSupplies.amountOf supply.getDenom
  rejectIf (supply.outgoingSupply.amount ≠ outgoingSupply)
    (.panic "asset's outgoing supply does not match amount in outgoing atomic swaps")
  let limit ← getSupplyLimit l.state supply.getDenom
  rejectIf (limit.limit < supply.currentSupply.amount)
    (.panic "asset's current supply is over the supply limit")
  rejectIf (limit.limit < supply.incomingSupply.amount)
    (.panic "asset's incoming supply is over the supply limit")
  rejectIf (limit.limit < supply.incomingSupply.amount + supply.currentSupply.amount)
    (.panic "asset's incoming supply + current supply is over the supply limit")
  rejectIf (limit.limit < supply.outgoingSupply.amount)
    (.panic "asset's outgoing supply is over the supply limit")

def initGenesis (env : Env) (bank : Bank A) (gs : GenesisState) : Except Error (State A) := do
  rejectIf (Permission.burner ∉ mAccPerms .bep3)
    (.panic "bep3 module account does not have burn permissions")
  rejectIf (Permission.minter ∉ mAccPerms .bep3)
    (.panic "bep3 module account does not have mint permissions")
  gs.validate env
  let s ← setParams gs.params gs.previousBlockTime bank
  let s := gs.supplies.foldl (fun s supply => setAssetSupply s supply supply.getDenom) s
  let l ← gs.atomicSwaps.foldlM (loadSwap env) ⟨s, [], []⟩
  l.state.supplies.values.forM (checkSupply l)
  return l.state

def defaultPreviousBlockTime : Time := 1000000000

def exportGenesis (s : State A) : GenesisState where
  params := s.params.val
  atomicSwaps := s.swaps.values
  supplies := s.supplies.values
  previousBlockTime := s.previousBlockTime.getD defaultPreviousBlockTime

/-! ## What is accepted -/

section
variable {env : Env}

theorem AtomicSwap.validate_iff (a : AtomicSwap) :
    a.validate = .ok () ↔
      (a.amount.isValid = true ∧ a.amount.isAllPositive = true ∧
        a.randomNumberHash.length = randomNumberHashLength ∧
        a.timestamp ≠ 0 ∧ a.sender ≠ [] ∧ a.recipient ≠ [] ∧ isBlank a.recipientOtherChain = false ∧
        a.status ≠ .unspecified ∧ a.direction ≠ .unspecified) ∧
      isBlank a.senderOtherChain = false ∧ a.expireHeight ≠ 0 ∧
      (a.status = .completed → a.closedBlock ≠ 0) := by
  simp only [AtomicSwap.validate, bind_eq_ok, rejectIf_eq_ok, exists_const, Bool.not_eq_false,
    Bool.not_eq_true, not_and, ne_eq, not_not]
  tauto

theorem AssetSupply.validate_iff (a : AssetSupply) :
    a.validate = .ok () ↔
      a.incomingSupply.isValid = true ∧ a.outgoingSupply.isValid = true ∧
      a.currentSupply.isValid = true ∧
      a.timeLimitedCurrentSupply.isValid = true ∧ a.incomingSupply.denom = a.getDenom ∧
      a.outgoingSupply.denom = a.getDenom ∧ a.timeLimitedCurrentSupply.denom = a.getDenom := by
  simp only [AssetSupply.validate, AssetSupply.getDenom, bind_eq_ok, rejectIf_eq_ok, exists_const,
    Bool.not_eq_false, not_or, ne_eq, not_not]

theorem validateSwaps_iff {swaps : List AtomicSwap} {ids : List Bytes} {u : Unit} :
    validateSwaps env ids swaps = .ok u ↔
      (∀ swap ∈ swaps, swap.validate = .ok ()) ∧ (swaps.map (AtomicSwap.getSwapID env)).Nodup ∧
      ∀ swap ∈ swaps, swap.getSwapID env ∉ ids := by
  induction swaps generalizing ids with
  | nil => simp [validateSwaps]
  | cons swap swaps ih =>
    simp only [validateSwaps, bind_eq_ok, rejectIf_eq_ok, ih, exists_const]
    rw [nodup_fresh_cons, List.forall_mem_cons]
    tauto

theorem validateSupplies_iff {supplies : List AssetSupply} {denoms : List Denom} {u : Unit} :
    validateSupplies denoms supplies = .ok u ↔
      (∀ supply ∈ supplies, supply.validate = .ok ()) ∧ (supplies.map AssetSupply.getDenom).Nodup ∧
      ∀ supply ∈ supplies, supply.getDenom ∉ denoms := by
  induction supplies generalizing denoms with
  | nil => simp [validateSupplies]
  | cons supply supplies ih =>
    simp only [validateSupplies, bind_eq_ok, rejectIf_eq_ok, ih, exists_const]
    rw [nodup_fresh_cons, List.forall_mem_cons]
    tauto

/-! ## What a load does -/

def newState (params : ValidParams) (previousBlockTime : Time) (bank : Bank A) : State A where
  params := params
  swaps := KVStore.empty
  byBlock := KVStore.empty
  longterm := KVStore.empty
  supplies := KVStore.empty
  previousBlockTime := some previousBlockTime
  bank := bank

theorem setParams_eq_ok {params : Params} {t : Time} {bank : Bank A} {s : State A} :
    setParams params t bank = .ok s ↔
    ∃ hp : params.validate = .ok (), newState ⟨params, hp⟩ t bank = s := by
  unfold setParams
  split
  · rename_i h
    simp [h]
  · rename_i h
    simp [h, newState]

theorem foldl_setAssetSupply (supplies : List AssetSupply) (s : State A) :
    supplies.foldl (fun s supply => setAssetSupply s supply supply.getDenom) s =
      { s with supplies := s.supplies.setAll AssetSupply.getDenom supplies } := by
  induction supplies generalizing s with
  | nil => rfl
  | cons supply supplies ih =>
    rw [List.foldl_cons, ih]
    rfl

def storeSwap (env : Env) (s : State A) (swap : AtomicSwap) : State A :=
  match swap.status with
  | .open => insertIntoByBlockIndex env (setAtomicSwap env s swap) swap
  | .completed => insertIntoLongtermStorage env (setAtomicSwap env s swap) swap
  | .expired | .unspecified => setAtomicSwap env s swap

theorem storeSwap_frame (env : Env) (s : State A) (swap : AtomicSwap) :
    ∃ B L, storeSwap env s swap =
      { s with swaps := s.swaps.set (swap.getSwapID env) swap, byBlock := B, longterm := L } := by
  unfold storeSwap
  split <;> exact ⟨_, _, rfl⟩

def pendingCoins (direction : SwapDirection) (a : AtomicSwap) : Coins :=
  if a.direction = direction ∧ (a.status = .open ∨ a.status = .expired) then a.amount else []

def load (env : Env) (l : Loaded A) (swap : AtomicSwap) : Loaded A :=
  ⟨storeSwap env l.state swap, l.incomingSupplies ++ pendingCoins .incoming swap,
    l.outgoingSupplies ++ pendingCoins .outgoing swap⟩

def Loadable (s : State A) (swap : AtomicSwap) : Prop :=
  swap.validate = .ok () ∧ ∃ coin, firstCoin swap = .ok coin ∧ validateLiveAsset s coin = .ok ()

theorem loadSwap_iff {l l' : Loaded A} {swap : AtomicSwap} :
    loadSwap env l swap = .ok l' ↔ Loadable l.state swap ∧ load env l swap = l' := by
  have hr : (∃ u : Unit, swap.validate = .ok u ∧ ∃ coin, firstCoin swap = .ok coin ∧
      ∃ u : Unit, validateLiveAsset l.state coin = .ok u ∧ load env l swap = l') ↔
      Loadable l.state swap ∧ load env l swap = l' := by
    unfold Loadable
    exact ⟨fun ⟨_, hv, c, hc, _, hl, h⟩ => ⟨⟨hv, c, hc, hl⟩, h⟩,
      fun ⟨⟨hv, c, hc, hl⟩, h⟩ => ⟨_, hv, c, hc, _, hl, h⟩⟩
  rw [← hr]
  simp only [loadSwap, bind_eq_ok]
  refine exists_congr fun u => and_congr_right fun hv => exists_congr fun c =>
    and_congr_right fun _ =>
    exists_congr fun u' => and_congr_right fun _ => ?_
  -- a validated swap has a direction and a status, so the panics are not reached
  obtain ⟨⟨_, _, _, _, _, _, _, hst, hdir⟩, _⟩ := swap.validate_iff.mp hv
  cases hd : swap.direction with
  | unspecified => exact absurd hd hdir
  | incoming =>
    cases hs : swap.status with
    | unspecified => exact absurd hs hst
    | «open» | expired | completed => simp [load, storeSwap, pendingCoins, hd, hs]
  | outgoing =>
    cases hs : swap.status with
    | unspecified => exact absurd hs hst
    | «open» | expired | completed => simp [load, storeSwap, pendingCoins, hd, hs]

theorem loadable_load {l : Loaded A} {swap swap' : AtomicSwap} :
    Loadable (load env l swap).state swap' ↔ Loadable l.state swap' := by
  obtain ⟨B, L, h⟩ := storeSwap_frame env l.state swap
  rw [show (load env l swap).state = storeSwap env l.state swap from rfl, h]
  rfl

theorem loadSwaps_iff (swaps : List AtomicSwap) (l l' : Loaded A) :
    swaps.foldlM (loadSwap env) l = .ok l' ↔
      (∀ swap ∈ swaps, Loadable l.state swap) ∧ swaps.foldl (load env) l = l' :=
  foldlM_eq_ok (fun _ _ _ => loadSwap_iff) (fun _ _ _ => loadable_load) swaps l l'

/-- What holds before the swaps are loaded, each under an ID of its own, and is kept by
every load, holds after them. -/
theorem loads_rule {P : Loaded A → Prop}
    (hload : ∀ l swap, swap.validate = .ok () → l.state.swaps.get (swap.getSwapID env) = none →
      P l → P (load env l swap))
    {swaps : List AtomicSwap} {l : Loaded A} (hv : ∀ swap ∈ swaps, swap.validate = .ok ())
    (hn : (swaps.map (AtomicSwap.getSwapID env)).Nodup)
    (hf : ∀ swap ∈ swaps, l.state.swaps.get (swap.getSwapID env) = none) (h : P l) :
    P (swaps.foldl (load env) l) := by
  induction swaps generalizing l with
  | nil => exact h
  | cons swap swaps ih =>
    rw [List.map_cons, List.nodup_cons] at hn
    rw [List.forall_mem_cons] at hv
    refine ih hv.2 hn.2 (fun swap' hm => ?_) (hload l swap hv.1 (hf swap (by simp)) h)
    have hne : swap'.getSwapID env ≠ swap.getSwapID env :=
      fun e => hn.1 (e ▸ List.mem_map_of_mem hm)
    obtain ⟨B, L, hs⟩ := storeSwap_frame env l.state swap
    rw [show (load env l swap).state = storeSwap env l.state swap from rfl, hs]
    exact (KVStore.get_set_ne _ hne _).trans (hf swap' (by simp [hm]))

theorem loads_frame (env : Env) (swaps : List AtomicSwap) (l : Loaded A) :
    ∃ B L, (swaps.foldl (load env) l).state =
      { l.state with
        swaps := l.state.swaps.setAll (AtomicSwap.getSwapID env) swaps
        byBlock := B
        longterm := L } := by
  induction swaps generalizing l with
  | nil => exact ⟨_, _, rfl⟩
  | cons swap swaps ih =>
    obtain ⟨B, L, h⟩ := ih (load env l swap)
    obtain ⟨B', L', h'⟩ := storeSwap_frame env l.state swap
    refine ⟨B, L, ?_⟩
    rw [List.foldl_cons, h, show (load env l swap).state = storeSwap env l.state swap from rfl, h']
    rfl

def suppliedState (params : ValidParams) (gs : GenesisState) (bank : Bank A) : State A :=
  { newState params gs.previousBlockTime bank with
    supplies := KVStore.empty.setAll AssetSupply.getDenom gs.supplies }

def loadedState (env : Env) (params : ValidParams) (gs : GenesisState) (bank : Bank A) : Loaded A :=
  gs.atomicSwaps.foldl (load env) ⟨suppliedState params gs bank, [], []⟩

structure Acceptable (env : Env) (params : ValidParams) (gs : GenesisState) (bank : Bank A) :
    Prop where
  swaps : ∀ swap ∈ gs.atomicSwaps, Loadable (suppliedState params gs bank) swap
  ids : (gs.atomicSwaps.map (AtomicSwap.getSwapID env)).Nodup
  supplies : ∀ supply ∈ gs.supplies, supply.validate = .ok ()
  denoms : (gs.supplies.map AssetSupply.getDenom).Nodup
  counters : ∀ supply ∈ (loadedState env params gs bank).state.supplies.values,
    checkSupply (loadedState env params gs bank) supply = .ok ()

theorem initGenesis_iff {bank : Bank A} {gs : GenesisState} {s : State A} :
    initGenesis env bank gs = .ok s ↔
      ∃ hp : gs.params.validate = .ok (), Acceptable env ⟨gs.params, hp⟩ gs bank ∧
        (loadedState env ⟨gs.params, hp⟩ gs bank).state = s := by
  simp only [initGenesis, GenesisState.validate, bind_eq_ok, pure_eq_ok, setParams_eq_ok,
    foldl_setAssetSupply, loadSwaps_iff, forM_eq_ok, validateSwaps_iff, validateSupplies_iff,
    rejectIf_eq_ok]
  constructor
  · rintro ⟨_, _, _, _, _, ⟨_, _, _, ⟨_, hn, _⟩, hsup, hd, _⟩, _, ⟨hp, rfl⟩, _,
      ⟨hl, rfl⟩, _, hc, rfl⟩
    exact ⟨hp, ⟨hl, hn, hsup, hd, hc⟩, rfl⟩
  · rintro ⟨hp, ⟨hl, hn, hsup, hd, hc⟩, rfl⟩
    exact ⟨(), by decide, (), by decide, (),
      ⟨(), hp, (), ⟨fun swap hs => (hl swap hs).1, hn, by simp⟩, hsup, hd, by simp⟩,
      _, ⟨hp, rfl⟩, _, ⟨hl, rfl⟩, (), hc, rfl⟩

theorem loadedState_eq (env : Env) (params : ValidParams) (gs : GenesisState) (bank : Bank A) :
    ∃ B L, (loadedState env params gs bank).state =
      { suppliedState params gs bank with
        swaps := KVStore.empty.setAll (AtomicSwap.getSwapID env) gs.atomicSwaps
        byBlock := B
        longterm := L } :=
  loads_frame env gs.atomicSwaps ⟨suppliedState params gs bank, [], []⟩

theorem Acceptable.rule {params : ValidParams} {gs : GenesisState} {bank : Bank A}
    (ha : Acceptable env params gs bank) {P : Loaded A → Prop}
    (hload : ∀ l swap, swap.validate = .ok () → l.state.swaps.get (swap.getSwapID env) = none →
      P l → P (load env l swap))
    (h : P ⟨suppliedState params gs bank, [], []⟩) : P (loadedState env params gs bank) :=
  loads_rule hload (fun swap hs => (ha.swaps swap hs).1) ha.ids (fun _ _ => KVStore.get_empty _) h

end

end ZgChain.Bep3
