import ZgChain.Issuance.SeizeSound

/-!
# What the begin blocker moves

A seizure that completes takes everything from the listed addresses and gives it to
the owner. An address that is listed again holds nothing any more, so that each
holder is counted once, and the assets do not touch each other's denoms, whoever
owns them.
-/

namespace ZgChain.Issuance

variable {A : ModuleAddrs} {env : Env} {asset : Asset} {b b₁ b' c c' : Bank A} {d : Denom}
  {owner x : Addr}
  {xs : List Addr}

def blocked (env : Env) (asset : Asset) : List Addr :=
  asset.blockedAddresses.filterMap env.accAddressFromBech32

structure Swept (d : Denom) (owner : Addr) (xs : List Addr) (b b' : Bank A) : Prop where
  empty : ∀ x ∈ xs, b'.balances x d = 0
  gains : b'.balances owner d = b.balances owner d + ∑ x ∈ xs.toFinset, b.balances x d
  other : ∀ x, x ≠ owner → x ∉ xs → b'.balances x d = b.balances x d

theorem Swept.nil (d : Denom) (owner : Addr) (b : Bank A) : Swept d owner [] b b := by
  refine ⟨fun x hx => ?_, ?_, fun x _ _ => rfl⟩
  · cases hx
  · simp

theorem Swept.congr (h : Swept d owner xs b b') (hb : ∀ x, c.balances x d = b.balances x d)
    (hb' : ∀ x, c'.balances x d = b'.balances x d) : Swept d owner xs c c' := by
  refine ⟨fun x hx => ?_, ?_, fun x ho hx => ?_⟩
  · rw [hb', h.empty x hx]
  · rw [hb', h.gains, hb]
    simp only [hb]
  · rw [hb', h.other x ho hx, hb]

/-! ## One address -/

theorem Seized.balances (h : Seized env asset b x b')
    (ho : env.accAddressFromBech32 asset.owner = some owner)
    (hx : x ≠ owner) : b'.balances x asset.denom = 0 ∧
      b'.balances owner asset.denom = b.balances owner asset.denom + b.balances x asset.denom ∧
      ∀ y, y ≠ owner → y ≠ x → b'.balances y asset.denom = b.balances y asset.denom := by
  cases h with
  | nothing hle =>
    have hz : b.balances x asset.denom = 0 := le_antisymm hle (b.balances_nonneg x asset.denom)
    rw [hz, add_zero]
    exact ⟨rfl, rfl, fun _ _ _ => rfl⟩
  | all _ _ ho' _ hb =>
    rw [ho] at ho'
    cases ho'
    refine ⟨?_, ?_, fun y hyo hyx => ?_⟩
    · simp [hb, hx]
    · simp [hb, hx.symm]
    · simp [hb, hyo, hyx]

/-- The rest of the list is swept with the first holder already empty. -/
theorem Swept.cons (hx : x ≠ owner) (h₀ : b₁.balances x d = 0)
    (ho : b₁.balances owner d = b.balances owner d + b.balances x d)
    (hy : ∀ y, y ≠ owner → y ≠ x → b₁.balances y d = b.balances y d) (hxs : owner ∉ xs)
    (h : Swept d owner xs b₁ b') : Swept d owner (x :: xs) b b' := by
  have hrest : ∑ y ∈ xs.toFinset, b₁.balances y d = ∑ y ∈ xs.toFinset.erase x, b.balances y d := by
    rw [← Finset.sum_erase xs.toFinset (show (fun y => b₁.balances y d) x = 0 from h₀)]
    refine Finset.sum_congr rfl fun y hm => ?_
    obtain ⟨hne, hm⟩ := Finset.mem_erase.mp hm
    exact hy y (fun e => hxs (e ▸ List.mem_toFinset.mp hm)) hne
  have hsum : b.balances x d + ∑ y ∈ xs.toFinset.erase x, b.balances y d =
      ∑ y ∈ (x :: xs).toFinset, b.balances y d := by
    rw [List.toFinset_cons, ← Finset.erase_insert_eq_erase]
    exact Finset.add_sum_erase _ (fun y => b.balances y d) (Finset.mem_insert_self x _)
  refine ⟨fun y hm => ?_, ?_, fun y hyo hm => ?_⟩
  · by_cases hin : y ∈ xs
    · exact h.empty y hin
    · rcases List.mem_cons.mp hm with rfl | hm
      · rw [h.other y hx hin, h₀]
      · exact absurd hm hin
  · rw [h.gains, hrest, ho, add_assoc, hsum]
  · rw [List.mem_cons, not_or] at hm
    rw [h.other y hyo hm.2, hy y hyo hm.1]

theorem seizeFrom_supply {address : String} (h : seizeFrom env asset b address = .ok b') :
    b'.supply = b.supply := by
  simp only [seizeFrom, decodeAddress, bind_eq_ok] at h
  obtain ⟨x, _, h⟩ := h
  split at h
  · cases h
    rfl
  · split at h
    · cases h
      rfl
    · simp only [bind_eq_ok, mapError_eq_ok] at h
      obtain ⟨b₁, h₁, _, _, h₂⟩ := h
      obtain ⟨_, h₂⟩ := Bank.sendCoinsFromModuleToAccount_ok.mp h₂
      exact (Bank.sendCoins_supply h₂).trans (Bank.sendCoins_supply h₁)

/-! ## One block list -/

theorem foldlM_seizeFrom_swept (ho : env.accAddressFromBech32 asset.owner = some owner)
    {addresses : List String} (hn : owner ∉ addresses.filterMap env.accAddressFromBech32)
    (h : addresses.foldlM (seizeFrom env asset) b = .ok b') :
    Swept asset.denom owner (addresses.filterMap env.accAddressFromBech32) b b' ∧
    b'.supply = b.supply := by
  induction addresses generalizing b with
  | nil =>
    cases h
    exact ⟨Swept.nil _ _ _, rfl⟩
  | cons address addresses ih =>
    rw [List.foldlM_cons, bind_eq_ok] at h
    obtain ⟨b₁, h₁, h⟩ := h
    obtain ⟨x, hx, hs⟩ := seizeFrom_ok h₁
    rw [List.filterMap_cons_some hx] at hn ⊢
    rw [List.mem_cons, not_or] at hn
    obtain ⟨hsw, hsup⟩ := ih hn.2 h
    obtain ⟨h₀, hown, hother⟩ := hs.balances ho (Ne.symm hn.1)
    exact ⟨Swept.cons (Ne.symm hn.1) h₀ hown hother hn.2 hsw, hsup.trans (seizeFrom_supply h₁)⟩

/-! ## All assets -/

structure SweptAll (env : Env) (assets : List Asset) (b b' : Bank A) : Prop where
  supply : b'.supply = b.supply
  swept : ∀ asset ∈ assets, asset.blockable = true → ∀ owner, env.accAddressFromBech32 asset.owner =
    some owner →
    Swept asset.denom owner (blocked env asset) b b'
  others : ∀ d, (∀ asset ∈ assets, asset.blockable = true → asset.denom ≠ d) →
    ∀ x, b'.balances x d = b.balances x d

/-- An owner that is an address, not of a module and not blocked for the asset. -/
def OrdinaryOwner (A : ModuleAddrs) (env : Env) (asset : Asset) : Prop :=
  ∃ owner, env.accAddressFromBech32 asset.owner = some owner ∧ A.moduleAccountAddrs owner = false ∧
    owner ∉ blocked env asset

section
variable {s s' : State A}

theorem seizeAsset_swept (hg : getAsset s asset.denom = .ok asset)
    (hown : OrdinaryOwner A env asset)
    (h : seizeAsset env s asset = .ok s') : SweptAll env [asset] s.bank s'.bank := by
  obtain ⟨owner, ho, _, hn⟩ := hown
  unfold seizeAsset at h
  split at h
  · rename_i hbl
    simp only [seizeCoinsFromBlockedAddresses, hg, ok_bind, bind_eq_ok, pure_eq_ok] at h
    obtain ⟨b', hb, rfl⟩ := h
    obtain ⟨hsw, hsup⟩ := foldlM_seizeFrom_swept ho hn hb
    refine ⟨hsup, fun a ha _ o ho' => ?_, fun d hd x => ?_⟩
    · cases List.mem_singleton.mp ha
      rw [ho] at ho'
      cases ho'
      exact hsw
    · have hne : d ≠ asset.denom := Ne.symm (hd asset (by simp) hbl)
      exact (foldlM_seizeFrom_sameBut hb).2 x d hne
  · rename_i hbl
    cases h
    refine ⟨rfl, fun a ha hbl' => ?_, fun _ _ _ => rfl⟩
    cases List.mem_singleton.mp ha
    exact absurd hbl' hbl

/-- The assets that come after the first have other denoms. -/
theorem SweptAll.cons {assets : List Asset} (hn : asset.denom ∉ assets.map Asset.denom)
    (h₁ : SweptAll env [asset] b b₁) (h : SweptAll env assets b₁ b') :
    SweptAll env (asset :: assets) b b' := by
  have hne (a : Asset) (ha : a ∈ assets) : a.denom ≠ asset.denom :=
    fun e => hn (e ▸ List.mem_map_of_mem ha)
  have hlater : ∀ x, b'.balances x asset.denom = b₁.balances x asset.denom :=
    h.others asset.denom fun a ha _ => hne a ha
  refine ⟨h.supply.trans h₁.supply, fun a ha hbl owner ho => ?_, fun d hd x => ?_⟩
  · rcases List.mem_cons.mp ha with rfl | ha
    · exact (h₁.swept a (by simp) hbl owner ho).congr (fun _ => rfl) hlater
    · have hearlier : ∀ x, b.balances x a.denom = b₁.balances x a.denom := by
        intro x
        refine (h₁.others a.denom (fun a' ha' _ => ?_) x).symm
        rw [List.mem_singleton.mp ha']
        exact Ne.symm (hne a ha)
      exact (h.swept a ha hbl owner ho).congr hearlier fun _ => rfl
  · rw [h.others d (fun a ha => hd a (by simp [ha])) x]
    exact h₁.others d (fun a ha => hd a (by simp [List.mem_singleton.mp ha])) x

theorem seizeAssets_swept {assets : List Asset} (hn : (assets.map Asset.denom).Nodup)
    (hg : ∀ asset ∈ assets, getAsset s asset.denom = .ok asset)
    (hown : ∀ asset ∈ assets, OrdinaryOwner A env asset)
    (h : assets.foldlM (seizeAsset env) s = .ok s') : SweptAll env assets s.bank s'.bank := by
  induction assets generalizing s with
  | nil =>
    cases h
    refine ⟨rfl, fun a ha => ?_, fun _ _ _ => rfl⟩
    cases ha
  | cons asset assets ih =>
    rw [List.map_cons, List.nodup_cons] at hn
    rw [List.foldlM_cons, bind_eq_ok] at h
    obtain ⟨s₁, h₁, h⟩ := h
    have hsw := seizeAsset_swept (hg asset (by simp)) (hown asset (by simp)) h₁
    obtain ⟨b₁, rfl, _⟩ := seizeAsset_ok (hg asset (by simp)) h₁
    exact SweptAll.cons hn.1 hsw
      (ih hn.2 (fun a ha => hg a (by simp [ha])) (fun a ha => hown a (by simp [ha])) h)

/-! ## The begin blocker -/

theorem updateTimeBasedSupplyLimits_bank (ctx : Ctx) (s : State A) :
    (updateTimeBasedSupplyLimits ctx s).bank = s.bank := by
  have hfold (t : Duration) (assets : List Asset) (s : State A) :
      (assets.foldl (updateTimeBasedSupplyLimit t) s).bank = s.bank := by
    induction assets generalizing s with
    | nil => rfl
    | cons a assets ih => exact ih _
  exact hfold _ _ s

theorem beginBlocker_swept {ctx : Ctx}
    (hown : ∀ asset ∈ s.params.val.assets, OrdinaryOwner A env asset)
    (h : beginBlocker env ctx s = .ok s') : SweptAll env s.params.val.assets s.bank s'.bank := by
  simp only [beginBlocker, bind_eq_ok, pure_eq_ok] at h
  obtain ⟨s₁, h₁, s₂, h₂, rfl⟩ := h
  rw [synchronizeBlockList_eq] at h₂
  cases h₂
  rw [updateTimeBasedSupplyLimits_bank]
  exact seizeAssets_swept (validateAssets_denoms s.params.property).1
    (fun a ha => getAsset_mem s ha) hown h₁

end

/-- With no locked coins, ordinary owners and lists of addresses, the begin blocker
completes. The addresses blocked for a blockable asset then hold nothing of it, its
owner has what they held, each counted once, and no other balance and no supply has
changed. -/
theorem beginBlocker_sweeps (env : Env) (ctx : Ctx) (s : State A)
    (hlocked : ∀ x d, s.bank.locked x d = 0)
    (howners : ∀ asset ∈ s.params.val.assets, OrdinaryOwner A env asset)
    (hlists : ∀ asset ∈ s.params.val.assets, ∀ address ∈ asset.blockedAddresses,
      ∃ x, env.accAddressFromBech32 address = some x) :
    ∃ s', beginBlocker env ctx s = .ok s' ∧ s'.bank.supply = s.bank.supply ∧
      (∀ asset ∈ s.params.val.assets, asset.blockable = true →
        ∃ owner, env.accAddressFromBech32 asset.owner = some owner ∧
          (∀ x ∈ blocked env asset, s'.bank.balances x asset.denom = 0) ∧
          s'.bank.balances owner asset.denom =
            s.bank.balances owner asset.denom +
              ∑ x ∈ (blocked env asset).toFinset, s.bank.balances x asset.denom ∧
          ∀ x, x ≠ owner → x ∉ blocked env asset →
            s'.bank.balances x asset.denom = s.bank.balances x asset.denom) ∧
      ∀ d, (∀ asset ∈ s.params.val.assets, asset.blockable = true → asset.denom ≠ d) →
        ∀ x, s'.bank.balances x d = s.bank.balances x d := by
  have hok : ∃ s', beginBlocker env ctx s = .ok s' := by
    rw [beginBlocker_succeeds_iff]
    intro asset ha _ pre address post e
    obtain ⟨owner, ho, hm, _⟩ := howners asset ha
    obtain ⟨x, hx⟩ := hlists asset ha address (by simp [e])
    exact ⟨x, hx, fun _ => ⟨hlocked x _, owner, ho, hm⟩⟩
  obtain ⟨s', h⟩ := hok
  have hsw := beginBlocker_swept howners h
  refine ⟨s', h, hsw.supply, fun asset ha hbl => ?_, hsw.others⟩
  obtain ⟨owner, ho, _⟩ := howners asset ha
  have hasset := hsw.swept asset ha hbl owner ho
  exact ⟨owner, ho, hasset.empty, hasset.gains, hasset.other⟩

/-- Two assets, each with its owner on the list of the other, and one address listed twice. -/
def mutualParams : Params :=
  ⟨[⟨ownerText, "usdx", [vestingText, vestingText], false, true, ⟨false, 0, 0⟩⟩,
    ⟨vestingText, "eurx", [ownerText], false, true, ⟨false, 0, 0⟩⟩]⟩

theorem mutualParams_valid : mutualParams.validate = .ok () := by decide

theorem mutualUsdx_nonneg : 0 ≤ (⟨"usdx", 5⟩ : Coin).amount := by decide

theorem mutualEurx_nonneg : 0 ≤ (⟨"eurx", 3⟩ : Coin).amount := by decide

def mutualState : State chainAddrs where
  params := ⟨mutualParams, mutualParams_valid⟩
  supplies := KVStore.empty
  previousBlockTime := none
  bank := (Bank.empty.credit vestingAddr ⟨"usdx", 5⟩ mutualUsdx_nonneg).credit ownerAddr ⟨"eurx", 3⟩
    mutualEurx_nonneg

theorem beginBlocker_sweeps_mutual :
    mutualState.bank.balances vestingAddr "usdx" = 5 ∧
    mutualState.bank.balances ownerAddr "eurx" = 3 ∧
    ∀ ctx, ∃ s', beginBlocker sampleEnv ctx mutualState = .ok s' ∧
      s'.bank.balances vestingAddr "usdx" = 0 ∧ s'.bank.balances ownerAddr "usdx" = 5 ∧
      s'.bank.balances ownerAddr "eurx" = 0 ∧ s'.bank.balances vestingAddr "eurx" = 3 := by
  refine ⟨by decide, by decide, fun ctx => ?_⟩
  have hlocked : ∀ x d, mutualState.bank.locked x d = 0 := fun _ _ => rfl
  have howners : ∀ asset ∈ mutualParams.assets, OrdinaryOwner chainAddrs sampleEnv asset := by
    unfold mutualParams
    simp only [List.forall_mem_cons]
    refine ⟨⟨ownerAddr, by decide⟩, ⟨vestingAddr, by decide⟩, fun a ha => ?_⟩
    cases ha
  have hlists : ∀ asset ∈ mutualParams.assets, ∀ address ∈ asset.blockedAddresses,
      ∃ x, sampleEnv.accAddressFromBech32 address = some x := by
    have hsome : ∀ asset ∈ mutualParams.assets, ∀ address ∈ asset.blockedAddresses,
        (sampleEnv.accAddressFromBech32 address).isSome = true := by decide
    exact fun asset ha address hm => Option.isSome_iff_exists.mp (hsome asset ha address hm)
  obtain ⟨s', h, _, hs, _⟩ := beginBlocker_sweeps sampleEnv ctx mutualState hlocked howners hlists
  obtain ⟨o₁, ho₁, hz₁, hg₁, _⟩ := hs _ List.mem_cons_self rfl
  obtain ⟨o₂, ho₂, hz₂, hg₂, _⟩ := hs _ (List.mem_cons_of_mem _ List.mem_cons_self) rfl
  cases ho₁
  cases ho₂
  exact ⟨s', h, hz₁ _ (by decide), hg₁, hz₂ _ (by decide), hg₂⟩

end ZgChain.Issuance
