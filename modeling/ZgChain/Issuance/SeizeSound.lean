import ZgChain.Issuance.Msg

/-!
# When the begin blocker completes

The begin blocker panics on any error of the seizure, and the seizure stops at the
first listed address it cannot parse or whose coins it cannot move. Along the list
the bank changes: a holder that was visited holds nothing any more, and the owner
holds what was seized so far. Which addresses hold coins when their turn comes can
still be read off the bank before the block.
-/

namespace ZgChain.Issuance

variable {A : ModuleAddrs} {env : Env} {asset : Asset}

/-! ## One address -/

def Payable (env : Env) (asset : Asset) (b : Bank A) (x : Addr) : Prop :=
  b.locked x asset.denom = 0 ∧
  ∃ owner, env.accAddressFromBech32 asset.owner = some owner ∧ A.moduleAccountAddrs owner = false

theorem newCoins_pos {c : Coin} (h : 0 < c.amount) : newCoins c = [c] := by
  simp [newCoins, h.ne']

theorem seize_transfers {b b₁ b₂ : Bank A} {x owner : Addr} {c : Coin}
    (h₁ : b.sendCoins x (A.addr .issuance) [c] = .ok b₁)
    (h₂ : b₁.sendCoins (A.addr .issuance) owner [c] = .ok b₂) :
    b₂.locked = b.locked ∧ ∀ y d, b₂.balances y d =
      b.balances y d - (if y = x ∧ c.denom = d then c.amount else 0) +
        if y = owner ∧ c.denom = d then c.amount else 0 := by
  obtain ⟨_, hb₁, hl₁⟩ := Bank.sendCoins_ok h₁
  obtain ⟨_, hb₂, hl₂⟩ := Bank.sendCoins_ok h₂
  refine ⟨hl₂.trans hl₁, fun y d => ?_⟩
  rw [hb₂, hb₁]
  simp only [amountOf_cons, amountOf_nil, add_zero]
  by_cases hd : c.denom = d
  · simp only [hd, if_true, and_true]
    omega
  · simp [hd]

section
variable {b b' : Bank A} {address : String}

inductive Seized (env : Env) (asset : Asset) (b : Bank A) (x : Addr) : Bank A → Prop where
  | nothing (h : b.balances x asset.denom ≤ 0) : Seized env asset b x b
  | all {b' : Bank A} {owner : Addr} (h : 0 < b.balances x asset.denom) (hp : Payable env asset b x)
      (ho : env.accAddressFromBech32 asset.owner = some owner) (hl : b'.locked = b.locked)
      (hb : ∀ y d, b'.balances y d =
        b.balances y d - (if y = x ∧ asset.denom = d then b.balances x asset.denom else 0) +
          if y = owner ∧ asset.denom = d then b.balances x asset.denom else 0) :
            Seized env asset b x b'

theorem seizeFrom_ok (h : seizeFrom env asset b address = .ok b') :
    ∃ x, env.accAddressFromBech32 address = some x ∧ Seized env asset b x b' := by
  simp only [seizeFrom, decodeAddress, bind_eq_ok, orReject_eq_ok] at h
  obtain ⟨x, hx, h⟩ := h
  refine ⟨x, hx, ?_⟩
  split at h
  · rename_i hacc
    cases h
    refine .nothing (Int.not_lt.mp fun hpos => ?_)
    simp [b.holder_account x _ hpos] at hacc
  · split at h
    · rename_i hle
      cases h
      exact .nothing hle
    · rename_i hpos
      have hpos := Int.not_le.mp hpos
      rw [newCoins_pos hpos] at h
      simp only [bind_eq_ok, mapError_eq_ok, orReject_eq_ok] at h
      obtain ⟨b₁, h₁, owner, ho, h₂⟩ := h
      obtain ⟨hm, h₂⟩ := Bank.sendCoinsFromModuleToAccount_ok.mp h₂
      obtain ⟨hl, hb⟩ := seize_transfers h₁ h₂
      have hun : b.balances x asset.denom ≤ b.balances x asset.denom - b.locked x asset.denom :=
        ((Bank.sendCoins_singleton b x _ _).mp ⟨b₁, h₁⟩).2
      have hnn := b.locked_nonneg x asset.denom
      exact .all hpos ⟨by omega, owner, ho, hm⟩ ho hl hb

theorem seizeFrom_succeeds_iff (hd : validateDenom asset.denom = true) :
    (∃ b', seizeFrom env asset b address = .ok b') ↔
      ∃ x, env.accAddressFromBech32 address = some x ∧
        (0 < b.balances x asset.denom → Payable env asset b x) := by
  constructor
  · rintro ⟨b', h⟩
    obtain ⟨x, hx, hs⟩ := seizeFrom_ok h
    refine ⟨x, hx, fun hpos => ?_⟩
    cases hs with
    | nothing hle => omega
    | all _ hp => exact hp
  · rintro ⟨x, hx, h⟩
    unfold seizeFrom decodeAddress
    rw [hx, orReject, ok_bind]
    by_cases hpos : 0 < b.balances x asset.denom
    · obtain ⟨hl, owner, ho, hm⟩ := h hpos
      have hv : Coins.isValid [⟨asset.denom, b.balances x asset.denom⟩] = true :=
        (isValid_singleton _).mpr ⟨hd, hpos⟩
      obtain ⟨b₁, h₁⟩ :=
        (Bank.sendCoins_singleton b x (A.addr .issuance)
          ⟨asset.denom, b.balances x asset.denom⟩).mpr
        ⟨hv, by simp [hl]⟩
      -- what the address sent is in the module account, also if the two are the same
      have hheld : b.balances x asset.denom ≤
          b₁.balances (A.addr .issuance) asset.denom -
            b₁.locked (A.addr .issuance) asset.denom := by
        have hnn := b.balances_nonneg (A.addr .issuance) asset.denom
        rw [b₁.locked_module, (Bank.sendCoins_ok h₁).2.1]
        simp only [amountOf_cons, amountOf_nil, add_zero, if_true]
        split
        · rename_i e
          rw [e] at hnn ⊢
          omega
        · omega
      obtain ⟨b₂, h₂⟩ := (Bank.sendCoins_singleton b₁ (A.addr .issuance) owner
        ⟨asset.denom, b.balances x asset.denom⟩).mpr ⟨hv, hheld⟩
      have h₂ := Bank.sendCoinsFromModuleToAccount_ok.mpr ⟨hm, h₂⟩
      refine ⟨b₂, ?_⟩
      rw [if_neg (by simp [b.holder_account x _ hpos]), if_neg (Int.not_le.mpr hpos),
        newCoins_pos hpos]
      simp only [bind_eq_ok, mapError_eq_ok, orReject_eq_ok]
      exact ⟨b₁, h₁, owner, ho, h₂⟩
    · have hle := Int.not_lt.mp hpos
      refine ⟨b, ?_⟩
      split
      · rfl
      · rw [if_pos hle]
        rfl

end

/-! ## One block list -/

/-- An address holds coins of the asset when the addresses `pre` were visited: those
it had, or, if it is the owner's, those seized from `pre`. -/
def Due (env : Env) (asset : Asset) (b : Bank A) (pre : List String) (x : Addr) : Prop :=
  0 < b.balances x asset.denom ∨
  env.accAddressFromBech32 asset.owner = some x ∧
    ∃ address ∈ pre, ∃ y, env.accAddressFromBech32 address = some y ∧ 0 < b.balances y asset.denom

def SeizableAfter (env : Env) (asset : Asset) (b : Bank A) (seen addresses : List String) : Prop :=
  ∀ pre address post, addresses = pre ++ address :: post →
    ∃ x, env.accAddressFromBech32 address = some x ∧
    (Due env asset b (seen ++ pre) x → Payable env asset b x)

/-- Every listed address is one, and the coins of those that hold any can be moved. -/
def Seizable (env : Env) (asset : Asset) (b : Bank A) : Prop :=
  SeizableAfter env asset b [] asset.blockedAddresses

theorem seizableAfter_cons {b : Bank A} {seen addresses : List String} {address : String} :
    SeizableAfter env asset b seen (address :: addresses) ↔
      (∃ x, env.accAddressFromBech32 address = some x ∧
        (Due env asset b seen x → Payable env asset b x)) ∧
      SeizableAfter env asset b (seen ++ [address]) addresses := by
  constructor
  · intro h
    refine ⟨?_, fun pre a post e => ?_⟩
    · simpa using h [] address addresses rfl
    · simpa using h (address :: pre) a post (by rw [e, List.cons_append])
  · rintro ⟨h₁, h₂⟩ pre a post e
    cases pre with
    | nil =>
      cases e
      simpa using h₁
    | cons p pre =>
      cases e
      simpa using h₂ pre a post rfl

theorem Due.mono {b : Bank A} {seen seen' : List String} {x : Addr} (h : Due env asset b seen x)
    (hs : seen ⊆ seen') :
    Due env asset b seen' x := by
  rcases h with h | ⟨ho, a, ha, h⟩
  · exact Or.inl h
  · exact Or.inr ⟨ho, a, hs ha, h⟩

/-- The bank `c`, after the addresses `seen` were visited with the bank `b`. -/
structure Visited (env : Env) (asset : Asset) (b : Bank A) (seen : List String) (c : Bank A) :
    Prop where
  locked : ∀ x, c.locked x asset.denom = b.locked x asset.denom
  sound : ∀ x, 0 < c.balances x asset.denom → Due env asset b seen x
  complete : ∀ x, Due env asset b seen x → 0 < c.balances x asset.denom ∨
    Payable env asset b x ∧ ∃ address ∈ seen, env.accAddressFromBech32 address = some x

section
variable {b c c' : Bank A} {seen : List String} {address : String} {x : Addr}

theorem Visited.init (hb : ∀ x, c.balances x asset.denom = b.balances x asset.denom)
    (hl : ∀ x, c.locked x asset.denom = b.locked x asset.denom) : Visited env asset b [] c := by
  refine ⟨hl, fun x hx => Or.inl (hb x ▸ hx), fun x hx => Or.inl ?_⟩
  rcases hx with hx | ⟨_, _, hm, _⟩
  · exact (hb x).symm ▸ hx
  · cases hm

theorem Visited.payable (h : Visited env asset b seen c) (x : Addr) :
    Payable env asset c x ↔ Payable env asset b x := by
  simp only [Payable, h.locked]

theorem Visited.due_iff (h : Visited env asset b seen c) (x : Addr) :
    (Due env asset b seen x → Payable env asset b x) ↔
    (0 < c.balances x asset.denom → Payable env asset c x) := by
  rw [h.payable]
  refine ⟨fun hd hx => hd (h.sound x hx), fun hc hd => ?_⟩
  rcases h.complete x hd with hx | ⟨hp, _⟩
  · exact hc hx
  · exact hp

theorem Visited.skip (h : Visited env asset b seen c)
    (hx : env.accAddressFromBech32 address = some x)
    (hle : c.balances x asset.denom ≤ 0) : Visited env asset b (seen ++ [address]) c := by
  have hmono : seen ⊆ seen ++ [address] := List.subset_append_left _ _
  refine ⟨h.locked, fun y hy => (h.sound y hy).mono hmono, fun y hy => ?_⟩
  have hold : Due env asset b seen y := by
    rcases hy with hy | ⟨ho, a, ha, z, hz, hpos⟩
    · exact Or.inl hy
    rcases List.mem_append.mp ha with ha | ha
    · exact Or.inr ⟨ho, a, ha, z, hz, hpos⟩
    -- the address held coins before, so it was visited before and the owner has them
    · rw [List.mem_singleton.mp ha, hx] at hz
      cases hz
      rcases h.complete x (Or.inl hpos) with hc | ⟨_, a', ha', hx'⟩
      · omega
      · exact Or.inr ⟨ho, a', ha', x, hx', hpos⟩
  rcases h.complete y hold with hc | ⟨hp, a, ha, hy⟩
  · exact Or.inl hc
  · exact Or.inr ⟨hp, a, hmono ha, hy⟩

theorem Visited.seize (h : Visited env asset b seen c)
    (hx : env.accAddressFromBech32 address = some x)
    (hpos : 0 < c.balances x asset.denom) (hp : Payable env asset c x) {owner : Addr}
    (ho : env.accAddressFromBech32 asset.owner = some owner) (hl : c'.locked = c.locked)
    (hb : ∀ y d, c'.balances y d =
      c.balances y d - (if y = x ∧ asset.denom = d then c.balances x asset.denom else 0) +
        if y = owner ∧ asset.denom = d then c.balances x asset.denom else 0) :
    Visited env asset b (seen ++ [address]) c' := by
  have hmono : seen ⊆ seen ++ [address] := List.subset_append_left _ _
  -- the owner has the coins, whether the address had them before or was paid on the way
  have howner : Due env asset b (seen ++ [address]) owner := by
    rcases h.sound x hpos with hbx | ⟨_, a, ha, hz⟩
    · exact Or.inr ⟨ho, address, by simp, x, hx, hbx⟩
    · exact Or.inr ⟨ho, a, hmono ha, hz⟩
  have hb (y : Addr) := hb y asset.denom
  simp only [and_true] at hb
  refine ⟨fun y => by rw [hl, h.locked], fun y hy => ?_, fun y hy => ?_⟩
  · by_cases hyo : y = owner
    · exact hyo ▸ howner
    · by_cases hyx : y = x
      · subst hyx
        rw [hb, if_pos rfl, if_neg hyo] at hy
        omega
      · rw [hb, if_neg hyx, if_neg hyo] at hy
        exact (h.sound y (by omega)).mono hmono
  · by_cases hyx : y = x
    · subst hyx
      exact Or.inr ⟨(h.payable y).mp hp, address, by simp, hx⟩
    · have hnn := c.balances_nonneg y asset.denom
      by_cases hyo : y = owner
      · left
        rw [hb, if_neg hyx, if_pos hyo]
        omega
      · have hby : 0 < b.balances y asset.denom := by
          rcases hy with hy | ⟨hy, _⟩
          · exact hy
          · rw [ho] at hy
            cases hy
            exact absurd rfl hyo
        rcases h.complete y (Or.inl hby) with hc | ⟨hpy, a, ha, hay⟩
        · left
          rw [hb, if_neg hyx, if_neg hyo]
          omega
        · exact Or.inr ⟨hpy, a, hmono ha, hay⟩

theorem Visited.step (h : Visited env asset b seen c)
    (hs : seizeFrom env asset c address = .ok c') :
    Visited env asset b (seen ++ [address]) c' := by
  obtain ⟨x, hx, hs⟩ := seizeFrom_ok hs
  cases hs with
  | nothing hle => exact h.skip hx hle
  | all hpos hp ho hl hb => exact h.seize hx hpos hp ho hl hb

theorem Visited.foldlM_succeeds_iff (hd : validateDenom asset.denom = true)
    (h : Visited env asset b seen c) (addresses : List String) :
    (∃ c', addresses.foldlM (seizeFrom env asset) c = .ok c') ↔
    SeizableAfter env asset b seen addresses := by
  induction addresses generalizing seen c with
  | nil =>
    refine ⟨fun _ pre a post e => ?_, fun _ => ⟨c, rfl⟩⟩
    simp at e
  | cons address addresses ih =>
    have hhead : (∃ c', seizeFrom env asset c address = .ok c') ↔
        ∃ x, env.accAddressFromBech32 address = some x ∧
        (Due env asset b seen x → Payable env asset b x) := by
      simp only [seizeFrom_succeeds_iff hd, h.due_iff]
    rw [seizableAfter_cons, ← hhead]
    simp only [List.foldlM_cons, bind_eq_ok]
    constructor
    · rintro ⟨c', c₁, h₁, h₂⟩
      exact ⟨⟨c₁, h₁⟩, (ih (h.step h₁)).mp ⟨c', h₂⟩⟩
    · rintro ⟨⟨c₁, h₁⟩, h₂⟩
      obtain ⟨c', h₂⟩ := (ih (h.step h₁)).mpr h₂
      exact ⟨c', c₁, h₁, h₂⟩

end

/-! ## All assets -/

def SameBut (d : Denom) (b b' : Bank A) : Prop :=
  b'.locked = b.locked ∧ ∀ x e, e ≠ d → b'.balances x e = b.balances x e

theorem seizeFrom_sameBut {b b' : Bank A} {address : String}
    (h : seizeFrom env asset b address = .ok b') :
    SameBut asset.denom b b' := by
  obtain ⟨x, _, hs⟩ := seizeFrom_ok h
  cases hs with
  | nothing _ => exact ⟨rfl, fun _ _ _ => rfl⟩
  | all _ _ _ hl hb =>
    refine ⟨hl, fun y e he => ?_⟩
    rw [hb]
    simp [he.symm]

theorem foldlM_seizeFrom_sameBut {addresses : List String} {b b' : Bank A}
    (h : addresses.foldlM (seizeFrom env asset) b = .ok b') : SameBut asset.denom b b' := by
  induction addresses generalizing b with
  | nil =>
    cases h
    exact ⟨rfl, fun _ _ _ => rfl⟩
  | cons address addresses ih =>
    rw [List.foldlM_cons, bind_eq_ok] at h
    obtain ⟨b₁, h₁, h₂⟩ := h
    obtain ⟨hl₁, hb₁⟩ := seizeFrom_sameBut h₁
    obtain ⟨hl₂, hb₂⟩ := ih h₂
    exact ⟨hl₂.trans hl₁, fun x e he => (hb₂ x e he).trans (hb₁ x e he)⟩

def seizeAsset (env : Env) (s : State A) (asset : Asset) : Except Error (State A) :=
  if asset.blockable = true then seizeCoinsFromBlockedAddresses env s asset.denom else .ok s

section
variable {s s' : State A} {b : Bank A}

theorem seizeAsset_ok (hg : getAsset s asset.denom = .ok asset)
    (h : seizeAsset env s asset = .ok s') :
    ∃ b', s' = { s with bank := b' } ∧ SameBut asset.denom s.bank b' := by
  unfold seizeAsset at h
  split at h
  · simp only [seizeCoinsFromBlockedAddresses, hg, ok_bind, bind_eq_ok, pure_eq_ok] at h
    obtain ⟨b', hb, rfl⟩ := h
    exact ⟨b', rfl, foldlM_seizeFrom_sameBut hb⟩
  · cases h
    exact ⟨s.bank, rfl, rfl, fun _ _ _ => rfl⟩

theorem seizeAsset_succeeds_iff (hg : getAsset s asset.denom = .ok asset)
    (hd : validateDenom asset.denom = true)
    (hb : ∀ x, s.bank.balances x asset.denom = b.balances x asset.denom)
    (hl : ∀ x, s.bank.locked x asset.denom = b.locked x asset.denom) :
    (∃ s', seizeAsset env s asset = .ok s') ↔ (asset.blockable = true → Seizable env asset b) := by
  have hv : Visited env asset b [] s.bank := Visited.init hb hl
  unfold seizeAsset
  by_cases hbl : asset.blockable = true
  · simp only [hbl, if_true, true_imp_iff, seizeCoinsFromBlockedAddresses, hg, ok_bind, bind_eq_ok,
      pure_eq_ok]
    rw [Seizable, ← hv.foldlM_succeeds_iff hd]
    constructor
    · rintro ⟨_, b', h, _⟩
      exact ⟨b', h⟩
    · rintro ⟨b', h⟩
      exact ⟨_, b', h, rfl⟩
  · simp [hbl]

theorem seizeAssets_succeeds_iff {assets : List Asset} (hn : (assets.map Asset.denom).Nodup)
    (hg : ∀ asset ∈ assets, getAsset s asset.denom = .ok asset ∧ validateDenom asset.denom = true)
    (hb : ∀ asset ∈ assets, ∀ x, s.bank.balances x asset.denom = b.balances x asset.denom)
    (hl : s.bank.locked = b.locked) :
    (∃ s', assets.foldlM (seizeAsset env) s = .ok s') ↔
      ∀ asset ∈ assets, asset.blockable = true → Seizable env asset b := by
  induction assets generalizing s with
  | nil => simp [pure, Except.pure]
  | cons asset assets ih =>
    obtain ⟨hga, hda⟩ := hg asset (by simp)
    rw [List.map_cons, List.nodup_cons] at hn
    have hhead : (∃ s', seizeAsset env s asset = .ok s') ↔
        (asset.blockable = true → Seizable env asset b) :=
      seizeAsset_succeeds_iff hga hda (hb asset (by simp)) fun x => by rw [hl]
    have htail {s₁ : State A} (h₁ : seizeAsset env s asset = .ok s₁) :
        (∃ s', assets.foldlM (seizeAsset env) s₁ = .ok s') ↔
          ∀ asset ∈ assets, asset.blockable = true → Seizable env asset b := by
      obtain ⟨b', rfl, hl', hb'⟩ := seizeAsset_ok hga h₁
      refine ih hn.2 (fun a ha => hg a (by simp [ha])) (fun a ha x => ?_) (hl'.trans hl)
      have hne : a.denom ≠ asset.denom := fun e => hn.1 (e ▸ List.mem_map_of_mem ha)
      exact (hb' x a.denom hne).trans (hb a (by simp [ha]) x)
    simp only [List.foldlM_cons, bind_eq_ok, List.forall_mem_cons]
    rw [← hhead]
    constructor
    · rintro ⟨s', s₁, h₁, h₂⟩
      exact ⟨⟨s₁, h₁⟩, (htail h₁).mp ⟨s', h₂⟩⟩
    · rintro ⟨⟨s₁, h₁⟩, h₂⟩
      obtain ⟨s', h₂⟩ := (htail h₁).mpr h₂
      exact ⟨s', s₁, h₁, h₂⟩

end

/-! ## The begin blocker -/

theorem find?_denom {assets : List Asset} (hn : (assets.map Asset.denom).Nodup)
    (hm : asset ∈ assets) :
    assets.find? (fun a => a.denom = asset.denom) = some asset := by
  induction assets with
  | nil => cases hm
  | cons a assets ih =>
    rw [List.map_cons, List.nodup_cons] at hn
    cases hm with
    | head => simp
    | tail _ hm =>
      have hne : a.denom ≠ asset.denom := fun e => hn.1 (e ▸ List.mem_map_of_mem hm)
      rw [List.find?_cons_of_neg (by simpa using hne)]
      exact ih hn.2 hm

theorem getAsset_mem (s : State A) (hm : asset ∈ s.params.val.assets) :
    getAsset s asset.denom = .ok asset := by
  rw [getAsset, find?_denom (validateAssets_denoms s.params.property).1 hm]
  rfl

/-- Valid parameters list no address of an asset that is not blockable. -/
theorem synchronizeBlockList_eq (s : State A) : synchronizeBlockList s = .ok s := by
  have hall : ∀ assets : List Asset, (∀ asset ∈ assets, asset ∈ s.params.val.assets) →
      assets.foldlM (fun s asset =>
        if asset.blockable = false ∧ asset.blockedAddresses ≠ [] then
          setAsset s { asset with blockedAddresses := [] }
        else .ok s) s = .ok s := by
    intro assets
    induction assets with
    | nil => exact fun _ => rfl
    | cons asset assets ih =>
      intro hmem
      have hv := (Asset.validate_ok (validateAssets_mem s.params.property (hmem asset (by simp)))).2
      rw [List.foldlM_cons, if_neg fun h => h.2 (hv h.1), ok_bind]
      exact ih fun a ha => hmem a (by simp [ha])
  exact hall _ fun _ h => h

theorem beginBlocker_succeeds_iff (env : Env) (ctx : Ctx) (s : State A) :
    (∃ s', beginBlocker env ctx s = .ok s') ↔
      ∀ asset ∈ s.params.val.assets, asset.blockable = true → Seizable env asset s.bank := by
  have hseize : (∃ s', seizeCoinsForBlockableAssets env s = .ok s') ↔
      ∀ asset ∈ s.params.val.assets, asset.blockable = true → Seizable env asset s.bank := by
    refine seizeAssets_succeeds_iff (validateAssets_denoms s.params.property).1 (fun asset hm => ?_)
      (fun _ _ _ => rfl) rfl
    exact ⟨getAsset_mem s hm, (Asset.validate_ok (validateAssets_mem s.params.property hm)).1⟩
  rw [← hseize]
  simp only [beginBlocker, synchronizeBlockList_eq, ok_bind, bind_eq_ok, pure_eq_ok]
  constructor
  · rintro ⟨_, s₁, h, _⟩
    exact ⟨s₁, h⟩
  · rintro ⟨s₁, h⟩
    exact ⟨_, s₁, h, rfl⟩

/-- In every state reached by the messages, transfers, new vesting accounts and begin
blockers, the next begin blocker completes if and only if the block lists of the
blockable assets can be worked off. -/
theorem beginBlocker_completes_iff (env : Env) (s₀ : State A) (ops : List Op) (ctx : Ctx) :
    (∃ s', beginBlocker env ctx (runSteps (step env) s₀ ops) = .ok s') ↔
      ∀ asset ∈ (runSteps (step env) s₀ ops).params.val.assets, asset.blockable = true →
        Seizable env asset (runSteps (step env) s₀ ops).bank :=
  beginBlocker_succeeds_iff env ctx _

def ownerAddr : Addr := beBytes 20 0xde9

def vestingAddr : Addr := beBytes 20 0xa11ce

def ownerText : String := "0g1qqqqqqqqqqqqqqqqqqqqqqqqqqqqqr0f40xh7q"

def vestingText : String := "0g1qqqqqqqqqqqqqqqqqqqqqqqqqqqq5ywwfrrwct"

def sampleEnv : Env where
  accAddressFromBech32 str := if str = ownerText then some ownerAddr else if str = vestingText then
    some vestingAddr else none
  bech32 a := if a = ownerAddr then ownerText else if a = vestingAddr then vestingText else ""

def sampleState : State chainAddrs where
  params := ⟨⟨[⟨ownerText, "usdx", [], false, true, ⟨false, 0, 0⟩⟩]⟩, by decide⟩
  supplies := KVStore.empty
  previousBlockTime := none
  bank := Bank.empty

def blockVesting : List Op :=
  [.deliver (.issueTokens ⟨ownerText, ⟨"usdx", 100⟩, ownerText⟩),
    .createVestingAccount ownerAddr vestingAddr [⟨"usdx", 100⟩],
    .deliver (.blockAddress ⟨ownerText, "usdx", vestingText⟩)]

theorem blockVesting_halts :
    (runSteps (step sampleEnv) sampleState blockVesting).params.val =
      ⟨[⟨ownerText, "usdx", [vestingText], false, true, ⟨false, 0, 0⟩⟩]⟩ ∧
    (runSteps (step sampleEnv) sampleState blockVesting).bank.balances vestingAddr "usdx" = 100 ∧
    ∀ ctx, ¬ ∃ s', beginBlocker sampleEnv ctx (runSteps (step sampleEnv) sampleState blockVesting) =
      .ok s' := by
  refine ⟨by decide, by decide, fun ctx h => ?_⟩
  have hno : ¬ ∃ s', seizeCoinsForBlockableAssets sampleEnv
      (runSteps (step sampleEnv) sampleState blockVesting) = .ok s' := by
    decide
  simp only [beginBlocker, bind_eq_ok] at h
  obtain ⟨_, s₁, hs₁, _⟩ := h
  exact hno ⟨s₁, hs₁⟩

end ZgChain.Issuance
