import ZgChain.Bep3.ClaimSound

/-!
# Claims after genesis

The initialisation compares the supplies with whole amounts and with the supply
limit. A claim counts the first coin of an amount, mints within the time window,
pays an account that may receive coins, and burns from the current supply.
-/

namespace ZgChain.Bep3

variable {A : ModuleAddrs} {env : Env} {s s' : State A} {coin : Coin}

/-- Every stored supply counts the swaps that are not completed. -/
def CountersMatch (s : State A) : Prop :=
  ∀ d sup, s.supplies.get d = some sup →
    sup.incomingSupply.amount = pending .incoming s d ∧
    sup.outgoingSupply.amount = pending .outgoing s d

/-! ## The loaded state -/

theorem amountOf_pendingCoins (dir : SwapDirection) (d : Denom) (a : AtomicSwap) :
    (pendingCoins dir a).amountOf d = pendingAmount dir d a := by
  unfold pendingCoins pendingAmount
  split <;> rfl

theorem pending_storeSwap {swap : AtomicSwap} (hf : s.swaps.get (swap.getSwapID env) = none)
    (dir : SwapDirection) (d : Denom) : pending dir (storeSwap env s swap) d = pending dir s d +
      pendingAmount dir d swap := by
  obtain ⟨B, L, h⟩ := storeSwap_frame env s swap
  rw [h]
  simp only [pending]
  rw [KVStore.sumOn_set, hf, KVStore.contrib_none, sub_zero]

structure Counted (l : Loaded A) : Prop where
  incoming : ∀ d, l.incomingSupplies.amountOf d = pending .incoming l.state d
  outgoing : ∀ d, l.outgoingSupplies.amountOf d = pending .outgoing l.state d

theorem Counted.load {l : Loaded A} (h : Counted l) {swap : AtomicSwap}
    (hf : l.state.swaps.get (swap.getSwapID env) = none) : Counted (load env l swap) := by
  refine ⟨fun d => ?_, fun d => ?_⟩
  · rw [Bep3.load, amountOf_append, h.incoming, amountOf_pendingCoins, pending_storeSwap hf]
  · rw [Bep3.load, amountOf_append, h.outgoing, amountOf_pendingCoins, pending_storeSwap hf]

theorem checkSupply_iff {l : Loaded A} {supply : AssetSupply} :
    checkSupply l supply = .ok () ↔
      supply.incomingSupply.amount = l.incomingSupplies.amountOf supply.getDenom ∧
      supply.outgoingSupply.amount = l.outgoingSupplies.amountOf supply.getDenom ∧
      ∃ asset, getAsset l.state supply.getDenom = .ok asset ∧
        supply.currentSupply.amount ≤ asset.supplyLimit.limit ∧
        supply.incomingSupply.amount ≤ asset.supplyLimit.limit ∧
        supply.incomingSupply.amount + supply.currentSupply.amount ≤ asset.supplyLimit.limit ∧
        supply.outgoingSupply.amount ≤ asset.supplyLimit.limit := by
  simp only [checkSupply, getSupplyLimit, bind_eq_ok, rejectIf_eq_ok, pure_eq_ok, ne_eq, not_not,
    not_lt, exists_const]
  constructor
  · rintro ⟨hi, ho, limit, ⟨asset, ha, rfl⟩, h⟩
    exact ⟨hi, ho, asset, ha, h⟩
  · rintro ⟨hi, ho, asset, ha, h⟩
    exact ⟨hi, ho, _, ⟨asset, ha, rfl⟩, h⟩

structure GenesisInv (env : Env) (s : State A) : Prop where
  index : IndexInv env s
  denoms : SupplyDenoms s
  counters : CountersMatch s
  limits : ∀ d sup, s.supplies.get d = some sup → ∃ asset, getAsset s d = .ok asset ∧
    sup.incomingSupply.amount + sup.currentSupply.amount ≤ asset.supplyLimit.limit
  valid : ∀ id a, s.swaps.get id = some a → a.validate = .ok ()
  supplies : ∀ d sup, s.supplies.get d = some sup → sup.validate = .ok ()

theorem GenesisInv.initGenesis {bank : Bank A} {gs : GenesisState}
    (h : initGenesis env bank gs = .ok s) :
    GenesisInv env s := by
  have hi := IndexInv.initGenesis h
  obtain ⟨hp, ha, rfl⟩ := initGenesis_iff.mp h
  have hc : Counted (loadedState env ⟨gs.params, hp⟩ gs bank) :=
    ha.rule (fun l swap _ hf hc => hc.load hf) ⟨fun d => rfl, fun d => rfl⟩
  obtain ⟨B, L, hl⟩ := loadedState_eq env ⟨gs.params, hp⟩ gs bank
  have hsup (d : Denom) (sup : AssetSupply)
      (hs : (loadedState env ⟨gs.params, hp⟩ gs bank).state.supplies.get d = some sup) :
      sup ∈ gs.supplies ∧ sup.getDenom = d := by
    rw [hl] at hs
    rcases (KVStore.get_setAll ha.denoms d sup).mp hs with h | ⟨_, h⟩
    · exact h
    · cases h
  have hcheck (d : Denom) (sup : AssetSupply)
      (hs : (loadedState env ⟨gs.params, hp⟩ gs bank).state.supplies.get d = some sup) :=
    checkSupply_iff.mp (ha.counters sup ((KVStore.mem_values _ _).mpr ⟨d, hs⟩))
  refine ⟨hi, fun d sup hs => ?_, fun d sup hs => ?_, fun d sup hs => ?_, fun id a hg => ?_,
    fun d sup hs => ?_⟩
  · obtain ⟨hm, e⟩ := hsup d sup hs
    obtain ⟨_, _, _, _, h₁, h₂, h₃⟩ := sup.validate_iff.mp (ha.supplies sup hm)
    rw [e] at h₁ h₂ h₃
    exact ⟨h₁, h₂, e, h₃⟩
  · obtain ⟨h₁, h₂, _⟩ := hcheck d sup hs
    rw [(hsup d sup hs).2] at h₁ h₂
    exact ⟨h₁.trans (hc.incoming d), h₂.trans (hc.outgoing d)⟩
  · obtain ⟨_, _, asset, hasset, _, _, hlim, _⟩ := hcheck d sup hs
    rw [(hsup d sup hs).2] at hasset
    exact ⟨asset, hasset, hlim⟩
  · rw [hl] at hg
    rcases (KVStore.get_setAll ha.ids id a).mp hg with ⟨hm, _⟩ | ⟨_, h⟩
    · exact (ha.swaps a hm).1
    · cases h
  · exact ha.supplies sup (hsup d sup hs).1

theorem initGenesis_bank {bank : Bank A} {gs : GenesisState} (h : initGenesis env bank gs = .ok s) :
    s.bank = bank := by
  obtain ⟨hp, _, rfl⟩ := initGenesis_iff.mp h
  obtain ⟨B, L, hl⟩ := loadedState_eq env ⟨gs.params, hp⟩ gs bank
  rw [hl]
  rfl

/-! ## A claim -/

theorem counterOf_withBank (counter : AssetSupply → Coin) {x : Except BankError (Bank A)}
    (h : withBank s x = .ok s') :
    counterOf counter s' = counterOf counter s := by
  obtain ⟨b, _, rfl⟩ := (withBank_eq_ok _ _ _).mp h
  rfl

theorem payClaim_counters (hw : SupplyDenoms s) {a : AtomicSwap} (hfirst : firstCoin a = .ok coin)
    (h : payClaim s a = .ok s') :
    counterOf AssetSupply.incomingSupply s' =
      (counterOf AssetSupply.incomingSupply s).add coin.denom
        (claimDelta a.direction coin.amount .incoming) ∧
    counterOf AssetSupply.outgoingSupply s' =
      (counterOf AssetSupply.outgoingSupply s).add coin.denom
        (claimDelta a.direction coin.amount .outgoing) := by
  cases payClaim_ok h with
  | incoming hd hcoin h₁ h₂ h₃ h₄ =>
    cases hfirst.symm.trans hcoin
    have m₁ := decrementIncomingAssetSupply_moves hw h₁
    have m := m₁.trans (incrementCurrentAssetSupply_moves m₁.denoms h₂)
    rw [hd, counterOf_withBank _ h₄, counterOf_withBank _ h₃, counterOf_withBank _ h₄,
      counterOf_withBank _ h₃]
    refine ⟨(m.books .incoming).trans ?_, (m.books .outgoing).trans ?_⟩ <;> simp [claimDelta, book]
  | outgoing hd hcoin h₁ h₂ h₃ =>
    cases hfirst.symm.trans hcoin
    have m₁ := decrementOutgoingAssetSupply_moves hw h₁
    have m := m₁.trans (decrementCurrentAssetSupply_moves m₁.denoms h₂)
    rw [hd, counterOf_withBank _ h₃, counterOf_withBank _ h₃]
    refine ⟨(m.books .incoming).trans ?_, (m.books .outgoing).trans ?_⟩ <;> simp [claimDelta, book]

theorem pending_claimed (hi : IndexInv env s) {id : Bytes} {a : AtomicSwap}
    (hg : s.swaps.get id = some a) {s₁ : State A}
    (hpay : PaysOnly s s₁) (ctx : Ctx) (dir : SwapDirection) (d : Denom) :
    pending dir (insertIntoLongtermStorage env
      (removeFromByBlockIndex env (setAtomicSwap env s₁ (completedSwap ctx a))
      (completedSwap ctx a)) (completedSwap ctx a)) d =
      pending dir s d - pendingAmount dir d a := by
  have hid := hi.ids id a hg
  obtain ⟨_, _, _, rfl⟩ := hpay
  subst hid
  have hz : pendingAmount dir d (completedSwap ctx a) = 0 := by simp [pendingAmount, completedSwap]
  have hg' : s.swaps.get ((completedSwap ctx a).getSwapID env) = some a := hg
  change KVStore.sumOn _ (s.swaps.set _ _) = _
  rw [KVStore.sumOn_set, hz, hg', KVStore.contrib_some, add_zero]
  rfl

section
variable (h : GenesisInv env s) {id : Bytes} {a : AtomicSwap} (hg : s.swaps.get id = some a)
include h

theorem GenesisInv.pendingAmount_nonneg {id : Bytes} {a : AtomicSwap} (hg : s.swaps.get id = some a)
    (dir : SwapDirection) (d : Denom) : 0 ≤ pendingAmount dir d a := by
  obtain ⟨⟨hv, _⟩, _⟩ := a.validate_iff.mp (h.valid id a hg)
  unfold pendingAmount
  split
  · exact amountOf_nonneg (fun c hc => (amount_pos_of_isValid hv c hc).le) d
  · exact le_refl 0

include hg

theorem GenesisInv.amountOf_le (hs : a.status = .open) (d : Denom) :
    a.amount.amountOf d ≤ pending a.direction s d := by
  have hle := KVStore.le_sumOn (fun id b hb => h.pendingAmount_nonneg hb a.direction d) hg
  rwa [pendingAmount, if_pos ⟨rfl, Or.inl hs⟩] at hle

variable {rest : Coins} (ha : a.amount = coin :: rest)
include ha

theorem GenesisInv.isValid : Coins.isValid (coin :: rest) = true := by
  obtain ⟨⟨hv, _⟩, _⟩ := a.validate_iff.mp (h.valid id a hg)
  rwa [ha] at hv

/-- The coin that is counted stands for the whole amount of its denom. -/
theorem GenesisInv.amountOf_first (d : Denom) :
    a.amount.amountOf d = (if coin.denom = d then coin.amount else 0) + rest.amountOf d ∧
      (coin.denom = d → rest.amountOf d = 0) := by
  rw [ha, amountOf_cons]
  refine ⟨rfl, fun e => amountOf_eq_zero fun c hc hd => ?_⟩
  have hlt := denom_lt_of_isValid (h.isValid hg ha) c hc
  rw [e, hd] at hlt
  exact lt_irrefl _ hlt

variable (hs : a.status = .open)
include hs

theorem GenesisInv.first_le (d : Denom) (hd : coin.denom = d) :
    coin.amount ≤ pending a.direction s d := by
  have hle := h.amountOf_le hg hs d
  obtain ⟨hsum, hrest⟩ := h.amountOf_first hg ha d
  rwa [hsum, if_pos hd, hrest hd, add_zero] at hle

theorem GenesisInv.payClaim_incoming (hd : a.direction = .incoming) :
    (∃ s', payClaim s a = .ok s') ↔
      ∃ sup, s.supplies.get coin.denom = some sup ∧ A.moduleAccountAddrs a.recipient = false ∧
        ∀ asset, getAsset s coin.denom = .ok asset → asset.supplyLimit.timeLimited = true →
          sup.timeLimitedCurrentSupply.amount + coin.amount ≤ asset.supplyLimit.timeBasedLimit := by
  have hv := h.isValid hg ha
  have hfirst := firstCoin_cons ha
  unfold payClaim
  simp only [hd, hfirst, ok_bind, bind_eq_ok]
  constructor
  · rintro ⟨s', s₁, h₁, s₂, h₂, s₃, h₃, h₄⟩
    have hw₁ := (decrementIncomingAssetSupply_moves h.denoms h₁).denoms
    obtain ⟨sup, hsup, _, rfl⟩ := (decrementIncomingAssetSupply_iff h.denoms).mp h₁
    obtain ⟨sup', asset, hsup', hasset, _, ht, rfl⟩ := (incrementCurrentAssetSupply_iff hw₁).mp h₂
    obtain ⟨_, h₄, _⟩ := (withBank_eq_ok _ _ _).mp h₄
    rw [setAssetSupply, KVStore.get_set_self, Option.some.injEq] at hsup'
    subst hsup'
    refine ⟨sup, hsup, (Bank.sendCoinsFromModuleToAccount_ok.mp h₄).1, fun asset' ha' => ?_⟩
    rw [show getAsset s coin.denom = .ok asset from hasset] at ha'
    cases ha'
    exact ht
  · rintro ⟨sup, hsup, hrec, ht⟩
    obtain ⟨asset, hasset, hlim⟩ := h.limits _ _ hsup
    have hle := h.first_le hg ha hs coin.denom rfl
    rw [hd, ← (h.counters _ _ hsup).1] at hle
    have h₁ := (decrementIncomingAssetSupply_iff h.denoms).mpr ⟨sup, hsup, hle, rfl⟩
    have hw₁ := (decrementIncomingAssetSupply_moves h.denoms h₁).denoms
    have h₂ := (incrementCurrentAssetSupply_iff hw₁).mpr
      ⟨_, asset, KVStore.get_set_self _ _ _, hasset,
      by change sup.currentSupply.amount + _ ≤ _; omega, ht asset hasset, rfl⟩
    obtain ⟨b₁, h₃⟩ := Bank.mintCoins_of (b := s.bank) (m := .bep3) (by decide) hv
    -- the module account was given the amount just before
    have hheld (d : Denom) : Coins.amountOf (coin :: rest) d ≤ b₁.balances (A.addr .bep3) d := by
      have := s.bank.balances_nonneg (A.addr .bep3) d
      rw [(Bank.mintCoins_ok h₃).2.1, if_pos rfl]
      omega
    obtain ⟨b₂, h₄⟩ := Bank.sendCoins_module a.recipient hv hheld
    have h₄ := Bank.sendCoinsFromModuleToAccount_ok.mpr ⟨hrec, h₄⟩
    rw [ha]
    exact ⟨_, _, h₁, _, h₂, _, (withBank_eq_ok _ _ _).mpr ⟨b₁, h₃, rfl⟩,
      (withBank_eq_ok _ _ _).mpr ⟨b₂, h₄, rfl⟩⟩

theorem GenesisInv.payClaim_outgoing (hd : a.direction = .outgoing)
    (hheld : ∀ d, pending .outgoing s d ≤ s.bank.balances (A.addr .bep3) d) :
    (∃ s', payClaim s a = .ok s') ↔
      ∃ sup, s.supplies.get coin.denom = some sup ∧ coin.amount ≤ sup.currentSupply.amount := by
  have hv := h.isValid hg ha
  have hfirst := firstCoin_cons ha
  unfold payClaim
  simp only [hd, hfirst, ok_bind, bind_eq_ok]
  constructor
  · rintro ⟨s', s₁, h₁, s₂, h₂, h₃⟩
    have hw₁ := (decrementOutgoingAssetSupply_moves h.denoms h₁).denoms
    obtain ⟨sup, hsup, _, rfl⟩ := (decrementOutgoingAssetSupply_iff h.denoms).mp h₁
    obtain ⟨sup', hsup', hle, rfl⟩ := (decrementCurrentAssetSupply_iff hw₁).mp h₂
    rw [setAssetSupply, KVStore.get_set_self, Option.some.injEq] at hsup'
    subst hsup'
    exact ⟨sup, hsup, hle⟩
  · rintro ⟨sup, hsup, hcur⟩
    have hle := h.first_le hg ha hs coin.denom rfl
    rw [hd, ← (h.counters _ _ hsup).2] at hle
    have h₁ := (decrementOutgoingAssetSupply_iff h.denoms).mpr ⟨sup, hsup, hle, rfl⟩
    have hw₁ := (decrementOutgoingAssetSupply_moves h.denoms h₁).denoms
    have h₂ := (decrementCurrentAssetSupply_iff hw₁).mpr ⟨_, KVStore.get_set_self _ _ _, hcur, rfl⟩
    have hbal (d : Denom) : Coins.amountOf (coin :: rest) d ≤ s.bank.balances (A.addr .bep3) d := by
      have hle := h.amountOf_le hg hs d
      rw [hd, ha] at hle
      exact le_trans hle (hheld d)
    obtain ⟨b₁, h₃⟩ := Bank.burnCoins_of (m := .bep3) (by decide) hv hbal
    rw [ha]
    exact ⟨_, _, h₁, _, h₂, (withBank_eq_ok _ _ _).mpr ⟨b₁, h₃, rfl⟩⟩

/-- After a claim the counters match if none of the coins that were not counted has a supply. -/
theorem GenesisInv.countersMatch_iff {ctx : Ctx} {number : Bytes}
    (hc : claimAtomicSwap env ctx s id number = .ok s') :
    CountersMatch s' ↔ ∀ c ∈ rest, s.supplies.get c.denom = none := by
  have hfirst := firstCoin_cons ha
  obtain ⟨a', s₁, hg', _, _, hpay, rfl⟩ := claimAtomicSwap_ok hc
  rw [hg] at hg'
  cases hg'
  obtain ⟨hin, hout⟩ := payClaim_counters h.denoms hfirst hpay
  have hsame (d : Denom) : (s₁.supplies.get d).isSome = true ↔
      (s.supplies.get d).isSome = true := by
    obtain ⟨_, _, hk, rfl⟩ := payClaim_pays hpay
    exact ⟨payClaim_denoms hpay d, hk d⟩
  have hpend := fun dir d => pending_claimed h.index hg (payClaim_pays hpay) ctx dir d
  -- the counters lost the first coin, the pending sums lost all of them
  have hmatch (d : Denom) (sup' : AssetSupply) (hs' : s₁.supplies.get d = some sup') :
      (sup'.incomingSupply.amount = pending .incoming s d - pendingAmount .incoming d a ∧
        sup'.outgoingSupply.amount = pending .outgoing s d - pendingAmount .outgoing d a) ↔
          rest.amountOf d = 0 := by
    obtain ⟨sup, hsup⟩ := Option.isSome_iff_exists.mp ((hsame d).mp (by rw [hs']; rfl))
    obtain ⟨hi, ho⟩ := h.counters d sup hsup
    have hin := congrFun hin d
    have hout := congrFun hout d
    rw [counterOf_some _ hs', Ledger.add, Pi.add_apply, counterOf_some _ hsup, hi] at hin
    rw [counterOf_some _ hs', Ledger.add, Pi.add_apply, counterOf_some _ hsup, ho] at hout
    obtain ⟨hsum, _⟩ := h.amountOf_first hg ha d
    rw [hin, hout]
    rcases payClaim_direction hpay with hd | hd
    · simp only [pendingAmount, hd, hs, hsum, claimDelta, Pi.single_apply, eq_comm (a := d),
        true_or, and_true, ite_true, reduceCtorEq, ite_false]
      split <;> omega
    · simp only [pendingAmount, hd, hs, hsum, claimDelta, Pi.single_apply, eq_comm (a := d),
        true_or, and_true, ite_true, reduceCtorEq, ite_false]
      split <;> omega
  have hpos (c : Coin) (hc : c ∈ rest) : 0 < c.amount :=
    amount_pos_of_isValid (h.isValid hg ha) c (List.mem_cons_of_mem _ hc)
  unfold CountersMatch
  simp only [hpend]
  constructor
  · intro hm c hc
    by_contra hne
    obtain ⟨sup', hs'⟩ :=
      Option.isSome_iff_exists.mp ((hsame c.denom).mpr (Option.isSome_iff_ne_none.mpr hne))
    have hz := (hmatch c.denom sup' hs').mp (hm c.denom sup' hs')
    have := amountOf_pos hpos hc
    omega
  · intro hn d sup' hs'
    refine (hmatch d sup' hs').mpr (amountOf_eq_zero fun c hc e => ?_)
    have hsome := (hsame d).mp (by rw [show s₁.supplies.get d = some sup' from hs']; rfl)
    rw [← e, hn c hc] at hsome
    cases hsome

end

/-- A swap whose claim the initialisation has made safe: its first coin has a supply and no
other coin has one; an incoming swap pays an account that may receive coins, within the time
window; an outgoing swap is covered by the current supply. -/
def Claimable (s : State A) (a : AtomicSwap) : Prop :=
  ∃ coin rest sup, a.amount = coin :: rest ∧ s.supplies.get coin.denom = some sup ∧
    (∀ c ∈ rest, s.supplies.get c.denom = none) ∧
    (a.direction = .incoming → A.moduleAccountAddrs a.recipient = false ∧
      ∀ asset, getAsset s coin.denom = .ok asset → asset.supplyLimit.timeLimited = true →
        sup.timeLimitedCurrentSupply.amount + coin.amount ≤ asset.supplyLimit.timeBasedLimit) ∧
    (a.direction = .outgoing → coin.amount ≤ sup.currentSupply.amount)

/-- After every accepted genesis, with a module account that holds the coins of the outgoing
swaps, the claim of an open swap with its number succeeds and leaves the counters matching
exactly if the swap is claimable. -/
theorem claim_after_genesis_iff (env : Env) (bank : Bank A) (gs : GenesisState) (s : State A)
    (h : initGenesis env bank gs = .ok s)
    (hheld : ∀ d, pending .outgoing s d ≤ bank.balances (A.addr .bep3) d) (ctx : Ctx) (id : Bytes)
    (a : AtomicSwap) (hg : s.swaps.get id = some a) (hs : a.status = .open) (number : Bytes)
    (hnum : calculateRandomHash env number a.timestamp = a.randomNumberHash) :
    (∃ s', claimAtomicSwap env ctx s id number = .ok s' ∧ CountersMatch s') ↔ Claimable s a := by
  have hi : GenesisInv env s := GenesisInv.initGenesis h
  obtain ⟨⟨_, hall, _, _, _, _, _, _, hdir⟩, _⟩ := a.validate_iff.mp (hi.valid id a hg)
  obtain ⟨coin, rest, ha⟩ : ∃ coin rest, a.amount = coin :: rest := by
    cases he : a.amount with
    | nil => simp [he, Coins.isAllPositive] at hall
    | cons c cs => exact ⟨c, cs, rfl⟩
  -- with the number of an open swap nothing but the payment can fail
  have hclaim : (∃ s', claimAtomicSwap env ctx s id number = .ok s') ↔
      ∃ s', payClaim s a = .ok s' := by
    have hid : calculateSwapID env a.randomNumberHash a.sender a.senderOtherChain =
        a.getSwapID env := rfl
    simp [claimAtomicSwap, getAtomicSwap, hg, hs, hnum, hid, orReject, rejectIf, -bind_pure_comp]
  have hiff : (∃ s', claimAtomicSwap env ctx s id number = .ok s' ∧ CountersMatch s') ↔
      (∃ s', payClaim s a = .ok s') ∧ ∀ c ∈ rest, s.supplies.get c.denom = none := by
    constructor
    · rintro ⟨s', hc, hm⟩
      exact ⟨hclaim.mp ⟨s', hc⟩, (hi.countersMatch_iff hg ha hs hc).mp hm⟩
    · rintro ⟨hp, hn⟩
      obtain ⟨s', hc⟩ := hclaim.mpr hp
      exact ⟨s', hc, (hi.countersMatch_iff hg ha hs hc).mpr hn⟩
  rw [hiff, Claimable]
  cases hd : a.direction with
  | unspecified => exact absurd hd hdir
  | incoming =>
    rw [hi.payClaim_incoming hg ha hs hd]
    constructor
    · rintro ⟨⟨sup, hsup, hpay⟩, hn⟩
      refine ⟨coin, rest, sup, ha, hsup, hn, fun _ => hpay, ?_⟩
      intro e
      cases e
    · rintro ⟨c, r, sup, ha', hsup, hn, hpay, _⟩
      rw [ha] at ha'
      cases ha'
      exact ⟨⟨sup, hsup, hpay rfl⟩, hn⟩
  | outgoing =>
    rw [← initGenesis_bank h] at hheld
    rw [hi.payClaim_outgoing hg ha hs hd hheld]
    constructor
    · rintro ⟨⟨sup, hsup, hcur⟩, hn⟩
      refine ⟨coin, rest, sup, ha, hsup, hn, ?_, fun _ => hcur⟩
      intro e
      cases e
    · rintro ⟨c, r, sup, ha', hsup, hn, _, hcur⟩
      rw [ha] at ha'
      cases ha'
      exact ⟨⟨sup, hsup, hcur rfl⟩, hn⟩

def twoCoinSwap : AtomicSwap :=
  newSwap (sampleCtx 100)
    { sampleArgs 1 deputyAddr userAddr 100 with amount := [⟨"bnb", 100⟩, ⟨"btcb", 50⟩] } .incoming

def twoCoinGenesis : GenesisState where
  params := ⟨[bnbAsset, { bnbAsset with denom := "btcb", coinID := 0 }]⟩
  atomicSwaps := [twoCoinSwap]
  supplies := [{ zeroSupply "bnb" 0 with incomingSupply := ⟨"bnb", 100⟩ },
    { zeroSupply "btcb" 0 with incomingSupply := ⟨"btcb", 50⟩ }]
  previousBlockTime := 1699999990000000000

/-- An outgoing swap of 60, although nothing is in circulation. -/
def uncoveredSwap : AtomicSwap :=
  newSwap (sampleCtx 100) (sampleArgs 2 userAddr deputyAddr 60) .outgoing

def uncoveredGenesis : GenesisState where
  params := ⟨[bnbAsset]⟩
  atomicSwaps := [uncoveredSwap]
  supplies := [{ zeroSupply "bnb" 0 with outgoingSupply := ⟨"bnb", 60⟩ }]
  previousBlockTime := 1699999990000000000

def uncoveredBank : Bank chainAddrs :=
  Bank.empty.credit (chainAddrs.addr .bep3) ⟨"bnb", 60⟩ (by decide)

def twoCoinState : State chainAddrs :=
  orElseKeep sampleState (initGenesis sampleEnv Bank.empty twoCoinGenesis)

def uncoveredState : State chainAddrs :=
  orElseKeep sampleState (initGenesis sampleEnv uncoveredBank uncoveredGenesis)

theorem pending_one {id : Bytes} {a : AtomicSwap} (h : s.swaps.entries = [(id, a)])
    (dir : SwapDirection) (d : Denom) :
    pending dir s d = pendingAmount dir d a := by
  simp [pending, KVStore.sumOn, h]

theorem genesis_claims_unsound :
    (initGenesis sampleEnv Bank.empty twoCoinGenesis = .ok twoCoinState ∧
      (∀ d, pending .outgoing twoCoinState d ≤ (Bank.empty : Bank chainAddrs).balances
        (chainAddrs.addr .bep3) d) ∧
      twoCoinState.swaps.get (sampleID 1 deputyAddr) = some twoCoinSwap ∧
      twoCoinSwap.status = .open ∧
      calculateRandomHash sampleEnv (sampleNumber 1) twoCoinSwap.timestamp =
        twoCoinSwap.randomNumberHash ∧
      ∃ s', claimAtomicSwap sampleEnv (sampleCtx 101) twoCoinState (sampleID 1 deputyAddr)
        (sampleNumber 1) =
        .ok s' ∧ ¬ CountersMatch s') ∧
    (initGenesis sampleEnv uncoveredBank uncoveredGenesis = .ok uncoveredState ∧
      (∀ d, pending .outgoing uncoveredState d ≤ uncoveredBank.balances (chainAddrs.addr .bep3) d) ∧
      uncoveredState.swaps.get (sampleID 2 userAddr) = some uncoveredSwap ∧
      uncoveredSwap.status = .open ∧
      calculateRandomHash sampleEnv (sampleNumber 2) uncoveredSwap.timestamp =
        uncoveredSwap.randomNumberHash ∧
      ¬ ∃ s', claimAtomicSwap sampleEnv (sampleCtx 101) uncoveredState (sampleID 2 userAddr)
        (sampleNumber 2) =
        .ok s') := by
  have h₁ : initGenesis sampleEnv Bank.empty twoCoinGenesis = .ok twoCoinState :=
    eq_ok_orElseKeep (by decide +kernel) sampleState
  have h₂ : initGenesis sampleEnv uncoveredBank uncoveredGenesis = .ok uncoveredState :=
    eq_ok_orElseKeep (by decide +kernel) sampleState
  have e₁ : twoCoinState.swaps.entries = [(sampleID 1 deputyAddr, twoCoinSwap)] := by decide +kernel
  have e₂ : uncoveredState.swaps.entries = [(sampleID 2 userAddr, uncoveredSwap)] := by
    decide +kernel
  refine ⟨⟨h₁, fun d => ?_, by decide +kernel, rfl, by decide +kernel, ?_⟩, h₂,
    fun d => ?_, by decide +kernel, rfl,
    by decide +kernel, by decide +kernel⟩
  · rw [pending_one e₁]
    exact le_refl 0
  · refine ⟨_, eq_ok_orElseKeep (by decide +kernel) sampleState, fun hm => ?_⟩
    have hb := (hm "btcb" { zeroSupply "btcb" 0 with incomingSupply := ⟨"btcb", 50⟩ }
      (by decide +kernel)).1
    exact absurd hb (by decide +kernel)
  · rw [pending_one e₂]
    by_cases hd : "bnb" = d
    · subst hd
      decide +kernel
    · have hz : pendingAmount .outgoing d uncoveredSwap = 0 := by
        simp [pendingAmount, uncoveredSwap, newSwap, sampleArgs, hd]
      rw [hz]
      exact uncoveredBank.balances_nonneg _ d

theorem claim_after_genesis_sample :
    ∃ s s' : State chainAddrs, initGenesis sampleEnv Bank.empty sampleGenesis = .ok s ∧
      claimAtomicSwap sampleEnv (sampleCtx 101) s (sampleID 1 deputyAddr)
        (sampleNumber 1) = .ok s' ∧
      CountersMatch s' := by
  have h := eq_ok_orElseKeep
    (x := initGenesis sampleEnv (Bank.empty : Bank chainAddrs) sampleGenesis) (by decide +kernel)
    sampleState
  have e : (orElseKeep sampleState (initGenesis sampleEnv Bank.empty sampleGenesis)).swaps.entries =
      [(sampleID 1 deputyAddr,
        newSwap (sampleCtx 100) (sampleArgs 1 deputyAddr userAddr 100) .incoming)] := by
    decide +kernel
  have hclaim := (claim_after_genesis_iff sampleEnv Bank.empty sampleGenesis _ h
    (fun d => by rw [pending_one e]; exact le_refl 0) (sampleCtx 101) (sampleID 1 deputyAddr) _
    ((KVStore.get_eq_some_iff _ _ _).mpr (by rw [e]; exact List.mem_singleton.mpr rfl)) rfl
      (sampleNumber 1) (by decide +kernel)).mpr
    ⟨⟨"bnb", 100⟩, [], { zeroSupply "bnb" 0 with incomingSupply := ⟨"bnb", 100⟩ },
      rfl, by decide +kernel,
      fun _ hc => (by cases hc), fun _ => ⟨by decide, fun asset ha _ => ?_⟩,
        fun hd => (by cases hd)⟩
  · obtain ⟨s', hs', hm⟩ := hclaim
    exact ⟨_, s', h, hs', hm⟩
  · have hasset : getAsset (orElseKeep sampleState (initGenesis sampleEnv Bank.empty sampleGenesis))
        "bnb" = .ok bnbAsset := by
      decide +kernel
    rw [show (⟨"bnb", 100⟩ : Coin).denom = "bnb" from rfl, hasset] at ha
    cases ha
    decide

end ZgChain.Bep3
