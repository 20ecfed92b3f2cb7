import ZgChain.Bep3.SupplySound

/-!
# Claims and refunds are not blocked by the accounting

A creation checks its limits with everything that is still incoming counted in, so
the current and the incoming supply together stay within the limits, and the
outgoing supply within the current one, through every later operation. The checks
made again by a claim or a refund then cannot fail, and the module account holds
the coins to burn or to return.
-/

namespace ZgChain.Bep3

variable {A : ModuleAddrs} {env : Env} {s s' : State A} {coin : Coin}

/-! ## Supplies within their limits -/

structure SupplyOk (s : State A) (d : Denom) (sup : AssetSupply) : Prop where
  available : sup.outgoingSupply.amount ≤ sup.currentSupply.amount
  window : 0 ≤ sup.timeLimitedCurrentSupply.amount
  limits : ∀ asset, getAsset s d = .ok asset →
    sup.currentSupply.amount + sup.incomingSupply.amount ≤ asset.supplyLimit.limit ∧
    (asset.supplyLimit.timeLimited = true →
      sup.timeLimitedCurrentSupply.amount + sup.incomingSupply.amount ≤
        asset.supplyLimit.timeBasedLimit)

def SuppliesOk (s : State A) : Prop := ∀ d sup, s.supplies.get d = some sup → SupplyOk s d sup

theorem SupplyOk.zero (s : State A) (d : Denom) (t : Duration) : SupplyOk s d (zeroSupply d t) := by
  refine ⟨le_refl 0, le_refl 0, fun asset ha => ?_⟩
  obtain ⟨_, _, hv⟩ := getAsset_ok ha
  obtain ⟨_, hl, ht, _⟩ := AssetParam.validate_ok hv
  exact ⟨hl, fun _ => ht⟩

theorem getAsset_params (hp : s'.params = s.params) (d : Denom) : getAsset s' d = getAsset s d := by
  simp only [getAsset, getAssets, hp]

theorem SupplyOk.params {d : Denom} {sup : AssetSupply} (h : SupplyOk s d sup)
    (hp : s'.params = s.params) :
    SupplyOk s' d sup :=
  ⟨h.available, h.window, fun asset ha => h.limits asset (getAsset_params hp d ▸ ha)⟩

theorem SuppliesOk.set (h : SuppliesOk s) {sup : AssetSupply} {d : Denom} (hs : SupplyOk s d sup) :
    SuppliesOk (setAssetSupply s sup d) := by
  intro d' sup' h'
  rw [setAssetSupply, KVStore.get_set] at h'
  split at h'
  · rename_i e
    subst e
    cases h'
    exact hs.params rfl
  · exact (h d' sup' h').params rfl

section
variable (hw : SupplyDenoms s) (h : SuppliesOk s) (hpos : 0 < coin.amount)
include hw h

theorem SuppliesOk.incrementIncoming (hm : incrementIncomingAssetSupply s coin = .ok s') :
    SuppliesOk s' := by
  obtain ⟨sup, asset, hs, ha, hl, ht, rfl⟩ := (incrementIncomingAssetSupply_iff hw).mp hm
  have ho := h _ _ hs
  refine h.set ⟨ho.available, ho.window, fun asset' ha' => ?_⟩
  rw [ha] at ha'
  cases ha'
  refine ⟨?_, fun htl => ?_⟩
  · change sup.currentSupply.amount + (sup.incomingSupply.amount + coin.amount) ≤ _
    omega
  · have := ht htl
    change sup.timeLimitedCurrentSupply.amount + (sup.incomingSupply.amount + coin.amount) ≤ _
    omega

theorem SuppliesOk.incrementOutgoing (hm : incrementOutgoingAssetSupply s coin = .ok s') :
    SuppliesOk s' := by
  obtain ⟨sup, hs, hle, rfl⟩ := (incrementOutgoingAssetSupply_iff hw).mp hm
  have ho := h _ _ hs
  exact h.set ⟨hle, ho.window, ho.limits⟩

include hpos

theorem SuppliesOk.decrementIncoming (hm : decrementIncomingAssetSupply s coin = .ok s') :
    SuppliesOk s' := by
  obtain ⟨sup, hs, _, rfl⟩ := (decrementIncomingAssetSupply_iff hw).mp hm
  have ho := h _ _ hs
  refine h.set ⟨ho.available, ho.window, fun asset ha => ?_⟩
  obtain ⟨hl, ht⟩ := ho.limits asset ha
  refine ⟨?_, fun htl => ?_⟩
  · change sup.currentSupply.amount + (sup.incomingSupply.amount - coin.amount) ≤ _
    omega
  · have := ht htl
    change sup.timeLimitedCurrentSupply.amount + (sup.incomingSupply.amount - coin.amount) ≤ _
    omega

theorem SuppliesOk.decrementOutgoing (hm : decrementOutgoingAssetSupply s coin = .ok s') :
    SuppliesOk s' := by
  obtain ⟨sup, hs, _, rfl⟩ := (decrementOutgoingAssetSupply_iff hw).mp hm
  have ho := h _ _ hs
  refine h.set ⟨?_, ho.window, ho.limits⟩
  have := ho.available
  change sup.outgoingSupply.amount - coin.amount ≤ sup.currentSupply.amount
  omega

/-- An incoming amount that becomes current leaves the sums as they were. -/
theorem SuppliesOk.incomingToCurrent {s₁ : State A}
    (h₁ : decrementIncomingAssetSupply s coin = .ok s₁)
    (h₂ : incrementCurrentAssetSupply s₁ coin = .ok s') : SuppliesOk s' := by
  have hw₁ := (decrementIncomingAssetSupply_moves hw h₁).denoms
  have ho₁ := h.decrementIncoming hw hpos h₁
  obtain ⟨sup, hs, _, rfl⟩ := (decrementIncomingAssetSupply_iff hw).mp h₁
  obtain ⟨sup', asset, hs', ha, _, _, rfl⟩ := (incrementCurrentAssetSupply_iff hw₁).mp h₂
  rw [setAssetSupply, KVStore.get_set_self, Option.some.injEq] at hs'
  subst hs'
  have ho := h _ _ hs
  have hav := ho.available
  have hwin := ho.window
  obtain ⟨hl, ht⟩ := ho.limits asset ha
  refine ho₁.set ⟨?_, ?_, fun asset' ha' => ?_⟩
  · change sup.outgoingSupply.amount ≤ sup.currentSupply.amount + coin.amount
    omega
  · change 0 ≤ sup.timeLimitedCurrentSupply.amount + _
    split <;> omega
  · rw [ha] at ha'
    cases ha'
    refine ⟨?_, fun htl => ?_⟩
    · change sup.currentSupply.amount + coin.amount + (sup.incomingSupply.amount - coin.amount) ≤ _
      omega
    · have := ht htl
      change sup.timeLimitedCurrentSupply.amount + (if _ then _ else _) +
        (sup.incomingSupply.amount - coin.amount) ≤ _
      rw [if_pos htl]
      omega

theorem SuppliesOk.outgoingFromCurrent {s₁ : State A}
    (h₁ : decrementOutgoingAssetSupply s coin = .ok s₁)
    (h₂ : decrementCurrentAssetSupply s₁ coin = .ok s') : SuppliesOk s' := by
  have hw₁ := (decrementOutgoingAssetSupply_moves hw h₁).denoms
  have ho₁ := h.decrementOutgoing hw hpos h₁
  obtain ⟨sup, hs, _, rfl⟩ := (decrementOutgoingAssetSupply_iff hw).mp h₁
  obtain ⟨sup', hs', _, rfl⟩ := (decrementCurrentAssetSupply_iff hw₁).mp h₂
  rw [setAssetSupply, KVStore.get_set_self, Option.some.injEq] at hs'
  subst hs'
  have ho := h _ _ hs
  have hav := ho.available
  refine ho₁.set ⟨?_, ho.window, fun asset ha => ?_⟩
  · change sup.outgoingSupply.amount - coin.amount ≤ sup.currentSupply.amount - coin.amount
    omega
  · obtain ⟨hl, ht⟩ := ho.limits asset ha
    refine ⟨?_, ht⟩
    change sup.currentSupply.amount - coin.amount + sup.incomingSupply.amount ≤ _
    omega

end

theorem SuppliesOk.withBank {x : Except BankError (Bank A)} (h : SuppliesOk s)
    (hm : withBank s x = .ok s') :
    SuppliesOk s' := by
  obtain ⟨b, _, rfl⟩ := (withBank_eq_ok s s' x).mp hm
  exact fun d sup hs => (h d sup hs).params rfl

theorem SuppliesOk.escrow (hw : SupplyDenoms s) (h : SuppliesOk s) {asset : AssetParam}
    {args : CreateArgs}
    {direction : SwapDirection} (hm : escrow s asset args coin direction = .ok s') :
    SuppliesOk s' := by
  cases direction with
  | unspecified => cases hm
  | incoming =>
    have h₀ : SuppliesOk { s with bank := s.bank.setAccount args.recipient } :=
      fun d sup hs => (h d sup hs).params rfl
    have hw₀ : SupplyDenoms { s with bank := s.bank.setAccount args.recipient } := hw
    exact h₀.incrementIncoming hw₀ hm
  | outgoing =>
    simp only [Bep3.escrow, bind_eq_ok] at hm
    obtain ⟨_, _, _, _, s₁, h₁, h₂⟩ := hm
    exact (h.incrementOutgoing hw h₁).withBank h₂

section
variable (hw : SupplyDenoms s) (h : SuppliesOk s) {a : AtomicSwap} (ha : a.amount = [coin])
  (hpos : 0 < coin.amount)
include hw h ha hpos

theorem SuppliesOk.payClaim (hm : payClaim s a = .ok s') : SuppliesOk s' := by
  cases payClaim_ok hm with
  | incoming _ hc h₁ h₂ h₃ h₄ =>
    cases firstCoin_eq ha hc
    exact ((h.incomingToCurrent hw hpos h₁ h₂).withBank h₃).withBank h₄
  | outgoing _ hc h₁ h₂ h₃ =>
    cases firstCoin_eq ha hc
    exact (h.outgoingFromCurrent hw hpos h₁ h₂).withBank h₃

theorem SuppliesOk.payRefund (hm : payRefund s a = .ok s') : SuppliesOk s' := by
  cases payRefund_ok hm with
  | incoming _ hc h₁ =>
    cases firstCoin_eq ha hc
    exact h.decrementIncoming hw hpos h₁
  | outgoing _ hc h₁ h₂ =>
    cases firstCoin_eq ha hc
    exact (h.decrementOutgoing hw hpos h₁).withBank h₂

end

theorem SuppliesOk.updateTimeBasedSupplyLimit (h : SuppliesOk s) (t : Duration)
    (asset : AssetParam) :
    SuppliesOk (updateTimeBasedSupplyLimit t s asset) := by
  have ho : SupplyOk s asset.denom
      ((s.supplies.get asset.denom).getD (zeroSupply asset.denom 0)) := by
    cases hs : s.supplies.get asset.denom with
    | none => exact SupplyOk.zero s asset.denom 0
    | some sup => exact h _ _ hs
  apply h.set
  split
  · exact ⟨ho.available, ho.window, ho.limits⟩
  · refine ⟨ho.available, le_refl 0, fun asset' ha => ?_⟩
    obtain ⟨hl, ht⟩ := ho.limits asset' ha
    refine ⟨hl, fun htl => le_trans ?_ (ht htl)⟩
    exact Int.add_le_add_right ho.window _

theorem SuppliesOk.beginBlocker (h : SuppliesOk s) (ctx : Ctx) :
    SuppliesOk (beginBlocker env ctx s) := by
  have h₁ : SuppliesOk (updateTimeBasedSupplyLimits ctx s) := by
    unfold updateTimeBasedSupplyLimits
    split
    · exact h
    · have hf := List.foldlRecOn (getAssets s) _ h fun _ h asset _ =>
        h.updateTimeBasedSupplyLimit
          (Time.sub ctx.blockTime (s.previousBlockTime.getD ctx.blockTime)) asset
      exact fun d sup hs => (hf d sup hs).params rfl
  obtain ⟨_, _, _, hb⟩ := beginBlocker_scans env ctx s
  rw [hb]
  exact fun d sup hs => (h₁ d sup hs).params rfl

theorem SuppliesOk.step (h : SuppliesOk s) (hw : SupplyDenoms s) (hc : SwapCoins s) (op : Op) :
    SuppliesOk (step env s op) := by
  cases op with
  | create ctx args =>
    refine orElseKeep_rule h fun s' hok => ?_
    obtain ⟨_, _, _, _, hc⟩ := createAtomicSwap_ok hok
    have h₁ := h.escrow hw hc.escrowed
    rw [hc.state]
    exact fun d sup hs => (h₁ d sup hs).params rfl
  | claim ctx id number =>
    refine orElseKeep_rule h fun s' hok => ?_
    obtain ⟨a, s₁, ha, _, _, hpay, rfl⟩ := claimAtomicSwap_ok hok
    obtain ⟨coin, hcoin, hpos⟩ := hc id a ha
    have h₁ := h.payClaim hw hcoin hpos hpay
    exact fun d sup hs => (h₁ d sup hs).params rfl
  | refund ctx id =>
    refine orElseKeep_rule h fun s' hok => ?_
    obtain ⟨a, s₁, ha, _, hpay, rfl⟩ := refundAtomicSwap_ok hok
    obtain ⟨coin, hcoin, hpos⟩ := hc id a ha
    have h₁ := h.payRefund hw hcoin hpos hpay
    exact fun d sup hs => (h₁ d sup hs).params rfl
  | beginBlock ctx => exact h.beginBlocker ctx

/-! ## Swaps of supported assets -/

structure SwapLive (s : State A) (a : AtomicSwap) : Prop where
  direction : a.direction = .incoming ∨ a.direction = .outgoing
  asset : ∀ c ∈ a.amount, ∃ asset, getAsset s c.denom = .ok asset
  supply : ∀ c ∈ a.amount, (s.supplies.get c.denom).isSome = true

def SwapsLive (s : State A) : Prop := ∀ id a, s.swaps.get id = some a → SwapLive s a

structure Keeps (s s' : State A) : Prop where
  params : s'.params = s.params
  supplies : ∀ d, (s.supplies.get d).isSome = true → (s'.supplies.get d).isSome = true

theorem Keeps.pays (h : PaysOnly s s') : Keeps s s' := by
  obtain ⟨_, _, hσ, rfl⟩ := h
  exact ⟨rfl, hσ⟩

theorem updateTimeBasedSupplyLimits_keeps (ctx : Ctx) (s : State A) :
    Keeps s (updateTimeBasedSupplyLimits ctx s) := by
  unfold updateTimeBasedSupplyLimits
  split
  · exact ⟨rfl, fun _ h => h⟩
  · have hf : Keeps s ((getAssets s).foldl
        (updateTimeBasedSupplyLimit
          (Time.sub ctx.blockTime (s.previousBlockTime.getD ctx.blockTime))) s) := by
      refine List.foldlRecOn (motive := Keeps s) (getAssets s) _ ⟨rfl, fun _ h => h⟩
        fun s₁ h₁ asset _ => ?_
      exact ⟨h₁.params, fun d hd => isSome_setAssetSupply s₁ _ _ d (h₁.supplies d hd)⟩
    exact ⟨hf.params, hf.supplies⟩

theorem step_keeps (env : Env) (s : State A) (op : Op) : Keeps s (step env s op) := by
  have hr : Keeps s s := ⟨rfl, fun _ h => h⟩
  cases op with
  | create ctx args =>
    refine orElseKeep_rule hr fun s' hok => ?_
    obtain ⟨_, _, _, s₁, hc⟩ := createAtomicSwap_ok hok
    have hp := Keeps.pays (escrow_pays hc.escrowed)
    rw [hc.state]
    exact ⟨hp.params, hp.supplies⟩
  | claim ctx id number =>
    refine orElseKeep_rule hr fun s' hok => ?_
    obtain ⟨_, s₁, _, _, _, hpay, rfl⟩ := claimAtomicSwap_ok hok
    have hp := Keeps.pays (payClaim_pays hpay)
    exact ⟨hp.params, hp.supplies⟩
  | refund ctx id =>
    refine orElseKeep_rule hr fun s' hok => ?_
    obtain ⟨_, s₁, _, _, hpay, rfl⟩ := refundAtomicSwap_ok hok
    have hp := Keeps.pays (payRefund_pays hpay)
    exact ⟨hp.params, hp.supplies⟩
  | beginBlock ctx =>
    have hk := updateTimeBasedSupplyLimits_keeps ctx s
    obtain ⟨_, _, _, hb⟩ := beginBlocker_scans env ctx s
    rw [step, hb]
    exact ⟨hk.params, hk.supplies⟩

theorem SwapLive.keeps {a : AtomicSwap} (h : SwapLive s a) (hk : Keeps s s') : SwapLive s' a := by
  refine ⟨h.direction, fun c hc => ?_, fun c hc => hk.supplies _ (h.supply c hc)⟩
  rw [getAsset_params hk.params]
  exact h.asset c hc

theorem swapDirection_ok {asset : AssetParam} {sender recipient : Addr} {direction : SwapDirection}
    (h : swapDirection asset sender recipient = .ok direction) :
    direction = .incoming ∨ direction = .outgoing := by
  unfold swapDirection at h
  split at h
  · split at h
    · cases h
    · cases h
      exact Or.inl rfl
  · split at h
    · cases h
    · cases h
      exact Or.inr rfl

theorem escrow_supply (hw : SupplyDenoms s) {asset : AssetParam} {args : CreateArgs}
    {direction : SwapDirection} (h : escrow s asset args coin direction = .ok s') :
    (s.supplies.get coin.denom).isSome = true := by
  cases direction with
  | unspecified => cases h
  | incoming =>
    have hw₀ : SupplyDenoms { s with bank := s.bank.setAccount args.recipient } := hw
    obtain ⟨sup, _, hs, _⟩ := (incrementIncomingAssetSupply_iff hw₀).mp h
    exact Option.isSome_iff_exists.mpr ⟨sup, hs⟩
  | outgoing =>
    simp only [escrow, bind_eq_ok] at h
    obtain ⟨_, _, _, _, s₁, h₁, _⟩ := h
    obtain ⟨sup, hs, _⟩ := (incrementOutgoingAssetSupply_iff hw).mp h₁
    exact Option.isSome_iff_exists.mpr ⟨sup, hs⟩

theorem Created.swapLive (hw : SupplyDenoms s) {ctx : Ctx} {args : CreateArgs} {asset : AssetParam}
    {direction : SwapDirection} {s₁ : State A}
    (h : Created env ctx s args coin asset direction s₁ s') :
    SwapLive s (newSwap ctx args direction) := by
  have hmem (c : Coin) (hc : c ∈ args.amount) : c = coin := by
    rw [h.amount] at hc
    exact List.mem_singleton.mp hc
  refine ⟨swapDirection_ok h.directed, fun c hc => ?_, fun c hc => ?_⟩
  · rw [hmem c hc]
    exact ⟨asset, h.supported⟩
  · rw [hmem c hc]
    exact escrow_supply hw h.escrowed

theorem SwapsLive.step (h : SwapsLive s) (hi : IndexInv env s) (hw : SupplyDenoms s) (op : Op) :
    SwapsLive (step env s op) := by
  intro id a' ha'
  have he := hi.evolves op id
  have hk := step_keeps env s op
  rw [ha'] at he
  generalize hx : s.swaps.get id = x at he
  cases he with
  | keep => exact (h id a' hx).keeps hk
  | create hc => exact (hc.swapLive hw).keeps hk
  | claim _ | refund _ | expire _ _ =>
    have ha := (h id _ hx).keeps hk
    exact ⟨ha.direction, ha.asset, ha.supply⟩

/-! ## Payments that succeed -/

/-- The books of a run, with the limits kept and every stored swap of a supported asset. -/
structure ClaimInv (env : Env) (t : Ledger Denom) (s : State A) :
    Prop extends SupplyInv env t s where
  limits : SuppliesOk s
  live : SwapsLive s

theorem counterOf_some (counter : AssetSupply → Coin) {d : Denom} {sup : AssetSupply}
    (h : s.supplies.get d = some sup) :
    counterOf counter s d = (counter sup).amount := by
  simp [counterOf, h]

theorem le_pending (h : SwapCoins s) {id : Bytes} {a : AtomicSwap} (hg : s.swaps.get id = some a)
    (hs : a.status = .open ∨ a.status = .expired) (ha : a.amount = [coin]) :
    coin.amount ≤ pending a.direction s coin.denom := by
  have hnn : ∀ id b, s.swaps.get id = some b → 0 ≤ pendingAmount a.direction coin.denom b := by
    intro id b hb
    obtain ⟨c, hc, hpos⟩ := h id b hb
    unfold pendingAmount
    split
    · rw [hc]
      exact amountOf_nonneg (by simpa using hpos.le) _
    · exact le_refl 0
  have hle := KVStore.le_sumOn hnn hg
  rwa [pendingAmount_eq ha hs, if_pos ⟨rfl, rfl⟩] at hle

section
variable {t : Ledger Denom} (h : ClaimInv env t s) {id : Bytes} {a : AtomicSwap}
  (hg : s.swaps.get id = some a)
  (hs : a.status = .open ∨ a.status = .expired) (ha : a.amount = [coin])
include h hg ha

theorem ClaimInv.coin_valid : Coins.isValid [coin] = true := by
  obtain ⟨c, hc, hpos⟩ := (h.swaps id a hg).amount
  rw [ha] at hc
  cases hc
  obtain ⟨asset, hasset⟩ := (h.live id a hg).asset coin (by simp [ha])
  obtain ⟨hd, _, hv⟩ := getAsset_ok hasset
  have hdenom := (AssetParam.validate_ok hv).1
  rw [hd] at hdenom
  exact (isValid_singleton coin).mpr ⟨hdenom, hpos⟩

include hs

theorem ClaimInv.le_incoming (hd : a.direction = .incoming) {sup : AssetSupply}
    (hsup : s.supplies.get coin.denom = some sup) : coin.amount ≤ sup.incomingSupply.amount := by
  have hle := le_pending h.swaps.coins hg hs ha
  rw [hd] at hle
  rw [← counterOf_some AssetSupply.incomingSupply hsup]
  exact le_of_le_of_eq hle (congrFun h.incoming coin.denom).symm

theorem ClaimInv.le_outgoing (hd : a.direction = .outgoing) {sup : AssetSupply}
    (hsup : s.supplies.get coin.denom = some sup) :
    coin.amount ≤ sup.outgoingSupply.amount ∧
    coin.amount ≤ s.bank.balances (A.addr .bep3) coin.denom := by
  have hle := le_pending h.swaps.coins hg hs ha
  rw [hd] at hle
  have hc : coin.amount ≤ counterOf AssetSupply.outgoingSupply s coin.denom :=
    le_of_le_of_eq hle (congrFun h.outgoing coin.denom).symm
  refine ⟨?_, le_trans hc (h.held coin.denom)⟩
  rwa [counterOf_some AssetSupply.outgoingSupply hsup] at hc

theorem ClaimInv.payClaim : ∃ s', payClaim s a = .ok s' := by
  have hv := h.coin_valid hg ha
  have hpos := ((isValid_singleton coin).mp hv).2
  have hfirst := firstCoin_cons ha
  obtain ⟨sup, hsup⟩ := Option.isSome_iff_exists.mp ((h.live id a hg).supply coin (by simp [ha]))
  obtain ⟨asset, hasset⟩ := (h.live id a hg).asset coin (by simp [ha])
  have hlim := h.limits _ _ hsup
  obtain ⟨hl, ht⟩ := hlim.limits asset hasset
  unfold Bep3.payClaim
  rcases (h.live id a hg).direction with hd | hd
  · have hle := h.le_incoming hg hs ha hd hsup
    have h₁ := (decrementIncomingAssetSupply_iff h.denoms).mpr ⟨sup, hsup, hle, rfl⟩
    have hw₁ := (decrementIncomingAssetSupply_moves h.denoms h₁).denoms
    -- current and incoming together are within the limits, so the incoming part may become current
    have h₂ := (incrementCurrentAssetSupply_iff hw₁).mpr
      ⟨_, asset, KVStore.get_set_self _ _ _, hasset,
      by change sup.currentSupply.amount + _ ≤ _; omega,
      fun htl => by have := ht htl; change sup.timeLimitedCurrentSupply.amount + _ ≤ _; omega, rfl⟩
    obtain ⟨b₁, h₃⟩ := (Bank.mintCoins_singleton s.bank .bep3 coin).mpr ⟨by decide, hv⟩
    have hheld : coin.amount ≤
        b₁.balances (A.addr .bep3) coin.denom - b₁.locked (A.addr .bep3) coin.denom := by
      have := s.bank.balances_nonneg (A.addr .bep3) coin.denom
      rw [b₁.locked_module, (Bank.mintCoins_ok h₃).2.1]
      simp [this]
    obtain ⟨b₂, h₄⟩ := (Bank.sendCoins_singleton b₁ (A.addr .bep3) a.recipient coin).mpr ⟨hv, hheld⟩
    have h₄ := Bank.sendCoinsFromModuleToAccount_ok.mpr ⟨(h.swaps id a hg).recipient, h₄⟩
    simp only [hd, bind_eq_ok, ha]
    exact ⟨_, coin, hfirst, _, h₁, _, h₂, _, (withBank_eq_ok _ _ _).mpr ⟨b₁, h₃, rfl⟩,
      (withBank_eq_ok _ _ _).mpr ⟨b₂, h₄, rfl⟩⟩
  · obtain ⟨hle, hheld⟩ := h.le_outgoing hg hs ha hd hsup
    have hav := hlim.available
    have h₁ := (decrementOutgoingAssetSupply_iff h.denoms).mpr ⟨sup, hsup, hle, rfl⟩
    have hw₁ := (decrementOutgoingAssetSupply_moves h.denoms h₁).denoms
    have h₂ := (decrementCurrentAssetSupply_iff hw₁).mpr ⟨_, KVStore.get_set_self _ _ _,
      by change _ ≤ sup.currentSupply.amount; omega, rfl⟩
    obtain ⟨b₁, h₃⟩ := (Bank.burnCoins_singleton s.bank .bep3 coin).mpr ⟨by decide, hv, hheld⟩
    simp only [hd, bind_eq_ok, ha]
    exact ⟨_, coin, hfirst, _, h₁, _, h₂, (withBank_eq_ok _ _ _).mpr ⟨b₁, h₃, rfl⟩⟩

/-- A refund of an outgoing swap fails if the bank may not pay its sender, and only then. -/
theorem ClaimInv.payRefund_iff :
    (∃ s', payRefund s a = .ok s') ↔ a.direction = .incoming ∨
    A.moduleAccountAddrs a.sender = false := by
  have hv := h.coin_valid hg ha
  have hfirst := firstCoin_cons ha
  obtain ⟨sup, hsup⟩ := Option.isSome_iff_exists.mp ((h.live id a hg).supply coin (by simp [ha]))
  unfold payRefund
  rcases (h.live id a hg).direction with hd | hd
  · have hle := h.le_incoming hg hs ha hd hsup
    have h₁ := (decrementIncomingAssetSupply_iff h.denoms).mpr ⟨sup, hsup, hle, rfl⟩
    simp only [hd, bind_eq_ok, true_or, iff_true]
    exact ⟨_, coin, hfirst, h₁⟩
  · obtain ⟨hle, hheld⟩ := h.le_outgoing hg hs ha hd hsup
    have h₁ := (decrementOutgoingAssetSupply_iff h.denoms).mpr ⟨sup, hsup, hle, rfl⟩
    simp only [hd, bind_eq_ok, ha, reduceCtorEq, false_or]
    constructor
    · rintro ⟨_, _, _, s₁, _, h₂⟩
      obtain ⟨_, h₂, _⟩ := (withBank_eq_ok _ _ _).mp h₂
      exact (Bank.sendCoinsFromModuleToAccount_ok.mp h₂).1
    · intro hsender
      have hheld : coin.amount ≤ s.bank.balances (A.addr .bep3) coin.denom - s.bank.locked
          (A.addr .bep3) coin.denom := by
        rwa [s.bank.locked_module, sub_zero]
      obtain ⟨b₁, h₂⟩ :=
        (Bank.sendCoins_singleton s.bank (A.addr .bep3) a.sender coin).mpr ⟨hv, hheld⟩
      have h₂ := Bank.sendCoinsFromModuleToAccount_ok.mpr ⟨hsender, h₂⟩
      exact ⟨_, coin, hfirst, _, h₁, (withBank_eq_ok _ _ _).mpr ⟨b₁, h₂, rfl⟩⟩

end

/-! ## Runs -/

theorem ClaimInv.init (hn : NoSwaps s) (hz : ZeroCounters s) : ClaimInv env (book s .total) s := by
  refine ⟨SupplyInv.init hn hz, fun d sup hs => ?_, fun id a ha => ?_⟩
  · obtain ⟨t, rfl⟩ := hz d sup hs
    exact SupplyOk.zero s d t
  · rw [hn.1] at ha
    cases ha

section
variable {t : Ledger Denom} (h : ClaimInv env t s)
include h

theorem ClaimInv.run {ops : List Op} (hop : ∀ op ∈ ops, op.sender ≠ some (A.addr .bep3)) :
    ClaimInv env t (runSteps (step env) s ops) := by
  refine runSteps_inv (P := fun op => op.sender ≠ some (A.addr .bep3)) (step env)
    (fun s op hop h => ?_) h ops hop
  exact ⟨h.toSupplyInv.step hop, h.limits.step h.denoms h.swaps.coins op,
    h.live.step h.index h.denoms op⟩

theorem ClaimInv.claim {id number : Bytes} {a : AtomicSwap} (ctx : Ctx)
    (hg : s.swaps.get id = some a) (hs : a.status = .open)
    (hhash : calculateRandomHash env number a.timestamp = a.randomNumberHash) :
    ∃ s', claimAtomicSwap env ctx s id number = .ok s' := by
  obtain ⟨coin, hcoin, _⟩ := (h.swaps id a hg).amount
  obtain ⟨s₁, hpay⟩ := h.payClaim hg (Or.inl hs) hcoin
  have hid : calculateSwapID env a.randomNumberHash a.sender a.senderOtherChain = a.getSwapID env :=
    rfl
  simp [claimAtomicSwap, getAtomicSwap, hg, hs, hhash, hid, hpay, orReject, rejectIf]

theorem ClaimInv.refund_iff {id : Bytes} {a : AtomicSwap} (ctx : Ctx) (hg : s.swaps.get id = some a)
    (hs : a.status = .expired) :
    (∃ s', refundAtomicSwap env ctx s id = .ok s') ↔
      a.direction = .incoming ∨ A.moduleAccountAddrs a.sender = false := by
  obtain ⟨coin, hcoin, _⟩ := (h.swaps id a hg).amount
  rw [← h.payRefund_iff hg (Or.inr hs) hcoin]
  simp [refundAtomicSwap, getAtomicSwap, hg, hs, -bind_pure_comp]

end

/-- In every run of creations by senders other than the module account, claims,
refunds and begin blockers, an open swap can be claimed with its number, and an
expired swap can be refunded unless its coins would go back to a module account. -/
theorem claims_and_refunds_succeed (env : Env) (s₀ : State A) (hn : NoSwaps s₀)
    (hz : ZeroCounters s₀) (ops : List Op)
    (hop : ∀ op ∈ ops, op.sender ≠ some (A.addr .bep3)) (ctx : Ctx) (id : Bytes) (a : AtomicSwap)
    (hg : (runSteps (step env) s₀ ops).swaps.get id = some a) :
    (a.status = .open → ∀ number, calculateRandomHash env number a.timestamp = a.randomNumberHash →
      ∃ s', claimAtomicSwap env ctx (runSteps (step env) s₀ ops) id number = .ok s') ∧
    (a.status = .expired →
      ((∃ s', refundAtomicSwap env ctx (runSteps (step env) s₀ ops) id = .ok s') ↔
        a.direction = .incoming ∨ A.moduleAccountAddrs a.sender = false)) := by
  have h : ClaimInv env (book s₀ .total) (runSteps (step env) s₀ ops) :=
    (ClaimInv.init hn hz).run hop
  exact ⟨fun hs number hhash => h.claim ctx hg hs hhash, fun hs => h.refund_iff ctx hg hs⟩

def govState : State chainAddrs :=
  { sampleState with bank := Bank.empty.credit (chainAddrs.addr .gov) ⟨"bnb", 40⟩ (by decide) }

/-- The gov module account sends its coins out after a claim, and the swap expires. -/
def govSwap : List Op :=
  [.create (sampleCtx 100) (sampleArgs 1 deputyAddr userAddr 100), sampleClaim,
    .create (sampleCtx 101) (sampleArgs 4 (chainAddrs.addr .gov) deputyAddr 40),
    .beginBlock (sampleCtx 351)]

/-- The number of the module account's own swap is claimed after the user's swap was opened. -/
def moduleClaim : List Op :=
  roundTrip ++ [moduleSwap,
    .claim (sampleCtx 102) (sampleID 3 (chainAddrs.addr .bep3)) (sampleNumber 3)]

theorem module_senders_blocked :
    (NoSwaps govState ∧ ZeroCounters govState ∧
      (runSteps (step sampleEnv) govState govSwap).swaps.get (sampleID 4 (chainAddrs.addr .gov)) =
        some (expiredSwap
          (newSwap (sampleCtx 101) (sampleArgs 4 (chainAddrs.addr .gov) deputyAddr 40) .outgoing)) ∧
      ¬ ∃ s', refundAtomicSwap sampleEnv (sampleCtx 352)
        (runSteps (step sampleEnv) govState govSwap)
        (sampleID 4 (chainAddrs.addr .gov)) = .ok s') ∧
    (NoSwaps sampleState ∧ ZeroCounters sampleState ∧
      (runSteps (step sampleEnv) sampleState moduleClaim).swaps.get (sampleID 2 userAddr) =
        some (newSwap (sampleCtx 101) (sampleArgs 2 userAddr deputyAddr 60) .outgoing) ∧
      calculateRandomHash sampleEnv (sampleNumber 2) 1700000000 = sampleHash 2 ∧
      ¬ ∃ s', claimAtomicSwap sampleEnv (sampleCtx 103)
        (runSteps (step sampleEnv) sampleState moduleClaim)
        (sampleID 2 userAddr) (sampleNumber 2) = .ok s') :=
  ⟨⟨⟨rfl, rfl, rfl⟩, sampleState_zeroCounters, by decide, by decide⟩,
    ⟨⟨rfl, rfl, rfl⟩, sampleState_zeroCounters, by decide, rfl, by decide⟩⟩

def roundTripExpired : List Op := roundTrip ++ [.beginBlock (sampleCtx 351)]

theorem claims_and_refunds_succeed_roundTrip :
    (∃ s', claimAtomicSwap sampleEnv (sampleCtx 102)
      (runSteps (step sampleEnv) sampleState roundTrip)
      (sampleID 2 userAddr) (sampleNumber 2) = .ok s') ∧
    (∃ s', refundAtomicSwap sampleEnv (sampleCtx 352)
      (runSteps (step sampleEnv) sampleState roundTripExpired)
      (sampleID 2 userAddr) = .ok s') := by
  have h₁ := claims_and_refunds_succeed sampleEnv sampleState ⟨rfl, rfl, rfl⟩
    sampleState_zeroCounters roundTrip
    (by decide) (sampleCtx 102) (sampleID 2 userAddr)
    (newSwap (sampleCtx 101) (sampleArgs 2 userAddr deputyAddr 60) .outgoing) (by decide)
  have h₂ := claims_and_refunds_succeed sampleEnv sampleState ⟨rfl, rfl, rfl⟩
    sampleState_zeroCounters roundTripExpired
    (by decide) (sampleCtx 352) (sampleID 2 userAddr)
    (expiredSwap (newSwap (sampleCtx 101) (sampleArgs 2 userAddr deputyAddr 60) .outgoing))
      (by decide)
  exact ⟨h₁.1 rfl (sampleNumber 2) (by decide), (h₂.2 rfl).mpr (Or.inr (by decide))⟩

end ZgChain.Bep3
