import ZgChain.Bep3.GenesisSound
import ZgChain.Lib.FixedWindow

/-!
# The mint rate limit

The begin blocker adds up the time between blocks and begins a new window when the
sum reaches the period; claims of incoming swaps count against the window. The
ticks of a run, as the supply of one asset sees them, are those of a fixed window
limiter.
-/

namespace ZgChain.Bep3

open FixedWindow

variable {A : ModuleAddrs} {env : Env} {s s' : State A} {coin : Coin} {d : Denom}
  {asset : AssetParam}

def Op.time : Op → Int
  | .create ctx _ | .claim ctx _ _ | .refund ctx _ | .beginBlock ctx => ctx.blockTime

/-! ## The window of an asset -/

def window (s : State A) (d : Denom) : Int := counterOf AssetSupply.timeLimitedCurrentSupply s d

def elapsedOf (s : State A) (d : Denom) : Duration :=
  ((s.supplies.get d).getD (zeroSupply d 0)).timeElapsed

def Resets (asset : AssetParam) (s : State A) : Op → Prop
  | .beginBlock ctx => ¬ elapsedOf s asset.denom +
      Time.sub ctx.blockTime (s.previousBlockTime.getD ctx.blockTime) < asset.supplyLimit.timePeriod
  | _ => False

instance (asset : AssetParam) (s : State A) (op : Op) : Decidable (Resets asset s op) := by
  cases op <;> unfold Resets <;> infer_instance

/-- What an operation is to the window of an asset: a new window, or the amount a claim mints. -/
def tick (env : Env) (asset : AssetParam) (s : State A) (op : Op) : Tick :=
  if Resets asset s op then .reset op.time
  else .spend op.time (claimed env .incoming s op asset.denom)

def ticks (env : Env) (asset : AssetParam) (s : State A) : List Op → List Tick
  | [] => []
  | op :: ops => tick env asset s op :: ticks env asset (step env s op) ops

/-- A claim that succeeds counts all the coins of the denom that it mints: only the first coin is
of that denom. -/
def Counts (env : Env) (d : Denom) (s : State A) : Op → Prop
  | .claim ctx id number =>
    ∀ a s', s.swaps.get id = some a → claimAtomicSwap env ctx s id number = .ok s' →
    a.direction = .incoming → ∀ c ∈ a.amount.tail, c.denom ≠ d
  | _ => True

def CountsAll (env : Env) (d : Denom) (s : State A) : List Op → Prop
  | [] => True
  | op :: ops => Counts env d s op ∧ CountsAll env d (step env s op) ops

/-! ## Payments outside the window -/

structure Untimed (s s' : State A) : Prop where
  denoms : SupplyDenoms s'
  window : ∀ d, window s' d = window s d
  elapsed : ∀ d, elapsedOf s' d = elapsedOf s d

theorem Untimed.refl (hw : SupplyDenoms s) : Untimed s s := ⟨hw, fun _ => rfl, fun _ => rfl⟩

theorem Untimed.trans {s₁ : State A} (h : Untimed s s₁) (h' : Untimed s₁ s') : Untimed s s' :=
  ⟨h'.denoms, fun d => (h'.window d).trans (h.window d),
    fun d => (h'.elapsed d).trans (h.elapsed d)⟩

theorem Untimed.withBank (hw : SupplyDenoms s) {x : Except BankError (Bank A)}
    (h : withBank s x = .ok s') : Untimed s s' := by
  obtain ⟨b, _, rfl⟩ := (withBank_eq_ok _ _ _).mp h
  exact ⟨hw, fun _ => rfl, fun _ => rfl⟩

theorem Untimed.set (hw : SupplyDenoms s) {sup sup' : AssetSupply}
    (hs : s.supplies.get d = some sup) (hd : sup'.OfDenom d)
    (ht : sup'.timeLimitedCurrentSupply.amount = sup.timeLimitedCurrentSupply.amount)
    (he : sup'.timeElapsed = sup.timeElapsed) : Untimed s (setAssetSupply s sup' d) := by
  refine ⟨hw.set hd, fun x => ?_, fun x => ?_⟩
  · by_cases hx : x = d
    · simp [Bep3.window, counterOf, setAssetSupply, hx, hs, ht]
    · simp [Bep3.window, counterOf, setAssetSupply, hx]
  · by_cases hx : x = d
    · simp [elapsedOf, setAssetSupply, hx, hs, he]
    · simp [elapsedOf, setAssetSupply, hx]

section
variable (hw : SupplyDenoms s)
include hw

theorem incrementIncoming_untimed (h : incrementIncomingAssetSupply s coin = .ok s') :
    Untimed s s' := by
  obtain ⟨sup, _, hs, _, _, _, rfl⟩ := (incrementIncomingAssetSupply_iff hw).mp h
  have hd := hw _ _ hs
  exact Untimed.set hw hs ⟨rfl, hd.outgoing, hd.current, hd.timeLimited⟩ rfl rfl

theorem incrementOutgoing_untimed (h : incrementOutgoingAssetSupply s coin = .ok s') :
    Untimed s s' := by
  obtain ⟨sup, hs, _, rfl⟩ := (incrementOutgoingAssetSupply_iff hw).mp h
  have hd := hw _ _ hs
  exact Untimed.set hw hs ⟨hd.incoming, rfl, hd.current, hd.timeLimited⟩ rfl rfl

theorem decrementIncoming_untimed (h : decrementIncomingAssetSupply s coin = .ok s') :
    Untimed s s' := by
  obtain ⟨sup, hs, _, rfl⟩ := (decrementIncomingAssetSupply_iff hw).mp h
  have hd := hw _ _ hs
  exact Untimed.set hw hs ⟨rfl, hd.outgoing, hd.current, hd.timeLimited⟩ rfl rfl

theorem decrementOutgoing_untimed (h : decrementOutgoingAssetSupply s coin = .ok s') :
    Untimed s s' := by
  obtain ⟨sup, hs, _, rfl⟩ := (decrementOutgoingAssetSupply_iff hw).mp h
  have hd := hw _ _ hs
  exact Untimed.set hw hs ⟨hd.incoming, rfl, hd.current, hd.timeLimited⟩ rfl rfl

theorem decrementCurrent_untimed (h : decrementCurrentAssetSupply s coin = .ok s') :
    Untimed s s' := by
  obtain ⟨sup, hs, _, rfl⟩ := (decrementCurrentAssetSupply_iff hw).mp h
  have hd := hw _ _ hs
  exact Untimed.set hw hs ⟨hd.incoming, hd.outgoing, rfl, hd.timeLimited⟩ rfl rfl

theorem escrow_untimed {asset : AssetParam} {args : CreateArgs} {dir : SwapDirection}
    (h : escrow s asset args coin dir = .ok s') : Untimed s s' := by
  cases dir with
  | unspecified => cases h
  | incoming =>
    have h₁ := incrementIncoming_untimed
      (s := { s with bank := s.bank.setAccount args.recipient }) hw h
    exact ⟨h₁.denoms, h₁.window, h₁.elapsed⟩
  | outgoing =>
    simp only [escrow, bind_eq_ok] at h
    obtain ⟨_, _, _, _, s₁, h₁, h₂⟩ := h
    have hu := incrementOutgoing_untimed hw h₁
    exact hu.trans (Untimed.withBank hu.denoms h₂)

theorem payRefund_untimed {a : AtomicSwap} (h : payRefund s a = .ok s') : Untimed s s' := by
  cases payRefund_ok h with
  | incoming _ _ h₁ => exact decrementIncoming_untimed hw h₁
  | outgoing _ _ h₁ h₂ =>
    have hu := decrementOutgoing_untimed hw h₁
    exact hu.trans (Untimed.withBank hu.denoms h₂)

/-! ## Claims -/

structure Spends (s s' : State A) (asset : AssetParam) (n : Int) : Prop where
  denoms : SupplyDenoms s'
  window : window s' asset.denom = window s asset.denom + n
  elapsed : elapsedOf s' asset.denom = elapsedOf s asset.denom
  bound : 0 < n → Bep3.window s' asset.denom ≤ asset.supplyLimit.timeBasedLimit

theorem incrementCurrent_spends (ha : getAsset s d = .ok asset)
    (htl : asset.supplyLimit.timeLimited = true) (h : incrementCurrentAssetSupply s coin = .ok s') :
    Spends s s' asset (if coin.denom = d then coin.amount else 0) := by
  obtain ⟨hd, _⟩ := getAsset_ok ha
  subst hd
  obtain ⟨sup, asset', hs, ha', _, ht, rfl⟩ := (incrementCurrentAssetSupply_iff hw).mp h
  have hdn := hw _ _ hs
  by_cases hx : coin.denom = asset.denom
  · rw [hx, ha] at ha'
    cases ha'
    have hwin : window s asset.denom = sup.timeLimitedCurrentSupply.amount := by
      rw [window, ← hx]
      exact counterOf_some _ hs
    refine ⟨hw.set ⟨hdn.incoming, hdn.outgoing, rfl, rfl⟩, ?_, ?_, fun _ => ?_⟩
    · rw [if_pos hx, hwin, ← hx]
      simp [window, counterOf, setAssetSupply, htl]
    · rw [← hx]
      simp [elapsedOf, setAssetSupply, hs]
    · rw [← hx]
      have := ht htl
      simpa [window, counterOf, setAssetSupply, htl] using this
  · have hne : asset.denom ≠ coin.denom := Ne.symm hx
    rw [if_neg hx]
    refine ⟨hw.set ⟨hdn.incoming, hdn.outgoing, rfl, rfl⟩, ?_, ?_,
      fun hn => absurd hn (lt_irrefl 0)⟩
    · simp [window, counterOf, setAssetSupply, hne]
    · simp [elapsedOf, setAssetSupply, hne]

theorem payClaim_spends (ha : getAsset s d = .ok asset) (htl : asset.supplyLimit.timeLimited = true)
    {a : AtomicSwap} (hfirst : firstCoin a = .ok coin) (h : payClaim s a = .ok s') :
    Spends s s' asset (if a.direction = .incoming ∧ coin.denom = d then coin.amount else 0) := by
  cases payClaim_ok h with
  | @incoming _ s₁ _ _ hd hcoin h₁ h₂ h₃ h₄ =>
    cases hfirst.symm.trans hcoin
    have u₁ := decrementIncoming_untimed hw h₁
    have hp : s₁.params = s.params := (Keeps.pays (decrementAssetSupply_sets h₁).pays).params
    have hs₂ := incrementCurrent_spends u₁.denoms ((getAsset_params hp d).trans ha) htl h₂
    have u₃ := Untimed.withBank hs₂.denoms h₃
    have u₄ := u₃.trans (Untimed.withBank u₃.denoms h₄)
    simp only [hd, true_and]
    refine ⟨u₄.denoms, ?_, ?_, fun hn => ?_⟩
    · rw [u₄.window, hs₂.window, u₁.window]
    · rw [u₄.elapsed, hs₂.elapsed, u₁.elapsed]
    · rw [u₄.window]
      exact hs₂.bound hn
  | outgoing hd hcoin h₁ h₂ h₃ =>
    cases hfirst.symm.trans hcoin
    have u₁ := decrementOutgoing_untimed hw h₁
    have u₂ := u₁.trans (decrementCurrent_untimed u₁.denoms h₂)
    have u₃ := u₂.trans (Untimed.withBank u₂.denoms h₃)
    simp only [hd, reduceCtorEq, false_and, ite_false]
    exact ⟨u₃.denoms, by rw [u₃.window, add_zero], u₃.elapsed _, fun hn => absurd hn (lt_irrefl 0)⟩

end

/-! ## The begin blocker -/

theorem validateAssetParams_nodup {assets : List AssetParam} {seen : List Denom} {u : Unit}
    (h : validateAssetParams seen assets = .ok u) :
    (assets.map AssetParam.denom).Nodup ∧ ∀ a ∈ assets, a.denom ∉ seen := by
  induction assets generalizing seen with
  | nil => simp
  | cons asset assets ih =>
    simp only [validateAssetParams, bind_eq_ok] at h
    obtain ⟨_, ha, h⟩ := h
    obtain ⟨hn, hs⟩ := ih h
    simp only [AssetParam.validate, bind_eq_ok, rejectIf_eq_ok] at ha
    obtain ⟨_, _, _, _, _, _, _, _, _, _, _, hseen, _⟩ := ha
    exact nodup_fresh_cons.mpr ⟨hseen, hn, hs⟩

def turned (t : Duration) (asset : AssetParam) (sup : AssetSupply) : AssetSupply :=
  if asset.supplyLimit.timeLimited = true ∧ sup.timeElapsed + t < asset.supplyLimit.timePeriod then
    { sup with timeElapsed := sup.timeElapsed + t }
  else { sup with timeElapsed := 0, timeLimitedCurrentSupply := ⟨asset.denom, 0⟩ }

theorem get_foldl_asset (t : Duration) {assets : List AssetParam}
    (hn : (assets.map AssetParam.denom).Nodup) (hm : asset ∈ assets) (s : State A) :
    (assets.foldl (updateTimeBasedSupplyLimit t) s).supplies.get asset.denom =
      some (turned t asset ((s.supplies.get asset.denom).getD (zeroSupply asset.denom 0))) := by
  have hfold : (assets.foldl (updateTimeBasedSupplyLimit t) s).supplies =
      assets.foldl (fun supplies a =>
      supplies.set a.denom (turned t a ((supplies.get a.denom).getD (zeroSupply a.denom 0))))
        s.supplies :=
    (List.foldl_hom State.supplies fun _ _ => rfl).symm
  rw [hfold]
  exact KVStore.get_foldl_set AssetParam.denom
    (fun a sup => turned t a (sup.getD (zeroSupply a.denom 0))) hn hm s.supplies

theorem beginBlocker_supply (env : Env) (ha : getAsset s d = .ok asset) (ctx : Ctx) :
    (beginBlocker env ctx s).supplies.get d =
      some (turned (Time.sub ctx.blockTime (s.previousBlockTime.getD ctx.blockTime)) asset
        ((s.supplies.get d).getD (zeroSupply d 0))) ∧
    (beginBlocker env ctx s).previousBlockTime = some ctx.blockTime := by
  have hfind := (orReject_eq_ok _ _ _).mp ha
  have hm : asset ∈ getAssets s := List.mem_of_find?_eq_some hfind
  have hne : getAssets s ≠ [] := List.ne_nil_of_mem hm
  obtain ⟨hd, _⟩ := getAsset_ok ha
  subst hd
  obtain ⟨_, _, _, hb⟩ := beginBlocker_scans env ctx s
  rw [hb, updateTimeBasedSupplyLimits, if_neg hne]
  exact ⟨get_foldl_asset _ (validateAssetParams_nodup s.params.property).1 hm s, rfl⟩

theorem counterOf_getD (s : State A) (d : Denom) :
    window s d = ((s.supplies.get d).getD (zeroSupply d 0)).timeLimitedCurrentSupply.amount := by
  unfold window counterOf
  cases s.supplies.get d <;> rfl

section
variable (ha : getAsset s asset.denom = .ok asset) (ctx : Ctx)
include ha

theorem beginBlocker_resets (env : Env) (hr : Resets asset s (.beginBlock ctx)) :
    window (beginBlocker env ctx s) asset.denom = 0 ∧
    elapsedOf (beginBlocker env ctx s) asset.denom = 0 := by
  obtain ⟨hs, _⟩ := beginBlocker_supply env ha ctx
  rw [counterOf_getD, elapsedOf, hs, Option.getD_some, turned, if_neg (fun h => hr h.2)]
  exact ⟨rfl, rfl⟩

theorem beginBlocker_continues (env : Env) (htl : asset.supplyLimit.timeLimited = true)
    (hr : ¬ Resets asset s (.beginBlock ctx)) :
    window (beginBlocker env ctx s) asset.denom = window s asset.denom ∧
    elapsedOf (beginBlocker env ctx s) asset.denom =
      elapsedOf s asset.denom + Time.sub ctx.blockTime
        (s.previousBlockTime.getD ctx.blockTime) := by
  obtain ⟨hs, _⟩ := beginBlocker_supply env ha ctx
  rw [counterOf_getD, counterOf_getD, elapsedOf, hs, Option.getD_some, turned,
    if_pos ⟨htl, not_not.mp hr⟩]
  exact ⟨rfl, rfl⟩

end

/-! ## Steps -/

structure RateInv (env : Env) (asset : AssetParam) (s : State A) : Prop where
  index : IndexInv env s
  denoms : SupplyDenoms s
  positive : ∀ id a, s.swaps.get id = some a → ∀ c ∈ a.amount, 0 < c.amount
  supported : getAsset s asset.denom = .ok asset
  window : 0 ≤ window s asset.denom

theorem RateInv.initGenesis {bank : Bank A} {gs : GenesisState}
    (h : initGenesis env bank gs = .ok s)
    (ha : getAsset s asset.denom = .ok asset) : RateInv env asset s := by
  have hg : GenesisInv env s := GenesisInv.initGenesis h
  refine ⟨hg.index, hg.denoms, fun id a hs => ?_, ha, ?_⟩
  · obtain ⟨⟨hv, _⟩, _⟩ := a.validate_iff.mp (hg.valid id a hs)
    exact amount_pos_of_isValid hv
  · unfold Bep3.window counterOf
    split
    · exact le_refl 0
    · rename_i sup hs
      obtain ⟨_, _, _, hv, _⟩ := sup.validate_iff.mp (hg.supplies _ sup hs)
      simp only [Coin.isValid, Bool.and_eq_true, decide_eq_true_eq] at hv
      exact hv.2

theorem payClaim_first {a : AtomicSwap} (h : payClaim s a = .ok s') :
    ∃ coin, firstCoin a = .ok coin := by
  cases payClaim_ok h with
  | incoming _ hcoin => exact ⟨_, hcoin⟩
  | outgoing _ hcoin => exact ⟨_, hcoin⟩

theorem firstCoin_ok {a : AtomicSwap} (h : firstCoin a = .ok coin) :
    ∃ rest : Coins, a.amount = coin :: rest := by
  have h := (orReject_eq_ok _ _ _).mp h
  cases ha : a.amount with
  | nil => simp [ha] at h
  | cons c rest => exact ⟨rest, by simpa [ha] using h⟩

structure Minted (env : Env) (asset : AssetParam) (s : State A) (op : Op) (n : Int) : Prop
    extends Spends s (step env s op) asset n where
  nonneg : 0 ≤ n
  counted : Counts env asset.denom s op → n = claimed env .incoming s op asset.denom
  time : (step env s op).previousBlockTime = s.previousBlockTime

theorem Minted.untimed {op : Op} (hu : Untimed s (step env s op))
    (hz : claimed env .incoming s op asset.denom = 0)
    (ht : (step env s op).previousBlockTime = s.previousBlockTime) : Minted env asset s op 0 where
  denoms := hu.denoms
  window := by rw [hu.window, add_zero]
  elapsed := hu.elapsed _
  bound hn := absurd hn (lt_irrefl 0)
  nonneg := le_refl 0
  counted _ := hz.symm
  time := ht

section
variable (h : RateInv env asset s) (htl : asset.supplyLimit.timeLimited = true)
include h

theorem RateInv.create_minted (ctx : Ctx) (args : CreateArgs) :
    Minted env asset s (.create ctx args) 0 := by
  rcases orElseKeep_cases s (createAtomicSwap env ctx s args) with ⟨s', hok, e⟩ | ⟨_, e⟩
  · obtain ⟨_, _, _, s₁, hc⟩ := createAtomicSwap_ok hok
    have hu := escrow_untimed h.denoms hc.escrowed
    have ht : s₁.previousBlockTime = s.previousBlockTime := by
      obtain ⟨_, _, _, rfl⟩ := escrow_pays hc.escrowed
      rfl
    refine Minted.untimed ?_ rfl ?_
    · rw [step, e, hc.state]
      exact ⟨hu.denoms, hu.window, hu.elapsed⟩
    · rw [step, e, hc.state]
      exact ht
  · exact Minted.untimed (by rw [step, e]; exact Untimed.refl h.denoms) rfl (by rw [step, e])

theorem RateInv.refund_minted (ctx : Ctx) (id : Bytes) : Minted env asset s (.refund ctx id) 0 := by
  rcases orElseKeep_cases s (refundAtomicSwap env ctx s id) with ⟨s', hok, e⟩ | ⟨_, e⟩
  · obtain ⟨_, s₁, _, _, hpay, rfl⟩ := refundAtomicSwap_ok hok
    have hu := payRefund_untimed h.denoms hpay
    have ht : s₁.previousBlockTime = s.previousBlockTime := by
      obtain ⟨_, _, _, rfl⟩ := payRefund_pays hpay
      rfl
    refine Minted.untimed ?_ rfl ?_
    · rw [step, e]
      exact ⟨hu.denoms, hu.window, hu.elapsed⟩
    · rw [step, e]
      exact ht
  · exact Minted.untimed (by rw [step, e]; exact Untimed.refl h.denoms) rfl (by rw [step, e])

include htl

theorem RateInv.claim_minted (ctx : Ctx) (id number : Bytes) :
    ∃ n, Minted env asset s (.claim ctx id number) n := by
  rcases orElseKeep_cases s (claimAtomicSwap env ctx s id number)
    with ⟨s', hok, e⟩ | ⟨⟨err, herr⟩, e⟩
  · obtain ⟨a, s₁, hg, _, _, hpay, rfl⟩ := claimAtomicSwap_ok hok
    obtain ⟨coin, hfirst⟩ := payClaim_first hpay
    obtain ⟨rest, ha⟩ := firstCoin_ok hfirst
    have hsp := payClaim_spends h.denoms h.supported htl hfirst hpay
    have ht : s₁.previousBlockTime = s.previousBlockTime := by
      obtain ⟨_, _, _, rfl⟩ := payClaim_pays hpay
      rfl
    refine ⟨if a.direction = .incoming ∧ coin.denom = asset.denom then coin.amount else 0,
      ⟨?_, ?_, fun hc => ?_, ?_⟩⟩
    · rw [step, e]
      exact ⟨hsp.denoms, hsp.window, hsp.elapsed, hsp.bound⟩
    · have hpos := h.positive id a hg coin (by simp [ha])
      split <;> omega
    · by_cases hd : a.direction = .incoming
      · have hrest : rest.amountOf asset.denom = 0 := by
          have hc := hc a _ hg hok hd
          rw [ha] at hc
          exact amountOf_eq_zero hc
        simp [claimed, hg, hok, hd, ha, hrest]
      · simp [claimed, hg, hok, hd]
    · rw [step, e]
      exact ht
  · refine ⟨0, Minted.untimed (by rw [step, e]; exact Untimed.refl h.denoms) ?_ (by rw [step, e])⟩
    cases hg : s.swaps.get id <;> simp [claimed, hg, herr]

theorem RateInv.step_minted (op : Op) (hop : ∀ ctx, op ≠ .beginBlock ctx) :
    ∃ n, Minted env asset s op n := by
  cases op with
  | create ctx args => exact ⟨0, h.create_minted ctx args⟩
  | claim ctx id number => exact h.claim_minted htl ctx id number
  | refund ctx id => exact ⟨0, h.refund_minted ctx id⟩
  | beginBlock ctx => exact absurd rfl (hop ctx)

theorem RateInv.step (op : Op) : RateInv env asset (step env s op) := by
  have hpos : ∀ id a', (Bep3.step env s op).swaps.get id = some a' →
      ∀ c ∈ a'.amount, 0 < c.amount := by
    intro id a' ha'
    have he := h.index.evolves op id
    rw [ha'] at he
    generalize hx : s.swaps.get id = x at he
    cases he with
    | keep => exact h.positive id a' hx
    | create hc =>
      obtain ⟨coin, ha, hpos⟩ := hc.oneCoin
      rw [ha]
      simpa using hpos
    | claim _ | refund _ | expire _ _ =>
      have ha := h.positive id _ hx
      exact ha
  have hsup : getAsset (Bep3.step env s op) asset.denom = .ok asset :=
    (getAsset_params (step_keeps env s op).params _).trans h.supported
  have hrest : SupplyDenoms (Bep3.step env s op) ∧
      0 ≤ Bep3.window (Bep3.step env s op) asset.denom := by
    by_cases hop : ∀ ctx, op ≠ .beginBlock ctx
    · obtain ⟨n, hm⟩ := h.step_minted htl op hop
      refine ⟨hm.denoms, ?_⟩
      rw [hm.window]
      exact add_nonneg h.window hm.nonneg
    · simp only [not_forall, not_not] at hop
      obtain ⟨ctx, rfl⟩ := hop
      refine ⟨(beginBlocker_moves h.index h.denoms ctx "").denoms, ?_⟩
      by_cases hr : Resets asset s (.beginBlock ctx)
      · exact le_of_eq (beginBlocker_resets h.supported ctx env hr).1.symm
      · rw [Bep3.step, (beginBlocker_continues h.supported ctx env htl hr).1]
        exact h.window
  exact ⟨h.index.step op, hrest.1, hpos, hsup, hrest.2⟩

end

/-! ## Runs -/

/-- The window began at the time `r`, if that is known; the blocks to come are at most 2 ^
63 ns away from it. -/
def Since (asset : AssetParam) (r : Option Int) (s : State A) (ops : List Op) : Prop :=
  ∀ t₀ : Int, r = some t₀ → ∃ t : Int, s.previousBlockTime = some t ∧ t₀ ≤ t ∧
  (elapsedOf s asset.denom).toInt = t - t₀ ∧
    ∀ op ∈ ops, t ≤ op.time ∧ op.time - t₀ < 2 ^ 63

def Timely (ops : List Op) : Prop := ops.Pairwise fun o o' => o.time ≤ o'.time ∧
    o'.time - o.time < 2 ^ 63

theorem Since.elapsed {r : Option Int} {ctx : Ctx} {ops : List Op}
    (h : Since asset r s (.beginBlock ctx :: ops)) {t₀ : Int} (hr : r = some t₀) :
    (elapsedOf s asset.denom + Time.sub ctx.blockTime
      (s.previousBlockTime.getD ctx.blockTime)).toInt =
      (Op.beginBlock ctx).time - t₀ ∧ t₀ ≤ (Op.beginBlock ctx).time := by
  obtain ⟨t, ht, hle, he, hops⟩ := h t₀ hr
  obtain ⟨hle', hlt⟩ := hops _ List.mem_cons_self
  rw [ht, Option.getD_some]
  exact ⟨Time.toInt_add_sub he hle hle' hlt, le_trans hle hle'⟩

structure Running (env : Env) (asset : AssetParam) (r : Option Int) (s : State A) (ops : List Op) :
    Prop
    extends RateInv env asset s where
  limited : asset.supplyLimit.timeLimited = true
  since : Since asset r s ops
  timely : Timely ops
  counts : CountsAll env asset.denom s ops

section
variable {r : Option Int} {ops : List Op}

theorem Running.spend {op : Op} (h : Running env asset r s (op :: ops))
    (hop : ∀ ctx, op ≠ .beginBlock ctx) :
    Turn asset.supplyLimit.timeBasedLimit asset.supplyLimit.timePeriod.toInt
      (Bep3.window s asset.denom)
      (Bep3.window (Bep3.step env s op) asset.denom) r
        (fun r' => Running env asset r' (Bep3.step env s op) ops)
      (tick env asset s op) := by
  obtain ⟨n, hm⟩ := h.step_minted h.limited op hop
  have hn : n = claimed env .incoming s op asset.denom := hm.counted h.counts.1
  have hnr : ¬ Resets asset s op := by
    cases op with
    | beginBlock ctx => exact absurd rfl (hop ctx)
    | create _ _ | claim _ _ _ | refund _ _ => exact id
  have hs' : Since asset r (Bep3.step env s op) ops := by
    intro t₀ hr₀
    obtain ⟨t, hprev, hle, he, hops⟩ := h.since t₀ hr₀
    exact ⟨t, hm.time.trans hprev, hle, by rw [hm.elapsed]; exact he,
      fun o ho => hops o (List.mem_cons_of_mem _ ho)⟩
  rw [tick, if_neg hnr, ← hn]
  refine .spend hm.nonneg hm.bound hm.window ?_
  exact ⟨h.toRateInv.step h.limited op, h.limited, hs',
    (List.pairwise_cons.mp h.timely).2, h.counts.2⟩

theorem Running.block {ctx : Ctx} (h : Running env asset r s (.beginBlock ctx :: ops)) :
    Turn asset.supplyLimit.timeBasedLimit asset.supplyLimit.timePeriod.toInt
      (Bep3.window s asset.denom)
      (Bep3.window (Bep3.step env s (.beginBlock ctx)) asset.denom) r
      (fun r' => Running env asset r' (Bep3.step env s (.beginBlock ctx)) ops)
        (tick env asset s (.beginBlock ctx)) := by
  obtain ⟨hlater, ht⟩ := List.pairwise_cons.mp h.timely
  have hi := h.toRateInv.step h.limited (.beginBlock ctx)
  have hprev := (beginBlocker_supply env h.supported ctx).2
  rw [tick]
  by_cases hres : Resets asset s (.beginBlock ctx)
  · obtain ⟨hw, he⟩ := beginBlocker_resets h.supported ctx env hres
    have hs' : Since asset (some ctx.blockTime) (Bep3.step env s (.beginBlock ctx)) ops := by
      intro t₀ hr₀
      cases hr₀
      refine ⟨ctx.blockTime, hprev, le_refl _, ?_, hlater⟩
      rw [Bep3.step, he, sub_self]
      rfl
    rw [if_pos hres]
    refine .reset (fun t₀ hr₀ => ?_) hw ⟨hi, h.limited, hs', ht, h.counts.2⟩
    obtain ⟨hel, _⟩ := h.since.elapsed hr₀
    have hge : ¬ _ < asset.supplyLimit.timePeriod.toInt :=
      fun hlt => hres (Int64.lt_iff_toInt_lt.mpr hlt)
    rw [hel] at hge
    omega
  · obtain ⟨hw, he⟩ := beginBlocker_continues h.supported ctx env h.limited hres
    have hs' : Since asset r (Bep3.step env s (.beginBlock ctx)) ops := by
      intro t₀ hr₀
      obtain ⟨hel, hle⟩ := h.since.elapsed hr₀
      obtain ⟨_, _, _, _, hops⟩ := h.since t₀ hr₀
      refine ⟨ctx.blockTime, hprev, hle, ?_,
        fun o ho => ⟨(hlater o ho).1, (hops o (List.mem_cons_of_mem _ ho)).2⟩⟩
      rw [Bep3.step, he]
      exact hel
    rw [if_neg hres]
    exact .spend (le_refl 0) (fun hpos => absurd hpos (lt_irrefl 0)) (hw.trans (add_zero _).symm)
      ⟨hi, h.limited, hs', ht, h.counts.2⟩

/-- The ticks of a run are those of a limiter. -/
theorem Running.paced (h : Running env asset r s ops) :
    Paced asset.supplyLimit.timeBasedLimit asset.supplyLimit.timePeriod.toInt
      (Bep3.window s asset.denom) r
      (ticks env asset s ops) := by
  have hturn : ∀ (r : Option Int) (s : State A) (op : Op) (ops : List Op), Running env asset r s
      (op :: ops) →
      Turn asset.supplyLimit.timeBasedLimit asset.supplyLimit.timePeriod.toInt
        (Bep3.window s asset.denom)
        (Bep3.window (Bep3.step env s op) asset.denom) r
          (fun r' => Running env asset r' (Bep3.step env s op) ops)
        (tick env asset s op) := by
    intro r s op ops h
    by_cases hop : ∀ ctx, op ≠ .beginBlock ctx
    · exact h.spend hop
    · simp only [not_forall, not_not] at hop
      obtain ⟨ctx, rfl⟩ := hop
      exact h.block
  exact Paced.of_turns (Bep3.step env) (tick env asset) (fun s => Bep3.window s asset.denom)
    (Running env asset)
    (ticks env asset) (fun _ => rfl) (fun _ _ _ => rfl) hturn h

end

theorem ticks_sorted (env : Env) (asset : AssetParam) {ops : List Op} (ht : Timely ops)
    (s : State A) :
    (ticks env asset s ops).Pairwise fun x y => x.time ≤ y.time := by
  have htime (s : State A) (op : Op) : (tick env asset s op).time = op.time := by
    unfold tick
    split <;> rfl
  have hmem (ops : List Op) (s : State A) (x : Tick) (hx : x ∈ ticks env asset s ops) :
      ∃ op ∈ ops, x.time = op.time := by
    induction ops generalizing s with
    | nil => cases hx
    | cons op ops ih =>
      rcases List.mem_cons.mp hx with rfl | hx
      · exact ⟨op, List.mem_cons_self, htime s op⟩
      · obtain ⟨o, ho, e⟩ := ih _ hx
        exact ⟨o, List.mem_cons_of_mem _ ho, e⟩
  induction ops generalizing s with
  | nil => exact List.Pairwise.nil
  | cons op ops ih =>
    have ht' := List.pairwise_cons.mp ht
    refine List.pairwise_cons.mpr ⟨fun x hx => ?_, ih ht'.2 _⟩
    obtain ⟨o, ho, e⟩ := hmem ops _ x hx
    rw [htime, e]
    exact (ht'.1 o ho).1

theorem getAsset_genesis {bank : Bank A} {gs : GenesisState} (h : initGenesis env bank gs = .ok s)
    (ha : asset ∈ gs.params.assetParams) : getAsset s asset.denom = .ok asset := by
  obtain ⟨hp, _, rfl⟩ := initGenesis_iff.mp h
  obtain ⟨B, L, hl⟩ := loadedState_eq env ⟨gs.params, hp⟩ gs bank
  have hn := (validateAssetParams_nodup hp).1
  rw [hl]
  refine (orReject_eq_ok _ _ _).mpr ?_
  change gs.params.assetParams.find? (fun a => a.denom = asset.denom) = some asset
  generalize gs.params.assetParams = assets at ha hn
  induction assets with
  | nil => cases ha
  | cons a assets ih =>
    rw [List.map_cons, List.nodup_cons] at hn
    cases ha with
    | head => simp
    | tail _ hm =>
      have hne : a.denom ≠ asset.denom := fun e => hn.1 (e ▸ List.mem_map_of_mem hm)
      rw [List.find?_cons_of_neg (by simpa using hne)]
      exact ih hm hn.2

/-- In every run from an accepted genesis whose claims count all they mint of a time limited
asset, the windows of the asset begin at least its time period apart, what is minted in a
window is within its time based limit, and what is minted in less than a time period is
within twice that. -/
theorem mint_rate_limited (env : Env) (bank : Bank A) (gs : GenesisState) (s₀ : State A)
    (h : initGenesis env bank gs = .ok s₀) (asset : AssetParam) (ha : asset ∈ gs.params.assetParams)
    (htl : asset.supplyLimit.timeLimited = true) (ops : List Op) (ht : Timely ops)
    (hc : CountsAll env asset.denom s₀ ops) :
    (∀ pre t₁ mid t₂ post, ticks env asset s₀ ops = pre ++ .reset t₁ :: (mid ++ .reset t₂ :: post) →
      (∀ x ∈ mid, x.IsSpend) →
      t₁ + asset.supplyLimit.timePeriod.toInt ≤ t₂ ∧ spent mid ≤ asset.supplyLimit.timeBasedLimit) ∧
    ∀ a b, b - a < asset.supplyLimit.timePeriod.toInt →
      spentWithin a b (ticks env asset s₀ ops) ≤ 2 * asset.supplyLimit.timeBasedLimit := by
  have hasset : getAsset s₀ asset.denom = .ok asset := getAsset_genesis h ha
  have hi : RateInv env asset s₀ := RateInv.initGenesis h hasset
  obtain ⟨_, _, hv⟩ := getAsset_ok hasset
  obtain ⟨_, _, hlim, _⟩ := AssetParam.validate_ok hv
  have hs : Since asset none s₀ ops := by
    intro t₀ e
    cases e
  have hp := Running.paced ⟨hi, htl, hs, ht, hc⟩
  refine ⟨fun pre t₁ mid t₂ post e hm => ?_, fun a b hab => ?_⟩
  · rw [e] at hp
    obtain ⟨hperiod, hspent⟩ := (hp.after_reset pre).next_reset hlim hm
    exact ⟨hperiod, by omega⟩
  · exact hp.within hlim hi.window (ticks_sorted env asset ht s₀) hab

def slowAsset : AssetParam :=
  { bnbAsset with denom := "btcb", coinID := 0, supplyLimit := ⟨1000, true, 3600000000000, 10⟩ }

def slowGenesis : GenesisState :=
  { twoCoinGenesis with params := ⟨[bnbAsset, slowAsset]⟩, previousBlockTime := 0 }

def slowState : State chainAddrs :=
  orElseKeep sampleState (initGenesis sampleEnv Bank.empty slowGenesis)

def laterCtx : Ctx := .atHeight 102 1700003600000000000

def hourRun : List Op := [.beginBlock (sampleCtx 101), sampleClaim, .beginBlock laterCtx]

theorem hourRun_timely : Timely hourRun := by
  unfold Timely hourRun
  decide

theorem two_coins_unlimited :
    initGenesis sampleEnv Bank.empty slowGenesis = .ok slowState ∧
    slowAsset ∈ slowGenesis.params.assetParams ∧
    slowAsset.supplyLimit.timeLimited = true ∧ Timely hourRun ∧
    ticks sampleEnv slowAsset slowState hourRun =
      [.reset 1700000000000000000, .spend 1700000000000000000 50, .reset 1700003600000000000] ∧
    slowAsset.supplyLimit.timeBasedLimit < spent [.spend 1700000000000000000 50] ∧
    2 * slowAsset.supplyLimit.timeBasedLimit <
      spentWithin 1700000000000000000 1700000000000000000
        (ticks sampleEnv slowAsset slowState hourRun) :=
  ⟨eq_ok_orElseKeep (by decide +kernel) sampleState, by decide, rfl,
    hourRun_timely, by decide +kernel, by decide,
    by decide +kernel⟩

theorem mint_rate_limited_hour :
    ∃ s₀ : State chainAddrs, initGenesis sampleEnv Bank.empty sampleGenesis = .ok s₀ ∧
      0 < spentWithin 1700000000000000000 1700000000000000000
        (ticks sampleEnv bnbAsset s₀ hourRun) ∧
      spentWithin 1700000000000000000 1700000000000000000 (ticks sampleEnv bnbAsset s₀ hourRun) ≤
        2 * 500000 := by
  have h := eq_ok_orElseKeep
    (x := initGenesis sampleEnv (Bank.empty : Bank chainAddrs) sampleGenesis) (by decide +kernel)
    sampleState
  have hcounts : CountsAll sampleEnv bnbAsset.denom
      (orElseKeep sampleState (initGenesis sampleEnv Bank.empty sampleGenesis)) hourRun := by
    refine ⟨trivial, fun a _ ha _ _ => ?_, trivial, trivial⟩
    have hs : (step sampleEnv
        (orElseKeep sampleState (initGenesis sampleEnv Bank.empty sampleGenesis))
        (.beginBlock (sampleCtx 101))).swaps.get (sampleID 1 deputyAddr) =
        some (newSwap (sampleCtx 100) (sampleArgs 1 deputyAddr userAddr 100) .incoming) := by
          decide +kernel
    rw [hs] at ha
    cases ha
    exact fun c hc => by cases hc
  exact ⟨_, h, by decide +kernel,
    (mint_rate_limited sampleEnv Bank.empty sampleGenesis _ h bnbAsset (by decide) rfl hourRun
    hourRun_timely hcounts).2 _ _ (by decide)⟩

end ZgChain.Bep3
