import ZgChain.Issuance.SeizeSound
import ZgChain.Lib.FixedWindow

/-!
# The issue rate limit

The begin blocker adds up the time between blocks and begins a new window when the
sum reaches the period; issued tokens count against the window. No message touches
the limit or the clock, and redeemed tokens are not taken off the count. The ticks
of a run, as one asset sees them, are those of a fixed window limiter.
-/

namespace ZgChain.Issuance

open FixedWindow

variable {A : ModuleAddrs} {env : Env} {s s₁ s' : State A} {d : Denom} {limit : RateLimit}

/-! ## Blocks and their times -/

def Op.blockTime? : Op → Option Int
  | .beginBlock ctx => some ctx.blockTime
  | _ => none

/-- A block begins at its own time; all else happens at the time of the block it is in. -/
def Op.time (now : Int) (op : Op) : Int := op.blockTime?.getD now

def blockTimes (ops : List Op) : List Int := ops.filterMap Op.blockTime?

def Timely (now : Int) (ops : List Op) : Prop :=
  (now :: blockTimes ops).Pairwise fun t t' => t ≤ t' ∧ t' - t < 2 ^ 63

theorem Timely.tail {now : Int} {op : Op} {ops : List Op} (h : Timely now (op :: ops)) :
    now ≤ op.time now ∧ Timely (op.time now) ops := by
  cases op with
  | beginBlock ctx =>
    obtain ⟨hnow, hrest⟩ := List.pairwise_cons.mp h
    exact ⟨(hnow ctx.blockTime List.mem_cons_self).1, hrest⟩
  | deliver _ | send _ _ _ | createVestingAccount _ _ _ | vest _ _ _ => exact ⟨le_refl now, h⟩

theorem blockTimes_subset (op : Op) (ops : List Op) :
    ∀ t ∈ blockTimes ops, t ∈ blockTimes (op :: ops) := by
  intro t ht
  obtain ⟨o, ho, e⟩ := List.mem_filterMap.mp ht
  exact List.mem_filterMap.mpr ⟨o, List.mem_cons_of_mem _ ho, e⟩

/-! ## The window of an asset -/

def window (s : State A) (d : Denom) : Int :=
  ((s.supplies.get d).getD (zeroSupply d)).currentSupply.amount

def elapsedOf (s : State A) (d : Denom) : Duration :=
  ((s.supplies.get d).getD (zeroSupply d)).timeElapsed

def Resets (env : Env) (d : Denom) (period : Duration) (s : State A) : Op → Prop
  | .beginBlock ctx => (∃ s', beginBlocker env ctx s = .ok s') ∧
      ¬ elapsedOf s d + Time.sub ctx.blockTime (s.previousBlockTime.getD ctx.blockTime) < period
  | _ => False

instance decidableResets (env : Env) (d : Denom) (period : Duration) (s : State A) :
    ∀ op, Decidable (Resets env d period s op)
  | .beginBlock ctx => inferInstanceAs (Decidable ((∃ s', beginBlocker env ctx s = .ok s') ∧
      ¬ elapsedOf s d + Time.sub ctx.blockTime (s.previousBlockTime.getD ctx.blockTime) < period))
  | .deliver _ => inferInstanceAs (Decidable False)
  | .send _ _ _ => inferInstanceAs (Decidable False)
  | .createVestingAccount _ _ _ => inferInstanceAs (Decidable False)
  | .vest _ _ _ => inferInstanceAs (Decidable False)

def issued (env : Env) (d : Denom) (s : State A) : Op → Int
  | .deliver (.issueTokens msg) =>
    (step env s (.deliver (.issueTokens msg))).bank.supply d - s.bank.supply d
  | _ => 0

def tick (env : Env) (d : Denom) (period : Duration) (now : Int) (s : State A) (op : Op) : Tick :=
  if Resets env d period s op then .reset (op.time now)
  else .spend (op.time now) (issued env d s op)

def ticks (env : Env) (d : Denom) (period : Duration) (now : Int) (s : State A) :
    List Op → List Tick
  | [] => []
  | op :: ops => tick env d period now s op :: ticks env d period (op.time now) (step env s op) ops

/-! ## Operations that leave the window alone -/

structure SameWindow (d : Denom) (s s' : State A) : Prop where
  limit : getRateLimit s' d = getRateLimit s d
  supply : s'.supplies.get d = s.supplies.get d
  time : s'.previousBlockTime = s.previousBlockTime

theorem SameWindow.refl (d : Denom) (s : State A) : SameWindow d s s := ⟨rfl, rfl, rfl⟩

theorem SameWindow.trans (h : SameWindow d s s₁) (h' : SameWindow d s₁ s') : SameWindow d s s' :=
  ⟨h'.limit.trans h.limit, h'.supply.trans h.supply, h'.time.trans h.time⟩

theorem SameWindow.window (h : SameWindow d s s') : window s' d = window s d := by
  rw [Issuance.window, h.supply, Issuance.window]

theorem SameWindow.elapsed (h : SameWindow d s s') : elapsedOf s' d = elapsedOf s d := by
  rw [elapsedOf, h.supply, elapsedOf]

theorem SameWindow.withBank {x : Except BankError (Bank A)} (h : withBank s x = .ok s') :
    SameWindow d s s' := by
  obtain ⟨b, _, rfl⟩ := (withBank_eq_ok _ _ _).mp h
  exact ⟨rfl, rfl, rfl⟩

theorem getRateLimit_eq (s : State A) (d : Denom) : getRateLimit s d =
    ((s.params.val.assets.find? fun asset => asset.denom = d).map Asset.rateLimit).getD
      ⟨false, 0, 0⟩ := by
  unfold getRateLimit getAsset
  cases s.params.val.assets.find? fun asset => asset.denom = d <;> rfl

theorem getRateLimit_of_getAsset {asset : Asset} (h : getAsset s d = .ok asset) :
    getRateLimit s d = asset.rateLimit := by
  rw [getRateLimit, h]

theorem setParams_ok {p : Params} (h : setParams s p = .ok s') :
    s'.params.val = p ∧ s'.supplies = s.supplies ∧ s'.previousBlockTime = s.previousBlockTime := by
  unfold setParams at h
  split at h
  · cases h
  · cases h
    exact ⟨rfl, rfl, rfl⟩

theorem setAsset_sameWindow {asset asset' : Asset} {denom : Denom}
    (hg : getAsset s denom = .ok asset)
    (h : setAsset s asset' = .ok s') (hd : asset'.denom = asset.denom)
    (hr : asset'.rateLimit = asset.rateLimit) :
    SameWindow d s s' := by
  have hfound := (orReject_eq_ok _ _ _).mp hg
  have hdenom : asset.denom = denom := by simpa using List.find?_some hfound
  obtain ⟨hp, hs, ht⟩ := setParams_ok h
  refine ⟨?_, by rw [hs], ht⟩
  have hsame : ((fun a : Asset => decide (a.denom = d)) ∘ fun a => if a.denom = asset'.denom then
      asset' else a) =
      fun a => decide (a.denom = d) := by
    funext a
    by_cases ha : a.denom = asset'.denom
    · simp [ha]
    · simp [ha]
  rw [getRateLimit_eq, getRateLimit_eq, hp, List.find?_map, hsame]
  cases hf : s.params.val.assets.find? fun a => a.denom = d with
  | none => rfl
  | some a =>
    have had : a.denom = d := by simpa using List.find?_some hf
    by_cases ha : a.denom = asset'.denom
    · rw [← hdenom, ← hd, ← ha, had, hf] at hfound
      cases hfound
      simp [ha, hr]
    · simp [ha]

theorem redeemTokens_sameWindow {tokens : Coin} {owner : Addr}
    (h : redeemTokens env s tokens owner = .ok s') :
    SameWindow d s s' := by
  simp only [redeemTokens, bind_eq_ok] at h
  obtain ⟨_, _, _, _, _, _, s₁, h₁, h₂⟩ := h
  exact (SameWindow.withBank h₁).trans (SameWindow.withBank h₂)

section
variable {denom : Denom} {owner addr : Addr}

theorem blockAddress_sameWindow (h : blockAddress env s denom owner addr = .ok s') :
    SameWindow d s s' := by
  simp only [blockAddress, bind_eq_ok] at h
  obtain ⟨asset, hg, _, _, _, _, _, _, _, _, h⟩ := h
  exact setAsset_sameWindow hg h rfl rfl

theorem unblockAddress_sameWindow (h : unblockAddress env s denom owner addr = .ok s') :
    SameWindow d s s' := by
  simp only [unblockAddress, bind_eq_ok] at h
  obtain ⟨asset, hg, _, _, _, _, _, _, h⟩ := h
  exact setAsset_sameWindow hg h rfl rfl

theorem setPauseStatus_sameWindow {status : Bool}
    (h : setPauseStatus env s owner denom status = .ok s') :
    SameWindow d s s' := by
  simp only [setPauseStatus, bind_eq_ok] at h
  obtain ⟨asset, hg, _, _, h⟩ := h
  split at h
  · cases h
    exact SameWindow.refl d s
  · exact setAsset_sameWindow hg h rfl rfl

end

theorem handle_sameWindow {msg : Msg} (hm : ∀ m, msg ≠ .issueTokens m)
    (h : handle env s msg = .ok s') :
    SameWindow d s s' := by
  obtain ⟨_, _, h⟩ := (bind_eq_ok _ _ _).mp h
  cases msg with
  | issueTokens m => exact absurd rfl (hm m)
  | redeemTokens m =>
    obtain ⟨_, _, h⟩ := (bind_eq_ok _ _ _).mp h
    exact redeemTokens_sameWindow h
  | blockAddress m =>
    simp only [MsgServer.blockAddress, bind_eq_ok] at h
    obtain ⟨_, _, _, _, h⟩ := h
    exact blockAddress_sameWindow h
  | unblockAddress m =>
    simp only [MsgServer.unblockAddress, bind_eq_ok] at h
    obtain ⟨_, _, _, _, h⟩ := h
    exact unblockAddress_sameWindow h
  | setPauseStatus m =>
    obtain ⟨_, _, h⟩ := (bind_eq_ok _ _ _).mp h
    exact setPauseStatus_sameWindow h

/-! ## Issues -/

theorem incrementCurrentAssetSupply_ok {coin : Coin}
    (ha : (getRateLimit s coin.denom).active = true)
    (h : incrementCurrentAssetSupply s coin = .ok s') :
    ∃ supply increased, s.supplies.get coin.denom = some supply ∧
      increased.amount = supply.currentSupply.amount + coin.amount ∧
      increased.amount ≤ (getRateLimit s coin.denom).limit ∧
      s' = setAssetSupply s { supply with currentSupply := increased } coin.denom := by
  simp only [incrementCurrentAssetSupply, ha, if_true, bind_eq_ok, orReject_eq_ok, rejectIf_eq_ok,
    pure_eq_ok] at h
  obtain ⟨supply, hs, _, _, increased, hadd, exceeds, hlt, _, hle, rfl⟩ := h
  refine ⟨supply, increased, hs, ?_, ?_, rfl⟩
  · unfold Coin.add at hadd
    split at hadd
    · cases hadd
      rfl
    · cases hadd
  · unfold Coin.isLT at hlt
    split at hlt
    · cases hlt
      simpa using hle
    · cases hlt

structure Spends (limit : RateLimit) (d : Denom) (n : Int) (s s' : State A) : Prop where
  rate : getRateLimit s' d = getRateLimit s d
  window : window s' d = window s d + n
  elapsed : elapsedOf s' d = elapsedOf s d
  time : s'.previousBlockTime = s.previousBlockTime
  nonneg : 0 ≤ n
  bound : 0 < n → Issuance.window s' d ≤ limit.limit

theorem Spends.nothing (limit : RateLimit) (h : SameWindow d s s') : Spends limit d 0 s s' where
  rate := h.limit
  window := by rw [h.window, add_zero]
  elapsed := h.elapsed
  time := h.time
  nonneg := le_refl 0
  bound hn := absurd hn (lt_irrefl 0)

theorem Spends.sameWindow {n : Int} (h : Spends limit d n s s₁) (h' : SameWindow d s₁ s') :
    Spends limit d n s s' where
  rate := h'.limit.trans h.rate
  window := by rw [h'.window, h.window]
  elapsed := by rw [h'.elapsed, h.elapsed]
  time := h'.time.trans h.time
  nonneg := h.nonneg
  bound hn := by
    rw [h'.window]
    exact h.bound hn

theorem incrementCurrentAssetSupply_spends {coin : Coin} (hl : getRateLimit s coin.denom = limit)
    (ha : limit.active = true) (hn : 0 ≤ coin.amount)
    (h : incrementCurrentAssetSupply s coin = .ok s') :
    Spends limit coin.denom coin.amount s s' := by
  obtain ⟨supply, increased, hs, hsum, hle, rfl⟩ := incrementCurrentAssetSupply_ok (hl ▸ ha) h
  have hwin : window (setAssetSupply s { supply with currentSupply := increased } coin.denom)
      coin.denom =
      increased.amount := by simp [window, setAssetSupply]
  refine ⟨rfl, ?_, ?_, rfl, hn, fun _ => ?_⟩
  · rw [hwin, hsum, window, hs, Option.getD_some]
  · simp [elapsedOf, setAssetSupply, hs]
  · rw [hwin, ← hl]
    exact hle

theorem incrementCurrentAssetSupply_other {coin : Coin} (hd : coin.denom ≠ d)
    (h : incrementCurrentAssetSupply s coin = .ok s') : SameWindow d s s' := by
  by_cases ha : (getRateLimit s coin.denom).active = true
  · obtain ⟨supply, increased, _, _, _, rfl⟩ := incrementCurrentAssetSupply_ok ha h
    refine ⟨rfl, ?_, rfl⟩
    exact KVStore.get_set_ne _ (Ne.symm hd) _
  · obtain ⟨_, _, h⟩ := (bind_eq_ok _ _ _).mp h
    simp only [ha] at h
    cases h
    exact SameWindow.refl d s

/-- Issued tokens are new coins, and those of a limited asset count against its window. -/
theorem issueTokens_spends {tokens : Coin} {owner receiver : Addr} (hl : getRateLimit s d = limit)
    (ha : limit.active = true) (hn : 0 ≤ tokens.amount)
    (h : issueTokens env s tokens owner receiver = .ok s') :
    Spends limit d (s'.bank.supply d - s.bank.supply d) s s' := by
  simp only [issueTokens, bind_eq_ok] at h
  obtain ⟨asset, hg, _, _, _, _, _, _, _, _, s₁, h₁, s₂, h₂, h₃⟩ := h
  have hkeep : SameWindow d s₁ s' := (SameWindow.withBank h₂).trans (SameWindow.withBank h₃)
  -- counting touches no coins; the supply changes where the coins are minted
  have hbank : s₁.bank = s.bank := by
    split at h₁
    · rename_i hact
      rw [← getRateLimit_of_getAsset hg] at hact
      obtain ⟨_, _, _, _, _, rfl⟩ := incrementCurrentAssetSupply_ok hact h₁
      rfl
    · cases h₁
      rfl
  have hsupply : s'.bank.supply d - s.bank.supply d = if tokens.denom = d then tokens.amount
      else 0 := by
    obtain ⟨b₁, hb₁, rfl⟩ := (withBank_eq_ok _ _ _).mp h₂
    obtain ⟨b₂, hb₂, rfl⟩ := (withBank_eq_ok _ _ _).mp h₃
    obtain ⟨_, hb₂⟩ := Bank.sendCoinsFromModuleToAccount_ok.mp hb₂
    have hmint := Bank.mintCoins_supply hb₁ d
    rw [amountOf_newCoins, hbank] at hmint
    change b₂.supply d - s.bank.supply d = _
    rw [Bank.sendCoins_supply hb₂, hmint]
    exact add_sub_cancel_left _ _
  rw [hsupply]
  by_cases hd : tokens.denom = d
  · subst hd
    have hact : asset.rateLimit.active = true := by rw [← getRateLimit_of_getAsset hg, hl, ha]
    rw [if_pos hact] at h₁
    rw [if_pos rfl]
    exact (incrementCurrentAssetSupply_spends hl ha hn h₁).sameWindow hkeep
  · rw [if_neg hd]
    refine (Spends.nothing limit ?_).sameWindow hkeep
    split at h₁
    · exact incrementCurrentAssetSupply_other hd h₁
    · cases h₁
      exact SameWindow.refl d s

theorem handle_issue_spends {msg : MsgIssueTokens} (hl : getRateLimit s d = limit)
    (ha : limit.active = true) (h : handle env s (.issueTokens msg) = .ok s') :
    Spends limit d (s'.bank.supply d - s.bank.supply d) s s' := by
  obtain ⟨_, hv, h⟩ := (bind_eq_ok _ _ _).mp h
  simp only [Msg.validateBasic, MsgIssueTokens.validateBasic, bind_eq_ok] at hv
  obtain ⟨_, _, _, htokens, _⟩ := hv
  have hn : 0 ≤ msg.tokens.amount := by
    have hvalid := (rejectIf_eq_ok _ _ _).mp htokens
    simp only [not_or, Coin.isValid, Bool.not_eq_false, Bool.and_eq_true,
      decide_eq_true_eq] at hvalid
    exact hvalid.2.2
  simp only [MsgServer.issueTokens, bind_eq_ok] at h
  obtain ⟨_, _, _, _, h⟩ := h
  exact issueTokens_spends hl ha hn h

theorem step_spends (hl : getRateLimit s d = limit) (ha : limit.active = true) (op : Op)
    (hop : ∀ ctx, op ≠ .beginBlock ctx) : Spends limit d (issued env d s op) s (step env s op) := by
  have hbank (x : Except BankError (Bank A)) : SameWindow d s (orElseKeep s (withBank s x)) := by
    refine orElseKeep_rule (P := SameWindow d s) (SameWindow.refl d s) fun s' h => ?_
    exact SameWindow.withBank h
  cases op with
  | beginBlock ctx => exact absurd rfl (hop ctx)
  | send src dst amt => exact Spends.nothing limit (hbank _)
  | createVestingAccount src dst amt => exact Spends.nothing limit (hbank _)
  | vest a d' n => exact Spends.nothing limit (⟨rfl, rfl, rfl⟩)
  | deliver msg =>
    by_cases hm : ∀ m, msg ≠ .issueTokens m
    · have hz : issued env d s (.deliver msg) = 0 := by
        cases msg with
        | issueTokens m => exact absurd rfl (hm m)
        | redeemTokens _ | blockAddress _ | unblockAddress _ | setPauseStatus _ => rfl
      rw [hz]
      refine Spends.nothing limit
        (orElseKeep_rule (P := SameWindow d s) (SameWindow.refl d s) fun s' h => ?_)
      exact handle_sameWindow hm h
    · simp only [not_forall, not_not] at hm
      obtain ⟨m, rfl⟩ := hm
      rw [issued, step]
      rcases orElseKeep_cases s (handle env s (.issueTokens m)) with ⟨s', hok, e⟩ | ⟨_, e⟩
      · rw [e]
        exact handle_issue_spends hl ha hok
      · rw [e, sub_self]
        exact Spends.nothing limit (SameWindow.refl d s)

/-! ## The begin blocker -/

theorem seizeAsset_bank {asset : Asset} (h : seizeAsset env s asset = .ok s') :
    ∃ b, s' = { s with bank := b } := by
  unfold seizeAsset at h
  split at h
  · simp only [seizeCoinsFromBlockedAddresses, bind_eq_ok, pure_eq_ok] at h
    obtain ⟨_, _, b, _, rfl⟩ := h
    exact ⟨b, rfl⟩
  · cases h
    exact ⟨s.bank, rfl⟩

theorem seizeAssets_bank {assets : List Asset} (h : assets.foldlM (seizeAsset env) s = .ok s') :
    ∃ b, s' = { s with bank := b } := by
  induction assets generalizing s with
  | nil =>
    cases h
    exact ⟨_, rfl⟩
  | cons asset assets ih =>
    rw [List.foldlM_cons, bind_eq_ok] at h
    obtain ⟨s₁, h₁, h⟩ := h
    obtain ⟨b₁, rfl⟩ := seizeAsset_bank h₁
    obtain ⟨b, rfl⟩ := ih h
    exact ⟨b, rfl⟩

def turned (t : Duration) (asset : Asset) (supply : AssetSupply) : AssetSupply :=
  if asset.rateLimit.active = false then
    { supply with currentSupply := ⟨asset.denom, 0⟩, timeElapsed := 0 }
  else if supply.timeElapsed + t < asset.rateLimit.timePeriod then
    { supply with timeElapsed := supply.timeElapsed + t }
  else { supply with currentSupply := ⟨asset.denom, 0⟩, timeElapsed := 0 }

theorem get_foldl_turned (t : Duration) {assets : List Asset} (hn : (assets.map Asset.denom).Nodup)
    {asset : Asset} (hm : asset ∈ assets) (s : State A) :
    (assets.foldl (updateTimeBasedSupplyLimit t) s).supplies.get asset.denom =
      some (turned t asset ((s.supplies.get asset.denom).getD (zeroSupply asset.denom))) := by
  have hfold : (assets.foldl (updateTimeBasedSupplyLimit t) s).supplies =
      assets.foldl (fun supplies a =>
      supplies.set a.denom (turned t a ((supplies.get a.denom).getD (zeroSupply a.denom))))
        s.supplies :=
    (List.foldl_hom State.supplies fun _ _ => rfl).symm
  rw [hfold]
  exact KVStore.get_foldl_set Asset.denom (fun a sup => turned t a (sup.getD (zeroSupply a.denom)))
    hn hm s.supplies

theorem foldl_updateTimeBasedSupplyLimit_params (t : Duration) (assets : List Asset) (s : State A) :
    (assets.foldl (updateTimeBasedSupplyLimit t) s).params = s.params := by
  induction assets generalizing s with
  | nil => rfl
  | cons a assets ih => exact ih _

theorem getAsset_of_active (ha : (getRateLimit s d).active = true) :
    ∃ asset ∈ s.params.val.assets, asset.denom = d ∧ asset.rateLimit = getRateLimit s d := by
  rw [getRateLimit_eq] at ha ⊢
  cases hf : s.params.val.assets.find? fun asset => asset.denom = d with
  | none => simp [hf] at ha
  | some asset =>
    exact ⟨asset, List.mem_of_find?_eq_some hf, by simpa using List.find?_some hf, rfl⟩

theorem beginBlocker_supply {ctx : Ctx} (ha : (getRateLimit s d).active = true)
    (h : beginBlocker env ctx s = .ok s') :
    getRateLimit s' d = getRateLimit s d ∧ s'.previousBlockTime = some ctx.blockTime ∧
    ∃ asset, asset.rateLimit = getRateLimit s d ∧ s'.supplies.get d =
      some (turned (Time.sub ctx.blockTime (s.previousBlockTime.getD ctx.blockTime)) asset
        ((s.supplies.get d).getD (zeroSupply d))) := by
  simp only [beginBlocker, bind_eq_ok, pure_eq_ok] at h
  obtain ⟨s₁, h₁, s₂, h₂, rfl⟩ := h
  obtain ⟨b, rfl⟩ := seizeAssets_bank h₁
  rw [synchronizeBlockList_eq] at h₂
  cases h₂
  obtain ⟨asset, hm, rfl, hr⟩ := getAsset_of_active ha
  refine ⟨?_, rfl, asset, hr, ?_⟩
  · rw [getRateLimit_eq, getRateLimit_eq, updateTimeBasedSupplyLimits]
    dsimp only
    rw [foldl_updateTimeBasedSupplyLimit_params]
  · exact get_foldl_turned _ (validateAssets_denoms s.params.property).1 hm _

section
variable (hl : getRateLimit s d = limit) (ha : limit.active = true) {ctx : Ctx}
  (h : beginBlocker env ctx s = .ok s')
include hl ha h

theorem beginBlocker_resets (hr : Resets env d limit.timePeriod s (.beginBlock ctx)) :
    window s' d = 0 ∧ elapsedOf s' d = 0 := by
  subst hl
  obtain ⟨_, _, asset, hasset, hs⟩ := beginBlocker_supply ha h
  have hact : ¬ asset.rateLimit.active = false := by simp [hasset, ha]
  have hlate := hr.2
  rw [← hasset, elapsedOf] at hlate
  rw [window, elapsedOf, hs, Option.getD_some, turned, if_neg hact, if_neg hlate]
  exact ⟨rfl, rfl⟩

theorem beginBlocker_continues (hr : ¬ Resets env d limit.timePeriod s (.beginBlock ctx)) :
    window s' d = window s d ∧ elapsedOf s' d =
      elapsedOf s d + Time.sub ctx.blockTime (s.previousBlockTime.getD ctx.blockTime) := by
  subst hl
  obtain ⟨_, _, asset, hasset, hs⟩ := beginBlocker_supply ha h
  have hact : ¬ asset.rateLimit.active = false := by simp [hasset, ha]
  have hearly := not_not.mp fun hlate => hr ⟨⟨s', h⟩, hlate⟩
  rw [← hasset, elapsedOf] at hearly
  rw [window, elapsedOf, hs, Option.getD_some, turned, if_neg hact, if_pos hearly]
  exact ⟨rfl, rfl⟩

end

/-! ## Runs -/

def Since (d : Denom) (r : Option Int) (s : State A) (ops : List Op) : Prop :=
  ∀ t₀ : Int, r = some t₀ → ∃ t : Int, s.previousBlockTime = some t ∧ t₀ ≤ t ∧
  (elapsedOf s d).toInt = t - t₀ ∧
    ∀ t' ∈ blockTimes ops, t ≤ t' ∧ t' - t₀ < 2 ^ 63

theorem Since.tail {r : Option Int} {op : Op} {ops : List Op} (h : Since d r s (op :: ops))
    (he : elapsedOf s' d = elapsedOf s d) (ht : s'.previousBlockTime = s.previousBlockTime) :
    Since d r s' ops := by
  intro t₀ hr
  obtain ⟨t, hprev, hle, hel, hops⟩ := h t₀ hr
  refine ⟨t, ht.trans hprev, hle, ?_, fun t' ht' => hops t' (blockTimes_subset op ops t' ht')⟩
  rw [he]
  exact hel

theorem Since.elapsed {r : Option Int} {ctx : Ctx} {ops : List Op}
    (h : Since d r s (.beginBlock ctx :: ops)) {t₀ : Int} (hr : r = some t₀) :
    (elapsedOf s d + Time.sub ctx.blockTime (s.previousBlockTime.getD ctx.blockTime)).toInt =
      ctx.blockTime - t₀ ∧
    t₀ ≤ ctx.blockTime := by
  obtain ⟨t, ht, hle, he, hops⟩ := h t₀ hr
  obtain ⟨hle', hlt⟩ := hops ctx.blockTime List.mem_cons_self
  rw [ht, Option.getD_some]
  exact ⟨Time.toInt_add_sub he hle hle' hlt, le_trans hle hle'⟩

structure RateInv (limit : RateLimit) (d : Denom) (s : State A) : Prop where
  limited : getRateLimit s d = limit
  active : limit.active = true

theorem RateInv.block_resets {ctx : Ctx} (h : RateInv limit d s)
    (hr : Resets env d limit.timePeriod s (.beginBlock ctx)) :
    RateInv limit d (step env s (.beginBlock ctx)) ∧ window (step env s (.beginBlock ctx)) d = 0 ∧
    elapsedOf (step env s (.beginBlock ctx)) d = 0 ∧
    (step env s (.beginBlock ctx)).previousBlockTime = some ctx.blockTime := by
  obtain ⟨s', hok⟩ := hr.1
  have hstep : step env s (.beginBlock ctx) = s' := by rw [step, hok, orElseKeep]
  rw [hstep]
  obtain ⟨hwin, hel⟩ := beginBlocker_resets h.limited h.active hok hr
  obtain ⟨hl, hprev, _⟩ := beginBlocker_supply (by rw [h.limited]; exact h.active) hok
  exact ⟨⟨hl.trans h.limited, h.active⟩, hwin, hel, hprev⟩

theorem RateInv.block_continues {ctx : Ctx} {r : Option Int} {ops : List Op} (h : RateInv limit d s)
    (hr : ¬ Resets env d limit.timePeriod s (.beginBlock ctx))
    (hs : Since d r s (.beginBlock ctx :: ops)) (ht : ∀ t ∈ blockTimes ops, ctx.blockTime ≤ t) :
    RateInv limit d (step env s (.beginBlock ctx)) ∧ window (step env s (.beginBlock ctx)) d =
      window s d ∧
    Since d r (step env s (.beginBlock ctx)) ops := by
  rcases orElseKeep_cases s (beginBlocker env ctx s) with ⟨s', hok, e⟩ | ⟨_, e⟩
  · rw [step, e]
    obtain ⟨hwin, hel⟩ := beginBlocker_continues h.limited h.active hok hr
    obtain ⟨hl, hprev, _⟩ := beginBlocker_supply (by rw [h.limited]; exact h.active) hok
    refine ⟨⟨hl.trans h.limited, h.active⟩, hwin, fun t₀ hr₀ => ?_⟩
    obtain ⟨hsum, hle⟩ := hs.elapsed hr₀
    obtain ⟨_, _, _, _, hops⟩ := hs t₀ hr₀
    refine ⟨ctx.blockTime, hprev, hle, by rw [hel, hsum], fun t ht' => ⟨ht t ht', ?_⟩⟩
    exact (hops t (blockTimes_subset _ ops t ht')).2
  · rw [step, e]
    exact ⟨h, rfl, hs.tail rfl rfl⟩

structure Running (limit : RateLimit) (d : Denom) (r : Option Int) (now : Int) (s : State A)
    (ops : List Op) : Prop
    extends RateInv limit d s where
  since : Since d r s ops
  timely : Timely now ops

section
variable {r : Option Int} {now : Int} {ops : List Op}

theorem Running.spend {op : Op} (h : Running limit d r now s (op :: ops))
    (hop : ∀ ctx, op ≠ .beginBlock ctx) :
    Turn (max 0 limit.limit) limit.timePeriod.toInt (window s d) (window (step env s op) d) r
      (fun r' => Running limit d r' (op.time now) (step env s op) ops)
        (tick env d limit.timePeriod now s op) := by
  have hsp : Spends limit d (issued env d s op) s (step env s op) :=
    step_spends h.limited h.active op hop
  have hnr : ¬ Resets env d limit.timePeriod s op := by
    cases op with
    | beginBlock ctx => exact absurd rfl (hop ctx)
    | deliver _ | send _ _ _ | createVestingAccount _ _ _ | vest _ _ _ => exact id
  rw [tick, if_neg hnr]
  refine .spend hsp.nonneg (fun hpos => le_trans (hsp.bound hpos) (le_max_right _ _)) hsp.window ?_
  exact ⟨⟨hsp.rate.trans h.limited, h.active⟩, h.since.tail hsp.elapsed hsp.time, h.timely.tail.2⟩

theorem Running.block {ctx : Ctx} (h : Running limit d r now s (.beginBlock ctx :: ops)) :
    Turn (max 0 limit.limit) limit.timePeriod.toInt (window s d)
      (window (step env s (.beginBlock ctx)) d) r
      (fun r' => Running limit d r' ctx.blockTime (step env s (.beginBlock ctx)) ops)
      (tick env d limit.timePeriod now s (.beginBlock ctx)) := by
  have ht : Timely ctx.blockTime ops := h.timely.tail.2
  have hlater := (List.pairwise_cons.mp ht).1
  rw [tick]
  by_cases hres : Resets env d limit.timePeriod s (.beginBlock ctx)
  · obtain ⟨hi, hwin, hel, hprev⟩ := h.block_resets hres
    have hs' : Since d (some ctx.blockTime) (step env s (.beginBlock ctx)) ops := by
      intro t₀ hr₀
      cases hr₀
      refine ⟨ctx.blockTime, hprev, le_refl _, ?_, hlater⟩
      rw [hel, sub_self]
      rfl
    rw [if_pos hres]
    refine .reset (fun t₀ hr₀ => ?_) hwin ⟨hi, hs', ht⟩
    obtain ⟨hsum, _⟩ := h.since.elapsed hr₀
    have hge : ¬ _ < limit.timePeriod.toInt := fun hlt => hres.2 (Int64.lt_iff_toInt_lt.mpr hlt)
    rw [hsum] at hge
    change t₀ + _ ≤ ctx.blockTime
    omega
  · obtain ⟨hi, hwin, hs'⟩ := h.block_continues hres h.since fun t ht => (hlater t ht).1
    rw [if_neg hres]
    exact .spend (le_refl 0) (fun hpos => absurd hpos (lt_irrefl 0)) (hwin.trans (add_zero _).symm)
      ⟨hi, hs', ht⟩

theorem Running.paced (h : Running limit d r now s ops) :
    Paced (max 0 limit.limit) limit.timePeriod.toInt (window s d) r
      (ticks env d limit.timePeriod now s ops) := by
  have hturn : ∀ (r : Option Int) (p : Int × State A) (op : Op) (ops : List Op),
      Running limit d r p.1 p.2 (op :: ops) →
      Turn (max 0 limit.limit) limit.timePeriod.toInt (window p.2 d) (window (step env p.2 op) d) r
        (fun r' => Running limit d r' (op.time p.1) (step env p.2 op) ops)
          (tick env d limit.timePeriod p.1 p.2 op) := by
    intro r p op ops h
    by_cases hop : ∀ ctx, op ≠ .beginBlock ctx
    · exact h.spend hop
    · simp only [not_forall, not_not] at hop
      obtain ⟨ctx, rfl⟩ := hop
      exact h.block
  exact Paced.of_turns (fun p op => (op.time p.1, step env p.2 op))
    (fun p op => tick env d limit.timePeriod p.1 p.2 op)
    (fun p => window p.2 d) (fun r p ops => Running limit d r p.1 p.2 ops)
    (fun p ops => ticks env d limit.timePeriod p.1 p.2 ops) (fun _ => rfl) (fun _ _ _ => rfl) hturn
      (s := (now, s)) h

end

theorem tick_time (env : Env) (d : Denom) (period : Duration) (now : Int) (s : State A) (op : Op) :
    (tick env d period now s op).time = op.time now := by
  unfold tick
  split <;> rfl

theorem ticks_after {period : Duration} {now : Int} {ops : List Op} (ht : Timely now ops)
    (s : State A) :
    ∀ x ∈ ticks env d period now s ops, now ≤ x.time := by
  induction ops generalizing now s with
  | nil =>
    intro x hx
    cases hx
  | cons op ops ih =>
    obtain ⟨hle, ht'⟩ := ht.tail
    intro x hx
    rcases List.mem_cons.mp hx with rfl | hx
    · rw [tick_time]
      exact hle
    · exact le_trans hle (ih ht' _ x hx)

theorem ticks_sorted {period : Duration} {now : Int} {ops : List Op} (ht : Timely now ops)
    (s : State A) :
    (ticks env d period now s ops).Pairwise fun x y => x.time ≤ y.time := by
  induction ops generalizing now s with
  | nil => exact List.Pairwise.nil
  | cons op ops ih =>
    obtain ⟨_, ht'⟩ := ht.tail
    refine List.pairwise_cons.mpr ⟨fun x hx => ?_, ih ht' _⟩
    rw [tick_time]
    exact ticks_after ht' _ x hx

/-- In every run from a state with nothing counted, the windows of an asset with an active
limit begin at least its time period apart, what is issued in a window is within its limit,
what is issued in less than a time period is within twice that, and redeemed tokens leave
the window as it was. A limit below zero counts as zero. -/
theorem issue_rate_limited (env : Env) (s₀ : State A) (asset : Asset)
    (hm : asset ∈ s₀.params.val.assets)
    (ha : asset.rateLimit.active = true) (h₀ : window s₀ asset.denom = 0) (now : Int)
    (ops : List Op) (ht : Timely now ops) :
    (∀ pre t₁ mid t₂ post, ticks env asset.denom asset.rateLimit.timePeriod now s₀ ops =
        pre ++ .reset t₁ :: (mid ++ .reset t₂ :: post) → (∀ x ∈ mid, x.IsSpend) →
      t₁ + asset.rateLimit.timePeriod.toInt ≤ t₂ ∧ spent mid ≤ max 0 asset.rateLimit.limit) ∧
    (∀ a b, b - a < asset.rateLimit.timePeriod.toInt →
      spentWithin a b (ticks env asset.denom asset.rateLimit.timePeriod now s₀ ops) ≤ 2 *
        max 0 asset.rateLimit.limit) ∧
    ∀ (s : State A) (msg : MsgRedeemTokens),
      window (step env s (.deliver (.redeemTokens msg))) asset.denom = window s asset.denom ∧
      elapsedOf (step env s (.deliver (.redeemTokens msg))) asset.denom =
        elapsedOf s asset.denom := by
  have hi : RateInv asset.rateLimit asset.denom s₀ :=
    ⟨getRateLimit_of_getAsset (getAsset_mem s₀ hm), ha⟩
  have hlim : 0 ≤ max 0 asset.rateLimit.limit := le_max_left _ _
  have hs : Since asset.denom none s₀ ops := by
    intro t₀ e
    cases e
  have hp : Paced (max 0 asset.rateLimit.limit) asset.rateLimit.timePeriod.toInt
      (window s₀ asset.denom) none
      (ticks env asset.denom asset.rateLimit.timePeriod now s₀ ops) := Running.paced ⟨hi, hs, ht⟩
  refine ⟨fun pre t₁ mid t₂ post e hmid => ?_, fun a b hab => ?_, fun s msg => ?_⟩
  · rw [e] at hp
    obtain ⟨hperiod, hspent⟩ := (hp.after_reset pre).next_reset hlim hmid
    exact ⟨hperiod, by omega⟩
  · exact hp.within hlim (le_of_eq h₀.symm) (ticks_sorted ht s₀) hab
  · have hsame : SameWindow asset.denom s (step env s (.deliver (.redeemTokens msg))) := by
      refine orElseKeep_rule (P := SameWindow asset.denom s) (SameWindow.refl _ s) fun s' h => ?_
      exact handle_sameWindow (fun m e => by cases e) h
    exact ⟨hsame.window, hsame.elapsed⟩

def hourlyAsset (limit : Int) : Asset :=
  ⟨ownerText, "usdx", [], false, false, ⟨true, limit, 3600000000000⟩⟩

theorem hourlyAsset_valid (limit : Int) : Params.validate ⟨[hourlyAsset limit]⟩ = .ok () := by
  have hd : validateDenom "usdx" = true := by decide
  simp [Params.validate, validateAssets, Asset.validate, hourlyAsset, rejectIf, ownerText, hd]

def hourlyState (limit : Int) : State chainAddrs where
  params := ⟨⟨[hourlyAsset limit]⟩, hourlyAsset_valid limit⟩
  supplies := KVStore.empty.set "usdx" (zeroSupply "usdx")
  previousBlockTime := none
  bank := Bank.empty

def issueSixty : Op := .deliver (.issueTokens ⟨ownerText, ⟨"usdx", 60⟩, ownerText⟩)

def hourlyRun : List Op :=
  [.beginBlock (.atHeight 1 0), issueSixty,
    .deliver (.redeemTokens ⟨ownerText, ⟨"usdx", 60⟩⟩), issueSixty,
    .beginBlock (.atHeight 2 3600000000000), issueSixty, .beginBlock (.atHeight 3 7200000000000)]

theorem hourlyState_window (limit : Int) : window (hourlyState limit) "usdx" = 0 := by
  simp [window, hourlyState, zeroSupply]

theorem hourlyRun_timely : Timely 0 hourlyRun := by
  unfold Timely hourlyRun
  decide

/-- Nothing is issued with a limit below zero, but that is more than the limit. -/
theorem negative_limit_exceeded :
    hourlyAsset (-1) ∈ (hourlyState (-1)).params.val.assets ∧
    (hourlyAsset (-1)).rateLimit.active = true ∧
    window (hourlyState (-1)) "usdx" = 0 ∧ Timely 0 hourlyRun ∧
    ticks sampleEnv "usdx" 3600000000000 0 (hourlyState (-1)) hourlyRun =
      [.spend 0 0, .spend 0 0, .spend 0 0, .spend 0 0, .reset 3600000000000, .spend 3600000000000 0,
        .reset 7200000000000] ∧
    ¬ spent [.spend 3600000000000 0] ≤ (hourlyAsset (-1)).rateLimit.limit ∧
    ¬ spentWithin 0 0 (ticks sampleEnv "usdx" 3600000000000 0 (hourlyState (-1)) hourlyRun) ≤
      2 * (hourlyAsset (-1)).rateLimit.limit :=
  ⟨List.mem_cons_self, rfl, hourlyState_window (-1),
    hourlyRun_timely, by decide +kernel, by decide, by decide +kernel⟩

theorem issue_rate_limited_hourly :
    ticks sampleEnv "usdx" 3600000000000 0 (hourlyState 100) hourlyRun =
      [.spend 0 0, .spend 0 60, .spend 0 0, .spend 0 0, .reset 3600000000000,
        .spend 3600000000000 60,
        .reset 7200000000000] ∧
    spent [.spend 3600000000000 60] ≤ max 0 (hourlyAsset 100).rateLimit.limit := by
  have hticks : ticks sampleEnv "usdx" 3600000000000 0 (hourlyState 100) hourlyRun =
      [.spend 0 0, .spend 0 60, .spend 0 0, .spend 0 0, .reset 3600000000000,
        .spend 3600000000000 60,
        .reset 7200000000000] := by decide +kernel
  have hlimited :=
    (issue_rate_limited sampleEnv (hourlyState 100) (hourlyAsset 100) List.mem_cons_self rfl
    (hourlyState_window 100) 0 hourlyRun hourlyRun_timely).1
  have hspends : ∀ x ∈ [Tick.spend 3600000000000 60], x.IsSpend := by
    intro x hx
    rw [List.mem_singleton.mp hx]
    trivial
  have hwindow := hlimited [.spend 0 0, .spend 0 60, .spend 0 0, .spend 0 0] 3600000000000
    [.spend 3600000000000 60]
    7200000000000 [] hticks hspends
  exact ⟨hticks, hwindow.2⟩

end ZgChain.Issuance
