import ZgChain.Issuance.Genesis

/-!
# The issue rate limit across restarts

A chain is restarted from its own export at any point of a run, and as often as one likes.
The export is always accepted, and all it forgets is the time of the last block, so the
first block after a restart adds nothing to the windows. Windows get longer by that, never
shorter, and the limits hold over the whole run.
-/

namespace ZgChain.Issuance

open FixedWindow

variable {A : ModuleAddrs} {env : Env} {s s₁ s' : State A} {d : Denom} {limit : RateLimit}

inductive Event where
  | op (op : Op)
  | restart

def restart (s : State A) : Except Error (State A) := initGenesis s.bank (exportGenesis s)

namespace Event

def step (env : Env) (s : State A) : Event → State A
  | op o => Issuance.step env s o
  | restart => orElseKeep s (Issuance.restart s)

def run (env : Env) (s : State A) (events : List Event) : State A := runSteps (step env) s events

def op? : Event → Option Op
  | op o => some o
  | restart => none

def ops (events : List Event) : List Op := events.filterMap op?

def time (now : Int) : Event → Int
  | op o => o.time now
  | restart => now

/-- Nothing is issued by a restart. -/
def tick (env : Env) (d : Denom) (period : Duration) (now : Int) (s : State A) : Event → Tick
  | op o => Issuance.tick env d period now s o
  | restart => .spend now 0

def ticks (env : Env) (d : Denom) (period : Duration) (now : Int) (s : State A) :
    List Event → List Tick
  | [] => []
  | e :: events =>
    e.tick env d period now s :: ticks env d period (e.time now) (e.step env s) events

end Event

/-! ## Every reachable state can be exported -/

theorem Exportable.of_sameWindow (h : Exportable s) (hsame : ∀ d, SameWindow d s s') :
    Exportable s' where
  denoms d supply hd := h.denoms d supply ((hsame d).supply ▸ hd)
  valid d supply hd := h.valid d supply ((hsame d).supply ▸ hd)
  counted d hactive := by
    rw [(hsame d).supply]
    exact h.counted d ((hsame d).limit ▸ hactive)

theorem Coin.add_valid {a b c : Coin} (h : a.add b = some c) (ha : a.isValid = true)
    (hb : 0 ≤ b.amount) :
    c.isValid = true ∧ c.denom = a.denom := by
  unfold Coin.add at h
  split at h
  · cases h
    simp only [Coin.isValid, Bool.and_eq_true, decide_eq_true_eq] at ha ⊢
    exact ⟨⟨ha.1, add_nonneg ha.2 hb⟩, trivial⟩
  · cases h

theorem incrementCurrentAssetSupply_exportable {coin : Coin} (h : Exportable s)
    (hn : 0 ≤ coin.amount)
    (hinc : incrementCurrentAssetSupply s coin = .ok s') : Exportable s' := by
  simp only [incrementCurrentAssetSupply, bind_eq_ok, orReject_eq_ok] at hinc
  obtain ⟨supply, hs, hinc⟩ := hinc
  split at hinc
  · simp only [bind_eq_ok, orReject_eq_ok, pure_eq_ok] at hinc
    obtain ⟨_, _, increased, hadd, _, _, _, _, rfl⟩ := hinc
    obtain ⟨hvalid, hdenom⟩ := Coin.add_valid hadd (h.valid _ _ hs) hn
    have hset : SuppliesOk (setAssetSupply s ⟨increased, supply.timeElapsed⟩ coin.denom) :=
      @SuppliesOk.set _ s h.toSuppliesOk ⟨increased, supply.timeElapsed⟩ hvalid _
        (hdenom.trans (h.denoms _ _ hs))
    refine ⟨hset, fun d hactive => ?_⟩
    rw [setAssetSupply, KVStore.get_set]
    split
    · exact Option.some_ne_none _
    · exact h.counted d hactive
  · cases hinc
    exact h

theorem issueTokens_exportable {tokens : Coin} {owner receiver : Addr} (h : Exportable s)
    (hn : 0 ≤ tokens.amount)
    (hissue : issueTokens env s tokens owner receiver = .ok s') : Exportable s' := by
  simp only [issueTokens, bind_eq_ok] at hissue
  obtain ⟨_, _, _, _, _, _, _, _, _, _, s₁, h₁, s₂, h₂, h₃⟩ := hissue
  have hcounted : Exportable s₁ := by
    split at h₁
    · exact incrementCurrentAssetSupply_exportable h hn h₁
    · cases h₁
      exact h
  exact hcounted.of_sameWindow fun d => (SameWindow.withBank h₂).trans (SameWindow.withBank h₃)

theorem handle_exportable {msg : Msg} (h : Exportable s) (hmsg : handle env s msg = .ok s') :
    Exportable s' := by
  cases msg with
  | issueTokens m =>
    obtain ⟨_, hv, hmsg⟩ := (bind_eq_ok _ _ _).mp hmsg
    simp only [Msg.validateBasic, MsgIssueTokens.validateBasic, bind_eq_ok] at hv
    obtain ⟨_, _, _, htokens, _⟩ := hv
    have hvalid := (rejectIf_eq_ok _ _ _).mp htokens
    simp only [not_or, Coin.isValid, Bool.not_eq_false, Bool.and_eq_true,
      decide_eq_true_eq] at hvalid
    simp only [MsgServer.issueTokens, bind_eq_ok] at hmsg
    obtain ⟨_, _, _, _, hmsg⟩ := hmsg
    exact issueTokens_exportable h hvalid.2.2 hmsg
  | _ => exact h.of_sameWindow fun d => handle_sameWindow (fun m e => by cases e) hmsg

theorem updateTimeBasedSupplyLimit_ok {asset : Asset} (h : SuppliesOk s)
    (hd : validateDenom asset.denom = true)
    (t : Duration) : SuppliesOk (updateTimeBasedSupplyLimit t s asset) := by
  have hsupply : ((s.supplies.get asset.denom).getD
      (zeroSupply asset.denom)).currentSupply.isValid = true ∧
      ((s.supplies.get asset.denom).getD (zeroSupply asset.denom)).getDenom = asset.denom := by
    cases hs : s.supplies.get asset.denom with
    | none => exact ⟨zeroSupply_valid hd, rfl⟩
    | some supply => exact ⟨h.valid _ _ hs, h.denoms _ _ hs⟩
  unfold updateTimeBasedSupplyLimit
  dsimp only
  split
  · exact h.set (zeroSupply_valid hd) rfl
  · split
    · refine h.set ?_ ?_
      · exact hsupply.1
      · exact hsupply.2
    · exact h.set (zeroSupply_valid hd) rfl

theorem updateTimeBasedSupplyLimits_ok (h : SuppliesOk s) (ctx : Ctx) :
    SuppliesOk (updateTimeBasedSupplyLimits ctx s) := by
  have hfold : ∀ (t : Duration) (assets : List Asset) (s : State A), SuppliesOk s →
      (∀ asset ∈ assets, validateDenom asset.denom = true) →
      SuppliesOk (assets.foldl (updateTimeBasedSupplyLimit t) s) := by
    intro t assets
    induction assets with
    | nil => exact fun s h _ => h
    | cons asset assets ih =>
      intro s h hd
      exact ih _ (updateTimeBasedSupplyLimit_ok h (hd asset (by simp)) t) fun a ha => hd a
        (by simp [ha])
  have hd : ∀ asset ∈ s.params.val.assets, validateDenom asset.denom = true :=
    fun asset ha => (Asset.validate_ok (validateAssets_mem s.params.property ha)).1
  obtain ⟨hdenoms, hvalid⟩ :=
    hfold (Time.sub ctx.blockTime (s.previousBlockTime.getD ctx.blockTime)) _ s h hd
  exact ⟨hdenoms, hvalid⟩

theorem beginBlocker_exportable {ctx : Ctx} (h : Exportable s)
    (hbegin : beginBlocker env ctx s = .ok s') :
    Exportable s' := by
  have hsupplies : SuppliesOk s' ∧ s'.params = s.params := by
    simp only [beginBlocker, synchronizeBlockList_eq, bind_eq_ok, pure_eq_ok] at hbegin
    obtain ⟨s₁, h₁, s₂, h₂, rfl⟩ := hbegin
    cases h₂
    obtain ⟨b, rfl⟩ := seizeAssets_bank h₁
    refine ⟨updateTimeBasedSupplyLimits_ok ?_ ctx, foldl_updateTimeBasedSupplyLimit_params _ _ _⟩
    exact ⟨h.denoms, h.valid⟩
  refine ⟨hsupplies.1, fun d hactive => ?_⟩
  have hlimit : getRateLimit s' d = getRateLimit s d := by
    rw [getRateLimit_eq, getRateLimit_eq, hsupplies.2]
  obtain ⟨_, _, asset, _, hs⟩ := beginBlocker_supply (hlimit ▸ hactive) hbegin
  rw [hs]
  exact Option.some_ne_none _

theorem restart_eq (h : Exportable s) : restart s =
    .ok { s with previousBlockTime := none, bank := s.bank.setAccount (A.addr .issuance) } :=
  initGenesis_exportGenesis h

theorem Event.step_restart (h : Exportable s) : Event.restart.step env s =
    { s with previousBlockTime := none, bank := s.bank.setAccount (A.addr .issuance) } := by
  rw [Event.step, restart_eq h, orElseKeep]

theorem Event.step_exportable (h : Exportable s) (e : Event) : Exportable (e.step env s) := by
  have hbank (x : Except BankError (Bank A)) : Exportable (orElseKeep s (withBank s x)) := by
    refine orElseKeep_rule (P := Exportable) h fun s' hs => ?_
    exact h.of_sameWindow fun d => SameWindow.withBank hs
  cases e with
  | restart =>
    rw [step_restart h]
    exact ⟨⟨h.denoms, h.valid⟩, h.counted⟩
  | op o =>
    cases o with
    | deliver msg => exact orElseKeep_rule (P := Exportable) h fun s' hs => handle_exportable h hs
    | send src dst amt => exact hbank _
    | createVestingAccount src dst amt => exact hbank _
    | vest a d n => exact h.of_sameWindow fun _ => ⟨rfl, rfl, rfl⟩
    | beginBlock ctx =>
      exact orElseKeep_rule (P := Exportable) h fun s' hs => beginBlocker_exportable h hs

theorem Event.run_exportable (h : Exportable s) (events : List Event) :
    Exportable (Event.run env s events) := by
  have hstep : ∀ (s : State A) (e : Event), True → Exportable s → Exportable (e.step env s) :=
    fun s e _ hs => Event.step_exportable hs e
  exact runSteps_inv _ hstep h events fun _ _ => trivial

/-- Whatever has happened since the chain was started, restarts included, its export is
accepted, and loading it gives back the parameters, every counted supply and the coins. -/
theorem issuance_restores (env : Env) {bank : Bank A} {gs : GenesisState} {s₀ : State A}
    (h : initGenesis bank gs = .ok s₀) (events : List Event) :
    initGenesis (Event.run env s₀ events).bank (exportGenesis (Event.run env s₀ events)) =
      .ok { Event.run env s₀ events with
        previousBlockTime := none
        bank := (Event.run env s₀ events).bank.setAccount (A.addr .issuance) } :=
  initGenesis_exportGenesis (Event.run_exportable (initGenesis_exportable h).1 events)

def hourlyGenesis : GenesisState := ⟨⟨[hourlyAsset 100]⟩, []⟩

/-- The chain is restarted within a window. -/
def hourlyEvents : List Event :=
  [.op (.beginBlock (.atHeight 1 0)), .op issueSixty, .op (.beginBlock (.atHeight 2 3600000000000)),
    .op issueSixty, .restart,
    .op issueSixty, .op (.beginBlock (.atHeight 3 7200000000000)), .op issueSixty,
    .op (.beginBlock (.atHeight 4 10800000000000))]

theorem hourlyEvents_timely : Timely 0 (Event.ops hourlyEvents) := by
  unfold Timely hourlyEvents
  decide

def hourlyLoaded : State chainAddrs :=
  orElseKeep (emptyStore Bank.empty) (initGenesis Bank.empty hourlyGenesis)

theorem hourlyGenesis_loads : initGenesis Bank.empty hourlyGenesis = .ok hourlyLoaded := by
  refine eq_ok_orElseKeep
    ⟨_, initGenesis_iff.mpr ⟨fun supply hm => ?_, hourlyAsset_valid 100, rfl⟩⟩ _
  cases hm

theorem issuance_restores_hourly : initGenesis Bank.empty hourlyGenesis = .ok hourlyLoaded ∧
    initGenesis (Event.run sampleEnv hourlyLoaded hourlyEvents).bank
        (exportGenesis (Event.run sampleEnv hourlyLoaded hourlyEvents)) =
      .ok { Event.run sampleEnv hourlyLoaded hourlyEvents with
        previousBlockTime := none
        bank := (Event.run sampleEnv hourlyLoaded hourlyEvents).bank.setAccount
          (chainAddrs.addr .issuance) } :=
  ⟨hourlyGenesis_loads, issuance_restores sampleEnv hourlyGenesis_loads hourlyEvents⟩

/-! ## Windows across restarts -/

/-- A window that began at `t₀` has counted no more time than has passed since then. After a
restart the time of the last block is not known. -/
def Within (d : Denom) (r : Option Int) (s : State A) (ops : List Op) : Prop :=
  ∀ t₀ : Int, r = some t₀ → ∃ t : Int, (∀ t', s.previousBlockTime = some t' → t' = t) ∧
    0 ≤ (elapsedOf s d).toInt ∧ (elapsedOf s d).toInt ≤ t - t₀ ∧ ∀ t' ∈ blockTimes ops, t ≤ t' ∧
    t' - t₀ < 2 ^ 63

theorem Within.tail {r : Option Int} {ops ops' : List Op} (h : Within d r s ops)
    (he : elapsedOf s' d = elapsedOf s d)
    (ht : ∀ t, s'.previousBlockTime = some t → s.previousBlockTime = some t)
    (hops : ∀ t ∈ blockTimes ops', t ∈ blockTimes ops) : Within d r s' ops' := by
  intro t₀ hr
  obtain ⟨t, hprev, hnonneg, hle, hlater⟩ := h t₀ hr
  refine ⟨t, fun t' ht' => hprev t' (ht t' ht'), ?_, ?_, fun t' ht' => hlater t' (hops t' ht')⟩
  · rw [he]
    exact hnonneg
  · rw [he]
    exact hle

theorem toInt_add_sub_of_nonneg {elapsed : Duration} {t now : Int} (hn : 0 ≤ elapsed.toInt)
    (h : t ≤ now) (hlt : elapsed.toInt + (now - t) < 2 ^ 63) :
    (elapsed + Time.sub now t).toInt = elapsed.toInt + (now - t) := by
  have hstart : elapsed.toInt = t - (t - elapsed.toInt) := by omega
  have hsum := Time.toInt_add_sub hstart (by omega) h (by omega)
  omega

/-- What a block adds to the time of the window. -/
theorem Within.elapsed {r : Option Int} {ctx : Ctx} {ops : List Op}
    (h : Within d r s (.beginBlock ctx :: ops)) {t₀ : Int} (hr : r = some t₀) :
    0 ≤ (elapsedOf s d + Time.sub ctx.blockTime (s.previousBlockTime.getD ctx.blockTime)).toInt ∧
    (elapsedOf s d + Time.sub ctx.blockTime (s.previousBlockTime.getD ctx.blockTime)).toInt ≤
      ctx.blockTime - t₀ := by
  obtain ⟨t, hprev, hnonneg, hle, hlater⟩ := h t₀ hr
  obtain ⟨hlet, hlt⟩ := hlater ctx.blockTime List.mem_cons_self
  cases hp : s.previousBlockTime with
  | none =>
    have hsum := toInt_add_sub_of_nonneg hnonneg (le_refl ctx.blockTime) (by omega)
    rw [Option.getD_none]
    omega
  | some t' =>
    obtain rfl := hprev t' hp
    have hsum := toInt_add_sub_of_nonneg hnonneg hlet (by omega)
    rw [Option.getD_some]
    omega

structure Restarting (limit : RateLimit) (d : Denom) (r : Option Int) (now : Int) (s : State A)
    (events : List Event) : Prop
    extends RateInv limit d s where
  exportable : Exportable s
  within : Within d r s (Event.ops events)
  timely : Timely now (Event.ops events)

section
variable {r : Option Int} {now : Int} {events : List Event}

theorem Restarting.restart (h : Restarting limit d r now s (.restart :: events)) :
    Turn (max 0 limit.limit) limit.timePeriod.toInt (window s d)
      (window (Event.restart.step env s) d) r
      (fun r' => Restarting limit d r' now (Event.restart.step env s) events) (.spend now 0) := by
  have hstep : Event.restart.step env s = _ := Event.step_restart h.exportable
  have hkept : Exportable (Event.restart.step env s) := Event.step_exportable h.exportable .restart
  rw [hstep] at hkept ⊢
  refine .spend (le_refl 0) (fun hpos => absurd hpos (lt_irrefl 0)) (add_zero _).symm ?_
  exact ⟨⟨h.limited, h.active⟩, hkept, h.within.tail rfl (fun t ht => nomatch ht) fun t ht =>
    ht, h.timely⟩

theorem Restarting.spend {op : Op} (h : Restarting limit d r now s (.op op :: events))
    (hop : ∀ ctx, op ≠ .beginBlock ctx) :
    Turn (max 0 limit.limit) limit.timePeriod.toInt (window s d) (window (step env s op) d) r
      (fun r' => Restarting limit d r' (op.time now) (step env s op) events)
        (tick env d limit.timePeriod now s op) := by
  have hsp : Spends limit d (issued env d s op) s (step env s op) :=
    step_spends h.limited h.active op hop
  have hnr : ¬ Resets env d limit.timePeriod s op := by
    cases op with
    | beginBlock ctx => exact absurd rfl (hop ctx)
    | deliver _ | send _ _ _ | createVestingAccount _ _ _ | vest _ _ _ => exact id
  rw [tick, if_neg hnr]
  refine .spend hsp.nonneg (fun hpos => le_trans (hsp.bound hpos) (le_max_right _ _)) hsp.window ?_
  refine ⟨⟨hsp.rate.trans h.limited, h.active⟩, Event.step_exportable h.exportable (.op op), ?_,
    h.timely.tail.2⟩
  exact h.within.tail hsp.elapsed (fun t ht => hsp.time ▸ ht) (blockTimes_subset op _)

theorem Restarting.block_continues {ctx : Ctx}
    (h : Restarting limit d r now s (.op (.beginBlock ctx) :: events))
    (hres : ¬ Resets env d limit.timePeriod s (.beginBlock ctx)) :
    RateInv limit d (step env s (.beginBlock ctx)) ∧ window (step env s (.beginBlock ctx)) d =
      window s d ∧
    Within d r (step env s (.beginBlock ctx)) (Event.ops events) := by
  have hlater := (List.pairwise_cons.mp h.timely.tail.2).1
  rcases orElseKeep_cases s (beginBlocker env ctx s) with ⟨s', hok, e⟩ | ⟨_, e⟩
  · rw [step, e]
    obtain ⟨hwin, hel⟩ := beginBlocker_continues h.limited h.active hok hres
    obtain ⟨hl, hprev, _⟩ := beginBlocker_supply (by rw [h.limited]; exact h.active) hok
    refine ⟨⟨hl.trans h.limited, h.active⟩, hwin, fun t₀ hr₀ => ?_⟩
    obtain ⟨hnonneg, hle⟩ := h.within.elapsed hr₀
    obtain ⟨_, _, _, _, hops⟩ := h.within t₀ hr₀
    rw [← hel] at hnonneg hle
    refine ⟨ctx.blockTime, fun t' ht' => ?_, hnonneg, hle, fun t' ht' => ⟨(hlater t' ht').1, ?_⟩⟩
    · rw [hprev] at ht'
      exact (Option.some.inj ht').symm
    · exact (hops t' (blockTimes_subset _ _ t' ht')).2
  · rw [step, e]
    exact ⟨h.toRateInv, rfl, h.within.tail rfl (fun t ht => ht) (blockTimes_subset _ _)⟩

theorem Restarting.block {ctx : Ctx}
    (h : Restarting limit d r now s (.op (.beginBlock ctx) :: events)) :
    Turn (max 0 limit.limit) limit.timePeriod.toInt (window s d)
      (window (step env s (.beginBlock ctx)) d) r
      (fun r' => Restarting limit d r' ctx.blockTime (step env s (.beginBlock ctx)) events)
      (tick env d limit.timePeriod now s (.beginBlock ctx)) := by
  have ht : Timely ctx.blockTime (Event.ops events) := h.timely.tail.2
  have hlater := (List.pairwise_cons.mp ht).1
  have hkept : Exportable (step env s (.beginBlock ctx)) :=
    Event.step_exportable h.exportable (.op (.beginBlock ctx))
  rw [tick]
  by_cases hres : Resets env d limit.timePeriod s (.beginBlock ctx)
  · obtain ⟨hi, hwin, hel, hprev⟩ := h.block_resets hres
    have hs' : Within d (some ctx.blockTime) (step env s (.beginBlock ctx)) (Event.ops events) := by
      intro t₀ hr₀
      cases hr₀
      refine ⟨ctx.blockTime, fun t' ht' => ?_, ?_, ?_, hlater⟩
      · rw [hprev] at ht'
        exact (Option.some.inj ht').symm
      · rw [hel]
        decide
      · rw [hel, sub_self]
        decide
    rw [if_pos hres]
    refine .reset (fun t₀ hr₀ => ?_) hwin ⟨hi, hkept, hs', ht⟩
    obtain ⟨_, hsum⟩ := h.within.elapsed hr₀
    have hge : ¬ _ < limit.timePeriod.toInt := fun hlt => hres.2 (Int64.lt_iff_toInt_lt.mpr hlt)
    change t₀ + _ ≤ ctx.blockTime
    omega
  · obtain ⟨hi, hwin, hs'⟩ := h.block_continues hres
    rw [if_neg hres]
    exact .spend (le_refl 0) (fun hpos => absurd hpos (lt_irrefl 0)) (hwin.trans (add_zero _).symm)
      ⟨hi, hkept, hs', ht⟩

theorem Restarting.paced (h : Restarting limit d r now s events) :
    Paced (max 0 limit.limit) limit.timePeriod.toInt (window s d) r
      (Event.ticks env d limit.timePeriod now s events) := by
  have hturn : ∀ (r : Option Int) (p : Int × State A) (e : Event) (events : List Event),
      Restarting limit d r p.1 p.2 (e :: events) →
      Turn (max 0 limit.limit) limit.timePeriod.toInt (window p.2 d) (window (e.step env p.2) d) r
        (fun r' => Restarting limit d r' (e.time p.1) (e.step env p.2) events)
          (e.tick env d limit.timePeriod p.1 p.2) := by
    intro r p e events h
    cases e with
    | restart => exact h.restart
    | op o =>
      by_cases hop : ∀ ctx, o ≠ .beginBlock ctx
      · exact h.spend hop
      · simp only [not_forall, not_not] at hop
        obtain ⟨ctx, rfl⟩ := hop
        exact h.block
  exact Paced.of_turns (fun p e => (e.time p.1, e.step env p.2))
    (fun p e => e.tick env d limit.timePeriod p.1 p.2)
    (fun p => window p.2 d) (fun r p events => Restarting limit d r p.1 p.2 events)
    (fun p events => Event.ticks env d limit.timePeriod p.1 p.2 events) (fun _ => rfl)
      (fun _ _ _ => rfl) hturn
    (s := (now, s)) h

end

theorem Event.timely_tail {now : Int} {e : Event} {events : List Event}
    (h : Timely now (Event.ops (e :: events))) :
    now ≤ e.time now ∧ Timely (e.time now) (Event.ops events) := by
  cases e with
  | op o => exact Timely.tail h
  | restart => exact ⟨le_refl now, h⟩

theorem Event.tick_time (env : Env) (d : Denom) (period : Duration) (now : Int) (s : State A)
    (e : Event) :
    (e.tick env d period now s).time = e.time now := by
  cases e with
  | op o => exact Issuance.tick_time env d period now s o
  | restart => rfl

theorem Event.ticks_sorted {period : Duration} {now : Int} {events : List Event}
    (h : Timely now (Event.ops events))
    (s : State A) : (∀ x ∈ Event.ticks env d period now s events, now ≤ x.time) ∧
      (Event.ticks env d period now s events).Pairwise fun x y => x.time ≤ y.time := by
  induction events generalizing now s with
  | nil => exact ⟨fun x hx => (nomatch hx), List.Pairwise.nil⟩
  | cons e events ih =>
    obtain ⟨hle, hrest⟩ := Event.timely_tail h
    obtain ⟨hafter, hsorted⟩ := ih hrest (e.step env s)
    refine ⟨fun x hx => ?_, List.pairwise_cons.mpr ⟨fun x hx => ?_, hsorted⟩⟩
    · rcases List.mem_cons.mp hx with rfl | hx
      · rw [Event.tick_time]
        exact hle
      · exact le_trans hle (hafter x hx)
    · rw [Event.tick_time]
      exact hafter x hx

theorem window_nonneg (h : Exportable s) (d : Denom) : 0 ≤ window s d := by
  unfold window
  cases hs : s.supplies.get d with
  | none => exact le_refl 0
  | some supply =>
    have hv := h.valid d supply hs
    simp only [Coin.isValid, Bool.and_eq_true, decide_eq_true_eq] at hv
    exact hv.2

/-- From every accepted genesis state and in every run, with restarts at any points: the
windows of an asset with an active limit begin at least its time period apart, what is
issued in a window is within its limit, and what is issued in less than a time period is
within twice that. -/
theorem issue_rate_limited_across_restarts (env : Env) {bank : Bank A} {gs : GenesisState}
    {s₀ : State A}
    (h : initGenesis bank gs = .ok s₀) (asset : Asset) (hm : asset ∈ gs.params.assets)
    (ha : asset.rateLimit.active = true) (now : Int) (events : List Event)
    (ht : Timely now (Event.ops events)) :
    (∀ pre t₁ mid t₂ post, Event.ticks env asset.denom asset.rateLimit.timePeriod now s₀ events =
        pre ++ Tick.reset t₁ :: (mid ++ Tick.reset t₂ :: post) → (∀ x ∈ mid, x.IsSpend) →
      t₁ + asset.rateLimit.timePeriod.toInt ≤ t₂ ∧ spent mid ≤ max 0 asset.rateLimit.limit) ∧
    ∀ a b, b - a < asset.rateLimit.timePeriod.toInt →
      spentWithin a b (Event.ticks env asset.denom asset.rateLimit.timePeriod now s₀ events) ≤
        2 * max 0 asset.rateLimit.limit := by
  obtain ⟨hexp, hparams⟩ := initGenesis_exportable h
  rw [← hparams] at hm
  have hi : RateInv asset.rateLimit asset.denom s₀ :=
    ⟨getRateLimit_of_getAsset (getAsset_mem s₀ hm), ha⟩
  have hlim : 0 ≤ max 0 asset.rateLimit.limit := le_max_left _ _
  have hw : Within asset.denom none s₀ (Event.ops events) := fun t₀ e => nomatch e
  have hp : Paced (max 0 asset.rateLimit.limit) asset.rateLimit.timePeriod.toInt
      (window s₀ asset.denom) none
      (Event.ticks env asset.denom asset.rateLimit.timePeriod now s₀ events) :=
        Restarting.paced ⟨hi, hexp, hw, ht⟩
  refine ⟨fun pre t₁ mid t₂ post e hmid => ?_, fun a b hab => ?_⟩
  · rw [e] at hp
    obtain ⟨hperiod, hspent⟩ := (hp.after_reset pre).next_reset hlim hmid
    exact ⟨hperiod, by omega⟩
  · exact hp.within hlim (window_nonneg hexp _) (Event.ticks_sorted ht s₀).2 hab

/-- The block after the restart begins no window, for the hour before it is not counted. -/
theorem issue_rate_limited_across_restarts_hourly :
    initGenesis Bank.empty hourlyGenesis = .ok hourlyLoaded ∧
    Event.ticks sampleEnv "usdx" 3600000000000 0 hourlyLoaded hourlyEvents =
      [Tick.spend 0 0, Tick.spend 0 60] ++ Tick.reset 3600000000000 ::
        ([Tick.spend 3600000000000 60, Tick.spend 3600000000000 0, Tick.spend 3600000000000 0,
          Tick.spend 7200000000000 0,
          Tick.spend 7200000000000 0] ++ Tick.reset 10800000000000 :: []) ∧
    3600000000000 + (3600000000000 : Duration).toInt ≤ 10800000000000 := by
  have hticks : Event.ticks sampleEnv "usdx" 3600000000000 0 hourlyLoaded hourlyEvents =
      [Tick.spend 0 0, Tick.spend 0 60] ++ Tick.reset 3600000000000 ::
        ([Tick.spend 3600000000000 60, Tick.spend 3600000000000 0, Tick.spend 3600000000000 0,
          Tick.spend 7200000000000 0,
          Tick.spend 7200000000000 0] ++ Tick.reset 10800000000000 :: []) := by
    decide +kernel
  have hlimited :=
    (issue_rate_limited_across_restarts sampleEnv hourlyGenesis_loads (hourlyAsset 100)
      List.mem_cons_self
    rfl 0 hourlyEvents hourlyEvents_timely).1 _ _ _ _ _ hticks (by simp [Tick.IsSpend])
  exact ⟨hourlyGenesis_loads, hticks, hlimited.1⟩

end ZgChain.Issuance
