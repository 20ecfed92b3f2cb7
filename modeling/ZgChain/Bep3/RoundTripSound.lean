import ZgChain.Bep3.GenesisSound
import ZgChain.Bep3.LifeSound

/-!
# Genesis round trip

The initialisation validates an exported state field by field. The checks made of
a message before it is delivered, and those of a creation, give every field but
three: the sender's address on the other chain, the height a swap expires at, which
is a sum that wraps, and the block it was closed in.
-/

namespace ZgChain.Bep3

variable {A : ModuleAddrs} {env : Env} {s s' : State A} {coin : Coin}

/-! ## Messages as operations -/

structure CheckedArgs (args : CreateArgs) : Prop where
  hash : args.randomNumberHash.length = randomNumberHashLength
  timestamp : args.timestamp ≠ 0
  sender : args.sender ≠ []
  recipient : args.recipient ≠ []
  otherChain : isBlank args.recipientOtherChain = false

def Op.Checked : Op → Prop
  | .create _ args => CheckedArgs args
  | _ => True

theorem handle_create_checked {ctx : Ctx} {msg : MsgCreateAtomicSwap}
    (h : handle env ctx s (.create msg) = .ok s') :
    ∃ args, CheckedArgs args ∧ createAtomicSwap env ctx s args = .ok s' := by
  simp only [handle, Msg.validateBasic, MsgCreateAtomicSwap.validateBasic, validateBytes,
    MsgServer.createAtomicSwap, bind_eq_ok, decodeAddress, decodeBytes, orReject_eq_ok,
    rejectIf_eq_ok, ne_eq, not_not, Bool.not_eq_true] at h
  obtain ⟨_, ⟨sender, hsender, recipient, hrecipient, _, hs, _, hr, _, hother, _, _, _, _, _,
    ⟨hash, hhash, hlen⟩, _, htime, _⟩,
    sender', hsender', recipient', hrecipient', hash', hhash', h⟩ := h
  rw [hsender] at hsender'
  rw [hrecipient] at hrecipient'
  rw [hhash] at hhash'
  cases hsender'
  cases hrecipient'
  cases hhash'
  refine ⟨_, ?_, h⟩
  refine ⟨hlen, fun e => htime ?_, hs, hr, hother⟩
  rw [show msg.timestamp = 0 from e]
  exact Int64.le_refl 0

/-- An event leaves the state as it was, or is an operation with checked arguments. -/
theorem exec_step (env : Env) (s : State A) (e : Event) :
    exec env s e = s ∨ ∃ op, op.Checked ∧ exec env s e = step env s op := by
  cases e with
  | beginBlock ctx => exact Or.inr ⟨.beginBlock ctx, trivial, rfl⟩
  | deliver ctx msg =>
    rcases orElseKeep_cases s (handle env ctx s msg) with ⟨s', h, e⟩ | ⟨_, e⟩
    · right
      rw [exec, e]
      cases msg with
      | create msg =>
        obtain ⟨args, hargs, hc⟩ := handle_create_checked h
        exact ⟨.create ctx args, hargs, by rw [step, hc]; rfl⟩
      | claim msg =>
        obtain ⟨id, number, _, hc⟩ := handle_claim_ok h
        exact ⟨.claim ctx id number, trivial, by rw [step, hc]; rfl⟩
      | refund msg =>
        obtain ⟨id, _, hc⟩ := handle_refund_ok h
        exact ⟨.refund ctx id, trivial, by rw [step, hc]; rfl⟩
    · left
      rw [exec, e]

/-! ## Stored swaps -/

structure Admitted (s : State A) (a : AtomicSwap) : Prop where
  hash : a.randomNumberHash.length = randomNumberHashLength
  timestamp : a.timestamp ≠ 0
  sender : a.sender ≠ []
  recipient : a.recipient ≠ []
  otherChain : isBlank a.recipientOtherChain = false
  status : a.status ≠ .unspecified
  active : ∀ c ∈ a.amount, ∃ asset, getAsset s c.denom = .ok asset ∧ asset.active = true

def SwapsAdmitted (s : State A) : Prop := ∀ id a, s.swaps.get id = some a → Admitted s a

theorem Admitted.params {a : AtomicSwap} (h : Admitted s a) (hp : s'.params = s.params) :
    Admitted s' a := by
  refine ⟨h.hash, h.timestamp, h.sender, h.recipient, h.otherChain, h.status, fun c hc => ?_⟩
  rw [getAsset_params hp]
  exact h.active c hc

theorem Created.admitted {ctx : Ctx} {args : CreateArgs} {asset : AssetParam}
    {direction : SwapDirection} {s₁ : State A}
    (h : Created env ctx s args coin asset direction s₁ s') (hargs : CheckedArgs args) :
    Admitted s (newSwap ctx args direction) := by
  refine ⟨hargs.hash, hargs.timestamp, hargs.sender, hargs.recipient, hargs.otherChain,
    (fun e => nomatch e), fun c hc => ?_⟩
  rw [show (newSwap ctx args direction).amount = [coin] from h.amount] at hc
  rw [List.mem_singleton.mp hc]
  exact ⟨asset, h.supported, h.active⟩

theorem SwapsAdmitted.step (h : SwapsAdmitted s) (hi : IndexInv env s) {op : Op}
    (hop : op.Checked) :
    SwapsAdmitted (step env s op) := by
  intro id a' ha'
  have he := hi.evolves op id
  have hp := (step_keeps env s op).params
  rw [ha'] at he
  generalize hx : s.swaps.get id = x at he
  cases he with
  | keep => exact (h id a' hx).params hp
  | create hc => exact (hc.admitted hop).params hp
  | claim _ | refund _ | expire _ _ =>
    have ha := (h id _ hx).params hp
    exact ⟨ha.hash, ha.timestamp, ha.sender, ha.recipient, ha.otherChain,
      (fun e => nomatch e), ha.active⟩

/-! ## Stored supplies -/

def Listed (s : State A) : Prop :=
  ∀ d, (s.supplies.get d).isSome = true → ∃ asset, getAsset s d = .ok asset

theorem Listed.same (h : Listed s) (hd : SameDenoms s s') (hp : s'.params = s.params) :
    Listed s' := by
  intro d hs
  rw [getAsset_params hp]
  exact h d (hd d hs)

theorem getAsset_of_mem {asset : AssetParam} (hm : asset ∈ getAssets s) :
    ∃ a, getAsset s asset.denom = .ok a := by
  cases hf : (getAssets s).find? fun a => a.denom = asset.denom with
  | none => simpa using List.find?_eq_none.mp hf asset hm
  | some a => exact ⟨a, by rw [getAsset, hf]; rfl⟩

theorem Listed.beginBlocker (h : Listed s) (ctx : Ctx) : Listed (beginBlocker env ctx s) := by
  have h₁ : Listed (updateTimeBasedSupplyLimits ctx s) := by
    unfold updateTimeBasedSupplyLimits
    split
    · exact h
    · have hf := List.foldlRecOn (motive := fun s' : State A => s'.params = s.params ∧ Listed s')
        (getAssets s)
          (updateTimeBasedSupplyLimit
            (Time.sub ctx.blockTime (s.previousBlockTime.getD ctx.blockTime))) ⟨rfl, h⟩ ?_
      · exact hf.2
      · refine fun s₁ h₁ asset hm => ⟨h₁.1, fun d hd => ?_⟩
        change ∃ a, getAsset s₁ d = .ok a
        rw [updateTimeBasedSupplyLimit, setAssetSupply, KVStore.get_set] at hd
        split at hd
        · rename_i e
          rw [e, getAsset_params h₁.1]
          exact getAsset_of_mem hm
        · exact h₁.2 d hd
  obtain ⟨_, _, _, hb⟩ := beginBlocker_scans env ctx s
  rw [hb]
  exact h₁

theorem Listed.step (h : Listed s) (op : Op) : Listed (step env s op) := by
  cases op with
  | create ctx args =>
    refine orElseKeep_rule h fun s' hok => ?_
    obtain ⟨_, _, _, s₁, hc⟩ := createAtomicSwap_ok hok
    have h₁ : Listed s₁ :=
      h.same (escrow_denoms hc.escrowed) (Keeps.pays (escrow_pays hc.escrowed)).params
    rw [hc.state]
    exact h₁
  | claim ctx id number =>
    refine orElseKeep_rule h fun s' hok => ?_
    obtain ⟨_, s₁, _, _, _, hpay, rfl⟩ := claimAtomicSwap_ok hok
    have h₁ : Listed s₁ := h.same (payClaim_denoms hpay) (Keeps.pays (payClaim_pays hpay)).params
    exact h₁
  | refund ctx id =>
    refine orElseKeep_rule h fun s' hok => ?_
    obtain ⟨_, s₁, _, _, hpay, rfl⟩ := refundAtomicSwap_ok hok
    have h₁ : Listed s₁ := h.same (payRefund_denoms hpay) (Keeps.pays (payRefund_pays hpay)).params
    exact h₁
  | beginBlock ctx => exact h.beginBlocker ctx

theorem previousBlockTime_step (h : s.previousBlockTime.isSome = true) (op : Op) :
    (step env s op).previousBlockTime.isSome = true := by
  cases op with
  | create ctx args =>
    refine orElseKeep_rule (P := fun s' : State A => s'.previousBlockTime.isSome = true) h
      fun s' hok => ?_
    obtain ⟨_, _, _, s₁, hc⟩ := createAtomicSwap_ok hok
    obtain ⟨_, _, _, rfl⟩ := escrow_pays hc.escrowed
    rw [hc.state]
    exact h
  | claim ctx id number =>
    refine orElseKeep_rule (P := fun s' : State A => s'.previousBlockTime.isSome = true) h
      fun s' hok => ?_
    obtain ⟨_, s₁, _, _, _, hpay, rfl⟩ := claimAtomicSwap_ok hok
    obtain ⟨_, _, _, rfl⟩ := payClaim_pays hpay
    exact h
  | refund ctx id =>
    refine orElseKeep_rule (P := fun s' : State A => s'.previousBlockTime.isSome = true) h
      fun s' hok => ?_
    obtain ⟨_, s₁, _, _, hpay, rfl⟩ := refundAtomicSwap_ok hok
    obtain ⟨_, _, _, rfl⟩ := payRefund_pays hpay
    exact h
  | beginBlock ctx =>
    obtain ⟨_, _, _, hb⟩ := beginBlocker_scans env ctx s
    rw [step, hb]
    unfold updateTimeBasedSupplyLimits
    split
    · exact h
    · rfl

/-! ## Runs -/

structure ExportInv (env : Env) (s : State A) : Prop extends CounterInv env s where
  limits : SuppliesOk s
  live : SwapsLive s
  admitted : SwapsAdmitted s
  listed : Listed s
  time : s.previousBlockTime.isSome = true

theorem ExportInv.step (h : ExportInv env s) {op : Op} (hop : op.Checked) :
    ExportInv env (step env s op) where
  toCounterInv := h.toCounterInv.step op
  limits := h.limits.step h.denoms h.coins op
  live := h.live.step h.index h.denoms op
  admitted := h.admitted.step h.index hop
  listed := h.listed.step op
  time := previousBlockTime_step h.time op

theorem ExportInv.run (h : ExportInv env s) (es : List Event) :
    ExportInv env (runSteps (exec env) s es) := by
  refine runSteps_inv (P := fun _ => True) (exec env) (fun s e _ h => ?_) h es fun _ _ => trivial
  rcases exec_step env s e with he | ⟨op, hop, he⟩
  · rw [he]
    exact h
  · rw [he]
    exact h.step hop

structure GenesisState.Empty (gs : GenesisState) : Prop where
  swaps : gs.atomicSwaps = []
  supplies : ∀ supply ∈ gs.supplies, ∃ d t, supply = zeroSupply d t

theorem ExportInv.of_empty {bank : Bank A} {gs : GenesisState} (he : gs.Empty)
    (h : initGenesis env bank gs = .ok s) :
    ExportInv env s := by
  have hg : GenesisInv env s := GenesisInv.initGenesis h
  obtain ⟨hp, ha, rfl⟩ := initGenesis_iff.mp h
  have hs : loadedState env ⟨gs.params, hp⟩ gs bank =
      ⟨suppliedState ⟨gs.params, hp⟩ gs bank, [], []⟩ := by
    rw [loadedState, he.swaps]
    rfl
  rw [hs] at hg ⊢
  have hz : ZeroCounters (suppliedState ⟨gs.params, hp⟩ gs bank) := by
    intro d sup hsup
    rcases (KVStore.get_setAll ha.denoms d sup).mp hsup with ⟨hm, e⟩ | ⟨_, h⟩
    · obtain ⟨d', t, rfl⟩ := he.supplies sup hm
      exact ⟨t, by rw [← e]; rfl⟩
    · cases h
  have hc : ClaimInv env _ (suppliedState ⟨gs.params, hp⟩ gs bank) :=
    ClaimInv.init ⟨rfl, rfl, rfl⟩ hz
  refine ⟨hc.counters, hc.limits, hc.live, fun id a ha => (by cases ha), fun d hd => ?_, rfl⟩
  obtain ⟨sup, hsup⟩ := Option.isSome_iff_exists.mp hd
  obtain ⟨asset, hasset, _⟩ := hg.limits d sup hsup
  exact ⟨asset, hasset⟩

/-! ## The export -/

/-- The fields that a message is not checked for. -/
def Restorable (a : AtomicSwap) : Prop :=
  isBlank a.senderOtherChain = false ∧ a.expireHeight ≠ 0 ∧
  (a.status = .completed → a.closedBlock ≠ 0)

section
variable (h : ExportInv env s)
include h

theorem ExportInv.validate_iff {id : Bytes} {a : AtomicSwap} (hg : s.swaps.get id = some a) :
    a.validate = .ok () ↔ Restorable a := by
  have hm := h.admitted id a hg
  obtain ⟨coin, ha, hpos⟩ := h.coins id a hg
  obtain ⟨asset, hasset, _⟩ := hm.active coin (by simp [ha])
  obtain ⟨hd, _, hv⟩ := getAsset_ok hasset
  have hdenom := (AssetParam.validate_ok hv).1
  rw [hd] at hdenom
  have hvalid : a.amount.isValid = true := by
    rw [ha]
    exact (isValid_singleton coin).mpr ⟨hdenom, hpos⟩
  have hall : a.amount.isAllPositive = true := by simp [ha, Coins.isAllPositive, hpos]
  have hdir : a.direction ≠ .unspecified := by
    rcases (h.live id a hg).direction with e | e <;> simp [e]
  rw [AtomicSwap.validate_iff]
  exact and_iff_right ⟨hvalid, hall, hm.hash, hm.timestamp, hm.sender, hm.recipient, hm.otherChain,
    hm.status, hdir⟩

theorem ExportInv.loadable {id : Bytes} {a : AtomicSwap} (hg : s.swaps.get id = some a)
    (hr : Restorable a) (hp : s'.params = s.params) : Loadable s' a := by
  obtain ⟨coin, ha, _⟩ := h.coins id a hg
  obtain ⟨asset, hasset, hactive⟩ := (h.admitted id a hg).active coin (by simp [ha])
  refine ⟨(h.validate_iff hg).mpr hr, coin, firstCoin_cons ha, ?_⟩
  rw [validateLiveAsset, getAsset_params hp, hasset, ok_bind]
  exact rejectIf_neg (by simp [hactive]) _

theorem ExportInv.pending_nonneg (dir : SwapDirection) (d : Denom) : 0 ≤ pending dir s d := by
  refine KVStore.sumOn_nonneg fun id a ha => ?_
  obtain ⟨coin, hc, hpos⟩ := h.coins id a ha
  unfold pendingAmount
  split
  · rw [hc]
    exact amountOf_nonneg (by simpa using hpos.le) d
  · exact le_refl 0

theorem ExportInv.counters_eq {d : Denom} {sup : AssetSupply} (hs : s.supplies.get d = some sup) :
    sup.incomingSupply.amount = pending .incoming s d ∧
    sup.outgoingSupply.amount = pending .outgoing s d := by
  rw [← counterOf_some AssetSupply.incomingSupply hs,
    ← counterOf_some AssetSupply.outgoingSupply hs]
  exact ⟨congrFun h.incoming d, congrFun h.outgoing d⟩

theorem ExportInv.supply_validate {d : Denom} {sup : AssetSupply}
    (hs : s.supplies.get d = some sup) :
    sup.validate = .ok () := by
  have hd := h.denoms d sup hs
  have hl := h.limits d sup hs
  obtain ⟨hi, ho⟩ := h.counters_eq hs
  have hi₀ := h.pending_nonneg .incoming d
  have ho₀ := h.pending_nonneg .outgoing d
  obtain ⟨asset, hasset⟩ := h.listed d (by rw [hs]; rfl)
  obtain ⟨hd', _, hv⟩ := getAsset_ok hasset
  have hdenom := (AssetParam.validate_ok hv).1
  rw [hd'] at hdenom
  have hvalid (c : Coin) (hc : c.denom = d) (hn : 0 ≤ c.amount) : c.isValid = true := by
    simp [Coin.isValid, hc, hdenom, hn]
  rw [AssetSupply.validate_iff, show sup.getDenom = d from hd.current]
  exact ⟨hvalid _ hd.incoming (by omega), hvalid _ hd.outgoing (by omega),
    hvalid _ hd.current (by have := hl.available; omega), hvalid _ hd.timeLimited hl.window,
      hd.incoming, hd.outgoing,
    hd.timeLimited⟩

theorem ExportInv.setAll_swaps :
    KVStore.empty.setAll (AtomicSwap.getSwapID env) s.swaps.values = s.swaps :=
  KVStore.setAll_values h.index.ids

theorem ExportInv.setAll_supplies :
    KVStore.empty.setAll AssetSupply.getDenom s.supplies.values = s.supplies :=
  KVStore.setAll_values fun d sup hs => (h.denoms d sup hs).current

theorem ExportInv.checkSupply {l : Loaded A} (hc : Counted l) (hw : l.state.swaps = s.swaps)
    (hp : l.state.params = s.params) {d : Denom} {sup : AssetSupply}
    (hs : s.supplies.get d = some sup) :
    checkSupply l sup = .ok () := by
  have hpend (dir : SwapDirection) : pending dir l.state d = pending dir s d := by
    rw [pending, pending, hw]
  obtain ⟨hi, ho⟩ := h.counters_eq hs
  have hi₀ := h.pending_nonneg .incoming d
  have ho₀ := h.pending_nonneg .outgoing d
  obtain ⟨asset, hasset⟩ := h.listed d (by rw [hs]; rfl)
  have hl := h.limits d sup hs
  have hav := hl.available
  have hlim := (hl.limits asset hasset).1
  rw [checkSupply_iff, show sup.getDenom = d from (h.denoms d sup hs).current, hc.incoming,
    hc.outgoing, hpend, hpend, getAsset_params hp]
  exact ⟨hi, ho, asset, hasset, by omega, by omega, by omega, by omega⟩

variable (hr : ∀ id a, s.swaps.get id = some a → Restorable a) (bank : Bank A)
include hr

theorem ExportInv.acceptable : Acceptable env s.params (exportGenesis s) bank := by
  have hmem (a : AtomicSwap) (ha : a ∈ (exportGenesis s).atomicSwaps) :
      ∃ id, s.swaps.get id = some a :=
    (KVStore.mem_values _ _).mp ha
  have hload (a : AtomicSwap) (ha : a ∈ (exportGenesis s).atomicSwaps) :
      Loadable (suppliedState s.params (exportGenesis s) bank) a := by
    obtain ⟨id, hg⟩ := hmem a ha
    exact h.loadable hg (hr id a hg) rfl
  have hids : ((exportGenesis s).atomicSwaps.map (AtomicSwap.getSwapID env)).Nodup :=
    KVStore.values_nodup h.index.ids
  have hc : Counted (loadedState env s.params (exportGenesis s) bank) :=
    loads_rule (fun l swap _ hf hc => hc.load hf) (fun swap hs => (hload swap hs).1) hids
      (fun _ _ => KVStore.get_empty _) ⟨fun d => rfl, fun d => rfl⟩
  obtain ⟨B, L, hl⟩ := loadedState_eq env s.params (exportGenesis s) bank
  refine ⟨hload, hids, fun sup hs => ?_, ?_, fun sup hs => ?_⟩
  · obtain ⟨d, hd⟩ := (KVStore.mem_values _ _).mp hs
    exact h.supply_validate hd
  · exact KVStore.values_nodup fun d sup hs => (h.denoms d sup hs).current
  · rw [hl] at hs
    obtain ⟨d, hd⟩ := (KVStore.mem_values _ _).mp hs
    rw [suppliedState, exportGenesis, h.setAll_supplies] at hd
    refine h.checkSupply hc ?_ (by rw [hl]; rfl) hd
    rw [hl]
    exact h.setAll_swaps

theorem ExportInv.restored :
    initGenesis env bank (exportGenesis s) = .ok { s with bank := bank } := by
  have ha := h.acceptable hr bank
  have hok : initGenesis env bank (exportGenesis s) =
      .ok (loadedState env s.params (exportGenesis s) bank).state :=
    initGenesis_iff.mpr ⟨s.params.property, ha, rfl⟩
  have hi := IndexInv.initGenesis hok
  rw [hok]
  obtain ⟨B, L, hl⟩ := loadedState_eq env s.params (exportGenesis s) bank
  rw [hl] at hi ⊢
  have hw : KVStore.empty.setAll (AtomicSwap.getSwapID env) (exportGenesis s).atomicSwaps =
      s.swaps := h.setAll_swaps
  have hσ : (suppliedState s.params (exportGenesis s) bank).supplies = s.supplies :=
    h.setAll_supplies
  have ht : some (s.previousBlockTime.getD defaultPreviousBlockTime) = s.previousBlockTime := by
    obtain ⟨t, ht⟩ := Option.isSome_iff_exists.mp h.time
    rw [ht]
    rfl
  -- the indexes are those of the same swaps
  have hB : B = s.byBlock := Indexed.eq_of_store hi.byBlock (by rw [hw]; exact h.index.byBlock)
  have hL : L = s.longterm := Indexed.eq_of_store hi.longterm (by rw [hw]; exact h.index.longterm)
  rw [hw, hB, hL]
  simp only [suppliedState, newState, exportGenesis, ht] at hσ ⊢
  rw [hσ]

end

/-- In every state reached by messages and begin blockers from an empty genesis, the
initialisation restores the exported state exactly if every stored swap has the fields
that messages are not checked for. -/
theorem genesis_restores_export_iff (env : Env) (bank : Bank A) (gs : GenesisState) (he : gs.Empty)
    (s₀ : State A) (h : initGenesis env bank gs = .ok s₀) (es : List Event) (bank' : Bank A) :
    initGenesis env bank' (exportGenesis (runSteps (exec env) s₀ es)) =
        .ok { runSteps (exec env) s₀ es with bank := bank' } ↔
      ∀ id a, (runSteps (exec env) s₀ es).swaps.get id = some a →
        isBlank a.senderOtherChain = false ∧ a.expireHeight ≠ 0 ∧
        (a.status = .completed → a.closedBlock ≠ 0) := by
  have hi : ExportInv env (runSteps (exec env) s₀ es) := (ExportInv.of_empty he h).run es
  constructor
  · intro hr id a hg
    obtain ⟨hp, ha, _⟩ := initGenesis_iff.mp hr
    have hm : a ∈ (exportGenesis (runSteps (exec env) s₀ es)).atomicSwaps :=
      (KVStore.mem_values _ _).mpr ⟨id, hg⟩
    exact (hi.validate_iff hg).mp (ha.swaps a hm).1
  · intro hr
    exact hi.restored hr bank'

/-- The sample chain's hash, with the two strings hashed for a swap that names no sender on
the other chain. -/
def blankEnv : Env where
  sum x :=
    if x.length = 40 ∧ beToNat x =
        0x505050505050505050505050505050505050505050505050505050505050505000000006553f100 then
      beBytes 32 0x72cd6d31e6ae4de670d0894578cb9df5eeaac80a628104349677940cf7c796ca
    else if x.length = 52 ∧ beToNat x =
        0x72cd6d31e6ae4de670d0894578cb9df5eeaac80a628104349677940cf7c796ca * 2 ^ 160 + 0xde9 then
      beBytes 32 0x23f8ab623bd4d31dcf7102a5584a670ef321002a0fd4f455761ef82df8f73db5
    else sampleEnv.sum x
  toLower := id
  accAddressFromBech32 := sampleEnv.accAddressFromBech32

def emptyGenesis : GenesisState := ⟨⟨[bnbAsset]⟩, [], [], 1699999990000000000⟩

theorem emptyGenesis_empty : emptyGenesis.Empty := ⟨rfl, fun _ h => by cases h⟩

def blankSwap : MsgCreateAtomicSwap where
  fromAddr := "0g1qqqqqqqqqqqqqqqqqqqqqqqqqqqqqr0f40xh7q"
  toAddr := "0g1qqqqqqqqqqqqqqqqqqqqqqqqqqqq5ywwfrrwct"
  recipientOtherChain := "bnb1recipient"
  senderOtherChain := ""
  randomNumberHash := "72cd6d31e6ae4de670d0894578cb9df5eeaac80a628104349677940cf7c796ca"
  timestamp := 1700000000
  amount := [⟨"bnb", 100⟩]
  heightSpan := 250

def blankRun : List Event := [.beginBlock (sampleCtx 1), .deliver (sampleCtx 1) (.create blankSwap)]

def emptyChain (env : Env) : State chainAddrs :=
  orElseKeep sampleState (initGenesis env Bank.empty emptyGenesis)

theorem blank_export_rejected :
    emptyGenesis.Empty ∧ initGenesis blankEnv Bank.empty emptyGenesis = .ok (emptyChain blankEnv) ∧
    (∃ s', handle blankEnv (sampleCtx 1)
      (exec blankEnv (emptyChain blankEnv) (.beginBlock (sampleCtx 1)))
      (.create blankSwap) = .ok s') ∧
    ¬ ∃ s' : State chainAddrs,
      initGenesis blankEnv Bank.empty
        (exportGenesis (runSteps (exec blankEnv) (emptyChain blankEnv) blankRun)) = .ok s' :=
  ⟨emptyGenesis_empty,
    eq_ok_orElseKeep (by decide +kernel) sampleState, by decide +kernel, by decide +kernel⟩

def claimedRun : List Event :=
  [.beginBlock (sampleCtx 100), shortCreation, .deliver (sampleCtx 100) (.claim
    ⟨"0g1qqqqqqqqqqqqqqqqqqqqqqqqqqqq5ywwfrrwct",
      "23ce3183d06f1ae012cc8c7f2d525d19ec3fa2e368e3169a76e9e035f93f9e0f",
      "0101010101010101010101010101010101010101010101010101010101010101"⟩)]

theorem genesis_restores_export_claimed :
    (runSteps (exec sampleEnv) (emptyChain sampleEnv) claimedRun).swaps.values ≠ [] ∧
    initGenesis sampleEnv (Bank.empty : Bank chainAddrs)
        (exportGenesis (runSteps (exec sampleEnv) (emptyChain sampleEnv) claimedRun)) =
      .ok { runSteps (exec sampleEnv) (emptyChain sampleEnv) claimedRun with bank :=
  Bank.empty } := by
  have h : initGenesis sampleEnv Bank.empty emptyGenesis = .ok (emptyChain sampleEnv) :=
    eq_ok_orElseKeep (by decide +kernel) sampleState
  have hall : (runSteps (exec sampleEnv) (emptyChain sampleEnv) claimedRun).swaps.values ≠ [] ∧
      ∀ a ∈ (runSteps (exec sampleEnv) (emptyChain sampleEnv) claimedRun).swaps.values,
        isBlank a.senderOtherChain = false ∧ a.expireHeight ≠ 0 ∧
        (a.status = .completed → a.closedBlock ≠ 0) := by
    decide +kernel
  refine ⟨hall.1, ?_⟩
  exact (genesis_restores_export_iff sampleEnv Bank.empty emptyGenesis emptyGenesis_empty _ h
    claimedRun Bank.empty).mpr
    fun id a ha => hall.2 a ((KVStore.mem_values _ _).mpr ⟨id, ha⟩)

end ZgChain.Bep3
