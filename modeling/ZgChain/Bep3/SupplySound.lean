import ZgChain.Bep3.Counters
import ZgChain.Bep3.IndexSound

/-!
# The supply counters match the swaps

Every operation changes the books of one denom, and always in step: the incoming
and outgoing counters as the sums over the pending swaps, the module account's
balance as the outgoing counter, and the current counter as the bank's total
supply. Over a run the differences between them stay as they were.
-/

namespace ZgChain.Bep3

variable {A : ModuleAddrs} {env : Env} {s s' : State A} {coin : Coin}

/-! ## The bank -/

theorem bank_moves (hw : SupplyDenoms s) {b : Bank A} {d : Denom} {m n : Int}
    (hh : ∀ x, b.balances (A.addr .bep3) x = s.bank.balances (A.addr .bep3) x + if d =
      x then m else 0)
    (ht : ∀ x, b.supply x = s.bank.supply x + if d = x then n else 0) :
    Moves s { s with bank := b } d (Pi.single .held m + Pi.single .total n) where
  denoms := hw
  books k := by
    cases k with
    | held => funext x; simp [book, Ledger.add, Pi.single_apply, hh, eq_comm]
    | total => funext x; simp [book, Ledger.add, Pi.single_apply, ht, eq_comm]
    | incoming | outgoing | current | pendingIn | pendingOut => exact book_unmoved rfl (by simp)

section
variable (hw : SupplyDenoms s) {amount : Coins} (ha : amount = [coin])
include hw ha

/-- The module account's own coins stay where they are. -/
theorem sendToModule_moves {sender : Addr}
    (h : withBank s (s.bank.sendCoinsFromAccountToModule sender .bep3 amount) = .ok s') :
    Moves s s' coin.denom (Pi.single .held (if sender = A.addr .bep3 then 0 else coin.amount)) := by
  subst ha
  obtain ⟨b, hb, rfl⟩ := (withBank_eq_ok _ _ _).mp h
  refine (bank_moves hw (m := if sender = A.addr .bep3 then 0 else coin.amount) (n := 0)
    (fun x => ?_) fun x => ?_).congr
    fun k => by simp
  · rw [(Bank.sendCoins_ok hb).2.1]
    by_cases he : sender = A.addr .bep3
    · simp [he]
    · simp [he, Ne.symm he]
  · simp [Bank.sendCoins_supply hb]

theorem sendFromModule_moves {recipient : Addr}
    (h : withBank s (s.bank.sendCoinsFromModuleToAccount .bep3 recipient amount) = .ok s') :
    Moves s s' coin.denom (Pi.single .held (-coin.amount)) := by
  subst ha
  obtain ⟨b, hb, rfl⟩ := (withBank_eq_ok _ _ _).mp h
  obtain ⟨hblocked, hb⟩ := Bank.sendCoinsFromModuleToAccount_ok.mp hb
  have hne : recipient ≠ A.addr .bep3 := fun e => by simp [e] at hblocked
  refine (bank_moves hw (m := -coin.amount) (n := 0) (fun x => ?_) fun x => ?_).congr
    fun k => by simp
  · rw [(Bank.sendCoins_ok hb).2.1]
    simp only [ite_true, hne.symm, ite_false, amountOf_cons, amountOf_nil, add_zero]
    split <;> omega
  · simp [Bank.sendCoins_supply hb]

theorem mint_moves (h : withBank s (s.bank.mintCoins .bep3 amount) = .ok s') :
    Moves s s' coin.denom (Pi.single .held coin.amount + Pi.single .total coin.amount) := by
  subst ha
  obtain ⟨b, hb, rfl⟩ := (withBank_eq_ok _ _ _).mp h
  refine bank_moves hw (fun x => ?_) fun x => ?_
  · rw [(Bank.mintCoins_ok hb).2.1]
    simp
  · simp [Bank.mintCoins_supply hb]

theorem burn_moves (h : withBank s (s.bank.burnCoins .bep3 amount) = .ok s') :
    Moves s s' coin.denom (Pi.single .held (-coin.amount) + Pi.single .total (-coin.amount)) := by
  subst ha
  obtain ⟨b, hb, rfl⟩ := (withBank_eq_ok _ _ _).mp h
  refine bank_moves hw (fun x => ?_) fun x => ?_
  · rw [(Bank.burnCoins_ok hb).2.1]
    simp only [ite_true, amountOf_cons, amountOf_nil, add_zero]
    split <;> omega
  · rw [Bank.burnCoins_supply hb]
    simp only [amountOf_cons, amountOf_nil, add_zero]
    split <;> omega

end

/-! ## The swaps -/

/-- A stored swap holds one positive coin, and neither party is the module account. -/
structure SwapOk (A : ModuleAddrs) (a : AtomicSwap) : Prop where
  amount : ∃ coin, a.amount = [coin] ∧ 0 < coin.amount
  recipient : A.moduleAccountAddrs a.recipient = false
  sender : a.sender ≠ A.addr .bep3

def SwapsOk (s : State A) : Prop := ∀ id a, s.swaps.get id = some a → SwapOk A a

def OneCoin (a : AtomicSwap) : Prop := ∃ coin, a.amount = [coin] ∧ 0 < coin.amount

def SwapCoins (s : State A) : Prop := ∀ id a, s.swaps.get id = some a → OneCoin a

theorem SwapsOk.coins (h : SwapsOk s) : SwapCoins s := fun id a ha => (h id a ha).amount

def pendingDelta (direction : SwapDirection) (n : Int) : Book → Int
  | .pendingIn => if direction = .incoming then n else 0
  | .pendingOut => if direction = .outgoing then n else 0
  | _ => 0

theorem swaps_moves (hw : SupplyDenoms s) {W : KVStore Bytes AtomicSwap}
    {B L : KVStore Bytes Bytes} {d : Denom} {direction : SwapDirection} {n : Int}
    (h : ∀ dir x, W.sumOn (fun _ a => pendingAmount dir x a) =
      s.swaps.sumOn (fun _ a => pendingAmount dir x a) + if direction = dir ∧ d = x then n else 0) :
    Moves s { s with swaps := W, byBlock := B, longterm := L } d (pendingDelta direction n) where
  denoms := hw
  books k := by
    cases k with
    | pendingIn =>
      funext x
      by_cases hd : direction = .incoming <;>
        simp [book, pending, h, Ledger.add, pendingDelta, Pi.single_apply, hd, eq_comm]
    | pendingOut =>
      funext x
      by_cases hd : direction = .outgoing <;>
        simp [book, pending, h, Ledger.add, pendingDelta, Pi.single_apply, hd, eq_comm]
    | incoming | outgoing | current | held | total => exact book_unmoved rfl rfl

theorem pendingAmount_eq {a : AtomicSwap} (ha : a.amount = [coin])
    (hs : a.status = .open ∨ a.status = .expired) (dir : SwapDirection) (x : Denom) :
    pendingAmount dir x a = if a.direction = dir ∧ coin.denom = x then coin.amount else 0 := by
  simp only [pendingAmount, hs, and_true, ha, amountOf_cons, amountOf_nil, add_zero]
  by_cases h : a.direction = dir <;> simp [h]

theorem openSwap_moves (hw : SupplyDenoms s) {id : Bytes} {a : AtomicSwap}
    {B L : KVStore Bytes Bytes}
    (hf : s.swaps.get id = none) (hs : a.status = .open) (ha : a.amount = [coin]) :
    Moves s { s with swaps := s.swaps.set id a, byBlock := B, longterm := L } coin.denom
      (pendingDelta a.direction coin.amount) := by
  refine swaps_moves hw fun dir x => ?_
  rw [KVStore.sumOn_set, hf, KVStore.contrib_none, sub_zero, pendingAmount_eq ha (Or.inl hs)]

theorem completeSwap_moves (hw : SupplyDenoms s) {id : Bytes} {ctx : Ctx} {a : AtomicSwap}
    {B L : KVStore Bytes Bytes}
    (hg : s.swaps.get id = some a) (hs : a.status = .open ∨ a.status = .expired)
    (ha : a.amount = [coin]) :
    Moves s
      { s with swaps := s.swaps.set id (completedSwap ctx a), byBlock := B, longterm := L }
      coin.denom (pendingDelta a.direction (-coin.amount)) := by
  refine swaps_moves hw fun dir x => ?_
  have hz : pendingAmount dir x (completedSwap ctx a) = 0 := by simp [pendingAmount, completedSwap]
  rw [KVStore.sumOn_set, hg, KVStore.contrib_some, hz, pendingAmount_eq ha hs]
  split <;> omega

/-! ## The messages -/

def escrowDelta (direction : SwapDirection) (n : Int) : Book → Int
  | .incoming => if direction = .incoming then n else 0
  | .outgoing => if direction = .outgoing then n else 0
  | .held => if direction = .outgoing then n else 0
  | _ => 0

def claimDelta (direction : SwapDirection) (n : Int) : Book → Int
  | .incoming => if direction = .incoming then -n else 0
  | .outgoing => if direction = .outgoing then -n else 0
  | .current => if direction = .incoming then n else -n
  | .held => if direction = .outgoing then -n else 0
  | .total => if direction = .incoming then n else -n
  | _ => 0

theorem firstCoin_eq {a : AtomicSwap} {c : Coin} (ha : a.amount = [coin])
    (h : firstCoin a = .ok c) : c = coin := by
  simpa [firstCoin, ha, orReject, eq_comm] using h

/-- What a swap of the module account itself fails to move into the module account. -/
def unheld (A : ModuleAddrs) (sender : Addr) (direction : SwapDirection) (n : Int) : Int :=
  if sender = A.addr .bep3 ∧ direction = .outgoing then n else 0

theorem unheld_of_ne {sender : Addr} (h : sender ≠ A.addr .bep3)
    (direction : SwapDirection) (n : Int) :
    unheld A sender direction n = 0 := by
  simp [unheld, h]

theorem escrow_moves (hw : SupplyDenoms s) {asset : AssetParam} {args : CreateArgs}
    {direction : SwapDirection}
    (ha : args.amount = [coin]) (h : escrow s asset args coin direction = .ok s') :
    Moves s s' coin.denom
      (escrowDelta direction coin.amount - Pi.single .held
        (unheld A args.sender direction coin.amount)) := by
  cases direction with
  | unspecified => cases h
  | incoming =>
    have hb : Moves s { s with bank := s.bank.setAccount args.recipient } coin.denom _ :=
      bank_moves hw (m := 0) (n := 0) (fun x => by simp) fun x => by simp [Bank.setAccount]
    have hm := incrementIncomingAssetSupply_moves hb.denoms h
    refine (hb.trans hm).congr fun b => ?_
    cases b <;> simp [escrowDelta, unheld]
  | outgoing =>
    simp only [escrow, bind_eq_ok] at h
    obtain ⟨_, _, _, _, s₁, h₁, h₂⟩ := h
    have hm := incrementOutgoingAssetSupply_moves hw h₁
    have hb := sendToModule_moves hm.denoms ha h₂
    refine (hm.trans hb).congr fun b => ?_
    by_cases he : args.sender = A.addr .bep3 <;> cases b <;> simp [escrowDelta, unheld, he]

theorem payClaim_moves (hw : SupplyDenoms s) {a : AtomicSwap} (ha : a.amount = [coin])
    (h : payClaim s a = .ok s') : Moves s s' coin.denom (claimDelta a.direction coin.amount) := by
  cases payClaim_ok h with
  | incoming hd hc h₁ h₂ h₃ h₄ =>
    cases firstCoin_eq ha hc
    have m₁ := decrementIncomingAssetSupply_moves hw h₁
    have m₂ := incrementCurrentAssetSupply_moves m₁.denoms h₂
    have m₃ := mint_moves m₂.denoms ha h₃
    have m₄ := sendFromModule_moves m₃.denoms ha h₄
    refine (((m₁.trans m₂).trans m₃).trans m₄).congr fun b => ?_
    cases b <;> simp [claimDelta, hd]
  | outgoing hd hc h₁ h₂ h₃ =>
    cases firstCoin_eq ha hc
    have m₁ := decrementOutgoingAssetSupply_moves hw h₁
    have m₂ := decrementCurrentAssetSupply_moves m₁.denoms h₂
    have m₃ := burn_moves m₂.denoms ha h₃
    refine ((m₁.trans m₂).trans m₃).congr fun b => ?_
    cases b <;> simp [claimDelta, hd]

theorem payRefund_moves (hw : SupplyDenoms s) {a : AtomicSwap} (ha : a.amount = [coin])
    (h : payRefund s a = .ok s') :
    Moves s s' coin.denom (escrowDelta a.direction (-coin.amount)) := by
  cases payRefund_ok h with
  | incoming hd hc h₁ =>
    cases firstCoin_eq ha hc
    refine (decrementIncomingAssetSupply_moves hw h₁).congr fun b => ?_
    cases b <;> simp [escrowDelta, hd]
  | outgoing hd hc h₁ h₂ =>
    cases firstCoin_eq ha hc
    have m₁ := decrementOutgoingAssetSupply_moves hw h₁
    have m₂ := sendFromModule_moves m₁.denoms ha h₂
    refine (m₁.trans m₂).congr fun b => ?_
    cases b <;> simp [escrowDelta, hd]

theorem created_moves (hw : SupplyDenoms s) {ctx : Ctx} {args : CreateArgs} {asset : AssetParam}
    {direction : SwapDirection} {s₁ : State A}
    (h : Created env ctx s args coin asset direction s₁ s') :
    Moves s s' coin.denom
      (escrowDelta direction coin.amount - Pi.single .held
        (unheld A args.sender direction coin.amount) +
        pendingDelta direction coin.amount) := by
  have m₁ := escrow_moves hw h.amount h.escrowed
  have hf : s₁.swaps.get ((newSwap ctx args direction).getSwapID env) = none := by
    obtain ⟨_, _, _, rfl⟩ := escrow_pays h.escrowed
    exact h.fresh
  rw [h.state]
  exact m₁.trans (openSwap_moves m₁.denoms hf rfl h.amount)

theorem claim_moves (hi : IndexInv env s) (hw : SupplyDenoms s) {ctx : Ctx} {id number : Bytes}
    {a : AtomicSwap} (hg : s.swaps.get id = some a) (ha : a.amount = [coin])
    (h : claimAtomicSwap env ctx s id number = .ok s') :
    Moves s s' coin.denom
      (claimDelta a.direction coin.amount + pendingDelta a.direction (-coin.amount)) := by
  obtain ⟨a', s₁, hg', hs, _, hpay, rfl⟩ := claimAtomicSwap_ok h
  rw [hg] at hg'
  cases hg'
  have m₁ := payClaim_moves hw ha hpay
  have hid := hi.ids id a hg
  subst hid
  obtain ⟨_, _, _, rfl⟩ := payClaim_pays hpay
  exact m₁.trans (completeSwap_moves m₁.denoms hg (Or.inl hs) ha)

theorem refund_moves (hi : IndexInv env s) (hw : SupplyDenoms s) {ctx : Ctx} {id : Bytes}
    {a : AtomicSwap} (hg : s.swaps.get id = some a) (ha : a.amount = [coin])
    (h : refundAtomicSwap env ctx s id = .ok s') :
    Moves s s' coin.denom
      (escrowDelta a.direction (-coin.amount) + pendingDelta a.direction (-coin.amount)) := by
  obtain ⟨a', s₁, hg', hs, hpay, rfl⟩ := refundAtomicSwap_ok h
  rw [hg] at hg'
  cases hg'
  have m₁ := payRefund_moves hw ha hpay
  have hid := hi.ids id a hg
  subst hid
  obtain ⟨_, _, _, rfl⟩ := payRefund_pays hpay
  exact m₁.trans (completeSwap_moves m₁.denoms hg (Or.inr hs) ha)

/-! ## The begin blocker -/

theorem updateTimeBasedSupplyLimit_denoms (hw : SupplyDenoms s) (t : Duration)
    (asset : AssetParam) :
    SupplyDenoms (updateTimeBasedSupplyLimit t s asset) := by
  have hd : ((s.supplies.get asset.denom).getD (zeroSupply asset.denom 0)).OfDenom asset.denom := by
    cases h : s.supplies.get asset.denom with
    | none => exact ⟨rfl, rfl, rfl, rfl⟩
    | some sup => exact hw _ _ h
  apply hw.set
  split
  · exact ⟨hd.incoming, hd.outgoing, hd.current, hd.timeLimited⟩
  · exact ⟨hd.incoming, hd.outgoing, hd.current, rfl⟩

theorem updateTimeBasedSupplyLimit_counterOf {counter : AssetSupply → Coin}
    (hc : ∀ sup c t, counter { sup with timeLimitedCurrentSupply := c, timeElapsed := t } =
      counter sup)
    (hz : ∀ d t, counter (zeroSupply d t) = ⟨d, 0⟩) (t : Duration) (s : State A)
      (asset : AssetParam) :
    counterOf counter (updateTimeBasedSupplyLimit t s asset) = counterOf counter s := by
  funext d
  by_cases hd : d = asset.denom
  · subst hd
    simp only [counterOf, updateTimeBasedSupplyLimit, setAssetSupply, KVStore.get_set_self]
    cases h : s.supplies.get asset.denom with
    | none => simp only [Option.getD_none]; split <;> simp [hc, hz]
    | some sup => simp only [Option.getD_some]; split <;> simp [hc]
  · simp [counterOf, updateTimeBasedSupplyLimit, setAssetSupply, hd]

theorem updateTimeBasedSupplyLimits_denoms (hw : SupplyDenoms s) (ctx : Ctx) :
    SupplyDenoms (updateTimeBasedSupplyLimits ctx s) := by
  unfold updateTimeBasedSupplyLimits
  split
  · exact hw
  · exact List.foldlRecOn (getAssets s) _ hw fun _ h asset _ =>
      updateTimeBasedSupplyLimit_denoms h _ asset

theorem updateTimeBasedSupplyLimits_counterOf {counter : AssetSupply → Coin}
    (hc : ∀ sup c t, counter { sup with timeLimitedCurrentSupply := c, timeElapsed := t } =
      counter sup)
    (hz : ∀ d t, counter (zeroSupply d t) = ⟨d, 0⟩) (ctx : Ctx) (s : State A) :
    counterOf counter (updateTimeBasedSupplyLimits ctx s) = counterOf counter s := by
  unfold updateTimeBasedSupplyLimits
  split
  · rfl
  · exact List.foldlRecOn (motive := fun s' => counterOf counter s' = counterOf counter s)
      (getAssets s) _ rfl
      fun s' h asset _ => (updateTimeBasedSupplyLimit_counterOf hc hz _ s' asset).trans h

theorem pendingAmount_afterBlock (height : Nat) (dir : SwapDirection) (d : Denom) (a : AtomicSwap) :
    (afterBlock height a).elim 0 (pendingAmount dir d) = pendingAmount dir d a := by
  unfold afterBlock
  split
  · rename_i h
    simp [pendingAmount, expiredSwap, h.1]
  · split
    · rename_i h
      simp [pendingAmount, h.1]
    · rfl

theorem pending_beginBlocker (hi : IndexInv env s) (ctx : Ctx) (dir : SwapDirection) :
    pending dir (beginBlocker env ctx s) = pending dir s := by
  funext d
  refine KVStore.sumOn_congr fun id => ?_
  rw [(hi.beginBlocker ctx).2 id]
  cases s.swaps.get id with
  | none => rfl
  | some a => exact pendingAmount_afterBlock ctx.blockHeight dir d a

theorem beginBlocker_moves (hi : IndexInv env s) (hw : SupplyDenoms s) (ctx : Ctx) (d : Denom) :
    Moves s (beginBlocker env ctx s) d 0 := by
  obtain ⟨W, B, L, hb⟩ := beginBlocker_scans env ctx s
  have hd := updateTimeBasedSupplyLimits_denoms hw ctx
  have hc (counter : AssetSupply → Coin) :
      counterOf counter (beginBlocker env ctx s) = counterOf counter
        (updateTimeBasedSupplyLimits ctx s) := by
    rw [hb]; rfl
  have hbank : (beginBlocker env ctx s).bank = s.bank := by
    obtain ⟨_, _, he⟩ := updateTimeBasedSupplyLimits_frame ctx s
    rw [hb, he]
  refine ⟨by rw [hb]; exact hd, fun b => book_unmoved ?_ rfl⟩
  cases b with
  | incoming =>
    exact (hc _).trans
      (updateTimeBasedSupplyLimits_counterOf (fun _ _ _ => rfl) (fun _ _ => rfl) ctx s)
  | outgoing =>
    exact (hc _).trans
      (updateTimeBasedSupplyLimits_counterOf (fun _ _ _ => rfl) (fun _ _ => rfl) ctx s)
  | current =>
    exact (hc _).trans
      (updateTimeBasedSupplyLimits_counterOf (fun _ _ _ => rfl) (fun _ _ => rfl) ctx s)
  | pendingIn => exact pending_beginBlocker hi ctx .incoming
  | pendingOut => exact pending_beginBlocker hi ctx .outgoing
  | held => simp only [book, hbank]
  | total => simp only [book, hbank]

/-! ## Steps -/

def Op.sender : Op → Option Addr
  | .create _ args => some args.sender
  | _ => none

theorem Created.oneCoin {ctx : Ctx} {args : CreateArgs} {asset : AssetParam}
    {direction : SwapDirection} {s₁ : State A}
    (h : Created env ctx s args coin asset direction s₁ s') :
    OneCoin (newSwap ctx args direction) := by
  obtain ⟨_, _, hv⟩ := getAsset_ok h.supported
  obtain ⟨_, _, _, hmin⟩ := AssetParam.validate_ok hv
  exact ⟨coin, h.amount, lt_of_lt_of_le hmin h.bounds.1⟩

theorem Created.swapOk {ctx : Ctx} {args : CreateArgs} {asset : AssetParam}
    {direction : SwapDirection} {s₁ : State A}
    (h : Created env ctx s args coin asset direction s₁ s') (hne : args.sender ≠ A.addr .bep3) :
    SwapOk A (newSwap ctx args direction) :=
  ⟨h.oneCoin, h.recipient, hne⟩

/-- The books change in step, but for `m` coins that the module account does not take in. -/
structure Balanced (δ : Book → Int) (m : Int) : Prop where
  incoming : δ .incoming = δ .pendingIn
  outgoing : δ .outgoing = δ .pendingOut
  held : δ .held = δ .outgoing - m
  current : δ .current = δ .total

theorem Balanced.zero : Balanced 0 0 := ⟨rfl, rfl, rfl, rfl⟩

theorem Balanced.escrow (dir : SwapDirection) (n m : Int) :
    Balanced (escrowDelta dir n - Pi.single .held m + pendingDelta dir n) m := by
  refine ⟨?_, ?_, ?_, ?_⟩ <;> simp [escrowDelta, pendingDelta]

theorem Balanced.claim (dir : SwapDirection) (n : Int) :
    Balanced (claimDelta dir n + pendingDelta dir (-n)) 0 := by
  refine ⟨?_, ?_, ?_, ?_⟩ <;> simp [claimDelta, pendingDelta]

def claimed (env : Env) (dir : SwapDirection) (s : State A) : Op → Ledger Denom
  | .claim ctx id number =>
    match s.swaps.get id, claimAtomicSwap env ctx s id number with
    | some a, .ok _ => if a.direction = dir then a.amount.amountOf else 0
    | _, _ => 0
  | _ => 0

def claimedOver (env : Env) (dir : SwapDirection) (s : State A) : List Op → Ledger Denom
  | [] => 0
  | op :: ops => claimed env dir s op + claimedOver env dir (step env s op) ops

theorem payClaim_direction {a : AtomicSwap} (h : payClaim s a = .ok s') :
    a.direction = .incoming ∨ a.direction = .outgoing := by
  cases payClaim_ok h with
  | incoming hd => exact Or.inl hd
  | outgoing hd => exact Or.inr hd

/-- One step changes the books of one denom, in step, and the total supply by what it claims. -/
theorem step_balanced (hi : IndexInv env s) (hw : SupplyDenoms s) (hc : SwapCoins s) (op : Op) :
    ∃ d δ m, Moves s (step env s op) d δ ∧ Balanced δ m ∧
      (op.sender ≠ some (A.addr .bep3) → m = 0) ∧
      Pi.single d (δ .total) = claimed env .incoming s op - claimed env .outgoing s op := by
  cases op with
  | create ctx args =>
    rcases orElseKeep_cases s (createAtomicSwap env ctx s args) with ⟨s', h, e⟩ | ⟨_, e⟩
    · obtain ⟨coin, _, dir, _, hc⟩ := createAtomicSwap_ok h
      rw [step, e]
      refine ⟨_, _, _, created_moves hw hc, Balanced.escrow dir coin.amount _, fun hop => ?_, ?_⟩
      · exact unheld_of_ne (fun e => hop (congrArg some e)) dir coin.amount
      · simp [escrowDelta, pendingDelta, claimed]
    · rw [step, e]
      exact ⟨"", 0, 0, Moves.refl hw _, Balanced.zero, fun _ => rfl, by simp [claimed]⟩
  | claim ctx id number =>
    rcases orElseKeep_cases s (claimAtomicSwap env ctx s id number) with ⟨s', h, e⟩ | ⟨⟨err, h⟩, e⟩
    · obtain ⟨a, s₁, ha, _, _, hpay, _⟩ := claimAtomicSwap_ok h
      obtain ⟨coin, hcoin, _⟩ := hc id a ha
      rw [step, e]
      refine ⟨_, _, _, claim_moves hi hw ha hcoin h, Balanced.claim a.direction coin.amount,
        fun _ => rfl, ?_⟩
      funext x
      rcases payClaim_direction hpay with hd | hd <;> by_cases hx : coin.denom = x <;>
        simp [claimed, ha, h, hd, hcoin, claimDelta, pendingDelta, eq_comm (a := x), hx]
    · rw [step, e]
      refine ⟨"", 0, 0, Moves.refl hw _, Balanced.zero, fun _ => rfl, ?_⟩
      cases ha : s.swaps.get id <;> simp [claimed, ha, h]
  | refund ctx id =>
    rcases orElseKeep_cases s (refundAtomicSwap env ctx s id) with ⟨s', h, e⟩ | ⟨_, e⟩
    · obtain ⟨a, s₁, ha, _, _, _⟩ := refundAtomicSwap_ok h
      obtain ⟨coin, hcoin, _⟩ := hc id a ha
      have hm : Moves s s' coin.denom (escrowDelta a.direction (-coin.amount) - Pi.single .held 0 +
          pendingDelta a.direction (-coin.amount)) :=
            (refund_moves hi hw ha hcoin h).congr fun b => by simp
      rw [step, e]
      exact ⟨_, _, _, hm, Balanced.escrow a.direction (-coin.amount) 0, fun _ => rfl,
        by simp [escrowDelta, pendingDelta, claimed]⟩
    · rw [step, e]
      exact ⟨"", 0, 0, Moves.refl hw _, Balanced.zero, fun _ => rfl, by simp [claimed]⟩
  | beginBlock ctx =>
    -- the scans move no coins and leave the pending swaps pending
    exact ⟨"", 0, 0, beginBlocker_moves hi hw ctx "", Balanced.zero,
      fun _ => rfl, by simp [claimed]⟩

theorem SwapCoins.step (h : SwapCoins s) (hi : IndexInv env s) (op : Op) :
    SwapCoins (step env s op) := by
  intro id a' ha'
  have he := hi.evolves op id
  rw [ha'] at he
  generalize hx : s.swaps.get id = x at he
  cases he with
  | keep => exact h id a' hx
  | create hc => exact hc.oneCoin
  | claim _ | refund _ | expire _ _ =>
    have ha := h id _ hx
    exact ha

theorem SwapsOk.step (h : SwapsOk s) (hi : IndexInv env s) {op : Op}
    (hop : op.sender ≠ some (A.addr .bep3)) :
    SwapsOk (step env s op) := by
  intro id a' ha'
  have he := hi.evolves op id
  rw [ha'] at he
  generalize hx : s.swaps.get id = x at he
  cases he with
  | keep => exact h id a' hx
  | create hc => exact hc.swapOk fun e => hop (congrArg some e)
  | claim _ | refund _ | expire _ _ =>
    have ha := h id _ hx
    exact ⟨ha.amount, ha.recipient, ha.sender⟩

/-! ## Runs -/

def ZeroCounters (s : State A) : Prop :=
  ∀ d sup, s.supplies.get d = some sup → ∃ t, sup = zeroSupply d t

structure SupplyInv (env : Env) (t : Ledger Denom) (s : State A) : Prop where
  index : IndexInv env s
  denoms : SupplyDenoms s
  swaps : SwapsOk s
  incoming : book s .incoming = book s .pendingIn
  outgoing : book s .outgoing = book s .pendingOut
  held : ∀ d, book s .outgoing d ≤ book s .held d
  current : book s .total = t + book s .current

theorem SupplyInv.init (hn : NoSwaps s) (hz : ZeroCounters s) :
    SupplyInv env (book s .total) s := by
  have h₁ := hn.1
  have hc {counter : AssetSupply → Coin} (hcz : ∀ d t, counter (zeroSupply d t) = ⟨d, 0⟩) :
      counterOf counter s = 0 := by
    funext d
    unfold counterOf
    cases hs : s.supplies.get d with
    | none => rfl
    | some sup =>
      obtain ⟨t, rfl⟩ := hz d sup hs
      simp [hcz]
  have hp (dir : SwapDirection) : pending dir s = 0 := by
    funext d
    simp [pending, h₁]
  refine ⟨IndexInv.of_empty hn, fun d sup hs => ?_, fun id a ha => ?_, ?_, ?_, fun d => ?_, ?_⟩
  · obtain ⟨t, rfl⟩ := hz d sup hs
    exact ⟨rfl, rfl, rfl, rfl⟩
  · rw [h₁] at ha
    cases ha
  · exact (hc fun _ _ => rfl).trans (hp _).symm
  · exact (hc fun _ _ => rfl).trans (hp _).symm
  · rw [show book s .outgoing = 0 from hc fun _ _ => rfl]
    exact s.bank.balances_nonneg _ d
  · rw [show book s .current = 0 from hc fun _ _ => rfl, add_zero]

theorem SupplyInv.step {t : Ledger Denom} (h : SupplyInv env t s) {op : Op}
    (hop : op.sender ≠ some (A.addr .bep3)) :
    SupplyInv env t (step env s op) := by
  obtain ⟨d, δ, m, hm, hδ, hm0, _⟩ := step_balanced h.index h.denoms h.swaps.coins op
  refine ⟨h.index.step op, hm.denoms, h.swaps.step h.index hop, ?_, ?_, fun x => ?_, ?_⟩
  · rw [hm.books, hm.books, h.incoming, hδ.incoming]
  · rw [hm.books, hm.books, h.outgoing, hδ.outgoing]
  · rw [hm.books, hm.books, hδ.held, hm0 hop, sub_zero]
    exact add_le_add_left (h.held x) _
  · rw [hm.books, hm.books, h.current, hδ.current, Ledger.add, Ledger.add, add_assoc]

theorem SupplyInv.run {t : Ledger Denom} (h : SupplyInv env t s) {ops : List Op}
    (hop : ∀ op ∈ ops, op.sender ≠ some (A.addr .bep3)) :
    SupplyInv env t (runSteps (Bep3.step env) s ops) :=
  runSteps_inv (P := fun op => op.sender ≠ some (A.addr .bep3)) (Bep3.step env)
    (fun _ _ hop h => h.step hop) h ops hop

/-- The counters of a run, whoever the senders of its swaps are. -/
structure CounterInv (env : Env) (s : State A) : Prop where
  index : IndexInv env s
  denoms : SupplyDenoms s
  coins : SwapCoins s
  incoming : book s .incoming = book s .pendingIn
  outgoing : book s .outgoing = book s .pendingOut

theorem SupplyInv.counters {t : Ledger Denom} (h : SupplyInv env t s) : CounterInv env s :=
  ⟨h.index, h.denoms, h.swaps.coins, h.incoming, h.outgoing⟩

theorem CounterInv.step (h : CounterInv env s) (op : Op) : CounterInv env (step env s op) := by
  obtain ⟨d, δ, m, hm, hδ, _, _⟩ := step_balanced h.index h.denoms h.coins op
  refine ⟨h.index.step op, hm.denoms, h.coins.step h.index op, ?_, ?_⟩
  · rw [hm.books, hm.books, h.incoming, hδ.incoming]
  · rw [hm.books, hm.books, h.outgoing, hδ.outgoing]

theorem total_run {t : Ledger Denom} (h : SupplyInv env t s) {ops : List Op}
    (hop : ∀ op ∈ ops, op.sender ≠ some (A.addr .bep3)) :
    book (runSteps (step env) s ops) .total =
      book s .total + (claimedOver env .incoming s ops - claimedOver env .outgoing s ops) := by
  induction ops generalizing s with
  | nil => simp [claimedOver]
  | cons op ops ih =>
    obtain ⟨d, δ, _, hm, _, _, hc⟩ := step_balanced h.index h.denoms h.swaps.coins op
    rw [runSteps_cons, ih (h.step (hop op (by simp))) fun op hop' => hop op (by simp [hop']),
      hm.books, Ledger.add, hc, claimedOver, claimedOver]
    abel

/-- In every run of creations by senders other than the module account, claims,
refunds and begin blockers, the counters of every denom are the sums over the stored
swaps that are not completed, the module account holds what the outgoing counter
says, and the current counter is what claims minted less what claims burned. -/
theorem supply_counters_match (env : Env) (s₀ : State A) (hn : NoSwaps s₀) (hz : ZeroCounters s₀)
    (ops : List Op) (hop : ∀ op ∈ ops, op.sender ≠ some (A.addr .bep3)) (d : Denom) :
    let s := runSteps (step env) s₀ ops
    counterOf AssetSupply.incomingSupply s d = pending .incoming s d ∧
    counterOf AssetSupply.outgoingSupply s d = pending .outgoing s d ∧
    counterOf AssetSupply.outgoingSupply s d ≤ s.bank.balances (A.addr .bep3) d ∧
    counterOf AssetSupply.currentSupply s d =
      claimedOver env .incoming s₀ ops d - claimedOver env .outgoing s₀ ops d ∧
    s.bank.supply d =
      s₀.bank.supply d + claimedOver env .incoming s₀ ops d -
        claimedOver env .outgoing s₀ ops d := by
  intro s
  have h₀ : SupplyInv env (book s₀ .total) s₀ := SupplyInv.init hn hz
  have h := h₀.run hop
  have ht := congrFun (total_run h₀ hop) d
  have hc := congrFun h.current d
  simp only [Pi.add_apply, Pi.sub_apply] at ht hc
  refine ⟨congrFun h.incoming d, congrFun h.outgoing d, h.held d, ?_, ?_⟩
  · change book (runSteps (step env) s₀ ops) .current d = _
    omega
  · change book (runSteps (step env) s₀ ops) .total d = book s₀ .total d + _ - _
    omega

theorem sampleState_zeroCounters : ZeroCounters sampleState := by
  intro d sup h
  have hm := (KVStore.get_eq_some_iff _ _ _).mp h
  have he : sampleState.supplies.entries = [("bnb", zeroSupply "bnb" 0)] := by decide
  rw [he, List.mem_singleton] at hm
  cases hm
  exact ⟨0, rfl⟩

def roundTrip : List Op :=
  [.create (sampleCtx 100) (sampleArgs 1 deputyAddr userAddr 100), sampleClaim,
    .create (sampleCtx 101) (sampleArgs 2 userAddr deputyAddr 60)]

/-- The module account itself opens a swap of 40, which moves no coins. -/
def moduleSwap : Op :=
  .create (sampleCtx 101) (sampleArgs 3 (chainAddrs.addr .bep3) deputyAddr 40)

theorem moduleSwap_unheld :
    NoSwaps sampleState ∧ ZeroCounters sampleState ∧
    counterOf AssetSupply.outgoingSupply
      (runSteps (step sampleEnv) sampleState (roundTrip ++ [moduleSwap])) "bnb" = 100 ∧
    (runSteps (step sampleEnv) sampleState (roundTrip ++ [moduleSwap])).bank.balances
      (chainAddrs.addr .bep3) "bnb" = 60 :=
  ⟨⟨rfl, rfl, rfl⟩, sampleState_zeroCounters, by decide, by decide⟩

theorem supply_counters_match_roundTrip :
    counterOf AssetSupply.outgoingSupply (runSteps (step sampleEnv) sampleState roundTrip)
      "bnb" = 60 ∧
    counterOf AssetSupply.outgoingSupply (runSteps (step sampleEnv) sampleState roundTrip) "bnb" ≤
      (runSteps (step sampleEnv) sampleState roundTrip).bank.balances
        (chainAddrs.addr .bep3) "bnb" :=
  ⟨by decide, (supply_counters_match sampleEnv sampleState ⟨rfl, rfl, rfl⟩
    sampleState_zeroCounters roundTrip
    (by decide) "bnb").2.2.1⟩

end ZgChain.Bep3
