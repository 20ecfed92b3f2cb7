import ZgChain.Evmutil.Conversion

/-!
# Wrapped coins are backed

The module account holds the coins behind every contract of the module, and also the whole
units of the gas denom behind the minor balances. The two do not meet as long as the gas
denom has no contract: the EVM's bank keeper moves the gas denom only. Nothing keeps the gas
denom off the list of coins that may get a contract.
-/

namespace ZgChain.Evmutil

variable {A : ModuleAddrs} {E : Type} {evm : EvmKeeper E}

/-- For every coin with a contract, the module account has what the contract has given out. -/
def Backed (evm : EvmKeeper E) (w : World A E) : Prop :=
  ∀ d c, w.deployed.get d = some c → evm.totalSupply w.evm c = some (w.moduleBalance d)

/-- The registered invariant. It stops at the first contract that is not backed, and panics
if a contract does not answer. What it found broken once it reports ever after. -/
def cosmosCoinsFullyBackedInvariant (evm : EvmKeeper E) (w : World A E) (broken : Bool) :
    Except ConvertError (String × Bool) :=
  let rec check : List (Denom × InternalEVMAddress) → Bool → Except ConvertError Bool
    | [], broken => .ok broken
    | (d, c) :: rest, broken => do
      let totalSupply ← orReject (evm.totalSupply w.evm c) (.panic "failed to query total supply")
      if broken || decide (totalSupply ≠ w.moduleBalance d) then return true else check rest false
  (fun b => ("evmutil: cosmos coins fully-backed broken invariant\n" ++
      "ERC20 total supply is not equal to module account balance\n", b))
    <$> check w.deployed.entries broken

theorem Backed.check {w : World A E} {entries : List (Denom × InternalEVMAddress)}
    (h : ∀ x ∈ entries, evm.totalSupply w.evm x.2 = some (w.moduleBalance x.1)) :
    cosmosCoinsFullyBackedInvariant.check evm w entries false = .ok false := by
  induction entries with
  | nil => rfl
  | cons x entries ih =>
    unfold cosmosCoinsFullyBackedInvariant.check
    rw [h x (by simp)]
    simpa [orReject] using ih fun y hy => h y (by simp [hy])

theorem Backed.invariant {w : World A E} (h : Backed evm w) :
    ∃ text, cosmosCoinsFullyBackedInvariant evm w false = .ok (text, false) := by
  have hcheck : cosmosCoinsFullyBackedInvariant.check evm w w.deployed.entries false =
      .ok false := by
    refine Backed.check fun x hx => ?_
    exact h x.1 x.2 ((KVStore.get_eq_some_iff _ _ _).mpr hx)
  unfold cosmosCoinsFullyBackedInvariant
  rw [hcheck]
  exact ⟨_, rfl⟩

/-- What is assumed of the EVM: a contract of the module starts with no tokens, minting and
burning change its supply by the amount, and no other call changes it. -/
structure Wrappers (evm : EvmKeeper E) where
  wrapper : E → InternalEVMAddress → Prop
  deploy : ∀ {e e' : E} {token : AllowedCosmosCoinERC20Token} {a : InternalEVMAddress},
    evm.deploy e token = some (a, e') → ¬ wrapper e a ∧ wrapper e' a ∧
    evm.totalSupply e' a = some 0 ∧
      ∀ c, wrapper e c → wrapper e' c ∧ evm.totalSupply e' c = evm.totalSupply e c
  mint : ∀ {e e' : E} {c receiver : InternalEVMAddress} {n : Int}, wrapper e c → 0 ≤ n →
    evm.mint e c receiver n = some e' → evm.totalSupply e' c = (evm.totalSupply e c).map (· + n) ∧
      ∀ c', wrapper e c' → wrapper e' c' ∧ (c' ≠ c → evm.totalSupply e' c' = evm.totalSupply e c')
  burn : ∀ {e e' : E} {c initiator : InternalEVMAddress} {n : Int}, wrapper e c → 0 ≤ n →
    evm.burn e c initiator n = some e' → evm.totalSupply e' c = (evm.totalSupply e c).map (· - n) ∧
      ∀ c', wrapper e c' → wrapper e' c' ∧ (c' ≠ c → evm.totalSupply e' c' = evm.totalSupply e c')
  transfer : ∀ {e e' : E} {c sender receiver : InternalEVMAddress} {n : Int} {logs : List Log},
    evm.transfer e c sender receiver n = some (e', logs) →
      ∀ c', wrapper e c' → wrapper e' c' ∧ evm.totalSupply e' c' = evm.totalSupply e c'

def allowedDenoms (p : Params) : List Denom := p.allowedCosmosDenoms.map (·.cosmosDenom)

def Op.initiator : Op → Option Addr
  | convertCosmosCoinToERC20 initiator _ _ => some initiator
  | convertCoinToERC20 initiator _ _ => some initiator
  | _ => none

/-- The part of an amount that is below one unit of the gas denom. -/
def remainder (amt : Coins) : Int := amt.amountOf evmDenom % conversionMultiplier

/-- No unit goes into the reserve or out of it: the payer has the remainder as minor balance, the
payee's minor balance stays below a unit, and neither is the module account. -/
def EvmOp.LeavesReserve (s : State A) : EvmOp → Prop
  | .sendCoinsFromAccountToModule src m amt => Settles src (A.addr m) amt
  | .sendCoinsFromModuleToAccount m dst amt => Settles (A.addr m) dst amt
  | .mintCoins m amt =>
    m ≠ .evmutil ∧ getBalance s (A.addr m) + remainder amt < conversionMultiplier
  | .burnCoins m amt => m ≠ .evmutil ∧ remainder amt ≤ getBalance s (A.addr m)
where
  Settles (src dst : Addr) (amt : Coins) : Prop :=
    src ≠ A.addr .evmutil ∧ dst ≠ A.addr .evmutil ∧ remainder amt ≤ getBalance s src ∧
      getBalance s dst + (if dst = src then 0 else remainder amt) < conversionMultiplier

/-- The operation keeps the coins behind contracts apart from other coins of the module account:
it sends none of the module account's own, and it leaves the reserve alone if the gas denom
may get a contract. -/
def Op.KeepsApart (w : World A E) (op : Op) : Prop :=
  op.initiator ≠ some (A.addr .evmutil) ∧
    (gasDenom ∈ allowedDenoms w.params.val → ∀ o, op = .evmBank o → o.LeavesReserve w.state)

/-! ## The EVM's bank keeper moves the gas denom only -/

def OtherDenoms (s s' : State A) : Prop :=
  ∀ x d, d ≠ gasDenom → s'.bank.balances x d = s.bank.balances x d

section
variable {s s₁ s' : State A}

theorem OtherDenoms.trans (h : OtherDenoms s s₁) (h' : OtherDenoms s₁ s') : OtherDenoms s s' :=
  fun x d hd => (h' x d hd).trans (h x d hd)

theorem OtherDenoms.of_bank (h : s'.bank = s.bank) : OtherDenoms s s' := by
  intro x d _
  rw [h]

theorem amountOf_gasCoins (q : Int) {d : Denom} (hd : d ≠ gasDenom) :
    (newCoins ⟨gasDenom, q⟩).amountOf d = 0 := by
  rw [amountOf_newCoins, if_neg (Ne.symm hd)]

theorem sendCoins_otherDenoms {b b' : Bank A} {src dst : Addr} {q : Int}
    (h : b.sendCoins src dst (newCoins ⟨gasDenom, q⟩) = .ok b') (x : Addr) {d : Denom}
    (hd : d ≠ gasDenom) :
    b'.balances x d = b.balances x d := by
  rw [(Bank.sendCoins_ok h).2.1, amountOf_gasCoins q hd]
  simp

theorem withBankIfPositive_otherDenoms {c : Coin} {x : Except BankError (Bank A)}
    (hx : ∀ b, x = .ok b → ∀ y d, d ≠ gasDenom → b.balances y d = s.bank.balances y d)
    (h : withBankIfPositive s c x = .ok s') : OtherDenoms s s' := by
  unfold withBankIfPositive at h
  split at h
  · exact hx _ (withBank_bank h)
  · cases h
    exact .of_bank rfl

theorem convertOneGasDenomToEvmDenomIfNeeded_otherDenoms {a : Addr} {n : Int}
    (h : convertOneGasDenomToEvmDenomIfNeeded s a n = .ok s') : OtherDenoms s s' := by
  unfold convertOneGasDenomToEvmDenomIfNeeded at h
  split at h
  · cases h
    exact .of_bank rfl
  · simp only [bind_eq_ok] at h
    obtain ⟨s₁, hbank, hadd⟩ := h
    have h₁ : OtherDenoms s s₁ := fun y d hd => sendCoins_otherDenoms (withBank_bank hbank) y hd
    exact h₁.trans (.of_bank (addBalance_ok hadd).bank)

theorem convertEvmDenomToGasDenom_otherDenoms {a : Addr}
    (h : convertEvmDenomToGasDenom s a = .ok s') :
    OtherDenoms s s' := by
  simp only [convertEvmDenomToGasDenom, splitEvmDenomCoins_evmCoins (getBalance_nonneg s a),
    ok_bind] at h
  split at h
  · cases h
    exact .of_bank rfl
  · simp only [bind_eq_ok] at h
    obtain ⟨s₁, hset, hbank⟩ := h
    have h₁ : OtherDenoms s s₁ := .of_bank (setBalance_ok hset).bank
    exact h₁.trans fun y d hd => sendCoins_otherDenoms (withBank_bank hbank) y hd

theorem Transfers.otherDenoms {src dst : Addr} {amt : Coins} (h : Transfers s src dst amt s') :
    OtherDenoms s s' := by
  obtain ⟨q, r, _, s₁, s₂, s₃, ⟨x, hx, h₁⟩, h₂, h₃, h₄⟩ := h
  have c₁ : OtherDenoms s s₁ :=
    withBankIfPositive_otherDenoms (fun b hb y d hd => sendCoins_otherDenoms (hx b hb) y hd) h₁
  have c₂ := convertOneGasDenomToEvmDenomIfNeeded_otherDenoms h₂
  have c₃ : OtherDenoms s₂ s₃ := .of_bank (sendBalance_ok h₃).1
  exact ((c₁.trans c₂).trans c₃).trans (convertEvmDenomToGasDenom_otherDenoms h₄)

theorem EvmOp.exec_otherDenoms {op : EvmOp} (h : op.exec s = .ok s') : OtherDenoms s s' := by
  cases op with
  | sendCoinsFromAccountToModule src m amt =>
    exact (sendCoinsFromAccountToModule_transfers h).otherDenoms
  | sendCoinsFromModuleToAccount m dst amt =>
    exact (sendCoinsFromModuleToAccount_transfers h).otherDenoms
  | mintCoins m amt =>
    obtain ⟨q, r, _, s₁, s₂, h₁, h₂, h₃⟩ := mintCoins_steps h
    have c₁ : OtherDenoms s s₁ := by
      refine withBankIfPositive_otherDenoms (fun b hb y d hd => ?_) h₁
      rw [(Bank.mintCoins_ok hb).2.1, amountOf_gasCoins q hd]
      simp
    have c₂ : OtherDenoms s₁ s₂ := .of_bank (addBalance_ok h₂).bank
    exact (c₁.trans c₂).trans (convertEvmDenomToGasDenom_otherDenoms h₃)
  | burnCoins m amt =>
    obtain ⟨q, r, _, s₁, s₂, h₁, h₂, h₃⟩ := burnCoins_steps h
    have c₁ : OtherDenoms s s₁ := by
      refine withBankIfPositive_otherDenoms (fun b hb y d hd => ?_) h₁
      rw [(Bank.burnCoins_ok hb).2.1, amountOf_gasCoins q hd]
      simp
    have c₂ := convertOneGasDenomToEvmDenomIfNeeded_otherDenoms h₂
    exact (c₁.trans c₂).trans (.of_bank (removeBalance_ok h₃).bank)

end

/-! ## Payments that leave the reserve alone -/

section
variable {s s₁ s' : State A}

def SameReserve (s s' : State A) : Prop :=
  s'.bank.balances (A.addr .evmutil) gasDenom = s.bank.balances (A.addr .evmutil) gasDenom

theorem convertOneGasDenomToEvmDenomIfNeeded_eq {a : Addr} {n : Int} (h : n ≤ getBalance s a) :
    convertOneGasDenomToEvmDenomIfNeeded s a n = .ok s := by
  rw [convertOneGasDenomToEvmDenomIfNeeded, if_pos h]
  rfl

theorem convertEvmDenomToGasDenom_eq {a : Addr} (h : getBalance s a < conversionMultiplier) :
    convertEvmDenomToGasDenom s a = .ok s := by
  have hnn := getBalance_nonneg s a
  have hzero : getBalance s a / conversionMultiplier = 0 := Int.ediv_eq_zero_of_lt hnn h
  simp only [convertEvmDenomToGasDenom, splitEvmDenomCoins_evmCoins hnn, ok_bind, hzero, lt_irrefl,
    not_false_iff, if_true]
  rfl

theorem withBankIfPositive_reserve {c : Coin} {x : Except BankError (Bank A)}
    (hx : ∀ b, x = .ok b → b.balances (A.addr .evmutil) gasDenom =
      s.bank.balances (A.addr .evmutil) gasDenom)
    (h : withBankIfPositive s c x = .ok s') :
    SameReserve s s' ∧ ∀ y, getBalance s' y = getBalance s y := by
  unfold withBankIfPositive at h
  split at h
  · obtain ⟨b, hb, rfl⟩ := (withBank_eq_ok _ _ _).mp h
    exact ⟨hx b hb, fun _ => rfl⟩
  · cases h
    exact ⟨rfl, fun _ => rfl⟩

theorem Transfers.sameReserve {src dst : Addr} {amt : Coins}
    (hl : EvmOp.LeavesReserve.Settles s src dst amt)
    (h : Transfers s src dst amt s') : SameReserve s s' := by
  obtain ⟨hsrc, hdst, hpayer, hpayee⟩ := hl
  obtain ⟨q, r, hsplit, s₁, s₂, s₃, ⟨x, hx, h₁⟩, h₂, h₃, h₄⟩ := h
  obtain ⟨hreserve, hminor⟩ := withBankIfPositive_reserve (fun b hb => by
    rw [(Bank.sendCoins_ok (hx b hb)).2.1, if_neg hsrc.symm, if_neg hdst.symm, sub_zero,
      add_zero]) h₁
  have hr : r = remainder amt := hsplit.remainder
  rw [convertOneGasDenomToEvmDenomIfNeeded_eq (by rw [hminor, hr]; exact hpayer)] at h₂
  cases h₂
  obtain ⟨hbank, hbalance, _⟩ := sendBalance_ok h₃
  have hlt : getBalance s₃ dst < conversionMultiplier := by
    rw [hbalance, hminor, if_pos rfl, hr]
    by_cases e : dst = src
    · rw [if_pos e] at hpayee ⊢
      omega
    · rw [if_neg e] at hpayee ⊢
      omega
  rw [convertEvmDenomToGasDenom_eq hlt] at h₄
  cases h₄
  rw [SameReserve, hbank]
  exact hreserve

theorem EvmOp.exec_sameReserve {op : EvmOp} (hl : op.LeavesReserve s) (h : op.exec s = .ok s') :
    SameReserve s s' := by
  cases op with
  | sendCoinsFromAccountToModule src m amt =>
    exact (sendCoinsFromAccountToModule_transfers h).sameReserve hl
  | sendCoinsFromModuleToAccount m dst amt =>
    exact (sendCoinsFromModuleToAccount_transfers h).sameReserve hl
  | mintCoins m amt =>
    obtain ⟨hm, hlt⟩ := hl
    obtain ⟨q, r, hsplit, s₁, s₂, h₁, h₂, h₃⟩ := mintCoins_steps h
    obtain ⟨hreserve, hminor⟩ := withBankIfPositive_reserve (fun b hb => by
      rw [(Bank.mintCoins_ok hb).2.1, if_neg (A.addr_ne hm.symm), add_zero]) h₁
    have hadd := addBalance_ok h₂
    have hlt₂ : getBalance s₂ (A.addr m) < conversionMultiplier := by
      rw [hadd.balance, if_pos rfl, hminor, hsplit.remainder]
      exact hlt
    rw [convertEvmDenomToGasDenom_eq hlt₂] at h₃
    cases h₃
    rw [SameReserve, hadd.bank]
    exact hreserve
  | burnCoins m amt =>
    obtain ⟨hm, hle⟩ := hl
    obtain ⟨q, r, hsplit, s₁, s₂, h₁, h₂, h₃⟩ := burnCoins_steps h
    obtain ⟨hreserve, hminor⟩ := withBankIfPositive_reserve (fun b hb => by
      rw [(Bank.burnCoins_ok hb).2.1, if_neg (A.addr_ne hm.symm), sub_zero]) h₁
    rw [convertOneGasDenomToEvmDenomIfNeeded_eq (by rw [hminor, hsplit.remainder]; exact hle)] at h₂
    cases h₂
    rw [SameReserve, (removeBalance_ok h₃).bank]
    exact hreserve

end

/-! ## Parts of a conversion -/

section
variable {w w₁ w' : World A E}

theorem World.withBank_ok {x : Except BankError (Bank A)} :
    w.withBank x = .ok w' ↔ ∃ b, x = .ok b ∧ w.setBank b = w' :=
  Bank.store_eq_ok

theorem World.withBank_bank {x : Except BankError (Bank A)} (h : w.withBank x = .ok w') :
    x = .ok w'.bank :=
  Bank.stored World.bank (fun _ => rfl) h

theorem mustNewCoins_ok {c : Coin} {coins : Coins} (h : mustNewCoins c = .ok coins) :
    coins = newCoins c ∧ 0 ≤ c.amount := by
  simp only [mustNewCoins, bind_eq_ok, rejectIf_eq_ok, pure_eq_ok, Bool.not_eq_false] at h
  obtain ⟨_, hv, rfl⟩ := h
  refine ⟨rfl, ?_⟩
  by_cases hz : c.amount = 0
  · rw [hz]
  · rw [newCoins, if_neg hz] at hv
    exact ((isValid_singleton c).mp hv).2.le

theorem callTransfer_ok {c sender receiver : InternalEVMAddress} {n : Int} {logs : List Log} :
    callTransfer evm w c sender receiver n = .ok (w', logs) ↔
      ∃ e, evm.transfer w.evm c sender receiver n = some (e, logs) ∧ w' = { w with evm := e } := by
  simp only [callTransfer, bind_eq_ok, orReject_eq_ok, pure_eq_ok]
  constructor
  · intro h
    obtain ⟨r, hr, he⟩ := h
    obtain ⟨e, logs'⟩ := r
    cases he
    exact ⟨e, hr, rfl⟩
  · intro h
    obtain ⟨e, hr, rfl⟩ := h
    exact ⟨(e, logs), hr, rfl⟩

theorem lockERC20Tokens_ok {pair : ConversionPair} {n : Int} {initiator : InternalEVMAddress}
    (h : lockERC20Tokens evm w pair n initiator = .ok w') : ∃ start e logs,
      evm.balanceOf w.evm pair.getAddress initiator = some start ∧
      evm.transfer w.evm pair.getAddress initiator (moduleEVMAddress A) n = some (e, logs) ∧
      evm.balanceOf e pair.getAddress initiator = some (start - n) ∧ w' = { w with evm := e } := by
  simp only [lockERC20Tokens, queryERC20BalanceOf, bind_eq_ok, orReject_eq_ok, rejectIf_eq_ok,
    pure_eq_ok, not_not] at h
  obtain ⟨start, hstart, r, hr, final, hfinal, _, rfl, _, _, rfl⟩ := h
  obtain ⟨w₁, logs⟩ := r
  obtain ⟨e, he, rfl⟩ := callTransfer_ok.mp hr
  exact ⟨start, e, logs, hstart, he, hfinal, rfl⟩

theorem unlockERC20Tokens_ok {pair : ConversionPair} {n : Int} {receiver : InternalEVMAddress}
    (h : unlockERC20Tokens evm w pair n receiver = .ok w') : ∃ start e logs,
      evm.balanceOf w.evm pair.getAddress receiver = some start ∧
      evm.transfer w.evm pair.getAddress (moduleEVMAddress A) receiver n = some (e, logs) ∧
      evm.balanceOf e pair.getAddress receiver = some (start + n) ∧ w' = { w with evm := e } := by
  simp only [unlockERC20Tokens, queryERC20BalanceOf, bind_eq_ok, orReject_eq_ok, rejectIf_eq_ok,
    pure_eq_ok, not_not] at h
  obtain ⟨start, hstart, r, hr, final, hfinal, _, rfl, _, _, rfl⟩ := h
  obtain ⟨w₁, logs⟩ := r
  obtain ⟨e, he, rfl⟩ := callTransfer_ok.mp hr
  exact ⟨start, e, logs, hstart, he, hfinal, rfl⟩

theorem convertCoinToERC20_ok {initiator : Addr} {receiver : InternalEVMAddress} {coin : Coin}
    (h : convertCoinToERC20 evm w initiator receiver coin = .ok w') : ∃ pair,
      getEnabledConversionPairFromDenom w.params.val coin.denom = some pair ∧
      ∃ w₁, burnConversionPairCoin w coin initiator = .ok w₁ ∧
        unlockERC20Tokens evm w₁ pair coin.amount receiver = .ok w' := by
  simpa only [convertCoinToERC20, bind_eq_ok, orReject_eq_ok] using h

theorem convertERC20ToCoin_ok {initiator contract : InternalEVMAddress} {receiver : Addr} {n : Int}
    (h : convertERC20ToCoin evm w initiator receiver contract n = .ok w') : ∃ pair,
      getEnabledConversionPairFromERC20Address w.params.val contract = some pair ∧
      ∃ w₁, lockERC20Tokens evm w pair n initiator = .ok w₁ ∧
        mintConversionPairCoin w₁ pair n receiver = .ok w' := by
  simpa only [convertERC20ToCoin, bind_eq_ok, orReject_eq_ok] using h

theorem evmBankOp_ok {op : EvmOp} (h : evmBankOp w op = .ok w') :
    ∃ s, op.exec w.state = .ok s ∧ w' = { w with state := s } := by
  unfold evmBankOp at h
  cases hs : op.exec w.state with
  | error e =>
    rw [hs] at h
    cases h
  | ok s =>
    rw [hs] at h
    cases h
    exact ⟨s, rfl, rfl⟩

theorem execTransfer_ok {c sender receiver : InternalEVMAddress} {n : Int}
    (h : Prod.fst <$> callTransfer evm w c sender receiver n = .ok w') :
    ∃ e logs, evm.transfer w.evm c sender receiver n = some (e, logs) ∧
      w' = { w with evm := e } := by
  cases hr : callTransfer evm w c sender receiver n with
  | error e =>
    rw [hr] at h
    cases h
  | ok r =>
    obtain ⟨w₁, logs⟩ := r
    rw [hr] at h
    cases h
    obtain ⟨e, he, rfl⟩ := callTransfer_ok.mp hr
    exact ⟨e, logs, he, rfl⟩

/-- The coins pass through the module account, which cannot be the recipient. -/
theorem mintConversionPairCoin_ok {pair : ConversionPair} {n : Int} {recipient : Addr}
    (h : mintConversionPairCoin w pair n recipient = .ok w') :
    0 ≤ n ∧ ∃ b : Bank A, w' = w.setBank b ∧
      (∀ d, b.balances (A.addr .evmutil) d = w.moduleBalance d) ∧
      ∀ d, b.supply d = w.bank.supply d + if pair.denom = d then n else 0 := by
  simp only [mintConversionPairCoin, bind_eq_ok, World.withBank_ok] at h
  obtain ⟨coins, hc, _, ⟨b₁, hmint, rfl⟩, b₂, hsend, rfl⟩ := h
  obtain ⟨rfl, hn⟩ := mustNewCoins_ok hc
  obtain ⟨hblocked, hsend⟩ := Bank.sendCoinsFromModuleToAccount_ok.mp hsend
  have hne : A.addr .evmutil ≠ recipient := by
    intro e
    rw [← e] at hblocked
    simp at hblocked
  refine ⟨hn, b₂, rfl, fun d => ?_, fun d => ?_⟩
  · rw [(Bank.sendCoins_ok hsend).2.1, if_pos rfl, if_neg hne]
    show b₁.balances _ d - _ + 0 = _
    rw [(Bank.mintCoins_ok hmint).2.1, if_pos rfl]
    exact (add_zero _).trans (add_sub_cancel_right _ _)
  · rw [Bank.sendCoins_supply hsend]
    show b₁.supply d = _
    rw [Bank.mintCoins_supply hmint, amountOf_newCoins]

theorem burnConversionPairCoin_ok {coin : Coin} {account : Addr}
    (h : burnConversionPairCoin w coin account = .ok w') :
    0 ≤ coin.amount ∧ ∃ b : Bank A, w' = w.setBank b ∧
      (account ≠ A.addr .evmutil → ∀ d, b.balances (A.addr .evmutil) d = w.moduleBalance d) ∧
      ∀ d, b.supply d = w.bank.supply d - if coin.denom = d then coin.amount else 0 := by
  simp only [burnConversionPairCoin, bind_eq_ok, World.withBank_ok] at h
  obtain ⟨coins, hc, _, ⟨b₁, hsend, rfl⟩, b₂, hburn, rfl⟩ := h
  obtain ⟨rfl, hn⟩ := mustNewCoins_ok hc
  refine ⟨hn, b₂, rfl, fun hne d => ?_, fun d => ?_⟩
  · rw [(Bank.burnCoins_ok hburn).2.1, if_pos rfl]
    show b₁.balances _ d - _ = _
    rw [(Bank.sendCoins_ok hsend).2.1, if_neg hne.symm, if_pos rfl, sub_zero]
    exact add_sub_cancel_right _ _
  · rw [Bank.burnCoins_supply hburn, amountOf_newCoins]
    show b₁.supply d - _ = _
    rw [Bank.sendCoins_supply hsend]

end

/-! ## The invariant -/

/-- A coin with a contract is backed, one without has not been locked, and no contract
stands for two coins. -/
structure Wrapped (laws : Wrappers evm) (w : World A E) : Prop where
  wrapper : ∀ d c, w.deployed.get d = some c → laws.wrapper w.evm c
  backed : Backed evm w
  unlocked : ∀ d ∈ allowedDenoms w.params.val, w.deployed.get d = none → w.moduleBalance d = 0
  allowed : ∀ d c, w.deployed.get d = some c → d ∈ allowedDenoms w.params.val
  injective : ∀ d d' c, w.deployed.get d = some c → w.deployed.get d' = some c → d = d'

section
variable {laws : Wrappers evm} {w w' : World A E}

theorem Wrapped.congr (hw : Wrapped laws w) (hd : w'.deployed = w.deployed)
    (hp : w'.params = w.params) (hevm : ∀ c, laws.wrapper w.evm c → laws.wrapper w'.evm c ∧
      evm.totalSupply w'.evm c = evm.totalSupply w.evm c)
    (hb : ∀ d ∈ allowedDenoms w.params.val, w'.moduleBalance d = w.moduleBalance d) :
    Wrapped laws w' where
  wrapper d c hc := by
    rw [hd] at hc
    exact (hevm c (hw.wrapper d c hc)).1
  backed d c hc := by
    rw [hd] at hc
    rw [(hevm c (hw.wrapper d c hc)).2, hb d (hw.allowed d c hc)]
    exact hw.backed d c hc
  unlocked d ha hnone := by
    rw [hp] at ha
    rw [hd] at hnone
    rw [hb d ha]
    exact hw.unlocked d ha hnone
  allowed d c hc := by
    rw [hd] at hc
    rw [hp]
    exact hw.allowed d c hc
  injective d d' c hc hc' := by
    rw [hd] at hc hc'
    exact hw.injective d d' c hc hc'

theorem Wrapped.move {d : Denom} {c : InternalEVMAddress} {n : Int} (hw : Wrapped laws w)
    (hc : w.deployed.get d = some c) (hd : w'.deployed = w.deployed) (hp : w'.params = w.params)
    (hsupply : evm.totalSupply w'.evm c = (evm.totalSupply w.evm c).map (· + n))
    (hevm : ∀ c', laws.wrapper w.evm c' →
      laws.wrapper w'.evm c' ∧ (c' ≠ c → evm.totalSupply w'.evm c' = evm.totalSupply w.evm c'))
    (hb : ∀ d', w'.moduleBalance d' = w.moduleBalance d' + if d = d' then n else 0) :
    Wrapped laws w' where
  wrapper d' c' hc' := by
    rw [hd] at hc'
    exact (hevm c' (hw.wrapper d' c' hc')).1
  backed d' c' hc' := by
    rw [hd] at hc'
    rw [hb]
    by_cases he : d = d'
    · subst he
      cases hc.symm.trans hc'
      rw [hsupply, hw.backed d c hc, if_pos rfl]
      rfl
    · have hne : c' ≠ c := by
        intro e
        subst e
        exact he (hw.injective d d' c' hc hc')
      rw [(hevm c' (hw.wrapper d' c' hc')).2 hne, hw.backed d' c' hc', if_neg he, add_zero]
  unlocked d' ha hnone := by
    rw [hp] at ha
    rw [hd] at hnone
    have he : d ≠ d' := by
      intro e
      subst e
      rw [hc] at hnone
      cases hnone
    rw [hb, if_neg he, add_zero]
    exact hw.unlocked d' ha hnone
  allowed d' c' hc' := by
    rw [hd] at hc'
    rw [hp]
    exact hw.allowed d' c' hc'
  injective d₁ d₂ c' h₁ h₂ := by
    rw [hd] at h₁ h₂
    exact hw.injective d₁ d₂ c' h₁ h₂

theorem Wrapped.deployed {d : Denom} {c : InternalEVMAddress} {e : E}
    {token : AllowedCosmosCoinERC20Token}
    (hw : Wrapped laws w) (hnone : w.deployed.get d = none) (ha : d ∈ allowedDenoms w.params.val)
    (hdeploy : evm.deploy w.evm token = some (c, e)) :
    Wrapped laws { w with evm := e, deployed := w.deployed.set d c } := by
  obtain ⟨hnew, hwrapper, hzero, hother⟩ := laws.deploy hdeploy
  -- the new contract was none of the contracts before
  have hcases : ∀ d' c', (w.deployed.set d c).get d' = some c' →
      (d' = d ∧ c' = c) ∨ (w.deployed.get d' = some c' ∧ c' ≠ c) := by
    intro d' c' h
    rw [KVStore.get_set] at h
    split at h
    · rename_i he
      cases h
      exact .inl ⟨he, rfl⟩
    · refine .inr ⟨h, ?_⟩
      intro e
      subst e
      exact hnew (hw.wrapper d' c' h)
  constructor
  · intro d' c' h
    obtain ⟨rfl, rfl⟩ | ⟨h, _⟩ := hcases d' c' h
    · exact hwrapper
    · exact (hother c' (hw.wrapper d' c' h)).1
  · intro d' c' h
    obtain ⟨rfl, rfl⟩ | ⟨h, _⟩ := hcases d' c' h
    · exact hzero.trans (congrArg some (hw.unlocked d' ha hnone).symm)
    · exact (hother c' (hw.wrapper d' c' h)).2.trans (hw.backed d' c' h)
  · intro d' ha' h
    refine hw.unlocked d' ha' ?_
    change (w.deployed.set d c).get d' = none at h
    rw [KVStore.get_set] at h
    split at h
    · cases h
    · exact h
  · intro d' c' h
    obtain ⟨rfl, rfl⟩ | ⟨h, _⟩ := hcases d' c' h
    · exact ha
    · exact hw.allowed d' c' h
  · intro d₁ d₂ c' h₁ h₂
    obtain ⟨rfl, rfl⟩ | ⟨h₁, hne⟩ := hcases d₁ c' h₁
    · obtain ⟨rfl, _⟩ | ⟨_, hne⟩ := hcases d₂ c' h₂
      · rfl
      · exact absurd rfl hne
    · obtain ⟨_, rfl⟩ | ⟨h₂, _⟩ := hcases d₂ c' h₂
      · exact absurd rfl hne
      · exact hw.injective d₁ d₂ c' h₁ h₂

/-! ## The operations -/

theorem getAllowedTokenMetadata_some {p : Params} {d : Denom} {token : AllowedCosmosCoinERC20Token}
    (h : getAllowedTokenMetadata p d = some token) :
    token.cosmosDenom = d ∧ d ∈ allowedDenoms p := by
  have hd : token.cosmosDenom = d := by simpa using List.find?_some h
  exact ⟨hd, List.mem_map.mpr ⟨token, List.mem_of_find?_eq_some h, hd⟩⟩

theorem getOrDeployCosmosCoinERC20Contract_ok {token : AllowedCosmosCoinERC20Token}
    {c : InternalEVMAddress} {b : Bank A}
    (hw : Wrapped laws w) (ha : token.cosmosDenom ∈ allowedDenoms w.params.val)
    (h : getOrDeployCosmosCoinERC20Contract evm (w.setBank b) token = .ok (c, w')) :
    ∃ w₁, Wrapped laws w₁ ∧ w₁.deployed.get token.cosmosDenom = some c ∧ w₁.state = w.state ∧
      w₁.params = w.params ∧
      w' = w₁.setBank b := by
  unfold getOrDeployCosmosCoinERC20Contract at h
  split at h
  · rename_i c' hc
    cases h
    exact ⟨w, hw, hc, rfl, rfl, rfl⟩
  · rename_i hnone
    simp only [deployZgChainWrappedCosmosCoinERC20Contract, setDeployedCosmosCoinContract,
      bind_eq_ok, orReject_eq_ok, rejectIf_eq_ok, pure_eq_ok] at h
    obtain ⟨_, ⟨_, _, r, hr, rfl⟩, _, ⟨_, _, _, _, rfl⟩, h⟩ := h
    cases h
    exact ⟨_, hw.deployed hnone ha hr, KVStore.get_set_self _ _ _, rfl, rfl, rfl⟩

theorem convertCosmosCoinToERC20_wrapped {initiator : Addr} {receiver : InternalEVMAddress}
    {amount : Coin} (hw : Wrapped laws w) (hi : initiator ≠ A.addr .evmutil)
    (h : convertCosmosCoinToERC20 evm w initiator receiver amount = .ok w') :
    Wrapped laws w' ∧ w'.params = w.params := by
  simp only [convertCosmosCoinToERC20, mintERC20, bind_eq_ok, orReject_eq_ok, World.withBank_ok,
    pure_eq_ok] at h
  obtain ⟨token, ht, coins, hc, _, ⟨b, hsend, rfl⟩, r, hr, e, hmint, rfl⟩ := h
  obtain ⟨c, w₂⟩ := r
  obtain ⟨rfl, hn⟩ := mustNewCoins_ok hc
  obtain ⟨hd, ha⟩ := getAllowedTokenMetadata_some ht
  rw [← hd] at ha
  obtain ⟨w₁, hw₁, hget, hstate, hparams, rfl⟩ := getOrDeployCosmosCoinERC20Contract_ok hw ha hr
  obtain ⟨hsupply, hother⟩ := laws.mint (hw₁.wrapper _ c hget) hn hmint
  refine ⟨hw₁.move hget rfl rfl hsupply hother fun d' => ?_, hparams⟩
  show b.balances (A.addr .evmutil) d' = w₁.state.bank.balances (A.addr .evmutil) d' + _
  rw [(Bank.sendCoins_ok hsend).2.1, if_neg hi.symm, if_pos rfl, sub_zero, amountOf_newCoins,
    hstate, hd]
  rfl

theorem convertCosmosCoinFromERC20_wrapped {initiator : InternalEVMAddress} {receiver : Addr}
    {coin : Coin}
    (hw : Wrapped laws w) (h : convertCosmosCoinFromERC20 evm w initiator receiver coin = .ok w') :
    Wrapped laws w' ∧ w'.params = w.params := by
  simp only [convertCosmosCoinFromERC20, queryERC20BalanceOf, burnERC20, bind_eq_ok, orReject_eq_ok,
    rejectIf_eq_ok, World.withBank_ok, pure_eq_ok] at h
  obtain ⟨c, hget, balance, _, _, _, _, ⟨e, hburn, rfl⟩, coins, hc, b, hsend, rfl⟩ := h
  obtain ⟨rfl, hn⟩ := mustNewCoins_ok hc
  obtain ⟨hblocked, hsend⟩ := Bank.sendCoinsFromModuleToAccount_ok.mp hsend
  have hne : A.addr .evmutil ≠ receiver := by
    intro e
    rw [← e] at hblocked
    simp at hblocked
  obtain ⟨hsupply, hother⟩ := laws.burn (hw.wrapper _ c hget) hn hburn
  refine ⟨hw.move (n := -coin.amount) hget rfl rfl hsupply hother fun d' => ?_, rfl⟩
  show b.balances (A.addr .evmutil) d' = w.moduleBalance d' + _
  rw [(Bank.sendCoins_ok hsend).2.1, if_pos rfl, if_neg hne, amountOf_newCoins, add_zero]
  show w.moduleBalance d' - _ = _
  split
  · rfl
  · exact (sub_zero _).trans (add_zero _).symm

theorem Op.exec_wrapped {op : Op} (hw : Wrapped laws w) (hop : op.KeepsApart w)
    (h : op.exec evm w = .ok w') :
    Wrapped laws w' ∧ w'.params = w.params := by
  cases op with
  | convertCosmosCoinToERC20 initiator receiver amount =>
    exact convertCosmosCoinToERC20_wrapped hw (fun e => hop.1 (congrArg some e)) h
  | convertCosmosCoinFromERC20 initiator receiver coin =>
    exact convertCosmosCoinFromERC20_wrapped hw h
  | convertCoinToERC20 initiator receiver coin =>
    obtain ⟨pair, _, w₁, hburn, hunlock⟩ := convertCoinToERC20_ok h
    obtain ⟨_, b, rfl, hb, _⟩ := burnConversionPairCoin_ok hburn
    obtain ⟨_, e, logs, _, htransfer, _, rfl⟩ := unlockERC20Tokens_ok hunlock
    exact ⟨hw.congr rfl rfl (laws.transfer htransfer) fun d _ => hb
      (fun e => hop.1 (congrArg some e)) d, rfl⟩
  | convertERC20ToCoin initiator receiver contract amount =>
    obtain ⟨pair, _, w₁, hlock, hmint⟩ := convertERC20ToCoin_ok h
    obtain ⟨_, e, logs, _, htransfer, _, rfl⟩ := lockERC20Tokens_ok hlock
    obtain ⟨_, b, rfl, hb, _⟩ := mintConversionPairCoin_ok hmint
    exact ⟨hw.congr rfl rfl (laws.transfer htransfer) fun d _ => hb d, rfl⟩
  | evmBank o =>
    obtain ⟨s, hs, rfl⟩ := evmBankOp_ok h
    refine ⟨hw.congr rfl rfl (fun c hc => ⟨hc, rfl⟩) fun d hd => ?_, rfl⟩
    by_cases hgas : d = gasDenom
    · subst hgas
      exact o.exec_sameReserve (hop.2 hd o rfl) hs
    · exact o.exec_otherDenoms hs _ d hgas
  | transfer contract sender receiver amount =>
    obtain ⟨e, logs, htransfer, rfl⟩ := execTransfer_ok h
    exact ⟨hw.congr rfl rfl (laws.transfer htransfer) fun d _ => rfl, rfl⟩

end

theorem Wrapped.run {laws : Wrappers evm} {w : World A E} {ops : List Op} (hw : Wrapped laws w)
    (hops : ∀ before op after, ops = before ++ op :: after → op.KeepsApart (run evm w before)) :
    Wrapped laws (run evm w ops) := by
  induction ops generalizing w with
  | nil => exact hw
  | cons op ops ih =>
    have hstep : Wrapped laws (step evm w op) :=
      orElseKeep_rule hw fun w' h => (op.exec_wrapped hw (hops [] op ops rfl) h).1
    refine ih hstep fun before op' after e => ?_
    exact hops (op :: before) op' after (by rw [e]; rfl)

theorem Wrapped.init {laws : Wrappers evm} {w : World A E} (hnone : w.deployed = .empty)
    (hunlocked : ∀ d ∈ allowedDenoms w.params.val, w.moduleBalance d = 0) : Wrapped laws w := by
  refine ⟨fun d c h => ?_, fun d c h => ?_, fun d ha _ => hunlocked d ha, fun d c h => ?_,
    fun d d' c h _ => ?_⟩
  all_goals
    rw [hnone, KVStore.get_empty] at h
    cases h

/-- In every run from a world without contracts in which the module account has none of the
coins that may get one, wrapped coins are backed, as long as the operations keep them apart
from other coins of the module account. -/
theorem wrapped_coins_backed (laws : Wrappers evm) (w : World A E) (ops : List Op)
    (hnone : w.deployed = .empty)
    (hunlocked : ∀ d ∈ allowedDenoms w.params.val, w.moduleBalance d = 0)
    (hops : ∀ before op after, ops = before ++ op :: after → op.KeepsApart (run evm w before)) :
    Backed evm (run evm w ops) := by
  have hstart : Wrapped laws w := Wrapped.init hnone hunlocked
  exact (hstart.run hops).backed

/-! ## An EVM of ERC20 contracts -/

structure Erc20 where
  balances : InternalEVMAddress → Int
  totalSupply : Int

structure Contracts where
  nonce : Nat
  code : InternalEVMAddress → Option Erc20

def Contracts.set (e : Contracts) (c : InternalEVMAddress) (t : Erc20) : Contracts :=
  { e with code := fun c' => if c' = c then some t else e.code c' }

def createAddress (nonce : Nat) : InternalEVMAddress :=
  bytesToInternalEVMAddress (beBytes 20 (0xc0de + nonce))

def Erc20.add (t : Erc20) (x : InternalEVMAddress) (n : Int) : Erc20 :=
  { t with balances := fun y => t.balances y + if y = x then n else 0 }

def erc20Evm (credited : Int → Int) : EvmKeeper Contracts where
  deploy e _ :=
    if (e.code (createAddress e.nonce)).isSome then none
    else some (createAddress e.nonce, Contracts.set ⟨e.nonce + 1, e.code⟩ (createAddress e.nonce)
      ⟨fun _ => 0, 0⟩)
  mint e c receiver n :=
    (e.code c).map fun t => e.set c { t.add receiver n with totalSupply := t.totalSupply + n }
  burn e c initiator n :=
    (e.code c).bind fun t =>
      if t.balances initiator < n then none
      else some (e.set c { t.add initiator (-n) with totalSupply := t.totalSupply - n })
  transfer e c sender receiver n :=
    (e.code c).bind fun t =>
      if t.balances sender < n then none
      else some (e.set c ((t.add sender (-n)).add receiver (credited n)), [])
  balanceOf e c x := (e.code c).map fun t => t.balances x
  totalSupply e c := (e.code c).map Erc20.totalSupply

theorem Contracts.set_code (e : Contracts) (c c' : InternalEVMAddress) (t : Erc20) :
    (e.set c t).code c' = if c' = c then some t else e.code c' := rfl

def erc20Wrappers (credited : Int → Int) : Wrappers (erc20Evm credited) where
  wrapper e c := (e.code c).isSome = true
  deploy h := by
    simp only [erc20Evm] at h
    split at h
    · cases h
    · rename_i hnone
      cases h
      refine ⟨hnone, by simp [Contracts.set_code], by simp [erc20Evm,
        Contracts.set_code], fun c hc => ?_⟩
      have hne : c ≠ createAddress _ := fun e => hnone (e ▸ hc)
      simp [erc20Evm, Contracts.set_code, hne, hc]
  mint hc _ h := by
    obtain ⟨t, ht, rfl⟩ := Option.map_eq_some_iff.mp h
    refine ⟨by simp [erc20Evm, Contracts.set_code, ht], fun c' hc' => ⟨?_, fun hne => ?_⟩⟩
    · rw [Contracts.set_code]
      split
      · rfl
      · exact hc'
    · simp [erc20Evm, Contracts.set_code, hne]
  burn hc _ h := by
    obtain ⟨t, ht, h⟩ := Option.bind_eq_some_iff.mp h
    split at h
    · cases h
    · cases h
      refine ⟨by simp [erc20Evm, Contracts.set_code, ht], fun c' hc' => ⟨?_, fun hne => ?_⟩⟩
      · rw [Contracts.set_code]
        split
        · rfl
        · exact hc'
      · simp [erc20Evm, Contracts.set_code, hne]
  transfer h c' hc' := by
    obtain ⟨t, ht, h⟩ := Option.bind_eq_some_iff.mp h
    split at h
    · cases h
    · cases h
      refine ⟨?_, ?_⟩
      · rw [Contracts.set_code]
        split
        · rfl
        · exact hc'
      · simp only [erc20Evm, Contracts.set_code]
        split
        · rename_i e
          rw [e, ht]
          rfl
        · rfl

/-! ## The gas denom with a contract -/

def gasToken : AllowedCosmosCoinERC20Token := ⟨gasDenom, "Wrapped A0GI", "WA0GI", 6⟩

def atomToken : AllowedCosmosCoinERC20Token := ⟨"uatom", "Wrapped Atom", "WATOM", 6⟩

theorem gasParams_valid : Params.validate ⟨[], [gasToken]⟩ = .ok () := by decide

theorem atomParams_valid : Params.validate ⟨[], [atomToken]⟩ = .ok () := by decide

theorem holderGas_nonneg : 0 ≤ (⟨gasDenom, 2⟩ : Coin).amount := by decide

theorem holderAtoms_nonneg : 0 ≤ (⟨"uatom", 5⟩ : Coin).amount := by decide

def holderState : State chainAddrs :=
  State.ofEntries KVStore.empty
    ((Bank.empty.credit holderAddr ⟨gasDenom, 2⟩ holderGas_nonneg).credit holderAddr ⟨"uatom", 5⟩
      holderAtoms_nonneg)
    empty_entries_valid

def noContracts : Contracts := ⟨0, fun _ => none⟩

def gasWorld : World chainAddrs Contracts :=
  ⟨holderState, ⟨_, gasParams_valid⟩, .empty, noContracts⟩

def atomWorld : World chainAddrs Contracts :=
  ⟨holderState, ⟨_, atomParams_valid⟩, .empty, noContracts⟩

def holderEVMAddress : InternalEVMAddress := bytesToInternalEVMAddress holderAddr

def payHalf : Op := .evmBank (.sendCoinsFromAccountToModule holderAddr .evm (evmCoins 500000000000))

/-- The holder wraps a unit and then pays half a unit, for which the module account gets
another one. -/
theorem wrapped_gas_coin_unbacked :
    gasWorld.deployed = .empty ∧
    (∀ d ∈ allowedDenoms gasWorld.params.val, gasWorld.moduleBalance d = 0) ∧
    ¬ Backed (erc20Evm id)
      (run (erc20Evm id) gasWorld
        [.convertCosmosCoinToERC20 holderAddr holderEVMAddress ⟨gasDenom, 1⟩, payHalf]) := by
  refine ⟨rfl, by decide, fun h => ?_⟩
  have hget : (run (erc20Evm id) gasWorld
      [.convertCosmosCoinToERC20 holderAddr holderEVMAddress ⟨gasDenom, 1⟩, payHalf]).deployed.get
        gasDenom =
        some (createAddress 0) := by decide +kernel
  have hbacked := h gasDenom (createAddress 0) hget
  revert hbacked
  decide +kernel

/-- The holder wraps a unit and then pays a whole one. -/
def wholeUnitOps : List Op :=
  [.convertCosmosCoinToERC20 holderAddr holderEVMAddress ⟨gasDenom, 1⟩,
    .evmBank (.sendCoinsFromAccountToModule holderAddr .evm (evmCoins 1000000000000))]

def atomOps : List Op :=
  [.convertCosmosCoinToERC20 holderAddr holderEVMAddress ⟨"uatom", 5⟩, payHalf,
    .convertCosmosCoinFromERC20 holderEVMAddress holderAddr ⟨"uatom", 2⟩]

theorem wrapped_coins_backed_atom : Backed (erc20Evm id) (run (erc20Evm id) atomWorld atomOps) ∧
    Backed (erc20Evm id) (run (erc20Evm id) gasWorld wholeUnitOps) := by
  have hinitiator : ∀ op ∈ atomOps ++ wholeUnitOps, op.initiator ≠
      some (chainAddrs.addr .evmutil) := by decide
  have hunlisted : ∀ before ∈ atomOps.inits,
      gasDenom ∉ allowedDenoms (run (erc20Evm id) atomWorld before).params.val := by decide +kernel
  constructor
  · refine wrapped_coins_backed (erc20Wrappers id) atomWorld atomOps rfl (by decide)
      fun before op after e => ?_
    have hop : op ∈ atomOps ++ wholeUnitOps := List.mem_append_left _ (by rw [e]; simp)
    have hbefore : before ∈ atomOps.inits := (List.mem_inits _ _).mpr ⟨_, e.symm⟩
    exact ⟨hinitiator op hop, fun hgas => absurd hgas (hunlisted before hbefore)⟩
  · refine wrapped_coins_backed (erc20Wrappers id) gasWorld wholeUnitOps rfl (by decide)
      fun before op after e => ?_
    have hop : op ∈ atomOps ++ wholeUnitOps := List.mem_append_right _ (by rw [e]; simp)
    refine ⟨hinitiator op hop, fun _ o ho => ?_⟩
    cases before with
    | nil =>
      cases e
      cases ho
    | cons b before =>
      cases before with
      | nil =>
        cases e
        cases ho
        exact ⟨by decide, by decide, by decide +kernel, by decide +kernel⟩
      | cons b' before => simp [wholeUnitOps] at e

end ZgChain.Evmutil
