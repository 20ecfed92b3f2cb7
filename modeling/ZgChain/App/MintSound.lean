import ZgChain.App.ChainSound

/-!
# Where coins come from

The supply of every denom is what claims of swaps, issues and redemptions, conversions of
tokens and the EVM have made and destroyed. Transfers, escrows, refunds, seizures, wrapped
coins and blocks neither make coins nor destroy any.
-/

namespace ZgChain

variable {A : ModuleAddrs} {E : Type}

/-! ## Swaps -/

namespace Bep3

variable {env : Env} {s s' : State A}

theorem escrow_mints_nothing {asset : AssetParam} {args : CreateArgs} {coin : Coin}
    {direction : SwapDirection}
    (h : escrow s asset args coin direction = .ok s') : s'.bank.supply = s.bank.supply := by
  cases direction with
  | unspecified => cases h
  | incoming =>
    rw [(incrementIncomingAssetSupply_sets h).bank]
    rfl
  | outgoing =>
    simp only [escrow, bind_eq_ok] at h
    obtain ⟨_, _, _, _, s₁, h₁, h₂⟩ := h
    rw [← (incrementOutgoingAssetSupply_sets h₁).bank]
    exact Bank.sendCoins_supply (withBank_bank h₂)

theorem payRefund_mints_nothing {a : AtomicSwap} (h : payRefund s a = .ok s') :
    s'.bank.supply = s.bank.supply := by
  cases payRefund_ok h with
  | incoming _ _ h₁ => rw [(decrementAssetSupply_sets h₁).bank]
  | outgoing _ _ h₁ h₂ =>
    rw [← (decrementAssetSupply_sets h₁).bank]
    exact Bank.sendCoins_supply (Bank.sendCoinsFromModuleToAccount_ok.mp (withBank_bank h₂)).2

/-- Coins of an incoming swap are made for the recipient, and those of an outgoing one are
destroyed. -/
theorem payClaim_supply {a : AtomicSwap} (h : payClaim s a = .ok s') :
    s'.bank.supply = s.bank.supply + ((if a.direction = .incoming then a.amount.amountOf else 0) -
      if a.direction = .outgoing then a.amount.amountOf else 0) := by
  cases payClaim_ok h with
  | incoming hd _ h₁ h₂ h₃ h₄ =>
    rw [Bank.sendCoins_supply (Bank.sendCoinsFromModuleToAccount_ok.mp (withBank_bank h₄)).2,
      funext (Bank.mintCoins_supply (withBank_bank h₃)), (incrementCurrentAssetSupply_sets h₂).bank,
      (decrementAssetSupply_sets h₁).bank, hd]
    simp only [if_true, reduceCtorEq, if_false, sub_zero]
    rfl
  | outgoing hd _ h₁ h₂ h₃ =>
    rw [funext (Bank.burnCoins_supply (withBank_bank h₃)), (decrementAssetSupply_sets h₂).bank,
      (decrementAssetSupply_sets h₁).bank, hd]
    simp only [if_true, reduceCtorEq, if_false, zero_sub, ← sub_eq_add_neg]
    rfl

theorem step_supply (env : Env) (s : State A) (op : Op) :
    (step env s op).bank.supply = s.bank.supply +
      (claimed env .incoming s op - claimed env .outgoing s op) := by
  cases op with
  | create ctx args =>
    refine Eq.trans ?_ (add_zero _).symm
    refine orElseKeep_rule (P := fun s' : State A => s'.bank.supply = s.bank.supply) rfl
      fun s' h => ?_
    obtain ⟨coin, asset, direction, s₁, hc⟩ := createAtomicSwap_ok h
    rw [hc.state]
    change s₁.bank.supply = _
    exact escrow_mints_nothing hc.escrowed
  | claim ctx id number =>
    rcases orElseKeep_cases s (claimAtomicSwap env ctx s id number) with ⟨s', h, e⟩ | ⟨⟨err, h⟩, e⟩
    · rw [step, e]
      obtain ⟨a, s₁, hg, _, _, hpay, rfl⟩ := claimAtomicSwap_ok h
      simp only [claimed, hg, h]
      change s₁.bank.supply = _
      exact payClaim_supply hpay
    · rw [step, e]
      cases hg : s.swaps.get id <;> simp [claimed, hg, h]
  | refund ctx id =>
    refine Eq.trans ?_ (add_zero _).symm
    refine orElseKeep_rule (P := fun s' : State A => s'.bank.supply = s.bank.supply) rfl
      fun s' h => ?_
    obtain ⟨a, s₁, _, _, hpay, rfl⟩ := refundAtomicSwap_ok h
    change s₁.bank.supply = _
    exact payRefund_mints_nothing hpay
  | beginBlock ctx =>
    refine Eq.trans ?_ (add_zero _).symm
    change (beginBlocker env ctx s).bank.supply = _
    rw [beginBlocker_bank]

end Bep3

/-! ## Issued assets -/

namespace Issuance

variable {env : Env} {s s' : State A}

/-- What an accepted message makes, less what it destroys. -/
def minted (env : Env) (s : State A) : Op → Ledger Denom
  | .deliver (.issueTokens msg) =>
    if (handle env s (.issueTokens msg)).isOk then (newCoins msg.tokens).amountOf else 0
  | .deliver (.redeemTokens msg) =>
    if (handle env s (.redeemTokens msg)).isOk then -(newCoins msg.tokens).amountOf else 0
  | _ => 0

theorem issueTokens_supply {tokens : Coin} {owner receiver : Addr}
    (h : issueTokens env s tokens owner receiver = .ok s') :
    s'.bank.supply = s.bank.supply + (newCoins tokens).amountOf := by
  obtain ⟨s₁, s₂, ⟨hbank, _⟩, h₂, h₃⟩ := issueTokens_ok h
  have hmint : s₂.bank.supply = s.bank.supply + (newCoins tokens).amountOf := by
    rw [funext (Bank.mintCoins_supply (withBank_bank h₂)), hbank]
    rfl
  rw [Bank.sendCoins_supply (Bank.sendCoinsFromModuleToAccount_ok.mp (withBank_bank h₃)).2, hmint]

theorem redeemTokens_supply {tokens : Coin} {owner : Addr}
    (h : redeemTokens env s tokens owner = .ok s') :
    s'.bank.supply = s.bank.supply - (newCoins tokens).amountOf := by
  simp only [redeemTokens, bind_eq_ok] at h
  obtain ⟨_, _, _, _, _, _, s₁, h₁, h₂⟩ := h
  rw [funext (Bank.burnCoins_supply (withBank_bank h₂)), Bank.sendCoins_supply (withBank_bank h₁)]
  rfl

theorem createVestingAccount_supply {b b' : Bank A} {src dst : Addr} {amt : Coins}
    (h : b.createVestingAccount src dst amt = .ok b') : b'.supply = b.supply := by
  simp only [Bank.createVestingAccount, bind_eq_ok] at h
  obtain ⟨_, _, h⟩ := h
  split at h
  · simp only [bind_eq_ok, pure_eq_ok] at h
    obtain ⟨b₁, h₁, rfl⟩ := h
    change b₁.supply = b.supply
    exact Bank.sendCoins_supply h₁
  · cases h

theorem seizeAssets_supply {assets : List Asset} (h : assets.foldlM (seizeAsset env) s = .ok s') :
    s'.bank.supply = s.bank.supply := by
  have hfold {asset : Asset} {addresses : List String} {b b' : Bank A}
      (h : addresses.foldlM (seizeFrom env asset) b = .ok b') : b'.supply = b.supply := by
    induction addresses generalizing b with
    | nil =>
      cases h
      rfl
    | cons address addresses ih =>
      rw [List.foldlM_cons, bind_eq_ok] at h
      obtain ⟨b₁, h₁, h₂⟩ := h
      exact (ih h₂).trans (seizeFrom_supply h₁)
  induction assets generalizing s with
  | nil =>
    cases h
    rfl
  | cons asset assets ih =>
    rw [List.foldlM_cons, bind_eq_ok] at h
    obtain ⟨s₁, h₁, h₂⟩ := h
    refine (ih h₂).trans ?_
    unfold seizeAsset at h₁
    split at h₁
    · simp only [seizeCoinsFromBlockedAddresses, bind_eq_ok, pure_eq_ok] at h₁
      obtain ⟨_, _, b', hb, rfl⟩ := h₁
      exact hfold hb
    · cases h₁
      rfl

theorem beginBlocker_mints_nothing {ctx : Ctx} (h : beginBlocker env ctx s = .ok s') :
    s'.bank.supply = s.bank.supply := by
  simp only [beginBlocker, synchronizeBlockList_eq, bind_eq_ok, pure_eq_ok] at h
  obtain ⟨s₁, h₁, s₂, h₂, rfl⟩ := h
  cases h₂
  rw [updateTimeBasedSupplyLimits_bank]
  exact seizeAssets_supply h₁

theorem handle_supply {msg : Msg} (h : handle env s msg = .ok s') :
    s'.bank.supply = s.bank.supply + minted env s (.deliver msg) := by
  have hok : (handle env s msg).isOk = true := by
    rw [h]
    rfl
  have hlist (op : ListOp) (h : op.exec env s = .ok s') : s'.bank.supply = s.bank.supply + 0 := by
    rw [ListOp.exec_bank h, add_zero]
  have hmsg := h
  simp only [handle, bind_eq_ok] at hmsg
  obtain ⟨_, _, hmsg⟩ := hmsg
  cases msg with
  | issueTokens msg =>
    simp only [MsgServer.issueTokens, bind_eq_ok] at hmsg
    obtain ⟨_, _, receiver, _, hmsg⟩ := hmsg
    rw [minted, if_pos hok, issueTokens_supply hmsg]
  | redeemTokens msg =>
    simp only [MsgServer.redeemTokens, bind_eq_ok] at hmsg
    obtain ⟨owner, _, hmsg⟩ := hmsg
    rw [minted, if_pos hok, redeemTokens_supply hmsg, sub_eq_add_neg]
  | blockAddress msg =>
    simp only [MsgServer.blockAddress, bind_eq_ok] at hmsg
    obtain ⟨owner, _, x, _, hmsg⟩ := hmsg
    exact hlist (.blockAddress msg.denom owner x) hmsg
  | unblockAddress msg =>
    simp only [MsgServer.unblockAddress, bind_eq_ok] at hmsg
    obtain ⟨owner, _, x, _, hmsg⟩ := hmsg
    exact hlist (.unblockAddress msg.denom owner x) hmsg
  | setPauseStatus msg =>
    simp only [MsgServer.setPauseStatus, bind_eq_ok] at hmsg
    obtain ⟨owner, _, hmsg⟩ := hmsg
    exact hlist (.setPauseStatus owner msg.denom msg.status) hmsg

theorem step_supply (env : Env) (s : State A) (op : Op) :
    (step env s op).bank.supply = s.bank.supply + minted env s op := by
  have hkeep {x : Except Error (State A)} (hx : ∀ s', x = .ok s' → s'.bank.supply = s.bank.supply) :
      (orElseKeep s x).bank.supply = s.bank.supply + 0 := by
    rw [add_zero]
    exact orElseKeep_rule (P := fun s' : State A => s'.bank.supply = s.bank.supply) rfl hx
  cases op with
  | deliver msg =>
    rcases orElseKeep_cases s (handle env s msg) with ⟨s', h, e⟩ | ⟨⟨err, h⟩, e⟩
    · rw [step, e]
      exact handle_supply h
    · rw [step, e]
      cases msg with
      | issueTokens msg => simp [minted, h, Except.isOk, Except.toBool]
      | redeemTokens msg => simp [minted, h, Except.isOk, Except.toBool]
      | _ => exact (add_zero _).symm
  | send src dst amt => exact hkeep fun s' h => Bank.sendCoins_supply (withBank_bank h)
  | createVestingAccount src dst amt =>
    exact hkeep fun s' h => createVestingAccount_supply (withBank_bank h)
  | vest a d n => exact (add_zero _).symm
  | beginBlock ctx => exact hkeep fun s' h => beginBlocker_mints_nothing h

end Issuance

/-! ## Conversions and the EVM -/

namespace Evmutil

variable {evm : EvmKeeper E} {s s' : State A} {w w' : World A E}

/-- The whole units of gas that the EVM makes or destroys. -/
def EvmOp.minted : EvmOp → Ledger Denom
  | mintCoins _ amt => Pi.single gasDenom (amt.amountOf evmDenom / conversionMultiplier)
  | burnCoins _ amt => -Pi.single gasDenom (amt.amountOf evmDenom / conversionMultiplier)
  | _ => 0

/-- What an accepted operation makes, less what it destroys. -/
def minted (evm : EvmKeeper E) (w : World A E) (op : Op) : Ledger Denom :=
  if (op.exec evm w).isOk then
    match op with
    | .convertERC20ToCoin _ _ contract amount =>
      (getEnabledConversionPairFromERC20Address w.params.val contract).elim 0 fun pair =>
        Pi.single pair.denom amount
    | .convertCoinToERC20 _ _ coin => -Pi.single coin.denom coin.amount
    | .evmBank op => op.minted
    | _ => 0
  else 0

theorem convertOneGasDenomToEvmDenomIfNeeded_supply {a : Addr} {n : Int}
    (h : convertOneGasDenomToEvmDenomIfNeeded s a n = .ok s') : s'.bank.supply = s.bank.supply := by
  unfold convertOneGasDenomToEvmDenomIfNeeded at h
  split at h
  · cases h
    rfl
  · simp only [bind_eq_ok] at h
    obtain ⟨s₁, h₁, h₂⟩ := h
    rw [(addBalance_ok h₂).bank]
    exact Bank.sendCoins_supply (withBank_bank h₁)

theorem convertEvmDenomToGasDenom_supply {a : Addr} (h : convertEvmDenomToGasDenom s a = .ok s') :
    s'.bank.supply = s.bank.supply := by
  simp only [convertEvmDenomToGasDenom, bind_eq_ok] at h
  obtain ⟨p, _, h⟩ := h
  split at h
  · cases h
    rfl
  · simp only [bind_eq_ok] at h
    obtain ⟨s₁, h₁, h₂⟩ := h
    rw [← (setBalance_ok h₁).bank]
    exact Bank.sendCoins_supply (withBank_bank h₂)

theorem withBankIfPositive_supply {q : Int} {x : Except BankError (Bank A)} {L : Ledger Denom}
    (hq : 0 ≤ q) (h : withBankIfPositive s ⟨gasDenom, q⟩ x = .ok s')
    (hx : ∀ b, x = .ok b → b.supply = s.bank.supply + L) (hzero : q = 0 → L = 0) :
    s'.bank.supply = s.bank.supply + L := by
  unfold withBankIfPositive at h
  split at h
  · exact hx _ (withBank_bank h)
  · rename_i hpos
    cases h
    rw [hzero (le_antisymm (not_lt.mp hpos) hq), add_zero]

theorem amountOf_gasCoin (q : Int) : (newCoins ⟨gasDenom, q⟩).amountOf = Pi.single gasDenom q := by
  funext d
  rw [amountOf_newCoins, Pi.single_apply]
  simp only [eq_comm]

theorem Transfers.supply {src dst : Addr} {amt : Coins} (h : Transfers s src dst amt s') :
    s'.bank.supply = s.bank.supply := by
  obtain ⟨q, r, hsplit, s₁, s₂, s₃, ⟨x, hx, h₁⟩, h₂, h₃, h₄⟩ := h
  have hsend : s₁.bank.supply = s.bank.supply + 0 := by
    refine withBankIfPositive_supply hsplit.units_nonneg h₁ (fun b hb => ?_) fun _ => rfl
    rw [Bank.sendCoins_supply (hx b hb), add_zero]
  rw [convertEvmDenomToGasDenom_supply h₄, (sendBalance_ok h₃).1,
    convertOneGasDenomToEvmDenomIfNeeded_supply h₂, hsend, add_zero]

theorem Split.units {amt : Coins} {q r : Int} (h : Split amt q r) :
    amt.amountOf evmDenom / conversionMultiplier = q := by
  have hsum := h.sum
  have hr := h.remainder_nonneg
  have hlt := h.remainder_lt
  rw [← hsum, Int.add_comm, Int.add_mul_ediv_left _ _ (ne_of_gt conversionMultiplier_pos),
    Int.ediv_eq_zero_of_lt hr hlt, Int.zero_add]

theorem EvmOp.exec_supply {op : EvmOp} (h : op.exec s = .ok s') :
    s'.bank.supply = s.bank.supply + op.minted := by
  cases op with
  | sendCoinsFromAccountToModule src m amt =>
    refine Eq.trans ?_ (add_zero _).symm
    exact (sendCoinsFromAccountToModule_transfers h).supply
  | sendCoinsFromModuleToAccount m dst amt =>
    refine Eq.trans ?_ (add_zero _).symm
    exact (sendCoinsFromModuleToAccount_transfers h).supply
  | mintCoins m amt =>
    obtain ⟨q, r, hsplit, s₁, s₂, h₁, h₂, h₃⟩ := mintCoins_steps h
    rw [convertEvmDenomToGasDenom_supply h₃, (addBalance_ok h₂).bank, EvmOp.minted, hsplit.units]
    refine withBankIfPositive_supply hsplit.units_nonneg h₁ (fun b hb => ?_) fun hz => by
      rw [hz, Pi.single_zero]
    rw [← amountOf_gasCoin]
    exact funext (Bank.mintCoins_supply hb)
  | burnCoins m amt =>
    obtain ⟨q, r, hsplit, s₁, s₂, h₁, h₂, h₃⟩ := burnCoins_steps h
    rw [(removeBalance_ok h₃).bank, convertOneGasDenomToEvmDenomIfNeeded_supply h₂, EvmOp.minted,
      hsplit.units]
    refine withBankIfPositive_supply hsplit.units_nonneg h₁ (fun b hb => ?_) fun hz => by
      rw [hz, Pi.single_zero, neg_zero]
    rw [← amountOf_gasCoin, ← sub_eq_add_neg]
    exact funext (Bank.burnCoins_supply hb)

theorem Op.exec_supply {op : Op} (h : op.exec evm w = .ok w') :
    w'.bank.supply = w.bank.supply + minted evm w op := by
  have hok : (op.exec evm w).isOk = true := by
    rw [h]
    rfl
  unfold minted
  rw [if_pos hok]
  cases op with
  | convertCosmosCoinToERC20 initiator receiver amount =>
    obtain ⟨b, hsend, hb, _⟩ := convertCosmosCoinToERC20_ok h
    rw [hb, Bank.sendCoins_supply hsend]
    exact (add_zero _).symm
  | convertCosmosCoinFromERC20 initiator receiver coin =>
    obtain ⟨b, hsend, hb, _⟩ := convertCosmosCoinFromERC20_ok h
    rw [hb, Bank.sendCoins_supply (Bank.sendCoinsFromModuleToAccount_ok.mp hsend).2]
    exact (add_zero _).symm
  | convertCoinToERC20 initiator receiver coin =>
    obtain ⟨pair, _, w₁, h₁, h₂⟩ := convertCoinToERC20_ok h
    obtain ⟨_, e, _, _, _, _, rfl⟩ := unlockERC20Tokens_ok h₂
    obtain ⟨_, b, rfl, _, hsupply⟩ := burnConversionPairCoin_ok h₁
    funext d
    refine (hsupply d).trans ?_
    simp only [Pi.add_apply, Pi.neg_apply, Pi.single_apply, eq_comm (a := coin.denom),
      sub_eq_add_neg]
  | convertERC20ToCoin initiator receiver contract amount =>
    obtain ⟨pair, hpair, w₁, h₁, h₂⟩ := convertERC20ToCoin_ok h
    obtain ⟨_, e, _, _, _, _, rfl⟩ := lockERC20Tokens_ok h₁
    obtain ⟨_, b, rfl, _, hsupply⟩ := mintConversionPairCoin_ok h₂
    funext d
    refine (hsupply d).trans ?_
    simp only [hpair, Option.elim_some, Pi.add_apply, Pi.single_apply, eq_comm (a := pair.denom)]
    rfl
  | evmBank op =>
    obtain ⟨s', hs, rfl⟩ := evmBankOp_ok h
    exact EvmOp.exec_supply hs
  | transfer contract sender receiver amount =>
    obtain ⟨e, logs, _, rfl⟩ := execTransfer_ok h
    exact (add_zero _).symm

theorem step_supply (evm : EvmKeeper E) (w : World A E) (op : Op) :
    (step evm w op).bank.supply = w.bank.supply + minted evm w op := by
  rcases orElseKeep_cases w (op.exec evm w) with ⟨w', h, e⟩ | ⟨⟨err, h⟩, e⟩
  · rw [step, e]
    exact Op.exec_supply h
  · rw [step, e]
    unfold minted
    rw [h]
    exact (add_zero _).symm

end Evmutil

/-! ## The chain -/

namespace App

/-- What the operation adds to the supply. -/
def minted (env : Env E) (c : Chain A E) : Op → Ledger Denom
  | .bep3 op =>
    Bep3.claimed env.bep3 .incoming c.bep3 op - Bep3.claimed env.bep3 .outgoing c.bep3 op
  | .issuance op => Issuance.minted env.issuance c.issuance op
  | .evmutil op => Evmutil.minted env.evm c.evmutil op
  | .beginBlock _ => 0

def mintedOver (env : Env E) : Chain A E → List Op → Ledger Denom
  | _, [] => 0
  | c, op :: ops => minted env c op + mintedOver env (step env c op) ops

theorem step_supply (env : Env E) (c : Chain A E) (op : Op) :
    (step env c op).bank.supply = c.bank.supply + minted env c op := by
  have hissuance (c : Chain A E) (o : Issuance.Op) :
      (step env c (.issuance o)).bank.supply =
        c.bank.supply + Issuance.minted env.issuance c.issuance o := by
    have hs := Issuance.step_supply env.issuance c.issuance o
    rwa [c.issuance_bank] at hs
  cases op with
  | bep3 o => exact Bep3.step_supply env.bep3 c.bep3 o
  | issuance o => exact hissuance c o
  | evmutil o =>
    have hs := Evmutil.step_supply env.evm c.evmutil o
    rwa [c.evmutil_bank] at hs
  | beginBlock ctx =>
    rcases step_beginBlock env c ctx with e | e
    · rw [e]
      exact (add_zero _).symm
    · rw [e, hissuance]
      have hs : (Bep3.step env.bep3 c.bep3 (.beginBlock ctx)).bank.supply =
          c.bank.supply + (0 - 0) :=
        Bep3.step_supply env.bep3 c.bep3 (.beginBlock ctx)
      rw [sub_self] at hs
      exact (add_zero _).trans hs

end App

end ZgChain
