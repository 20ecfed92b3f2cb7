import ZgChain.Evmutil.WrappedSound

/-!
# Wrapped coins can be redeemed

A holder of tokens of a wrapped coin gets the coins back for them. The contract burns the
tokens, and the module account has the coins, since it has those behind all tokens.
-/

namespace ZgChain.Evmutil

variable {A : ModuleAddrs} {E : Type} {evm : EvmKeeper E}

/-- What is assumed of a contract of the module besides: nobody holds more than all its tokens,
and tokens are burned for whoever holds them. -/
structure Redeemable (laws : Wrappers evm) : Prop where
  held : ∀ {e : E} {c x : InternalEVMAddress} {n total : Int}, laws.wrapper e c →
    evm.balanceOf e c x = some n →
      evm.totalSupply e c = some total → n ≤ total
  burn : ∀ {e : E} {c x : InternalEVMAddress} {held n : Int}, laws.wrapper e c →
    evm.balanceOf e c x = some held →
      0 ≤ n → n ≤ held → ∃ e', evm.burn e c x n = some e' ∧ evm.balanceOf e' c x = some (held - n)

theorem validateAllowedCosmosCoinERC20Tokens_denoms {denoms : List Denom}
    {symbols : List String} {i : Nat} {tokens : List AllowedCosmosCoinERC20Token} {u : Unit}
    (h : validateAllowedCosmosCoinERC20Tokens denoms symbols i tokens = .ok u) :
    ∀ token ∈ tokens, validateDenom token.cosmosDenom = true := by
  induction tokens generalizing denoms symbols i with
  | nil => simp
  | cons t tokens ih =>
    simp only [validateAllowedCosmosCoinERC20Tokens, bind_eq_ok, mapError_eq_ok] at h
    obtain ⟨_, ht, _, _, _, _, hrest⟩ := h
    simp only [AllowedCosmosCoinERC20Token.validate, bind_eq_ok, rejectIf_eq_ok,
      Bool.not_eq_false] at ht
    obtain ⟨_, hdenom, _⟩ := ht
    intro token htoken
    rcases List.mem_cons.mp htoken with rfl | htoken
    · exact hdenom
    · exact ih hrest token htoken

theorem allowedDenoms_valid (p : ValidParams) {d : Denom} (h : d ∈ allowedDenoms p.val) :
    validateDenom d = true := by
  obtain ⟨token, htoken, rfl⟩ := List.mem_map.mp h
  have hp := p.property
  simp only [Params.validate, bind_eq_ok] at hp
  obtain ⟨_, _, htokens⟩ := hp
  exact validateAllowedCosmosCoinERC20Tokens_denoms htokens token htoken

/-- Where coins are backed, tokens are redeemed for an ordinary account. -/
theorem Wrapped.redeems {laws : Wrappers evm} (hlaws : Redeemable laws) {w : World A E}
    (hw : Wrapped laws w) {d : Denom}
    {c holder : InternalEVMAddress} {receiver : Addr} {held n : Int}
    (hd : w.deployed.get d = some c)
    (hheld : evm.balanceOf w.evm c holder = some held) (hpos : 0 < n) (hle : n ≤ held)
    (hreceiver : A.moduleAccountAddrs receiver = false) :
    ∃ w', convertCosmosCoinFromERC20 evm w holder receiver ⟨d, n⟩ = .ok w' ∧
      w'.bank.balances receiver d = w.bank.balances receiver d + n ∧
      evm.balanceOf w'.evm c holder = some (held - n) := by
  have hwrapper := hw.wrapper d c hd
  obtain ⟨e', hburn, hleft⟩ := hlaws.burn hwrapper hheld hpos.le hle
  have hcoins : (newCoins ⟨d, n⟩) = [⟨d, n⟩] := if_neg hpos.ne'
  have hvalid : Coins.isValid (newCoins ⟨d, n⟩) = true := by
    rw [hcoins]
    exact (isValid_singleton _).mpr ⟨allowedDenoms_valid w.params (hw.allowed d c hd), hpos⟩
  -- the module account has the coins behind all tokens of the contract
  have hmodule : n ≤ w.bank.balances (A.addr .evmutil) d :=
    hle.trans (hlaws.held hwrapper hheld (hw.backed d c hd))
  obtain ⟨b, hb⟩ : ∃ b, w.bank.sendCoins (A.addr .evmutil) receiver (newCoins ⟨d, n⟩) = .ok b := by
    refine Bank.sendCoins_module receiver hvalid fun d' => ?_
    rw [amountOf_newCoins]
    by_cases hd' : d = d'
    · subst hd'
      rw [if_pos rfl]
      exact hmodule
    · rw [if_neg hd']
      exact w.bank.balances_nonneg _ _
  have hsend := Bank.sendCoinsFromModuleToAccount_ok.mpr ⟨hreceiver, hb⟩
  refine ⟨({ w with evm := e' } : World A E).setBank b, ?_, ?_, hleft⟩
  · have hbalance : queryERC20BalanceOf evm w c holder = .ok held :=
      (orReject_eq_ok _ _ _).mpr hheld
    have hburned : burnERC20 evm w c holder n = .ok { w with evm := e' } := by
      rw [burnERC20, hburn]
      rfl
    have hmust : mustNewCoins ⟨d, n⟩ = .ok (newCoins ⟨d, n⟩) := by
      rw [mustNewCoins, rejectIf_neg (by simp [hvalid])]
      rfl
    have hdeployed : getDeployedCosmosCoinContract w d = some c := hd
    rw [convertCosmosCoinFromERC20, hdeployed, orReject, ok_bind, hbalance, ok_bind,
      rejectIf_neg (not_lt.mpr hle), ok_bind, hburned, ok_bind, hmust, ok_bind]
    exact World.withBank_ok.mpr ⟨b, hsend, rfl⟩
  · have hne : receiver ≠ A.addr .evmutil := by
      intro e
      rw [e] at hreceiver
      simp at hreceiver
    have hbalances := (Bank.sendCoins_ok hb).2.1 receiver d
    rw [if_neg hne, if_pos rfl, amountOf_newCoins, if_pos rfl, sub_zero] at hbalances
    exact hbalances

/-! ## An EVM with unsigned amounts -/

/-- The contracts of an EVM where a call with a negative amount cannot be made. -/
def unsignedEvm : EvmKeeper Contracts where
  deploy := (erc20Evm id).deploy
  mint e c receiver n := if n < 0 then none else (erc20Evm id).mint e c receiver n
  burn e c initiator n := if n < 0 then none else (erc20Evm id).burn e c initiator n
  transfer e c sender receiver n :=
    if n < 0 then none else (erc20Evm id).transfer e c sender receiver n
  balanceOf := (erc20Evm id).balanceOf
  totalSupply := (erc20Evm id).totalSupply

/-- The tokens of any holders are no more than all tokens. -/
def Erc20.Sound (t : Erc20) : Prop :=
  ∀ holders : Finset InternalEVMAddress, ∑ x ∈ holders, t.balances x ≤ t.totalSupply

theorem Erc20.sum_add (t : Erc20) (x : InternalEVMAddress) (n : Int)
    (holders : Finset InternalEVMAddress) :
    ∑ y ∈ holders, (t.add x n).balances y = ∑ y ∈ holders, t.balances y + if x ∈ holders then n
      else 0 := by
  unfold Erc20.add
  rw [Finset.sum_add_distrib, Finset.sum_ite_eq']

theorem Erc20.Sound.give {t : Erc20} (h : t.Sound) (x : InternalEVMAddress) {n : Int} (hn : 0 ≤ n) :
    Erc20.Sound { t.add x n with totalSupply := t.totalSupply + n } := by
  intro holders
  have hsum := t.sum_add x n holders
  have htotal := h holders
  dsimp only at hsum ⊢
  rw [hsum]
  split
  · omega
  · omega

theorem Erc20.Sound.take {t : Erc20} (h : t.Sound) {x : InternalEVMAddress} {n : Int}
    (hx : n ≤ t.balances x) :
    Erc20.Sound { t.add x (-n) with totalSupply := t.totalSupply - n } := by
  intro holders
  have hsum := t.sum_add x (-n) holders
  dsimp only at hsum ⊢
  rw [hsum]
  by_cases hmem : x ∈ holders
  · have htotal := h holders
    rw [if_pos hmem]
    omega
  · -- the one who gives tokens up holds them besides the others
    have htotal := h (insert x holders)
    rw [Finset.sum_insert hmem] at htotal
    rw [if_neg hmem]
    omega

theorem Erc20.Sound.move {t : Erc20} (h : t.Sound) {x : InternalEVMAddress} (y : InternalEVMAddress)
    {n : Int} (hn : 0 ≤ n) (hx : n ≤ t.balances x) : ((t.add x (-n)).add y n).Sound := by
  have hmoved := (h.take hx).give y hn
  dsimp only [Erc20.add] at hmoved
  rw [sub_add_cancel] at hmoved
  exact hmoved

def SoundContract (e : Contracts) (c : InternalEVMAddress) : Prop :=
  ∃ t, e.code c = some t ∧ t.Sound

section
variable {e e' : Contracts} {c c' : InternalEVMAddress} {t t' : Erc20}

theorem SoundContract.set_ne (h : SoundContract e c') (hne : c' ≠ c) :
    SoundContract (e.set c t) c' := by
  obtain ⟨t', hcode, ht'⟩ := h
  exact ⟨t', by rw [Contracts.set_code, if_neg hne, hcode], ht'⟩

theorem SoundContract.set (h : SoundContract e c') (ht : t.Sound) :
    SoundContract (e.set c t) c' := by
  by_cases hc : c' = c
  · exact ⟨t, by rw [Contracts.set_code, if_pos hc], ht⟩
  · exact h.set_ne hc

theorem totalSupply_set (hne : c' ≠ c) :
    unsignedEvm.totalSupply (e.set c t) c' = unsignedEvm.totalSupply e c' := by
  simp [unsignedEvm, erc20Evm, Contracts.set_code, hne]

theorem totalSupply_set_self : unsignedEvm.totalSupply (e.set c t) c = some t.totalSupply := by
  simp [unsignedEvm, erc20Evm, Contracts.set_code]

end

def unsignedWrappers : Wrappers unsignedEvm where
  wrapper := SoundContract
  deploy {e e' token a} h := by
    unfold unsignedEvm erc20Evm at h
    dsimp only at h
    split at h
    · cases h
    · rename_i hnone
      cases h
      have hnew : ∀ c, SoundContract e c → c ≠ createAddress e.nonce := by
        intro c hc heq
        obtain ⟨t, hcode, _⟩ := hc
        rw [← heq, hcode] at hnone
        exact hnone rfl
      have hzero : Erc20.Sound ⟨fun _ => 0, 0⟩ := fun holders => by simp
      refine ⟨fun hc => hnew _ hc rfl, ⟨_, by rw [Contracts.set_code, if_pos rfl], hzero⟩,
        totalSupply_set_self,
        fun c hc => ⟨SoundContract.set (e := ⟨e.nonce + 1, e.code⟩) hc hzero,
          totalSupply_set (hnew c hc)⟩⟩
  mint {e e' c receiver n} hc hn h := by
    unfold unsignedEvm erc20Evm at h
    dsimp only at h
    rw [if_neg (not_lt.mpr hn)] at h
    obtain ⟨t, hcode, ht⟩ := hc
    rw [hcode] at h
    cases h
    refine ⟨?_, fun c' hc' => ⟨hc'.set (ht.give receiver hn), totalSupply_set⟩⟩
    rw [totalSupply_set_self]
    simp [unsignedEvm, erc20Evm, hcode]
  burn {e e' c initiator n} hc hn h := by
    unfold unsignedEvm erc20Evm at h
    dsimp only at h
    rw [if_neg (not_lt.mpr hn)] at h
    obtain ⟨t, hcode, ht⟩ := hc
    rw [hcode, Option.bind_some] at h
    split at h
    · cases h
    · rename_i hle
      cases h
      refine ⟨?_, fun c' hc' => ⟨hc'.set (ht.take (not_lt.mp hle)), totalSupply_set⟩⟩
      rw [totalSupply_set_self]
      simp [unsignedEvm, erc20Evm, hcode]
  transfer {e e' c sender receiver n logs} h c' hc' := by
    unfold unsignedEvm erc20Evm at h
    dsimp only at h
    by_cases hn : n < 0
    · rw [if_pos hn] at h
      cases h
    · rw [if_neg hn] at h
      obtain ⟨t, hcode, h⟩ := Option.bind_eq_some_iff.mp h
      split at h
      · cases h
      · rename_i hle
        cases h
        by_cases hc : c' = c
        · subst hc
          obtain ⟨t', hcode', ht⟩ := id hc'
          cases hcode.symm.trans hcode'
          refine ⟨hc'.set (ht.move receiver (not_lt.mp hn) (not_lt.mp hle)), ?_⟩
          rw [totalSupply_set_self]
          simp [unsignedEvm, erc20Evm, hcode, Erc20.add]
        · exact ⟨hc'.set_ne hc, totalSupply_set hc⟩

theorem unsignedWrappers_redeemable : Redeemable unsignedWrappers where
  held {e c x n total} hc hn htotal := by
    obtain ⟨t, hcode, ht⟩ := hc
    unfold unsignedEvm erc20Evm at hn htotal
    dsimp only at hn htotal
    rw [hcode] at hn htotal
    cases hn
    cases htotal
    have hone := ht {x}
    rwa [Finset.sum_singleton] at hone
  burn {e c x held n} hc hheld hn hle := by
    obtain ⟨t, hcode, _⟩ := hc
    unfold unsignedEvm erc20Evm at hheld ⊢
    dsimp only at hheld ⊢
    rw [hcode] at hheld ⊢
    cases hheld
    refine ⟨_, by rw [if_neg (not_lt.mpr hn), Option.bind_some, if_neg (not_lt.mpr hle)], ?_⟩
    rw [Contracts.set_code, if_pos rfl, Option.map_some]
    simp [Erc20.add, sub_eq_add_neg]

end ZgChain.Evmutil
