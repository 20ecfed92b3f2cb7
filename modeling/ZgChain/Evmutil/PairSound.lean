import ZgChain.Evmutil.WrappedSound

/-!
# Coins of a conversion pair are covered

To make coins of a pair the module locks as many tokens of the pair's contract, and asks the
contract whether the initiator has paid them. It does not ask whether the module has got
them, so the fee of a token that keeps some of a transfer is paid by the holders of the
coins, unless the module has tokens to spare.
-/

namespace ZgChain.Evmutil

variable {A : ModuleAddrs} {E : Type} {evm : EvmKeeper E}

/-- What is assumed of the contracts: a transfer takes the amount from the sender, gives the
recipient at most as much, and changes no other balance. -/
structure TokenLaws (evm : EvmKeeper E) (token : InternalEVMAddress → Prop) : Prop where
  transfer : ∀ {e e' : E} {c sender receiver : InternalEVMAddress} {n : Int} {logs : List Log},
    token c → 0 ≤ n →
    evm.transfer e c sender receiver n = some (e', logs) → ∃ k, 0 ≤ k ∧ k ≤ n ∧
      (∀ x, evm.balanceOf e' c x = (evm.balanceOf e c x).map fun b =>
        b - (if x = sender then n else 0) + (if x = receiver then k else 0)) ∧
      ∀ c', token c' → c' ≠ c → ∀ x, evm.balanceOf e' c' x = evm.balanceOf e c' x

inductive PairOp where
  | convertERC20ToCoin (initiator : InternalEVMAddress) (receiver : Addr)
      (contractAddr : InternalEVMAddress) (amount : Int)
  | convertCoinToERC20 (initiatorAccount : Addr) (receiverAccount : InternalEVMAddress)
      (coin : Coin)
  deriving DecidableEq

def PairOp.exec (evm : EvmKeeper E) (w : World A E) : PairOp → Except ConvertError (World A E)
  | convertERC20ToCoin initiator receiver contract amount =>
    Evmutil.convertERC20ToCoin evm w initiator receiver contract amount
  | convertCoinToERC20 initiator receiver coin =>
    Evmutil.convertCoinToERC20 evm w initiator receiver coin

def lockedBalance (evm : EvmKeeper E) (w : World A E) (pair : ConversionPair) : Option Int :=
  evm.balanceOf w.evm pair.getAddress (moduleEVMAddress A)

/-- The module has a token for every coin of the pair. -/
def Covered (evm : EvmKeeper E) (w : World A E) (pair : ConversionPair) : Prop :=
  ∃ b, lockedBalance evm w pair = some b ∧ w.bank.supply pair.denom ≤ b

def received (evm : EvmKeeper E) (w : World A E) (pair : ConversionPair)
    (initiator : InternalEVMAddress) (amount : Int) :
    Option Int := do
  let (e, _) ← evm.transfer w.evm pair.getAddress initiator (moduleEVMAddress A) amount
  let before ← evm.balanceOf w.evm pair.getAddress (moduleEVMAddress A)
  let after ← evm.balanceOf e pair.getAddress (moduleEVMAddress A)
  return after - before

/-- What the module does not get of tokens of the pair, it has to spare. -/
def FeeCovered (evm : EvmKeeper E) (w : World A E) (pair : ConversionPair) : PairOp → Prop
  | .convertERC20ToCoin initiator _ contract amount => contract.val = pair.zgChainERC20Address →
    ∀ r ∈ received evm w pair initiator amount, ∀ b ∈ lockedBalance evm w pair,
      amount - r ≤ b - w.bank.supply pair.denom
  | .convertCoinToERC20 _ _ _ => True

instance decidableFeeCovered (evm : EvmKeeper E) (w : World A E) (pair : ConversionPair) :
    (op : PairOp) → Decidable (FeeCovered evm w pair op)
  | .convertERC20ToCoin initiator _ contract amount =>
    inferInstanceAs (Decidable (contract.val = pair.zgChainERC20Address →
      ∀ r ∈ received evm w pair initiator amount, ∀ b ∈ lockedBalance evm w pair,
        amount - r ≤ b - w.bank.supply pair.denom))
  | .convertCoinToERC20 _ _ _ => isTrue trivial

/-! ## Pairs -/

theorem validateConversionPairs_ok {addrs : List Bytes} {denoms : List Denom}
    {pairs : List ConversionPair} {u : Unit}
    (h : validateConversionPairs addrs denoms pairs = .ok u) :
    (∀ p ∈ pairs, p.zgChainERC20Address.length = 20 ∧ p.zgChainERC20Address ∉ addrs ∧
      p.denom ∉ denoms) ∧
      pairs.Pairwise fun p q => p.zgChainERC20Address ≠ q.zgChainERC20Address ∧
      p.denom ≠ q.denom := by
  induction pairs generalizing addrs denoms with
  | nil => exact ⟨fun p hp => absurd hp List.not_mem_nil, .nil⟩
  | cons pair pairs ih =>
    simp only [validateConversionPairs, ConversionPair.validate, bind_eq_ok, rejectIf_eq_ok,
      not_not] at h
    obtain ⟨_, haddr, _, hdenom, _, ⟨_, _, _, hlen, _⟩, h⟩ := h
    obtain ⟨hall, hpw⟩ := ih h
    refine ⟨fun p hp => ?_, List.pairwise_cons.mpr ⟨fun p hp => ?_, hpw⟩⟩
    · cases hp with
      | head => exact ⟨hlen, haddr, hdenom⟩
      | tail _ hp =>
        obtain ⟨hl, ha, hd⟩ := hall p hp
        exact ⟨hl, fun h => ha (List.mem_cons_of_mem _ h), fun h => hd (List.mem_cons_of_mem _ h)⟩
    · obtain ⟨_, ha, hd⟩ := hall p hp
      exact ⟨fun e => ha (e ▸ List.mem_cons_self), fun e => hd (e ▸ List.mem_cons_self)⟩

section
variable {p : ValidParams} {pair pair' : ConversionPair}

theorem ValidParams.pairs (p : ValidParams) :
    (∀ pair ∈ p.val.enabledConversionPairs, pair.zgChainERC20Address.length = 20) ∧
      p.val.enabledConversionPairs.Pairwise
        fun p q => p.zgChainERC20Address ≠ q.zgChainERC20Address ∧ p.denom ≠ q.denom := by
  have h := p.property
  simp only [Params.validate, bind_eq_ok] at h
  obtain ⟨_, h, _⟩ := h
  obtain ⟨hall, hpw⟩ := validateConversionPairs_ok h
  exact ⟨fun pair hp => (hall pair hp).1, hpw⟩

theorem ConversionPair.ne (h : pair ∈ p.val.enabledConversionPairs)
    (h' : pair' ∈ p.val.enabledConversionPairs)
    (hne : pair' ≠ pair) : pair'.denom ≠ pair.denom ∧ pair'.getAddress ≠ pair.getAddress := by
  obtain ⟨hlen, hpw⟩ := p.pairs
  have hsymm : Std.Symm fun p q : ConversionPair => p.zgChainERC20Address ≠ q.zgChainERC20Address ∧
      p.denom ≠ q.denom :=
    ⟨fun _ _ hab => ⟨hab.1.symm, hab.2.symm⟩⟩
  have hdiff := hpw.forall h' h hne
  refine ⟨hdiff.2, fun e => hdiff.1 ?_⟩
  have hval := congrArg Subtype.val e
  simpa only [ConversionPair.getAddress, bytesToInternalEVMAddress,
    bytesToAddress_of_length (hlen _ h), bytesToAddress_of_length (hlen _ h')] using hval

theorem eq_of_address (h : pair ∈ p.val.enabledConversionPairs)
    (h' : pair' ∈ p.val.enabledConversionPairs)
    (he : pair'.zgChainERC20Address = pair.zgChainERC20Address) : pair' = pair := by
  by_contra hne
  refine ((ConversionPair.ne h h' hne).2 ?_).elim
  rw [ConversionPair.getAddress, he]
  rfl

end

/-! ## One conversion -/

section
variable {token : InternalEVMAddress → Prop} {w w' : World A E} {pair : ConversionPair}

theorem Covered.iff_of_eq (hsupply : w'.bank.supply pair.denom = w.bank.supply pair.denom)
    (hlocked : lockedBalance evm w' pair = lockedBalance evm w pair) :
    Covered evm w' pair ↔ Covered evm w pair := by
  rw [Covered, Covered, hsupply, hlocked]

theorem lockedBalance_transfer_other (laws : TokenLaws evm token)
    {c sender receiver : InternalEVMAddress} {n : Int}
    {e : E} {logs : List Log} (hc : token c) (hpair : token pair.getAddress)
    (hne : pair.getAddress ≠ c) (hn : 0 ≤ n)
    (h : evm.transfer w.evm c sender receiver n = some (e, logs)) (he : w'.evm = e) :
    lockedBalance evm w' pair = lockedBalance evm w pair := by
  obtain ⟨_, _, _, _, hother⟩ := laws.transfer hc hn h
  rw [lockedBalance, he]
  exact hother _ hpair hne _

theorem convertERC20ToCoin_covered_iff (laws : TokenLaws evm token)
    (hpair : pair ∈ w.params.val.enabledConversionPairs)
    (htokens : ∀ p ∈ w.params.val.enabledConversionPairs, token p.getAddress)
    (hw : Covered evm w pair) {initiator contract : InternalEVMAddress} {receiver : Addr} {n : Int}
    (h : convertERC20ToCoin evm w initiator receiver contract n = .ok w') :
    Covered evm w' pair ↔
    FeeCovered evm w pair (.convertERC20ToCoin initiator receiver contract n) := by
  obtain ⟨pair', hfind, w₁, hlock, hmint⟩ := convertERC20ToCoin_ok h
  have hmem := List.mem_of_find?_eq_some hfind
  have haddr : pair'.zgChainERC20Address = contract.val := by simpa using List.find?_some hfind
  obtain ⟨_, e, logs, _, htransfer, _, rfl⟩ := lockERC20Tokens_ok hlock
  obtain ⟨hn, b, rfl, _, hsupply⟩ := mintConversionPairCoin_ok hmint
  have hsup : (World.setBank { w with evm := e } b).bank.supply pair.denom =
      w.bank.supply pair.denom + if pair'.denom = pair.denom then n else 0 := hsupply pair.denom
  -- other pairs have another denom and another contract
  by_cases heq : pair' = pair
  · subst heq
    obtain ⟨before, hbefore, _⟩ := hw
    obtain ⟨k, _, _, hbalance, _⟩ := laws.transfer (htokens _ hmem) hn htransfer
    have hafter : lockedBalance evm (World.setBank { w with evm := e } b) pair' =
        some (before - (if moduleEVMAddress A = initiator then n else 0) + k) := by
      refine (hbalance (moduleEVMAddress A)).trans ?_
      rw [show evm.balanceOf w.evm pair'.getAddress (moduleEVMAddress A) = some before from hbefore,
        Option.map_some, if_pos rfl]
    have hreceived : received evm w pair' initiator n =
        some (before - (if moduleEVMAddress A = initiator then n else 0) + k - before) := by
      simp only [received, htransfer, Option.bind_eq_bind, Option.bind_some]
      rw [show evm.balanceOf w.evm pair'.getAddress (moduleEVMAddress A) = some before from hbefore,
        show evm.balanceOf e pair'.getAddress (moduleEVMAddress A) = _ from hafter]
      rfl
    rw [if_pos rfl] at hsup
    simp only [Covered, FeeCovered, hafter, hsup, hreceived, hbefore, Option.some.injEq,
      exists_eq_left', haddr, Option.mem_some_iff, forall_eq', forall_const]
    constructor
    · intro hle
      omega
    · intro hle
      omega
  · obtain ⟨hdenom, hcontract⟩ := ConversionPair.ne hpair hmem heq
    rw [if_neg hdenom, add_zero] at hsup
    have hlocked : lockedBalance evm (World.setBank { w with evm := e } b) pair =
        lockedBalance evm w pair :=
      lockedBalance_transfer_other laws (htokens _ hmem) (htokens _ hpair) hcontract.symm hn
        htransfer rfl
    have hfee : FeeCovered evm w pair (.convertERC20ToCoin initiator receiver contract n) := by
      intro hc
      exact absurd (eq_of_address hpair hmem (haddr.trans hc)) heq
    rw [Covered.iff_of_eq hsup hlocked]
    exact ⟨fun _ => hfee, fun _ => hw⟩

theorem convertCoinToERC20_covered (laws : TokenLaws evm token)
    (hpair : pair ∈ w.params.val.enabledConversionPairs)
    (htokens : ∀ p ∈ w.params.val.enabledConversionPairs, token p.getAddress)
    (hw : Covered evm w pair) {initiator : Addr} {receiver : InternalEVMAddress} {coin : Coin}
    (h : convertCoinToERC20 evm w initiator receiver coin = .ok w') : Covered evm w' pair := by
  obtain ⟨pair', hfind, w₁, hburn, hunlock⟩ := convertCoinToERC20_ok h
  have hmem := List.mem_of_find?_eq_some hfind
  have hdenom : pair'.denom = coin.denom := by simpa using List.find?_some hfind
  obtain ⟨hn, b, rfl, _, hsupply⟩ := burnConversionPairCoin_ok hburn
  obtain ⟨start, e, logs, hstart, htransfer, hfinal, rfl⟩ := unlockERC20Tokens_ok hunlock
  have hsup : ({ w.setBank b with evm := e } : World A E).bank.supply pair.denom =
      w.bank.supply pair.denom - if coin.denom = pair.denom then coin.amount else 0 :=
        hsupply pair.denom
  by_cases heq : pair' = pair
  · subst heq
    obtain ⟨before, hbefore, hle⟩ := hw
    obtain ⟨k, _, hk, hbalance, _⟩ := laws.transfer (htokens _ hmem) hn htransfer
    have hafter := hbalance (moduleEVMAddress A)
    rw [show evm.balanceOf (w.setBank b).evm pair'.getAddress (moduleEVMAddress A) =
      some before from hbefore,
      Option.map_some, if_pos rfl] at hafter
    rw [if_pos hdenom.symm] at hsup
    refine ⟨_, hafter, ?_⟩
    rw [hsup]
    by_cases hr : moduleEVMAddress A = receiver
    · -- The module pays itself, which passes the check of the balance for nothing only.
      subst hr
      rw [hafter, if_pos rfl] at hfinal
      have hstart' : before = start := Option.some.inj (hbefore.symm.trans hstart)
      have := Option.some.inj hfinal
      rw [if_pos rfl]
      omega
    · rw [if_neg hr]
      omega
  · obtain ⟨hd, hcontract⟩ := ConversionPair.ne hpair hmem heq
    rw [if_neg (hdenom ▸ hd), sub_zero] at hsup
    have hlocked : lockedBalance evm { w.setBank b with evm := e } pair =
        lockedBalance evm w pair :=
      lockedBalance_transfer_other laws (htokens _ hmem) (htokens _ hpair) hcontract.symm hn
        htransfer rfl
    exact (Covered.iff_of_eq hsup hlocked).mpr hw

theorem PairOp.exec_covered_iff (laws : TokenLaws evm token)
    (hpair : pair ∈ w.params.val.enabledConversionPairs)
    (htokens : ∀ p ∈ w.params.val.enabledConversionPairs, token p.getAddress)
    (hw : Covered evm w pair) {op : PairOp}
    (h : op.exec evm w = .ok w') : Covered evm w' pair ↔ FeeCovered evm w pair op := by
  cases op with
  | convertERC20ToCoin initiator receiver contract n =>
    exact convertERC20ToCoin_covered_iff laws hpair htokens hw h
  | convertCoinToERC20 initiator receiver coin =>
    exact ⟨fun _ => trivial, fun _ => convertCoinToERC20_covered laws hpair htokens hw h⟩

theorem PairOp.exec_params {op : PairOp} (h : op.exec evm w = .ok w') : w'.params = w.params := by
  cases op with
  | convertERC20ToCoin initiator receiver contract n =>
    obtain ⟨_, _, w₁, hlock, hmint⟩ := convertERC20ToCoin_ok h
    obtain ⟨_, e, _, _, _, _, rfl⟩ := lockERC20Tokens_ok hlock
    obtain ⟨_, b, rfl, _⟩ := mintConversionPairCoin_ok hmint
    rfl
  | convertCoinToERC20 initiator receiver coin =>
    obtain ⟨_, _, w₁, hburn, hunlock⟩ := convertCoinToERC20_ok h
    obtain ⟨_, b, rfl, _⟩ := burnConversionPairCoin_ok hburn
    obtain ⟨_, e, _, _, _, _, rfl⟩ := unlockERC20Tokens_ok hunlock
    rfl

end

/-! ## Runs of conversions -/

def AlwaysCovered (evm : EvmKeeper E) (pair : ConversionPair) : World A E → List PairOp → Prop
  | w, [] => Covered evm w pair
  | w, op :: ops => Covered evm w pair ∧ ∀ w', op.exec evm w = .ok w' →
  AlwaysCovered evm pair w' ops

def FeesCovered (evm : EvmKeeper E) (pair : ConversionPair) : World A E → List PairOp → Prop
  | _, [] => True
  | w, op :: ops => ∀ w', op.exec evm w = .ok w' → FeeCovered evm w pair op ∧
  FeesCovered evm pair w' ops

theorem AlwaysCovered.head {pair : ConversionPair} {w : World A E} {ops : List PairOp}
    (h : AlwaysCovered evm pair w ops) : Covered evm w pair := by
  cases ops with
  | nil => exact h
  | cons op ops => exact h.1

/-- Coins of a pair that are covered stay covered through every sequence of conversions exactly
if the fees of the tokens are covered by tokens the module has to spare. -/
theorem pair_covered_iff {token : InternalEVMAddress → Prop} (laws : TokenLaws evm token)
    (w : World A E) (pair : ConversionPair) (hpair : pair ∈ w.params.val.enabledConversionPairs)
    (htokens : ∀ p ∈ w.params.val.enabledConversionPairs, token p.getAddress)
    (hw : Covered evm w pair)
    (ops : List PairOp) : AlwaysCovered evm pair w ops ↔ FeesCovered evm pair w ops := by
  induction ops generalizing w with
  | nil => exact ⟨fun _ => trivial, fun _ => hw⟩
  | cons op ops ih =>
    have hnext : ∀ w', op.exec evm w = .ok w' → Covered evm w' pair →
        (AlwaysCovered evm pair w' ops ↔ FeesCovered evm pair w' ops) := by
      intro w' h hw'
      have hp := op.exec_params h
      exact ih w' (by rw [hp]; exact hpair) (by rw [hp]; exact htokens) hw'
    constructor
    · intro hall w' h
      have hw' := (hall.2 w' h).head
      exact ⟨(PairOp.exec_covered_iff laws hpair htokens hw h).mp hw',
        (hnext w' h hw').mp (hall.2 w' h)⟩
    · intro hfees
      refine ⟨hw, fun w' h => ?_⟩
      obtain ⟨hfee, hrest⟩ := hfees w' h
      have hw' := (PairOp.exec_covered_iff laws hpair htokens hw h).mpr hfee
      exact (hnext w' h hw').mpr hrest

/-! ## A token with a fee -/

theorem erc20Evm_tokenLaws {credited : Int → Int}
    (hcredited : ∀ n, 0 ≤ n → 0 ≤ credited n ∧ credited n ≤ n) :
    TokenLaws (erc20Evm credited) fun _ => True := by
  constructor
  intro e e' c sender receiver n logs _ hn h
  obtain ⟨t, ht, h⟩ := Option.bind_eq_some_iff.mp h
  split at h
  · cases h
  · cases h
    obtain ⟨h₀, h₁⟩ := hcredited n hn
    refine ⟨credited n, h₀, h₁, fun x => ?_, fun c' _ hne x => ?_⟩
    · simp only [erc20Evm, Contracts.set_code, if_true, ht, Option.map_some, Erc20.add,
        Option.some.injEq]
      split
      · ring
      · ring
    · simp [erc20Evm, Contracts.set_code, hne]

def lessOnePercent (n : Int) : Int := n - n / 100

def samplePair : ConversionPair := ⟨(createAddress 0).val, "erc20/token"⟩

theorem pairParams_valid : Params.validate ⟨[samplePair], []⟩ = .ok () := by decide

def tokenContracts : Contracts :=
  Contracts.set ⟨1, fun _ => none⟩ (createAddress 0)
    ⟨fun x => if x = holderEVMAddress then 100 else 0, 100⟩

def pairWorld : World chainAddrs Contracts :=
  ⟨holderState, ⟨_, pairParams_valid⟩, .empty, tokenContracts⟩

def convertAll : PairOp := .convertERC20ToCoin holderEVMAddress holderAddr (createAddress 0) 100

/-- With a fee of one percent, a hundred coins are made for the 99 tokens the module gets. -/
theorem fee_uncovers_pair : TokenLaws (erc20Evm lessOnePercent) (fun _ => True) ∧
    samplePair ∈ pairWorld.params.val.enabledConversionPairs ∧
    Covered (erc20Evm lessOnePercent) pairWorld samplePair ∧
    ∃ w', convertAll.exec (erc20Evm lessOnePercent) pairWorld = .ok w' ∧
      ¬ Covered (erc20Evm lessOnePercent) w' samplePair := by
  have hlaws : TokenLaws (erc20Evm lessOnePercent) fun _ => True := by
    refine erc20Evm_tokenLaws fun n hn => ?_
    unfold lessOnePercent
    omega
  have hpair : samplePair ∈ pairWorld.params.val.enabledConversionPairs :=
    List.mem_singleton.mpr rfl
  have hcovered : Covered (erc20Evm lessOnePercent) pairWorld samplePair :=
    ⟨0, by decide +kernel, le_refl _⟩
  have hok : ∃ w', convertAll.exec (erc20Evm lessOnePercent) pairWorld = .ok w' := by decide +kernel
  obtain ⟨w', h⟩ := hok
  refine ⟨hlaws, hpair, hcovered, w', h, ?_⟩
  rw [PairOp.exec_covered_iff hlaws hpair (fun _ _ => trivial) hcovered h]
  decide +kernel

/-- Without a fee the coins stay covered, and tokens are given back for some of them. -/
theorem pair_covered_iff_plain : AlwaysCovered (erc20Evm id) samplePair pairWorld
    [convertAll, .convertCoinToERC20 holderAddr holderEVMAddress ⟨"erc20/token", 40⟩] := by
  have hlaws : TokenLaws (erc20Evm id) fun _ => True :=
    erc20Evm_tokenLaws fun n hn => ⟨hn, le_refl n⟩
  have hfee : FeeCovered (erc20Evm id) pairWorld samplePair convertAll := by decide +kernel
  refine (pair_covered_iff hlaws pairWorld samplePair (List.mem_singleton.mpr rfl)
    (fun _ _ => trivial)
    ⟨0, by decide +kernel, le_refl _⟩ _).mpr fun w' _ => ⟨hfee, fun w'' _ => ⟨trivial, trivial⟩⟩

end ZgChain.Evmutil
