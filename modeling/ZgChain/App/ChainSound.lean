import ZgChain.App.Chain
import ZgChain.Evmutil.RedeemSound

/-!
# What the modules keep of each other

The guarantees of a module rest on the balance of its account, which the other modules
reach through the same bank. They hold on the chain as long as no block list names the
account.
-/

namespace ZgChain

variable {A : ModuleAddrs} {E : Type}

/-! ## Coins leave an account on the word of its holder -/

namespace App

variable {env : Env E}

/-- No list of an asset `d` has the account. -/
def Unlisted (env : Env E) (x : Addr) (d : Denom) (c : Chain A E) : Prop :=
  ¬ Issuance.Listed env.issuance c.issuance x d

theorem Unlisted.step {x : Addr} {d : Denom} {c : Chain A E} {op : Op} (h : Unlisted env x d c)
    (hop : ¬ op.Lists env x d) : Unlisted env x d (step env c op) := by
  cases op with
  | bep3 op => exact h
  | evmutil op => exact h
  | issuance op => exact fun hl => (Issuance.step_listed env.issuance c.issuance hl).elim h hop
  | beginBlock ctx =>
    rcases step_beginBlock env c ctx with e | e
    · rwa [e]
    · rw [e]
      exact fun hl => (Issuance.step_listed env.issuance _ hl).elim h fun hlists => hlists.elim

theorem sampleChain_unlisted (x : Addr) (d : Denom) :
    ¬ Issuance.Listed sampleEnv.issuance sampleChain.issuance x d := by
  intro h
  obtain ⟨asset, hasset, _, hx⟩ := h
  rw [List.mem_singleton.mp hasset] at hx
  cases hx

end App

/-! ## Swaps -/

namespace Bep3

variable {env : Env} {s : State A}

theorem IndexInv.setBank (h : IndexInv env s) (b : Bank A) : IndexInv env { s with bank := b } :=
  ⟨h.ids, h.byBlock, h.longterm⟩

/-- The rest of the chain may add to the module account, and make and destroy coins. -/
theorem ClaimInv.setBank {t : Ledger Denom} (h : ClaimInv env t s) {b : Bank A}
    (hb : ∀ d, s.bank.balances (A.addr .bep3) d ≤ b.balances (A.addr .bep3) d) :
    ClaimInv env (b.supply - book s .current) { s with bank := b } where
  index := h.index.setBank b
  denoms := h.denoms
  swaps := h.swaps
  incoming := h.incoming
  outgoing := h.outgoing
  held d := (h.held d).trans (hb d)
  current := (sub_add_cancel b.supply (book s .current)).symm
  limits d sup hs := (h.limits d sup hs).params rfl
  live id a ha := (h.live id a ha).keeps ⟨rfl, fun _ h => h⟩

/-- Accounts of no module open the swaps. -/
def OrdinarySenders (s : State A) : Prop :=
  ∀ id a, s.swaps.get id = some a → A.moduleAccountAddrs a.sender = false

theorem OrdinarySenders.step (h : OrdinarySenders s) (hi : IndexInv env s) {op : Op}
    (hop : ∀ x, op.sender = some x → A.moduleAccountAddrs x = false) :
    OrdinarySenders (step env s op) := by
  intro id a' ha'
  have he := hi.evolves op id
  rw [ha'] at he
  generalize hx : s.swaps.get id = x at he
  cases he with
  | keep => exact h id a' hx
  | create hc => exact hop _ rfl
  | claim _ | refund _ | expire _ _ =>
    have ha := h id _ hx
    exact ha

end Bep3

namespace App

variable {env : Env E} {c : Chain A E} {op : Op}

theorem Op.Ordinary.sender {o : Bep3.Op} (h : Op.Ordinary A env (.bep3 o)) (x : Addr)
    (hx : o.sender = some x) :
    A.moduleAccountAddrs x = false := by
  by_contra hm
  rw [Bool.not_eq_false, A.moduleAccountAddrs_iff] at hm
  obtain ⟨m, rfl⟩ := hm
  exact h.signs m hx

theorem Op.Ordinary.evm_uses {o : Evmutil.Op} {m : ModuleName} (h : Op.Ordinary A env (.evmutil o))
    (hm : Op.Uses m (.evmutil o)) : m = .evmutil ∨ m = .evm ∨ m = .feeCollector := by
  rcases hm with rfl | hm
  · exact Or.inl rfl
  · cases o with
    | evmBank o =>
      have hcalls := h.calls o rfl
      rw [show o.module = m from hm] at hcalls
      exact Or.inr hcalls
    | _ => exact hm.elim

theorem Op.Ordinary.of_signers (hs : ∀ x, op.Signs env x → A.moduleAccountAddrs x = false)
    (hsend : ∀ src dst amt, op ≠ .issuance (.send src dst amt))
    (hcall : ∀ o, op ≠ .evmutil (.evmBank o)) :
    op.Ordinary A env where
  signs m h := by simpa using hs _ h
  pays m src amt := hsend src _ amt
  calls o e := absurd e (hcall o)

theorem beginBlock_ordinary (ctx : Ctx) :
    Op.Ordinary A env (.bep3 (.beginBlock ctx)) ∧
    Op.Ordinary A env (.issuance (.beginBlock ctx)) := by
  refine ⟨.of_signers (fun x hs => ?_) ?_ ?_, .of_signers (fun x hs => hs.elim) ?_ ?_⟩
  · cases hs
  all_goals simp

/-- An unlisted module account does not pay for what other modules do. -/
theorem Op.Ordinary.not_payer {m : ModuleName} {d : Denom} (h : op.Ordinary A env)
    (hm : ¬ op.Uses m) (hl : Unlisted env (A.addr m) d c) : ¬ payers env c op (A.addr m) d := by
  intro hpays
  rcases hpays with ⟨m', hu, e⟩ | hs | ⟨_, hlisted⟩
  · exact hm (A.injective e ▸ hu)
  · exact h.signs m hs
  · exact hl hlisted

theorem sampleOps_ordinary {op : Op} (hop : op ∈ sampleOps) :
    op.Ordinary chainAddrs sampleEnv ∧ ∀ x d, ¬ op.Lists sampleEnv x d := by
  simp only [sampleOps, List.mem_cons, List.not_mem_nil, or_false] at hop
  rcases hop with rfl | rfl | rfl | rfl | rfl
  all_goals refine ⟨.of_signers (fun x hs => ?_) (by simp) (by simp [Bep3.sampleClaim]),
    fun x d hl => hl⟩
  all_goals
    cases hs
    try decide

structure SwapsSafe (env : Env E) (c : Chain A E) : Prop where
  claims : ∃ t, Bep3.ClaimInv env.bep3 t c.bep3
  senders : Bep3.OrdinarySenders c.bep3
  unlisted : ∀ d, Unlisted env (A.addr .bep3) d c

theorem SwapsSafe.bep3 {o : Bep3.Op} (h : SwapsSafe env c) (hop : Op.Ordinary A env (.bep3 o)) :
    SwapsSafe env (step env c (.bep3 o)) := by
  obtain ⟨t, ht⟩ := h.claims
  have hone : ∀ o' ∈ [o], o'.sender ≠ some (A.addr .bep3) := by
    intro o' ho'
    rw [List.mem_singleton.mp ho']
    exact hop.signs .bep3
  exact ⟨⟨t, ht.run hone⟩, h.senders.step ht.index hop.sender, h.unlisted⟩

/-- Another module leaves the swaps alone, and their coins in the module account. -/
theorem SwapsSafe.other (h : SwapsSafe env c) (hop : op.Ordinary A env) (hm : ¬ op.Uses .bep3)
    (hl : ∀ d, ¬ op.Lists env (A.addr .bep3) d)
    (hb : (step env c op).bep3 = { c.bep3 with bank := (step env c op).bank }) :
    SwapsSafe env (step env c op) := by
  obtain ⟨t, ht⟩ := h.claims
  have hflow := step_flow env c op
  have hheld : ∀ d, c.bank.balances (A.addr .bep3) d ≤ (step env c op).bank.balances
      (A.addr .bep3) d :=
    fun d => hflow.le (hop.not_payer hm (h.unlisted d))
  refine ⟨⟨_, hb ▸ ht.setBank hheld⟩, ?_, fun d => (h.unlisted d).step (hl d)⟩
  rw [hb]
  exact h.senders

theorem SwapsSafe.issuance {o : Issuance.Op} (h : SwapsSafe env c)
    (hop : Op.Ordinary A env (.issuance o))
    (hl : ∀ d, ¬ Op.Lists env (A.addr .bep3) d (.issuance o)) :
    SwapsSafe env (step env c (.issuance o)) :=
  h.other hop (fun hm => by cases hm) hl rfl

theorem SwapsSafe.step (h : SwapsSafe env c) (hop : op.Ordinary A env)
    (hl : ∀ d, ¬ op.Lists env (A.addr .bep3) d) :
    SwapsSafe env (step env c op) := by
  cases op with
  | bep3 o => exact h.bep3 hop
  | issuance o => exact h.issuance hop hl
  | evmutil o =>
    refine h.other hop (fun hm => ?_) hl rfl
    have huses := hop.evm_uses hm
    simp at huses
  | beginBlock ctx =>
    rcases step_beginBlock env c ctx with e | e
    · rwa [e]
    · rw [e]
      exact (h.bep3 (beginBlock_ordinary ctx).1).issuance (beginBlock_ordinary ctx).2
        fun _ hlists => hlists

/-- In every order of swaps, issues, conversions, transfers and blocks, an open swap is
claimed by its number and an expired one refunded, unless an owner lists the module account. -/
theorem swaps_resolve (env : Env E) (c₀ : Chain A E) (hn : Bep3.NoSwaps c₀.bep3)
    (hz : Bep3.ZeroCounters c₀.bep3)
    (hunlisted : ∀ d, ¬ Issuance.Listed env.issuance c₀.issuance (A.addr .bep3) d) (ops : List Op)
    (hops : ∀ op ∈ ops, op.Ordinary A env ∧ ∀ d, ¬ op.Lists env (A.addr .bep3) d) (ctx : Ctx)
    (id : Bytes) (a : Bep3.AtomicSwap) (ha : (run env c₀ ops).bep3.swaps.get id = some a) :
    (a.status = .open → ∀ number, Bep3.calculateRandomHash env.bep3 number a.timestamp =
      a.randomNumberHash →
      ∃ s', Bep3.claimAtomicSwap env.bep3 ctx (run env c₀ ops).bep3 id number = .ok s') ∧
    (a.status = .expired → ∃ s', Bep3.refundAtomicSwap env.bep3 ctx (run env c₀ ops).bep3 id =
      .ok s') := by
  have hstart : SwapsSafe env c₀ := by
    refine ⟨⟨_, Bep3.ClaimInv.init hn hz⟩, fun id a ha => ?_, hunlisted⟩
    rw [hn.1] at ha
    cases ha
  have hstep : ∀ (c : Chain A E) (op : Op),
      (op.Ordinary A env ∧ ∀ d, ¬ op.Lists env (A.addr .bep3) d) →
      SwapsSafe env c → SwapsSafe env (App.step env c op) := fun _ _ hop h => h.step hop.1 hop.2
  have hsafe : SwapsSafe env (run env c₀ ops) := runSteps_inv (App.step env) hstep hstart ops hops
  obtain ⟨t, ht⟩ := hsafe.claims
  refine ⟨fun hs number hhash => ht.claim ctx ha hs hhash, fun hs => ?_⟩
  exact (ht.refund_iff ctx ha hs).mpr (Or.inr (hsafe.senders id a ha))

theorem swaps_resolve_sample :
    (∃ s', Bep3.claimAtomicSwap sampleEnv.bep3 (Bep3.sampleCtx 102)
      (run sampleEnv sampleChain sampleOps).bep3
      (Bep3.sampleID 2 Bep3.userAddr) (Bep3.sampleNumber 2) = .ok s') ∧
    ∃ s', Bep3.refundAtomicSwap sampleEnv.bep3 (Bep3.sampleCtx 352)
      (run sampleEnv sampleChain (sampleOps ++ [.beginBlock (Bep3.sampleCtx 351)])).bep3
      (Bep3.sampleID 2 Bep3.userAddr) = .ok s' := by
  have hops : ∀ op ∈ sampleOps, op.Ordinary chainAddrs sampleEnv ∧
      ∀ d, ¬ op.Lists sampleEnv (chainAddrs.addr .bep3) d :=
    fun op hop => ⟨(sampleOps_ordinary hop).1, (sampleOps_ordinary hop).2 _⟩
  have hblock : ∀ op ∈ sampleOps ++ [.beginBlock (Bep3.sampleCtx 351)],
      op.Ordinary chainAddrs sampleEnv ∧ ∀ d, ¬ op.Lists sampleEnv (chainAddrs.addr .bep3) d := by
    intro op hop
    rcases List.mem_append.mp hop with hop | hop
    · exact hops op hop
    · rw [List.mem_singleton.mp hop]
      exact ⟨.of_signers (fun _ hs => hs.elim) (by simp) (by simp), fun d hl => hl⟩
  have hclaim := swaps_resolve sampleEnv sampleChain ⟨rfl, rfl, rfl⟩ Bep3.sampleState_zeroCounters
    (sampleChain_unlisted _) sampleOps hops (Bep3.sampleCtx 102) (Bep3.sampleID 2 Bep3.userAddr)
    (Bep3.newSwap (Bep3.sampleCtx 101) (Bep3.sampleArgs 2 Bep3.userAddr Bep3.deputyAddr 60)
      .outgoing) (by decide)
  have hrefund := swaps_resolve sampleEnv sampleChain ⟨rfl, rfl, rfl⟩ Bep3.sampleState_zeroCounters
    (sampleChain_unlisted _) _ hblock (Bep3.sampleCtx 352) (Bep3.sampleID 2 Bep3.userAddr)
    (Bep3.expiredSwap
      (Bep3.newSwap (Bep3.sampleCtx 101)
        (Bep3.sampleArgs 2 Bep3.userAddr Bep3.deputyAddr 60) .outgoing))
    (by decide)
  exact ⟨hclaim.1 rfl (Bep3.sampleNumber 2) (by decide), hrefund.2 rfl⟩

/-! ## Wrapped coins -/

structure CoinsBacked {env : Env E} (laws : Evmutil.Wrappers env.evm) (p : Evmutil.ValidParams)
    (c : Chain A E) : Prop where
  wrapped : Evmutil.Wrapped laws c.evmutil
  params : c.evmutil.params = p
  unlisted : ∀ d, Unlisted env (A.addr .evmutil) d c

section
variable {laws : Evmutil.Wrappers env.evm} {p : Evmutil.ValidParams}

theorem CoinsBacked.setBank (h : CoinsBacked laws p c) (hop : op.Ordinary A env)
    (hm : ¬ op.Uses .evmutil)
    (hl : ∀ d, ¬ op.Lists env (A.addr .evmutil) d) {Q : Addr → Denom → Prop}
    (hflow : Flow (payers env c op) Q c.bank.balances (App.step env c op).bank.balances)
    (hQ : ∀ d, ¬ Q (A.addr .evmutil) d)
    (hw : (App.step env c op).evmutil = c.evmutil.setBank (App.step env c op).bank) :
    CoinsBacked laws p (App.step env c op) := by
  have hkeeps : ∀ d, (App.step env c op).evmutil.moduleBalance d = c.evmutil.moduleBalance d := by
    intro d
    have heq := hflow.eq (hop.not_payer hm (h.unlisted d)) (hQ d)
    rw [Evmutil.World.moduleBalance, Evmutil.World.moduleBalance, Chain.evmutil_bank,
      Chain.evmutil_bank]
    exact heq
  refine ⟨h.wrapped.congr (by rw [hw]; rfl) (by rw [hw]; rfl) ?_ fun d _ => hkeeps d, ?_,
    fun d => (h.unlisted d).step (hl d)⟩
  · intro c' hc'
    rw [hw]
    exact ⟨hc', rfl⟩
  · rw [hw]
    exact h.params

theorem CoinsBacked.bep3 {o : Bep3.Op} (h : CoinsBacked laws p c)
    (hop : Op.Ordinary A env (.bep3 o)) :
    CoinsBacked laws p (App.step env c (.bep3 o)) := by
  refine h.setBank hop (fun hm => by cases hm) (fun _ hl => hl) (bep3_flow env c o)
    (fun d hpaid => ?_) rfl
  rcases hpaid with e | hm
  · exact A.addr_ne (by decide) e
  · simp at hm

theorem CoinsBacked.issuance {o : Issuance.Op} (h : CoinsBacked laws p c)
    (hop : Op.Ordinary A env (.issuance o))
    (hl : ∀ d, ¬ Op.Lists env (A.addr .evmutil) d (.issuance o)) :
    CoinsBacked laws p (App.step env c (.issuance o)) := by
  refine h.setBank hop (fun hm => by cases hm) hl (issuance_flow env c o) (fun d hpaid => ?_) rfl
  rcases hpaid with e | hm | hpays
  · exact A.addr_ne (by decide) e
  · simp at hm
  · cases o with
    | send src dst amt =>
      exact hop.pays .evmutil src amt (by rw [show A.addr .evmutil = dst from hpays])
    | _ => exact hpays

theorem CoinsBacked.evmutil {o : Evmutil.Op} (hgas : Evmutil.gasDenom ∉ Evmutil.allowedDenoms p.val)
    (h : CoinsBacked laws p c)
    (hop : Op.Ordinary A env (.evmutil o)) : CoinsBacked laws p (App.step env c (.evmutil o)) := by
  have happart : o.KeepsApart c.evmutil := by
    refine ⟨fun hi => hop.signs .evmutil ?_, fun hg => absurd (h.params ▸ hg) hgas⟩
    cases o with
    | convertCosmosCoinToERC20 initiator receiver amount => exact (Option.some.inj hi).symm
    | convertCoinToERC20 initiator receiver coin => exact (Option.some.inj hi).symm
    | _ => cases hi
  have hkept : Evmutil.Wrapped laws (Evmutil.step env.evm c.evmutil o) ∧
      (Evmutil.step env.evm c.evmutil o).params = c.evmutil.params :=
    orElseKeep_rule (P := fun w : Evmutil.World A E => Evmutil.Wrapped laws w ∧
      w.params = c.evmutil.params)
      ⟨h.wrapped, rfl⟩ fun w hw => o.exec_wrapped h.wrapped happart hw
  exact ⟨hkept.1, hkept.2.trans h.params, h.unlisted⟩

theorem CoinsBacked.step (hgas : Evmutil.gasDenom ∉ Evmutil.allowedDenoms p.val)
    (h : CoinsBacked laws p c)
    (hop : op.Ordinary A env) (hl : ∀ d, ¬ op.Lists env (A.addr .evmutil) d) :
    CoinsBacked laws p (App.step env c op) := by
  cases op with
  | bep3 o => exact h.bep3 hop
  | issuance o => exact h.issuance hop hl
  | evmutil o => exact h.evmutil hgas hop
  | beginBlock ctx =>
    rcases step_beginBlock env c ctx with e | e
    · rwa [e]
    · rw [e]
      exact (h.bep3 (beginBlock_ordinary ctx).1).issuance (beginBlock_ordinary ctx).2
        fun _ hlists => hlists

theorem coinsBacked_run (laws : Evmutil.Wrappers env.evm) {c₀ : Chain A E}
    (hnone : c₀.evmutil.deployed = .empty)
    (hgas : Evmutil.gasDenom ∉ Evmutil.allowedDenoms c₀.evmutil.params.val)
    (hunlocked : ∀ d ∈ Evmutil.allowedDenoms c₀.evmutil.params.val, c₀.evmutil.moduleBalance d = 0)
    (hunlisted : ∀ d, ¬ Issuance.Listed env.issuance c₀.issuance (A.addr .evmutil) d)
    {ops : List Op}
    (hops : ∀ op ∈ ops, op.Ordinary A env ∧ ∀ d, ¬ op.Lists env (A.addr .evmutil) d) :
    CoinsBacked laws c₀.evmutil.params (run env c₀ ops) := by
  have hstart : CoinsBacked laws c₀.evmutil.params c₀ :=
    ⟨Evmutil.Wrapped.init hnone hunlocked, rfl, hunlisted⟩
  have hstep : ∀ (c : Chain A E) (op : Op),
      (op.Ordinary A env ∧ ∀ d, ¬ op.Lists env (A.addr .evmutil) d) →
      CoinsBacked laws c₀.evmutil.params c →
      CoinsBacked laws c₀.evmutil.params (App.step env c op) :=
    fun _ _ hop h => h.step hgas hop.1 hop.2
  exact runSteps_inv (App.step env) hstep hstart ops hops

end

/-- In every order of swaps, issues, conversions, transfers and blocks, the contract of each
wrapped coin has as many tokens as the module account has coins, if the gas coin is not one of
them and unless an owner lists the module account. -/
theorem wrapped_coins_backed_on_chain {env : Env E} (laws : Evmutil.Wrappers env.evm)
    (c₀ : Chain A E) (hnone : c₀.evmutil.deployed = .empty)
    (hgas : Evmutil.gasDenom ∉ Evmutil.allowedDenoms c₀.evmutil.params.val)
    (hunlocked : ∀ d ∈ Evmutil.allowedDenoms c₀.evmutil.params.val, c₀.evmutil.moduleBalance d = 0)
    (hunlisted : ∀ d, ¬ Issuance.Listed env.issuance c₀.issuance (A.addr .evmutil) d)
    (ops : List Op)
    (hops : ∀ op ∈ ops, op.Ordinary A env ∧ ∀ d, ¬ op.Lists env (A.addr .evmutil) d) :
    Evmutil.Backed env.evm (run env c₀ ops).evmutil := by
  have hsafe := coinsBacked_run laws hnone hgas hunlocked hunlisted hops
  exact hsafe.wrapped.backed

theorem wrapped_coins_backed_sample :
    (run sampleEnv sampleChain sampleOps).evmutil.deployed.get "uatom" =
      some (Evmutil.createAddress 0) ∧
      Evmutil.Backed sampleEnv.evm (run sampleEnv sampleChain sampleOps).evmutil := by
  refine ⟨by decide +kernel, ?_⟩
  refine wrapped_coins_backed_on_chain (Evmutil.erc20Wrappers id) sampleChain rfl
    (by decide) (by decide)
    (sampleChain_unlisted _) sampleOps ?_
  exact fun op hop => ⟨(sampleOps_ordinary hop).1, (sampleOps_ordinary hop).2 _⟩

def unsignedEnv : Env Evmutil.Contracts := { sampleEnv with evm := Evmutil.unsignedEvm }

end App

namespace Bep3

variable {s s' : State A} {a : AtomicSwap} {coin : Coin}

/-- A swap is paid from what the module account holds. -/
theorem payClaim_held (ha : a.amount = [coin]) (hd : a.direction = .outgoing)
    (h : payClaim s a = .ok s') :
    coin.amount ≤ s.bank.balances (A.addr .bep3) coin.denom := by
  cases payClaim_ok h with
  | incoming hd' =>
    rw [hd] at hd'
    cases hd'
  | outgoing _ _ h₁ h₂ h₃ =>
    obtain ⟨b, hb, _⟩ := (withBank_eq_ok _ _ _).mp h₃
    rw [(decrementAssetSupply_sets h₂).bank, (decrementAssetSupply_sets h₁).bank, ha] at hb
    exact ((Bank.burnCoins_singleton _ _ _).mp ⟨b, hb⟩).2.2

theorem payRefund_held (ha : a.amount = [coin]) (hd : a.direction = .outgoing)
    (h : payRefund s a = .ok s') :
    coin.amount ≤ s.bank.balances (A.addr .bep3) coin.denom := by
  cases payRefund_ok h with
  | incoming hd' =>
    rw [hd] at hd'
    cases hd'
  | outgoing _ _ h₁ h₂ =>
    obtain ⟨b, hb, _⟩ := (withBank_eq_ok _ _ _).mp h₂
    rw [(decrementAssetSupply_sets h₁).bank, ha] at hb
    obtain ⟨_, hb⟩ := Bank.sendCoinsFromModuleToAccount_ok.mp hb
    have hle := ((Bank.sendCoins_singleton _ _ _ _).mp ⟨b, hb⟩).2
    rwa [Bank.locked_module, sub_zero] at hle

end Bep3

namespace App

variable {env : Env E} {c c' : Chain A E}

/-- What the begin blocker of a block does to the stores of swaps and to the bank. -/
theorem beginBlocker_ok {ctx : Ctx} (h : c.beginBlocker env ctx = .ok c') :
    ∃ s, Issuance.beginBlocker env.issuance ctx c.issuance = .ok s ∧ c'.bank = s.bank ∧
      c'.bep3 = { Bep3.beginBlocker env.bep3 ctx c.bep3 with bank := s.bank } := by
  simp only [Chain.beginBlocker, bind_eq_ok, pure_eq_ok] at h
  obtain ⟨s, hs, rfl⟩ := h
  refine ⟨s, ?_, rfl, rfl⟩
  rw [← hs]
  congr 1
  have hbank : (Bep3.beginBlocker env.bep3 ctx c.bep3).bank = c.issuance.bank := by
    rw [Bep3.beginBlocker_bank, c.issuance_bank]
  rw [Chain.withBep3]
  dsimp only
  rw [hbank]

/-- The counters of the swaps hold whatever the other modules do. -/
theorem counters_step (op : Op) (h : Bep3.CounterInv env.bep3 c.bep3) :
    Bep3.CounterInv env.bep3 (step env c op).bep3 := by
  have hbank {s : Bep3.State A} (h : Bep3.CounterInv env.bep3 s) (b : Bank A) :
      Bep3.CounterInv env.bep3 { s with bank := b } :=
        ⟨h.index.setBank b, h.denoms, h.coins, h.incoming, h.outgoing⟩
  cases op with
  | bep3 o => exact h.step o
  | issuance o => exact hbank h _
  | evmutil o => exact hbank h _
  | beginBlock ctx =>
    rcases step_beginBlock env c ctx with e | e
    · rwa [e]
    · rw [e]
      exact hbank (h.step (.beginBlock ctx)) _

theorem counters_run (env : Env E) {c₀ : Chain A E} (hn : Bep3.NoSwaps c₀.bep3)
    (hz : Bep3.ZeroCounters c₀.bep3)
    (ops : List Op) : Bep3.CounterInv env.bep3 (run env c₀ ops).bep3 := by
  have hstep : ∀ (c : Chain A E) (op : Op), True → Bep3.CounterInv env.bep3 c.bep3 →
      Bep3.CounterInv env.bep3 (step env c op).bep3 := fun _ op _ h => counters_step op h
  exact runSteps_inv (step env) hstep (Bep3.SupplyInv.init hn hz).counters ops fun _ _ => trivial

/-- Once the owner of an asset has listed the account of the swaps, the next block takes all its
coins of the asset for the owner: no swap that holds such coins can be claimed or refunded then. -/
theorem listed_escrow_is_seized (env : Env E) (c₀ : Chain A E) (hn : Bep3.NoSwaps c₀.bep3)
    (hz : Bep3.ZeroCounters c₀.bep3) (ops : List Op) (ctx : Ctx) (c' : Chain A E)
    (hblock : (run env c₀ ops).beginBlocker env ctx = .ok c')
    (howners : ∀ asset ∈ (run env c₀ ops).issuance.params.val.assets,
      Issuance.OrdinaryOwner A env.issuance asset)
    (asset : Issuance.Asset) (hasset : asset ∈ (run env c₀ ops).issuance.params.val.assets)
    (hblockable : asset.blockable = true)
    (hlisted : A.addr .bep3 ∈ Issuance.blocked env.issuance asset) :
    c'.bank.balances (A.addr .bep3) asset.denom = 0 ∧
    (∃ owner, env.issuance.accAddressFromBech32 asset.owner = some owner ∧
      (run env c₀ ops).bank.balances owner asset.denom + (run env c₀ ops).bank.balances
        (A.addr .bep3) asset.denom ≤
        c'.bank.balances owner asset.denom) ∧
    ∀ id a, c'.bep3.swaps.get id = some a → a.direction = .outgoing →
      (∃ coin ∈ a.amount, coin.denom = asset.denom) →
      ∀ ctx', (∀ number, ¬ ∃ s', Bep3.claimAtomicSwap env.bep3 ctx' c'.bep3 id number = .ok s') ∧
        ¬ ∃ s', Bep3.refundAtomicSwap env.bep3 ctx' c'.bep3 id = .ok s' := by
  obtain ⟨s, hs, hbank, hbep3⟩ := beginBlocker_ok hblock
  obtain ⟨owner, howner, _, _⟩ := howners asset hasset
  have hswept := (Issuance.beginBlocker_swept howners hs).swept asset hasset hblockable owner howner
  rw [Chain.issuance_bank] at hswept
  have hempty : c'.bank.balances (A.addr .bep3) asset.denom = 0 := by
    rw [hbank]
    exact hswept.empty _ hlisted
  refine ⟨hempty, ⟨owner, howner, ?_⟩, fun id a ha hd hcoin ctx' => ?_⟩
  · rw [hbank, hswept.gains]
    have hone := Finset.single_le_sum
      (f := fun x => (run env c₀ ops).bep3.bank.balances x asset.denom)
      (fun x _ => Bank.balances_nonneg _ x asset.denom) (List.mem_toFinset.mpr hlisted)
    exact add_le_add_right hone _
  · have hcoins : Bep3.SwapCoins c'.bep3 := by
      rw [hbep3]
      exact (counters_run env hn hz ops).coins.step (counters_run env hn hz ops).index
        (.beginBlock ctx)
    obtain ⟨coin, hamount, hpos⟩ := hcoins id a ha
    rw [hamount] at hcoin
    obtain ⟨_, hmem, hdenom⟩ := hcoin
    rw [List.mem_singleton.mp hmem] at hdenom
    have hshort : ¬ coin.amount ≤ c'.bep3.bank.balances (A.addr .bep3) coin.denom := by
      rw [hdenom]
      exact not_le.mpr (lt_of_eq_of_lt hempty hpos)
    refine ⟨fun number h => ?_, fun h => ?_⟩
    · obtain ⟨s', h⟩ := h
      obtain ⟨a', s₁, ha', _, _, hpay, _⟩ := Bep3.claimAtomicSwap_ok h
      rw [ha] at ha'
      cases ha'
      exact hshort (Bep3.payClaim_held hamount hd hpay)
    · obtain ⟨s', h⟩ := h
      obtain ⟨a', s₁, ha', _, hpay, _⟩ := Bep3.refundAtomicSwap_ok h
      rw [ha] at ha'
      cases ha'
      exact hshort (Bep3.payRefund_held hamount hd hpay)

/-- The owner lists the account of the swaps. -/
def seizeOps : List Op :=
  sampleOps ++ [.issuance (.deliver (.blockAddress ⟨Issuance.ownerText, "bnb", bep3Text⟩))]

theorem listed_escrow_is_seized_sample :
    (run sampleEnv sampleChain seizeOps).bank.balances (chainAddrs.addr .bep3) "bnb" = 60 ∧
    ∃ c', (run sampleEnv sampleChain seizeOps).beginBlocker sampleEnv
      (Bep3.sampleCtx 102) = .ok c' ∧
      (∃ a, c'.bep3.swaps.get (Bep3.sampleID 2 Bep3.userAddr) = some a ∧ a.status = .open) ∧
      ∀ ctx', ¬ ∃ s', Bep3.claimAtomicSwap sampleEnv.bep3 ctx' c'.bep3
        (Bep3.sampleID 2 Bep3.userAddr)
        (Bep3.sampleNumber 2) = .ok s' := by
  have hrun : ∃ c', (run sampleEnv sampleChain seizeOps).beginBlocker sampleEnv
      (Bep3.sampleCtx 102) = .ok c' ∧
      c'.bep3.swaps.get (Bep3.sampleID 2 Bep3.userAddr) = some (Bep3.newSwap (Bep3.sampleCtx 101)
        (Bep3.sampleArgs 2 Bep3.userAddr Bep3.deputyAddr 60) .outgoing) := by decide +kernel
  obtain ⟨c', hblock, hswap⟩ := hrun
  have hassets : (run sampleEnv sampleChain seizeOps).issuance.params.val.assets =
      [⟨Issuance.ownerText, "bnb", [bep3Text], false, true, ⟨false, 0, 0⟩⟩] := by decide +kernel
  have howners : ∀ asset ∈ (run sampleEnv sampleChain seizeOps).issuance.params.val.assets,
      Issuance.OrdinaryOwner chainAddrs sampleEnv.issuance asset := by
    rw [hassets]
    intro asset hasset
    rw [List.mem_singleton.mp hasset]
    exact ⟨Issuance.ownerAddr, by decide, by decide, by decide⟩
  have hseized := listed_escrow_is_seized sampleEnv sampleChain ⟨rfl, rfl, rfl⟩
    Bep3.sampleState_zeroCounters seizeOps
    (Bep3.sampleCtx 102) c' hblock howners _ (by rw [hassets]; exact List.mem_singleton_self _)
      rfl (by decide)
  refine ⟨by decide +kernel, c', hblock, ⟨_, hswap, rfl⟩, fun ctx' => ?_⟩
  exact (hseized.2.2 _ _ hswap rfl ⟨⟨"bnb", 60⟩, by decide, rfl⟩ ctx').1 (Bep3.sampleNumber 2)

end App

end ZgChain
