import ZgChain.App.Ante

/-!
# What an accepted transaction has passed

A chain accepts a transaction only if each of its decorators does. So no Cosmos transaction
carries a message for the EVM at any depth, a closed mempool admits only signers that are
configured, deputies or oracles, and the fee is not checked against the EVM's denom.
-/

namespace ZgChain

theorem mem_uniqueAddresses {addresses : List Addr} {a : Addr} :
    a ∈ uniqueAddresses addresses ↔ a ∈ addresses := by
  have hfold : ∀ unique : List Addr,
      a ∈ addresses.foldl (fun unique b => if b ∈ unique then unique else unique ++ [b]) unique ↔
        a ∈ unique ∨ a ∈ addresses := by
    induction addresses with
    | nil => simp
    | cons b addresses ih =>
      intro unique
      rw [List.foldl_cons, ih, List.mem_cons]
      by_cases hb : b ∈ unique
      · rw [if_pos hb]
        constructor
        · exact fun h => h.imp id Or.inr
        · rintro (h | rfl | h)
          · exact Or.inl h
          · exact Or.inl hb
          · exact Or.inr h
      · rw [if_neg hb, List.mem_append, List.mem_singleton, or_assoc]
  rw [uniqueAddresses, hfold]
  simp

namespace Authz

variable {ald : AuthzLimiterDecorator}

/-- Messages that do not unpack are refused. -/
theorem unpacks_of_check {only : Bool} {msgs : List Msg}
    (h : ald.checkForDisabledMsg only msgs = .ok ()) :
    Unpacks msgs := by
  induction hn : sizeOf msgs using Nat.strong_induction_on generalizing only msgs with
  | _ n ih =>
    have hall := (checkForDisabledMsg_ok msgs).mp h
    refine unpacks_iff.mpr ⟨fun m hm => ⟨fun e => ?_, fun e => ?_⟩, fun inner hi => ?_⟩
    · have hm := hall m hm
      rw [e, AuthzLimiterDecorator.checkMsg] at hm
      split at hm
      · cases hm
      · cases hm
    · have hm := hall m hm
      rw [e, AuthzLimiterDecorator.checkMsg] at hm
      split at hm
      · cases hm
      · cases hm
    · have hi' := hall _ hi
      rw [AuthzLimiterDecorator.checkMsg] at hi'
      split at hi'
      · cases hi'
      · exact ih (sizeOf inner) (hn ▸ sizeOf_inner_lt hi) hi' rfl

theorem clean_of_check {msgs : List Msg} (h : ald.checkForDisabledMsg true msgs = .ok ()) :
    Clean ald.disabledMsgTypes msgs := ((check_iff_clean (unpacks_of_check h)).mp h).2

end Authz

namespace Ante

open Authz

variable {C ε : Type} {ctx ctx' : Context C} {tx : Tx} {simulate : Bool}

/-- A decorator that accepts a transaction has passed it on, in a context that is related to
its own. -/
def Passes (K : Context C → Context C → Prop) (d : AnteDecorator C ε) : Prop :=
  ∀ ctx tx simulate next ctx', d ctx tx simulate next = .ok ctx' → ∃ ctx₁, K ctx ctx₁ ∧
  next ctx₁ tx simulate = .ok ctx'

/-- Every decorator of a chain that accepts a transaction has accepted it. -/
theorem chain_reaches {K : Context C → Context C → Prop} (hrefl : ∀ ctx, K ctx ctx)
    (htrans : ∀ {c₁ c₂ c₃}, K c₁ c₂ → K c₂ c₃ → K c₁ c₃) {pre post : List (AnteDecorator C ε)}
    {d : AnteDecorator C ε} (hpass : ∀ d ∈ pre, Passes K d)
    (h : chainAnteDecorators (pre ++ d :: post) ctx tx simulate = .ok ctx') :
    ∃ ctx₁, K ctx ctx₁ ∧ d ctx₁ tx simulate (chainAnteDecorators post) = .ok ctx' := by
  induction pre generalizing ctx with
  | nil => exact ⟨ctx, hrefl ctx, h⟩
  | cons e pre ih =>
    obtain ⟨ctx₁, hk₁, h₁⟩ := hpass e (by simp) _ _ _ _ _ h
    obtain ⟨ctx₂, hk₂, h₂⟩ := ih (fun d hd => hpass d (by simp [hd])) h₁
    exact ⟨ctx₂, htrans hk₁ hk₂, h₂⟩

theorem chain_accepts {K : Context C → Context C → Prop} (hrefl : ∀ ctx, K ctx ctx)
    (htrans : ∀ {c₁ c₂ c₃}, K c₁ c₂ → K c₂ c₃ → K c₁ c₃) {decorators : List (AnteDecorator C ε)}
    (hpass : ∀ d ∈ decorators, Passes K d)
    (h : chainAnteDecorators decorators ctx tx simulate = .ok ctx')
    {d : AnteDecorator C ε} (hd : d ∈ decorators) :
    ∃ ctx₁ next, K ctx ctx₁ ∧ d ctx₁ tx simulate next = .ok ctx' := by
  obtain ⟨pre, post, rfl⟩ := List.append_of_mem hd
  obtain ⟨ctx₁, hk, hok⟩ :=
    chain_reaches hrefl htrans (fun e he => hpass e (List.mem_append_left _ he)) h
  exact ⟨ctx₁, _, hk, hok⟩

/-- What is assumed of the libraries: their decorators keep what those of the application
read, and the first one refuses transactions with a message for the EVM. -/
structure LibraryLaws (library : Library → AnteDecorator C ε) : Prop where
  passes : ∀ l ctx tx simulate next ctx', library l ctx tx simulate next = .ok ctx' →
    ∃ r, next { ctx with rest := r } tx simulate = .ok ctx'
  rejects : ∀ ctx tx simulate next ctx', library .rejectMessages ctx tx simulate next = .ok ctx' →
    ∀ m ∈ tx.getMsgs, m.typeURL ≠ ethereumTxURL

/-- Only what the libraries keep in the context differs. -/
def SameView (c c₁ : Context C) : Prop := ∃ r, c₁ = { c with rest := r }

theorem SameView.refl (c : Context C) : SameView c c := ⟨c.rest, rfl⟩

theorem SameView.trans {c₁ c₂ c₃ : Context C} (h : SameView c₁ c₂) (h' : SameView c₂ c₃) :
    SameView c₁ c₃ := by
  obtain ⟨r, rfl⟩ := h
  obtain ⟨r', rfl⟩ := h'
  exact ⟨r', rfl⟩

section
variable {library : Library → AnteDecorator C ε}

theorem library_passes (laws : LibraryLaws library) (l : Library) :
    Passes SameView (library l) := by
  intro ctx tx simulate next ctx' h
  obtain ⟨r, hr⟩ := laws.passes l ctx tx simulate next ctx' h
  exact ⟨_, ⟨r, rfl⟩, hr⟩

theorem authenticatedMempool_ok {addressFetchers : List (AddressFetcher C)} {next : AnteHandler C ε}
    (h : authenticatedMempoolDecorator addressFetchers ctx tx simulate next = .ok ctx') :
    next ctx tx simulate = .ok ctx' ∧ (ctx.isCheckTx = true → simulate = false →
      ∃ signers, tx.getSigners = some signers ∧
        ∃ x ∈ signers, x ∈ fetchAuthorizedAddresses addressFetchers ctx) := by
  unfold authenticatedMempoolDecorator at h
  split at h
  · simp only [bind_eq_ok, orReject_eq_ok, rejectIf_eq_ok, Bool.not_eq_false] at h
    obtain ⟨signers, hsigners, _, hcommon, hnext⟩ := h
    refine ⟨hnext, fun _ _ => ⟨signers, hsigners, ?_⟩⟩
    simpa [commonAddressesExist] using hcommon
  · rename_i hnot
    exact ⟨h, fun hcheck hsim => absurd ⟨hcheck, hsim⟩ hnot⟩

theorem authenticatedMempool_passes (addressFetchers : List (AddressFetcher C)) :
    Passes SameView (authenticatedMempoolDecorator addressFetchers : AnteDecorator C ε) :=
  fun ctx _ _ _ _ h => ⟨ctx, .refl ctx, (authenticatedMempool_ok h).1⟩

theorem vestingAccount_passes : Passes SameView (vestingAccountDecorator : AnteDecorator C ε) := by
  intro ctx tx simulate next ctx' h
  unfold vestingAccountDecorator at h
  split at h
  · cases h
  · exact ⟨ctx, .refl ctx, h⟩

theorem authzLimiter_ok {disabled : List String} {next : AnteHandler C ε}
    (h : authzLimiterDecorator disabled ctx tx simulate next = .ok ctx') :
    next ctx tx simulate = .ok ctx' ∧ Clean disabled tx.getMsgs := by
  unfold authzLimiterDecorator at h
  split at h
  · cases h
  · rename_i hcheck
    exact ⟨h, clean_of_check hcheck⟩

/-! ## Prices -/

theorem amountOf_filterMinGasPrices (evmDenom : Denom) (prices : Coins) (d : Denom) :
    (filterMinGasPrices evmDenom prices).amountOf d = if d = evmDenom then 0
      else prices.amountOf d := by
  have hfold : ∀ filtered : Coins, (prices.foldl (fun filtered gasPrice =>
      if gasPrice.denom ≠ evmDenom then filtered.addCoin gasPrice else filtered)
        filtered).amountOf d =
        filtered.amountOf d + if d = evmDenom then 0 else prices.amountOf d := by
    induction prices with
    | nil => simp
    | cons price prices ih =>
      intro filtered
      rw [List.foldl_cons, ih, amountOf_cons]
      by_cases hp : price.denom = evmDenom
      · by_cases hd : d = evmDenom
        · simp [hp, hd]
        · have hne : price.denom ≠ d := fun e => hd (e.symm.trans hp)
          simp [hp, hd, Ne.symm hd]
      · rw [if_pos hp, amountOf_addCoin]
        by_cases hd : d = evmDenom
        · have hne : price.denom ≠ d := fun e => hp (e.trans hd)
          simp [hd, hp]
        · simp [hd, add_assoc]
  rw [filterMinGasPrices, hfold]
  simp

/-- The context of the fee check: no price in the EVM's denom, and the others as they are. -/
theorem evmMinGasFilter_ok {next : AnteHandler C ε}
    (h : evmMinGasFilter ctx tx simulate next = .ok ctx') :
    ∃ prices, next { ctx with minGasPrices := prices } tx simulate = .ok ctx' ∧
      prices.amountOf ctx.evmDenom ≤ 0 ∧
      ∀ d, d ≠ ctx.evmDenom → prices.amountOf d = ctx.minGasPrices.amountOf d := by
  unfold evmMinGasFilter at h
  split at h
  · cases h
  · split at h
    · refine ⟨_, h, ?_, fun d hd => ?_⟩
      · rw [amountOf_filterMinGasPrices, if_pos rfl]
      · rw [amountOf_filterMinGasPrices, if_neg hd]
    · rename_i hpos
      exact ⟨ctx.minGasPrices, h, not_lt.mp hpos, fun _ _ => rfl⟩

end

/-! ## The Cosmos route -/

/-- What a Cosmos transaction has passed. -/
structure Admitted (options : HandlerOptions C ε) (isEIP712 : Bool) (ctx : Context C) (tx : Tx)
    (simulate : Bool) (ctx' : Context C) : Prop where
  messages : ∀ m, Occurs m tx.getMsgs → m.typeURL ≠ ethereumTxURL
  authorizations : Clean authzDisabledMsgTypes tx.getMsgs
  fee : ∃ ctx₁ next, options.library .deductFee ctx₁ tx simulate next = .ok ctx' ∧
    ctx₁.minGasPrices.amountOf ctx.evmDenom ≤ 0 ∧
    ∀ d, d ≠ ctx.evmDenom → ctx₁.minGasPrices.amountOf d = ctx.minGasPrices.amountOf d
  signatures : ∃ ctx₁ next, options.library
    (if isEIP712 then .legacyEip712SigVerification else .sigVerification)
    ctx₁ tx simulate next = .ok ctx'

section
variable {options : HandlerOptions C ε}

/-- The decorators before the filter of the prices. -/
theorem first_pass (laws : LibraryLaws options.library) (isEIP712 : Bool) : ∀ d ∈
    [options.library .rejectMessages, options.library .setUpContext] ++
    (if isEIP712 then [] else [options.library .extensionOptions]) ++
    (if options.addressFetchers.isEmpty then []
      else [authenticatedMempoolDecorator options.addressFetchers]),
    Passes SameView d := by
  intro d hd
  simp only [List.mem_append, List.mem_cons, List.not_mem_nil, or_false] at hd
  rcases hd with ((rfl | rfl) | hd) | hd
  · exact library_passes laws _
  · exact library_passes laws _
  · split at hd
    · cases hd
    · exact List.mem_singleton.mp hd ▸ library_passes laws _
  · split at hd
    · cases hd
    · exact List.mem_singleton.mp hd ▸ authenticatedMempool_passes _

variable {isEIP712 : Bool}

theorem newCosmosAnteHandler_admits (laws : LibraryLaws options.library)
    (h : newCosmosAnteHandler options isEIP712 ctx tx simulate = .ok ctx') :
    Admitted options isEIP712 ctx tx simulate ctx' := by
  have hauthz : Passes SameView (authzLimiterDecorator authzDisabledMsgTypes : AnteDecorator C ε) :=
    fun ctx _ _ _ _ h => ⟨ctx, .refl ctx, (authzLimiter_ok h).1⟩
  unfold newCosmosAnteHandler at h
  have hreject := laws.rejects ctx tx simulate _ ctx' h
  obtain ⟨ctx₁, hview, hfilter⟩ :=
    chain_reaches SameView.refl SameView.trans (first_pass laws isEIP712) h
  obtain ⟨prices, hrest, hprice, hothers⟩ := evmMinGasFilter_ok hfilter
  -- the decorators after the filter, in the context that it leaves
  have hafter := fun d => chain_accepts (d := d) SameView.refl SameView.trans (by
    simp only [List.forall_mem_cons]
    exact ⟨vestingAccount_passes, hauthz, by simp [library_passes laws]⟩) hrest
  have hclean : Clean authzDisabledMsgTypes tx.getMsgs := by
    obtain ⟨_, _, _, hok⟩ := hafter (authzLimiterDecorator authzDisabledMsgTypes) (by simp)
    exact (authzLimiter_ok hok).2
  refine ⟨fun m hm => ?_, hclean, ?_, ?_⟩
  · rcases hm with hm | hm
    · exact hreject m hm
    · exact fun e => hclean.inside m hm (e ▸ List.mem_cons_self)
  · obtain ⟨ctx₂, next, hview₂, hfee⟩ := hafter (options.library .deductFee) (by simp)
    obtain ⟨r, rfl⟩ := hview
    obtain ⟨r₂, rfl⟩ := hview₂
    exact ⟨_, _, hfee, hprice, hothers⟩
  · obtain ⟨ctx₂, next, _, hsig⟩ :=
      hafter (options.library (if isEIP712 then .legacyEip712SigVerification else .sigVerification))
        (by simp)
    exact ⟨ctx₂, next, hsig⟩

/-- A closed mempool admits a transaction only if one of its signers is authorized. -/
theorem newCosmosAnteHandler_authenticates (laws : LibraryLaws options.library)
    (hfetchers : options.addressFetchers ≠ [])
    (hcheck : ctx.isCheckTx = true) (hsim : simulate = false)
    (h : newCosmosAnteHandler options isEIP712 ctx tx simulate = .ok ctx') :
    ∃ signers ctx₁, tx.getSigners = some signers ∧ SameView ctx ctx₁ ∧
      ∃ x ∈ signers, x ∈ fetchAuthorizedAddresses options.addressFetchers ctx₁ := by
  have hne : ¬ options.addressFetchers.isEmpty = true := by simpa using hfetchers
  have hfirst := first_pass laws isEIP712
  unfold newCosmosAnteHandler at h
  rw [if_neg hne] at h hfirst
  rw [List.append_assoc] at h
  obtain ⟨ctx₁, hview, hmempool⟩ := chain_reaches SameView.refl SameView.trans
    (fun d hd => hfirst d (List.mem_append_left _ hd)) h
  have hcheck₁ : ctx₁.isCheckTx = true := by
    obtain ⟨r, rfl⟩ := hview
    exact hcheck
  obtain ⟨signers, hsigners, hauth⟩ := (authenticatedMempool_ok hmempool).2 hcheck₁ hsim
  exact ⟨signers, ctx₁, hsigners, hview, hauth⟩

end

/-! ## The handler -/

def ethDecorators : List Library :=
  [.ethSetUpContext, .ethMempoolFee, .ethValidateBasic, .ethSigVerification,
    .ethAccountVerification, .canTransfer,
    .ethGasConsume, .ethIncrementSenderSequence, .ethEmitEvent]

theorem newEthAnteHandler_accepts {options : HandlerOptions C ε}
    (laws : LibraryLaws options.library)
    (h : newEthAnteHandler options ctx tx simulate = .ok ctx') {l : Library}
    (hl : l ∈ ethDecorators) :
    ∃ ctx₁ next, SameView ctx ctx₁ ∧ options.library l ctx₁ tx simulate next = .ok ctx' := by
  have hchain : newEthAnteHandler options = chainAnteDecorators
      (ethDecorators.map options.library) := rfl
  rw [hchain] at h
  refine chain_accepts SameView.refl SameView.trans (fun d hd => ?_) h (List.mem_map_of_mem hl)
  obtain ⟨l', _, rfl⟩ := List.mem_map.mp hd
  exact library_passes laws l'

theorem recover_ok {α : Type} {x : Except (AnteError ε) α} {a : α} (h : recover x = .ok a) :
    x = .ok a := by
  cases x with
  | ok b => exact h
  | error e =>
    cases e with
    | panic text => cases h
    | _ => exact h

/-- A transaction without panic, by the route that its extension option calls for. -/
theorem newAnteHandler_ok {options : HandlerOptions C ε} {handler : AnteHandler C ε}
    (hhandler : newAnteHandler options = .ok handler) (h : handler ctx tx simulate = .ok ctx') :
    (tx.getExtensionOptions = some [extensionOptionsEthereumTx] ∧
      newEthAnteHandler options ctx tx simulate = .ok ctx') ∨
    ∃ isEIP712 : Bool, tx.getExtensionOptions.getD [] =
      (if isEIP712 then [extensionOptionsWeb3Tx] else []) ∧
      newCosmosAnteHandler options isEIP712 ctx tx simulate = .ok ctx' := by
  simp only [newAnteHandler, bind_eq_ok, pure_eq_ok] at hhandler
  obtain ⟨_, _, rfl⟩ := hhandler
  obtain ⟨anteHandler, hroute, hante⟩ := (bind_eq_ok _ _ _).mp (recover_ok h)
  unfold route at hroute
  split at hroute
  · rename_i hopts
    cases hroute
    exact Or.inr ⟨false, hopts, hante⟩
  · rename_i typeURL hopts
    by_cases heth : typeURL = extensionOptionsEthereumTx
    · rw [if_pos heth] at hroute
      cases hroute
      refine Or.inl ⟨?_, hante⟩
      cases hext : tx.getExtensionOptions with
      | none => simp [hext] at hopts
      | some opts => rw [hext, Option.getD_some] at hopts; rw [hopts, heth]
    · rw [if_neg heth] at hroute
      by_cases hweb3 : typeURL = extensionOptionsWeb3Tx
      · rw [if_pos hweb3] at hroute
        cases hroute
        exact Or.inr ⟨true, hweb3 ▸ hopts, hante⟩
      · rw [if_neg hweb3] at hroute
        cases hroute
  · cases hroute

/-- The signers that a closed mempool admits. -/
def Authorized (mempoolAuthAddresses : List Addr) (ctx : Context C) (x : Addr) : Prop :=
  x ∈ mempoolAuthAddresses ∨ (∃ p ∈ ctx.bep3Params.val.assetParams, p.deputyAddress = x) ∨
    ∃ m ∈ ctx.pricefeedParams.markets, x ∈ m.oracles

theorem authorized_of_fetched {addrs : List Addr} {ctx₁ : Context C} {x : Addr}
    (hview : SameView ctx ctx₁)
    (h : x ∈ fetchAuthorizedAddresses (mempoolFetchers true addrs) ctx₁) :
    Authorized addrs ctx x := by
  obtain ⟨r, rfl⟩ := hview
  simpa [fetchAuthorizedAddresses, mempoolFetchers, Bep3.getAuthorizedAddresses,
    Pricefeed.getAuthorizedAddresses, mem_uniqueAddresses, Authorized] using h

theorem accepted_transactions {options : HandlerOptions C ε} {handler : AnteHandler C ε}
    {mempoolEnableAuth : Bool}
    {mempoolAuthAddresses : List Addr} (laws : LibraryLaws options.library)
    (hfetchers : options.addressFetchers = mempoolFetchers mempoolEnableAuth mempoolAuthAddresses)
    (hhandler : newAnteHandler options = .ok handler) (h : handler ctx tx simulate = .ok ctx') :
    (tx.getExtensionOptions = some [extensionOptionsEthereumTx] ∧ ∀ l ∈ ethDecorators,
      ∃ ctx₁ next, SameView ctx ctx₁ ∧ options.library l ctx₁ tx simulate next = .ok ctx') ∨
    ∃ isEIP712 : Bool, tx.getExtensionOptions.getD [] =
      (if isEIP712 then [extensionOptionsWeb3Tx] else []) ∧
      Admitted options isEIP712 ctx tx simulate ctx' ∧
      (mempoolEnableAuth = true → ctx.isCheckTx = true → simulate = false →
        ∃ signers, tx.getSigners = some signers ∧
          ∃ x ∈ signers, Authorized mempoolAuthAddresses ctx x) := by
  rcases newAnteHandler_ok hhandler h with ⟨hopts, heth⟩ | ⟨isEIP712, hopts, hcosmos⟩
  · exact Or.inl ⟨hopts, fun l hl => newEthAnteHandler_accepts laws heth hl⟩
  · refine Or.inr ⟨isEIP712, hopts, newCosmosAnteHandler_admits laws hcosmos,
      fun henable hcheck hsim => ?_⟩
    rw [henable] at hfetchers
    have hsome : options.addressFetchers ≠ [] := by simp [hfetchers, mempoolFetchers]
    obtain ⟨signers, ctx₁, hsigners, hview, x, hx, hauth⟩ :=
      newCosmosAnteHandler_authenticates laws hsome hcheck hsim hcosmos
    rw [hfetchers] at hauth
    exact ⟨signers, hsigners, x, hx, authorized_of_fetched hview hauth⟩

/-- Libraries that refuse only what they have to. -/
def sampleLibrary : Library → AnteDecorator Unit Unit
  | .rejectMessages => fun ctx tx simulate next =>
    if tx.getMsgs.any fun m => m.typeURL == ethereumTxURL then .error (.library ())
      else next ctx tx simulate
  | _ => fun ctx tx simulate next => next ctx tx simulate

theorem sampleLibrary_laws : LibraryLaws sampleLibrary := by
  refine ⟨fun l ctx tx simulate next ctx' h => ⟨ctx.rest, ?_⟩,
    fun ctx tx simulate next ctx' h => ?_⟩
  · cases l with
    | rejectMessages =>
      simp only [sampleLibrary] at h
      split at h
      · cases h
      · exact h
    | _ => exact h
  · simp only [sampleLibrary] at h
    split at h
    · cases h
    · simp_all

def sampleOptions : HandlerOptions Unit Unit :=
  ⟨true, true, true, true, mempoolFetchers true [], sampleLibrary⟩

def sampleMarkets : Pricefeed.Params := ⟨[⟨"bnb:usd", "bnb", "usd", [[1]], true⟩]⟩

theorem sampleMarkets_valid : sampleMarkets.validate = .ok () := by decide +kernel

theorem emptyParams_valid : (⟨[]⟩ : Bep3.Params).validate = .ok () := by decide

def sampleContext : Context Unit where
  isCheckTx := true
  minGasPrices := [⟨"neuron", 1⟩, ⟨"ua0gi", 2⟩]
  bep3Params := ⟨⟨[]⟩, emptyParams_valid⟩
  pricefeedParams := ⟨sampleMarkets, sampleMarkets_valid⟩
  evmDenom := "neuron"
  rest := ()

/-- An authorization inside an execution, signed by an oracle. -/
def sampleTx : Tx :=
  ⟨[.exec (some [.grant (some ⟨"/cosmos.bank.v1beta1.MsgSend"⟩)])], none, some [[1]]⟩

theorem accepted_transactions_sample : ∃ handler ctx', newAnteHandler sampleOptions = .ok handler ∧
    handler sampleContext sampleTx false = .ok ctx' ∧
    ((sampleTx.getExtensionOptions = some [extensionOptionsEthereumTx] ∧ ∀ l ∈ ethDecorators,
      ∃ ctx₁ next, SameView sampleContext ctx₁ ∧
        sampleOptions.library l ctx₁ sampleTx false next = .ok ctx') ∨
    ∃ isEIP712 : Bool, sampleTx.getExtensionOptions.getD [] =
      (if isEIP712 then [extensionOptionsWeb3Tx] else []) ∧
      Admitted sampleOptions isEIP712 sampleContext sampleTx false ctx' ∧
      (true = true → sampleContext.isCheckTx = true → false = false →
        ∃ signers, sampleTx.getSigners = some signers ∧
          ∃ x ∈ signers, Authorized [] sampleContext x)) := by
  refine ⟨_, { sampleContext with
    minGasPrices := filterMinGasPrices "neuron" sampleContext.minGasPrices }, rfl, rfl, ?_⟩
  exact accepted_transactions sampleLibrary_laws rfl rfl rfl

end Ante

end ZgChain
