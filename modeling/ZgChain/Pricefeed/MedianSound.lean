import ZgChain.Pricefeed.HaltSound

/-!
# Published prices are medians of the listed oracles' prices

The history of a run gives the latest price of each oracle, and the store holds just
that price. What is published is the median over all stored prices that have not
expired, so it is the median over the listed oracles if every change of the parameters
keeps the oracles whose prices have not expired. The store does not forget an oracle
that is taken off the list.
-/

namespace ZgChain.Pricefeed

/-! ## The history of a run -/

def accepted (env : Env) (s : State) (ev : Event) : Option PostedPrice :=
  match ev.op with
  | .postPrice msg =>
    match postPrice env ev.time s msg, env.accAddressFromBech32 msg.sender with
    | .ok _, some sender => some ⟨msg.marketID, sender, msg.price, msg.expiry⟩
    | _, _ => none
  | _ => none

def history (env : Env) : State → List Event → List PostedPrice
  | _, [] => []
  | s, ev :: evs => (accepted env s ev).toList ++
    match step env s ev with
    | .ok s' => history env s' evs
    | .error _ => []

/-- The latest price of an oracle: the last one it posted, or else the one it had. -/
def latest (first : State) (posts : List PostedPrice) (marketID : String) (oracle : Addr) :
    Option PostedPrice :=
  (posts.reverse.find? fun pp => pp.marketID = marketID ∧ pp.oracleAddress = oracle).or
    (rawPrice first marketID oracle)

/-- The latest prices of the oracles listed for a market that have not expired. -/
def listedPrices (now : Time) (latestOf : String → Addr → Option PostedPrice) (market : Market) :
    List StoredDec :=
  market.oracles.filterMap fun oracle =>
    ((latestOf market.marketID oracle).filter fun pp => now < pp.expiry).map PostedPrice.price

/-- The answer for a market with the given prices: their median, or an error if there
is none or it is zero. -/
def Answers (prices : List StoredDec) (m : String) (answer : Except Error CurrentPrice) : Prop :=
  (∀ cp, answer = .ok cp ↔ cp.marketID = m ∧ medianPrice prices = some cp.price.val ∧
    cp.price.val ≠ 0) ∧
    ((∃ e, answer = .error e) ↔ medianPrice prices = none ∨ medianPrice prices = some 0)

def published (prices : List StoredDec) : Option Dec := (medianPrice prices).filter fun d => d ≠ 0

theorem answers_iff {prices : List StoredDec} {m : String} {answer : Except Error CurrentPrice} :
    Answers prices m answer ↔
    (∀ cp, answer = .ok cp ↔ cp.marketID = m ∧ published prices = some cp.price.val) ∧
      ((∃ e, answer = .error e) ↔ published prices = none) := by
  have hsome : ∀ d, published prices = some d ↔ medianPrice prices = some d ∧ d ≠ 0 := by
    intro d
    rw [published, Option.filter_eq_some_iff, decide_eq_true_eq]
  have hnone : published prices = none ↔ medianPrice prices = none ∨
      medianPrice prices = some 0 := by
    rw [published, Option.filter_eq_none_iff]
    cases medianPrice prices with
    | none => simp
    | some d => simp
  simp only [Answers, hsome, hnone]

theorem Answers.iff_published {prices prices' : List StoredDec} {m : String}
    {answer : Except Error CurrentPrice} (h : Answers prices m answer) :
    Answers prices' m answer ↔ published prices' = published prices := by
  rw [answers_iff] at h ⊢
  constructor
  · intro h'
    cases answer with
    | ok cp => rw [((h.1 cp).mp rfl).2, ((h'.1 cp).mp rfl).2]
    | error e => rw [h.2.mp ⟨e, rfl⟩, h'.2.mp ⟨e, rfl⟩]
  · intro he
    rw [he]
    exact h

/-! ## The store holds the latest prices -/

section
variable {env : Env} {now : Time} {s s' : State}

theorem setPrice_ok {o : Addr} {m : String} {price : StoredDec} {expiry : Time} :
    setPrice now s o m price expiry = .ok s' ↔
      now < expiry ∧ ∃ k, ∃ hk : rawPriceKey m o = .ok k, s' =
        putPrice s ⟨m, o, price, expiry⟩ k hk := by
  simp only [setPrice, bind_eq_ok, rejectIf_eq_ok, not_not]
  constructor
  · rintro ⟨_, hlt, h⟩
    split at h
    · rename_i k hk
      rw [pure_eq_ok] at h
      exact ⟨hlt, k, hk, h.symm⟩
    · cases h
  · rintro ⟨hlt, k, hk, hs⟩
    refine ⟨(), hlt, ?_⟩
    split
    · rename_i k' hk'
      rw [pure_eq_ok, hs]
      rw [hk] at hk'
      cases hk'
      rfl
    · rename_i e he
      rw [hk] at he
      cases he

theorem rawPrice_putPrice {pp : PostedPrice} {k : Bytes}
    (hk : rawPriceKey pp.marketID pp.oracleAddress = .ok k)
    (m : String) (o : Addr) : rawPrice (putPrice s pp k hk) m o =
      if pp.marketID = m ∧ pp.oracleAddress = o then some pp else rawPrice s m o := by
  unfold rawPrice putPrice
  by_cases hmo : pp.marketID = m ∧ pp.oracleAddress = o
  · rw [if_pos hmo, ← hmo.1, ← hmo.2, hk]
    exact KVStore.get_set_self _ _ _
  · rw [if_neg hmo]
    split
    · rename_i k' hk'
      rw [KVStore.get_set, if_neg]
      intro he
      exact hmo (rawPriceKey_inj hk (he ▸ hk'))
    · rfl

theorem getOracle_ok {m : String} {o o' : Addr} : getOracle s m o = .ok o' ↔
    o' = o ∧ ∃ market, getMarket s m = some market ∧ o ∈ market.oracles := by
  simp only [getOracle, getOracles, bind_eq_ok, orReject_eq_ok, rejectIf_eq_ok, pure_eq_ok, not_not]
  constructor
  · rintro ⟨_, ⟨market, hm, rfl⟩, _, ho, he⟩
    exact ⟨he.symm, market, hm, ho⟩
  · rintro ⟨he, market, hm, ho⟩
    exact ⟨_, ⟨market, hm, rfl⟩, (), ho, he.symm⟩

theorem postPrice_ok {msg : MsgPostPrice} (h : postPrice env now s msg = .ok s') :
    ∃ sender market k,
    env.accAddressFromBech32 msg.sender = some sender ∧ getMarket s msg.marketID = some market ∧
    sender ∈ market.oracles ∧ ∃ hk : rawPriceKey msg.marketID sender = .ok k,
      s' = putPrice s ⟨msg.marketID, sender, msg.price, msg.expiry⟩ k hk := by
  simp only [postPrice, bind_eq_ok, orReject_eq_ok] at h
  obtain ⟨_, _, sender, hsender, _, horacle, h⟩ := h
  obtain ⟨_, market, hm, ho⟩ := getOracle_ok.mp horacle
  obtain ⟨_, k, hk, hs⟩ := setPrice_ok.mp h
  exact ⟨sender, market, k, hsender, hm, ho, hk, hs⟩

theorem setParams_ok {p : Params} (h : setParams s p = .ok s') : s'.params.toParams = p ∧
    s'.rawPrices = s.rawPrices := by
  unfold setParams at h
  split at h
  · cases h
    exact ⟨rfl, rfl⟩
  · cases h

theorem rawPrice_congr (h : s'.rawPrices = s.rawPrices) (m : String) (o : Addr) :
    rawPrice s' m o = rawPrice s m o := by
  rw [rawPrice, rawPrice, h]

/-- What a step does: it stores an accepted price, or it leaves the posted prices. -/
theorem step_cases {ev : Event} (h : step env s ev = .ok s') :
    (∃ (pp : PostedPrice) (k : Bytes) (market : Market)
      (hk : rawPriceKey pp.marketID pp.oracleAddress = .ok k),
      accepted env s ev = some pp ∧
      getMarket s pp.marketID = some market ∧ pp.oracleAddress ∈ market.oracles ∧
      s' = putPrice s pp k hk) ∨
    (accepted env s ev = none ∧ s'.rawPrices = s.rawPrices ∧
      (s'.params = s.params ∨ ∃ p, ev.op = .setParams p ∧ s'.params.toParams = p)) := by
  unfold step at h
  unfold accepted
  cases hop : ev.op with
  | postPrice msg =>
    rw [hop] at h
    cases hpost : postPrice env ev.time s msg with
    | ok s₁ =>
      simp only [hpost, orElseKeep, Except.ok.injEq] at h
      obtain ⟨sender, market, k, hsender, hm, ho, hk, hs⟩ := postPrice_ok hpost
      refine .inl ⟨⟨msg.marketID, sender, msg.price, msg.expiry⟩, k, market, hk, ?_, hm, ho,
        h.symm.trans hs⟩
      simp only [hpost, hsender]
    | error e =>
      simp only [hpost, orElseKeep, Except.ok.injEq] at h
      subst h
      refine .inr ⟨?_, rfl, .inl rfl⟩
      simp only [hpost]
  | setParams p =>
    rw [hop] at h
    refine .inr ⟨rfl, ?_⟩
    cases hset : setParams s p with
    | ok s₁ =>
      simp only [hset, orElseKeep, Except.ok.injEq] at h
      subst h
      obtain ⟨hp, hraw⟩ := setParams_ok hset
      exact ⟨hraw, .inr ⟨p, rfl, hp⟩⟩
    | error e =>
      simp only [hset, orElseKeep, Except.ok.injEq] at h
      subst h
      exact ⟨rfl, .inl rfl⟩
  | endBlocker =>
    -- the end of a block writes current prices only
    rw [hop] at h
    have hpub := endBlocker_ok h
    exact .inr ⟨rfl, hpub.rawPrices, .inl hpub.params⟩

theorem latest_snoc (first : State) (posts : List PostedPrice) (pp : PostedPrice) (m : String)
    (o : Addr) :
    latest first (posts ++ [pp]) m o =
      if pp.marketID = m ∧ pp.oracleAddress = o then some pp else latest first posts m o := by
  unfold latest
  rw [List.reverse_append, List.reverse_singleton, List.singleton_append, List.find?_cons]
  by_cases h : pp.marketID = m ∧ pp.oracleAddress = o
  · simp [h]
  · simp [h]

/-- The store of a run holds the latest prices of its history. -/
theorem rawPrice_eq_latest {first : State} {evs : List Event} {posts : List PostedPrice}
    (hs : ∀ m o, rawPrice s m o = latest first posts m o) (h : run env s evs = .ok s') (m : String)
    (o : Addr) :
    rawPrice s' m o = latest first (posts ++ history env s evs) m o := by
  induction evs generalizing s posts with
  | nil =>
    cases h
    rw [history, List.append_nil]
    exact hs m o
  | cons ev evs ih =>
    rw [run, List.foldlM_cons, bind_eq_ok] at h
    obtain ⟨s₁, h₁, h⟩ := h
    rw [history, h₁, ← List.append_assoc]
    refine ih ?_ h
    intro m o
    rcases step_cases h₁ with ⟨pp, k, market, hk, hacc, _, _, rfl⟩ | ⟨hacc, hraw, _⟩
    · rw [hacc, rawPrice_putPrice, Option.toList_some, latest_snoc, hs]
    · rw [hacc, Option.toList_none, List.append_nil, rawPrice_congr hraw, hs]

end

/-! ## Only listed oracles have live prices -/

/-- Every price that has not expired, of a market that is active under the parameters,
is from an oracle that they list for it. -/
def OnlyListed (p : Params) (now : Time) (s : State) : Prop :=
  ∀ market ∈ p.markets, market.active = true →
  ∀ pp ∈ rawPricesOf s market.marketID, now < pp.expiry → pp.oracleAddress ∈ market.oracles

instance decidableOnlyListed (p : Params) (now : Time) (s : State) :
    Decidable (OnlyListed p now s) :=
  inferInstanceAs (Decidable (∀ market ∈ p.markets, market.active = true →
    ∀ pp ∈ rawPricesOf s market.marketID, now < pp.expiry → pp.oracleAddress ∈ market.oracles))

/-- An accepted change of the parameters lists the oracles of live prices. -/
def ChangeKeepsOracles (s : State) (ev : Event) : Prop :=
  match ev.op with
  | .setParams p => p.validate = .ok () → OnlyListed p ev.time s
  | _ => True

instance decidableChangeKeepsOracles (s : State) (ev : Event) :
    Decidable (ChangeKeepsOracles s ev) :=
  match ev with
  | ⟨_, .postPrice _⟩ => isTrue trivial
  | ⟨now, .setParams p⟩ => inferInstanceAs (Decidable (p.validate = .ok () → OnlyListed p now s))
  | ⟨_, .endBlocker⟩ => isTrue trivial

def KeepsOracles (env : Env) : State → List Event → Prop
  | _, [] => True
  | s, ev :: evs => ChangeKeepsOracles s ev ∧
    match step env s ev with
    | .ok s' => KeepsOracles env s' evs
    | .error _ => True

instance decidableKeepsOracles (env : Env) :
    (s : State) → (evs : List Event) → Decidable (KeepsOracles env s evs)
  | _, [] => isTrue trivial
  | s, ev :: evs =>
    match h : step env s ev with
    | .ok s' =>
      have := decidableKeepsOracles env s' evs
      decidable_of_iff (ChangeKeepsOracles s ev ∧ KeepsOracles env s' evs) (by rw [KeepsOracles, h])
    | .error _ => decidable_of_iff (ChangeKeepsOracles s ev) (by rw [KeepsOracles, h, and_true])

section
variable {env : Env} {s s' : State}

theorem eq_of_getMarket {m : String} {market market' : Market} (h : getMarket s m = some market')
    (hm : market ∈ s.params.markets) (hid : market.marketID = m) : market' = market := by
  have hmem := List.mem_of_find?_eq_some h
  have hid' : market'.marketID = m := by simpa using List.find?_some h
  exact List.inj_on_of_nodup_map s.params.ids_nodup hmem hm (hid'.trans hid.symm)

theorem OnlyListed.mono {p : Params} {now later : Int} (h : OnlyListed p now s) (ht : now ≤ later) :
    OnlyListed p later s :=
  fun market hm ha pp hpp hlt => h market hm ha pp hpp (lt_of_le_of_lt ht hlt)

theorem mem_rawPricesOf {m : String} {pp : PostedPrice} :
    pp ∈ rawPricesOf s m ↔ rawPrice s m pp.oracleAddress = some pp := by
  rw [rawPrice_eq_some]
  simp

theorem OnlyListed.step {now : Int} {ev : Event} (hlisted : OnlyListed s.params.toParams now s)
    (ht : now ≤ ev.time) (hkeep : ChangeKeepsOracles s ev) (h : step env s ev = .ok s') :
    OnlyListed s'.params.toParams ev.time s' := by
  rcases step_cases h with ⟨pp, k, market, hk, _, hm, ho, rfl⟩ | ⟨_, hraw, hparams | ⟨p, hop, hp⟩⟩
  · intro other hother hactive q hq hlive
    rw [mem_rawPricesOf, rawPrice_putPrice] at hq
    split at hq
    · rename_i hmo
      cases hq
      rw [eq_of_getMarket hm hother hmo.1.symm] at ho
      exact ho
    · exact hlisted.mono ht other hother hactive q (mem_rawPricesOf.mpr hq) hlive
  · intro other hother hactive q hq
    rw [rawPricesOf, hraw] at hq
    exact hlisted.mono ht other (hparams ▸ hother) hactive q hq
  · intro other hother hactive q hq
    rw [rawPricesOf, hraw] at hq
    rw [ChangeKeepsOracles, hop] at hkeep
    exact hkeep (hp ▸ s'.params.valid) other (hp ▸ hother) hactive q hq

def lastTime (now : Time) (evs : List Event) : Time := (evs.map Event.time).getLastD now

theorem OnlyListed.run {now : Int} {evs : List Event} (hlisted : OnlyListed s.params.toParams now s)
    (ht : (now :: evs.map Event.time).Pairwise (· ≤ ·)) (hkeep : KeepsOracles env s evs)
    (h : run env s evs = .ok s') :
    OnlyListed s'.params.toParams (lastTime now evs) s' := by
  induction evs generalizing s now with
  | nil =>
    cases h
    exact hlisted
  | cons ev evs ih =>
    rw [Pricefeed.run, List.foldlM_cons, bind_eq_ok] at h
    obtain ⟨s₁, h₁, h⟩ := h
    rw [List.map_cons, List.pairwise_cons] at ht
    have hle : now ≤ ev.time := ht.1 ev.time (by simp)
    have hlast : lastTime now (ev :: evs) = lastTime ev.time evs := by
      rw [lastTime, lastTime, List.map_cons, List.getLastD_cons]
    rw [KeepsOracles, h₁] at hkeep
    rw [hlast]
    exact ih (hlisted.step hle hkeep.1 h₁) ht.2 hkeep.2 h

/-- If only listed oracles have live prices, the prices of the listed ones are all. -/
theorem listedPrices_perm {now : Time} {market : Market} (hm : market ∈ s.params.markets)
    (ha : market.active = true) (h : OnlyListed s.params.toParams now s) :
    (listedPrices now (rawPrice s) market).Perm (livePrices now s market.marketID) := by
  have hsplit : listedPrices now (rawPrice s) market =
      (market.oracles.filterMap fun o => (rawPrice s market.marketID o).filter fun pp => now <
        pp.expiry).map
        PostedPrice.price := by
    rw [listedPrices, List.map_filterMap]
  rw [hsplit, livePrices]
  refine List.Perm.map _
    ((List.perm_ext_iff_of_nodup ?_ ((rawPricesOf_nodup s _).filter _)).mpr fun pp => ?_)
  · refine List.Nodup.filterMap ?_ (s.params.oracles_nodup hm)
    intro o o' pp ho ho'
    rw [Option.mem_def, Option.filter_eq_some_iff] at ho ho'
    rw [← (rawPrice_eq_some.mp ho.1).2, ← (rawPrice_eq_some.mp ho'.1).2]
  · rw [List.mem_filterMap, List.mem_filter, decide_eq_true_eq]
    simp only [Option.filter_eq_some_iff, decide_eq_true_eq]
    constructor
    · rintro ⟨o, _, hraw, hlive⟩
      exact ⟨(rawPrice_eq_some.mp hraw).1, hlive⟩
    · rintro ⟨hraw, hlive⟩
      exact ⟨pp.oracleAddress, h market hm ha pp hraw hlive, mem_rawPricesOf.mp hraw, hlive⟩

theorem Records.answers {live : List StoredDec} {m : String} {cp : CurrentPrice}
    (h : Records live m cp) (hget : s.currentPrices.get (currentPriceKey m) = some cp) :
    Answers live m (getCurrentPrice s m) := by
  unfold getCurrentPrice
  rw [hget]
  rcases h with ⟨rfl, rfl⟩ | ⟨_, hid, hmedian⟩
  · have hnone : medianPrice ([] : List StoredDec) = none := medianPrice_eq_none.mpr rfl
    simp [Answers, hnone, CurrentPrice.empty, StoredDec.zero]
  · by_cases hzero : cp.price.val = 0
    · simp only [hzero, if_true, Answers, hmedian]
      constructor
      · intro cp'
        simp only [reduceCtorEq, Option.some.injEq, false_iff, not_and, not_not]
        intro _ he
        exact he.symm
      · simp
    · simp only [if_neg hzero, Answers, hmedian]
      constructor
      · intro cp'
        rw [Except.ok.injEq, Option.some.injEq]
        constructor
        · intro he
          subst he
          exact ⟨hid, rfl, hzero⟩
        · rintro ⟨hid', hval, _⟩
          cases cp
          cases cp'
          simp only [CurrentPrice.mk.injEq]
          exact ⟨hid.trans hid'.symm, Subtype.ext hval⟩
      · simp [hzero]

end

/-! ## The result -/

/-- Right after an end blocker, the price of every active market is the median of the latest
prices of the listed oracles that have not expired, if every accepted change of the
parameters before has kept the oracles of live prices. In any run, the price of a market
is off only if an oracle that is not listed has a live price and moves the median. -/
theorem currentPrice_median (env : Env) (first : State) (start now : Int)
    (evs : List Event) (s : State) (ht : (start :: evs.map Event.time ++ [now]).Pairwise (· ≤ ·))
    (h : run env first (evs ++ [⟨now, .endBlocker⟩]) = .ok s) :
    (OnlyListed first.params.toParams start first → KeepsOracles env first evs →
      ∀ market ∈ s.params.markets, market.active = true →
      Answers (listedPrices now (latest first (history env first evs)) market) market.marketID
        (getCurrentPrice s market.marketID)) ∧
    (∀ market ∈ s.params.markets, market.active = true →
      (Answers (listedPrices now (latest first (history env first evs)) market) market.marketID
          (getCurrentPrice s market.marketID) ↔
        published (listedPrices now (latest first (history env first evs)) market) =
          published (livePrices now s market.marketID))) := by
  rw [run, List.foldlM_append, bind_eq_ok] at h
  obtain ⟨s₁, h₁, h⟩ := h
  have hend : endBlocker now s₁ = .ok s := by
    simpa [step] using h
  have hpub := endBlocker_ok hend
  have hlatest : latest first (history env first evs) = rawPrice s₁ := by
    funext m o
    have hzero : ∀ m o, rawPrice first m o = latest first [] m o := fun _ _ => rfl
    rw [rawPrice_eq_latest hzero h₁, List.nil_append]
  have hlive : ∀ m, livePrices now s m = livePrices now s₁ m := livePrices_congr hpub.rawPrices now
  rw [hlatest, hpub.params]
  -- what is published comes from all prices that are live now
  have hanswers : ∀ market ∈ s₁.params.markets, market.active = true →
      Answers (livePrices now s₁ market.marketID) market.marketID
        (getCurrentPrice s market.marketID) := by
    intro market hm ha
    obtain ⟨cp, hget, hrec⟩ := hpub.current market hm ha
    exact hrec.answers hget
  constructor
  · intro hfirst hkeep market hm ha
    rw [List.pairwise_append] at ht
    obtain ⟨ht₁, _, hlast⟩ := ht
    have hle : lastTime start evs ≤ now := hlast _ List.getLastD_mem_cons now (by simp)
    have hlisted : OnlyListed s₁.params.toParams now s₁ := (hfirst.run ht₁ hkeep h₁).mono hle
    refine (hanswers market hm ha).iff_published.mpr ?_
    rw [published, published, medianPrice_of_perm (listedPrices_perm hm ha hlisted)]
  · intro market hm ha
    rw [hlive]
    exact (hanswers market hm ha).iff_published

def pairStart : State := startState ⟨⟨[pairMarket]⟩, pairMarket_valid⟩

def postFive : Event :=
  ⟨1000000000, .postPrice ⟨"oracle1", "btc:usd", .ofUnits 5000000000000000000, 9000000000⟩⟩

def postEight : Event :=
  ⟨1000000000, .postPrice ⟨"oracle2", "btc:usd", .ofUnits 8000000000000000000, 9000000000⟩⟩

def additionRun : List Event :=
  [postFive, postEight, ⟨2000000000, .setParams ⟨[{ pairMarket with oracles := [[1], [2], [3]] }]⟩⟩]

theorem currentPrice_median_after_addition :
    ∃ s, run pairEnv pairStart (additionRun ++ [⟨3000000000, .endBlocker⟩]) = .ok s ∧
      ∀ market ∈ s.params.markets, market.active = true →
        Answers (listedPrices 3000000000 (latest pairStart (history pairEnv pairStart additionRun))
          market) market.marketID
          (getCurrentPrice s market.marketID) := by
  have hrun : ∃ s, run pairEnv pairStart (additionRun ++ [⟨3000000000, .endBlocker⟩]) = .ok s := by
    decide +kernel
  obtain ⟨s, hs⟩ := hrun
  have hmedian := currentPrice_median pairEnv pairStart 0 3000000000 additionRun s
    (by decide +kernel) hs
  exact ⟨s, hs, hmedian.1 (by decide +kernel) (by decide +kernel)⟩

/-! ## A removed oracle -/

def soloMarket : Market := { pairMarket with oracles := [[2]] }

/-- The first oracle is removed after it has posted. -/
def removalRun : List Event := [postFive, ⟨2000000000, .setParams ⟨[soloMarket]⟩⟩]

def afterRemoval : State :=
  orElseKeep pairStart (run pairEnv pairStart (removalRun ++ [⟨3000000000, .endBlocker⟩]))

theorem removed_oracle_is_published :
    run pairEnv pairStart (removalRun ++ [⟨3000000000, .endBlocker⟩]) = .ok afterRemoval ∧
      (0 :: removalRun.map Event.time ++ [3000000000]).Pairwise (· ≤ ·) ∧
      soloMarket ∈ afterRemoval.params.markets ∧
      ¬ Answers (listedPrices 3000000000 (latest pairStart (history pairEnv pairStart removalRun))
        soloMarket) "btc:usd"
        (getCurrentPrice afterRemoval "btc:usd") := by
  refine ⟨eq_ok_orElseKeep (by decide +kernel) _, by decide +kernel, by decide +kernel, ?_⟩
  have hprice : getCurrentPrice afterRemoval "btc:usd" =
      .ok ⟨"btc:usd", .ofUnits 5000000000000000000⟩ := by
    decide +kernel
  have hlisted : listedPrices 3000000000 (latest pairStart (history pairEnv pairStart removalRun))
      soloMarket = [] := by
    decide +kernel
  intro h
  have hmedian := ((h.1 _).mp hprice).2.1
  rw [hlisted] at hmedian
  cases hmedian

end ZgChain.Pricefeed
