import ZgChain.Pricefeed.Keeper

/-!
# Published prices

What the end of a block publishes for a market: the median of the prices that are
stored for it and have not expired. The block halts at a market whose identifier does
not fit into a key, or whose two middle prices have too large a sum.
-/

namespace ZgChain.Pricefeed

/-! ## Medians -/

def medianPrice (prices : List StoredDec) : Option Dec := do
  let a ← lowerMiddle prices
  let b ← upperMiddle prices
  return Dec.quo (a.val + b.val) (newDec 2)

/-- If there are two middle prices, their sum is in the range of decimals. -/
def Averages (prices : List StoredDec) : Prop := prices.length % 2 = 0 →
  ∀ a ∈ lowerMiddle prices, ∀ b ∈ upperMiddle prices, (a.val + b.val).natAbs < 2 ^ maxDecBitLen

theorem medianPrice_of_perm {l l' : List StoredDec} (h : l.Perm l') :
    medianPrice l = medianPrice l' := by
  rw [medianPrice, medianPrice, lowerMiddle_of_perm h, upperMiddle_of_perm h]

theorem averages_of_perm {l l' : List StoredDec} (h : l.Perm l') : Averages l ↔ Averages l' := by
  rw [Averages, Averages, lowerMiddle_of_perm h, upperMiddle_of_perm h, h.length_eq]

theorem medianPrice_eq_none {l : List StoredDec} : medianPrice l = none ↔ l = [] := by
  constructor
  · intro h
    by_contra hne
    obtain ⟨a, b, ha, hb⟩ := exists_middles hne
    rw [medianPrice, ha, hb] at h
    cases h
  · intro h
    subst h
    rfl

theorem calculateMeanPrice_ok {a b d : StoredDec} : calculateMeanPrice a b = .ok d ↔
    (a.val + b.val).natAbs < 2 ^ maxDecBitLen ∧ Dec.quo (a.val + b.val) (newDec 2) = d.val := by
  have htwo : newDec 2 ≠ 0 := by decide
  simp only [calculateMeanPrice, bind_eq_ok, orReject_eq_ok, StoredDec.add, StoredDec.quo,
    if_neg htwo, storedDec_eq_some]
  constructor
  · rintro ⟨sum, hsum, hd⟩
    rw [hsum] at hd
    exact ⟨hsum ▸ sum.property, hd.symm⟩
  · rintro ⟨hlt, hd⟩
    exact ⟨⟨_, hlt⟩, rfl, hd.symm⟩

theorem averages_iff_of_even {prices : List StoredDec} {a b : StoredDec}
    (heven : prices.length % 2 = 0)
    (ha : lowerMiddle prices = some a) (hb : upperMiddle prices = some b) :
    Averages prices ↔ (a.val + b.val).natAbs < 2 ^ maxDecBitLen := by
  rw [Averages, ha, hb]
  simp [heven]

/-- Of an odd number of prices the two middle ones are one. -/
theorem median_of_odd {prices : List StoredDec} {b : StoredDec} (hodd : prices.length % 2 = 1)
    (hb : upperMiddle prices = some b) : Averages prices ∧ medianPrice prices = some b.val := by
  refine ⟨fun heven => by omega, ?_⟩
  rw [medianPrice, middles_of_odd hodd, hb]
  exact congrArg some (quo_two_double b.val)

theorem exists_medianPrice {prices : List StoredDec} (hne : prices ≠ []) (h : Averages prices) :
    ∃ d : StoredDec, medianPrice prices = some d.val := by
  obtain ⟨a, b, ha, hb⟩ := exists_middles hne
  by_cases heven : prices.length % 2 = 0
  · have hrange : (Dec.quo (a.val + b.val) (newDec 2)).natAbs < 2 ^ maxDecBitLen :=
      lt_of_le_of_lt (natAbs_quo_two_le _) (h heven a ha b hb)
    refine ⟨⟨_, hrange⟩, ?_⟩
    rw [medianPrice, ha, hb]
    rfl
  · exact ⟨b, (median_of_odd (by omega) hb).2⟩

theorem calculateMedianPrice_ok {cps : List CurrentPrice} {d : StoredDec} (h : cps ≠ []) :
    calculateMedianPrice cps = .ok d ↔
      Averages (cps.map CurrentPrice.price) ∧ medianPrice (cps.map CurrentPrice.price) =
        some d.val := by
  have hne : cps.map CurrentPrice.price ≠ [] := by simpa using h
  have hlen : cps.length = (cps.map CurrentPrice.price).length := (List.length_map _).symm
  unfold calculateMedianPrice
  rw [hlen]
  -- only the prices matter from here on
  generalize cps.map CurrentPrice.price = prices at hne
  have hpos := List.length_pos_iff.mpr hne
  obtain ⟨a, b, ha, hb⟩ := exists_middles hne
  by_cases heven : prices.length % 2 = 0
  · have hlow : (ascending prices)[prices.length / 2 - 1]? = some a := by
      rw [← ha, lowerMiddle]
      congr 1
      omega
    have hmedian : medianPrice prices = some (Dec.quo (a.val + b.val) (newDec 2)) := by
      rw [medianPrice, ha, hb]
      rfl
    rw [if_neg (by omega), if_pos heven, hlow, ← upperMiddle, hb, averages_iff_of_even heven ha hb,
      hmedian, Option.some.injEq]
    exact calculateMeanPrice_ok
  · obtain ⟨havg, hmedian⟩ := median_of_odd (by omega) hb
    have hresult : (orReject (some b) indexOutOfRange = .ok d) ↔ Averages prices ∧
        medianPrice prices = some d.val := by
      rw [hmedian, orReject_eq_ok, Option.some.injEq, Option.some.injEq, Subtype.ext_iff]
      exact ⟨fun h => ⟨havg, h⟩, fun h => h.2⟩
    by_cases hone : prices.length = 1
    · obtain ⟨x, rfl⟩ := List.length_eq_one_iff.mp hone
      have hsorted : ascending [x] = [x] := rfl
      rw [upperMiddle, hsorted, hone] at hb
      rw [if_pos hone, hb]
      exact hresult
    · rw [if_neg hone, if_neg heven, ← upperMiddle, hb]
      exact hresult

/-! ## Prices of a market -/

def rawPricesOf (s : State) (marketID : String) : List PostedPrice :=
  s.rawPrices.values.filter fun pp => pp.marketID = marketID

def livePrices (now : Time) (s : State) (marketID : String) : List StoredDec :=
  ((rawPricesOf s marketID).filter fun pp => now < pp.expiry).map PostedPrice.price

def rawPrice (s : State) (marketID : String) (oracle : Addr) : Option PostedPrice :=
  match rawPriceKey marketID oracle with
  | .ok k => s.rawPrices.get k
  | .error _ => none

theorem rawPrice_eq_some {s : State} {m : String} {o : Addr} {pp : PostedPrice} :
    rawPrice s m o = some pp ↔ pp ∈ rawPricesOf s m ∧ pp.oracleAddress = o := by
  unfold rawPrice rawPricesOf
  rw [List.mem_filter, KVStore.mem_values, decide_eq_true_eq]
  constructor
  · intro h
    split at h
    · rename_i k hk
      obtain ⟨hm, ho⟩ := rawPriceKey_inj (s.keyed k pp h) hk
      exact ⟨⟨⟨k, h⟩, hm⟩, ho⟩
    · cases h
  · rintro ⟨⟨⟨k, hk⟩, hm⟩, ho⟩
    have hkey := s.keyed k pp hk
    rw [hm, ho] at hkey
    rw [hkey]
    exact hk

theorem rawPricesOf_nodup (s : State) (m : String) : (rawPricesOf s m).Nodup := by
  refine List.Nodup.filter _ ?_
  have hkeyed : ∀ k pp, s.rawPrices.get k = some pp →
      ((rawPriceKey pp.marketID pp.oracleAddress).toOption).getD [] = k := by
    intro k pp h
    rw [s.keyed k pp h]
    rfl
  exact List.Nodup.of_map _ (KVStore.values_nodup hkeyed)

theorem getRawPrices_ok {s : State} {m : String} {pps : List PostedPrice} :
    getRawPrices s m = .ok pps ↔ idFits m ∧ pps = rawPricesOf s m := by
  have hfilter : ∀ key, rawPriceIteratorKey m = .ok key →
      (s.rawPrices.entries.filter fun e => key.isPrefixOf e.1).map Prod.snd = rawPricesOf s m := by
    intro key hkey
    rw [rawPricesOf, KVStore.values, List.filter_map]
    congr 1
    apply List.filter_congr
    intro e he
    have hk := s.keyed e.1 e.2 ((KVStore.get_eq_some_iff s.rawPrices e.1 e.2).mpr he)
    rw [Bool.eq_iff_iff, isPrefixOf_rawPriceKey hkey hk, Function.comp_apply, decide_eq_true_eq]
  simp only [getRawPrices, bind_eq_ok, pure_eq_ok]
  constructor
  · rintro ⟨key, hkey, h⟩
    exact ⟨(rawPriceIteratorKey_ok.mp hkey).1, by rw [← h, hfilter key hkey]⟩
  · rintro ⟨hm, h⟩
    have hkey := rawPriceIteratorKey_ok.mpr ⟨hm, rfl⟩
    exact ⟨_, hkey, by rw [h, hfilter _ hkey]⟩

theorem getMarket_isSome {s : State} {m : String}
    (h : ∃ market ∈ s.params.markets, market.marketID = m) :
    ∃ market, getMarket s m = some market := by
  obtain ⟨market, hmem, hid⟩ := h
  rw [← Option.isSome_iff_exists, getMarket, List.find?_isSome]
  exact ⟨market, hmem, by simpa using hid⟩

/-! ## What is written for a market -/

def Records (live : List StoredDec) (m : String) (cp : CurrentPrice) : Prop :=
  (live = [] ∧ cp = .empty) ∨ (live ≠ [] ∧ cp.marketID = m ∧ medianPrice live = some cp.price.val)

theorem exists_records {live : List StoredDec} (h : Averages live) (m : String) :
    ∃ cp, Records live m cp := by
  by_cases hlive : live = []
  · exact ⟨_, .inl ⟨hlive, rfl⟩⟩
  · obtain ⟨d, hd⟩ := exists_medianPrice hlive h
    exact ⟨⟨m, d⟩, .inr ⟨hlive, rfl, hd⟩⟩

section
variable {now : Time} {s s' : State} {m : String} {market : Market} {cp : CurrentPrice}

theorem setCurrentPrices_ok (hm : ∃ market ∈ s.params.markets, market.marketID = m)
    {err : Option Error} :
    setCurrentPrices now s m = .ok (err, s') ↔ idFits m ∧ Averages (livePrices now s m) ∧
      err = (if livePrices now s m = [] then some .noValidPrice else none) ∧
      ∃ cp, Records (livePrices now s m) m cp ∧ s' = setCurrentPrice s m cp := by
  obtain ⟨market, hget⟩ := getMarket_isSome hm
  have hnil : ∀ l : List PostedPrice, (l.map fun pp => (⟨pp.marketID, pp.price⟩ : CurrentPrice)) =
      [] ↔
      l.map PostedPrice.price = [] := by
    intro l
    rw [List.map_eq_nil_iff, List.map_eq_nil_iff]
  have hprices : ∀ l : List PostedPrice,
      (l.map fun pp => (⟨pp.marketID, pp.price⟩ : CurrentPrice)).map CurrentPrice.price =
      l.map PostedPrice.price := by
    intro l
    rw [List.map_map]
    rfl
  have havg : Averages ([] : List StoredDec) :=
    fun _ a ha => absurd ha (by simp [lowerMiddle, ascending])
  rw [setCurrentPrices, hget]
  simp only [bind_eq_ok, getRawPrices_ok]
  constructor
  · rintro ⟨_, ⟨hfits, rfl⟩, h⟩
    refine ⟨hfits, ?_⟩
    -- without a live price the empty record is written
    by_cases hlive : livePrices now s m = []
    · rw [if_pos ((hnil _).mpr hlive), pure_eq_ok, Prod.mk.injEq] at h
      rw [hlive, if_pos rfl]
      exact ⟨havg, h.1.symm, .empty, .inl ⟨rfl, rfl⟩, h.2.symm⟩
    · rw [if_neg (mt (hnil _).mp hlive)] at h
      simp only [bind_eq_ok, pure_eq_ok, Prod.mk.injEq] at h
      obtain ⟨d, hd, herr, hs⟩ := h
      rw [calculateMedianPrice_ok (mt (hnil _).mp hlive), hprices] at hd
      rw [if_neg hlive]
      exact ⟨hd.1, herr.symm, ⟨m, d⟩, .inr ⟨hlive, rfl, hd.2⟩, hs.symm⟩
  · rintro ⟨hfits, ha, herr, cp, hrec, hs⟩
    refine ⟨_, ⟨hfits, rfl⟩, ?_⟩
    rcases hrec with ⟨hlive, rfl⟩ | ⟨hlive, hid, hmedian⟩
    · rw [if_pos hlive] at herr
      rw [if_pos ((hnil _).mpr hlive), pure_eq_ok, Prod.mk.injEq]
      exact ⟨herr.symm, hs.symm⟩
    · rw [if_neg hlive] at herr
      rw [if_neg (mt (hnil _).mp hlive)]
      simp only [bind_eq_ok, pure_eq_ok, Prod.mk.injEq]
      refine ⟨cp.price, ?_, herr.symm, by rw [hs, ← hid]⟩
      rw [calculateMedianPrice_ok (mt (hnil _).mp hlive), hprices]
      exact ⟨ha, hmedian⟩

theorem endBlockMarket_ok (hm : market ∈ s.params.markets) : endBlockMarket now s market = .ok s' ↔
    (market.active = false ∧ s' = s) ∨ (market.active = true ∧ idFits market.marketID ∧
      Averages (livePrices now s market.marketID) ∧
      ∃ cp, Records (livePrices now s market.marketID) market.marketID cp ∧
        s' = setCurrentPrice s market.marketID cp) := by
  unfold endBlockMarket
  by_cases hactive : market.active = false
  · rw [if_pos hactive]
    simp [hactive, eq_comm]
  · have htrue : market.active = true := by simpa using hactive
    rw [if_neg hactive]
    simp only [htrue, Bool.true_eq_false, false_and, true_and, false_or]
    rw [bind_eq_ok]
    constructor
    · rintro ⟨⟨err, s₁⟩, hset, h⟩
      obtain ⟨hfits, ha, herr, hcp⟩ := (setCurrentPrices_ok ⟨market, hm, rfl⟩).mp hset
      have hs : s₁ = s' := by
        subst herr
        by_cases hlive : livePrices now s market.marketID = []
        · simpa [hlive] using h
        · simpa [hlive] using h
      exact ⟨hfits, ha, hs ▸ hcp⟩
    · rintro ⟨hfits, ha, hcp⟩
      refine ⟨_, (setCurrentPrices_ok ⟨market, hm, rfl⟩).mpr ⟨hfits, ha, rfl, hcp⟩, ?_⟩
      by_cases hlive : livePrices now s market.marketID = []
      · simp [hlive, pure, Except.pure]
      · simp [hlive, pure, Except.pure]

end

/-! ## The end of a block -/

def Publishable (now : Time) (s : State) (markets : Markets) : Prop :=
  ∀ market ∈ markets, market.active = true →
  idFits market.marketID ∧ Averages (livePrices now s market.marketID)

structure Publishes (now : Time) (markets : Markets) (s s' : State) : Prop where
  params : s'.params = s.params
  rawPrices : s'.rawPrices = s.rawPrices
  current : ∀ market ∈ markets, market.active = true → ∃ cp,
    s'.currentPrices.get (currentPriceKey market.marketID) = some cp ∧
      Records (livePrices now s market.marketID) market.marketID cp
  others : ∀ k, (∀ market ∈ markets, market.active = true → k ≠ currentPriceKey market.marketID) →
    s'.currentPrices.get k = s.currentPrices.get k

section
variable {now : Time} {s s' : State}

theorem livePrices_congr {t : State} (h : t.rawPrices = s.rawPrices) (now : Time) (m : String) :
    livePrices now t m = livePrices now s m := by
  rw [livePrices, livePrices, rawPricesOf, rawPricesOf, h]

theorem Publishes.cons {s₁ : State} {market : Market} {markets : Markets}
    (hm : market ∈ s.params.markets)
    (h₁ : endBlockMarket now s market = .ok s₁) (h : Publishes now markets s₁ s') :
    Publishes now (market :: markets) s s' := by
  rcases (endBlockMarket_ok hm).mp h₁ with ⟨hinactive, rfl⟩ | ⟨hactive, _, _, cp, hrec, rfl⟩
  · refine ⟨h.params, h.rawPrices, fun other hmem ho => ?_, fun k hk => ?_⟩
    · cases hmem with
      | head => simp [hinactive] at ho
      | tail _ hmem => exact h.current other hmem ho
    · exact h.others k fun other hmem => hk other (List.mem_cons_of_mem _ hmem)
  · have hlive : ∀ m, livePrices now (setCurrentPrice s market.marketID cp) m =
        livePrices now s m :=
      livePrices_congr rfl now
    refine ⟨h.params, h.rawPrices, fun other hmem ho => ?_, fun k hk => ?_⟩
    · -- a later market with the same identifier would write the same record
      by_cases hlater : ∃ later ∈ markets, later.active = true ∧ later.marketID = other.marketID
      · obtain ⟨later, hl, hla, hid⟩ := hlater
        have := h.current later hl hla
        rwa [hid, hlive] at this
      · cases hmem with
        | tail _ hmem => exact absurd ⟨other, hmem, ho, rfl⟩ hlater
        | head =>
          refine ⟨cp, ?_, hrec⟩
          rw [h.others]
          · exact KVStore.get_set_self _ _ _
          · intro later hl hla he
            exact hlater ⟨later, hl, hla, (currentPriceKey_inj he).symm⟩
    · rw [h.others k fun other hmem => hk other (List.mem_cons_of_mem _ hmem)]
      exact (KVStore.get_set _ _ _ _).trans (if_neg (hk market (by simp) hactive))

theorem foldlM_endBlockMarket_ok {markets : Markets}
    (hm : ∀ market ∈ markets, market ∈ s.params.markets)
    (h : markets.foldlM (endBlockMarket now) s = .ok s') : Publishes now markets s s' := by
  induction markets generalizing s with
  | nil =>
    cases h
    exact ⟨rfl, rfl, by simp, fun _ _ => rfl⟩
  | cons market markets ih =>
    rw [List.foldlM_cons, bind_eq_ok] at h
    obtain ⟨s₁, h₁, h⟩ := h
    have hparams : s₁.params = s.params := by
      rcases (endBlockMarket_ok (hm market (by simp))).mp h₁
        with ⟨_, rfl⟩ | ⟨_, _, _, _, _, rfl⟩ <;> rfl
    exact Publishes.cons (hm market (by simp)) h₁
      (ih (fun other ho => hparams ▸ hm other (List.mem_cons_of_mem _ ho)) h)

theorem endBlocker_ok (h : endBlocker now s = .ok s') : Publishes now s.params.markets s s' :=
  foldlM_endBlockMarket_ok (fun _ h => h) h

theorem endBlockMarket_returns {market : Market} (hm : market ∈ s.params.markets) :
    (∃ s₁, endBlockMarket now s market = .ok s₁) ↔
      (market.active = true → idFits market.marketID ∧
        Averages (livePrices now s market.marketID)) := by
  simp only [endBlockMarket_ok hm]
  constructor
  · rintro ⟨_, h⟩ hactive
    rcases h with ⟨hinactive, _⟩ | ⟨_, hfits, havg, _⟩
    · rw [hactive] at hinactive
      cases hinactive
    · exact ⟨hfits, havg⟩
  · intro h
    by_cases hactive : market.active = true
    · obtain ⟨hfits, havg⟩ := h hactive
      obtain ⟨cp, hcp⟩ := exists_records havg market.marketID
      exact ⟨_, .inr ⟨hactive, hfits, havg, cp, hcp, rfl⟩⟩
    · exact ⟨_, .inl ⟨by simpa using hactive, rfl⟩⟩

theorem foldlM_endBlockMarket_returns {markets : Markets}
    (hm : ∀ market ∈ markets, market ∈ s.params.markets) :
    (∃ s', markets.foldlM (endBlockMarket now) s = .ok s') ↔ Publishable now s markets := by
  induction markets generalizing s with
  | nil =>
    simp [Publishable, pure, Except.pure]
  | cons market markets ih =>
    have hhead := hm market (by simp)
    -- what is written for one market changes neither the parameters nor the posted prices
    have hrest : ∀ s₁, endBlockMarket now s market = .ok s₁ →
        ((∃ s', markets.foldlM (endBlockMarket now) s₁ = .ok s') ↔ Publishable now s markets) := by
      intro s₁ h₁
      rcases (endBlockMarket_ok hhead).mp h₁ with ⟨_, rfl⟩ | ⟨_, _, _, _, _, rfl⟩
      · exact ih fun other ho => hm other (List.mem_cons_of_mem _ ho)
      · exact ih fun other ho => hm other (List.mem_cons_of_mem _ ho)
    rw [List.foldlM_cons, Publishable, List.forall_mem_cons]
    simp only [bind_eq_ok]
    constructor
    · rintro ⟨s', s₁, h₁, h⟩
      exact ⟨(endBlockMarket_returns hhead).mp ⟨s₁, h₁⟩, (hrest s₁ h₁).mp ⟨s', h⟩⟩
    · rintro ⟨h₁, h⟩
      obtain ⟨s₁, h₁⟩ := (endBlockMarket_returns hhead).mpr h₁
      obtain ⟨s', h⟩ := (hrest s₁ h₁).mpr h
      exact ⟨s', s₁, h₁, h⟩

end

end ZgChain.Pricefeed
