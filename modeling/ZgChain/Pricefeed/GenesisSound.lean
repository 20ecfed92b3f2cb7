import ZgChain.Pricefeed.MedianSound

/-!
# Export and import of the price feed

Current prices are not exported. They are computed again from the prices that have not
expired, and those are the ones the last end blocker has used. A price that has expired
at the export is not imported, and it would not be used again.
-/

namespace ZgChain.Pricefeed

section
variable {now : Time} {s s' : State}

/-! ## Posted prices -/

theorem initPrice_ok {pp : PostedPrice} : initPrice now s pp = .ok s' ↔
    (¬ now < pp.expiry ∧ s' = s) ∨
    (now < pp.expiry ∧ ∃ k, ∃ hk : rawPriceKey pp.marketID pp.oracleAddress = .ok k,
      s' = putPrice s pp k hk) := by
  unfold initPrice
  by_cases hlive : now < pp.expiry
  · rw [if_pos hlive, setPrice_ok]
    simp [hlive]
  · rw [if_neg hlive]
    simp [hlive, eq_comm]

theorem foldlM_initPrice (now : Time) {pps : List PostedPrice}
    (hkeys : ∀ pp ∈ pps, ∃ k, rawPriceKey pp.marketID pp.oracleAddress = .ok k) (first : State) :
    ∃ s', pps.foldlM (initPrice now) first = .ok s' ∧ s'.params = first.params ∧
      s'.currentPrices = first.currentPrices ∧
      ∀ m o, rawPrice s' m o = latest first (pps.filter fun pp => now < pp.expiry) m o := by
  induction pps using List.reverseRecOn with
  | nil => exact ⟨first, rfl, rfl, rfl, fun _ _ => rfl⟩
  | append_singleton pps pp ih =>
    obtain ⟨s₁, h₁, hparams, hcurrent, hraw⟩ := ih fun q hq => hkeys q (by simp [hq])
    obtain ⟨k, hk⟩ := hkeys pp (by simp)
    by_cases hlive : now < pp.expiry
    · refine ⟨putPrice s₁ pp k hk, ?_, hparams, hcurrent, fun m o => ?_⟩
      · rw [List.foldlM_append, h₁, ok_bind, List.foldlM_cons,
          initPrice_ok.mpr (.inr ⟨hlive, k, hk, rfl⟩)]
        rfl
      · rw [rawPrice_putPrice, hraw, List.filter_append, List.filter_singleton,
          decide_eq_true hlive, cond_true, latest_snoc]
    · refine ⟨s₁, ?_, hparams, hcurrent, fun m o => ?_⟩
      · rw [List.foldlM_append, h₁, ok_bind, List.foldlM_cons, initPrice_ok.mpr (.inl ⟨hlive, rfl⟩)]
        rfl
      · rw [hraw, List.filter_append, List.filter_singleton, decide_eq_false hlive, cond_false,
          List.append_nil]

theorem exportGenesis_ok (hfits : ∀ market ∈ s.params.markets, idFits market.marketID) :
    exportGenesis s =
      .ok ⟨s.params.toParams,
        (s.params.markets.map fun market => rawPricesOf s market.marketID).flatten⟩ := by
  have hmap : (s.params.markets.mapM fun market => getRawPrices s market.marketID) =
      .ok (s.params.markets.map fun market => rawPricesOf s market.marketID) := by
    apply mapM_eq_ok_of_map
    rw [List.map_map]
    apply List.map_congr_left
    intro market hm
    exact getRawPrices_ok.mpr ⟨hfits market hm, rfl⟩
  rw [exportGenesis, hmap]
  rfl

theorem mem_rawPricesOf_imported {first : State} (hfirst : first.rawPrices = .empty)
    {pps : List PostedPrice} (hpps : ∀ pp ∈ pps, ∃ k, s.rawPrices.get k = some pp)
    (hraw : ∀ m o, rawPrice s' m o = latest first (pps.filter fun pp => now < pp.expiry) m o)
    (m : String) (pp : PostedPrice) :
    pp ∈ rawPricesOf s' m ↔ (pp ∈ pps ∧ pp.marketID = m) ∧ now < pp.expiry := by
  have hnone : ∀ o, rawPrice first m o = none := by
    intro o
    rw [rawPrice, hfirst]
    split <;> rfl
  have hmem : ∀ q, q ∈ pps ∧ q.marketID = m → rawPrice s m q.oracleAddress = some q := by
    rintro q ⟨hq, hid⟩
    rw [← mem_rawPricesOf, rawPricesOf, List.mem_filter, KVStore.mem_values, decide_eq_true_eq]
    exact ⟨hpps q hq, hid⟩
  rw [mem_rawPricesOf, hraw, latest, hnone, Option.or_none]
  constructor
  · intro h
    have hin := List.mem_of_find?_eq_some h
    have hp := List.find?_some h
    simp only [List.mem_reverse, List.mem_filter, decide_eq_true_eq] at hin hp
    exact ⟨⟨hin.1, hp.1⟩, hin.2⟩
  · rintro ⟨⟨hin, hid⟩, hlive⟩
    -- the oracle has one price for the market, so the first one found is this one
    have hfound : (((pps.filter fun q => now < q.expiry).reverse).find? fun q =>
        q.marketID = m ∧ q.oracleAddress = pp.oracleAddress).isSome = true := by
      rw [List.find?_isSome]
      exact ⟨pp, by simp [hin, hlive], by simp [hid]⟩
    obtain ⟨q, hq⟩ := Option.isSome_iff_exists.mp hfound
    have hqin := List.mem_of_find?_eq_some hq
    have hqp := List.find?_some hq
    simp only [List.mem_reverse, List.mem_filter, decide_eq_true_eq] at hqin hqp
    have h₁ := hmem q ⟨hqin.1, hqp.1⟩
    rw [hqp.2, hmem pp ⟨hin, hid⟩] at h₁
    rw [hq, h₁]

/-! ## Current prices -/

/-- In a store without expired prices, the current prices are set for the markets that
have a price. -/
theorem initMarket_eq {market : Market} (hm : market ∈ s.params.markets)
    (hfits : idFits market.marketID)
    (hlive : ∀ pp ∈ rawPricesOf s market.marketID, now < pp.expiry) :
    initMarket now s market = if rawPricesOf s market.marketID = [] then .ok s
      else endBlockMarket now s market := by
  unfold initMarket endBlockMarket
  by_cases hactive : market.active = false
  · rw [if_pos hactive, if_pos hactive, ite_self]
  · rw [if_neg hactive, if_neg hactive, getRawPrices_ok.mpr ⟨hfits, rfl⟩, ok_bind]
    by_cases hnil : rawPricesOf s market.marketID = []
    · rw [if_pos hnil, if_pos hnil]
      rfl
    · rw [if_neg hnil, if_neg hnil]
      cases hset : setCurrentPrices now s market.marketID with
      | error e => rfl
      | ok r =>
        obtain ⟨err, s₁⟩ := r
        have hall : livePrices now s market.marketID ≠ [] := by
          rw [livePrices, List.filter_eq_self.mpr (by simpa using hlive)]
          simpa using hnil
        have herr := ((setCurrentPrices_ok ⟨market, hm, rfl⟩).mp hset).2.2.1
        rw [if_neg hall] at herr
        subst herr
        rfl

theorem foldlM_initMarket_eq {markets : Markets}
    (hm : ∀ market ∈ markets, market ∈ s.params.markets)
    (hfits : ∀ market ∈ markets, idFits market.marketID)
    (hlive : ∀ m, ∀ pp ∈ rawPricesOf s m, now < pp.expiry) :
    markets.foldlM (initMarket now) s =
      (markets.filter fun market => rawPricesOf s market.marketID ≠ []).foldlM
        (endBlockMarket now) s := by
  induction markets generalizing s with
  | nil => rfl
  | cons market markets ih =>
    obtain ⟨hhead, htail⟩ := List.forall_mem_cons.mp hm
    obtain ⟨hf, hfs⟩ := List.forall_mem_cons.mp hfits
    rw [List.foldlM_cons, initMarket_eq hhead hf (hlive market.marketID), List.filter_cons]
    by_cases hnil : rawPricesOf s market.marketID = []
    · rw [if_pos hnil, ok_bind, if_neg (by simp [hnil])]
      exact ih htail hfs hlive
    · rw [if_neg hnil, if_pos (by simp [hnil]), List.foldlM_cons]
      cases h₁ : endBlockMarket now s market with
      | error e => rfl
      | ok s₁ =>
        rw [ok_bind, ok_bind]
        rcases (endBlockMarket_ok hhead).mp h₁ with ⟨_, rfl⟩ | ⟨_, _, _, _, _, rfl⟩
        · exact ih htail hfs hlive
        · exact ih htail hfs hlive

theorem Records.unique {l l' : List StoredDec} {m : String} {cp cp' : CurrentPrice}
    (h : Records l m cp) (h' : Records l' m cp') (hp : l.Perm l') : cp = cp' := by
  rcases h with ⟨hnil, rfl⟩ | ⟨hne, hid, hmedian⟩
  · rcases h' with ⟨_, rfl⟩ | ⟨hne', _⟩
    · rfl
    · rw [hnil] at hp
      exact absurd (List.nil_perm.mp hp) hne'
  · rcases h' with ⟨hnil', _⟩ | ⟨_, hid', hmedian'⟩
    · rw [hnil'] at hp
      exact absurd (List.perm_nil.mp hp) hne
    · rw [medianPrice_of_perm hp, hmedian', Option.some.injEq] at hmedian
      cases cp
      cases cp'
      simp only [CurrentPrice.mk.injEq]
      exact ⟨hid.trans hid'.symm, Subtype.ext hmedian.symm⟩

end

/-! ## Later blocks -/

/-- The current prices of the active markets are the same. -/
def SamePrices (s s' : State) : Prop := ∀ market ∈ s.params.markets, market.active = true →
  getCurrentPrice s' market.marketID = getCurrentPrice s market.marketID

/-- The markets are the same, and so are their prices that are live from a time on. -/
structure SameFrom (start : Int) (s s' : State) : Prop where
  params : s'.params = s.params
  live : ∀ now : Int, start ≤ now → ∀ market ∈ s.params.markets,
    (livePrices now s market.marketID).Perm (livePrices now s' market.marketID)

def endBlocks (times : List Int) (s : State) : Except Error State :=
  times.foldlM (fun s now => endBlocker now s) s

section
variable {start : Int} {s s' t t' : State}

theorem SameFrom.endBlocker_returns (h : SameFrom start s s') {now : Int} (hle : start ≤ now) :
    (∃ t, endBlocker now s = .ok t) ↔ ∃ t', endBlocker now s' = .ok t' := by
  rw [endBlocker, endBlocker, foldlM_endBlockMarket_returns fun _ h => h,
    foldlM_endBlockMarket_returns fun _ h => h, h.params]
  constructor
  · intro hp market hm ha
    exact ⟨(hp market hm ha).1, (averages_of_perm (h.live now hle market hm)).mp
      (hp market hm ha).2⟩
  · intro hp market hm ha
    exact ⟨(hp market hm ha).1, (averages_of_perm (h.live now hle market hm)).mpr
      (hp market hm ha).2⟩

theorem SameFrom.endBlocker_ok (h : SameFrom start s s') {now : Int} (hle : start ≤ now)
    (ht : endBlocker now s = .ok t)
    (ht' : endBlocker now s' = .ok t') : SameFrom start t t' ∧ SamePrices t t' := by
  have hpub := Pricefeed.endBlocker_ok ht
  have hpub' := Pricefeed.endBlocker_ok ht'
  constructor
  · refine ⟨by rw [hpub'.params, h.params, hpub.params], fun later hlater market hm => ?_⟩
    rw [livePrices_congr hpub.rawPrices, livePrices_congr hpub'.rawPrices]
    exact h.live later hlater market (hpub.params ▸ hm)
  · intro market hm ha
    rw [hpub.params] at hm
    obtain ⟨cp, hget, hrec⟩ := hpub.current market hm ha
    obtain ⟨cp', hget', hrec'⟩ := hpub'.current market (h.params ▸ hm) ha
    rw [getCurrentPrice, getCurrentPrice, hget, hget', hrec.unique hrec' (h.live now hle market hm)]

theorem SameFrom.endBlocks (h : SameFrom start s s') (hp : SamePrices s s') {times : List Int}
    (hle : ∀ now ∈ times, start ≤ now) :
    ((∃ t, endBlocks times s = .ok t) ↔ ∃ t', endBlocks times s' = .ok t') ∧
      ∀ t t', endBlocks times s = .ok t → endBlocks times s' = .ok t' → SamePrices t t' := by
  induction times generalizing s s' with
  | nil =>
    refine ⟨by simp [Pricefeed.endBlocks, pure, Except.pure], fun t t' ht ht' => ?_⟩
    cases ht
    cases ht'
    exact hp
  | cons now times ih =>
    obtain ⟨hnow, htimes⟩ := List.forall_mem_cons.mp hle
    have hret := h.endBlocker_returns hnow
    simp only [Pricefeed.endBlocks, List.foldlM_cons, bind_eq_ok] at ih ⊢
    constructor
    · constructor
      · rintro ⟨t, s₁, h₁, ht⟩
        obtain ⟨s₁', h₁'⟩ := hret.mp ⟨s₁, h₁⟩
        obtain ⟨hsame, hprices⟩ := h.endBlocker_ok hnow h₁ h₁'
        obtain ⟨t', ht'⟩ := (ih hsame hprices htimes).1.mp ⟨t, ht⟩
        exact ⟨t', s₁', h₁', ht'⟩
      · rintro ⟨t', s₁', h₁', ht'⟩
        obtain ⟨s₁, h₁⟩ := hret.mpr ⟨s₁', h₁'⟩
        obtain ⟨hsame, hprices⟩ := h.endBlocker_ok hnow h₁ h₁'
        obtain ⟨t, ht⟩ := (ih hsame hprices htimes).1.mpr ⟨t', ht'⟩
        exact ⟨t, s₁, h₁, ht⟩
    · rintro t t' ⟨s₁, h₁, ht⟩ ⟨s₁', h₁', ht'⟩
      obtain ⟨hsame, hprices⟩ := h.endBlocker_ok hnow h₁ h₁'
      exact (ih hsame hprices htimes).2 t t' ht ht'

end

/-! ## The round trip -/

/-- After the import of the posted prices: of those of a listed market the ones that have not
expired, and no current price yet. -/
structure Imported (now : Int) (s s₁ : State) : Prop where
  params : s₁.params = s.params
  currentPrices : s₁.currentPrices = .empty
  unexpired : ∀ m, ∀ pp ∈ rawPricesOf s₁ m, now < pp.expiry
  kept : ∀ market ∈ s.params.markets, ∀ pp,
    pp ∈ rawPricesOf s₁ market.marketID ↔ pp ∈ rawPricesOf s market.marketID ∧ now < pp.expiry

theorem foldlM_initPrice_exported (now : Int) (s : State) :
    ∃ s₁, (s.params.markets.map fun market => rawPricesOf s market.marketID).flatten.foldlM
      (initPrice now)
      { emptyState with params := s.params } = .ok s₁ ∧ Imported now s s₁ := by
  let pps := (s.params.markets.map fun market => rawPricesOf s market.marketID).flatten
  have hpps : ∀ pp, pp ∈ pps ↔ ∃ market ∈ s.params.markets, pp ∈ rawPricesOf s market.marketID := by
    intro pp
    simp [pps]
  have hstored : ∀ pp ∈ pps, ∃ k, s.rawPrices.get k = some pp := by
    intro pp hpp
    obtain ⟨market, _, hraw⟩ := (hpps pp).mp hpp
    rw [rawPricesOf, List.mem_filter, KVStore.mem_values] at hraw
    exact hraw.1
  have hkeys : ∀ pp ∈ pps, ∃ k, rawPriceKey pp.marketID pp.oracleAddress = .ok k := by
    intro pp hpp
    obtain ⟨k, hk⟩ := hstored pp hpp
    exact ⟨k, s.keyed k pp hk⟩
  obtain ⟨s₁, h₁, hparams, hcurrent, hraw⟩ :=
    foldlM_initPrice now hkeys { emptyState with params := s.params }
  have hmem := mem_rawPricesOf_imported rfl hstored hraw
  refine ⟨s₁, h₁, hparams, hcurrent, fun m pp hpp => ((hmem m pp).mp hpp).2, fun market hm pp => ?_⟩
  rw [hmem]
  refine and_congr_left fun _ => ⟨fun h => ?_, fun h => ?_⟩
  · obtain ⟨other, _, hin⟩ := (hpps pp).mp h.1
    rw [rawPricesOf, List.mem_filter] at hin ⊢
    exact ⟨hin.1, by simpa using h.2⟩
  · refine ⟨(hpps pp).mpr ⟨market, hm, h⟩, ?_⟩
    rw [rawPricesOf, List.mem_filter] at h
    simpa using h.2

section
variable {now : Int} {s₀ s s₁ s' : State}

theorem Imported.markets (h : Imported now s s₁) : s₁.params.markets = s.params.markets :=
  congrArg (fun p : ValidParams => p.markets) h.params

theorem Imported.live (h : Imported now s s₁) {later : Int} (hle : now ≤ later) {market : Market}
    (hm : market ∈ s.params.markets) :
    (livePrices later s market.marketID).Perm (livePrices later s₁ market.marketID) := by
  refine List.Perm.map _ ((List.perm_ext_iff_of_nodup ((rawPricesOf_nodup _ _).filter _)
    ((rawPricesOf_nodup _ _).filter _)).mpr fun pp => ?_)
  rw [List.mem_filter, List.mem_filter, h.kept market hm, decide_eq_true_eq]
  constructor
  · intro hpp
    obtain ⟨hpp, hlt⟩ := hpp
    exact ⟨⟨hpp, lt_of_le_of_lt hle hlt⟩, hlt⟩
  · intro hpp
    obtain ⟨⟨hpp, _⟩, hlt⟩ := hpp
    exact ⟨hpp, hlt⟩

theorem Imported.publishes (h : Imported now s s₁) (hend : endBlocker now s₀ = .ok s)
    (hfits : ∀ market ∈ s.params.markets, idFits market.marketID) :
    ∃ s', s.params.markets.foldlM (initMarket now) s₁ = .ok s' ∧
      Publishes now (s.params.markets.filter fun market => rawPricesOf s₁ market.marketID ≠ []) s₁
        s' := by
  have hpub := endBlocker_ok hend
  have hpublishable :
      Publishable now s₁
        (s.params.markets.filter fun market => rawPricesOf s₁ market.marketID ≠ []) := by
    intro market hm ha
    obtain ⟨hm, _⟩ := List.mem_filter.mp hm
    have hret := (foldlM_endBlockMarket_returns fun _ h => h).mp ⟨s, hend⟩ market
      (hpub.params ▸ hm) ha
    refine ⟨hret.1, (averages_of_perm (h.live le_rfl hm)).mp ?_⟩
    rw [livePrices_congr hpub.rawPrices]
    exact hret.2
  have hsub : ∀ market ∈ s.params.markets.filter fun market => rawPricesOf s₁ market.marketID ≠ [],
      market ∈ s₁.params.markets := fun market hm => h.markets ▸ (List.mem_filter.mp hm).1
  obtain ⟨s', hs'⟩ := (foldlM_endBlockMarket_returns hsub).mpr hpublishable
  refine ⟨s', ?_, foldlM_endBlockMarket_ok hsub hs'⟩
  rw [foldlM_initMarket_eq (fun market hm => h.markets ▸ hm) hfits h.unexpired]
  exact hs'

theorem Imported.samePrices (h : Imported now s s₁) (hend : endBlocker now s₀ = .ok s)
    (hpub' : Publishes now
      (s.params.markets.filter fun market => rawPricesOf s₁ market.marketID ≠ []) s₁ s') :
    SamePrices s s' := by
  have hpub := endBlocker_ok hend
  intro market hm ha
  obtain ⟨cp, hget, hrec⟩ := hpub.current market (hpub.params ▸ hm) ha
  have hperm := h.live le_rfl hm
  rw [livePrices_congr hpub.rawPrices] at hperm
  by_cases hnil : rawPricesOf s₁ market.marketID = []
  · -- a market without a price has no record, and the error is the one of an empty record
    have hnone : s'.currentPrices.get (currentPriceKey market.marketID) = none := by
      rw [hpub'.others, h.currentPrices]
      · rfl
      · intro other hother _ he
        have hne := (List.mem_filter.mp hother).2
        rw [← currentPriceKey_inj he, hnil] at hne
        simp at hne
    have hlive₁ : livePrices now s₁ market.marketID = [] := by rw [livePrices, hnil]; rfl
    rw [hlive₁] at hperm
    have hempty := hrec.unique (.inl ⟨rfl, rfl⟩) hperm
    rw [getCurrentPrice, getCurrentPrice, hnone, hget, hempty]
    rfl
  · obtain ⟨cp', hget', hrec'⟩ := hpub'.current market (List.mem_filter.mpr ⟨hm, by simp [hnil]⟩) ha
    rw [getCurrentPrice, getCurrentPrice, hget, hget', hrec.unique hrec' hperm]

theorem initGenesis_exported (hend : endBlocker now s₀ = .ok s)
    (hfits : ∀ market ∈ s.params.markets, idFits market.marketID) :
    ∃ gs s', exportGenesis s = .ok gs ∧ initGenesis now gs = .ok s' ∧ SameFrom now s s' ∧
      SamePrices s s' := by
  obtain ⟨s₁, h₁, himported⟩ := foldlM_initPrice_exported now s
  obtain ⟨s', hs', hpub'⟩ := himported.publishes hend hfits
  have hset : setParams emptyState s.params.toParams =
      .ok { emptyState with params := s.params } := by
    unfold setParams
    split
    · rfl
    · rename_i e he
      rw [s.params.valid] at he
      cases he
  refine ⟨_, s', exportGenesis_ok hfits, ?_, ⟨?_, fun later hle market hm => ?_⟩,
    himported.samePrices hend hpub'⟩
  · rw [initGenesis, hset, ok_bind, h₁, ok_bind, himported.markets]
    exact hs'
  · rw [hpub'.params, himported.params]
  · rw [livePrices_congr hpub'.rawPrices]
    exact himported.live hle hm

end

/-- A state right after an end blocker is exported and imported at the same time; the
current prices of the active markets are the same then and after any later end blockers. -/
theorem genesis_keeps_prices (now : Int) (s₀ s : State) (hend : endBlocker now s₀ = .ok s)
    (hfits : ∀ market ∈ s.params.markets, (strBytes market.marketID).length ≤ 255) :
    ∃ gs s', exportGenesis s = .ok gs ∧ initGenesis now gs = .ok s' ∧ SamePrices s s' ∧
      ∀ times : List Int, (∀ later ∈ times, now ≤ later) →
        ((∃ t, endBlocks times s = .ok t) ↔ ∃ t', endBlocks times s' = .ok t') ∧
          ∀ t t', endBlocks times s = .ok t → endBlocks times s' = .ok t' → SamePrices t t' := by
  obtain ⟨gs, s', hexport, hinit, hsame, hprices⟩ := initGenesis_exported hend hfits
  refine ⟨gs, s', hexport, hinit, hprices, fun times hle => ?_⟩
  exact hsame.endBlocks hprices hle

def afterAddition : State := orElseKeep pairStart (run pairEnv pairStart additionRun)

theorem genesis_keeps_two_prices : ∃ s gs s', endBlocker 3000000000 afterAddition = .ok s ∧
    (∃ cp, getCurrentPrice s "btc:usd" = .ok cp) ∧ exportGenesis s = .ok gs ∧
    initGenesis 3000000000 gs = .ok s' ∧
      SamePrices s s' := by
  have hend := eq_ok_orElseKeep (x := endBlocker 3000000000 afterAddition)
    (by decide +kernel) pairStart
  obtain ⟨gs, s', hexport, hinit, hprices, _⟩ :=
    genesis_keeps_prices 3000000000 _ _ hend (by decide +kernel)
  exact ⟨_, gs, s', hend, by decide +kernel, hexport, hinit, hprices⟩

end ZgChain.Pricefeed
