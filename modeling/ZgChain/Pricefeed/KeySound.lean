import ZgChain.Pricefeed.MedianSound
import ZgChain.Pricefeed.Store

/-!
# The keys of prices do not collide

The posted and the current prices are two regions of the store of bytes, so the store
refines the state with a store for each. A scan for a market visits the keys of its own
prices, also where one identifier is the start of another, and finds the latest price
of each oracle.
-/

namespace ZgChain.Pricefeed

/-! ## Keys -/

def IsRawKey (k : Bytes) : Prop := k.head? = some 1

def IsCurrentKey (k : Bytes) : Prop := k.head? = some 0

theorem isCurrentKey_currentPriceKey (m : String) : IsCurrentKey (currentPriceKey m) := rfl

theorem IsRawKey.not_current {k : Bytes} (h : IsRawKey k) : ¬ IsCurrentKey k := by
  intro h'
  rw [IsCurrentKey, h] at h'
  cases h'

theorem IsCurrentKey.not_raw {k : Bytes} (h : IsCurrentKey k) : ¬ IsRawKey k := by
  intro h'
  exact h'.not_current h

theorem isRawKey_of_rawPriceKey {m : String} {o : Addr} {k : Bytes} (h : rawPriceKey m o = .ok k) :
    IsRawKey k := by
  obtain ⟨_, _, rfl⟩ := rawPriceKey_ok.mp h
  rfl

theorem isRawKey_of_isPrefixOf {m : String} {key k : Bytes} (h : rawPriceIteratorKey m = .ok key)
    (hk : key.isPrefixOf k = true) : IsRawKey k := by
  obtain ⟨_, rfl⟩ := rawPriceIteratorKey_ok.mp h
  obtain ⟨rest, rfl⟩ := List.isPrefixOf_iff_prefix.mp hk
  rfl

theorem rawPriceKey_ne_currentPriceKey {m : String} {o : Addr} {k : Bytes}
    (h : rawPriceKey m o = .ok k) (m' : String) :
    k ≠ currentPriceKey m' := by
  intro e
  exact (isRawKey_of_rawPriceKey h).not_current (e ▸ isCurrentKey_currentPriceKey m')

/-! ## The store refines two stores -/

/-- The store of bytes holds the posted and the current prices of a state. -/
structure Refines (cdc : Codec) (b : ByteState) (s : State) : Prop where
  params : b.params = s.params
  raw : KVStore.Region IsRawKey cdc.unmarshalPostedPrice b.store s.rawPrices
  current : KVStore.Region IsCurrentKey cdc.unmarshalCurrentPrice b.store s.currentPrices

theorem refines_start (cdc : Codec) (p : ValidParams) : Refines cdc ⟨p, .empty⟩ (startState p) :=
  ⟨rfl, KVStore.region_empty, KVStore.region_empty⟩

section
variable {cdc : Codec} {now : Time} {b b' : ByteState} {s : State}

theorem ByteState.setPrice_ok {o : Addr} {m : String} {price : StoredDec} {expiry : Time} :
    b.setPrice cdc now o m price expiry = .ok b' ↔ now < expiry ∧ ∃ k bz, rawPriceKey m o = .ok k ∧
      cdc.marshalPostedPrice ⟨m, o, price, expiry⟩ = .ok bz ∧
      b' = { b with store := b.store.set k bz } := by
  simp only [ByteState.setPrice, bind_eq_ok, rejectIf_eq_ok, not_not, pure_eq_ok]
  constructor
  · rintro ⟨_, hlt, k, hk, bz, hbz, h⟩
    exact ⟨hlt, k, bz, hk, hbz, h.symm⟩
  · rintro ⟨hlt, k, bz, hk, hbz, h⟩
    exact ⟨(), hlt, k, hk, bz, hbz, h.symm⟩

namespace Refines

theorem putPrice (h : Refines cdc b s) (pp : PostedPrice) {k bz : Bytes}
    (hk : rawPriceKey pp.marketID pp.oracleAddress = .ok k)
    (hbz : cdc.marshalPostedPrice pp = .ok bz) :
    Refines cdc { b with store := b.store.set k bz } (putPrice s pp k hk) := by
  have hraw := isRawKey_of_rawPriceKey hk
  constructor
  · exact h.params
  · exact h.raw.set hraw (cdc.postedPrice pp bz hbz)
  · exact h.current.frame hraw.not_current bz

theorem setCurrentPrice (h : Refines cdc b s) (m : String) (cp : CurrentPrice) :
    Refines cdc (b.setCurrentPrice cdc m cp) (setCurrentPrice s m cp) := by
  have hkey := isCurrentKey_currentPriceKey m
  constructor
  · exact h.params
  · exact h.raw.frame hkey.not_raw _
  · exact h.current.set hkey (cdc.currentPrice cp)

theorem getRawPrices (h : Refines cdc b s) (m : String) :
    b.getRawPrices cdc m = getRawPrices s m := by
  unfold ByteState.getRawPrices Pricefeed.getRawPrices
  cases hkey : rawPriceIteratorKey m with
  | error e => rfl
  | ok key =>
    rw [ok_bind, ok_bind, h.raw.scan fun k hk => isRawKey_of_isPrefixOf hkey hk]
    rfl

theorem getMarket (h : Refines cdc b s) (m : String) : b.getMarket m = getMarket s m := by
  rw [ByteState.getMarket, Pricefeed.getMarket, h.params]

theorem getCurrentPrice (h : Refines cdc b s) (m : String) :
    b.getCurrentPrice cdc m = getCurrentPrice s m := by
  have hget := h.current.get _ (isCurrentKey_currentPriceKey m)
  unfold ByteState.getCurrentPrice Pricefeed.getCurrentPrice
  cases hs : s.currentPrices.get (currentPriceKey m) with
  | none =>
    rw [hs, Option.map_none, Option.map_eq_none_iff] at hget
    rw [hget]
  | some cp =>
    rw [hs, Option.map_some, Option.map_eq_some_iff] at hget
    obtain ⟨bz, hbz, hdecode⟩ := hget
    simp only [hbz, hdecode, ok_bind]

/-- A market is published as with two stores: the same panic, or the same error with
states that correspond. -/
theorem setCurrentPrices (h : Refines cdc b s) (now : Time) (m : String) :
    (∃ e, b.setCurrentPrices cdc now m = .error e ∧ setCurrentPrices now s m = .error e) ∨
      ∃ err b' s', b.setCurrentPrices cdc now m = .ok (err, b') ∧
        setCurrentPrices now s m = .ok (err, s') ∧
        Refines cdc b' s' := by
  unfold ByteState.setCurrentPrices Pricefeed.setCurrentPrices
  rw [h.getMarket, h.getRawPrices]
  cases Pricefeed.getMarket s m with
  | none => exact .inr ⟨_, b, s, rfl, rfl, h⟩
  | some market =>
    cases Pricefeed.getRawPrices s m with
    | error e => exact .inl ⟨e, rfl, rfl⟩
    | ok prices =>
      simp only [ok_bind]
      split
      · exact .inr ⟨_, _, _, rfl, rfl, h.setCurrentPrice m .empty⟩
      · cases calculateMedianPrice
          ((prices.filter fun pp => now < pp.expiry).map fun pp => ⟨pp.marketID, pp.price⟩) with
        | error e => exact .inl ⟨e, rfl, rfl⟩
        | ok d => exact .inr ⟨_, _, _, rfl, rfl, h.setCurrentPrice m ⟨m, d⟩⟩

end Refines

end

/-! ## Sequences of calls -/

section
variable {cdc : Codec} {first : State} {b : ByteState} {posts : List PostedPrice}

theorem rawPrices_setCurrentPrices {now : Time} {s s' : State} {m : String} {err : Option Error}
    (h : setCurrentPrices now s m = .ok (err, s')) : s'.rawPrices = s.rawPrices := by
  unfold setCurrentPrices at h
  split at h
  · cases h
    rfl
  · rw [bind_eq_ok] at h
    obtain ⟨prices, _, h⟩ := h
    dsimp only at h
    split at h
    · cases h
      rfl
    · rw [bind_eq_ok] at h
      obtain ⟨d, _, h⟩ := h
      cases h
      rfl

def HoldsLatest (cdc : Codec) (first : State) (b : ByteState) (posts : List PostedPrice) : Prop :=
  ∃ s, Refines cdc b s ∧ ∀ m o, rawPrice s m o = latest first posts m o

theorem HoldsLatest.call (h : HoldsLatest cdc first b posts) (c : Call) :
    HoldsLatest cdc first (b.call cdc c) (posts ++ (b.accepted cdc c).toList) := by
  obtain ⟨s, hs, hlatest⟩ := h
  cases c with
  | setPrice now o m price expiry =>
    rw [ByteState.call, ByteState.accepted]
    cases hset : b.setPrice cdc now o m price expiry with
    | error e => exact ⟨s, hs, by simpa using hlatest⟩
    | ok b' =>
      obtain ⟨_, k, bz, hk, hbz, rfl⟩ := ByteState.setPrice_ok.mp hset
      refine ⟨_, hs.putPrice ⟨m, o, price, expiry⟩ hk hbz, ?_⟩
      intro m' o'
      rw [rawPrice_putPrice, hlatest, Option.toList_some, latest_snoc]
  | setCurrentPrices now m =>
    rw [ByteState.call, ByteState.accepted, Option.toList_none, List.append_nil]
    rcases hs.setCurrentPrices now m with ⟨e, hb, _⟩ | ⟨err, b', s', hb, hs', href⟩
    · rw [hb]
      exact ⟨s, hs, hlatest⟩
    · rw [hb]
      refine ⟨s', href, ?_⟩
      intro m' o'
      rw [rawPrice_congr (rawPrices_setCurrentPrices hs'), hlatest]

theorem HoldsLatest.run (h : HoldsLatest cdc first b posts) (calls : List Call) :
    HoldsLatest cdc first (calls.foldl (ByteState.call cdc) b) (posts ++ b.history cdc calls) := by
  induction calls generalizing b posts with
  | nil =>
    rw [ByteState.history, List.append_nil]
    exact h
  | cons c calls ih =>
    rw [ByteState.history, ← List.append_assoc]
    exact ih (h.call c)

theorem HoldsLatest.getRawPrices (h : HoldsLatest cdc first b posts) {m : String} (hm : idFits m) :
    ∃ pps, b.getRawPrices cdc m = .ok pps ∧ (pps.map PostedPrice.oracleAddress).Nodup ∧
      ∀ pp, pp ∈ pps ↔ pp.marketID = m ∧ latest first posts m pp.oracleAddress = some pp := by
  obtain ⟨s, hs, hlatest⟩ := h
  refine ⟨rawPricesOf s m, ?_, ?_, ?_⟩
  · rw [hs.getRawPrices, getRawPrices_ok]
    exact ⟨hm, rfl⟩
  · apply (rawPricesOf_nodup s m).map_on
    intro pp hpp pp' hpp' ho
    rw [mem_rawPricesOf] at hpp hpp'
    rw [ho, hpp'] at hpp
    exact (Option.some.inj hpp).symm
  · intro pp
    rw [← hlatest, ← mem_rawPricesOf]
    constructor
    · intro hpp
      have hid := (List.mem_filter.mp hpp).2
      exact ⟨by simpa using hid, hpp⟩
    · intro hpp
      exact hpp.2

end

theorem holdsLatest_start (cdc : Codec) (p : ValidParams) :
    HoldsLatest cdc (startState p) ⟨p, .empty⟩ [] := by
  refine ⟨startState p, refines_start cdc p, ?_⟩
  intro m o
  rfl

/-- Identifiers and addresses of at most 255 bytes have keys that do not collide, and
after any calls a scan finds the latest accepted price of each oracle. -/
theorem rawPrices_do_not_collide (cdc : Codec) (p : ValidParams) (calls : List Call) :
    (∀ m m' o o', idFits m → idFits m' → o.length ≤ 255 → o'.length ≤ 255 → ∃ key k k',
      rawPriceIteratorKey m = .ok key ∧ rawPriceKey m o = .ok k ∧ rawPriceKey m' o' = .ok k' ∧
        (k = k' → m = m' ∧ o = o') ∧ (key <+: k' → m = m') ∧ ∀ n, k ≠ currentPriceKey n) ∧
      ∀ m, idFits m → ∃ pps,
        (calls.foldl (ByteState.call cdc) ⟨p, .empty⟩).getRawPrices cdc m = .ok pps ∧
        (pps.map PostedPrice.oracleAddress).Nodup ∧ ∀ pp, pp ∈ pps ↔
          pp.marketID = m ∧ latest (startState p) (ByteState.history cdc ⟨p, .empty⟩ calls) m
            pp.oracleAddress = some pp := by
  constructor
  · intro m m' o o' hm hm' ho ho'
    have hkey := rawPriceIteratorKey_ok.mpr ⟨hm, rfl⟩
    have hk := rawPriceKey_ok.mpr ⟨hm, ho, rfl⟩
    have hk' := rawPriceKey_ok.mpr ⟨hm', ho', rfl⟩
    refine ⟨_, _, _, hkey, hk, hk', ?_, ?_, rawPriceKey_ne_currentPriceKey hk⟩
    · intro e
      exact rawPriceKey_inj hk (e ▸ hk')
    · intro hprefix
      exact ((isPrefixOf_rawPriceKey hkey hk').mp (List.isPrefixOf_iff_prefix.mpr hprefix)).symm
  · intro m hm
    exact ((holdsLatest_start cdc p).run calls).getRawPrices hm

def unary {α : Type} [Encodable α] (a : α) : Bytes := List.replicate (Encodable.encode a) 0

def readUnary {α : Type} [Encodable α] (bz : Bytes) : Except Error α :=
  orReject (Encodable.decode bz.length) (.panic "unexpected EOF")

theorem readUnary_unary {α : Type} [Encodable α] (a : α) : readUnary (unary a) = .ok a := by
  rw [readUnary, unary, List.length_replicate, Encodable.encodek, orReject]

theorem ofList_map_toNat (s : String) :
    String.ofList ((s.toList.map Char.toNat).map Char.ofNat) = s := by
  rw [List.map_map, List.map_congr_left fun c _ => c.ofNat_toNat, List.map_id',
    String.ofList_toList]

instance encodableString : Encodable String :=
  Encodable.ofLeftInverse (fun s => s.toList.map Char.toNat)
    (fun l => String.ofList (l.map Char.ofNat)) ofList_map_toNat

instance encodablePostedPrice : Encodable PostedPrice :=
  Encodable.ofLeftInverse (fun pp => (pp.marketID, pp.oracleAddress, pp.price, pp.expiry))
    (fun t => ⟨t.1, t.2.1, t.2.2.1, t.2.2.2⟩) fun _ => rfl

instance encodableCurrentPrice : Encodable CurrentPrice :=
  Encodable.ofLeftInverse (fun cp => (cp.marketID, cp.price)) (fun t => ⟨t.1, t.2⟩) fun _ => rfl

theorem readUnary_of_ok (pp : PostedPrice) (bz : Bytes)
    (h : (.ok (unary pp) : Except Error Bytes) = .ok bz) :
    readUnary bz = .ok pp := by
  rw [← Except.ok.inj h, readUnary_unary]

def unaryCodec : Codec :=
  ⟨fun pp => .ok (unary pp), readUnary, unary, readUnary, readUnary_of_ok, readUnary_unary⟩

theorem latest_start (p : ValidParams) (m : String) (o : Addr) :
    latest (startState p) [] m o = none := by
  unfold latest rawPrice
  split
  · rfl
  · rfl

def postOf (now : Time) (pp : PostedPrice) : Call :=
  .setPrice now pp.oracleAddress pp.marketID pp.price pp.expiry

def btcFive : PostedPrice := ⟨"btc", [1], .ofUnits 5000000000000000000, 9000000000⟩

def btcUsdFive : PostedPrice := { btcFive with marketID := "btc:usd" }

def btcEight : PostedPrice := { btcFive with price := .ofUnits 8000000000000000000 }

/-- One oracle posts for two markets; the identifier of one is the start of the other's. -/
def nestedCalls : List Call :=
  [postOf 1000000000 btcFive, postOf 1000000000 btcUsdFive, postOf 2000000000 btcEight,
    .setCurrentPrices 2000000000 "btc:usd"]

theorem rawPrices_do_not_collide_nested :
    ∃ pps, (nestedCalls.foldl (ByteState.call unaryCodec) ⟨pairStart.params, .empty⟩).getRawPrices
      unaryCodec "btc" = .ok pps ∧
      ∀ pp, pp ∈ pps ↔ pp = btcEight := by
  obtain ⟨pps, hget, _, hmem⟩ :=
    (rawPrices_do_not_collide unaryCodec pairStart.params nestedCalls).2 "btc" (by decide)
  refine ⟨pps, hget, ?_⟩
  intro pp
  have hhistory : ByteState.history unaryCodec ⟨pairStart.params, .empty⟩ nestedCalls =
      [] ++ [btcFive] ++ [btcUsdFive] ++ [btcEight] := rfl
  rw [hmem, hhistory, latest_snoc, latest_snoc, latest_snoc]
  constructor
  · intro h
    by_cases ho : [1] = pp.oracleAddress
    · rw [if_pos ⟨rfl, ho⟩] at h
      exact (Option.some.inj h.2).symm
    · rw [if_neg fun e => ho e.2, if_neg fun e => ho e.2, if_neg fun e => ho e.2] at h
      rw [latest_start] at h
      cases h.2
  · intro h
    rw [h]
    exact ⟨rfl, rfl⟩

end ZgChain.Pricefeed
