import ZgChain.Pricefeed.Publish

/-!
# When the end blocker halts the chain

The end blocker reads the posted prices of every active market by a key that panics on
a long identifier, and it adds the two middle ones of an even number of prices. Neither
the checks of the parameters nor those of a message exclude the two panics.
-/

namespace ZgChain.Pricefeed

/-- In every state and at every time the end blocker returns exactly if the identifier
of each active market fits into a key and its middle prices can be averaged. -/
theorem endBlocker_returns_iff (now : Time) (s : State) : (∃ s', endBlocker now s = .ok s') ↔
    ∀ market ∈ s.params.markets, market.active = true →
      (strBytes market.marketID).length ≤ 255 ∧ Averages (livePrices now s market.marketID) :=
  foldlM_endBlockMarket_returns fun _ h => h

/-! ## Two runs that halt -/

def longMarket : Market := ⟨String.ofList (List.replicate 256 'a'), "btc", "usd", [], true⟩

theorem longMarket_valid : Params.validate ⟨[longMarket]⟩ = .ok () := by
  have hblank : ¬ isBlank longMarket.marketID = true := by
    have hall : (List.replicate 256 'a').all isSpace ≠ true := by
      rw [List.all_replicate]
      decide
    intro h
    rw [isBlank] at h
    exact hall ((congrArg (List.all · isSpace) String.toList_ofList).symm.trans h)
  have hmarket : longMarket.validate = .ok () := by
    rw [Market.validate, rejectIf_neg hblank, ok_bind]
    decide +kernel
  rw [Params.validate, Markets.validate, validateMarkets, rejectIf_neg List.not_mem_nil, ok_bind,
    hmarket]
  rfl

def pairMarket : Market := ⟨"btc:usd", "btc", "usd", [[1], [2]], true⟩

theorem pairMarket_valid : Params.validate ⟨[pairMarket]⟩ = .ok () := by decide +kernel

def pairEnv : Env :=
  ⟨fun text => if text = "oracle1" then some [1] else if text = "oracle2" then some [2] else none⟩

theorem largePrice_inRange : (Int.ofNat (2 ^ 314)).natAbs < 2 ^ maxDecBitLen := by decide +kernel

def largePosts : List Event :=
  [⟨1000000000, .postPrice ⟨"oracle1", "btc:usd", ⟨Int.ofNat (2 ^ 314), largePrice_inRange⟩,
    9000000000⟩⟩,
    ⟨1000000000, .postPrice ⟨"oracle2", "btc:usd", ⟨Int.ofNat (2 ^ 314), largePrice_inRange⟩,
      9000000000⟩⟩]

theorem endBlocker_halts :
    endBlocker 1000000000 (startState ⟨⟨[longMarket]⟩, longMarket_valid⟩) =
      .error (.panic "cannot length prefix more than 255 bytes with single byte") ∧
    (run pairEnv (startState ⟨⟨[pairMarket]⟩, pairMarket_valid⟩) largePosts >>=
      endBlocker 1000000000) =
      .error (.panic "Int overflow") := by
  decide +kernel

end ZgChain.Pricefeed
