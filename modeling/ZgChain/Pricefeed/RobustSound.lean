import ZgChain.Pricefeed.Publish

/-!
# Robustness of the median

The median of some prices is the same in every order, it does not fall when prices
rise, and it is in every interval that more than half of the prices are in. The mean
of two middle prices is rounded, and the rounding does not leave the interval. What the
code adds is a sum that may be too large for a decimal.
-/

namespace ZgChain.Pricefeed

/-! ## The median of a list of prices -/

section
variable {prices prices' : List StoredDec} {d d' : Dec}

theorem medianPrice_eq_some : medianPrice prices = some d ↔
    ∃ a b, lowerMiddle prices = some a ∧ upperMiddle prices = some b ∧
      Dec.quo (a.val + b.val) (newDec 2) = d := by
  unfold medianPrice
  cases lowerMiddle prices <;> cases upperMiddle prices <;> simp [bind, Option.bind, pure]

theorem medianPrice_mono (h : List.Forall₂ (· ≤ ·) prices prices')
    (hd : medianPrice prices = some d) (hd' : medianPrice prices' = some d') : d ≤ d' := by
  obtain ⟨a, b, ha, hb, rfl⟩ := medianPrice_eq_some.mp hd
  obtain ⟨a', b', ha', hb', rfl⟩ := medianPrice_eq_some.mp hd'
  rw [lowerMiddle, ← h.length_eq] at ha'
  rw [upperMiddle, ← h.length_eq] at hb'
  have hlow : a.val ≤ a'.val := ascending_mono h ha ha'
  have hup : b.val ≤ b'.val := ascending_mono h hb hb'
  exact quo_mono (by decide) (Int.add_le_add hlow hup)

theorem medianPrice_of_majority {lo hi : Dec}
    (h : prices.length < 2 * prices.countP fun x => decide (lo ≤ x.val) && decide (x.val ≤ hi))
    (hd : medianPrice prices = some d) : lo ≤ d ∧ d ≤ hi := by
  have hp : ∀ a b : StoredDec, a ≤ b → decide (lo ≤ a.val) = true → decide (lo ≤ b.val) = true := by
    intro a b hab ha
    exact decide_eq_true ((of_decide_eq_true ha).trans hab)
  have hq : ∀ a b : StoredDec, a ≤ b → decide (b.val ≤ hi) = true → decide (a.val ≤ hi) = true := by
    intro a b hab hb
    exact decide_eq_true (le_trans hab (of_decide_eq_true hb))
  obtain ⟨a, b, ha, hb, rfl⟩ := medianPrice_eq_some.mp hd
  have hlow := lowerMiddle_of_majority hp hq h ha
  have hup := upperMiddle_of_majority hp hq h hb
  simp only [decide_eq_true_eq] at hlow hup
  exact quo_two_between hlow hup

end

/-! ## The code's median -/

section
variable {cps cps' : List CurrentPrice}

theorem calculateMedianPrice_perm (h : cps'.Perm cps) :
    calculateMedianPrice cps' = calculateMedianPrice cps := by
  have hmap := h.map CurrentPrice.price
  unfold calculateMedianPrice
  rw [ascending_of_perm hmap, h.length_eq]
  by_cases hone : cps.length = 1
  · -- a list of one price has no other order
    obtain ⟨c, rfl⟩ := List.length_eq_one_iff.mp hone
    rw [List.perm_singleton.mp h]
  · rw [if_neg hone, if_neg hone]

theorem calculateMedianPrice_returns (hne : cps ≠ []) :
    (∃ d, calculateMedianPrice cps = .ok d) ↔ Averages (cps.map CurrentPrice.price) := by
  simp only [calculateMedianPrice_ok hne]
  constructor
  · rintro ⟨_, h, _⟩
    exact h
  · intro h
    obtain ⟨d, hd⟩ := exists_medianPrice (by simpa using hne) h
    exact ⟨d, h, hd⟩

/-- For every list of prices: the median is the same in every order of them, it does not
fall when prices rise, it is in every interval that more than half of the prices are in, and
it is computed unless the two middle prices of an even number have a sum that is too large
for a decimal. -/
theorem median_robust (cps : List CurrentPrice) (hne : cps ≠ []) :
    (∀ cps', cps'.Perm cps → calculateMedianPrice cps' = calculateMedianPrice cps) ∧
      (∀ cps', List.Forall₂ (fun c c' => c.price ≤ c'.price) cps cps' →
        ∀ d d', calculateMedianPrice cps = .ok d → calculateMedianPrice cps' = .ok d' → d ≤ d') ∧
      (∀ lo hi : Dec, cps.length < 2 * cps.countP (fun c => lo ≤ c.price.val && c.price.val ≤ hi) →
        ∀ d, calculateMedianPrice cps = .ok d → lo ≤ d.val ∧ d.val ≤ hi) ∧
      ((∃ d, calculateMedianPrice cps = .ok d) ↔ Averages (cps.map CurrentPrice.price)) := by
  refine ⟨fun _ => calculateMedianPrice_perm, ?_, ?_, calculateMedianPrice_returns hne⟩
  · intro cps' h d d' hd hd'
    have hne' : cps' ≠ [] := by
      rintro rfl
      cases h
      exact hne rfl
    rw [calculateMedianPrice_ok hne] at hd
    rw [calculateMedianPrice_ok hne'] at hd'
    refine medianPrice_mono ?_ hd.2 hd'.2
    rwa [List.forall₂_map_left_iff, List.forall₂_map_right_iff]
  · intro lo hi h d hd
    rw [calculateMedianPrice_ok hne] at hd
    refine medianPrice_of_majority ?_ hd.2
    rwa [List.length_map, List.countP_map]

end

theorem median_robust_three :
    calculateMedianPrice [⟨"", .ofUnits 3⟩, .empty, ⟨"", .ofUnits 3⟩] = .ok (.ofUnits 3) ∧
      3 ≤ (StoredDec.ofUnits 3).val := by
  have hrobust := median_robust [⟨"", .ofUnits 3⟩, .empty, ⟨"", .ofUnits 3⟩] (by decide)
  have hmedian : calculateMedianPrice [⟨"", .ofUnits 3⟩, .empty, ⟨"", .ofUnits 3⟩] =
      .ok (.ofUnits 3) := by decide
  exact ⟨hmedian, (hrobust.2.2.1 3 3 (by decide) _ hmedian).1⟩

theorem largestHalf_inRange : (2 ^ 314 : Dec).natAbs < 2 ^ maxDecBitLen := by decide +kernel

/-- Two equal prices are in the interval that has only them, and they have no mean. -/
theorem median_of_two_overflows :
    [⟨"", ⟨2 ^ 314, largestHalf_inRange⟩⟩, ⟨"", ⟨2 ^ 314, largestHalf_inRange⟩⟩].all
        (fun c : CurrentPrice => (2 : Int) ^ 314 ≤ c.price.val && c.price.val ≤ (2 : Int) ^ 314) =
          true ∧
      calculateMedianPrice
        [⟨"", ⟨2 ^ 314, largestHalf_inRange⟩⟩, ⟨"", ⟨2 ^ 314, largestHalf_inRange⟩⟩] =
        .error intOverflow := by
  decide +kernel

end ZgChain.Pricefeed
