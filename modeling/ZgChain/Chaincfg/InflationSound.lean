import ZgChain.Chaincfg.Mint

/-!
# The shape of the inflation curve

With the exact value `c` of the exponential function at the upper limit, the curve starts
at its upper target and reaches the lower target at the upper limit. The operations round
three times on the way, so the lower target is missed by less than two units of the last
place. All that is used of the exponential function are its order and its bounds.
-/

namespace ZgChain.Chaincfg

/-! ## Rounding -/

/-- The bounds of the three roundings add up: `m` is the weighted target, `q` the quotient,
`d` the asymptote and `e` what is added to it. -/
theorem rounding_errors {c m q d e : Int} (hc : 0 ≤ c) (hthird : 3 * c ≤ 1000000000000000000)
    (hm : (2 * m - 1) * 1000000000000000000 ≤ 2 * (150000000000000000 * c))
    (hq : (50000000000000000 - m) * (1000000000000000000 * 1000000000000000000) < (q + 1) *
      (1000000000000000000 - c))
    (hd : 2 * q ≤ (2 * d + 1) * 1000000000000000000)
    (he : 2 * ((150000000000000000 - d) * c) ≤ (2 * e + 1) * 1000000000000000000) :
    50000000000000000 - 1 ≤ d + e := by
  have hscaled : 2 * q * (1000000000000000000 - c) ≤ (2 * d + 1) * 1000000000000000000 *
      (1000000000000000000 - c) :=
    mul_le_mul_of_nonneg_right hd (by omega)
  by_contra hlt
  have hle : d + e ≤ 50000000000000000 - 2 := by omega
  linarith

section
variable {c : Int} (hc : 0 ≤ c) (hthird : 3 * c ≤ decPrecision)
include hc hthird

theorem weighted_bounds : 0 ≤ Dec.mul ymax.val c ∧ Dec.mul ymax.val c ≤ ymin.val := by
  have hp : decPrecision = 1000000000000000000 := rfl
  refine ⟨mul_nonneg_dec (by decide) hc, ?_⟩
  have hround : Dec.mul ymax.val c ≤ Dec.roundInt (newDec ymin.val) := by
    refine roundInt_mono ?_
    change (150000000000000000 : Int) * c ≤ 50000000000000000 * decPrecision
    omega
  rwa [roundInt_newDec] at hround

theorem quotient_bounds : ∃ q : Int, Dec.quo (ymin.val - Dec.mul ymax.val c : Int)
      (decPrecision - c : Int) = Dec.roundInt q ∧
    0 ≤ q ∧ q * (decPrecision - c) ≤ (ymin.val - Dec.mul ymax.val c) *
      (decPrecision * decPrecision) ∧
    (ymin.val - Dec.mul ymax.val c) * (decPrecision * decPrecision) < (q + 1) *
      (decPrecision - c) := by
  have hp : decPrecision = 1000000000000000000 := rfl
  have hpos : 0 < decPrecision - c := by omega
  have hnum : 0 ≤ (ymin.val - Dec.mul ymax.val c) * (decPrecision * decPrecision) :=
    mul_nonneg (Int.sub_nonneg_of_le (weighted_bounds hc hthird).2) (by decide)
  refine ⟨_, rfl, Int.tdiv_nonneg hnum hpos.le, ?_, ?_⟩
  · rw [Int.tdiv_eq_ediv_of_nonneg hnum]
    exact Int.ediv_mul_le _ hpos.ne'
  · rw [Int.tdiv_eq_ediv_of_nonneg hnum]
    exact Int.lt_ediv_add_one_mul_self _ hpos

theorem asymptote_bounds :
    0 ≤ Dec.quo (ymin.val - Dec.mul ymax.val c : Int) (decPrecision - c : Int) ∧
      Dec.quo (ymin.val - Dec.mul ymax.val c : Int) (decPrecision - c : Int) ≤ ymax.val := by
  have hp : decPrecision = 1000000000000000000 := rfl
  have hmin : ymin.val = 50000000000000000 := rfl
  have hmax : ymax.val = 150000000000000000 := rfl
  obtain ⟨hm, _⟩ := weighted_bounds hc hthird
  obtain ⟨q, hq, hq0, hqle, _⟩ := quotient_bounds hc hthird
  rw [hq]
  refine ⟨roundInt_nonneg hq0, ?_⟩
  have hqmax : q ≤ newDec ymax.val := by
    have hpos : 0 < decPrecision - c := by omega
    refine le_of_mul_le_mul_right (le_trans hqle ?_) hpos
    generalize Dec.mul ymax.val c = m at hm
    rw [newDec, hmin, hmax, hp]
    have hm' : (0 : Int) ≤ m := hm
    have hthird' : 3 * c ≤ 1000000000000000000 := hthird
    linarith
  rw [← roundInt_newDec ymax.val]
  exact roundInt_mono hqmax

/-- At the upper limit the curve is less than two units below its lower target. -/
theorem upper_limit_bound :
    ymin.val - 1 ≤ Dec.quo (ymin.val - Dec.mul ymax.val c : Int) (decPrecision - c : Int) +
      Dec.mul (ymax.val - Dec.quo (ymin.val - Dec.mul ymax.val c : Int) (decPrecision - c : Int) :
        Int) c := by
  obtain ⟨q, hq, _, _, hqlt⟩ := quotient_bounds hc hthird
  have hm := (roundInt_bounds (ymax.val * c)).2
  have hd := (roundInt_bounds q).1
  rw [hq]
  have he := (roundInt_bounds ((ymax.val - Dec.roundInt q) * c)).1
  exact rounding_errors hc hthird hm hqlt hd he

end

/-! ## The exponential function -/

def minusEight : StoredDec := (StoredDec.ofUnits 8000000000000000000).neg

/-- What is assumed of the exponential function on exponents that are not positive. -/
structure ExpLaws (decExp : StoredDec → StoredDec) : Prop where
  mono : ∀ x y, x.val ≤ y.val → y.val ≤ 0 → (decExp x).val ≤ (decExp y).val
  nonneg : ∀ x, x.val ≤ 0 → 0 ≤ (decExp x).val
  le_one : ∀ x, x.val ≤ 0 → (decExp x).val ≤ oneDec.val
  zero : decExp .zero = oneDec
  third : 3 * (decExp minusEight).val ≤ oneDec.val

theorem decay_mul (x : Int) : Dec.mul decayRate.neg.val x = -10 * x := by
  have hten : decayRate.neg.val = newDec (-10) := by decide
  rw [hten, newDec_mul]

section
variable {decExp : StoredDec → StoredDec} (h : ExpLaws decExp)
include h

theorem asymptote_spec : ∃ d : StoredDec, asymptote decExp = some d ∧ 0 ≤ d.val ∧ d.val ≤ ymax.val ∧
    ymin.val - 1 ≤ d.val + Dec.mul (ymax.val - d.val : Int) (decExp minusEight).val := by
  have hneg : minusEight.val ≤ 0 := by decide
  have hc := h.nonneg minusEight hneg
  have hthird : 3 * (decExp minusEight).val ≤ decPrecision := h.third
  obtain ⟨hm0, hmle⟩ := weighted_bounds hc hthird
  obtain ⟨hd0, hdle⟩ := asymptote_bounds hc hthird
  have hd : (Dec.quo (ymin.val - Dec.mul ymax.val (decExp minusEight).val : Int)
      (decPrecision - (decExp minusEight).val : Int)).natAbs < 2 ^ maxDecBitLen :=
    inRange_of_between (a := .zero) (b := ymax) hd0 hdle
  have hnum : (ymin.val - Dec.mul ymax.val (decExp minusEight).val : Int).natAbs <
      2 ^ maxDecBitLen :=
    inRange_of_between (a := .zero) (b := ymin) (Int.sub_nonneg_of_le hmle) (Int.sub_le_self _ hm0)
  have hden : (oneDec.val - (decExp minusEight).val : Int).natAbs < 2 ^ maxDecBitLen :=
    inRange_of_between (a := .zero) (b := oneDec) (Int.sub_nonneg_of_le (h.le_one minusEight hneg))
      (Int.sub_le_self _ hc)
  have hmul : (Dec.mul ymax.val (decExp minusEight).val).natAbs < 2 ^ maxDecBitLen :=
    inRange_of_between (a := .zero) (b := ymin) hm0 hmle
  refine ⟨⟨_, hd⟩, ?_, hd0, hdle, upper_limit_bound hc hthird⟩
  have hspan : xmax.sub xmin = some (.ofUnits 800000000000000000) := storedDec_eq_some.mpr rfl
  have hexp : decayRate.neg.mul (.ofUnits 800000000000000000) = some minusEight :=
    storedDec_eq_some.mpr rfl
  have hweighted : ymax.mul (decExp minusEight) = some ⟨_, hmul⟩ := storedDec_eq_some.mpr rfl
  have hsub : ymin.sub ⟨_, hmul⟩ = some ⟨_, hnum⟩ := storedDec_eq_some.mpr rfl
  have hone : oneDec.sub (decExp minusEight) = some ⟨_, hden⟩ := storedDec_eq_some.mpr rfl
  have hpos : ∀ c : Int, 3 * c ≤ 1000000000000000000 → 1000000000000000000 - c ≠ 0 := by
    intro c hc
    omega
  have hne : (oneDec.val - (decExp minusEight).val : Int) ≠ 0 := hpos _ hthird
  have hquo : StoredDec.quo ⟨_, hnum⟩ (oneDec.val - (decExp minusEight).val : Int) =
      some ⟨_, hd⟩ := by
    rw [StoredDec.quo, if_neg hne]
    exact storedDec_eq_some.mpr rfl
  simp only [asymptote, hspan, hexp, hweighted, hsub, hone, hquo, Option.bind_eq_bind,
    Option.bind_some]

end

/-! ## The curve -/

theorem mul_oneDec (x : Dec) : Dec.mul x oneDec.val = x := by
  have hone : oneDec.val = newDec 1 := rfl
  rw [hone, mul_newDec, mul_one]

section
variable {d c : Int} (hd : 0 ≤ d ∧ d ≤ ymax.val) (hc : 0 ≤ c ∧ c ≤ oneDec.val)
include hd hc

theorem curve_bounds : d ≤ d + Dec.mul (ymax.val - d : Int) c ∧ d + Dec.mul (ymax.val - d : Int) c ≤
      ymax.val := by
  have hrange : 0 ≤ (ymax.val - d : Int) := Int.sub_nonneg_of_le hd.2
  have hnonneg : 0 ≤ Dec.mul (ymax.val - d : Int) c := mul_nonneg_dec hrange hc.1
  have hle := mul_le_mul_dec hrange hc.2
  rw [mul_oneDec] at hle
  exact ⟨le_add_of_nonneg_right hnonneg, le_sub_iff_add_le'.mp hle⟩

end

def Rates (decExp : StoredDec → StoredDec) (d X a : StoredDec) : Prop :=
  (X.val < xmin.val ∧ a = ymax) ∨
  (xmin.val ≤ X.val ∧ ∃ x : StoredDec, x.val = -10 * (X.val - xmin.val) ∧
    a.val = d.val + Dec.mul (ymax.val - d.val : Int) (decExp x).val)

section
variable {decExp : StoredDec → StoredDec} (h : ExpLaws decExp)
include h

theorem exp_bounds {X x : StoredDec} (hX : xmin.val ≤ X.val)
    (hx : x.val = -10 * (X.val - xmin.val)) :
    x.val ≤ 0 ∧ 0 ≤ (decExp x).val ∧ (decExp x).val ≤ oneDec.val := by
  have hneg : x.val ≤ 0 := by
    rw [hx]
    exact Int.mul_nonpos_of_nonpos_of_nonneg (by decide) (Int.sub_nonneg_of_le hX)
  exact ⟨hneg, h.nonneg x hneg, h.le_one x hneg⟩

theorem Rates.eq_ymax {d X a : StoredDec} (hr : Rates decExp d X a) (hX : X.val ≤ xmin.val) :
    a = ymax := by
  rcases hr with ⟨_, rfl⟩ | ⟨hge, x, hx, ha⟩
  · rfl
  · have hzero : x = .zero := by
      rw [Subtype.ext_iff, hx, le_antisymm hX hge, sub_self, mul_zero]
      rfl
    rw [Subtype.ext_iff, ha, hzero, h.zero, mul_oneDec]
    exact add_sub_cancel d.val ymax.val

variable {d : StoredDec} (hd : asymptote decExp = some d)
  {bondedRatio circulatingRatio a : StoredDec}
include hd

theorem asymptote_range : 0 ≤ d.val ∧ d.val ≤ ymax.val ∧
    ymin.val - 1 ≤ d.val + Dec.mul (ymax.val - d.val : Int) (decExp minusEight).val := by
  obtain ⟨d', hd', hspec⟩ := asymptote_spec h
  rw [hd, Option.some.injEq] at hd'
  rwa [hd']

theorem apy_eq_some : apy decExp bondedRatio circulatingRatio = some a ↔
    ∃ X, bondedRatio.quo circulatingRatio.val = some X ∧ Rates decExp d X a := by
  obtain ⟨hd0, hdle, _⟩ := asymptote_range h hd
  simp only [apy, Option.bind_eq_bind, Option.bind_eq_some_iff, hd, Option.bind_some]
  refine exists_congr fun X => and_congr_right fun _ => ?_
  unfold Rates
  by_cases hX : X.val < xmin.val
  · rw [if_pos hX]
    simp only [hX, not_le.mpr hX, true_and, false_and, or_false, Option.pure_def, Option.some.injEq]
    exact eq_comm
  · have hge := not_lt.mp hX
    rw [if_neg hX]
    simp only [hX, hge, false_and, true_and, false_or, StoredDec.sub, StoredDec.mul, StoredDec.add,
      Option.bind_eq_some_iff, storedDec_eq_some, decay_mul]
    constructor
    · rintro ⟨excess, hexcess, x, hx, range, hrange, e, he, ha⟩
      refine ⟨x, by rw [hx, hexcess], ?_⟩
      rw [ha, he, hrange]
    · rintro ⟨x, hx, ha⟩
      obtain ⟨_, hc⟩ := exp_bounds h hge hx
      have hcurve := curve_bounds ⟨hd0, hdle⟩ hc
      have hexcess : (X.val - xmin.val : Int).natAbs < 2 ^ maxDecBitLen :=
        inRange_of_between (a := .zero) (b := X) (Int.sub_nonneg_of_le hge)
          (Int.sub_le_self _ (by decide))
      have hrange : (ymax.val - d.val : Int).natAbs < 2 ^ maxDecBitLen :=
        inRange_of_between (a := .zero) (b := ymax) (Int.sub_nonneg_of_le hdle)
          (Int.sub_le_self _ hd0)
      have he : (Dec.mul (ymax.val - d.val : Int) (decExp x).val).natAbs < 2 ^ maxDecBitLen := by
        refine inRange_of_between (a := .zero) (b := ymax)
          (mul_nonneg_dec (Int.sub_nonneg_of_le hdle) hc.1) ?_
        exact le_trans (le_add_of_nonneg_left hd0) hcurve.2
      exact ⟨⟨_, hexcess⟩, rfl, x, hx, ⟨_, hrange⟩, rfl, ⟨_, he⟩, rfl, ha⟩

theorem exists_rates {X : StoredDec} : (∃ a, Rates decExp d X a) ↔
    X.val < xmin.val ∨ (10 * (X.val - xmin.val) : Int).natAbs < 2 ^ maxDecBitLen := by
  obtain ⟨hd0, hdle, _⟩ := asymptote_range h hd
  have hneg : ∀ n : Int, (-10 * n).natAbs = (10 * n).natAbs := by
    intro n
    omega
  by_cases hX : X.val < xmin.val
  · exact ⟨fun _ => .inl hX, fun _ => ⟨ymax, .inl ⟨hX, rfl⟩⟩⟩
  · have hge := not_lt.mp hX
    constructor
    · rintro ⟨a, ⟨hlt, _⟩ | ⟨_, x, hx, _⟩⟩
      · exact .inl hlt
      · have hfits := x.property
        rw [hx, hneg] at hfits
        exact .inr hfits
    · intro hfits
      have hx : (-10 * (X.val - xmin.val) : Int).natAbs < 2 ^ maxDecBitLen := by
        rw [hneg]
        exact hfits.resolve_left hX
      obtain ⟨_, hc⟩ := exp_bounds h (x := ⟨_, hx⟩) hge rfl
      have hcurve := curve_bounds ⟨hd0, hdle⟩ hc
      have ha := inRange_of_between (a := .zero) (b := ymax) (le_trans hd0 hcurve.1) hcurve.2
      exact ⟨⟨_, ha⟩, .inr ⟨hge, ⟨_, hx⟩, rfl, rfl⟩⟩

theorem Rates.bounds {X : StoredDec} (hr : Rates decExp d X a) : 0 ≤ a.val ∧ a.val ≤ ymax.val := by
  obtain ⟨hd0, hdle, _⟩ := asymptote_range h hd
  rcases hr with ⟨_, rfl⟩ | ⟨hge, x, hx, ha⟩
  · exact ⟨by decide, le_rfl⟩
  · obtain ⟨_, hc⟩ := exp_bounds h hge hx
    have hcurve := curve_bounds ⟨hd0, hdle⟩ hc
    rw [ha]
    exact ⟨le_trans hd0 hcurve.1, hcurve.2⟩

theorem Rates.ymin_le {X : StoredDec} (hr : Rates decExp d X a) (hlow : xmin.val ≤ X.val)
    (hup : X.val ≤ xmax.val) :
    ymin.val - 2 ≤ a.val := by
  obtain ⟨_, hdle, hlimit⟩ := asymptote_range h hd
  rcases hr with ⟨hlt, _⟩ | ⟨hge, x, hx, ha⟩
  · exact absurd hlow (not_le.mpr hlt)
  · obtain ⟨hneg, _⟩ := exp_bounds h hge hx
    have hexp : minusEight.val ≤ x.val := by
      have hscale : ∀ n : Int, n ≤ 1000000000000000000 →
          -8000000000000000000 ≤ -10 * (n - 200000000000000000) := by
        intro n hn
        omega
      rw [hx]
      exact hscale X.val hup
    have hmul := mul_le_mul_dec (Int.sub_nonneg_of_le hdle) (h.mono minusEight x hexp hneg)
    rw [ha]
    calc ymin.val - 2 ≤ ymin.val - 1 := Int.sub_le_sub_left (by decide) _
      _ ≤ d.val + Dec.mul (ymax.val - d.val : Int) (decExp minusEight).val := hlimit
      _ ≤ d.val + Dec.mul (ymax.val - d.val : Int) (decExp x).val := Int.add_le_add_left hmul _

theorem Rates.anti {X X' a' : StoredDec} (hr : Rates decExp d X a) (hr' : Rates decExp d X' a')
    (hX : X.val ≤ X'.val) :
    a'.val ≤ a.val := by
  have hbound := (hr'.bounds h hd).2
  obtain ⟨_, hdle, _⟩ := asymptote_range h hd
  rcases hr with ⟨_, rfl⟩ | ⟨hge, x, hx, ha⟩
  · exact hbound
  · rcases hr' with ⟨hlt, _⟩ | ⟨_, x', hx', ha'⟩
    · exact absurd (le_trans hge hX) (not_le.mpr hlt)
    · obtain ⟨hneg, _⟩ := exp_bounds h hge hx
      have hle : x'.val ≤ x.val := by
        rw [hx, hx']
        exact Int.mul_le_mul_of_nonpos_left (by decide) (Int.sub_le_sub_right hX _)
      rw [ha, ha']
      exact Int.add_le_add_left
        (mul_le_mul_dec (Int.sub_nonneg_of_le hdle) (h.mono x' x hle hneg)) _

end

/-! ## The inflation rate -/

theorem mul_le_of_rate {a b : StoredDec} (hb : 0 ≤ b.val) (ha : 0 ≤ a.val ∧ a.val ≤ ymax.val) :
    0 ≤ Dec.mul a.val b.val ∧ Dec.mul a.val b.val ≤ Dec.mul ymax.val b.val ∧
    Dec.mul ymax.val b.val ≤ b.val := by
  refine ⟨mul_nonneg_dec ha.1 hb, ?_, ?_⟩
  · rw [mul_comm_dec, mul_comm_dec ymax.val]
    exact mul_le_mul_dec hb ha.2
  · have hle := mul_le_mul_dec hb (show ymax.val ≤ oneDec.val by decide)
    rwa [mul_comm_dec, mul_oneDec] at hle

/-- The inflation rate is computed unless the staked part or ten times its excess is too
large for a decimal. The rate of the stakers is then the upper target up to the lower limit,
falls with the staked part, is never negative nor above the upper target, and up to the
upper limit it is less than two units below the lower target. The inflation rate is at most
the upper target times the bonded ratio. -/
theorem inflation_curve (decExp : StoredDec → StoredDec) (h : ExpLaws decExp)
    (bondedRatio circulatingRatio : StoredDec) (hb : 0 ≤ bondedRatio.val) :
    ((∃ r, nextInflationRate decExp bondedRatio circulatingRatio = some r) ↔
        ∃ X, bondedRatio.quo circulatingRatio.val = some X ∧
          (X.val < xmin.val ∨ (10 * (X.val - xmin.val) : Int).natAbs < 2 ^ maxDecBitLen)) ∧
      ∀ r, nextInflationRate decExp bondedRatio circulatingRatio = some r →
        ∃ X a, bondedRatio.quo circulatingRatio.val = some X ∧
          apy decExp bondedRatio circulatingRatio = some a ∧
          (X.val ≤ xmin.val → a = ymax) ∧ 0 ≤ a.val ∧ a.val ≤ ymax.val ∧
          (xmin.val ≤ X.val → X.val ≤ xmax.val → ymin.val - 2 ≤ a.val) ∧
          (∀ bondedRatio' circulatingRatio' X' a',
            bondedRatio'.quo circulatingRatio'.val = some X' →
            apy decExp bondedRatio' circulatingRatio' = some a' → X.val ≤ X'.val → a'.val ≤ a.val) ∧
          r.val = Dec.mul a.val bondedRatio.val ∧ r.val ≤ Dec.mul ymax.val bondedRatio.val := by
  obtain ⟨d, hd, _⟩ := asymptote_spec h
  -- both parts are about the rate as a relation, so the overflows are split off first
  have hrate : ∀ r, nextInflationRate decExp bondedRatio circulatingRatio = some r ↔
      ∃ X a, bondedRatio.quo circulatingRatio.val = some X ∧ Rates decExp d X a ∧
      r.val = Dec.mul a.val bondedRatio.val := by
    intro r
    simp only [nextInflationRate, Option.bind_eq_bind, Option.bind_eq_some_iff, apy_eq_some h hd,
      StoredDec.mul, storedDec_eq_some]
    constructor
    · rintro ⟨a, ⟨X, hX, hr⟩, hmul⟩
      exact ⟨X, a, hX, hr, hmul⟩
    · rintro ⟨X, a, hX, hr, hmul⟩
      exact ⟨a, ⟨X, hX, hr⟩, hmul⟩
  constructor
  · simp only [hrate]
    constructor
    · rintro ⟨r, X, a, hX, hr, _⟩
      exact ⟨X, hX, (exists_rates h hd).mp ⟨a, hr⟩⟩
    · rintro ⟨X, hX, hfits⟩
      obtain ⟨a, hr⟩ := (exists_rates h hd).mpr hfits
      obtain ⟨hnonneg, hle, hbonded⟩ := mul_le_of_rate hb (hr.bounds h hd)
      have hr' := inRange_of_between (a := .zero) (b := bondedRatio) hnonneg (le_trans hle hbonded)
      exact ⟨⟨_, hr'⟩, X, a, hX, hr, rfl⟩
  · intro r hr
    obtain ⟨X, a, hX, hr, hmul⟩ := (hrate r).mp hr
    obtain ⟨hnonneg, hle⟩ := hr.bounds h hd
    refine ⟨X, a, hX, (apy_eq_some h hd).mpr ⟨X, hX, hr⟩, hr.eq_ymax h, hnonneg, hle,
      hr.ymin_le h hd, ?_, hmul, ?_⟩
    · intro bondedRatio' circulatingRatio' X' a' hX' ha' hXX
      obtain ⟨Y, hY, hr'⟩ := (apy_eq_some h hd).mp ha'
      rw [hX', Option.some.injEq] at hY
      subst hY
      exact hr.anti h hd hr' hXX
    · rw [hmul]
      exact (mul_le_of_rate hb ⟨hnonneg, hle⟩).2.1

/-- A function that has the values of the exponential function, to 18 decimals, at -8, -3 and 0. -/
def tabulatedExp (x : StoredDec) : StoredDec :=
  if newDec 0 ≤ x.val then oneDec
  else if newDec (-3) ≤ x.val then .ofUnits 49787068367863943
  else if newDec (-8) ≤ x.val then .ofUnits 335462627902512
  else .zero

theorem tabulatedExp_mono {x y : StoredDec} (h : x.val ≤ y.val) :
    (tabulatedExp x).val ≤ (tabulatedExp y).val := by
  have hthreshold : ∀ {t : Dec}, t ≤ x.val → ¬ t ≤ y.val → False := fun hx hy => hy (le_trans hx h)
  unfold tabulatedExp
  split_ifs
  all_goals first
    | decide
    | exact (hthreshold ‹_› ‹_›).elim

theorem tabulatedExp_laws : ExpLaws tabulatedExp := by
  refine ⟨fun x y h _ => tabulatedExp_mono h, fun x _ => ?_, fun x _ => ?_, by decide, by decide⟩
  · unfold tabulatedExp
    split_ifs <;> decide
  · unfold tabulatedExp
    split_ifs <;> decide

theorem inflation_curve_half :
    ∃ r, nextInflationRate tabulatedExp (.ofUnits 500000000000000000) oneDec = some r ∧
      r.val ≤ 75000000000000000 := by
  obtain ⟨_, hcurve⟩ := inflation_curve tabulatedExp tabulatedExp_laws (.ofUnits 500000000000000000)
    oneDec (by decide)
  cases hrate : nextInflationRate tabulatedExp (.ofUnits 500000000000000000) oneDec with
  | none =>
    have hsome : (nextInflationRate tabulatedExp (.ofUnits 500000000000000000) oneDec).isSome =
        true := by decide +kernel
    rw [hrate] at hsome
    cases hsome
  | some r =>
    obtain ⟨_, _, _, _, _, _, _, _, _, _, hle⟩ := hcurve r hrate
    exact ⟨r, rfl, hle⟩

theorem largeRatio_inRange : ((2 : Int) ^ 300).natAbs < 2 ^ maxDecBitLen := by decide +kernel

/-- The quotient of a large bonded ratio and a small circulating ratio is too large. -/
theorem inflation_rate_overflows :
    ExpLaws tabulatedExp ∧ 0 < (StoredDec.ofUnits 1).val ∧
      nextInflationRate tabulatedExp ⟨2 ^ 300, largeRatio_inRange⟩ (.ofUnits 1) = none :=
  ⟨tabulatedExp_laws, by decide, by decide +kernel⟩

end ZgChain.Chaincfg
