import ZgChain.Migrate.PeriodicVesting

/-!
# The reset keeps what is locked

The loop over the periods computes the schedule that is started anew, as long as the
length of the first period that is left has 64 bits. What is pending after the new start
is then the same. Delegated coins are cut to what is pending at the new start, which no
later amount exceeds, so the locked coins are the same too.
-/

namespace ZgChain.Migrate

theorem toInt_add_of_bounds {a b : Int64} (hlow : -2 ^ 63 ≤ a.toInt + b.toInt)
    (hup : a.toInt + b.toInt < 2 ^ 63) :
    (a + b).toInt = a.toInt + b.toInt := by
  rw [Int64.toInt_add]
  exact Int.bmod_eq_of_le (by omega) (by omega)

theorem toInt_sub_of_bounds {a b : Int64} (hlow : -2 ^ 63 ≤ a.toInt - b.toInt)
    (hup : a.toInt - b.toInt < 2 ^ 63) :
    (a - b).toInt = a.toInt - b.toInt := by
  rw [Int64.toInt_sub]
  exact Int.bmod_eq_of_le (by omega) (by omega)

/-! ## The loop over the periods -/

section
variable {vacc : PeriodicVestingAccount} {newStartTime : Int64}

/-- What the loop has computed from the periods visited so far. -/
structure PeriodLoop.Tracks (vacc : PeriodicVestingAccount) (newStartTime : Int64)
    (visited : List Period) (l : PeriodLoop) : Prop where
  current : l.currentPeriod.toInt = vacc.startTime.toInt + duration (visited.map Period.entry)
  amounts : l.newPeriods.map Period.amount =
    (restart newStartTime.toInt vacc.startTime.toInt (visited.map Period.entry)).map Prod.snd
  original : ∀ d, l.newOriginalVesting.amountOf d =
    (l.newPeriods.map fun p => p.amount.amountOf d).sum
  lengths : (∀ e ∈ vacc.firstEndAfter newStartTime.toInt, e - newStartTime.toInt < 2 ^ 63) →
    l.newPeriods.map Period.entry = restart newStartTime.toInt vacc.startTime.toInt
      (visited.map Period.entry)

theorem entries_pos {ps : List Period} (h : ∀ p ∈ ps, 0 < p.length.toInt) :
    ∀ e ∈ ps.map Period.entry, 0 < e.1 := by
  intro e he
  obtain ⟨p, hp, rfl⟩ := List.mem_map.mp he
  exact h p hp

theorem sum_amounts_eq {l : PeriodLoop} {entries : List (Int × ValidCoins)}
    (h : l.newPeriods.map Period.amount = entries.map Prod.snd) (d : Denom) :
    (l.newPeriods.map fun p => p.amount.amountOf d).sum =
      (entries.map fun p => p.2.amountOf d).sum := by
  have hmap := congrArg (List.map fun amount : ValidCoins => amount.amountOf d) h
  rw [List.map_map, List.map_map] at hmap
  exact congrArg List.sum hmap

variable {visited rest : List Period} {p : Period} {l : PeriodLoop}

theorem PeriodicVestingAccount.WellFormed.split_pos (hw : vacc.WellFormed)
    (hall : vacc.vestingPeriods = visited ++ p :: rest) :
    (∀ e ∈ visited.map Period.entry, 0 < e.1) ∧ 0 < p.length.toInt ∧
    ∀ e ∈ rest.map Period.entry, 0 < e.1 := by
  have hlengths := hw.lengths
  rw [hall, List.forall_mem_append, List.forall_mem_cons] at hlengths
  exact ⟨entries_pos hlengths.1, hlengths.2.1, entries_pos hlengths.2.2⟩

/-- The sum of amounts that were original vesting amounts is not too large. -/
theorem PeriodLoop.Tracks.fits (h : l.Tracks vacc newStartTime visited) (hw : vacc.WellFormed)
    (hall : vacc.vestingPeriods = visited ++ p :: rest) (d : Denom) :
    l.newOriginalVesting.amountOf d + p.amount.amountOf d < 2 ^ maxIntBitLen := by
  have hpos := (hw.split_pos hall).1
  have hkept : l.newOriginalVesting.amountOf d ≤
      ((visited.map Period.entry).map fun q => q.2.amountOf d).sum := by
    rw [h.original, sum_amounts_eq h.amounts, sum_restart (fun a : ValidCoins => a.amountOf d) hpos]
    exact pendingAt_le _ fun a => a.amountOf_nonneg d
  have htotal := hw.original d
  have hrest : 0 ≤ ((rest.map Period.entry).map fun q => q.2.amountOf d).sum := by
    refine List.sum_nonneg fun n hn => ?_
    obtain ⟨q, _, rfl⟩ := List.mem_map.mp hn
    exact q.2.amountOf_nonneg d
  have hlt := vacc.originalVesting.amountOf_lt d
  rw [PeriodicVestingAccount.schedule, hall, List.map_append, List.map_cons, List.map_append,
    List.map_cons, List.sum_append, List.sum_cons] at htotal
  rw [Period.entry_snd] at htotal
  omega

/-- The end of the period is in 64 bits, as the end time is. -/
theorem PeriodLoop.Tracks.next (h : l.Tracks vacc newStartTime visited) (hw : vacc.WellFormed)
    (hall : vacc.vestingPeriods = visited ++ p :: rest) :
    (l.currentPeriod + p.length).toInt = vacc.startTime.toInt +
      duration (visited.map Period.entry) + p.length.toInt := by
  obtain ⟨hvisited, hp, hrest⟩ := hw.split_pos hall
  have hvisited := duration_nonneg hvisited
  have hrest := duration_nonneg hrest
  have hend := hw.endTime
  rw [PeriodicVestingAccount.schedule, hall, List.map_append, List.map_cons, duration_append,
    duration_cons, Period.entry_fst] at hend
  have hstart := vacc.startTime.le_toInt
  have hlt := vacc.endTime.toInt_lt
  rw [toInt_add_of_bounds, h.current]
  · rw [h.current]
    omega
  · rw [h.current]
    omega

theorem PeriodLoop.Tracks.nil_iff (h : l.Tracks vacc newStartTime visited) :
    l.newPeriods = [] ↔
    restart newStartTime.toInt vacc.startTime.toInt (visited.map Period.entry) = [] := by
  rw [← List.map_eq_nil_iff (f := Period.amount), h.amounts, List.map_eq_nil_iff]

theorem firstEndAfter_of_restart (hall : vacc.vestingPeriods = visited ++ p :: rest)
    (hnone : restart newStartTime.toInt vacc.startTime.toInt (visited.map Period.entry) = [])
    (hlt : newStartTime.toInt < vacc.startTime.toInt + duration (visited.map Period.entry) +
      p.length.toInt) :
    vacc.firstEndAfter newStartTime.toInt =
      some (vacc.startTime.toInt + duration (visited.map Period.entry) + p.length.toInt) := by
  have hhead := head_restart newStartTime.toInt vacc.startTime.toInt vacc.schedule
  rw [PeriodicVestingAccount.schedule, hall, List.map_append, List.map_cons, restart_append,
    if_pos hnone, restart, Period.entry_fst, if_pos hlt] at hhead
  rw [PeriodicVestingAccount.firstEndAfter, PeriodicVestingAccount.schedule, hall, List.map_append,
    List.map_cons]
  cases hfind : (timeline vacc.startTime.toInt
    (visited.map Period.entry ++ p.entry :: rest.map Period.entry)).find?
      fun e => newStartTime.toInt < e.1 with
  | none =>
    rw [hfind] at hhead
    cases hhead
  | some e =>
    rw [hfind] at hhead
    simp only [List.head?_cons, Option.map_some, Option.some.injEq, Prod.mk.injEq] at hhead ⊢
    omega

theorem duration_snoc : duration ((visited ++ [p]).map Period.entry) =
    duration (visited.map Period.entry) + p.length.toInt := by
  rw [List.map_append, duration_append, List.map_singleton, duration_cons, duration_nil, add_zero,
    Period.entry_fst]

section
variable (h : l.Tracks vacc newStartTime visited) (hw : vacc.WellFormed)
  (hall : vacc.vestingPeriods = visited ++ p :: rest)
include h hw hall

theorem PeriodLoop.Tracks.current_snoc : (l.currentPeriod + p.length).toInt =
    vacc.startTime.toInt + duration ((visited ++ [p]).map Period.entry) := by
  rw [h.next hw hall, duration_snoc, add_assoc]

theorem PeriodLoop.Tracks.ended (hlt : ¬ newStartTime < l.currentPeriod + p.length) :
    PeriodLoop.Tracks vacc newStartTime (visited ++ [p])
      { l with currentPeriod := l.currentPeriod + p.length } := by
  have hend : ¬ newStartTime.toInt < (l.currentPeriod + p.length).toInt :=
    mt Int64.lt_iff_toInt_lt.mpr hlt
  obtain ⟨hvisited, hp, _⟩ := hw.split_pos hall
  rw [h.next hw hall] at hend
  have hnone : restart newStartTime.toInt vacc.startTime.toInt (visited.map Period.entry) = [] :=
    restart_of_le hvisited (by omega)
  have hrestart : restart newStartTime.toInt vacc.startTime.toInt
      ((visited ++ [p]).map Period.entry) = [] := by
    rw [List.map_append, restart_append, if_pos hnone, List.map_singleton, restart,
      Period.entry_fst, if_neg hend]
    rfl
  refine ⟨h.current_snoc hw hall, ?_, h.original, fun _ => ?_⟩
  · rw [hrestart, h.nil_iff.mpr hnone]
    rfl
  · rw [hrestart, h.nil_iff.mpr hnone]
    rfl

theorem PeriodLoop.Tracks.first (hnil : l.newPeriods = [])
    (hlt : newStartTime < l.currentPeriod + p.length)
    {sum : ValidCoins} (hsum : l.newOriginalVesting.add p.amount = some sum) :
    PeriodLoop.Tracks vacc newStartTime (visited ++ [p])
      ⟨l.currentPeriod + p.length, sum,
        [⟨l.currentPeriod + p.length - newStartTime, p.amount⟩]⟩ := by
  have hnext := h.next hw hall
  have hend := Int64.lt_iff_toInt_lt.mp hlt
  have hnone := h.nil_iff.mp hnil
  rw [hnext] at hend
  have hrestart : restart newStartTime.toInt vacc.startTime.toInt
      ((visited ++ [p]).map Period.entry) =
      [((l.currentPeriod + p.length).toInt - newStartTime.toInt, p.amount)] := by
    rw [List.map_append, restart_append, if_pos hnone, List.map_singleton, restart,
      Period.entry_fst, if_pos hend, hnext, Period.entry_snd]
  refine ⟨h.current_snoc hw hall, ?_, fun d => ?_, fun hfirst => ?_⟩
  · rw [hrestart]
    rfl
  · have hzero := h.original d
    rw [hnil, List.map_nil, List.sum_nil] at hzero
    rw [ValidCoins.amountOf_of_add hsum, hzero]
    simp
  · have hbound := hfirst _ (firstEndAfter_of_restart hall hnone hend)
    rw [hrestart, List.map_singleton, Period.entry, toInt_sub_of_bounds]
    · rw [hnext]
      omega
    · rw [hnext]
      exact hbound

theorem PeriodLoop.Tracks.later (hne : l.newPeriods ≠ []) {sum : ValidCoins}
    (hsum : l.newOriginalVesting.add p.amount = some sum) :
    PeriodLoop.Tracks vacc newStartTime (visited ++ [p])
      ⟨l.currentPeriod + p.length, sum, l.newPeriods ++ [p]⟩ := by
  have hrestart : restart newStartTime.toInt vacc.startTime.toInt
      ((visited ++ [p]).map Period.entry) =
      restart newStartTime.toInt vacc.startTime.toInt (visited.map Period.entry) ++ [p.entry] := by
    rw [List.map_append, restart_append, if_neg (mt h.nil_iff.mpr hne), List.map_singleton]
  refine ⟨h.current_snoc hw hall, ?_, fun d => ?_, fun hfirst => ?_⟩
  · rw [hrestart, List.map_append, List.map_append, h.amounts]
    rfl
  · rw [ValidCoins.amountOf_of_add hsum, h.original]
    simp
  · rw [hrestart, List.map_append, h.lengths hfirst]
    rfl

theorem resetPeriod_tracks :
    ∃ l', resetPeriod newStartTime l p = some l' ∧
      l'.Tracks vacc newStartTime (visited ++ [p]) := by
  obtain ⟨sum, hsum⟩ := ValidCoins.add_isSome.mpr (h.fits hw hall)
  unfold resetPeriod
  by_cases hlt : newStartTime < l.currentPeriod + p.length
  · by_cases hnil : l.newPeriods = []
    · exact ⟨_, by simp [hlt, hnil, hsum], h.first hw hall hnil hlt hsum⟩
    · exact ⟨_, by simp [hlt, hnil, hsum], h.later hw hall hnil hsum⟩
  · exact ⟨_, by simp [hlt], h.ended hw hall hlt⟩

end

theorem resetPeriods_tracks (hw : vacc.WellFormed) (hall : vacc.vestingPeriods = visited ++ rest)
    (h : l.Tracks vacc newStartTime visited) :
    ∃ l', rest.foldlM (resetPeriod newStartTime) l = some l' ∧
      l'.Tracks vacc newStartTime vacc.vestingPeriods := by
  induction rest generalizing visited l with
  | nil =>
    rw [List.append_nil] at hall
    exact ⟨l, rfl, hall ▸ h⟩
  | cons p rest ih =>
    obtain ⟨l₁, h₁, htracks⟩ := resetPeriod_tracks h hw hall
    obtain ⟨l', h', hl'⟩ := ih (by rw [hall, List.append_assoc, List.singleton_append]) htracks
    refine ⟨l', ?_, hl'⟩
    rw [List.foldlM_cons, h₁]
    exact h'

theorem tracks_start (vacc : PeriodicVestingAccount) (newStartTime : Int64) :
    PeriodLoop.Tracks vacc newStartTime [] ⟨vacc.startTime, .empty, []⟩ :=
  ⟨(add_zero _).symm, rfl, fun _ => rfl, fun _ => rfl⟩

end

/-! ## The loop over the delegated coins -/

def excess (newOriginalVesting : ValidCoins) (c : Coin) : Coin :=
  ⟨c.denom, c.amount - min c.amount (newOriginalVesting.amountOf c.denom)⟩

section
variable {newOriginalVesting : ValidCoins} {acc acc' : Delegated} {c : Coin} {cs : Coins}

theorem excess_nonneg (newOriginalVesting : ValidCoins) (c : Coin) :
    0 ≤ (excess newOriginalVesting c).amount :=
  Int.sub_nonneg_of_le (min_le_left _ _)

theorem adjustDelegation_eq (hd : validateDenom c.denom = true) (hc : 0 ≤ c.amount) :
    adjustDelegation newOriginalVesting acc c =
      if (excess newOriginalVesting c).amount = 0 then some acc
      else do
        let adjustment ← ValidCoins.ofCoin (excess newOriginalVesting c)
        let vesting ← acc.vesting.sub adjustment
        let free ← acc.free.add adjustment
        return ⟨vesting, free⟩ := by
  have hmin : 0 ≤ min c.amount (newOriginalVesting.amountOf c.denom) :=
    le_min hc (newOriginalVesting.amountOf_nonneg c.denom)
  have hnew : newCoin c.denom (min c.amount (newOriginalVesting.amountOf c.denom)) =
      some ⟨c.denom, min c.amount (newOriginalVesting.amountOf c.denom)⟩ := by
    simp [newCoin, Coin.isValid, hd, hmin]
  have hsub : c.sub ⟨c.denom, min c.amount (newOriginalVesting.amountOf c.denom)⟩ =
      some (excess newOriginalVesting c) := by
    rw [Coin.sub, if_pos ⟨rfl, excess_nonneg newOriginalVesting c⟩]
    rfl
  unfold adjustDelegation
  rw [hnew, Option.bind_eq_bind, Option.bind_some, hsub, Option.bind_eq_bind, Option.bind_some]
  rfl

theorem adjustDelegation_spec (hd : validateDenom c.denom = true) (hc : 0 ≤ c.amount)
    (h : adjustDelegation newOriginalVesting acc c = some acc') (d : Denom) :
    acc'.vesting.amountOf d = acc.vesting.amountOf d - Coins.amountOf
      [excess newOriginalVesting c] d ∧
      acc'.free.amountOf d = acc.free.amountOf d +
        Coins.amountOf [excess newOriginalVesting c] d := by
  rw [adjustDelegation_eq hd hc] at h
  by_cases hzero : (excess newOriginalVesting c).amount = 0
  · rw [if_pos hzero, Option.some.injEq] at h
    subst h
    simp [hzero]
  · rw [if_neg hzero] at h
    simp only [Option.bind_eq_bind, Option.bind_eq_some_iff, Option.pure_def,
      Option.some.injEq] at h
    obtain ⟨adjustment, hadj, vesting, hv, free, hf, rfl⟩ := h
    have hone : adjustment.amountOf d = Coins.amountOf [excess newOriginalVesting c] d := by
      rw [ValidCoins.amountOf, (ValidCoins.ofCoin_eq_some.mp hadj).1]
    rw [← hone]
    exact ⟨ValidCoins.amountOf_of_sub hv d, ValidCoins.amountOf_of_add hf d⟩

theorem adjustDelegation_isSome (hd : validateDenom c.denom = true) (hc : 0 ≤ c.amount)
    (hlt : c.amount < 2 ^ maxIntBitLen)
    (hv : ∀ d, Coins.amountOf [excess newOriginalVesting c] d ≤ acc.vesting.amountOf d)
    (hf : ∀ d, acc.free.amountOf d + Coins.amountOf [excess newOriginalVesting c] d <
      2 ^ maxIntBitLen) :
    ∃ acc', adjustDelegation newOriginalVesting acc c = some acc' := by
  rw [adjustDelegation_eq hd hc]
  by_cases hzero : (excess newOriginalVesting c).amount = 0
  · rw [if_pos hzero]
    exact ⟨acc, rfl⟩
  · have hpos : 0 < (excess newOriginalVesting c).amount :=
      lt_of_le_of_ne (excess_nonneg newOriginalVesting c) (Ne.symm hzero)
    have hle : (excess newOriginalVesting c).amount ≤ c.amount :=
      Int.sub_le_self _ (le_min hc (newOriginalVesting.amountOf_nonneg c.denom))
    have hvalid : Coins.isValid [excess newOriginalVesting c] = true :=
      (isValid_singleton _).mpr ⟨hd, hpos⟩
    have hrange : ∀ x ∈ [excess newOriginalVesting c], x.amount < 2 ^ maxIntBitLen := by
      simpa using lt_of_le_of_lt hle hlt
    have hone : ValidCoins.ofCoin (excess newOriginalVesting c) =
        some ⟨[excess newOriginalVesting c], hvalid, hrange⟩ :=
      ValidCoins.ofCoin_eq_some.mpr ⟨rfl, hd, hpos, lt_of_le_of_lt hle hlt⟩
    obtain ⟨vesting, hv⟩ :=
      ValidCoins.sub_isSome (a := acc.vesting)
        (b := ⟨[excess newOriginalVesting c], hvalid, hrange⟩) hv
    obtain ⟨free, hf⟩ :=
      ValidCoins.add_isSome (a := acc.free)
        (b := ⟨[excess newOriginalVesting c], hvalid, hrange⟩).mpr hf
    rw [if_neg hzero, hone]
    simp [hv, hf]

theorem adjustDelegations_spec (hcs : ∀ c ∈ cs, validateDenom c.denom = true ∧ 0 ≤ c.amount)
    (h : cs.foldlM (adjustDelegation newOriginalVesting) acc = some acc') (d : Denom) :
    acc'.vesting.amountOf d = acc.vesting.amountOf d - Coins.amountOf
      (cs.map (excess newOriginalVesting)) d ∧
      acc'.free.amountOf d = acc.free.amountOf d +
        Coins.amountOf (cs.map (excess newOriginalVesting)) d := by
  induction cs generalizing acc with
  | nil =>
    cases h
    simp
  | cons c cs ih =>
    obtain ⟨hc, hcs⟩ := List.forall_mem_cons.mp hcs
    rw [List.foldlM_cons] at h
    simp only [Option.bind_eq_bind, Option.bind_eq_some_iff] at h
    obtain ⟨acc₁, h₁, h⟩ := h
    obtain ⟨hv₁, hf₁⟩ := adjustDelegation_spec hc.1 hc.2 h₁ d
    obtain ⟨hv, hf⟩ := ih hcs h
    rw [amountOf_cons, amountOf_nil] at hv₁ hf₁
    rw [List.map_cons, amountOf_cons]
    omega

theorem adjustDelegations_isSome
    (hcs : ∀ c ∈ cs, validateDenom c.denom = true ∧ 0 ≤ c.amount ∧ c.amount < 2 ^ maxIntBitLen)
    (hv : ∀ d, Coins.amountOf (cs.map (excess newOriginalVesting)) d ≤ acc.vesting.amountOf d)
    (hf : ∀ d, acc.free.amountOf d + Coins.amountOf (cs.map (excess newOriginalVesting)) d <
      2 ^ maxIntBitLen) :
    ∃ acc', cs.foldlM (adjustDelegation newOriginalVesting) acc = some acc' := by
  induction cs generalizing acc with
  | nil => exact ⟨acc, rfl⟩
  | cons c cs ih =>
    obtain ⟨⟨hd, hnonneg, hlt⟩, hcs⟩ := List.forall_mem_cons.mp hcs
    have hone : ∀ d, Coins.amountOf ((c :: cs).map (excess newOriginalVesting)) d =
        Coins.amountOf [excess newOriginalVesting c] d +
          Coins.amountOf (cs.map (excess newOriginalVesting)) d := by
      intro d
      rw [List.map_cons, ← List.singleton_append, amountOf_append]
    have hrest : ∀ d, 0 ≤ Coins.amountOf (cs.map (excess newOriginalVesting)) d := by
      refine amountOf_nonneg fun x hx => ?_
      obtain ⟨y, _, rfl⟩ := List.mem_map.mp hx
      exact excess_nonneg newOriginalVesting y
    simp only [hone] at hv hf
    -- the bounds for all coins bound the first one, and what is left of them the others
    have hvone : ∀ d, Coins.amountOf [excess newOriginalVesting c] d ≤ acc.vesting.amountOf d := by
      intro d
      have hvd := hv d
      have hrestd := hrest d
      omega
    have hfone : ∀ d, acc.free.amountOf d + Coins.amountOf [excess newOriginalVesting c] d <
        2 ^ maxIntBitLen := by
      intro d
      have hfd := hf d
      have hrestd := hrest d
      omega
    obtain ⟨acc₁, h₁⟩ := adjustDelegation_isSome hd hnonneg hlt hvone hfone
    have hspec := adjustDelegation_spec hd hnonneg h₁
    have hvrest : ∀ d, Coins.amountOf (cs.map (excess newOriginalVesting)) d ≤
        acc₁.vesting.amountOf d := by
      intro d
      rw [(hspec d).1]
      exact Int.le_sub_left_of_add_le (hv d)
    have hfrest : ∀ d,
        acc₁.free.amountOf d + Coins.amountOf (cs.map (excess newOriginalVesting)) d <
          2 ^ maxIntBitLen := by
      intro d
      rw [(hspec d).2, add_assoc]
      exact hf d
    obtain ⟨acc', h'⟩ := ih hcs hvrest hfrest
    refine ⟨acc', ?_⟩
    rw [List.foldlM_cons, h₁]
    exact h'

/-- Of a denom there is one coin. -/
theorem amountOf_excess (a newOriginalVesting : ValidCoins) (d : Denom) :
    Coins.amountOf (a.coins.map (excess newOriginalVesting)) d =
      a.amountOf d - min (a.amountOf d) (newOriginalVesting.amountOf d) := by
  by_cases hd : ∃ c ∈ a.coins, c.denom = d
  · obtain ⟨c, hc, rfl⟩ := hd
    have hsorted : (a.coins.map (excess newOriginalVesting)).Pairwise fun x y =>
        x.denom < y.denom :=
      List.pairwise_map.mpr a.sorted.1
    have hexcess := amountOf_mem hsorted (List.mem_map_of_mem hc)
    rw [ValidCoins.amountOf, amountOf_mem a.sorted.1 hc]
    exact hexcess
  · have hnone : ∀ c ∈ a.coins, c.denom ≠ d := fun c hc he => hd ⟨c, hc, he⟩
    have hzero : a.amountOf d = 0 := amountOf_eq_zero hnone
    rw [hzero, min_eq_left (newOriginalVesting.amountOf_nonneg d), sub_zero]
    refine amountOf_eq_zero fun x hx => ?_
    obtain ⟨c, hc, rfl⟩ := List.mem_map.mp hx
    exact hnone c hc

end

/-! ## The account -/

namespace PeriodicVestingAccount

variable {vacc vacc' : PeriodicVestingAccount} {newStartTime : Int64} {t : Int} {d : Denom}

theorem vestingCoins_eq
    (h : vacc.originalVesting.amountOf d = (vacc.schedule.map fun p => p.2.amountOf d).sum) :
    vacc.vestingCoins t d = pendingAt (fun amount => amount.amountOf d) vacc.startTime.toInt
      vacc.schedule t := by
  have hsum := endedAt_add_pendingAt (fun amount : ValidCoins => amount.amountOf d)
    vacc.startTime.toInt t vacc.schedule
  rw [vestingCoins, vestedCoins, h, ← hsum]
  exact add_sub_cancel_left _ _

structure Resets (vacc : PeriodicVestingAccount) (newStartTime : Int64)
    (vacc' : PeriodicVestingAccount) : Prop where
  startTime : vacc'.startTime = newStartTime
  endTime : vacc'.endTime = if vacc.endTime ≤ newStartTime then newStartTime else vacc.endTime
  original : ∀ d, vacc'.originalVesting.amountOf d =
    (vacc'.schedule.map fun p => p.2.amountOf d).sum
  pending : ∀ d, vacc'.originalVesting.amountOf d = vacc.vestingCoins newStartTime.toInt d
  delegated : ∀ d, vacc'.delegatedVesting.amountOf d =
    min (vacc.delegatedVesting.amountOf d) (vacc'.originalVesting.amountOf d)
  free : ∀ d, vacc'.delegatedVesting.amountOf d + vacc'.delegatedFree.amountOf d =
    vacc.delegatedVesting.amountOf d + vacc.delegatedFree.amountOf d
  periods : (∀ e ∈ vacc.firstEndAfter newStartTime.toInt, e - newStartTime.toInt < 2 ^ 63) →
    vacc'.schedule = restart newStartTime.toInt vacc.startTime.toInt vacc.schedule

end PeriodicVestingAccount

section
variable {vacc vacc' : PeriodicVestingAccount} {newStartTime : Int64}

theorem reset_periods (hw : vacc.WellFormed) (newStartTime : Int64) : ∃ l : PeriodLoop,
    l.Tracks vacc newStartTime vacc.vestingPeriods ∧
      (∀ d, l.newOriginalVesting.amountOf d = vacc.vestingCoins newStartTime.toInt d) ∧
      resetPeriodicVestingAccount vacc newStartTime = (vacc.delegatedVesting.coins.foldlM
        (adjustDelegation l.newOriginalVesting) ⟨vacc.delegatedVesting, vacc.delegatedFree⟩).map
          fun acc =>
          ⟨newStartTime, if vacc.endTime ≤ newStartTime then newStartTime else vacc.endTime,
            l.newOriginalVesting,
            acc.free, acc.vesting, l.newPeriods⟩ := by
  obtain ⟨l, hl, htracks⟩ :=
    resetPeriods_tracks hw (List.nil_append _).symm (tracks_start vacc newStartTime)
  refine ⟨l, htracks, fun d => ?_, ?_⟩
  · rw [PeriodicVestingAccount.vestingCoins_eq (hw.original d), htracks.original,
      sum_amounts_eq htracks.amounts]
    exact sum_restart (fun amount : ValidCoins => amount.amountOf d) (entries_pos hw.lengths)
  · rw [resetPeriodicVestingAccount, hl, Option.bind_eq_bind, Option.bind_some]
    cases vacc.delegatedVesting.coins.foldlM (adjustDelegation l.newOriginalVesting)
        ⟨vacc.delegatedVesting, vacc.delegatedFree⟩ with
    | none => rfl
    | some acc => rfl

theorem delegated_valid (a : ValidCoins) :
    ∀ c ∈ a.coins, validateDenom c.denom = true ∧ 0 ≤ c.amount ∧ c.amount < 2 ^ maxIntBitLen :=
  fun c hc => ⟨a.denom_valid c hc, (amount_pos_of_isValid a.valid c hc).le, a.inRange c hc⟩

theorem reset_spec (hw : vacc.WellFormed)
    (h : resetPeriodicVestingAccount vacc newStartTime = some vacc') :
    vacc.Resets newStartTime vacc' := by
  obtain ⟨l, htracks, hpending, hreset⟩ := reset_periods hw newStartTime
  rw [hreset, Option.map_eq_some_iff] at h
  obtain ⟨acc, hacc, rfl⟩ := h
  have hspec := adjustDelegations_spec
    (fun c hc => ⟨(delegated_valid _ c hc).1, (delegated_valid _ c hc).2.1⟩) hacc
  simp only [amountOf_excess] at hspec
  have hsum : ∀ d, (l.newPeriods.map fun p => p.amount.amountOf d).sum =
      ((l.newPeriods.map Period.entry).map fun p => p.2.amountOf d).sum := by
    intro d
    rw [List.map_map]
    rfl
  refine ⟨rfl, rfl, fun d => (htracks.original d).trans (hsum d), hpending, fun d => ?_,
    fun d => ?_, htracks.lengths⟩
  · have hv := (hspec d).1
    simp only
    omega
  · have hv := (hspec d).1
    have hf := (hspec d).2
    simp only
    omega

theorem reset_isSome (hw : vacc.WellFormed) (newStartTime : Int64) :
    (∃ vacc', resetPeriodicVestingAccount vacc newStartTime = some vacc') ↔
    ∀ d, vacc.delegatedFree.amountOf d +
      max 0 (vacc.delegatedVesting.amountOf d - vacc.vestingCoins newStartTime.toInt d) <
        2 ^ maxIntBitLen := by
  constructor
  · rintro ⟨vacc', h⟩ d
    have hspec := reset_spec hw h
    have hdelegated := hspec.delegated d
    have hfree := hspec.free d
    have hlt := vacc'.delegatedFree.amountOf_lt d
    rw [hspec.pending] at hdelegated
    omega
  · intro hfits
    obtain ⟨l, _, hpending, hreset⟩ := reset_periods hw newStartTime
    have hreturns : ∃ acc, vacc.delegatedVesting.coins.foldlM
        (adjustDelegation l.newOriginalVesting)
        ⟨vacc.delegatedVesting, vacc.delegatedFree⟩ = some acc := by
      apply adjustDelegations_isSome (delegated_valid vacc.delegatedVesting)
      · intro d
        rw [amountOf_excess]
        exact Int.sub_le_self _
          (le_min (vacc.delegatedVesting.amountOf_nonneg d)
            (l.newOriginalVesting.amountOf_nonneg d))
      · intro d
        have hd := hfits d
        rw [amountOf_excess, hpending]
        simp only
        omega
    obtain ⟨acc, hacc⟩ := hreturns
    rw [hreset, hacc]
    exact ⟨_, rfl⟩

end

section
variable {vacc vacc' : PeriodicVestingAccount} {newStartTime : Int64}
  (h : vacc.Resets newStartTime vacc')
  (hw : vacc.WellFormed)
    (hfirst : ∀ e ∈ vacc.firstEndAfter newStartTime.toInt, e - newStartTime.toInt < 2 ^ 63)
include h hw hfirst

theorem PeriodicVestingAccount.Resets.vestingCoins_eq {t : Int} (ht : newStartTime.toInt ≤ t)
    (d : Denom) :
    vacc'.vestingCoins t d = vacc.vestingCoins t d := by
  rw [PeriodicVestingAccount.vestingCoins_eq (h.original d), PeriodicVestingAccount.vestingCoins_eq
    (hw.original d),
    h.startTime, h.periods hfirst]
  exact pendingAt_restart _ (entries_pos hw.lengths) ht

/-- What is vesting at a later time does not exceed what is vesting at the new start. -/
theorem PeriodicVestingAccount.Resets.lockedCoins_eq {t : Int} (ht : newStartTime.toInt ≤ t)
    (d : Denom) :
    vacc'.lockedCoins t d = vacc.lockedCoins t d := by
  have hvesting := h.vestingCoins_eq hw hfirst ht d
  have hle : vacc'.vestingCoins t d ≤ vacc'.originalVesting.amountOf d := by
    rw [PeriodicVestingAccount.vestingCoins_eq (h.original d), h.original d]
    exact pendingAt_le _ fun a => a.amountOf_nonneg d
  have hdelegated := h.delegated d
  rw [PeriodicVestingAccount.lockedCoins, PeriodicVestingAccount.lockedCoins, ← hvesting]
  omega

theorem PeriodicVestingAccount.Resets.endTime_eq
    (hne : vacc.vestingPeriods ≠ [] ∨ vacc.startTime ≤ newStartTime) :
    vacc'.endTime.toInt = newStartTime.toInt + duration vacc'.schedule := by
  have hend := hw.endTime
  rw [h.endTime, h.periods hfirst]
  by_cases hle : vacc.endTime ≤ newStartTime
  · have hle' := Int64.le_iff_toInt_le.mp hle
    have hnone : restart newStartTime.toInt vacc.startTime.toInt vacc.schedule = [] :=
      restart_of_le (entries_pos hw.lengths) (hend ▸ hle')
    rw [if_pos hle, hnone, duration_nil, add_zero]
  · have hlt : newStartTime.toInt < vacc.startTime.toInt + duration vacc.schedule := by
      rw [← hend]
      exact not_le.mp (mt Int64.le_iff_toInt_le.mpr hle)
    have hperiods : vacc.schedule ≠ [] := by
      intro hnil
      rw [hnil, duration_nil, add_zero] at hlt
      rcases hne with hne | hstart
      · exact hne (List.map_eq_nil_iff.mp hnil)
      · exact absurd (Int64.le_iff_toInt_le.mp hstart) (not_le.mpr hlt)
    rw [if_neg hle, duration_restart (restart_ne_nil hperiods hlt), hend]

end

/-- The reset returns unless the delegated coins that become free are too many for an
integer. Then the original vesting amount is that of the periods, the delegated coins are
the same in total, those that are vesting do not exceed the original vesting amount, and, if
the first end after the new start is less than `2 ^ 63` seconds away, the vesting and the
locked coins are the same from the new start on. The end time is the end of the last period,
if there are periods or the new start is not earlier. -/
theorem reset_keeps_locked (vacc : PeriodicVestingAccount) (hw : vacc.WellFormed)
    (newStartTime : Int64) :
    ((∃ vacc', resetPeriodicVestingAccount vacc newStartTime = some vacc') ↔
      ∀ d, vacc.delegatedFree.amountOf d +
        max 0 (vacc.delegatedVesting.amountOf d - vacc.vestingCoins newStartTime.toInt d) <
          2 ^ maxIntBitLen) ∧
      ∀ vacc', resetPeriodicVestingAccount vacc newStartTime = some vacc' →
        vacc'.startTime = newStartTime ∧
        (∀ d, vacc'.originalVesting.amountOf d = (vacc'.schedule.map fun p => p.2.amountOf d).sum ∧
          vacc'.delegatedVesting.amountOf d + vacc'.delegatedFree.amountOf d =
            vacc.delegatedVesting.amountOf d + vacc.delegatedFree.amountOf d ∧
          vacc'.delegatedVesting.amountOf d ≤ vacc'.originalVesting.amountOf d) ∧
        ((∀ e ∈ vacc.firstEndAfter newStartTime.toInt, e - newStartTime.toInt < 2 ^ 63) →
          (∀ t d, newStartTime.toInt ≤ t → vacc'.vestingCoins t d = vacc.vestingCoins t d ∧
            vacc'.lockedCoins t d = vacc.lockedCoins t d) ∧
          (vacc.vestingPeriods ≠ [] ∨ vacc.startTime ≤ newStartTime →
            vacc'.endTime.toInt = newStartTime.toInt + duration vacc'.schedule)) := by
  refine ⟨reset_isSome hw newStartTime, fun vacc' h => ?_⟩
  have hreset := reset_spec hw h
  refine ⟨hreset.startTime, fun d => ⟨hreset.original d, hreset.free d, ?_⟩,
    fun hfirst => ⟨fun t d ht => ?_, ?_⟩⟩
  · rw [hreset.delegated]
    exact min_le_right _ _
  · exact ⟨hreset.vestingCoins_eq hw hfirst ht d, hreset.lockedCoins_eq hw hfirst ht d⟩
  · exact hreset.endTime_eq hw hfirst

/-! Accounts with coins of one denom. -/

section
variable {n : Nat} (h : 0 < n ∧ n < 2 ^ maxIntBitLen)
include h

theorem abcCoins_valid : Coins.isValid [⟨"abc", n⟩] = true := by
  have hdenom : validateDenom "abc" = true := by decide
  rw [isValid_singleton]
  exact ⟨hdenom, by simpa using h.1⟩

theorem abcCoins_inRange : ∀ c ∈ ([⟨"abc", n⟩] : Coins), c.amount < 2 ^ maxIntBitLen := by
  intro c hc
  have hlt : (n : Int) < 2 ^ maxIntBitLen := by exact_mod_cast h.2
  rw [List.mem_singleton.mp hc]
  exact hlt

end

def abcCoins (n : Nat) : ValidCoins :=
  if h : 0 < n ∧ n < 2 ^ maxIntBitLen then ⟨[⟨"abc", n⟩], abcCoins_valid h, abcCoins_inRange h⟩
  else .empty

theorem amountOf_abcCoins {n : Nat} (h : 0 < n ∧ n < 2 ^ maxIntBitLen) (d : Denom) :
    (abcCoins n).amountOf d = if "abc" = d then (n : Int) else 0 := by
  simp [abcCoins, h, ValidCoins.amountOf]

def vestingAccount : PeriodicVestingAccount where
  startTime := 100
  endTime := 130
  originalVesting := abcCoins 12
  delegatedFree := .empty
  delegatedVesting := abcCoins 12
  vestingPeriods := [⟨10, abcCoins 5⟩, ⟨20, abcCoins 7⟩]

theorem vestingAccount_wellFormed : vestingAccount.WellFormed := by
  refine ⟨?_, fun d => ?_, rfl⟩
  · simp [vestingAccount]
  · simp (disch := decide) only [vestingAccount, PeriodicVestingAccount.schedule, List.map_cons,
      List.map_nil,
      List.sum_cons, List.sum_nil, Period.entry_snd, amountOf_abcCoins]
    split <;> simp

theorem reset_keeps_locked_in_second_period :
    ∃ vacc', resetPeriodicVestingAccount vestingAccount 115 = some vacc' ∧
      vacc'.lockedCoins 120 "abc" = vestingAccount.lockedCoins 120 "abc" := by
  obtain ⟨_, hkeeps⟩ := reset_keeps_locked vestingAccount vestingAccount_wellFormed 115
  cases hreset : resetPeriodicVestingAccount vestingAccount 115 with
  | none =>
    have hsome : (resetPeriodicVestingAccount vestingAccount 115).isSome = true := by decide +kernel
    rw [hreset] at hsome
    cases hsome
  | some vacc' =>
    obtain ⟨_, _, hlocked⟩ := hkeeps vacc' hreset
    have hfirst : ∀ e ∈ vestingAccount.firstEndAfter (115 : Int64).toInt, e - (115 : Int64).toInt <
        2 ^ 63 := by
      decide +kernel
    exact ⟨vacc', rfl, ((hlocked hfirst).1 120 "abc" (by decide)).2⟩

def emptyAccount : PeriodicVestingAccount := ⟨100, 100, .empty, .empty, .empty, []⟩

/-- One period; all coins are delegated, and as many other coins as there can be. -/
def fullAccount : PeriodicVestingAccount where
  startTime := 0
  endTime := 10
  originalVesting := abcCoins 5
  delegatedFree := abcCoins (2 ^ maxIntBitLen - 1)
  delegatedVesting := abcCoins 5
  vestingPeriods := [⟨10, abcCoins 5⟩]

theorem emptyAccount_wellFormed : emptyAccount.WellFormed := by
  refine ⟨?_, fun d => rfl, rfl⟩
  simp [emptyAccount]

theorem fullAccount_wellFormed : fullAccount.WellFormed := by
  refine ⟨?_, fun d => ?_, rfl⟩
  · simp [fullAccount]
  · simp [fullAccount, PeriodicVestingAccount.schedule]

/-- An account without periods that is started earlier keeps its end time; a start `2 ^ 63`
seconds before the end of a period makes its length negative, so that it has ended; and
there is a sum of delegated coins that panics. -/
theorem reset_exceptions :
    (emptyAccount.WellFormed ∧ (resetPeriodicVestingAccount emptyAccount 50).map (fun vacc =>
        (vacc.endTime.toInt, vacc.startTime.toInt + duration vacc.schedule)) = some (100, 50)) ∧
      fullAccount.WellFormed ∧ fullAccount.vestingCoins (-5) "abc" = 5 ∧
      (resetPeriodicVestingAccount fullAccount Int64.minValue).map
        (fun vacc => vacc.vestingCoins (-5) "abc") = some 0 ∧
      (resetPeriodicVestingAccount fullAccount 10).isNone = true := by
  refine ⟨⟨emptyAccount_wellFormed, ?_⟩, fullAccount_wellFormed, ?_, ?_, ?_⟩
  · decide +kernel
  · decide +kernel
  · decide +kernel
  · decide +kernel

end ZgChain.Migrate
