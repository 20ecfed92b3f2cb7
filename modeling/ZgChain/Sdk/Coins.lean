import ZgChain.Sdk.Types

/-!
# Sums and differences of coins

Valid coins are added denom by denom. A sum that is zero is left out, one that is too
large for an integer of the framework makes the code panic, and so does a difference
that is negative.
-/

namespace ZgChain

def maxIntBitLen : Nat := 256

def Coins.addCoin (c : Coin) : Coins → Coins
  | [] => newCoins c
  | a :: cs =>
    if c.denom < a.denom then newCoins c ++ a :: cs
    else if a.denom < c.denom then a :: Coins.addCoin c cs
    else newCoins ⟨a.denom, a.amount + c.amount⟩ ++ cs

def Coins.safeAdd (cs cs' : Coins) : Coins := cs'.foldl (fun cs c => cs.addCoin c) cs

def Coins.negative (cs : Coins) : Coins := cs.map fun c => ⟨c.denom, -c.amount⟩

/-! ## Amounts -/

section
variable {c x : Coin} {cs cs' : Coins} {d : Denom}

theorem amountOf_addCoin (c : Coin) (cs : Coins) (d : Denom) :
    (cs.addCoin c).amountOf d = cs.amountOf d + if c.denom = d then c.amount else 0 := by
  induction cs with
  | nil => simp [Coins.addCoin, amountOf_newCoins]
  | cons a cs ih =>
    unfold Coins.addCoin
    by_cases h₁ : c.denom < a.denom
    · rw [if_pos h₁, amountOf_append, amountOf_newCoins, add_comm]
    · rw [if_neg h₁]
      by_cases h₂ : a.denom < c.denom
      · rw [if_pos h₂, amountOf_cons, amountOf_cons, ih, add_assoc]
      · have he : a.denom = c.denom := le_antisymm (not_lt.mp h₁) (not_lt.mp h₂)
        rw [if_neg h₂, amountOf_append, amountOf_newCoins, amountOf_cons, he]
        by_cases hd : c.denom = d
        · simp only [if_pos hd]
          omega
        · simp only [if_neg hd]
          omega

theorem amountOf_safeAdd (cs cs' : Coins) (d : Denom) :
    (cs.safeAdd cs').amountOf d = cs.amountOf d + cs'.amountOf d := by
  unfold Coins.safeAdd
  induction cs' generalizing cs with
  | nil => simp
  | cons c cs' ih => rw [List.foldl_cons, ih, amountOf_addCoin, amountOf_cons, add_assoc]

theorem amountOf_negative (cs : Coins) (d : Denom) : cs.negative.amountOf d = - cs.amountOf d := by
  induction cs with
  | nil => rfl
  | cons c cs ih =>
    rw [Coins.negative, List.map_cons, ← Coins.negative, amountOf_cons, amountOf_cons, ih]
    by_cases hd : c.denom = d
    · simp only [if_pos hd]
      omega
    · simp only [if_neg hd]
      omega

/-! ## Order -/

/-- Coins in the order of their denoms, each with a valid denom and an amount that is not zero. -/
def Coins.Sorted (cs : Coins) : Prop :=
  cs.Pairwise (fun a b => a.denom < b.denom) ∧ ∀ c ∈ cs, validateDenom c.denom = true ∧ c.amount ≠ 0

theorem isValid_iff : cs.isValid = true ↔ cs.Sorted ∧ ∀ c ∈ cs, 0 < c.amount := by
  constructor
  · intro h
    refine ⟨⟨?_, fun c hc => ⟨?_, (amount_pos_of_isValid h c hc).ne'⟩⟩, amount_pos_of_isValid h⟩
    · induction cs with
      | nil => exact List.Pairwise.nil
      | cons a cs ih =>
        refine List.pairwise_cons.mpr ⟨denom_lt_of_isValid h, ih ?_⟩
        simp only [Coins.isValid, Bool.and_eq_true] at h
        exact h.2
    · induction cs with
      | nil => cases hc
      | cons a cs ih =>
        simp only [Coins.isValid, Bool.and_eq_true] at h
        cases hc with
        | head => exact h.1.1.1
        | tail _ hc => exact ih h.2 hc
  · rintro ⟨⟨hsorted, hdenoms⟩, hpos⟩
    induction cs with
    | nil => rfl
    | cons a cs ih =>
      obtain ⟨hfirst, hsorted⟩ := List.pairwise_cons.mp hsorted
      obtain ⟨ha, hdenoms⟩ := List.forall_mem_cons.mp hdenoms
      obtain ⟨hapos, hpos⟩ := List.forall_mem_cons.mp hpos
      simp only [Coins.isValid, Bool.and_eq_true, decide_eq_true_eq]
      refine ⟨⟨⟨ha.1, hapos⟩, ?_⟩, ih hpos hsorted hdenoms⟩
      cases cs with
      | nil => rfl
      | cons b cs => exact decide_eq_true (hfirst b (by simp))

theorem mem_newCoins : x ∈ newCoins c ↔ c.amount ≠ 0 ∧ x = c := by
  unfold newCoins
  by_cases h : c.amount = 0
  · simp [h]
  · simp [h]

theorem mem_addCoin (h : x ∈ cs.addCoin c) : x ∈ cs ∨ x.denom = c.denom ∧ x.amount ≠ 0 := by
  induction cs with
  | nil =>
    obtain ⟨hne, rfl⟩ := mem_newCoins.mp h
    exact .inr ⟨rfl, hne⟩
  | cons a cs ih =>
    unfold Coins.addCoin at h
    by_cases h₁ : c.denom < a.denom
    · rw [if_pos h₁, List.mem_append, mem_newCoins] at h
      rcases h with ⟨hne, rfl⟩ | h
      · exact .inr ⟨rfl, hne⟩
      · exact .inl h
    · rw [if_neg h₁] at h
      by_cases h₂ : a.denom < c.denom
      · rw [if_pos h₂] at h
        rcases List.mem_cons.mp h with rfl | h
        · exact .inl (by simp)
        · exact (ih h).imp_left (List.mem_cons_of_mem _)
      · rw [if_neg h₂, List.mem_append, mem_newCoins] at h
        rcases h with ⟨hne, rfl⟩ | h
        · exact .inr ⟨le_antisymm (not_lt.mp h₁) (not_lt.mp h₂), hne⟩
        · exact .inl (List.mem_cons_of_mem _ h)

theorem pairwise_addCoin (h : cs.Pairwise fun a b => a.denom < b.denom) :
    (cs.addCoin c).Pairwise fun a b => a.denom < b.denom := by
  have hone : ∀ c' : Coin, (newCoins c').Pairwise fun a b => a.denom < b.denom := by
    intro c'
    unfold newCoins
    split <;> simp
  induction cs with
  | nil => exact hone c
  | cons a cs ih =>
    obtain ⟨hfirst, hrest⟩ := List.pairwise_cons.mp h
    unfold Coins.addCoin
    by_cases h₁ : c.denom < a.denom
    · rw [if_pos h₁]
      refine List.pairwise_append.mpr ⟨hone c, h, fun x hx y hy => ?_⟩
      rw [(mem_newCoins.mp hx).2]
      rcases List.mem_cons.mp hy with rfl | hy
      · exact h₁
      · exact lt_trans h₁ (hfirst y hy)
    · rw [if_neg h₁]
      by_cases h₂ : a.denom < c.denom
      · rw [if_pos h₂]
        refine List.pairwise_cons.mpr ⟨fun x hx => ?_, ih hrest⟩
        rcases mem_addCoin hx with hx | ⟨hx, _⟩
        · exact hfirst x hx
        · rw [hx]
          exact h₂
      · rw [if_neg h₂]
        refine List.pairwise_append.mpr ⟨hone _, hrest, fun x hx y hy => ?_⟩
        rw [(mem_newCoins.mp hx).2]
        exact hfirst y hy

theorem sorted_addCoin (h : cs.Sorted) (hc : validateDenom c.denom = true) :
    (cs.addCoin c).Sorted := by
  refine ⟨pairwise_addCoin h.1, fun x hx => ?_⟩
  rcases mem_addCoin hx with hx | ⟨hd, hne⟩
  · exact h.2 x hx
  · rw [hd]
    exact ⟨hc, hne⟩

theorem sorted_safeAdd (h : cs.Sorted) (h' : ∀ c ∈ cs', validateDenom c.denom = true) :
    (cs.safeAdd cs').Sorted := by
  unfold Coins.safeAdd
  induction cs' generalizing cs with
  | nil => exact h
  | cons c cs' ih =>
    obtain ⟨hc, hcs'⟩ := List.forall_mem_cons.mp h'
    exact ih (sorted_addCoin h hc) hcs'

theorem amountOf_mem (h : cs.Pairwise fun a b => a.denom < b.denom) (hc : c ∈ cs) :
    cs.amountOf c.denom = c.amount := by
  induction cs with
  | nil => cases hc
  | cons a cs ih =>
    obtain ⟨hfirst, hrest⟩ := List.pairwise_cons.mp h
    rw [amountOf_cons]
    cases hc with
    | head =>
      rw [if_pos rfl, amountOf_eq_zero fun x hx => (hfirst x hx).ne', add_zero]
    | tail _ hc =>
      rw [if_neg (hfirst c hc).ne, ih hrest hc, zero_add]

theorem exists_mem_amountOf (h : cs.amountOf d ≠ 0) : ∃ c ∈ cs, c.denom = d := by
  by_contra hnone
  exact h (amountOf_eq_zero fun c hc e => hnone ⟨c, hc, e⟩)

theorem forall_amount_iff (h : cs.Sorted) {p : Int → Prop} (h₀ : p 0) :
    (∀ c ∈ cs, p c.amount) ↔ ∀ d, p (cs.amountOf d) := by
  constructor
  · intro hall d
    by_cases hd : cs.amountOf d = 0
    · rw [hd]
      exact h₀
    · obtain ⟨c, hc, rfl⟩ := exists_mem_amountOf hd
      rw [amountOf_mem h.1 hc]
      exact hall c hc
  · intro hall c hc
    rw [← amountOf_mem h.1 hc]
    exact hall c.denom

end

/-! ## Valid coins -/

/-- Valid coins whose amounts are integers of the framework. -/
structure ValidCoins where
  coins : Coins
  valid : coins.isValid = true
  inRange : ∀ c ∈ coins, c.amount < 2 ^ maxIntBitLen

namespace ValidCoins

def amountOf (a : ValidCoins) (d : Denom) : Int := a.coins.amountOf d

theorem sorted (a : ValidCoins) : a.coins.Sorted := (isValid_iff.mp a.valid).1

theorem denom_valid (a : ValidCoins) : ∀ c ∈ a.coins, validateDenom c.denom = true :=
  fun c hc => (a.sorted.2 c hc).1

theorem amountOf_nonneg (a : ValidCoins) (d : Denom) : 0 ≤ a.amountOf d :=
  ZgChain.amountOf_nonneg (fun c hc => (amount_pos_of_isValid a.valid c hc).le) d

theorem amountOf_lt (a : ValidCoins) (d : Denom) : a.amountOf d < 2 ^ maxIntBitLen :=
  (forall_amount_iff a.sorted (p := (· < 2 ^ maxIntBitLen)) (Int.pow_pos two_pos)).mp a.inRange d

theorem valid_of_sorted {cs : Coins} (h : cs.Sorted) (hn : ∀ d, 0 ≤ cs.amountOf d) :
    cs.isValid = true := by
  refine isValid_iff.mpr ⟨h, fun c hc => ?_⟩
  have hnonneg := hn c.denom
  rw [amountOf_mem h.1 hc] at hnonneg
  exact lt_of_le_of_ne hnonneg (h.2 c hc).2.symm

section
variable (a b : ValidCoins)

theorem valid_add : (a.coins.safeAdd b.coins).isValid = true := by
  refine valid_of_sorted (sorted_safeAdd a.sorted b.denom_valid) fun d => ?_
  rw [amountOf_safeAdd]
  exact add_nonneg (a.amountOf_nonneg d) (b.amountOf_nonneg d)

def add : Option ValidCoins :=
  if h : ∀ c ∈ a.coins.safeAdd b.coins, c.amount < 2 ^ maxIntBitLen then
    some ⟨_, valid_add a b, h⟩ else none

theorem sorted_sub : (a.coins.safeAdd b.coins.negative).Sorted := by
  refine sorted_safeAdd a.sorted fun c hc => ?_
  obtain ⟨c', hc', rfl⟩ := List.mem_map.mp hc
  exact b.denom_valid c' hc'

theorem amountOf_sub (d : Denom) :
    (a.coins.safeAdd b.coins.negative).amountOf d = a.amountOf d - b.amountOf d := by
  rw [amountOf_safeAdd, amountOf_negative]
  rfl

theorem inRange_sub : ∀ c ∈ a.coins.safeAdd b.coins.negative, c.amount < 2 ^ maxIntBitLen := by
  rw [forall_amount_iff (sorted_sub a b) (p := (· < 2 ^ maxIntBitLen)) (Int.pow_pos two_pos)]
  intro d
  have hb := b.amountOf_nonneg d
  have ha := a.amountOf_lt d
  rw [amountOf_sub]
  omega

theorem valid_sub (h : ∀ c ∈ a.coins.safeAdd b.coins.negative, 0 ≤ c.amount) :
    (a.coins.safeAdd b.coins.negative).isValid = true :=
  valid_of_sorted (sorted_sub a b) ((forall_amount_iff (sorted_sub a b) le_rfl).mp h)

def sub : Option ValidCoins :=
  if h : ∀ c ∈ a.coins.safeAdd b.coins.negative, 0 ≤ c.amount then
    some ⟨_, valid_sub a b h, inRange_sub a b⟩ else none

end

def empty : ValidCoins := ⟨[], rfl, List.forall_mem_nil _⟩

def ofCoin (c : Coin) : Option ValidCoins :=
  if h : Coins.isValid [c] = true ∧ ∀ x ∈ [c], x.amount < 2 ^ maxIntBitLen then
    some ⟨[c], h.1, h.2⟩ else none

section
variable {a b r : ValidCoins} {c : Coin}

theorem amountOf_of_add (h : a.add b = some r) (d : Denom) :
    r.amountOf d = a.amountOf d + b.amountOf d := by
  unfold add at h
  split at h
  · cases h
    exact amountOf_safeAdd _ _ d
  · cases h

theorem add_isSome :
    (∃ r, a.add b = some r) ↔ ∀ d, a.amountOf d + b.amountOf d < 2 ^ maxIntBitLen := by
  have hiff := forall_amount_iff (sorted_safeAdd a.sorted b.denom_valid)
    (p := (· < 2 ^ maxIntBitLen)) (Int.pow_pos two_pos)
  simp only [amountOf_safeAdd] at hiff
  unfold add
  by_cases h : ∀ c ∈ a.coins.safeAdd b.coins, c.amount < 2 ^ maxIntBitLen
  · rw [dif_pos h]
    exact ⟨fun _ => hiff.mp h, fun _ => ⟨_, rfl⟩⟩
  · rw [dif_neg h]
    exact ⟨fun hr => by simp at hr, fun hr => absurd (hiff.mpr hr) h⟩

theorem amountOf_of_sub (h : a.sub b = some r) (d : Denom) :
    r.amountOf d = a.amountOf d - b.amountOf d := by
  unfold sub at h
  split at h
  · cases h
    exact amountOf_sub a b d
  · cases h

theorem sub_isSome (h : ∀ d, b.amountOf d ≤ a.amountOf d) : ∃ r, a.sub b = some r := by
  have hall : ∀ c ∈ a.coins.safeAdd b.coins.negative, 0 ≤ c.amount := by
    rw [forall_amount_iff (sorted_sub a b) le_rfl]
    intro d
    rw [amountOf_sub]
    exact Int.sub_nonneg_of_le (h d)
  unfold sub
  rw [dif_pos hall]
  exact ⟨_, rfl⟩

theorem ofCoin_eq_some : ofCoin c = some r ↔
    r.coins = [c] ∧ validateDenom c.denom = true ∧ 0 < c.amount ∧ c.amount < 2 ^ maxIntBitLen := by
  unfold ofCoin
  constructor
  · intro h
    split at h
    · rename_i hc
      cases h
      obtain ⟨hd, hpos⟩ := (isValid_singleton c).mp hc.1
      exact ⟨rfl, hd, hpos, hc.2 c (by simp)⟩
    · cases h
  · rintro ⟨hr, hd, hpos, hlt⟩
    have hall : Coins.isValid [c] = true ∧ ∀ x ∈ [c], x.amount < 2 ^ maxIntBitLen := by
      refine ⟨(isValid_singleton c).mpr ⟨hd, hpos⟩, ?_⟩
      simpa using hlt
    rw [dif_pos hall]
    cases r
    cases hr
    rfl

end

end ValidCoins

end ZgChain
