import ZgChain.Lib.Bytes
import ZgChain.Lib.KVStore

/-!
# Coins, times and block contexts

The types of the chain's application framework that the modules share. An
operation that panics there is an `Option` or an error here.
-/

namespace ZgChain

abbrev Addr := Bytes

abbrev Denom := String

/-- The last 20 bytes, filled up with zeros in front. -/
def bytesToAddress (b : Bytes) : Addr :=
  let b := b.drop (b.length - 20)
  List.replicate (20 - b.length) 0 ++ b

theorem length_bytesToAddress (b : Bytes) : (bytesToAddress b).length = 20 := by
  simp only [bytesToAddress, List.length_append, List.length_replicate, List.length_drop]
  omega

theorem bytesToAddress_of_length {b : Bytes} (h : b.length = 20) : bytesToAddress b = b := by
  simp [bytesToAddress, h]

/-! ## Coins -/

structure Coin where
  denom : Denom
  amount : Int
  deriving DecidableEq, Repr

abbrev Coins := List Coin

def denomChar (c : Char) : Bool :=
  c.isAlphanum || c == '/' || c == ':' || c == '.' || c == '_' || c == '-'

/-- A letter and then 2 to 127 letters, digits or separators. -/
def validateDenom (d : Denom) : Bool :=
  match d.toList with
  | [] => false
  | c :: cs => c.isAlpha && decide (2 ≤ cs.length) && decide (cs.length ≤ 127) && cs.all denomChar

/-- Add two coins of one denom; coins of different denoms make the code panic. -/
def Coin.add (a b : Coin) : Option Coin :=
  if a.denom = b.denom then some ⟨a.denom, a.amount + b.amount⟩ else none

/-- Subtract a coin; different denoms or a negative result make the code panic. -/
def Coin.sub (a b : Coin) : Option Coin :=
  if a.denom = b.denom ∧ 0 ≤ a.amount - b.amount then some ⟨a.denom, a.amount - b.amount⟩ else none

def Coin.isLT (a b : Coin) : Option Bool :=
  if a.denom = b.denom then some (decide (a.amount < b.amount)) else none

def Coin.isValid (c : Coin) : Bool := validateDenom c.denom && decide (0 ≤ c.amount)

/-- Valid coins are sorted by denom without repetition, with valid denoms and
positive amounts. -/
def Coins.isValid : Coins → Bool
  | [] => true
  | c :: cs => validateDenom c.denom && decide (0 < c.amount) &&
    (match cs with | [] => true | c' :: _ => decide (c.denom < c'.denom)) && Coins.isValid cs

def Coins.isAllPositive (cs : Coins) : Bool := !cs.isEmpty && cs.all fun c => decide (0 < c.amount)

def Coins.amountOf (cs : Coins) (d : Denom) : Int :=
  (cs.map fun c => if c.denom = d then c.amount else 0).sum

/-- The coins of one coin: none if its amount is zero. -/
def newCoins (c : Coin) : Coins := if c.amount = 0 then [] else [c]

@[simp] theorem amountOf_nil (d : Denom) : Coins.amountOf [] d = 0 := rfl

@[simp] theorem amountOf_cons (c : Coin) (cs : Coins) (d : Denom) :
    Coins.amountOf (c :: cs) d = (if c.denom = d then c.amount else 0) + Coins.amountOf cs d := by
  simp [Coins.amountOf]

@[simp] theorem amountOf_append (cs cs' : Coins) (d : Denom) :
    Coins.amountOf (cs ++ cs') d = Coins.amountOf cs d + Coins.amountOf cs' d := by
  simp [Coins.amountOf]

theorem amountOf_newCoins (c : Coin) (d : Denom) :
    (newCoins c).amountOf d = if c.denom = d then c.amount else 0 := by
  unfold newCoins; split
  · rename_i h; simp [h]
  · simp

theorem isValid_singleton (c : Coin) :
    Coins.isValid [c] = true ↔ validateDenom c.denom = true ∧ 0 < c.amount := by
  simp [Coins.isValid]

theorem amount_pos_of_isValid : ∀ {cs : Coins}, Coins.isValid cs = true → ∀ c ∈ cs, 0 < c.amount
  | [], _, c, hc => by cases hc
  | a :: cs, h, c, hc => by
    simp only [Coins.isValid, Bool.and_eq_true, decide_eq_true_eq] at h
    rcases List.mem_cons.mp hc with rfl | hc
    · exact h.1.1.2
    · exact amount_pos_of_isValid h.2 c hc

theorem amountOf_nonneg {cs : Coins} (h : ∀ c ∈ cs, 0 ≤ c.amount) (d : Denom) :
    0 ≤ cs.amountOf d := by
  induction cs with
  | nil => simp
  | cons c cs ih =>
    have hc := h c (by simp)
    have := ih fun c hc => h c (by simp [hc])
    rw [amountOf_cons]
    split <;> omega

theorem amountOf_pos {cs : Coins} (h : ∀ c ∈ cs, 0 < c.amount) {c : Coin} (hc : c ∈ cs) :
    0 < cs.amountOf c.denom := by
  induction cs with
  | nil => cases hc
  | cons a cs ih =>
    have hrest := amountOf_nonneg (fun c hc => (h c (List.mem_cons_of_mem _ hc)).le) c.denom
    rw [amountOf_cons]
    cases hc with
    | head =>
      have hpos := h c (by simp)
      rw [if_pos rfl]
      omega
    | tail _ hc =>
      have := ih (fun c hc => h c (by simp [hc])) hc
      have := h a (by simp)
      split <;> omega

theorem amountOf_eq_zero {cs : Coins} {d : Denom} (h : ∀ c ∈ cs, c.denom ≠ d) :
    cs.amountOf d = 0 := by
  induction cs with
  | nil => rfl
  | cons c cs ih =>
    rw [amountOf_cons, if_neg (h c (by simp)), ih fun c hc => h c (by simp [hc]), add_zero]

theorem denom_lt_of_isValid {c : Coin} {cs : Coins} (h : Coins.isValid (c :: cs) = true) :
    ∀ c' ∈ cs, c.denom < c'.denom := by
  induction cs generalizing c with
  | nil => simp
  | cons a cs ih =>
    have h' : Coins.isValid (a :: cs) = true := by
      rw [Coins.isValid, Bool.and_eq_true] at h
      exact h.2
    have ha : c.denom < a.denom := by
      simp only [Coins.isValid, Bool.and_eq_true, decide_eq_true_eq] at h
      exact h.1.2
    intro c' hc'
    cases hc' with
    | head => exact ha
    | tail _ hc' => exact lt_trans ha (ih h' c' hc')

/-! ## Times -/

/-- A time, in nanoseconds since the Unix epoch. -/
abbrev Time := Int

abbrev Duration := Int64

def minute : Int := 60 * 1000000000

def Time.unix (t : Time) : Int := t / 1000000000

/-- The duration from `u` to `t`, saturating at the ends of the type. -/
def Time.sub (t u : Time) : Duration :=
  if Int64.maxValue.toInt < t - u then Int64.maxValue
  else if t - u < Int64.minValue.toInt then Int64.minValue
  else Int64.ofInt (t - u)

theorem Time.toInt_sub {t u : Int} (h : u ≤ t) (hlt : t - u < 2 ^ 63) :
    (Time.sub t u).toInt = t - u := by
  have hmax : Int64.maxValue.toInt = 2 ^ 63 - 1 := by decide
  have hmin : Int64.minValue.toInt = -2 ^ 63 := by decide
  have h₁ : ¬ Int64.maxValue.toInt < t - u := by omega
  have h₂ : ¬ t - u < Int64.minValue.toInt := by omega
  unfold Time.sub
  rw [if_neg h₁, if_neg h₂]
  exact Int64.toInt_ofInt_of_le (by omega) (by omega)

theorem Time.toInt_add_sub {t₀ t now : Int} {elapsed : Duration} (he : elapsed.toInt = t - t₀)
    (h₀ : t₀ ≤ t)
    (h : t ≤ now) (hlt : now - t₀ < 2 ^ 63) : (elapsed + Time.sub now t).toInt = now - t₀ := by
  have hsub : (Time.sub now t).toInt = now - t := Time.toInt_sub h (by omega)
  rw [Int64.toInt_add, he, hsub]
  have hsum : t - t₀ + (now - t) = now - t₀ := by omega
  rw [hsum]
  exact Int.bmod_eq_of_le (by omega) (by omega)

/-! ## Block contexts -/

/-- The block a call is made in. Heights are nonnegative 64-bit signed numbers. -/
structure Ctx where
  blockHeight : Nat
  blockTime : Time
  height_lt : blockHeight < 2 ^ 63

instance neZero_height : NeZero (2 ^ 63) := ⟨by decide⟩

def Ctx.atHeight (height : Fin (2 ^ 63)) (blockTime : Time) : Ctx :=
  ⟨height, blockTime, height.isLt⟩

end ZgChain
