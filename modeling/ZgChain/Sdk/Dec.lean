import ZgChain.Sdk.Types

/-!
# Decimals of bounded size

Decimals are integers in units of `10 ^ -18`. Those of the framework have at most 315 bits. An
operation whose result has more of them panics.
-/

namespace ZgChain

abbrev Dec := Int

def decPrecision : Int := 10 ^ 18

def Dec.roundAbs (d : Dec) : Int :=
  let quo := d / decPrecision
  let rem := d % decPrecision
  if 2 * rem < decPrecision then quo
  else if decPrecision < 2 * rem then quo + 1
  else if quo % 2 = 0 then quo else quo + 1

def Dec.roundInt (d : Dec) : Int := if d < 0 then - Dec.roundAbs (-d) else Dec.roundAbs d

def newDec (n : Int) : Dec := n * decPrecision

def Dec.mul (d d' : Dec) : Dec := Dec.roundInt (d * d')

def maxDecBitLen : Nat := 315

/-- The quotient is taken with twice the precision and then rounded. -/
def Dec.quo (d d' : Dec) : Dec := Dec.roundInt ((d * (decPrecision * decPrecision)).tdiv d')

/-- The quotient is taken with twice the precision and then cut. -/
def Dec.quoTruncate (d d' : Dec) : Dec :=
  ((d * (decPrecision * decPrecision)).tdiv d').tdiv decPrecision

/-- A decimal that is read from a message or from the store is in the range. -/
abbrev StoredDec := {d : Dec // d.natAbs < 2 ^ maxDecBitLen}

theorem zero_inRange : (0 : Dec).natAbs < 2 ^ maxDecBitLen := Nat.two_pow_pos maxDecBitLen

def StoredDec.zero : StoredDec := ⟨0, zero_inRange⟩

theorem toNat_inRange (n : UInt64) : (n.toNat : Int).natAbs < 2 ^ maxDecBitLen := by
  have hlt : n.toNat < 2 ^ 64 := n.toNat_lt
  exact lt_of_lt_of_le hlt (Nat.pow_le_pow_right Nat.zero_lt_two (by decide))

/-- The decimal of `n` units of the last decimal. -/
def StoredDec.ofUnits (n : UInt64) : StoredDec := ⟨n.toNat, toNat_inRange n⟩

def storedDec (d : Dec) : Option StoredDec :=
  if h : d.natAbs < 2 ^ maxDecBitLen then some ⟨d, h⟩ else none

def StoredDec.add (a b : StoredDec) : Option StoredDec := storedDec (a.val + b.val)

def StoredDec.sub (a b : StoredDec) : Option StoredDec := storedDec (a.val - b.val)

theorem neg_inRange {d : Dec} (h : d.natAbs < 2 ^ maxDecBitLen) :
    (-d : Int).natAbs < 2 ^ maxDecBitLen := by
  rwa [Int.natAbs_neg]

def StoredDec.neg (a : StoredDec) : StoredDec := ⟨-a.val, neg_inRange a.property⟩

def StoredDec.mulInt (a : StoredDec) (n : Int) : Option StoredDec := storedDec (a.val * n)

def StoredDec.mul (a b : StoredDec) : Option StoredDec := storedDec (a.val.mul b.val)

def StoredDec.quo (a : StoredDec) (d : Dec) : Option StoredDec :=
  if d = 0 then none else storedDec (a.val.quo d)

def StoredDec.quoTruncate (a : StoredDec) (d : Dec) : Option StoredDec :=
  if d = 0 then none else storedDec (a.val.quoTruncate d)

theorem storedDec_eq_some {d : Dec} {a : StoredDec} : storedDec d = some a ↔ a.val = d := by
  unfold storedDec
  split
  · rw [Option.some.injEq, Subtype.ext_iff, eq_comm]
  · rename_i h
    constructor
    · intro he
      cases he
    · intro he
      exact absurd (he ▸ a.property) h

theorem roundInt_nonneg {n : Int} (h : 0 ≤ n) : 0 ≤ Dec.roundInt n := by
  have hp : 0 < decPrecision := by decide
  have hquo : 0 ≤ n / decPrecision := Int.ediv_nonneg h hp.le
  rw [Dec.roundInt, if_neg (not_lt.mpr h), Dec.roundAbs]
  split
  · exact hquo
  · split
    · exact Int.add_nonneg hquo one_pos.le
    · split
      · exact hquo
      · exact Int.add_nonneg hquo one_pos.le

theorem quo_nonneg {n m : Int} (hn : 0 ≤ n) (hm : 0 ≤ m) : 0 ≤ Dec.quo n m := by
  have hp : 0 ≤ decPrecision := by decide
  exact roundInt_nonneg (Int.tdiv_nonneg (mul_nonneg hn (mul_nonneg hp hp)) hm)

theorem quoTruncate_nonneg {n m : Int} (hn : 0 ≤ n) (hm : 0 ≤ m) : 0 ≤ Dec.quoTruncate n m := by
  have hp : 0 ≤ decPrecision := by decide
  exact Int.tdiv_nonneg (Int.tdiv_nonneg (mul_nonneg hn (mul_nonneg hp hp)) hm) hp

theorem quoTruncate_mono {d : Dec} (hd : 0 < d) {n m : Int} (h : n ≤ m) :
    Dec.quoTruncate n d ≤ Dec.quoTruncate m d := by
  have hp : 0 ≤ decPrecision * decPrecision := by decide
  have hpos : 0 < decPrecision := by decide
  exact Int.tdiv_le_tdiv hpos (Int.tdiv_le_tdiv hd (Int.mul_le_mul_of_nonneg_right h hp))

theorem mul_nonneg_dec {a b : Dec} (ha : 0 ≤ a) (hb : 0 ≤ b) : 0 ≤ a.mul b :=
  roundInt_nonneg (Int.mul_nonneg ha hb)

theorem inRange_of_between {a b : StoredDec} {d : Dec} (ha : a.val ≤ d) (hb : d ≤ b.val) :
    d.natAbs < 2 ^ maxDecBitLen := by
  have hmax : ∀ x y z : Int, x ≤ z → z ≤ y → z.natAbs ≤ max x.natAbs y.natAbs := by
    intro x y z hx hy
    omega
  exact lt_of_le_of_lt (hmax _ _ _ ha hb) (max_lt a.property b.property)

theorem zero_mul_dec (d : Dec) : Dec.mul 0 d = 0 := by
  rw [Dec.mul, Int.zero_mul]
  rfl

theorem roundInt_newDec (n : Int) : Dec.roundInt (newDec n) = n := by
  have hp : 0 < decPrecision := by decide
  have habs : ∀ m : Int, Dec.roundAbs (newDec m) = m := by
    intro m
    have hquo : newDec m / decPrecision = m := Int.mul_ediv_cancel m hp.ne'
    have hrem : newDec m % decPrecision = 0 := Int.mul_emod_left m decPrecision
    simp only [Dec.roundAbs, hquo, hrem]
    rw [if_pos (by decide)]
  have hneg : -newDec n = newDec (-n) := (Int.neg_mul n decPrecision).symm
  rw [Dec.roundInt, hneg, habs, habs, neg_neg, ite_self]

theorem newDec_mul (n : Int) (d : Dec) : Dec.mul (newDec n) d = n * d := by
  have h : newDec n * d = newDec (n * d) := Int.mul_right_comm n decPrecision d
  rw [Dec.mul, h, roundInt_newDec]

theorem mul_newDec (d : Dec) (n : Int) : Dec.mul d (newDec n) = d * n := by
  have h : d * newDec n = newDec (d * n) := (Int.mul_assoc d n decPrecision).symm
  rw [Dec.mul, h, roundInt_newDec]

/-! ## Halves -/

/-- Half of an integer, halves of an odd one to the even neighbour. -/
def halfEven (n : Int) : Int := if n % 4 = 3 then n / 2 + 1 else n / 2

theorem roundAbs_eq (n : Int) : Dec.roundAbs n =
    if 2 * (n % 1000000000000000000) < 1000000000000000000 then n / 1000000000000000000
    else if 1000000000000000000 < 2 * (n % 1000000000000000000) then n / 1000000000000000000 + 1
    else if n / 1000000000000000000 % 2 = 0 then n / 1000000000000000000
      else n / 1000000000000000000 + 1 := rfl

/-- A decimal is rounded to at least `n` above the half below `n`, and on it if `n` is even. -/
theorem le_roundInt_iff (n d : Int) : n ≤ Dec.roundInt d ↔
    (2 * n - 1) * decPrecision < 2 * d ∨ (2 * n - 1) * decPrecision = 2 * d ∧ n % 2 = 0 := by
  have hp : decPrecision = 1000000000000000000 := rfl
  rw [Dec.roundInt, hp]
  by_cases hd : d < 0
  · rw [if_pos hd, roundAbs_eq]
    grind
  · rw [if_neg hd, roundAbs_eq]
    grind

theorem roundInt_mono {d d' : Int} (h : d ≤ d') : Dec.roundInt d ≤ Dec.roundInt d' := by
  have hself := (le_roundInt_iff (Dec.roundInt d) d).mp le_rfl
  rw [le_roundInt_iff]
  omega

theorem roundInt_bounds (d : Int) : 2 * d ≤ (2 * Dec.roundInt d + 1) * decPrecision ∧
    (2 * Dec.roundInt d - 1) * decPrecision ≤ 2 * d := by
  have hself := (le_roundInt_iff (Dec.roundInt d) d).mp le_rfl
  have hnext := mt (le_roundInt_iff (Dec.roundInt d + 1) d).mpr (by omega)
  have hp : decPrecision = 1000000000000000000 := rfl
  rw [hp] at hself hnext ⊢
  omega

theorem mul_le_mul_dec {a b c : Dec} (ha : 0 ≤ a) (h : b ≤ c) : a.mul b ≤ a.mul c :=
  roundInt_mono (Int.mul_le_mul_of_nonneg_left h ha)

theorem mul_comm_dec (a b : Dec) : a.mul b = b.mul a := by
  rw [Dec.mul, Dec.mul, Int.mul_comm]

theorem quo_mono {d : Dec} (hd : 0 < d) {n m : Int} (h : n ≤ m) : Dec.quo n d ≤ Dec.quo m d := by
  have hp : 0 ≤ decPrecision * decPrecision := by decide
  exact roundInt_mono (Int.tdiv_le_tdiv hd (Int.mul_le_mul_of_nonneg_right h hp))

theorem roundAbs_half (n : Int) : Dec.roundAbs (n * 500000000000000000 : Int) = halfEven n := by
  have hquo : n * 500000000000000000 / 1000000000000000000 = n / 2 := by omega
  have hrem : n * 500000000000000000 % 1000000000000000000 = n % 2 * 500000000000000000 := by omega
  rw [roundAbs_eq, hquo, hrem, halfEven]
  by_cases hodd : n % 2 = 0
  · rw [if_pos (by omega), if_neg (by omega)]
  · rw [if_neg (by omega), if_neg (by omega)]
    by_cases hthree : n % 4 = 3
    · rw [if_pos hthree, if_neg (by omega)]
    · rw [if_neg hthree, if_pos (by omega)]

theorem quo_two (n : Int) : Dec.quo n (newDec 2) = if n < 0 then - halfEven (-n)
      else halfEven n := by
  have hsplit : n * (decPrecision * decPrecision) = n * 500000000000000000 * newDec 2 := by
    rw [mul_assoc]
    rfl
  have hneg : -(n * 500000000000000000) = -n * 500000000000000000 := (Int.neg_mul _ _).symm
  have hsign : n * 500000000000000000 < 0 ↔ n < 0 := by omega
  rw [Dec.quo, hsplit, Int.mul_tdiv_cancel _ (by decide), Dec.roundInt]
  simp only [hsign, hneg, roundAbs_half]

theorem natAbs_quo_two_le (n : Int) : (Dec.quo n (newDec 2)).natAbs ≤ n.natAbs := by
  rw [quo_two]
  unfold halfEven
  by_cases hn : n < 0
  · rw [if_pos hn]
    split <;> omega
  · rw [if_neg hn]
    split <;> omega

theorem quo_two_double (n : Int) : Dec.quo (n + n : Int) (newDec 2) = n := by
  have hhalf : ∀ m : Int, halfEven (m + m) = m := by
    intro m
    rw [halfEven, if_neg (by omega)]
    omega
  have hneg : -(n + n) = -n + -n := by omega
  rw [quo_two, hneg, hhalf, hhalf, neg_neg, ite_self]

/-- The mean of two decimals, rounded, is between any two bounds that they are between. -/
theorem quo_two_between {a b lo hi : Int} (ha : lo ≤ a ∧ a ≤ hi) (hb : lo ≤ b ∧ b ≤ hi) :
    lo ≤ Dec.quo (a + b : Int) (newDec 2) ∧ Dec.quo (a + b : Int) (newDec 2) ≤ hi := by
  have htwo : 0 < newDec 2 := by decide
  have hlo : Dec.quo (lo + lo : Int) (newDec 2) ≤ Dec.quo (a + b : Int) (newDec 2) :=
    quo_mono htwo (by omega)
  have hhi : Dec.quo (a + b : Int) (newDec 2) ≤ Dec.quo (hi + hi : Int) (newDec 2) :=
    quo_mono htwo (by omega)
  rw [quo_two_double] at hlo hhi
  exact ⟨hlo, hhi⟩

end ZgChain
