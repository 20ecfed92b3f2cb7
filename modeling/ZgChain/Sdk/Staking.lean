import ZgChain.Sdk.Dec

/-!
# Delegations

What the modules read of the staking module: the delegations of an account and
the validators they are made to.
-/

namespace ZgChain

/-- A validator that is delegated to has shares. -/
structure Validator where
  tokens : Nat
  delegatorShares : StoredDec
  shares_pos : 0 < delegatorShares.val

/-- The product of shares and tokens and the quotient are both decimals of bounded size. -/
def Validator.tokensFromSharesTruncated (v : Validator) (shares : StoredDec) : Option StoredDec :=
  (shares.mulInt v.tokens).bind fun product => product.quoTruncate v.delegatorShares.val

/-- The shares of a delegation are not negative. -/
abbrev Shares := {shares : StoredDec // 0 ≤ shares.val}

structure Delegation where
  validatorAddress : Addr
  shares : Shares

/-- The delegations of an account are in the order they are iterated in. -/
structure Staking where
  delegations : Addr → List Delegation
  getValidator : Addr → Option Validator

/-! ## What shares are worth -/

/-- The tokens of the shares, of whatever size. -/
def Validator.worth (v : Validator) (shares : Dec) : Dec :=
  Dec.quoTruncate (shares * v.tokens) v.delegatorShares.val

theorem Validator.worth_nonneg (v : Validator) {shares : Dec} (h : 0 ≤ shares) :
    0 ≤ v.worth shares :=
  quoTruncate_nonneg (mul_nonneg h (Int.natCast_nonneg _)) v.shares_pos.le

theorem Validator.worth_mono (v : Validator) {shares shares' : Dec} (h : shares ≤ shares') :
    v.worth shares ≤ v.worth shares' :=
  quoTruncate_mono v.shares_pos (mul_le_mul_of_nonneg_right h (Int.natCast_nonneg _))

theorem Validator.tokensFromSharesTruncated_eq_some {v : Validator} {shares tokens : StoredDec} :
    v.tokensFromSharesTruncated shares = some tokens ↔
      (shares.val * v.tokens : Int).natAbs < 2 ^ maxDecBitLen ∧
      tokens.val = v.worth shares.val := by
  simp only [tokensFromSharesTruncated, Option.bind_eq_some_iff, StoredDec.mulInt,
    StoredDec.quoTruncate, if_neg v.shares_pos.ne', storedDec_eq_some]
  constructor
  · intro h
    obtain ⟨product, hproduct, htokens⟩ := h
    rw [hproduct] at htokens
    exact ⟨hproduct ▸ product.property, htokens⟩
  · intro h
    exact ⟨⟨_, h.1⟩, rfl, h.2⟩

/-! ## Whole shares -/

theorem newDec_inRange (n : UInt64) : (newDec n.toNat).natAbs < 2 ^ maxDecBitLen := by
  have hlt := n.toNat_lt
  have heq : (newDec n.toNat).natAbs = n.toNat * 10 ^ 18 := Int.natAbs_mul _ _
  rw [heq, maxDecBitLen]
  omega

theorem newDec_toNat_nonneg (n : UInt64) : 0 ≤ newDec n.toNat :=
  mul_nonneg (Int.natCast_nonneg _) (by decide)

def wholeShares (n : UInt64) : Shares := ⟨⟨newDec n.toNat, newDec_inRange n⟩, newDec_toNat_nonneg n⟩

end ZgChain
