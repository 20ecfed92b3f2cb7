import ZgChain.Dasigners.EpochSound
import ZgChain.Lib.FirstEntries

/-!
# Stake behind an account

The delegations of an account are iterated in the order of their validators, and the
iteration stops after eleven of them. A further delegation can therefore push out one that
was counted. The stake of the account grows with its delegations as long as what is pushed out
is made up for.
-/

namespace ZgChain.Dasigners

def delegationList (delegations : KVStore Addr Shares) : List Delegation :=
  delegations.entries.map fun e => ⟨e.1, e.2⟩

def sharesTokens (staking : Staking) (address : Addr) (shares : Shares) : Dec :=
  delegationTokens staking ⟨address, shares⟩

/-- What the delegations that are counted afterwards are worth beyond what they were counted
with before. -/
def gainedTokens (staking : Staking) (before after : KVStore Addr Shares) : Int :=
  KVStore.gained maxDelegations (sharesTokens staking) before after

/-- What the delegations are worth that were counted before and are not counted afterwards. -/
def lostTokens (staking : Staking) (before after : KVStore Addr Shares) : Int :=
  KVStore.lost maxDelegations (sharesTokens staking) before after

section
variable {staking : Staking} {delegator : Addr} {before after : KVStore Addr Shares}

theorem sharesTokens_mono (staking : Staking) (address : Addr) {shares shares' : Shares}
    (h : shares ≤ shares') :
    sharesTokens staking address shares ≤ sharesTokens staking address shares' := by
  unfold sharesTokens delegationTokens
  dsimp only
  cases staking.getValidator address with
  | none => exact le_rfl
  | some v => exact v.worth_mono h

theorem stakeTokens_eq (h : staking.delegations delegator = delegationList before) :
    stakeTokens staking delegator =
    ∑ k ∈ before.firstKeys maxDelegations, KVStore.contrib (sharesTokens staking) k
      (before.get k) := by
  rw [KVStore.sum_firstKeys, stakeTokens, counted, h, delegationList, ← List.map_take, List.map_map]
  rfl

theorem gainedTokens_nonneg (staking : Staking) (h : before.Grows after) :
    0 ≤ gainedTokens staking before after :=
  h.gained_nonneg (fun _ _ => delegationTokens_nonneg staking _) fun k _ _ =>
    sharesTokens_mono staking k

end

/-- Amounts that are more than one apart are rounded differently. -/
theorem roundInt_lt {d d' : Int} (h : d + decPrecision < d') :
    Dec.roundInt d < Dec.roundInt d' := by
  have hd := (roundInt_bounds d).2
  have hd' := (roundInt_bounds d').1
  have hp : decPrecision = 1000000000000000000 := rfl
  rw [hp] at h hd hd'
  omega

theorem checkDelegations_mono {s : State} {ctx ctx' : CallCtx} {account : String} {addr : Addr}
    {b b' : Int} (haddr : accAddressFromHexUnsafe account = .ok addr)
    (hb : getDelegatorBonded ctx.staking addr = .ok b)
    (hb' : getDelegatorBonded ctx'.staking addr = .ok b') (h₀ : 0 ≤ b) (hle : b ≤ b')
    (h : checkDelegations ctx s account = .ok ()) : checkDelegations ctx' s account = .ok () := by
  simp only [checkDelegations, haddr, hb, hb', ok_bind, bind_eq_ok, rejectIf_eq_ok, votes,
    pure_eq_ok] at h ⊢
  obtain ⟨n, ⟨_, htokens, rfl⟩, hpos⟩ := h
  refine ⟨_, ⟨(), htokens, rfl⟩, ?_⟩
  have hrate : (0 : Int) < bondedConversionRate := by decide
  have hvote : (0 : Int) < s.params.tokensPerVote.toNat := by
    have hne : s.params.tokensPerVote.toNat ≠ 0 := fun e => htokens (UInt64.toNat_inj.mp e)
    omega
  have hold := Int.tdiv_nonneg (Int.tdiv_nonneg h₀ hrate.le) hvote.le
  have hmore : (b.tdiv bondedConversionRate).tdiv s.params.tokensPerVote.toNat ≤
      (b'.tdiv bondedConversionRate).tdiv s.params.tokensPerVote.toNat :=
    Int.tdiv_le_tdiv hvote (Int.tdiv_le_tdiv hrate hle)
  rw [abs_of_nonneg hold] at hpos
  rw [abs_of_nonneg (le_trans hold hmore)]
  omega

/-- Where no decimal gets too large and no more is lost than gained, further delegations do
not lower the stake of an account, and one that passed the check of its delegations still
passes. That is so with at most eleven delegations. If more than a whole token is lost, the
stake falls. -/
theorem bonded_grows_when {first second : Staking} {delegator : Addr}
    {before after : KVStore Addr Shares} (hsame : second.getValidator = first.getValidator)
    (hfirst : first.delegations delegator = delegationList before)
    (hsecond : second.delegations delegator = delegationList after) (hgrows : before.Grows after)
    (hrange : StakeInRange first delegator) (hrange' : StakeInRange second delegator) :
    ∃ b b', getDelegatorBonded first delegator = .ok b ∧
      getDelegatorBonded second delegator = .ok b' ∧
      (lostTokens first before after ≤ gainedTokens first before after → b ≤ b' ∧ ∀ block s account,
        accAddressFromHexUnsafe account = .ok delegator →
        checkDelegations ⟨block, first⟩ s account = .ok () →
        checkDelegations ⟨block, second⟩ s account = .ok ()) ∧
      (after.entries.length ≤ maxDelegations →
        lostTokens first before after ≤ gainedTokens first before after) ∧
      (gainedTokens first before after + decPrecision < lostTokens first before after →
        b' < b) := by
  have htokensOf : sharesTokens second = sharesTokens first := by
    funext address shares
    rw [sharesTokens, delegationTokens, hsame, sharesTokens, delegationTokens]
  have hafter : stakeTokens second delegator = stakeTokens first delegator +
      gainedTokens first before after -
      lostTokens first before after := by
    rw [stakeTokens_eq hfirst, stakeTokens_eq hsecond, htokensOf,
      KVStore.sum_firstKeys_eq _ _ before after]
    rfl
  have hb := getDelegatorBonded_ok.mpr ⟨hrange, rfl⟩
  have hb' := getDelegatorBonded_ok.mpr ⟨hrange', rfl⟩
  refine ⟨_, _, hb, hb', fun hle => ?_, fun hlen => ?_, fun hlt => ?_⟩
  · have hgrow : (stakeTokens first delegator).roundInt ≤
        (stakeTokens second delegator).roundInt := by
      refine roundInt_mono ?_
      rw [hafter]
      omega
    refine ⟨hgrow, fun block s account haddr h => ?_⟩
    exact checkDelegations_mono haddr hb hb'
      (roundInt_nonneg (stakeTokens_nonneg first delegator)) hgrow h
  · have hnone : lostTokens first before after = 0 := hgrows.lost_eq_zero _ hlen
    rw [hnone]
    exact gainedTokens_nonneg first hgrows
  · refine roundInt_lt ?_
    rw [hafter]
    omega

theorem sharedShares_pos : 0 < (wholeShares (10 ^ 8)).val.val := by decide

def sharedValidator : Validator := ⟨10 ^ 8, (wholeShares (10 ^ 8)).val, sharedShares_pos⟩

def sharedStaking (delegations : KVStore Addr Shares) : Staking :=
  ⟨fun _ => delegationList delegations, fun _ => some sharedValidator⟩

def largeDelegation : KVStore Addr Shares := KVStore.empty.set [12] (wholeShares (10 ^ 7))

def withSmallDelegations (addresses : List Byte) : KVStore Addr Shares :=
  addresses.foldl (fun delegations address => delegations.set [address] (wholeShares 1))
    largeDelegation

theorem largeDelegation_grows {delegations : KVStore Addr Shares} {shares : Shares}
    (h : delegations.get [12] = some shares) (hle : wholeShares (10 ^ 7) ≤ shares) :
    largeDelegation.Grows delegations := by
  intro address shares' hget
  rw [largeDelegation, KVStore.get_set] at hget
  split at hget
  · rename_i e
    cases hget
    exact ⟨shares, e ▸ h, hle⟩
  · cases hget

/-- Two more delegations, and more shares at the validator that had some. -/
def raisedDelegations : KVStore Addr Shares :=
  (withSmallDelegations [1, 2]).set [12] (wholeShares (2 * 10 ^ 7))

theorem bonded_grows_when_raised :
    ∃ b b', getDelegatorBonded (sharedStaking largeDelegation) sampleAccount = .ok b ∧
    getDelegatorBonded (sharedStaking raisedDelegations) sampleAccount = .ok b' ∧ b ≤ b' := by
  have hsame : (sharedStaking raisedDelegations).getValidator =
      (sharedStaking largeDelegation).getValidator := rfl
  have hbefore : (sharedStaking largeDelegation).delegations sampleAccount =
      delegationList largeDelegation := rfl
  have hafter : (sharedStaking raisedDelegations).delegations sampleAccount =
      delegationList raisedDelegations := rfl
  have hgrows : largeDelegation.Grows raisedDelegations :=
    largeDelegation_grows (KVStore.get_set_self _ _ _) (by decide)
  have hfacts : StakeInRange (sharedStaking largeDelegation) sampleAccount ∧
      StakeInRange (sharedStaking raisedDelegations) sampleAccount ∧
      raisedDelegations.entries.length ≤ maxDelegations := by decide +kernel
  obtain ⟨hrange, hrange', hlen⟩ := hfacts
  obtain ⟨b, b', hb, hb', hle, hfew, _⟩ :=
    bonded_grows_when hsame hbefore hafter hgrows hrange hrange'
  exact ⟨b, b', hb, hb', (hle (hfew hlen)).1⟩

/-- Eleven small delegations come before the large one, which is then not counted. -/
theorem further_delegations_lower_stake :
    largeDelegation.Grows (withSmallDelegations [1, 2, 3, 4, 5, 6, 7, 8, 9, 10, 11]) ∧
    getDelegatorBonded (sharedStaking largeDelegation) sampleAccount = .ok (10 ^ 7) ∧
    getDelegatorBonded (sharedStaking (withSmallDelegations [1, 2, 3, 4, 5, 6, 7, 8, 9, 10, 11]))
      sampleAccount = .ok 11 ∧
    checkDelegations ⟨sampleCtx.block, sharedStaking largeDelegation⟩ sampleState
      (encodeHex sampleAccount) = .ok () ∧
    checkDelegations
      ⟨sampleCtx.block, sharedStaking (withSmallDelegations [1, 2, 3, 4, 5, 6, 7, 8, 9, 10, 11])⟩
      sampleState (encodeHex sampleAccount) = .error .insufficientBonded := by
  have hkept : (withSmallDelegations [1, 2, 3, 4, 5, 6, 7, 8, 9, 10, 11]).get [12] =
      some (wholeShares (10 ^ 7)) := by
    decide +kernel
  refine ⟨largeDelegation_grows hkept le_rfl, ?_⟩
  decide +kernel

end ZgChain.Dasigners
