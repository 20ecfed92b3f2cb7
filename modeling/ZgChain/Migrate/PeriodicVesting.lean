import ZgChain.Lib.Schedule
import ZgChain.Sdk.Coins

/-!
# Periodic vesting accounts

An account with coins that vest in periods, and its reset to a new start time: the
periods that have ended are left out, the first one that is left becomes longer or
shorter, and coins that are delegated as vesting and have vested count as free. Times
and lengths are seconds in 64 signed bits. A panic is `none`.
-/

namespace ZgChain.Migrate

structure Period where
  length : Int64
  amount : ValidCoins

structure PeriodicVestingAccount where
  startTime : Int64
  endTime : Int64
  originalVesting : ValidCoins
  delegatedFree : ValidCoins
  delegatedVesting : ValidCoins
  vestingPeriods : List Period

/-! ## The reset -/

structure PeriodLoop where
  currentPeriod : Int64
  newOriginalVesting : ValidCoins
  newPeriods : List Period

/-- One period: its length is counted from the new start time if it is the first that is kept. -/
def resetPeriod (newStartTime : Int64) (l : PeriodLoop) (period : Period) : Option PeriodLoop :=
  let currentPeriod := l.currentPeriod + period.length
  if newStartTime < currentPeriod then do
    let period := if l.newPeriods.isEmpty then
      { period with length := currentPeriod - newStartTime } else period
    let newOriginalVesting ← l.newOriginalVesting.add period.amount
    return ⟨currentPeriod, newOriginalVesting, l.newPeriods ++ [period]⟩
  else some { l with currentPeriod }

structure Delegated where
  vesting : ValidCoins
  free : ValidCoins

def newCoin (denom : Denom) (amount : Int) : Option Coin :=
  if Coin.isValid ⟨denom, amount⟩ = true then some ⟨denom, amount⟩ else none

/-- One delegated coin: what is more than the new original vesting amount is free. -/
def adjustDelegation (newOriginalVesting : ValidCoins) (acc : Delegated)
    (delegatedVestingCoin : Coin) : Option Delegated := do
  let newDelegatedVestingCoin ← newCoin delegatedVestingCoin.denom
    (min delegatedVestingCoin.amount (newOriginalVesting.amountOf delegatedVestingCoin.denom))
  let delegationAdjustment ← delegatedVestingCoin.sub newDelegatedVestingCoin
  if delegationAdjustment.amount = 0 then return acc
  let adjustment ← ValidCoins.ofCoin delegationAdjustment
  let vesting ← acc.vesting.sub adjustment
  let free ← acc.free.add adjustment
  return ⟨vesting, free⟩

def resetPeriodicVestingAccount (vacc : PeriodicVestingAccount) (newStartTime : Int64) :
    Option PeriodicVestingAccount := do
  let l ← vacc.vestingPeriods.foldlM (resetPeriod newStartTime) ⟨vacc.startTime, .empty, []⟩
  let acc ← vacc.delegatedVesting.coins.foldlM (adjustDelegation l.newOriginalVesting)
    ⟨vacc.delegatedVesting, vacc.delegatedFree⟩
  return {
    startTime := newStartTime
    endTime := if vacc.endTime ≤ newStartTime then newStartTime else vacc.endTime
    originalVesting := l.newOriginalVesting
    delegatedFree := acc.free
    delegatedVesting := acc.vesting
    vestingPeriods := l.newPeriods }

/-! ## Coins that vest -/

def Period.entry (p : Period) : Int × ValidCoins := (p.length.toInt, p.amount)

@[simp] theorem Period.entry_fst (p : Period) : p.entry.1 = p.length.toInt := rfl

@[simp] theorem Period.entry_snd (p : Period) : p.entry.2 = p.amount := rfl

namespace PeriodicVestingAccount

variable (vacc : PeriodicVestingAccount)

def schedule : List (Int × ValidCoins) := vacc.vestingPeriods.map Period.entry

/-- The coins that have vested: a period vests when its end is reached. -/
def vestedCoins (t : Int) (d : Denom) : Int :=
  endedAt (fun amount => amount.amountOf d) vacc.startTime.toInt vacc.schedule t

def vestingCoins (t : Int) (d : Denom) : Int :=
  vacc.originalVesting.amountOf d - vacc.vestedCoins t d

def lockedCoins (t : Int) (d : Denom) : Int :=
  max 0 (vacc.vestingCoins t d - vacc.delegatedVesting.amountOf d)

def firstEndAfter (t : Int) : Option Int :=
  ((timeline vacc.startTime.toInt vacc.schedule).find? fun e => t < e.1).map Prod.fst

/-- The original vesting amount and the end time are those of the periods. -/
structure WellFormed : Prop where
  lengths : ∀ p ∈ vacc.vestingPeriods, 0 < p.length.toInt
  original : ∀ d, vacc.originalVesting.amountOf d = (vacc.schedule.map fun p => p.2.amountOf d).sum
  endTime : vacc.endTime.toInt = vacc.startTime.toInt + duration vacc.schedule

end PeriodicVestingAccount

end ZgChain.Migrate
