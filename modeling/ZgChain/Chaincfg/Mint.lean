import ZgChain.Sdk.Dec

/-!
# The inflation rate

The rate that stakers get falls exponentially with the part of the circulating supply
that is staked. The exponential function of the decimals is a parameter. A panic of an
operation on decimals is `none`.
-/

namespace ZgChain.Chaincfg

/-- Upper limit on the staked supply. -/
def xmax : StoredDec := .ofUnits 1000000000000000000

/-- Target at the upper limit. -/
def ymin : StoredDec := .ofUnits 50000000000000000

/-- Lower limit on the staked supply. -/
def xmin : StoredDec := .ofUnits 200000000000000000

/-- Target at the lower limit. -/
def ymax : StoredDec := .ofUnits 150000000000000000

def decayRate : StoredDec := .ofUnits 10000000000000000000

def oneDec : StoredDec := .ofUnits 1000000000000000000

section
variable (decExp : StoredDec → StoredDec)

/-- The value the curve tends to. -/
def asymptote : Option StoredDec := do
  let span ← xmax.sub xmin
  let exp ← decayRate.neg.mul span
  let c := decExp exp
  let weighted ← ymax.mul c
  let num ← ymin.sub weighted
  let den ← oneDec.sub c
  num.quo den.val

def apy (bondedRatio circulatingRatio : StoredDec) : Option StoredDec := do
  let X ← bondedRatio.quo circulatingRatio.val
  if X.val < xmin.val then return ymax
  let d ← asymptote decExp
  let excess ← X.sub xmin
  let expBonded ← decayRate.neg.mul excess
  let cBonded := decExp expBonded
  let range ← ymax.sub d
  let e ← range.mul cBonded
  d.add e

def nextInflationRate (bondedRatio circulatingRatio : StoredDec) : Option StoredDec := do
  let apy ← apy decExp bondedRatio circulatingRatio
  apy.mul bondedRatio

end

end ZgChain.Chaincfg
