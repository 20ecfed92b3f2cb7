import ZgChain.Dasigners.Keeper

/-!
# Data availability signers: queries

Lookups of signers, epochs and quorums, and the sum of the keys of the signers
that a bitmap over the rows of a quorum selects.
-/

namespace ZgChain.Dasigners.Query

open Bn254util

/-- The records of the accounts; nothing, and no error, if one of them has none. -/
def signer (s : State) : List String → Except Error (Option (List Signer))
  | [] => .ok (some [])
  | account :: rest => do
    let found ← getSigner s account
    match found with
    | none => return none
    | some signer' =>
      let others ← signer s rest
      return others.map (signer' :: ·)

def epochQuorumRow (s : State) (epoch quorumId : UInt64) (rowIndex : UInt32) :
    Except Error String := do
  let signers ← getEpochQuorum s epoch quorumId
  orReject signers[rowIndex.toNat]? .rowIndexOutOfBound

/-! ## Aggregate keys -/

structure Aggregate where
  pubkeyG1 : G1Affine
  hit : Nat
  added : List String

/-- Whether row `i` is selected; a row outside the bitmap makes the code panic. -/
def rowBit (quorumBitmap : Bytes) (i : Nat) : Except Error Bool := do
  let b ← orReject quorumBitmap[i / 8]? (.panic "runtime error: index out of range")
  return b.val.testBit (i % 8)

def addKey (env : Env) (s : State) (acc : Aggregate) (account : String) :
    Except Error Aggregate := do
  let found ← getSigner s account
  let signer ← orReject found .signerNotFound
  let pubkeyG1 ← orReject (deserializeG1 signer.pubkeyG1) sliceOutOfRange
  return ⟨env.curve.add acc.pubkeyG1 pubkeyG1, acc.hit + 1, account :: acc.added⟩

def addRow (env : Env) (s : State) (quorumBitmap : Bytes) (i : Nat) (acc : Aggregate)
    (account : String) :
    Except Error Aggregate :=
  if account ∈ acc.added then .ok { acc with hit := acc.hit + 1 }
  else do
    let b ← rowBit quorumBitmap i
    if b = false then return acc
    addKey env s acc account

def addRows (env : Env) (s : State) (quorumBitmap : Bytes) :
    Nat → Aggregate → Quorum → Except Error Aggregate
  | _, acc, [] => .ok acc
  | i, acc, account :: rest => do
    let acc ← addRow env s quorumBitmap i acc account
    addRows env s quorumBitmap (i + 1) acc rest

structure AggregatePubkeyG1Response where
  aggregatePubkeyG1 : Bytes
  total : UInt64
  hit : UInt64
  deriving DecidableEq, Repr

def aggregatePubkeyG1 (env : Env) (s : State) (epoch quorumId : UInt64) (quorumBitmap : Bytes) :
    Except Error AggregatePubkeyG1Response := do
  let signers ← getEpochQuorum s epoch quorumId
  rejectIf ((signers.length + 7) / 8 ≠ quorumBitmap.length) .quorumBitmapLengthMismatch
  let acc ← addRows env s quorumBitmap 0 ⟨⟨0, 0⟩, 0, []⟩ signers
  return ⟨serializeG1 acc.pubkeyG1, UInt64.ofNat signers.length, UInt64.ofNat acc.hit⟩

end ZgChain.Dasigners.Query
