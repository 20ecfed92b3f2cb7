import ZgChain.Bep3.Keeper

/-!
# The life of a swap

A swap is opened by its sender, claimed with the number behind its hash, or
refunded after it expired. The begin blocker expires open swaps and removes
completed ones.
-/

namespace ZgChain.Bep3

variable {A : ModuleAddrs}

def withBank (s : State A) (x : Except BankError (Bank A)) : Except Error (State A) :=
  Bank.store (fun b => { s with bank := b }) .bank x

@[simp] theorem withBank_eq_ok (s s' : State A) (x : Except BankError (Bank A)) :
    withBank s x = .ok s' ↔ ∃ b, x = .ok b ∧ { s with bank := b } = s' :=
  Bank.store_eq_ok

theorem withBank_bank {s s' : State A} {x : Except BankError (Bank A)} (h : withBank s x = .ok s') :
    x = .ok s'.bank :=
  Bank.stored State.bank (fun _ => rfl) h

/-! ## Creating -/

structure CreateArgs where
  randomNumberHash : Bytes
  timestamp : Int64
  heightSpan : UInt64
  sender : Addr
  recipient : Addr
  senderOtherChain : String
  recipientOtherChain : String
  amount : Coins
  crossChain : Bool
  deriving DecidableEq, Repr

def oneCoin : Coins → Except Error Coin
  | [coin] => .ok coin
  | _ => .error .notOneCoin

theorem oneCoin_eq_ok (amount : Coins) (coin : Coin) :
    oneCoin amount = .ok coin ↔ amount = [coin] := by
  unfold oneCoin
  split <;> simp_all

def swapDirection (asset : AssetParam) (sender recipient : Addr) : Except Error SwapDirection :=
  if sender = asset.deputyAddress then
    if recipient = asset.deputyAddress then .error (.deputyIsBoth asset.deputyAddress)
    else .ok .incoming
  else if recipient ≠ asset.deputyAddress then .error (.deputyNotRecipient recipient)
  else .ok .outgoing

def escrow (s : State A) (asset : AssetParam) (args : CreateArgs) (coin : Coin) :
    SwapDirection → Except Error (State A)
  | .incoming => do
    let s := { s with bank := s.bank.setAccount args.recipient }
    incrementIncomingAssetSupply s coin
  | .outgoing => do
    rejectIf (args.heightSpan < asset.minBlockLock ∨ asset.maxBlockLock < args.heightSpan)
      (.invalidHeightSpan args.heightSpan asset.minBlockLock asset.maxBlockLock)
    rejectIf (coin.amount ≤ asset.fixedFee + asset.minSwapAmount) (.insufficientAmount coin)
    let s ← incrementOutgoingAssetSupply s coin
    withBank s (s.bank.sendCoinsFromAccountToModule args.sender .bep3 args.amount)
  | .unspecified => .error (.invalidDirection .unspecified)

def newSwap (ctx : Ctx) (args : CreateArgs) (direction : SwapDirection) : AtomicSwap where
  amount := args.amount
  randomNumberHash := args.randomNumberHash
  expireHeight := UInt64.ofNat ctx.blockHeight + args.heightSpan
  timestamp := args.timestamp
  sender := args.sender
  recipient := args.recipient
  senderOtherChain := args.senderOtherChain
  recipientOtherChain := args.recipientOtherChain
  closedBlock := 0
  status := .open
  crossChain := args.crossChain
  direction := direction

def createAtomicSwap (env : Env) (ctx : Ctx) (s : State A) (args : CreateArgs) :
    Except Error (State A) := do
  let swapID := calculateSwapID env args.randomNumberHash args.sender args.senderOtherChain
  rejectIf ((getAtomicSwap s swapID).isSome = true) (.atomicSwapAlreadyExists swapID)
  rejectIf (A.moduleAccountAddrs args.recipient = true) (.moduleAccount args.recipient)
  let coin ← oneCoin args.amount
  let asset ← getAsset s coin.denom
  validateLiveAsset s coin
  rejectIf (coin.amount < asset.minSwapAmount ∨ asset.maxSwapAmount < coin.amount)
    (.invalidAmount coin.amount asset.minSwapAmount asset.maxSwapAmount)
  let pastTimestampLimit := Time.unix (ctx.blockTime - 15 * minute)
  let futureTimestampLimit := Time.unix (ctx.blockTime + 30 * minute)
  rejectIf (args.timestamp.toInt < pastTimestampLimit ∨ futureTimestampLimit ≤ args.timestamp.toInt)
    (.invalidTimestamp ctx.blockTime args.timestamp)
  let direction ← swapDirection asset args.sender args.recipient
  let s ← escrow s asset args coin direction
  let atomicSwap := newSwap ctx args direction
  return insertIntoByBlockIndex env (setAtomicSwap env s atomicSwap) atomicSwap

/-! ## Claiming -/

def firstCoin (a : AtomicSwap) : Except Error Coin :=
  orReject a.amount.head? (.panic "index out of range")

theorem firstCoin_cons {a : AtomicSwap} {coin : Coin} {rest : Coins}
    (ha : a.amount = coin :: rest) :
    firstCoin a = .ok coin := by
  rw [firstCoin, ha]
  rfl

def payClaim (s : State A) (a : AtomicSwap) : Except Error (State A) :=
  match a.direction with
  | .incoming => do
    let coin ← firstCoin a
    let s ← decrementIncomingAssetSupply s coin
    let s ← incrementCurrentAssetSupply s coin
    let s ← withBank s (s.bank.mintCoins .bep3 a.amount)
    withBank s (s.bank.sendCoinsFromModuleToAccount .bep3 a.recipient a.amount)
  | .outgoing => do
    let coin ← firstCoin a
    let s ← decrementOutgoingAssetSupply s coin
    let s ← decrementCurrentAssetSupply s coin
    withBank s (s.bank.burnCoins .bep3 a.amount)
  | .unspecified => .error (.invalidDirection .unspecified)

def completedSwap (ctx : Ctx) (a : AtomicSwap) : AtomicSwap :=
  { a with status := .completed, closedBlock := Int64.ofNat ctx.blockHeight }

def claimAtomicSwap (env : Env) (ctx : Ctx) (s : State A) (swapID randomNumber : Bytes) :
    Except Error (State A) := do
  let atomicSwap ← orReject (getAtomicSwap s swapID) (.atomicSwapNotFound swapID)
  rejectIf (atomicSwap.status ≠ .open) (.swapNotClaimable atomicSwap.status)
  let hashedSubmittedNumber := calculateRandomHash env randomNumber atomicSwap.timestamp
  let hashedSecret :=
    calculateSwapID env hashedSubmittedNumber atomicSwap.sender atomicSwap.senderOtherChain
  rejectIf (hashedSecret ≠ atomicSwap.getSwapID env) .invalidClaimSecret
  let s ← payClaim s atomicSwap
  let atomicSwap := completedSwap ctx atomicSwap
  let s := setAtomicSwap env s atomicSwap
  let s := removeFromByBlockIndex env s atomicSwap
  return insertIntoLongtermStorage env s atomicSwap

/-! ## Refunding -/

def payRefund (s : State A) (a : AtomicSwap) : Except Error (State A) :=
  match a.direction with
  | .incoming => do
    let coin ← firstCoin a
    decrementIncomingAssetSupply s coin
  | .outgoing => do
    let coin ← firstCoin a
    let s ← decrementOutgoingAssetSupply s coin
    withBank s (s.bank.sendCoinsFromModuleToAccount .bep3 a.sender a.amount)
  | .unspecified => .error (.invalidDirection .unspecified)

def refundAtomicSwap (env : Env) (ctx : Ctx) (s : State A) (swapID : Bytes) :
    Except Error (State A) := do
  let atomicSwap ← orReject (getAtomicSwap s swapID) (.atomicSwapNotFound swapID)
  rejectIf (atomicSwap.status ≠ .expired) (.swapNotRefundable atomicSwap.status)
  let s ← payRefund s atomicSwap
  let atomicSwap := completedSwap ctx atomicSwap
  let s := setAtomicSwap env s atomicSwap
  return insertIntoLongtermStorage env s atomicSwap

/-! ## The begin blocker -/

def expiredSwap (a : AtomicSwap) : AtomicSwap := { a with status := .expired }

def expireSwap (env : Env) (s : State A) (id : Bytes) : State A :=
  match getAtomicSwap s id with
  -- an ID without a swap is passed over
  | none => s
  | some atomicSwap =>
    let atomicSwap := expiredSwap atomicSwap
    setAtomicSwap env (removeFromByBlockIndex env s atomicSwap) atomicSwap

def expiringIDs (ctx : Ctx) (s : State A) : List Bytes :=
  iterateUpTo s.byBlock (UInt64.ofNat ctx.blockHeight)

def updateExpiredAtomicSwaps (env : Env) (ctx : Ctx) (s : State A) : State A :=
  (expiringIDs ctx s).foldl (expireSwap env) s

def deleteSwap (env : Env) (s : State A) (id : Bytes) : State A :=
  match getAtomicSwap s id with
  | none => s
  | some swap => removeFromLongtermStorage env (removeAtomicSwap s (swap.getSwapID env)) swap

def deletableIDs (ctx : Ctx) (s : State A) : List Bytes :=
  iterateUpTo s.longterm (UInt64.ofNat ctx.blockHeight)

def deleteClosedAtomicSwapsFromLongtermStorage (env : Env) (ctx : Ctx) (s : State A) : State A :=
  (deletableIDs ctx s).foldl (deleteSwap env) s

def beginBlocker (env : Env) (ctx : Ctx) (s : State A) : State A :=
  let s := updateTimeBasedSupplyLimits ctx s
  let s := updateExpiredAtomicSwaps env ctx s
  deleteClosedAtomicSwapsFromLongtermStorage env ctx s

/-! ## What the operations do -/

def PaysOnly (s s' : State A) : Prop :=
  ∃ σ b, (∀ d, (s.supplies.get d).isSome = true → (σ.get d).isSome = true) ∧
  s' = { s with supplies := σ, bank := b }

theorem PaysOnly.trans {s s₁ s' : State A} (h : PaysOnly s s₁) (h' : PaysOnly s₁ s') :
    PaysOnly s s' := by
  obtain ⟨_, _, hσ, rfl⟩ := h
  obtain ⟨_, _, hσ', rfl⟩ := h'
  exact ⟨_, _, fun d hd => hσ' d (hσ d hd), rfl⟩

theorem PaysOnly.ofBank (s : State A) (b : Bank A) : PaysOnly s { s with bank := b } :=
  ⟨s.supplies, b, fun _ h => h, rfl⟩

theorem isSome_setAssetSupply (s : State A) (supply : AssetSupply) (denom d : Denom)
    (h : (s.supplies.get d).isSome = true) :
    ((setAssetSupply s supply denom).supplies.get d).isSome = true := by
  rw [setAssetSupply, KVStore.get_set]
  split
  · rfl
  · exact h

def SetsSupply (s s' : State A) (denom : Denom) : Prop :=
  ∃ supply, s' = setAssetSupply s supply denom

theorem SetsSupply.pays {s s' : State A} {denom : Denom} (h : SetsSupply s s' denom) :
    PaysOnly s s' := by
  obtain ⟨supply, rfl⟩ := h
  exact ⟨_, s.bank, isSome_setAssetSupply s supply denom, rfl⟩

theorem SetsSupply.bank {s s' : State A} {denom : Denom} (h : SetsSupply s s' denom) :
    s'.bank = s.bank := by
  obtain ⟨supply, rfl⟩ := h
  rfl

theorem withBank_pays {s s' : State A} {x : Except BankError (Bank A)} (h : withBank s x = .ok s') :
    PaysOnly s s' := by
  obtain ⟨b, _, rfl⟩ := (withBank_eq_ok s s' x).mp h
  exact PaysOnly.ofBank s b

theorem incrementCurrentAssetSupply_sets {s s' : State A} {coin : Coin}
    (h : incrementCurrentAssetSupply s coin = .ok s') : SetsSupply s s' coin.denom := by
  simp only [incrementCurrentAssetSupply, bind_eq_ok, pure_eq_ok] at h
  obtain ⟨_, _, _, _, _, _, _, _, _, _, _, _, rfl⟩ := h
  exact ⟨_, rfl⟩

theorem incrementIncomingAssetSupply_sets {s s' : State A} {coin : Coin}
    (h : incrementIncomingAssetSupply s coin = .ok s') : SetsSupply s s' coin.denom := by
  simp only [incrementIncomingAssetSupply, bind_eq_ok, pure_eq_ok] at h
  obtain ⟨_, _, _, _, _, _, _, _, _, _, _, _, _, _, _, _, rfl⟩ := h
  exact ⟨_, rfl⟩

theorem incrementOutgoingAssetSupply_sets {s s' : State A} {coin : Coin}
    (h : incrementOutgoingAssetSupply s coin = .ok s') : SetsSupply s s' coin.denom := by
  simp only [incrementOutgoingAssetSupply, bind_eq_ok, pure_eq_ok] at h
  obtain ⟨_, _, _, _, _, _, _, _, rfl⟩ := h
  exact ⟨_, rfl⟩

theorem decrementAssetSupply_sets {counter : AssetSupply → Coin}
    {update : AssetSupply → Coin → AssetSupply}
    {error : Coin → Coin → Error} {s s' : State A} {coin : Coin}
    (h : decrementAssetSupply counter update error s coin = .ok s') :
    SetsSupply s s' coin.denom := by
  simp only [decrementAssetSupply, bind_eq_ok, pure_eq_ok] at h
  obtain ⟨_, _, _, _, _, _, rfl⟩ := h
  exact ⟨_, rfl⟩

theorem escrow_pays {s s' : State A} {asset : AssetParam} {args : CreateArgs} {coin : Coin}
    {dir : SwapDirection} (h : escrow s asset args coin dir = .ok s') : PaysOnly s s' := by
  cases dir with
  | unspecified => cases h
  | incoming =>
    exact (PaysOnly.ofBank s (s.bank.setAccount args.recipient)).trans
      (incrementIncomingAssetSupply_sets h).pays
  | outgoing =>
    simp only [escrow, bind_eq_ok] at h
    obtain ⟨_, _, _, _, s₁, h₁, h₂⟩ := h
    exact (incrementOutgoingAssetSupply_sets h₁).pays.trans (withBank_pays h₂)

inductive PaidClaim (s : State A) (a : AtomicSwap) (s' : State A) : Prop where
  | incoming {coin : Coin} {s₁ s₂ s₃ : State A} (hd : a.direction = .incoming)
      (hcoin : firstCoin a = .ok coin)
      (h₁ : decrementIncomingAssetSupply s coin = .ok s₁)
        (h₂ : incrementCurrentAssetSupply s₁ coin = .ok s₂)
      (h₃ : withBank s₂ (s₂.bank.mintCoins .bep3 a.amount) = .ok s₃)
      (h₄ : withBank s₃ (s₃.bank.sendCoinsFromModuleToAccount .bep3 a.recipient a.amount) =
        .ok s') : PaidClaim s a s'
  | outgoing {coin : Coin} {s₁ s₂ : State A} (hd : a.direction = .outgoing)
      (hcoin : firstCoin a = .ok coin)
      (h₁ : decrementOutgoingAssetSupply s coin = .ok s₁)
        (h₂ : decrementCurrentAssetSupply s₁ coin = .ok s₂)
      (h₃ : withBank s₂ (s₂.bank.burnCoins .bep3 a.amount) = .ok s') : PaidClaim s a s'

theorem payClaim_ok {s s' : State A} {a : AtomicSwap} (h : payClaim s a = .ok s') :
    PaidClaim s a s' := by
  unfold payClaim at h
  cases hd : a.direction with
  | unspecified => simp [hd] at h
  | incoming =>
    simp only [hd, bind_eq_ok] at h
    obtain ⟨_, hcoin, _, h₁, _, h₂, _, h₃, h₄⟩ := h
    exact .incoming hd hcoin h₁ h₂ h₃ h₄
  | outgoing =>
    simp only [hd, bind_eq_ok] at h
    obtain ⟨_, hcoin, _, h₁, _, h₂, h₃⟩ := h
    exact .outgoing hd hcoin h₁ h₂ h₃

inductive PaidRefund (s : State A) (a : AtomicSwap) (s' : State A) : Prop where
  | incoming {coin : Coin} (hd : a.direction = .incoming) (hcoin : firstCoin a = .ok coin)
      (h₁ : decrementIncomingAssetSupply s coin = .ok s') : PaidRefund s a s'
  | outgoing {coin : Coin} {s₁ : State A} (hd : a.direction = .outgoing)
      (hcoin : firstCoin a = .ok coin)
      (h₁ : decrementOutgoingAssetSupply s coin = .ok s₁)
      (h₂ : withBank s₁ (s₁.bank.sendCoinsFromModuleToAccount .bep3 a.sender a.amount) = .ok s') :
        PaidRefund s a s'

theorem payRefund_ok {s s' : State A} {a : AtomicSwap} (h : payRefund s a = .ok s') :
    PaidRefund s a s' := by
  unfold payRefund at h
  cases hd : a.direction with
  | unspecified => simp [hd] at h
  | incoming =>
    simp only [hd, bind_eq_ok] at h
    obtain ⟨_, hcoin, h₁⟩ := h
    exact .incoming hd hcoin h₁
  | outgoing =>
    simp only [hd, bind_eq_ok] at h
    obtain ⟨_, hcoin, _, h₁, h₂⟩ := h
    exact .outgoing hd hcoin h₁ h₂

theorem payClaim_pays {s s' : State A} {a : AtomicSwap} (h : payClaim s a = .ok s') :
    PaysOnly s s' := by
  cases payClaim_ok h with
  | incoming _ _ h₁ h₂ h₃ h₄ =>
    exact (((decrementAssetSupply_sets h₁).pays.trans
      (incrementCurrentAssetSupply_sets h₂).pays).trans
      (withBank_pays h₃)).trans (withBank_pays h₄)
  | outgoing _ _ h₁ h₂ h₃ =>
    exact ((decrementAssetSupply_sets h₁).pays.trans (decrementAssetSupply_sets h₂).pays).trans
      (withBank_pays h₃)

theorem payRefund_pays {s s' : State A} {a : AtomicSwap} (h : payRefund s a = .ok s') :
    PaysOnly s s' := by
  cases payRefund_ok h with
  | incoming _ _ h₁ => exact (decrementAssetSupply_sets h₁).pays
  | outgoing _ _ h₁ h₂ => exact (decrementAssetSupply_sets h₁).pays.trans (withBank_pays h₂)

def SameDenoms (s s' : State A) : Prop :=
  ∀ d, (s'.supplies.get d).isSome = true → (s.supplies.get d).isSome = true

theorem SameDenoms.trans {s s₁ s' : State A} (h : SameDenoms s s₁) (h' : SameDenoms s₁ s') :
    SameDenoms s s' :=
  fun d hd => h d (h' d hd)

theorem SameDenoms.set {s : State A} {denom : Denom} {sup : AssetSupply}
    (h : getAssetSupply s denom = .ok sup)
    (supply : AssetSupply) : SameDenoms s (setAssetSupply s supply denom) := by
  have h := (orReject_eq_ok _ _ _).mp h
  intro d hd
  rw [setAssetSupply, KVStore.get_set] at hd
  split at hd
  · rename_i e
    rw [e, h]
    rfl
  · exact hd

theorem withBank_denoms {s s' : State A} {x : Except BankError (Bank A)}
    (h : withBank s x = .ok s') : SameDenoms s s' := by
  obtain ⟨b, _, rfl⟩ := (withBank_eq_ok s s' x).mp h
  exact fun _ h => h

theorem incrementCurrentAssetSupply_denoms {s s' : State A} {coin : Coin}
    (h : incrementCurrentAssetSupply s coin = .ok s') : SameDenoms s s' := by
  simp only [incrementCurrentAssetSupply, bind_eq_ok, pure_eq_ok] at h
  obtain ⟨_, hs, _, _, _, _, _, _, _, _, _, _, rfl⟩ := h
  exact SameDenoms.set hs _

theorem incrementIncomingAssetSupply_denoms {s s' : State A} {coin : Coin}
    (h : incrementIncomingAssetSupply s coin = .ok s') : SameDenoms s s' := by
  simp only [incrementIncomingAssetSupply, bind_eq_ok, pure_eq_ok] at h
  obtain ⟨_, hs, _, _, _, _, _, _, _, _, _, _, _, _, _, _, rfl⟩ := h
  exact SameDenoms.set hs _

theorem incrementOutgoingAssetSupply_denoms {s s' : State A} {coin : Coin}
    (h : incrementOutgoingAssetSupply s coin = .ok s') : SameDenoms s s' := by
  simp only [incrementOutgoingAssetSupply, bind_eq_ok, pure_eq_ok] at h
  obtain ⟨_, hs, _, _, _, _, _, _, rfl⟩ := h
  exact SameDenoms.set hs _

theorem decrementAssetSupply_denoms {counter : AssetSupply → Coin}
    {update : AssetSupply → Coin → AssetSupply}
    {error : Coin → Coin → Error} {s s' : State A} {coin : Coin}
    (h : decrementAssetSupply counter update error s coin = .ok s') : SameDenoms s s' := by
  simp only [decrementAssetSupply, bind_eq_ok, pure_eq_ok] at h
  obtain ⟨_, hs, _, _, _, _, rfl⟩ := h
  exact SameDenoms.set hs _

theorem escrow_denoms {s s' : State A} {asset : AssetParam} {args : CreateArgs} {coin : Coin}
    {dir : SwapDirection} (h : escrow s asset args coin dir = .ok s') : SameDenoms s s' := by
  cases dir with
  | unspecified => cases h
  | incoming =>
    have h₁ := incrementIncomingAssetSupply_denoms h
    exact h₁
  | outgoing =>
    simp only [escrow, bind_eq_ok] at h
    obtain ⟨_, _, _, _, s₁, h₁, h₂⟩ := h
    exact (incrementOutgoingAssetSupply_denoms h₁).trans (withBank_denoms h₂)

theorem payClaim_denoms {s s' : State A} {a : AtomicSwap} (h : payClaim s a = .ok s') :
    SameDenoms s s' := by
  cases payClaim_ok h with
  | incoming _ _ h₁ h₂ h₃ h₄ =>
    exact (((decrementAssetSupply_denoms h₁).trans (incrementCurrentAssetSupply_denoms h₂)).trans
      (withBank_denoms h₃)).trans (withBank_denoms h₄)
  | outgoing _ _ h₁ h₂ h₃ =>
    exact ((decrementAssetSupply_denoms h₁).trans (decrementAssetSupply_denoms h₂)).trans
      (withBank_denoms h₃)

theorem payRefund_denoms {s s' : State A} {a : AtomicSwap} (h : payRefund s a = .ok s') :
    SameDenoms s s' := by
  cases payRefund_ok h with
  | incoming _ _ h₁ => exact decrementAssetSupply_denoms h₁
  | outgoing _ _ h₁ h₂ => exact (decrementAssetSupply_denoms h₁).trans (withBank_denoms h₂)

/-- What a successful creation checked and did. -/
structure Created (env : Env) (ctx : Ctx) (s : State A) (args : CreateArgs) (coin : Coin)
    (asset : AssetParam) (direction : SwapDirection) (s₁ s' : State A) : Prop where
  amount : args.amount = [coin]
  fresh : s.swaps.get ((newSwap ctx args direction).getSwapID env) = none
  recipient : A.moduleAccountAddrs args.recipient = false
  supported : getAsset s coin.denom = .ok asset
  active : asset.active = true
  bounds : asset.minSwapAmount ≤ coin.amount ∧ coin.amount ≤ asset.maxSwapAmount
  directed : swapDirection asset args.sender args.recipient = .ok direction
  escrowed : escrow s asset args coin direction = .ok s₁
  state : s' = insertIntoByBlockIndex env (setAtomicSwap env s₁ (newSwap ctx args direction))
    (newSwap ctx args direction)

theorem createAtomicSwap_ok {env : Env} {ctx : Ctx} {s s' : State A} {args : CreateArgs}
    (h : createAtomicSwap env ctx s args = .ok s') :
    ∃ coin asset direction s₁, Created env ctx s args coin asset direction s₁ s' := by
  simp only [createAtomicSwap, validateLiveAsset, bind_eq_ok, pure_eq_ok, rejectIf_eq_ok,
    Bool.not_eq_true, Option.isSome_eq_false_iff, Option.isNone_iff_eq_none, Bool.not_eq_false,
    not_or, not_lt, oneCoin_eq_ok] at h
  obtain ⟨_, hfresh, _, hrec, coin, hcoin, asset, hasset, _, ⟨asset', hasset', hactive⟩, _, hbounds,
    _, _, direction,
    hdir, s₁, hs₁, rfl⟩ := h
  rw [hasset] at hasset'
  cases hasset'
  exact ⟨coin, asset, direction, s₁,
    ⟨hcoin, hfresh, hrec, hasset, hactive, hbounds, hdir, hs₁, rfl⟩⟩

theorem claimAtomicSwap_ok {env : Env} {ctx : Ctx} {s s' : State A} {id randomNumber : Bytes}
    (h : claimAtomicSwap env ctx s id randomNumber = .ok s') :
    ∃ a s₁, s.swaps.get id = some a ∧ a.status = .open ∧
      calculateSwapID env (calculateRandomHash env randomNumber a.timestamp) a.sender
        a.senderOtherChain =
        a.getSwapID env ∧
      payClaim s a = .ok s₁ ∧
      s' = insertIntoLongtermStorage env
        (removeFromByBlockIndex env (setAtomicSwap env s₁ (completedSwap ctx a))
        (completedSwap ctx a)) (completedSwap ctx a) := by
  simp only [claimAtomicSwap, bind_eq_ok, pure_eq_ok, rejectIf_eq_ok, orReject_eq_ok, not_not] at h
  obtain ⟨a, ha, _, ho, _, hh, s₁, h₁, rfl⟩ := h
  exact ⟨a, s₁, ha, ho, hh, h₁, rfl⟩

theorem refundAtomicSwap_ok {env : Env} {ctx : Ctx} {s s' : State A} {id : Bytes}
    (h : refundAtomicSwap env ctx s id = .ok s') :
    ∃ a s₁, s.swaps.get id = some a ∧ a.status = .expired ∧ payRefund s a = .ok s₁ ∧
      s' = insertIntoLongtermStorage env (setAtomicSwap env s₁ (completedSwap ctx a))
        (completedSwap ctx a) := by
  simp only [refundAtomicSwap, bind_eq_ok, pure_eq_ok, rejectIf_eq_ok, orReject_eq_ok, not_not] at h
  obtain ⟨a, ha, _, he, s₁, h₁, rfl⟩ := h
  exact ⟨a, s₁, ha, he, h₁, rfl⟩

/-! ## Runs -/

inductive Op where
  | create (ctx : Ctx) (args : CreateArgs)
  | claim (ctx : Ctx) (swapID randomNumber : Bytes)
  | refund (ctx : Ctx) (swapID : Bytes)
  | beginBlock (ctx : Ctx)

def step (env : Env) (s : State A) : Op → State A
  -- a failed message leaves the state as it was
  | .create ctx args => orElseKeep s (createAtomicSwap env ctx s args)
  | .claim ctx swapID randomNumber => orElseKeep s (claimAtomicSwap env ctx s swapID randomNumber)
  | .refund ctx swapID => orElseKeep s (refundAtomicSwap env ctx s swapID)
  | .beginBlock ctx => beginBlocker env ctx s

end ZgChain.Bep3
