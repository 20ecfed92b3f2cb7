import ZgChain.Bep3.Swap
import ZgChain.Lib.Ledger

/-!
# The supply counters

When every stored supply counts coins of its own denom, as those of a new chain
do, no coin arithmetic panics. Each supply operation then succeeds exactly when
the supply exists and its bounds hold, and it changes one or two counters by the
amount of its coin.
-/

namespace ZgChain.Bep3

variable {A : ModuleAddrs} {s s' : State A} {coin : Coin}

structure AssetSupply.OfDenom (sup : AssetSupply) (d : Denom) : Prop where
  incoming : sup.incomingSupply.denom = d
  outgoing : sup.outgoingSupply.denom = d
  current : sup.currentSupply.denom = d
  timeLimited : sup.timeLimitedCurrentSupply.denom = d

def SupplyDenoms (s : State A) : Prop := ∀ d sup, s.supplies.get d = some sup → sup.OfDenom d

theorem SupplyDenoms.set (h : SupplyDenoms s) {sup : AssetSupply} {d : Denom} (hs : sup.OfDenom d) :
    SupplyDenoms (setAssetSupply s sup d) := by
  intro d' sup' h'
  rw [setAssetSupply, KVStore.get_set] at h'
  split at h'
  · rename_i e
    cases h'
    exact e ▸ hs
  · exact h d' sup' h'

theorem addCoin_of {a b : Coin} (h : a.denom = b.denom) :
    addCoin a b = .ok ⟨a.denom, a.amount + b.amount⟩ := by
  simp [addCoin, Coin.add, h, orReject]

theorem subCoin_of {a b : Coin} (h : a.denom = b.denom) (hle : b.amount ≤ a.amount) :
    subCoin a b = .ok ⟨a.denom, a.amount - b.amount⟩ := by
  simp [subCoin, Coin.sub, h, hle, orReject]

theorem coinIsLT_mk (d : Denom) (m n : Int) : coinIsLT ⟨d, m⟩ ⟨d, n⟩ = .ok (decide (m < n)) := by
  simp [coinIsLT, Coin.isLT, orReject]

theorem coin_eta {a : Coin} {d : Denom} (h : a.denom = d) : a = ⟨d, a.amount⟩ := by
  subst h
  rfl

/-! ## The operations -/

theorem incrementCurrentAssetSupply_iff (hw : SupplyDenoms s) :
    incrementCurrentAssetSupply s coin = .ok s' ↔
      ∃ sup asset, s.supplies.get coin.denom = some sup ∧ getAsset s coin.denom = .ok asset ∧
        sup.currentSupply.amount + coin.amount ≤ asset.supplyLimit.limit ∧
        (asset.supplyLimit.timeLimited = true →
          sup.timeLimitedCurrentSupply.amount + coin.amount ≤ asset.supplyLimit.timeBasedLimit) ∧
        setAssetSupply s { sup with
          currentSupply := ⟨coin.denom, sup.currentSupply.amount + coin.amount⟩
          timeLimitedCurrentSupply := ⟨coin.denom, sup.timeLimitedCurrentSupply.amount +
            if asset.supplyLimit.timeLimited = true then coin.amount else 0⟩ } coin.denom = s' := by
  unfold incrementCurrentAssetSupply getSupplyLimit getAssetSupply
  cases hs : s.supplies.get coin.denom with
  | none => simp [orReject]
  | some sup =>
    have hd := hw coin.denom sup hs
    cases ha : getAsset s coin.denom with
    | error e => simp [orReject]
    | ok asset =>
      simp only [orReject, ok_bind, pure_bind, addCoin_of hd.current, addCoin_of hd.timeLimited,
        hd.current, hd.timeLimited, coinIsLT_mk, bind_eq_ok, rejectIf_eq_ok, decide_eq_true_eq,
        not_lt, exists_const, Option.some.injEq, Except.ok.injEq, exists_and_left, exists_eq_left',
        pure_eq_ok]
      cases asset.supplyLimit.timeLimited with
      | false => simp [← coin_eta hd.timeLimited]
      | true => simp [-bind_pure_comp, and_assoc]

theorem incrementIncomingAssetSupply_iff (hw : SupplyDenoms s) :
    incrementIncomingAssetSupply s coin = .ok s' ↔
      ∃ sup asset, s.supplies.get coin.denom = some sup ∧ getAsset s coin.denom = .ok asset ∧
        sup.currentSupply.amount + sup.incomingSupply.amount + coin.amount ≤
          asset.supplyLimit.limit ∧
        (asset.supplyLimit.timeLimited = true →
          sup.timeLimitedCurrentSupply.amount + sup.incomingSupply.amount + coin.amount ≤
            asset.supplyLimit.timeBasedLimit) ∧
        setAssetSupply s { sup with
          incomingSupply := ⟨coin.denom, sup.incomingSupply.amount + coin.amount⟩ }
            coin.denom = s' := by
  unfold incrementIncomingAssetSupply getSupplyLimit getAssetSupply
  cases hs : s.supplies.get coin.denom with
  | none => simp [orReject]
  | some sup =>
    have hd := hw coin.denom sup hs
    have h₁ := addCoin_of (hd.current.trans hd.incoming.symm)
    have h₂ := addCoin_of (hd.timeLimited.trans hd.incoming.symm)
    have h₃ (n : Int) : addCoin ⟨coin.denom, n⟩ coin = .ok ⟨coin.denom, n + coin.amount⟩ :=
      addCoin_of rfl
    cases ha : getAsset s coin.denom with
    | error e => simp [orReject, h₁]
    | ok asset =>
      simp only [orReject, ok_bind, pure_bind, h₁, h₂, h₃, addCoin_of hd.incoming, hd.current,
        hd.incoming, hd.timeLimited, coinIsLT_mk, bind_eq_ok, rejectIf_eq_ok, decide_eq_true_eq,
        not_lt, exists_const, Option.some.injEq, Except.ok.injEq, exists_and_left, exists_eq_left',
        pure_eq_ok]
      cases asset.supplyLimit.timeLimited with
      | false => simp
      | true => simp

theorem incrementOutgoingAssetSupply_iff (hw : SupplyDenoms s) :
    incrementOutgoingAssetSupply s coin = .ok s' ↔
      ∃ sup, s.supplies.get coin.denom = some sup ∧
        sup.outgoingSupply.amount + coin.amount ≤ sup.currentSupply.amount ∧
        setAssetSupply s { sup with
          outgoingSupply := ⟨coin.denom, sup.outgoingSupply.amount + coin.amount⟩ }
            coin.denom = s' := by
  unfold incrementOutgoingAssetSupply getAssetSupply
  cases hs : s.supplies.get coin.denom with
  | none => simp [orReject]
  | some sup =>
    have hd := hw coin.denom sup hs
    have hlt (n : Int) : coinIsLT sup.currentSupply ⟨coin.denom, n⟩ =
        .ok (decide (sup.currentSupply.amount < n)) := by
      rw [coin_eta hd.current, coinIsLT_mk]
    simp only [orReject, ok_bind, addCoin_of hd.outgoing, hd.outgoing, hlt, bind_eq_ok,
      rejectIf_eq_ok, decide_eq_true_eq, not_lt, exists_const, Option.some.injEq, exists_eq_left',
      pure_eq_ok]

theorem decrementAssetSupply_iff {counter : AssetSupply → Coin}
    {update : AssetSupply → Coin → AssetSupply} {error : Coin → Coin → Error}
    (hw : ∀ sup, s.supplies.get coin.denom = some sup → (counter sup).denom = coin.denom) :
    decrementAssetSupply counter update error s coin = .ok s' ↔
      ∃ sup, s.supplies.get coin.denom = some sup ∧ coin.amount ≤ (counter sup).amount ∧
        setAssetSupply s (update sup ⟨coin.denom, (counter sup).amount - coin.amount⟩)
          coin.denom = s' := by
  unfold decrementAssetSupply getAssetSupply
  cases hs : s.supplies.get coin.denom with
  | none => simp [orReject]
  | some sup =>
    have hd := hw sup hs
    by_cases hle : coin.amount ≤ (counter sup).amount
    · have hn : ¬ (counter sup).amount - coin.amount < 0 := by omega
      simp only [orReject, ok_bind, rejectIf_neg hn, subCoin_of hd hle, hd, pure_eq_ok]
      simp [hle]
    · simp [orReject, rejectIf, hle]

theorem decrementCurrentAssetSupply_iff (hw : SupplyDenoms s) :
    decrementCurrentAssetSupply s coin = .ok s' ↔
      ∃ sup, s.supplies.get coin.denom = some sup ∧ coin.amount ≤ sup.currentSupply.amount ∧
        setAssetSupply s
          { sup with currentSupply := ⟨coin.denom, sup.currentSupply.amount - coin.amount⟩ }
            coin.denom = s' :=
  decrementAssetSupply_iff fun sup hs => (hw coin.denom sup hs).current

theorem decrementIncomingAssetSupply_iff (hw : SupplyDenoms s) :
    decrementIncomingAssetSupply s coin = .ok s' ↔
      ∃ sup, s.supplies.get coin.denom = some sup ∧ coin.amount ≤ sup.incomingSupply.amount ∧
        setAssetSupply s
          { sup with incomingSupply := ⟨coin.denom, sup.incomingSupply.amount - coin.amount⟩ }
            coin.denom = s' :=
  decrementAssetSupply_iff fun sup hs => (hw coin.denom sup hs).incoming

theorem decrementOutgoingAssetSupply_iff (hw : SupplyDenoms s) :
    decrementOutgoingAssetSupply s coin = .ok s' ↔
      ∃ sup, s.supplies.get coin.denom = some sup ∧ coin.amount ≤ sup.outgoingSupply.amount ∧
        setAssetSupply s
          { sup with outgoingSupply := ⟨coin.denom, sup.outgoingSupply.amount - coin.amount⟩ }
            coin.denom = s' :=
  decrementAssetSupply_iff fun sup hs => (hw coin.denom sup hs).outgoing

/-! ## The books -/

/-- The amounts the module keeps for each denom: the counters of the supply, the
sums over the stored swaps that are not completed, the balance of the module account,
and the total supply of the bank. -/
inductive Book where
  | incoming
  | outgoing
  | current
  | pendingIn
  | pendingOut
  | held
  | total
  deriving DecidableEq

def counterOf (counter : AssetSupply → Coin) (s : State A) : Ledger Denom := fun d =>
  match s.supplies.get d with
  | none => 0
  | some sup => (counter sup).amount

def pendingAmount (direction : SwapDirection) (d : Denom) (a : AtomicSwap) : Int :=
  if a.direction = direction ∧ (a.status = .open ∨ a.status = .expired) then
    a.amount.amountOf d else 0

def pending (direction : SwapDirection) (s : State A) : Ledger Denom := fun d =>
  s.swaps.sumOn fun _ a => pendingAmount direction d a

def book (s : State A) : Book → Ledger Denom
  | .incoming => counterOf AssetSupply.incomingSupply s
  | .outgoing => counterOf AssetSupply.outgoingSupply s
  | .current => counterOf AssetSupply.currentSupply s
  | .pendingIn => pending .incoming s
  | .pendingOut => pending .outgoing s
  | .held => fun d => s.bank.balances (A.addr .bep3) d
  | .total => fun d => s.bank.supply d

/-- The step from `s` to `s'` changes each book by `δ`, in one denom. -/
structure Moves (s s' : State A) (d : Denom) (δ : Book → Int) : Prop where
  denoms : SupplyDenoms s'
  books : ∀ b, book s' b = (book s b).add d (δ b)

theorem Moves.trans {s₁ : State A} {d : Denom} {δ δ' : Book → Int} (h : Moves s s₁ d δ)
    (h' : Moves s₁ s' d δ') :
    Moves s s' d (δ + δ') where
  denoms := h'.denoms
  books b := by rw [h'.books, h.books, Ledger.add_add, Pi.add_apply]

theorem Moves.congr {d : Denom} {δ δ' : Book → Int} (h : Moves s s' d δ) (hδ : ∀ b, δ b = δ' b) :
    Moves s s' d δ' where
  denoms := h.denoms
  books b := by rw [h.books, hδ]

theorem Moves.refl (h : SupplyDenoms s) (d : Denom) : Moves s s d 0 where
  denoms := h
  books b := by rw [Pi.zero_apply, Ledger.add_zero]

theorem book_unmoved {b : Book} {d : Denom} {n : Int} (h : book s' b = book s b) (hn : n = 0) :
    book s' b = (book s b).add d n := by
  rw [h, hn, Ledger.add_zero]

theorem counterOf_setAssetSupply (counter : AssetSupply → Coin) {sup sup' : AssetSupply} {d : Denom}
    (hs : s.supplies.get d = some sup) :
    counterOf counter (setAssetSupply s sup' d) =
      (counterOf counter s).add d ((counter sup').amount - (counter sup).amount) := by
  funext x
  by_cases hx : x = d
  · subst hx
    simp [counterOf, setAssetSupply, Ledger.add, hs]
  · simp [counterOf, setAssetSupply, Ledger.add, hx]

theorem setAssetSupply_moves (hw : SupplyDenoms s) {sup sup' : AssetSupply} {d : Denom}
    (hs : s.supplies.get d = some sup) (hd : sup'.OfDenom d) :
    Moves s (setAssetSupply s sup' d) d fun
      | .incoming => sup'.incomingSupply.amount - sup.incomingSupply.amount
      | .outgoing => sup'.outgoingSupply.amount - sup.outgoingSupply.amount
      | .current => sup'.currentSupply.amount - sup.currentSupply.amount
      | _ => 0 where
  denoms := hw.set hd
  books b := by
    cases b with
    | incoming => exact counterOf_setAssetSupply _ hs
    | outgoing => exact counterOf_setAssetSupply _ hs
    | current => exact counterOf_setAssetSupply _ hs
    | pendingIn | pendingOut | held | total => exact book_unmoved rfl rfl

section
variable (hw : SupplyDenoms s)
include hw

theorem incrementCurrentAssetSupply_moves (h : incrementCurrentAssetSupply s coin = .ok s') :
    Moves s s' coin.denom (Pi.single .current coin.amount) := by
  obtain ⟨sup, asset, hs, _, _, _, rfl⟩ := (incrementCurrentAssetSupply_iff hw).mp h
  have hd := hw _ _ hs
  refine Moves.congr (setAssetSupply_moves hw hs ⟨hd.incoming, hd.outgoing, rfl, rfl⟩) fun b => ?_
  cases b <;> simp

theorem incrementIncomingAssetSupply_moves (h : incrementIncomingAssetSupply s coin = .ok s') :
    Moves s s' coin.denom (Pi.single .incoming coin.amount) := by
  obtain ⟨sup, asset, hs, _, _, _, rfl⟩ := (incrementIncomingAssetSupply_iff hw).mp h
  have hd := hw _ _ hs
  refine Moves.congr
    (setAssetSupply_moves hw hs ⟨rfl, hd.outgoing, hd.current, hd.timeLimited⟩) fun b => ?_
  cases b <;> simp

theorem incrementOutgoingAssetSupply_moves (h : incrementOutgoingAssetSupply s coin = .ok s') :
    Moves s s' coin.denom (Pi.single .outgoing coin.amount) := by
  obtain ⟨sup, hs, _, rfl⟩ := (incrementOutgoingAssetSupply_iff hw).mp h
  have hd := hw _ _ hs
  refine Moves.congr
    (setAssetSupply_moves hw hs ⟨hd.incoming, rfl, hd.current, hd.timeLimited⟩) fun b => ?_
  cases b <;> simp

theorem decrementCurrentAssetSupply_moves (h : decrementCurrentAssetSupply s coin = .ok s') :
    Moves s s' coin.denom (Pi.single .current (-coin.amount)) := by
  obtain ⟨sup, hs, _, rfl⟩ := (decrementCurrentAssetSupply_iff hw).mp h
  have hd := hw _ _ hs
  refine Moves.congr
    (setAssetSupply_moves hw hs ⟨hd.incoming, hd.outgoing, rfl, hd.timeLimited⟩) fun b => ?_
  cases b <;> simp

theorem decrementIncomingAssetSupply_moves (h : decrementIncomingAssetSupply s coin = .ok s') :
    Moves s s' coin.denom (Pi.single .incoming (-coin.amount)) := by
  obtain ⟨sup, hs, _, rfl⟩ := (decrementIncomingAssetSupply_iff hw).mp h
  have hd := hw _ _ hs
  refine Moves.congr
    (setAssetSupply_moves hw hs ⟨rfl, hd.outgoing, hd.current, hd.timeLimited⟩) fun b => ?_
  cases b <;> simp

theorem decrementOutgoingAssetSupply_moves (h : decrementOutgoingAssetSupply s coin = .ok s') :
    Moves s s' coin.denom (Pi.single .outgoing (-coin.amount)) := by
  obtain ⟨sup, hs, _, rfl⟩ := (decrementOutgoingAssetSupply_iff hw).mp h
  have hd := hw _ _ hs
  refine Moves.congr
    (setAssetSupply_moves hw hs ⟨hd.incoming, rfl, hd.current, hd.timeLimited⟩) fun b => ?_
  cases b <;> simp

end

end ZgChain.Bep3
