import ZgChain.Evmutil.BankKeeper
import ZgChain.Lib.Ledger

/-!
# One ledger of 18 decimals

To its callers the EVM's bank keeper is one ledger: an account's balance is its
whole units, counted in the evm denom, plus its minor balance. Each operation is
a chain of bank calls and minor balance updates, and each link changes the
ledger by a known amount. The same links change the reserve's surplus over the
minor balances, so the amounts are followed together.
-/

namespace ZgChain.Evmutil

variable {A : ModuleAddrs} {s s₁ s' : State A}

def evmLedger (s : State A) : Ledger Addr := fun x =>
  conversionMultiplier * s.bank.balances x gasDenom + getBalance s x

def reserveSurplus (s : State A) : Int :=
  conversionMultiplier * s.bank.balances (A.addr .evmutil) gasDenom - totalMinorBalances s

theorem fullyBacked_iff (s : State A) : FullyBacked s ↔ 0 ≤ reserveSurplus s := by
  simp only [FullyBacked, fullyBackedInvariant, reserveSurplus, decide_eq_false_iff_not,
    Int.mul_comm]
  omega

/-! ## Changes -/

/-- The step from `s` to `s'` changes the ledger by `d`, except at the module
account, and the surplus by `g`. -/
structure Change (s s' : State A) (d : Ledger Addr) (g : Int) : Prop where
  ledger : ∀ x, x ≠ A.addr .evmutil → evmLedger s' x = (evmLedger s + d) x
  surplus : reserveSurplus s' = reserveSurplus s + g

theorem Change.trans {d d' : Ledger Addr} {g g' : Int} (h : Change s s₁ d g)
    (h' : Change s₁ s' d' g') :
    Change s s' (d + d') (g + g') where
  ledger x hx := by
    rw [h'.ledger x hx, Pi.add_apply, h.ledger x hx]
    simp only [Pi.add_apply, add_assoc]
  surplus := by rw [h'.surplus, h.surplus, add_assoc]

theorem Change.congr {d d' : Ledger Addr} {g g' : Int} (h : Change s s' d g)
    (hd : ∀ x, x ≠ A.addr .evmutil → d x = d' x) (hg : g = g') : Change s s' d' g' where
  ledger x hx := by rw [h.ledger x hx, Pi.add_apply, Pi.add_apply, hd x hx]
  surplus := hg ▸ h.surplus

theorem Change.of {e f : Ledger Addr} {t : Int}
    (hb : ∀ x, s'.bank.balances x gasDenom = s.bank.balances x gasDenom + e x)
    (hm : ∀ x, getBalance s' x = getBalance s x + f x)
    (ht : totalMinorBalances s' = totalMinorBalances s + t) :
    Change s s' (fun x => conversionMultiplier * e x + f x)
      (conversionMultiplier * e (A.addr .evmutil) - t) where
  ledger x _ := by
    simp only [evmLedger, Pi.add_apply, hb, hm, mul_add]
    omega
  surplus := by
    simp only [reserveSurplus, hb, ht, mul_add]
    omega

/-! ## The links -/

theorem withBankIfPositive_change {c : Coin} {x : Except BankError (Bank A)} {e : Ledger Addr}
    (hx : ∀ b, x = .ok b → ∀ y, b.balances y gasDenom = s.bank.balances y gasDenom + e y)
    (hz : c.amount ≤ 0 → e = 0) (he : e (A.addr .evmutil) = 0)
    (h : withBankIfPositive s c x = .ok s') :
    Change s s' (fun y => conversionMultiplier * e y) 0 := by
  unfold withBankIfPositive at h
  split at h
  · obtain ⟨b, hb, rfl⟩ := (withBank_eq_ok s s' x).mp h
    refine (Change.of (e := e) (f := 0) (t := 0) (hx b hb) ?_ ?_).congr ?_ ?_
    · exact fun _ => (add_zero _).symm
    · exact (add_zero _).symm
    · intro y _; simp
    · simp [he]
  · rename_i hc
    cases h
    have h₀ := hz (not_lt.mp hc)
    refine (Change.of (e := 0) (f := 0) (t := 0) ?_ ?_ ?_).congr ?_ ?_ <;> simp [h₀]

theorem convertOneGasDenomToEvmDenomIfNeeded_change {a : Addr} {n : Int} (ha : a ≠ A.addr .evmutil)
    (h : convertOneGasDenomToEvmDenomIfNeeded s a n = .ok s') : Change s s' 0 0 := by
  unfold convertOneGasDenomToEvmDenomIfNeeded at h
  split at h
  · cases h
    refine (Change.of (e := 0) (f := 0) (t := 0) ?_ ?_ ?_).congr ?_ ?_ <;> simp
  · simp only [bind_eq_ok, withBank_eq_ok] at h
    obtain ⟨_, ⟨b, hb, rfl⟩, h⟩ := h
    obtain ⟨_, hb, _⟩ := Bank.sendCoins_ok hb
    have hm := addBalance_ok h
    refine (Change.of (s := s) (e := Pi.single (A.addr .evmutil) 1 - Pi.single a 1)
      (f := Pi.single a conversionMultiplier) (t := conversionMultiplier)
      ?_ ?_ hm.total).congr ?_ ?_
    · intro x
      rw [hm.bank, hb, amountOf_newCoins]
      simp only [Pi.sub_apply, Pi.single_apply, ite_true]
      omega
    · intro x
      rw [hm.balance, Pi.single_apply]; rfl
    · intro x hx
      rcases eq_or_ne x a with rfl | hxa
      · simp [ha]
      · simp [hx, hxa]
    · simp [ha.symm]

theorem convertEvmDenomToGasDenom_change {a : Addr} (ha : a ≠ A.addr .evmutil)
    (h : convertEvmDenomToGasDenom s a = .ok s') : Change s s' 0 0 := by
  simp only [convertEvmDenomToGasDenom, splitEvmDenomCoins_evmCoins (getBalance_nonneg s a),
    ok_bind] at h
  split at h
  · cases h
    refine (Change.of (e := 0) (f := 0) (t := 0) ?_ ?_ ?_).congr ?_ ?_ <;> simp
  · simp only [bind_eq_ok, withBank_eq_ok] at h
    obtain ⟨s₁, h₁, b, hb, rfl⟩ := h
    obtain ⟨_, hb, _⟩ := Bank.sendCoins_ok hb
    have hm := setBalance_ok h₁
    generalize hq : getBalance s a / conversionMultiplier = q at *
    refine (Change.of (e := Pi.single a q - Pi.single (A.addr .evmutil) q)
      (f := Pi.single a (-(q * conversionMultiplier))) (t := -(q * conversionMultiplier)) ?_ ?_
        ?_).congr ?_ ?_
    · intro x
      rw [hb, hm.bank, amountOf_newCoins]
      simp only [Pi.sub_apply, Pi.single_apply, ite_true]
      omega
    · intro x
      refine (hm.balance x).trans ?_
      rw [Pi.single_apply]
      split <;> omega
    · refine hm.total.trans ?_
      omega
    · intro x hx
      rcases eq_or_ne x a with rfl | hxa
      · simp [ha, mul_comm]
      · simp [hx, hxa]
    · simp [ha.symm, mul_comm]

theorem Adjusts.change {a : Addr} {n : Int} (h : Adjusts s s' a n) :
    Change s s' (Pi.single a n) (-n) := by
  refine (Change.of (e := 0) (f := Pi.single a n) (t := n) ?_ ?_ h.total).congr ?_ ?_
  · intro x; rw [h.bank]; simp
  · intro x; rw [h.balance, Pi.single_apply]
  · intro x _; simp
  · simp

theorem sendBalance_change {src dst : Addr} {n : Int} (h : sendBalance s src dst n = .ok s') :
    Change s s' (Pi.single src (-n) + Pi.single dst n) 0 := by
  obtain ⟨hb, hm, ht⟩ := sendBalance_ok h
  refine (Change.of (e := 0) (f := Pi.single src (-n) + Pi.single dst n) (t := 0)
    ?_ ?_ ?_).congr ?_ ?_
  · intro x; rw [hb]; simp
  · intro x
    rw [hm, Pi.add_apply, Pi.single_apply, Pi.single_apply]
    split <;> split <;> omega
  · rw [ht, add_zero]
  · intro x _; simp
  · simp

/-! ## The operations -/

theorem transferUnits_change {src dst : Addr} {q : Int} {x : Except BankError (Bank A)}
    (hs : src ≠ A.addr .evmutil) (hd : dst ≠ A.addr .evmutil) (hq : 0 ≤ q)
    (hx : ∀ b, x = .ok b → s.bank.sendCoins src dst (newCoins ⟨gasDenom, q⟩) = .ok b)
    (h : withBankIfPositive s ⟨gasDenom, q⟩ x = .ok s') :
    Change s s' (fun y => conversionMultiplier *
      (Pi.single dst q - Pi.single src q : Ledger Addr) y) 0 := by
  refine withBankIfPositive_change (fun b hb y => ?_) (fun h => ?_) ?_ h
  · obtain ⟨_, hb, _⟩ := Bank.sendCoins_ok (hx b hb)
    rw [hb, amountOf_newCoins]
    simp only [Pi.sub_apply, Pi.single_apply, ite_true]
    omega
  · simp [show q = 0 from le_antisymm h hq]
  · simp [hs.symm, hd.symm]

theorem Transfers.change {src dst : Addr} {amt : Coins} (hs : src ≠ A.addr .evmutil)
    (hd : dst ≠ A.addr .evmutil) (h : Transfers s src dst amt s') :
    Change s s' (Pi.single src (-amt.amountOf evmDenom) + Pi.single dst (amt.amountOf evmDenom))
      0 := by
  obtain ⟨q, r, hsplit, s₁, s₂, s₃, ⟨x, hx, h₁⟩, h₂, h₃, h₄⟩ := h
  have c₁ := transferUnits_change hs hd hsplit.units_nonneg hx h₁
  have c₂ := convertOneGasDenomToEvmDenomIfNeeded_change hs h₂
  have c₃ := sendBalance_change h₃
  have c₄ := convertEvmDenomToGasDenom_change hd h₄
  refine (((c₁.trans c₂).trans c₃).trans c₄).congr ?_ (by simp)
  intro y _
  simp only [Pi.add_apply, Pi.sub_apply, Pi.zero_apply, Pi.single_apply, ← hsplit.sum, mul_sub]
  split <;> split <;> simp
  omega

/-- Minting gives out the remainder without a unit behind it. -/
theorem mintCoins_change {m : ModuleName} {amt : Coins} (hm : A.addr m ≠ A.addr .evmutil)
    (h : EvmBank.mintCoins s m amt = .ok s') :
    Change s s' (Pi.single (A.addr m) (amt.amountOf evmDenom))
      (-(amt.amountOf evmDenom % conversionMultiplier)) := by
  obtain ⟨q, r, hsplit, s₁, s₂, h₁, h₂, h₃⟩ := mintCoins_steps h
  have c₁ := withBankIfPositive_change (e := Pi.single (A.addr m) q)
    (fun b hb y => by
      obtain ⟨_, hb, _⟩ := Bank.mintCoins_ok hb
      rw [hb, amountOf_newCoins, Pi.single_apply]
      simp)
    (fun h => by simp [show q = 0 from le_antisymm h hsplit.units_nonneg]) (by simp [hm.symm]) h₁
  have c₂ := (addBalance_ok h₂).change
  have c₃ := convertEvmDenomToGasDenom_change hm h₃
  refine ((c₁.trans c₂).trans c₃).congr ?_ (by simp [hsplit.remainder])
  intro y _
  simp only [Pi.add_apply, Pi.zero_apply, Pi.single_apply, ← hsplit.sum]
  split <;> simp

/-- Burning takes the remainder and leaves the unit behind it in the reserve. -/
theorem burnCoins_change {m : ModuleName} {amt : Coins} (hm : A.addr m ≠ A.addr .evmutil)
    (h : EvmBank.burnCoins s m amt = .ok s') :
    Change s s' (Pi.single (A.addr m) (-amt.amountOf evmDenom))
      (amt.amountOf evmDenom % conversionMultiplier) := by
  obtain ⟨q, r, hsplit, s₁, s₂, h₁, h₂, h₃⟩ := burnCoins_steps h
  have c₁ := withBankIfPositive_change (e := Pi.single (A.addr m) (-q))
    (fun b hb y => by
      obtain ⟨_, hb, _⟩ := Bank.burnCoins_ok hb
      rw [hb, amountOf_newCoins, Pi.single_apply]
      simp only [ite_true]
      split <;> omega)
    (fun h => by simp [show q = 0 from le_antisymm h hsplit.units_nonneg]) (by simp [hm.symm]) h₁
  have c₂ := convertOneGasDenomToEvmDenomIfNeeded_change hm h₂
  have c₃ := (removeBalance_ok h₃).change
  refine ((c₁.trans c₂).trans c₃).congr ?_ (by simp [hsplit.remainder])
  intro y _
  simp only [Pi.add_apply, Pi.zero_apply, Pi.single_apply, ← hsplit.sum]
  split <;> simp
  omega

/-! ## Refinement -/

inductive EvmOp where
  | sendCoinsFromAccountToModule (sender : Addr) (recipient : ModuleName) (amt : Coins)
  | sendCoinsFromModuleToAccount (sender : ModuleName) (recipient : Addr) (amt : Coins)
  | mintCoins (m : ModuleName) (amt : Coins)
  | burnCoins (m : ModuleName) (amt : Coins)
  deriving DecidableEq, Repr

namespace EvmOp

def exec (s : State A) : EvmOp → Except Error (State A)
  | sendCoinsFromAccountToModule src m amt => EvmBank.sendCoinsFromAccountToModule s src m amt
  | sendCoinsFromModuleToAccount m dst amt => EvmBank.sendCoinsFromModuleToAccount s m dst amt
  | mintCoins m amt => EvmBank.mintCoins s m amt
  | burnCoins m amt => EvmBank.burnCoins s m amt

def spec (A : ModuleAddrs) (L : Ledger Addr) : EvmOp → Ledger Addr
  | sendCoinsFromAccountToModule src m amt => L.move src (A.addr m) (amt.amountOf evmDenom)
  | sendCoinsFromModuleToAccount m dst amt => L.move (A.addr m) dst (amt.amountOf evmDenom)
  | mintCoins m amt => L.add (A.addr m) (amt.amountOf evmDenom)
  | burnCoins m amt => L.add (A.addr m) (-amt.amountOf evmDenom)

def parties (A : ModuleAddrs) : EvmOp → List Addr
  | sendCoinsFromAccountToModule src m _ => [src, A.addr m]
  | sendCoinsFromModuleToAccount m dst _ => [A.addr m, dst]
  | mintCoins m _ => [A.addr m]
  | burnCoins m _ => [A.addr m]

end EvmOp

/-- Every successful operation between accounts other than the module's own acts
on their balances as the one ledger does. -/
theorem exec_refines_ledger (s s' : State A) (op : EvmOp) (hp : A.addr .evmutil ∉ op.parties A)
    (h : op.exec s = .ok s') (x : Addr) (hx : x ≠ A.addr .evmutil) :
    evmLedger s' x = op.spec A (evmLedger s) x := by
  cases op with
  | sendCoinsFromAccountToModule src m amt =>
    simp only [EvmOp.parties, List.mem_cons, List.not_mem_nil, or_false, not_or] at hp
    have hc := (sendCoinsFromAccountToModule_transfers h).change (Ne.symm hp.1) (Ne.symm hp.2)
    rw [hc.ledger x hx, ← add_assoc]
    rfl
  | sendCoinsFromModuleToAccount m dst amt =>
    simp only [EvmOp.parties, List.mem_cons, List.not_mem_nil, or_false, not_or] at hp
    have hc := (sendCoinsFromModuleToAccount_transfers h).change (Ne.symm hp.1) (Ne.symm hp.2)
    rw [hc.ledger x hx, ← add_assoc]
    rfl
  | mintCoins m amt =>
    simp only [EvmOp.parties, List.mem_singleton] at hp
    exact (mintCoins_change (Ne.symm hp) h).ledger x hx
  | burnCoins m amt =>
    simp only [EvmOp.parties, List.mem_singleton] at hp
    exact (burnCoins_change (Ne.symm hp) h).ledger x hx

def holderAddr : Addr := beBytes 20 0xa11ce

theorem gasUnit_nonneg : 0 ≤ (⟨gasDenom, 1⟩ : Coin).amount := by decide

def borrowState : State chainAddrs :=
  State.ofEntries
    ((KVStore.empty.set holderAddr ⟨holderAddr, 30⟩).set (chainAddrs.addr .evm)
      ⟨chainAddrs.addr .evm, 999999999970⟩)
    ((Bank.empty.credit holderAddr ⟨gasDenom, 2⟩ (by decide)).credit (chainAddrs.addr .evmutil)
      ⟨gasDenom, 1⟩ gasUnit_nonneg)
    (by decide)

/-- The holder borrows a unit for the remainder, and the module account's balance carries. -/
theorem exec_refines_ledger_borrow_carry :
    ∃ s', EvmOp.exec borrowState
      (.sendCoinsFromAccountToModule holderAddr .evm (evmCoins 1000000000500)) = .ok s' ∧
      ∀ x, x ≠ chainAddrs.addr .evmutil →
        evmLedger s' x = (evmLedger borrowState).move holderAddr (chainAddrs.addr .evm)
          1000000000500 x := by
  have hok : ∃ s', EvmOp.exec borrowState
      (.sendCoinsFromAccountToModule holderAddr .evm (evmCoins 1000000000500)) = .ok s' := by decide
  obtain ⟨s', h⟩ := hok
  exact ⟨s', h, exec_refines_ledger borrowState s' _ (by decide) h⟩

end ZgChain.Evmutil
