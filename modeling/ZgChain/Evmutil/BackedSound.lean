import ZgChain.Evmutil.LedgerSound

/-!
# The reserve behind the minor balances

The EVM applies a balance change as a mint and a send, or as a send and a burn.
Sends and conversions leave the reserve's surplus as it is. A mint lowers it by
the remainder of its own amount and a burn raises it by the remainder of its own,
so what a list of changes does to the surplus depends on the remainders of its
amounts, not on their sum.
-/

namespace ZgChain.Evmutil

variable {A : ModuleAddrs} {s s' : State A}

inductive BalanceChange where
  | credit (addr : Addr) (a : Nat)
  | debit (addr : Addr) (a : Nat)
  deriving DecidableEq, Repr

namespace BalanceChange

def exec (s : State A) : BalanceChange → Except Error (State A)
  | credit addr a => do
    let s ← EvmBank.mintCoins s .evm (evmCoins a)
    EvmBank.sendCoinsFromModuleToAccount s .evm addr (evmCoins a)
  | debit addr a => do
    let s ← EvmBank.sendCoinsFromAccountToModule s addr .evm (evmCoins a)
    EvmBank.burnCoins s .evm (evmCoins a)

def execAll (s : State A) (cs : List BalanceChange) : Except Error (State A) := cs.foldlM exec s

def addr : BalanceChange → Addr
  | credit addr _ => addr
  | debit addr _ => addr

def credited : BalanceChange → Nat
  | credit _ a => a
  | debit _ _ => 0

def debited : BalanceChange → Nat
  | credit _ _ => 0
  | debit _ a => a

def remainder (a : Nat) : Int := a % conversionMultiplier

def creditedRemainders (cs : List BalanceChange) : Int := (cs.map fun c => remainder c.credited).sum

def debitedRemainders (cs : List BalanceChange) : Int := (cs.map fun c => remainder c.debited).sum

@[simp] theorem execAll_nil (s : State A) : execAll s [] = .ok s := rfl

@[simp] theorem execAll_cons (s : State A) (c : BalanceChange) (cs : List BalanceChange) :
    execAll s (c :: cs) = exec s c >>= fun s => execAll s cs := rfl

theorem amountOf_evmCoins (a : Nat) : (evmCoins a).amountOf evmDenom = a := by
  simp [evmCoins, amountOf_newCoins]

theorem exec_surplus {c : BalanceChange} (ha : c.addr ≠ A.addr .evmutil) (h : c.exec s = .ok s') :
    reserveSurplus s' = reserveSurplus s + remainder c.debited - remainder c.credited := by
  have he : A.addr .evm ≠ A.addr .evmutil := A.addr_ne (by decide)
  cases c with
  | credit x a =>
    simp only [exec, bind_eq_ok] at h
    obtain ⟨s₁, h₁, h₂⟩ := h
    have c₁ := mintCoins_change he h₁
    have c₂ := (sendCoinsFromModuleToAccount_transfers h₂).change he ha
    rw [c₂.surplus, c₁.surplus, amountOf_evmCoins]
    simp only [debited, credited, remainder, Nat.cast_zero, Int.zero_emod]
    omega
  | debit x a =>
    simp only [exec, bind_eq_ok] at h
    obtain ⟨s₁, h₁, h₂⟩ := h
    have c₁ := (sendCoinsFromAccountToModule_transfers h₁).change ha he
    have c₂ := burnCoins_change he h₂
    rw [c₂.surplus, c₁.surplus, amountOf_evmCoins]
    simp only [debited, credited, remainder, Nat.cast_zero, Int.zero_emod]
    omega

theorem execAll_surplus {cs : List BalanceChange} (ha : ∀ c ∈ cs, c.addr ≠ A.addr .evmutil)
    (h : execAll s cs = .ok s') :
    reserveSurplus s' = reserveSurplus s + debitedRemainders cs - creditedRemainders cs := by
  induction cs generalizing s with
  | nil => cases h; simp [debitedRemainders, creditedRemainders]
  | cons c cs ih =>
    rw [execAll_cons, bind_eq_ok] at h
    obtain ⟨s₁, h₁, h₂⟩ := h
    have hc := exec_surplus (ha c (by simp)) h₁
    rw [ih (fun c hc => ha c (by simp [hc])) h₂, hc]
    simp only [debitedRemainders, creditedRemainders, List.map_cons, List.sum_cons]
    omega

/-- After a list of balance changes the minor balances are backed exactly when
the remainders of the credits fit into what the reserve had and the remainders of
the debits. -/
theorem fullyBacked_iff_remainders_covered (s s' : State A) (cs : List BalanceChange)
    (ha : ∀ c ∈ cs, c.addr ≠ A.addr .evm ∧ c.addr ≠ A.addr .evmutil) (h : execAll s cs = .ok s') :
    FullyBacked s' ↔
      totalMinorBalances s + creditedRemainders cs ≤
        conversionMultiplier * s.bank.balances (A.addr .evmutil) gasDenom +
          debitedRemainders cs := by
  rw [fullyBacked_iff, execAll_surplus (fun c hc => (ha c hc).2) h, reserveSurplus]
  omega

def payerState : State chainAddrs :=
  State.ofEntries KVStore.empty (Bank.empty.credit holderAddr ⟨gasDenom, 1⟩ gasUnit_nonneg)
    empty_entries_valid

def payeeAddr (n : Nat) : Addr := beBytes 20 n

/-- One unit is paid out to two accounts, in parts below a unit. -/
def splitUnit : List BalanceChange :=
  [credit (payeeAddr 1) 999999999999, credit (payeeAddr 2) 1, debit holderAddr 1000000000000]

theorem splitUnit_unbacked :
    FullyBacked payerState ∧
    (∀ c ∈ splitUnit, c.addr ≠ chainAddrs.addr .evm ∧ c.addr ≠ chainAddrs.addr .evmutil) ∧
    (splitUnit.map credited).sum = (splitUnit.map debited).sum ∧
    ∃ s', execAll payerState splitUnit = .ok s' ∧ ¬ FullyBacked s' := by
  refine ⟨by decide, by decide, by decide, ?_⟩
  have hok : ∃ s', execAll payerState splitUnit = .ok s' := by decide
  obtain ⟨s', h⟩ := hok
  refine ⟨s', h, ?_⟩
  rw [fullyBacked_iff, execAll_surplus (by decide) h]
  decide

theorem fullyBacked_iff_remainders_covered_whole :
    ∃ s', execAll payerState [credit (payeeAddr 1) 1000000000000, debit holderAddr 1000000000000] =
      .ok s' ∧
      FullyBacked s' := by
  have hok : ∃ s', execAll payerState
      [credit (payeeAddr 1) 1000000000000, debit holderAddr 1000000000000] = .ok s' := by decide
  obtain ⟨s', h⟩ := hok
  exact ⟨s', h, (fullyBacked_iff_remainders_covered payerState s' _ (by decide) h).mpr (by decide)⟩

end BalanceChange

end ZgChain.Evmutil
