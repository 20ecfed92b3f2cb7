import ZgChain.Sdk.Bank

/-!
# The evmutil keeper

The store of minor balances: for each account, the part of its balance below one
unit of the gas denom. Every stored account passes its own validation and stands
under its own address.
-/

namespace ZgChain.Evmutil

def gasDenom : Denom := "ua0gi"

def evmDenom : Denom := "neuron"

def conversionMultiplier : Int := 1000000000000

inductive Error where
  | invalidCoins (amt : Coins)
  | invalidEvmDenom
  | insufficientFunds (amt : Int)
  | emptyAddress
  | negativeBalance (bal : Int)
  | negativeAmount (amt : Int)
  | unsupportedDenom (d : Denom)
  | bank (e : BankError)
  deriving DecidableEq, Repr

structure Account where
  address : Addr
  balance : Int
  deriving DecidableEq, Repr

def Account.validate (acc : Account) : Except Error Unit := do
  rejectIf (acc.address = []) .emptyAddress
  rejectIf (acc.balance < 0) (.negativeBalance acc.balance)

theorem Account.validate_eq_ok (acc : Account) (u : Unit) :
    acc.validate = .ok u ↔ acc.address ≠ [] ∧ 0 ≤ acc.balance := by
  simp [Account.validate]

structure State (A : ModuleAddrs) where
  accounts : KVStore Addr Account
  bank : Bank A
  accounts_valid : ∀ a acc, accounts.get a = some acc → acc.address = a ∧ acc.validate = .ok ()

variable {A : ModuleAddrs}

def State.ofEntries (accounts : KVStore Addr Account) (bank : Bank A)
    (h : ∀ e ∈ accounts.entries, e.2.address = e.1 ∧ e.2.validate = .ok ()) : State A :=
  { accounts, bank
    accounts_valid := fun a acc ha => h (a, acc) ((KVStore.get_eq_some_iff _ _ _).mp ha) }

theorem empty_entries_valid :
    ∀ e ∈ (KVStore.empty : KVStore Addr Account).entries, e.2.address = e.1 ∧
      e.2.validate = .ok () := by
  intro e he
  cases he

def getAccount (s : State A) (a : Addr) : Option Account := s.accounts.get a

def setAccount (s : State A) (acc : Account) : Except Error (State A) :=
  match h : acc.validate with
  | .error e => .error e
  | .ok _ =>
    if 0 < acc.balance then
      .ok { s with
        accounts := s.accounts.set acc.address acc
        accounts_valid := fun a acc' h' => by
          rw [KVStore.get_set] at h'
          split at h'
          · rename_i ha; cases h'; exact ⟨ha.symm, h⟩
          · exact s.accounts_valid a acc' h' }
    else if s.accounts.has acc.address then
      .ok { s with
        accounts := s.accounts.delete acc.address
        accounts_valid := fun a acc' h' => by
          rw [KVStore.get_delete] at h'
          split at h'
          · cases h'
          · exact s.accounts_valid a acc' h' }
    else .ok s

def getBalance (s : State A) (a : Addr) : Int :=
  match getAccount s a with
  | none => 0
  | some acc => acc.balance

def setBalance (s : State A) (a : Addr) (bal : Int) : Except Error (State A) := do
  let acc : Account :=
    match getAccount s a with
    | none => ⟨a, bal⟩
    | some acc => { acc with balance := bal }
  acc.validate
  setAccount s acc

def sendBalance (s : State A) (senderAddr recipientAddr : Addr) (amt : Int) :
    Except Error (State A) := do
  rejectIf (amt < 0) (.negativeAmount amt)
  if amt = 0 then return s
  let senderBal := getBalance s senderAddr
  rejectIf (senderBal < amt) (.insufficientFunds amt)
  let s ← setBalance s senderAddr (senderBal - amt)
  setBalance s recipientAddr (getBalance s recipientAddr + amt)

def addBalance (s : State A) (a : Addr) (amt : Int) : Except Error (State A) :=
  setBalance s a (amt + getBalance s a)

def removeBalance (s : State A) (a : Addr) (amt : Int) : Except Error (State A) := do
  rejectIf (amt < 0) (.negativeAmount amt)
  if amt = 0 then return s
  let finalBal := getBalance s a - amt
  rejectIf (finalBal < 0) (.insufficientFunds amt)
  setBalance s a finalBal

/-! ## The total of the minor balances -/

def totalMinorBalances (s : State A) : Int := s.accounts.sumOn fun _ acc => acc.balance

theorem contrib_balance (s : State A) (a : Addr) :
    KVStore.contrib (fun _ acc => acc.balance) a (s.accounts.get a) = getBalance s a := by
  unfold getBalance getAccount
  cases s.accounts.get a <;> rfl

theorem getBalance_nonneg (s : State A) (a : Addr) : 0 ≤ getBalance s a := by
  unfold getBalance getAccount
  cases h : s.accounts.get a with
  | none => exact le_refl _
  | some acc => exact ((Account.validate_eq_ok acc ()).mp (s.accounts_valid a acc h).2).2

theorem getBalance_le_total (s : State A) (a : Addr) : getBalance s a ≤ totalMinorBalances s := by
  have hn : ∀ k acc, s.accounts.get k = some acc → 0 ≤ acc.balance := fun k acc h =>
    ((Account.validate_eq_ok acc ()).mp (s.accounts_valid k acc h).2).2
  cases h : s.accounts.get a with
  | none =>
    have : getBalance s a = 0 := by simp [getBalance, getAccount, h]
    rw [this]; exact KVStore.sumOn_nonneg hn
  | some acc =>
    have : getBalance s a = acc.balance := by simp [getBalance, getAccount, h]
    rw [this]; exact KVStore.le_sumOn hn h

/-! ## What the keeper's operations do -/

/-- `s'` is `s` with the minor balance of `a` changed by `n`, and the rest as it was. -/
structure Adjusts (s s' : State A) (a : Addr) (n : Int) : Prop where
  bank : s'.bank = s.bank
  balance : ∀ x, getBalance s' x = getBalance s x + if x = a then n else 0
  total : totalMinorBalances s' = totalMinorBalances s + n

theorem setAccount_ok {s s' : State A} {acc : Account} (h : setAccount s acc = .ok s') :
    Adjusts s s' acc.address (acc.balance - getBalance s acc.address) := by
  unfold setAccount at h
  split at h
  · cases h
  · rename_i hv
    have hnn := ((Account.validate_eq_ok acc _).mp hv).2
    split at h
    · cases h
      refine ⟨rfl, fun x => ?_, ?_⟩
      · by_cases hx : x = acc.address
        · subst hx; simp [getBalance, getAccount]
        · simp [getBalance, getAccount, hx]
      · simp only [totalMinorBalances, KVStore.sumOn_set, contrib_balance]; omega
    · rename_i hpos
      have hz : acc.balance = 0 := by omega
      split at h
      · cases h
        refine ⟨rfl, fun x => ?_, ?_⟩
        · by_cases hx : x = acc.address
          · subst hx; simp [getBalance, getAccount, hz]
          · simp [getBalance, getAccount, hx]
        · simp only [totalMinorBalances, KVStore.sumOn_delete, contrib_balance]; omega
      · rename_i hhas
        have hn : s.accounts.get acc.address = none := by simpa [KVStore.has] using hhas
        have hb : getBalance s acc.address = 0 := by simp [getBalance, getAccount, hn]
        cases h
        exact ⟨rfl, fun x => by simp [hb, hz], by simp [hb, hz]⟩

theorem setBalance_account (s : State A) (a : Addr) (bal : Int) :
    (match getAccount s a with
      | none => (⟨a, bal⟩ : Account)
      | some acc => { acc with balance := bal }) = ⟨a, bal⟩ := by
  cases h : getAccount s a with
  | none => rfl
  | some acc => simp [(s.accounts_valid a acc h).1]

theorem setBalance_ok {s s' : State A} {a : Addr} {bal : Int} (h : setBalance s a bal = .ok s') :
    Adjusts s s' a (bal - getBalance s a) := by
  simp only [setBalance, setBalance_account, bind_eq_ok] at h
  obtain ⟨_, _, h⟩ := h
  exact setAccount_ok h

theorem setBalance_of {a : Addr} (s : State A) (bal : Int) (ha : a ≠ []) (hb : 0 ≤ bal) :
    ∃ s', setBalance s a bal = .ok s' := by
  have hv : (⟨a, bal⟩ : Account).validate = .ok () := (Account.validate_eq_ok _ _).mpr ⟨ha, hb⟩
  simp only [setBalance, setBalance_account, hv, ok_bind]
  unfold setAccount
  split
  · rename_i e he; rw [hv] at he; cases he
  · split
    · exact ⟨_, rfl⟩
    · split <;> exact ⟨_, rfl⟩

theorem addBalance_ok {s s' : State A} {a : Addr} {amt : Int} (h : addBalance s a amt = .ok s') :
    Adjusts s s' a amt := by
  have := setBalance_ok h
  rwa [show amt + getBalance s a - getBalance s a = amt by omega] at this

theorem removeBalance_ok {s s' : State A} {a : Addr} {amt : Int}
    (h : removeBalance s a amt = .ok s') :
    Adjusts s s' a (-amt) := by
  simp only [removeBalance, bind_eq_ok, rejectIf_eq_ok] at h
  obtain ⟨_, _, h⟩ := h
  split at h
  · rename_i hz
    simp only [pure_eq_ok] at h
    subst h
    exact ⟨rfl, fun x => by simp [hz], by simp [hz]⟩
  · simp only [bind_eq_ok, rejectIf_eq_ok] at h
    obtain ⟨_, _, h⟩ := h
    have := setBalance_ok h
    rwa [show getBalance s a - amt - getBalance s a = -amt by omega] at this

theorem sendBalance_ok {s s' : State A} {src dst : Addr} {amt : Int}
    (h : sendBalance s src dst amt = .ok s') :
    s'.bank = s.bank ∧
    (∀ x, getBalance s' x = getBalance s x - (if x = src then amt else 0) +
      (if x = dst then amt else 0)) ∧
    totalMinorBalances s' = totalMinorBalances s := by
  simp only [sendBalance, bind_eq_ok, rejectIf_eq_ok] at h
  obtain ⟨_, _, h⟩ := h
  split at h
  · rename_i hz
    simp only [pure_eq_ok] at h
    subst h
    exact ⟨rfl, fun x => by simp [hz], rfl⟩
  · simp only [bind_eq_ok, rejectIf_eq_ok] at h
    obtain ⟨_, _, s₁, h₁, h₂⟩ := h
    have a₁ := setBalance_ok h₁
    have a₂ := setBalance_ok h₂
    refine ⟨a₂.bank.trans a₁.bank, fun x => ?_, ?_⟩
    · rw [a₂.balance, a₁.balance]
      split <;> split <;> omega
    · rw [a₂.total, a₁.total]; omega

theorem sendBalance_of {src dst : Addr} {amt : Int} (s : State A) (hs : src ≠ []) (hd : dst ≠ [])
    (h₀ : 0 ≤ amt) (h : amt ≤ getBalance s src) : ∃ s', sendBalance s src dst amt = .ok s' := by
  simp only [sendBalance, rejectIf_neg (not_lt.mpr h₀), ok_bind, rejectIf_neg (not_lt.mpr h)]
  split
  · exact ⟨s, rfl⟩
  · obtain ⟨s₁, h₁⟩ := setBalance_of s (getBalance s src - amt) hs (by omega)
    rw [h₁, ok_bind]
    exact setBalance_of s₁ _ hd (by have := getBalance_nonneg s₁ dst; omega)

end ZgChain.Evmutil
