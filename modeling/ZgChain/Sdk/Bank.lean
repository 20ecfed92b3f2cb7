import ZgChain.App.Accounts

/-!
# The bank

A plain ledger of balances by account and denom. Coins that are locked by
vesting count in the balance and cannot be sent until the account's schedule
releases them, every holder has an account, and module accounts never lock coins.
What an operation does to every balance is stated once for each operation, and
later proofs use only that.
-/

namespace ZgChain

inductive BankError where
  | invalidCoins (amt : Coins)
  | insufficientFunds (a : Addr) (c : Coin)
  | unauthorized (a : Addr)
  | noPermission (m : ModuleName) (p : Permission)
  | accountExists (a : Addr)
  deriving DecidableEq, Repr

structure Bank (A : ModuleAddrs) where
  balances : Addr → Denom → Int
  locked : Addr → Denom → Int
  supply : Denom → Int
  accounts : Addr → Bool
  balances_nonneg : ∀ a d, 0 ≤ balances a d
  locked_nonneg : ∀ a d, 0 ≤ locked a d
  locked_module : ∀ m d, locked (A.addr m) d = 0
  holder_account : ∀ a d, 0 < balances a d → accounts a = true

namespace Bank

variable {A : ModuleAddrs}

def empty : Bank A where
  balances _ _ := 0
  locked _ _ := 0
  supply _ := 0
  accounts _ := false
  balances_nonneg _ _ := le_refl 0
  locked_nonneg _ _ := le_refl 0
  locked_module _ _ := rfl
  holder_account _ _ h := absurd h (lt_irrefl 0)

def spendable (b : Bank A) (a : Addr) (d : Denom) : Int := max 0 (b.balances a d - b.locked a d)

def setAccount (b : Bank A) (a : Addr) : Bank A :=
  { b with
    accounts := fun a' => decide (a' = a) || b.accounts a'
    holder_account := fun a' d h => by simp [b.holder_account a' d h] }

def credit (b : Bank A) (a : Addr) (c : Coin) (h : 0 ≤ c.amount) : Bank A :=
  { b with
    balances := fun a' d => b.balances a' d + (if a' = a ∧ c.denom = d then c.amount else 0)
    accounts := fun a' => decide (a' = a) || b.accounts a'
    balances_nonneg := fun a' d => by have := b.balances_nonneg a' d; split <;> omega
    holder_account := fun a' d h => by
      by_cases ha : a' = a
      · simp [ha]
      · simp only [ha, false_and, ite_false, add_zero] at h
        simp [b.holder_account a' d h] }

def debit (b : Bank A) (a : Addr) (c : Coin) (h₀ : 0 ≤ c.amount)
    (h : c.amount ≤ b.balances a c.denom - b.locked a c.denom) : Bank A :=
  { b with
    balances := fun a' d => b.balances a' d - (if a' = a ∧ c.denom = d then c.amount else 0)
    balances_nonneg := fun a' d => by
      have h₁ := b.balances_nonneg a' d
      have h₂ := b.locked_nonneg a c.denom
      split
      · rename_i e; obtain ⟨rfl, rfl⟩ := e; omega
      · omega
    holder_account := fun a' d h => by
      apply b.holder_account a' d
      split at h <;> omega }

def addCoins (b : Bank A) (a : Addr) : Coins → Except BankError (Bank A)
  | [] => .ok b
  | c :: cs => if h : 0 ≤ c.amount then (b.credit a c h).addCoins a cs
    else .error (.invalidCoins (c :: cs))

def subUnlockedCoins (b : Bank A) (a : Addr) : Coins → Except BankError (Bank A)
  | [] => .ok b
  | c :: cs =>
    if h : 0 ≤ c.amount ∧ c.amount ≤ b.balances a c.denom - b.locked a c.denom then
      (b.debit a c h.1 h.2).subUnlockedCoins a cs
    else .error (.insufficientFunds a c)

def sendCoins (b : Bank A) (src dst : Addr) (amt : Coins) : Except BankError (Bank A) := do
  rejectIf (amt.isValid = false) (.invalidCoins amt)
  let b ← b.subUnlockedCoins src amt
  let b ← b.addCoins dst amt
  return b.setAccount dst

def sendCoinsFromModuleToAccount (b : Bank A) (m : ModuleName) (dst : Addr) (amt : Coins) :
    Except BankError (Bank A) := do
  rejectIf (A.loadBlockedMaccAddrs dst = true) (.unauthorized dst)
  b.sendCoins (A.addr m) dst amt

def sendCoinsFromAccountToModule (b : Bank A) (src : Addr) (m : ModuleName) (amt : Coins) :
    Except BankError (Bank A) :=
  b.sendCoins src (A.addr m) amt

def mintCoins (b : Bank A) (m : ModuleName) (amt : Coins) : Except BankError (Bank A) := do
  rejectIf (Permission.minter ∉ mAccPerms m) (.noPermission m .minter)
  rejectIf (amt.isValid = false) (.invalidCoins amt)
  let b ← b.addCoins (A.addr m) amt
  return { b with supply := fun d => b.supply d + amt.amountOf d }

def burnCoins (b : Bank A) (m : ModuleName) (amt : Coins) : Except BankError (Bank A) := do
  rejectIf (Permission.burner ∉ mAccPerms m) (.noPermission m .burner)
  rejectIf (amt.isValid = false) (.invalidCoins amt)
  let b ← b.subUnlockedCoins (A.addr m) amt
  return { b with supply := fun d => b.supply d - amt.amountOf d }

def createVestingAccount (b : Bank A) (src dst : Addr) (amt : Coins) :
    Except BankError (Bank A) := do
  rejectIf (b.accounts dst = true) (.accountExists dst)
  if h : amt.isValid = true ∧ A.moduleAccountAddrs dst = false then
    let b ← b.sendCoins src dst amt
    return { b with
      locked := fun a d => b.locked a d + if a = dst then amt.amountOf d else 0
      locked_nonneg := fun a d => by
        have h₁ := b.locked_nonneg a d
        have h₂ := amountOf_nonneg (fun c hc => (amount_pos_of_isValid h.1 c hc).le) d
        split <;> omega
      locked_module := fun m d => by
        have hne : A.addr m ≠ dst := fun e => absurd h.2 (by simp [← e])
        rw [if_neg hne, b.locked_module, add_zero] }
  else .error (.unauthorized dst)

/-- Time passes, and the schedule of a vesting account releases coins. -/
def vest (b : Bank A) (a : Addr) (d : Denom) (n : Nat) : Bank A :=
  { b with
    locked := fun a' d' =>
      b.locked a' d' - if a' = a ∧ d' = d then min (n : Int) (b.locked a d) else 0
    locked_nonneg := fun a' d' => by
      have h := b.locked_nonneg a' d'
      split
      · rename_i e
        rw [e.1, e.2] at h ⊢
        omega
      · omega
    locked_module := fun m d' => by
      have h := b.locked_module m d'
      rw [h]
      split
      · rename_i e
        rw [← e.1, ← e.2, h]
        omega
      · omega }

/-! ## Calls from the modules -/

section
variable {S ε : Type} {set : Bank A → S} {wrap : BankError → ε}
  {x : Except BankError (Bank A)} {s' : S}

/-- What a call of the bank returns goes into the state of the module that makes it. -/
def store (set : Bank A → S) (wrap : BankError → ε) : Except BankError (Bank A) → Except ε S
  | .ok b => .ok (set b)
  | .error e => .error (wrap e)

theorem store_eq_ok : store set wrap x = .ok s' ↔ ∃ b, x = .ok b ∧ set b = s' := by
  cases x <;> simp [store]

/-- A state that has the bank it is given has what the call returned. -/
theorem stored (bank : S → Bank A) (hset : ∀ b, bank (set b) = b) (h : store set wrap x = .ok s') :
    x = .ok (bank s') := by
  obtain ⟨b, hb, rfl⟩ := store_eq_ok.mp h
  rw [hb, hset]

end

/-! ## What the operations do -/

@[simp] theorem setAccount_balances (b : Bank A) (a : Addr) :
    (b.setAccount a).balances = b.balances := rfl

@[simp] theorem setAccount_locked (b : Bank A) (a : Addr) :
    (b.setAccount a).locked = b.locked := rfl

theorem addCoins_ok {b b' : Bank A} {a : Addr} {cs : Coins} (h : b.addCoins a cs = .ok b') :
    (∀ x d, b'.balances x d = b.balances x d + if x = a then cs.amountOf d else 0) ∧
    b'.locked = b.locked := by
  induction cs generalizing b with
  | nil => simp only [addCoins, Except.ok.injEq] at h; subst h; simp
  | cons c cs ih =>
    unfold addCoins at h
    split at h
    · obtain ⟨h₁, h₂⟩ := ih h
      refine ⟨fun x d => ?_, h₂⟩
      rw [h₁, amountOf_cons]
      by_cases hx : x = a
      · simp [credit, hx]; omega
      · simp [credit, hx]
    · cases h

theorem addCoins_of_isValid (b : Bank A) (a : Addr) {cs : Coins} (h : ∀ c ∈ cs, 0 ≤ c.amount) :
    ∃ b', b.addCoins a cs = .ok b' := by
  induction cs generalizing b with
  | nil => exact ⟨b, rfl⟩
  | cons c cs ih =>
    unfold addCoins
    rw [dif_pos (h c (by simp))]
    exact ih _ fun c hc => h c (by simp [hc])

theorem subUnlockedCoins_ok {b b' : Bank A} {a : Addr} {cs : Coins}
    (h : b.subUnlockedCoins a cs = .ok b') :
    (∀ x d, b'.balances x d = b.balances x d - if x = a then cs.amountOf d else 0) ∧
    b'.locked = b.locked := by
  induction cs generalizing b with
  | nil => simp only [subUnlockedCoins, Except.ok.injEq] at h; subst h; simp
  | cons c cs ih =>
    unfold subUnlockedCoins at h
    split at h
    · obtain ⟨h₁, h₂⟩ := ih h
      refine ⟨fun x d => ?_, h₂⟩
      rw [h₁, amountOf_cons]
      by_cases hx : x = a
      · simp [debit, hx]; omega
      · simp [debit, hx]
    · cases h

theorem sendCoins_ok {b b' : Bank A} {src dst : Addr} {amt : Coins}
    (h : b.sendCoins src dst amt = .ok b') :
    amt.isValid = true ∧
    (∀ x d, b'.balances x d = b.balances x d - (if x = src then amt.amountOf d else 0) +
      (if x = dst then amt.amountOf d else 0)) ∧ b'.locked = b.locked := by
  simp only [sendCoins, bind_eq_ok, rejectIf_eq_ok, pure_eq_ok, Bool.not_eq_false] at h
  obtain ⟨_, hv, b₁, h₁, b₂, h₂, rfl⟩ := h
  obtain ⟨e₁, l₁⟩ := subUnlockedCoins_ok h₁
  obtain ⟨e₂, l₂⟩ := addCoins_ok h₂
  refine ⟨hv, fun x d => ?_, ?_⟩
  · rw [setAccount_balances, e₂, e₁]
  · rw [setAccount_locked, l₂, l₁]

theorem sendCoinsFromModuleToAccount_ok {b b' : Bank A} {m : ModuleName} {dst : Addr}
    {amt : Coins} :
    b.sendCoinsFromModuleToAccount m dst amt = .ok b' ↔
      A.moduleAccountAddrs dst = false ∧ b.sendCoins (A.addr m) dst amt = .ok b' := by
  simp [sendCoinsFromModuleToAccount]

theorem mintCoins_ok {b b' : Bank A} {m : ModuleName} {amt : Coins}
    (h : b.mintCoins m amt = .ok b') :
    amt.isValid = true ∧
    (∀ x d, b'.balances x d = b.balances x d + if x = A.addr m then amt.amountOf d else 0) ∧
    b'.locked = b.locked := by
  simp only [mintCoins, bind_eq_ok, rejectIf_eq_ok, pure_eq_ok, Bool.not_eq_false] at h
  obtain ⟨_, _, _, hv, b₁, h₁, rfl⟩ := h
  obtain ⟨e₁, l₁⟩ := addCoins_ok h₁
  exact ⟨hv, e₁, l₁⟩

theorem burnCoins_ok {b b' : Bank A} {m : ModuleName} {amt : Coins}
    (h : b.burnCoins m amt = .ok b') :
    amt.isValid = true ∧
    (∀ x d, b'.balances x d = b.balances x d - if x = A.addr m then amt.amountOf d else 0) ∧
    b'.locked = b.locked := by
  simp only [burnCoins, bind_eq_ok, rejectIf_eq_ok, pure_eq_ok, Bool.not_eq_false] at h
  obtain ⟨_, _, _, hv, b₁, h₁, rfl⟩ := h
  obtain ⟨e₁, l₁⟩ := subUnlockedCoins_ok h₁
  exact ⟨hv, e₁, l₁⟩

/-! ## The total supply -/

theorem addCoins_supply {b b' : Bank A} {a : Addr} {cs : Coins} (h : b.addCoins a cs = .ok b') :
    b'.supply = b.supply := by
  induction cs generalizing b with
  | nil => cases h; rfl
  | cons c cs ih =>
    unfold addCoins at h
    split at h
    · exact (ih h).trans rfl
    · cases h

theorem subUnlockedCoins_supply {b b' : Bank A} {a : Addr} {cs : Coins}
    (h : b.subUnlockedCoins a cs = .ok b') :
    b'.supply = b.supply := by
  induction cs generalizing b with
  | nil => cases h; rfl
  | cons c cs ih =>
    unfold subUnlockedCoins at h
    split at h
    · exact (ih h).trans rfl
    · cases h

theorem sendCoins_supply {b b' : Bank A} {src dst : Addr} {amt : Coins}
    (h : b.sendCoins src dst amt = .ok b') :
    b'.supply = b.supply := by
  simp only [sendCoins, bind_eq_ok, pure_eq_ok] at h
  obtain ⟨_, _, b₁, h₁, b₂, h₂, rfl⟩ := h
  exact (addCoins_supply h₂).trans (subUnlockedCoins_supply h₁)

theorem mintCoins_supply {b b' : Bank A} {m : ModuleName} {amt : Coins}
    (h : b.mintCoins m amt = .ok b') (d : Denom) :
    b'.supply d = b.supply d + amt.amountOf d := by
  simp only [mintCoins, bind_eq_ok, pure_eq_ok] at h
  obtain ⟨_, _, _, _, b₁, h₁, rfl⟩ := h
  simp only [addCoins_supply h₁]

theorem burnCoins_supply {b b' : Bank A} {m : ModuleName} {amt : Coins}
    (h : b.burnCoins m amt = .ok b') (d : Denom) :
    b'.supply d = b.supply d - amt.amountOf d := by
  simp only [burnCoins, bind_eq_ok, pure_eq_ok] at h
  obtain ⟨_, _, _, _, b₁, h₁, rfl⟩ := h
  simp only [subUnlockedCoins_supply h₁]

/-! ## When one coin can be moved -/

theorem subUnlockedCoins_singleton (b : Bank A) (a : Addr) (c : Coin) (h₀ : 0 ≤ c.amount) :
    (∃ b', b.subUnlockedCoins a [c] = .ok b') ↔
    c.amount ≤ b.balances a c.denom - b.locked a c.denom := by
  unfold subUnlockedCoins
  by_cases h : c.amount ≤ b.balances a c.denom - b.locked a c.denom
  · simp [h₀, h, subUnlockedCoins]
  · simp [h₀, h]

theorem sendCoins_singleton (b : Bank A) (src dst : Addr) (c : Coin) :
    (∃ b', b.sendCoins src dst [c] = .ok b') ↔
      Coins.isValid [c] = true ∧ c.amount ≤ b.balances src c.denom - b.locked src c.denom := by
  simp only [sendCoins, bind_eq_ok, rejectIf_eq_ok, pure_eq_ok, Bool.not_eq_false]
  constructor
  · rintro ⟨b', _, hv, b₁, h₁, _⟩
    have hpos := ((isValid_singleton c).mp hv).2
    exact ⟨hv, (subUnlockedCoins_singleton b src c hpos.le).mp ⟨b₁, h₁⟩⟩
  · rintro ⟨hv, h⟩
    have hpos := ((isValid_singleton c).mp hv).2
    obtain ⟨b₁, h₁⟩ := (subUnlockedCoins_singleton b src c hpos.le).mpr h
    have h₀ : ∀ c' ∈ [c], 0 ≤ c'.amount := by simpa using hpos.le
    obtain ⟨b₂, h₂⟩ := addCoins_of_isValid b₁ dst h₀
    exact ⟨_, (), hv, b₁, h₁, b₂, h₂, rfl⟩

theorem mintCoins_singleton (b : Bank A) (m : ModuleName) (c : Coin) :
    (∃ b', b.mintCoins m [c] = .ok b') ↔ Permission.minter ∈ mAccPerms m ∧
    Coins.isValid [c] = true := by
  simp only [mintCoins, bind_eq_ok, rejectIf_eq_ok, pure_eq_ok, Bool.not_eq_false, not_not]
  constructor
  · rintro ⟨b', _, hm, _, hv, _⟩
    exact ⟨hm, hv⟩
  · rintro ⟨hm, hv⟩
    have h₀ : ∀ c' ∈ [c], 0 ≤ c'.amount := fun c' hc => (amount_pos_of_isValid hv c' hc).le
    obtain ⟨b₁, h₁⟩ := addCoins_of_isValid b (A.addr m) h₀
    exact ⟨_, (), hm, (), hv, b₁, h₁, rfl⟩

theorem burnCoins_singleton (b : Bank A) (m : ModuleName) (c : Coin) :
    (∃ b', b.burnCoins m [c] = .ok b') ↔
      Permission.burner ∈ mAccPerms m ∧ Coins.isValid [c] = true ∧
      c.amount ≤ b.balances (A.addr m) c.denom := by
  have hl : b.balances (A.addr m) c.denom - b.locked (A.addr m) c.denom =
      b.balances (A.addr m) c.denom := by
    rw [b.locked_module, sub_zero]
  simp only [burnCoins, bind_eq_ok, rejectIf_eq_ok, pure_eq_ok, Bool.not_eq_false, not_not]
  constructor
  · rintro ⟨b', _, hm, _, hv, b₁, h₁, _⟩
    have hpos := ((isValid_singleton c).mp hv).2
    exact ⟨hm, hv, hl ▸ (subUnlockedCoins_singleton b _ c hpos.le).mp ⟨b₁, h₁⟩⟩
  · rintro ⟨hm, hv, hle⟩
    have hpos := ((isValid_singleton c).mp hv).2
    obtain ⟨b₁, h₁⟩ := (subUnlockedCoins_singleton b (A.addr m) c hpos.le).mpr (hl.symm ▸ hle)
    exact ⟨_, (), hm, (), hv, b₁, h₁, rfl⟩

/-! ## When a module's coins can be moved -/

theorem subUnlockedCoins_module {b : Bank A} {m : ModuleName} {cs : Coins}
    (h₀ : ∀ c ∈ cs, 0 ≤ c.amount) (h : ∀ d, cs.amountOf d ≤ b.balances (A.addr m) d) :
    ∃ b', b.subUnlockedCoins (A.addr m) cs = .ok b' := by
  induction cs generalizing b with
  | nil => exact ⟨b, rfl⟩
  | cons c cs ih =>
    have hc := h₀ c (by simp)
    have hcs : ∀ c ∈ cs, 0 ≤ c.amount := fun c hc => h₀ c (by simp [hc])
    have hle : c.amount ≤ b.balances (A.addr m) c.denom - b.locked (A.addr m) c.denom := by
      have hd := h c.denom
      have hrest := amountOf_nonneg hcs c.denom
      rw [amountOf_cons, if_pos rfl] at hd
      rw [b.locked_module]
      omega
    unfold subUnlockedCoins
    rw [dif_pos ⟨hc, hle⟩]
    apply ih hcs
    intro d
    have hd := h d
    rw [amountOf_cons] at hd
    change _ ≤ b.balances (A.addr m) d - (if A.addr m = A.addr m ∧ c.denom = d then c.amount else 0)
    simp only [true_and]
    omega

theorem mintCoins_of {b : Bank A} {m : ModuleName} {amt : Coins}
    (hm : Permission.minter ∈ mAccPerms m)
    (hv : amt.isValid = true) : ∃ b', b.mintCoins m amt = .ok b' := by
  obtain ⟨b₁, h₁⟩ := addCoins_of_isValid b (A.addr m) fun c hc => (amount_pos_of_isValid hv c hc).le
  simp only [mintCoins, bind_eq_ok, rejectIf_eq_ok, pure_eq_ok, Bool.not_eq_false, not_not]
  exact ⟨_, (), hm, (), hv, b₁, h₁, rfl⟩

theorem sendCoins_module {b : Bank A} {m : ModuleName} (dst : Addr) {amt : Coins}
    (hv : amt.isValid = true) (h : ∀ d, amt.amountOf d ≤ b.balances (A.addr m) d) :
    ∃ b', b.sendCoins (A.addr m) dst amt = .ok b' := by
  have h₀ := fun c hc => (amount_pos_of_isValid hv c hc).le
  obtain ⟨b₁, h₁⟩ := subUnlockedCoins_module h₀ h
  obtain ⟨b₂, h₂⟩ := addCoins_of_isValid b₁ dst h₀
  simp only [sendCoins, bind_eq_ok, rejectIf_eq_ok, pure_eq_ok, Bool.not_eq_false]
  exact ⟨_, (), hv, b₁, h₁, b₂, h₂, rfl⟩

theorem burnCoins_of {b : Bank A} {m : ModuleName} {amt : Coins}
    (hm : Permission.burner ∈ mAccPerms m)
    (hv : amt.isValid = true) (h : ∀ d, amt.amountOf d ≤ b.balances (A.addr m) d) :
    ∃ b', b.burnCoins m amt = .ok b' := by
  obtain ⟨b₁, h₁⟩ := subUnlockedCoins_module (fun c hc => (amount_pos_of_isValid hv c hc).le) h
  simp only [burnCoins, bind_eq_ok, rejectIf_eq_ok, pure_eq_ok, Bool.not_eq_false, not_not]
  exact ⟨_, (), hm, (), hv, b₁, h₁, rfl⟩

end Bank

end ZgChain
