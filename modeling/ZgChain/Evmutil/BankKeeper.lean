import ZgChain.Evmutil.Keeper

/-!
# The EVM's bank keeper

The EVM works in the 18 decimal evm denom. An amount of it is split into whole
units of the gas denom, which move in the bank, and a remainder, which moves in
the store of minor balances. One whole unit is converted to minor balance when the
payer's is too small, and full units of the payee's are converted back. The units
behind the minor balances are held by the evmutil module account.
-/

namespace ZgChain.Evmutil

variable {A : ModuleAddrs}

def evmCoins (a : Int) : Coins := newCoins ⟨evmDenom, a⟩

def withBank (s : State A) (x : Except BankError (Bank A)) : Except Error (State A) :=
  Bank.store (fun b => { s with bank := b }) .bank x

@[simp] theorem withBank_eq_ok (s s' : State A) (x : Except BankError (Bank A)) :
    withBank s x = .ok s' ↔ ∃ b, x = .ok b ∧ { s with bank := b } = s' :=
  Bank.store_eq_ok

theorem withBank_bank {s s' : State A} {x : Except BankError (Bank A)} (h : withBank s x = .ok s') :
    x = .ok s'.bank :=
  Bank.stored State.bank (fun _ => rfl) h

def withBankIfPositive (s : State A) (c : Coin) (x : Except BankError (Bank A)) :
    Except Error (State A) :=
  if 0 < c.amount then withBank s x else .ok s

def validateEvmCoins (coins : Coins) : Except Error Unit :=
  match coins with
  | [] => .ok ()
  | coin :: rest => do
    rejectIf (coins.isValid = false) (.invalidCoins coins)
    rejectIf (rest ≠ [] ∨ coin.denom ≠ evmDenom) .invalidEvmDenom

def splitEvmDenomCoins (coins : Coins) : Except Error (Coin × Int) :=
  match coins with
  | [] => .ok (⟨gasDenom, 0⟩, 0)
  | coin :: _ => do
    validateEvmCoins coins
    let remainingBalance := coin.amount % conversionMultiplier
    let baseDenomCnt := if 0 < remainingBalance then remainingBalance else 0
    let gasDenomAmount := coin.amount.tdiv conversionMultiplier
    let gasDenomAmt : Coin := if 0 < gasDenomAmount then ⟨gasDenom, gasDenomAmount⟩
      else ⟨gasDenom, 0⟩
    return (gasDenomAmt, baseDenomCnt)

def convertOneGasDenomToEvmDenomIfNeeded (s : State A) (a : Addr) (evmDenomCnt : Int) :
    Except Error (State A) := do
  if evmDenomCnt ≤ getBalance s a then return s
  let gasDenomToStore := newCoins ⟨gasDenom, 1⟩
  let s ← withBank s (s.bank.sendCoinsFromAccountToModule a .evmutil gasDenomToStore)
  addBalance s a conversionMultiplier

def convertEvmDenomToGasDenom (s : State A) (a : Addr) : Except Error (State A) := do
  let totalEvmDenom := getBalance s a
  let (gasDenomCoin, _) ← splitEvmDenomCoins (evmCoins totalEvmDenom)
  let gasDenomToReceive := gasDenomCoin.amount
  if ¬ 0 < gasDenomToReceive then return s
  let evmDenomToBurn := gasDenomToReceive * conversionMultiplier
  let finalBal := totalEvmDenom - evmDenomToBurn
  let s ← setBalance s a finalBal
  withBank s (s.bank.sendCoins (A.addr .evmutil) a (newCoins gasDenomCoin))

namespace EvmBank

def getBalance (s : State A) (a : Addr) (denom : Denom) : Except Error Coin := do
  rejectIf (denom ≠ evmDenom) (.unsupportedDenom denom)
  let gasDenomFromBank := s.bank.spendable a gasDenom
  let evmDenomFromBank := s.bank.spendable a evmDenom
  let evmDenomFromEvmBank := Evmutil.getBalance s a
  let total :=
    if 0 < gasDenomFromBank then gasDenomFromBank * conversionMultiplier + evmDenomFromBank +
      evmDenomFromEvmBank
    else evmDenomFromBank + evmDenomFromEvmBank
  return ⟨evmDenom, total⟩

def sendCoinsFromModuleToAccount (s : State A) (senderModule : ModuleName) (recipientAddr : Addr)
    (amt : Coins) :
    Except Error (State A) := do
  let (gasDenomCoin, baseDenomCnt) ← splitEvmDenomCoins amt
  let s ← withBankIfPositive s gasDenomCoin
    (s.bank.sendCoinsFromModuleToAccount senderModule recipientAddr (newCoins gasDenomCoin))
  let senderAddr := A.addr senderModule
  let s ← convertOneGasDenomToEvmDenomIfNeeded s senderAddr baseDenomCnt
  let s ← sendBalance s senderAddr recipientAddr baseDenomCnt
  convertEvmDenomToGasDenom s recipientAddr

def sendCoinsFromAccountToModule (s : State A) (senderAddr : Addr) (recipientModule : ModuleName)
    (amt : Coins) :
    Except Error (State A) := do
  let (gasDenomCoin, evmDenomCnt) ← splitEvmDenomCoins amt
  let s ← withBankIfPositive s gasDenomCoin
    (s.bank.sendCoinsFromAccountToModule senderAddr recipientModule (newCoins gasDenomCoin))
  let s ← convertOneGasDenomToEvmDenomIfNeeded s senderAddr evmDenomCnt
  let recipientAddr := A.addr recipientModule
  let s ← sendBalance s senderAddr recipientAddr evmDenomCnt
  convertEvmDenomToGasDenom s recipientAddr

def mintCoins (s : State A) (moduleName : ModuleName) (amt : Coins) : Except Error (State A) := do
  let (gasDenomCoin, baseDenomCnt) ← splitEvmDenomCoins amt
  let s ← withBankIfPositive s gasDenomCoin
    (s.bank.mintCoins moduleName (newCoins gasDenomCoin))
  let recipientAddr := A.addr moduleName
  let s ← addBalance s recipientAddr baseDenomCnt
  convertEvmDenomToGasDenom s recipientAddr

def burnCoins (s : State A) (moduleName : ModuleName) (amt : Coins) : Except Error (State A) := do
  let (gasDenomCoin, baseDenomCnt) ← splitEvmDenomCoins amt
  let s ← withBankIfPositive s gasDenomCoin
    (s.bank.burnCoins moduleName (newCoins gasDenomCoin))
  let moduleAddr := A.addr moduleName
  let s ← convertOneGasDenomToEvmDenomIfNeeded s moduleAddr baseDenomCnt
  removeBalance s moduleAddr baseDenomCnt

end EvmBank

/-! ## The registered invariant -/

/-- The sum of all minor balances is at most the module account's balance. The
second component says that the invariant is broken. -/
def fullyBackedInvariant (s : State A) : String × Bool :=
  let bankBalance := s.bank.balances (A.addr .evmutil) gasDenom * conversionMultiplier
  ("evmutil: fully backed broken invariant\nsum of minor balances greater than module account\n",
    decide (bankBalance < totalMinorBalances s))

def FullyBacked (s : State A) : Prop := (fullyBackedInvariant s).2 = false

instance (s : State A) : Decidable (FullyBacked s) := inferInstanceAs (Decidable (_ = false))

/-! ## The split of an amount -/

theorem conversionMultiplier_pos : 0 < conversionMultiplier := by decide

theorem validateEvmCoins_cons (c : Coin) (cs : Coins) (u : Unit) :
    validateEvmCoins (c :: cs) = .ok u ↔ cs = [] ∧ c.denom = evmDenom ∧ 0 < c.amount := by
  simp only [validateEvmCoins, bind_eq_ok, rejectIf_eq_ok, Bool.not_eq_false, not_or, not_not]
  refine ⟨fun h => ?_, fun h => ?_⟩
  · obtain ⟨_, hv, rfl, hd⟩ := h
    exact ⟨rfl, hd, ((isValid_singleton c).mp hv).2⟩
  · obtain ⟨rfl, hd, hp⟩ := h
    have hv : validateDenom c.denom = true := by rw [hd]; decide
    exact ⟨(), (isValid_singleton c).mpr ⟨hv, hp⟩, rfl, hd⟩

theorem splitEvmDenomCoins_ok {coins : Coins} {p : Coin × Int}
    (h : splitEvmDenomCoins coins = .ok p) :
    0 ≤ coins.amountOf evmDenom ∧
    p = (⟨gasDenom, coins.amountOf evmDenom / conversionMultiplier⟩,
      coins.amountOf evmDenom % conversionMultiplier) := by
  cases coins with
  | nil => cases h; exact ⟨le_refl 0, rfl⟩
  | cons c cs =>
    simp only [splitEvmDenomCoins, bind_eq_ok, pure_eq_ok] at h
    obtain ⟨_, hv, rfl⟩ := h
    obtain ⟨rfl, hd, hp⟩ := (validateEvmCoins_cons c cs _).mp hv
    have hM := conversionMultiplier_pos
    have hr := Int.emod_nonneg c.amount hM.ne'
    have hq : 0 ≤ c.amount / conversionMultiplier := Int.ediv_nonneg hp.le hM.le
    rw [Int.tdiv_eq_ediv_of_nonneg hp.le]
    simp only [amountOf_cons, hd, amountOf_nil, ite_true, add_zero]
    refine ⟨hp.le, Prod.ext ?_ ?_⟩
    · rcases hq.lt_or_eq with h' | h'
      · simp [h']
      · simp [← h']
    · rcases hr.lt_or_eq with h' | h'
      · simp [h']
      · simp [← h']

theorem splitEvmDenomCoins_evmCoins {a : Int} (h : 0 ≤ a) :
    splitEvmDenomCoins (evmCoins a) =
      .ok (⟨gasDenom, a / conversionMultiplier⟩, a % conversionMultiplier) := by
  have hn : (evmCoins a).amountOf evmDenom = a := by simp [evmCoins, amountOf_newCoins]
  have hok : ∃ p, splitEvmDenomCoins (evmCoins a) = .ok p := by
    rcases h.lt_or_eq with h | rfl
    · have hv := (validateEvmCoins_cons ⟨evmDenom, a⟩ [] ()).mpr ⟨rfl, rfl, h⟩
      rw [evmCoins, newCoins, if_neg h.ne']
      exact ⟨_, by rw [splitEvmDenomCoins, hv, ok_bind]; rfl⟩
    · exact ⟨_, rfl⟩
  obtain ⟨p, hp⟩ := hok
  have := (splitEvmDenomCoins_ok hp).2
  rw [hn] at this
  rw [hp, this]

/-! ## The steps of the operations -/

structure Split (amt : Coins) (q r : Int) : Prop where
  units_nonneg : 0 ≤ q
  sum : conversionMultiplier * q + r = amt.amountOf evmDenom
  remainder : r = amt.amountOf evmDenom % conversionMultiplier

theorem Split.remainder_nonneg {amt : Coins} {q r : Int} (h : Split amt q r) : 0 ≤ r := by
  rw [h.remainder]
  exact Int.emod_nonneg _ conversionMultiplier_pos.ne'

theorem Split.remainder_lt {amt : Coins} {q r : Int} (h : Split amt q r) :
    r < conversionMultiplier := by
  rw [h.remainder]
  exact Int.emod_lt_of_pos _ conversionMultiplier_pos

theorem splitEvmDenomCoins_split {amt : Coins} {p : Coin × Int}
    (h : splitEvmDenomCoins amt = .ok p) :
    ∃ q r, p = (⟨gasDenom, q⟩, r) ∧ Split amt q r := by
  obtain ⟨hn, rfl⟩ := splitEvmDenomCoins_ok h
  exact ⟨_, _, rfl, Int.ediv_nonneg hn conversionMultiplier_pos.le, Int.mul_ediv_add_emod _ _, rfl⟩

/-- A transfer: whole units, one unit for the remainder if the payer needs it, the
remainder, and the payee's full units. -/
def Transfers (s : State A) (src dst : Addr) (amt : Coins) (s' : State A) : Prop :=
  ∃ q r, Split amt q r ∧ ∃ s₁ s₂ s₃,
    (∃ x, (∀ b, x = .ok b → s.bank.sendCoins src dst (newCoins ⟨gasDenom, q⟩) = .ok b) ∧
      withBankIfPositive s ⟨gasDenom, q⟩ x = .ok s₁) ∧
    convertOneGasDenomToEvmDenomIfNeeded s₁ src r = .ok s₂ ∧ sendBalance s₂ src dst r = .ok s₃ ∧
    convertEvmDenomToGasDenom s₃ dst = .ok s'

section
variable {s s' : State A} {m : ModuleName} {amt : Coins}

theorem sendCoinsFromModuleToAccount_transfers {dst : Addr}
    (h : EvmBank.sendCoinsFromModuleToAccount s m dst amt = .ok s') :
    Transfers s (A.addr m) dst amt s' := by
  simp only [EvmBank.sendCoinsFromModuleToAccount, bind_eq_ok] at h
  obtain ⟨p, hp, s₁, h₁, s₂, h₂, s₃, h₃, h₄⟩ := h
  obtain ⟨q, r, rfl, hsplit⟩ := splitEvmDenomCoins_split hp
  exact ⟨q, r, hsplit, s₁, s₂, s₃,
    ⟨_, fun b hb => (Bank.sendCoinsFromModuleToAccount_ok.mp hb).2, h₁⟩, h₂, h₃, h₄⟩

theorem sendCoinsFromAccountToModule_transfers {src : Addr}
    (h : EvmBank.sendCoinsFromAccountToModule s src m amt = .ok s') :
    Transfers s src (A.addr m) amt s' := by
  simp only [EvmBank.sendCoinsFromAccountToModule, bind_eq_ok] at h
  obtain ⟨p, hp, s₁, h₁, s₂, h₂, s₃, h₃, h₄⟩ := h
  obtain ⟨q, r, rfl, hsplit⟩ := splitEvmDenomCoins_split hp
  exact ⟨q, r, hsplit, s₁, s₂, s₃, ⟨_, fun b hb => hb, h₁⟩, h₂, h₃, h₄⟩

theorem mintCoins_steps (h : EvmBank.mintCoins s m amt = .ok s') : ∃ q r, Split amt q r ∧ ∃ s₁ s₂,
    withBankIfPositive s ⟨gasDenom, q⟩ (s.bank.mintCoins m (newCoins ⟨gasDenom, q⟩)) = .ok s₁ ∧
    addBalance s₁ (A.addr m) r = .ok s₂ ∧ convertEvmDenomToGasDenom s₂ (A.addr m) = .ok s' := by
  simp only [EvmBank.mintCoins, bind_eq_ok] at h
  obtain ⟨p, hp, s₁, h₁, s₂, h₂, h₃⟩ := h
  obtain ⟨q, r, rfl, hsplit⟩ := splitEvmDenomCoins_split hp
  exact ⟨q, r, hsplit, s₁, s₂, h₁, h₂, h₃⟩

theorem burnCoins_steps (h : EvmBank.burnCoins s m amt = .ok s') : ∃ q r, Split amt q r ∧ ∃ s₁ s₂,
    withBankIfPositive s ⟨gasDenom, q⟩ (s.bank.burnCoins m (newCoins ⟨gasDenom, q⟩)) = .ok s₁ ∧
    convertOneGasDenomToEvmDenomIfNeeded s₁ (A.addr m) r = .ok s₂ ∧
    removeBalance s₂ (A.addr m) r = .ok s' := by
  simp only [EvmBank.burnCoins, bind_eq_ok] at h
  obtain ⟨p, hp, s₁, h₁, s₂, h₂, h₃⟩ := h
  obtain ⟨q, r, rfl, hsplit⟩ := splitEvmDenomCoins_split hp
  exact ⟨q, r, hsplit, s₁, s₂, h₁, h₂, h₃⟩

end

end ZgChain.Evmutil
