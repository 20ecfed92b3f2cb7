import ZgChain.Evmutil.LedgerSound

/-!
# Minor balances stay below a unit

A payer whose minor balance is too small borrows a whole unit first and then has more
than a unit for a moment; a payee's is more than a unit until it is converted back.
So the bound is lost and regained within one operation, whose writes are followed one by
one. What is stored is not negative by the type of a state; that no operation attempts
to store a negative balance is that none fails with the error of such a write.
-/

namespace ZgChain.Evmutil

variable {A : ModuleAddrs} {s s₁ s' : State A}

/-- Every stored minor balance is positive and below a unit. -/
def SmallBalances (s : State A) : Prop :=
  ∀ a acc, s.accounts.get a = some acc → 0 < acc.balance ∧ acc.balance < conversionMultiplier

/-- The registered invariant. What it found broken once it reports ever after. -/
def smallBalancesInvariant (broken : Bool) (s : State A) : String × Bool :=
  ("evmutil: small balances broken invariant\nminor balances not all less than overflow\n",
    broken || s.accounts.entries.any fun e => decide (conversionMultiplier ≤ e.2.balance))

def Positive (s : State A) : Prop := ∀ a acc, s.accounts.get a = some acc → 0 < acc.balance

theorem getBalance_of_get {a : Addr} {acc : Account} (h : s.accounts.get a = some acc) :
    getBalance s a = acc.balance := by
  simp [getBalance, getAccount, h]

theorem smallBalances_iff (s : State A) :
    SmallBalances s ↔ Positive s ∧ ∀ x, getBalance s x < conversionMultiplier := by
  constructor
  · intro h
    refine ⟨fun a acc ha => (h a acc ha).1, fun x => ?_⟩
    cases hx : s.accounts.get x with
    | none => simp [getBalance, getAccount, hx, conversionMultiplier_pos]
    | some acc =>
      rw [getBalance_of_get hx]
      exact (h x acc hx).2
  · intro h a acc ha
    refine ⟨h.1 a acc ha, ?_⟩
    rw [← getBalance_of_get ha]
    exact h.2 a

theorem SmallBalances.invariant (h : SmallBalances s) :
    (smallBalancesInvariant false s).2 = false := by
  simp only [smallBalancesInvariant, Bool.false_or, List.any_eq_false, decide_eq_true_eq, not_le]
  intro e he
  exact (h e.1 e.2 ((KVStore.get_eq_some_iff _ _ _).mpr he)).2

/-! ## Writes -/

theorem setAccount_stored {acc : Account} (h : setAccount s acc = .ok s') {a : Addr}
    {acc' : Account}
    (ha : s'.accounts.get a = some acc') : 0 < acc'.balance ∨ s.accounts.get a = some acc' := by
  unfold setAccount at h
  split at h
  · cases h
  · split at h
    · rename_i hpos
      cases h
      rw [KVStore.get_set] at ha
      split at ha
      · cases ha
        exact .inl hpos
      · exact .inr ha
    · split at h
      · cases h
        rw [KVStore.get_delete] at ha
        split at ha
        · cases ha
        · exact .inr ha
      · cases h
        exact .inr ha

theorem setBalance_positive {a : Addr} {bal : Int} (h : setBalance s a bal = .ok s')
    (hs : Positive s) :
    Positive s' := by
  simp only [setBalance, setBalance_account, bind_eq_ok] at h
  obtain ⟨_, _, h⟩ := h
  intro x acc hx
  cases setAccount_stored h hx with
  | inl hpos => exact hpos
  | inr hold => exact hs x acc hold

/-- The computation does not attempt to store a negative balance. -/
def NeverNegative {α : Type} (x : Except Error α) : Prop := ∀ bal, x ≠ .error (.negativeBalance bal)

theorem NeverNegative.bind {α β : Type} {x : Except Error α} {f : α → Except Error β}
    (hx : NeverNegative x)
    (hf : ∀ a, x = .ok a → NeverNegative (f a)) : NeverNegative (x >>= f) := by
  intro bal h
  cases x with
  | error e =>
    cases h
    exact hx bal rfl
  | ok a => exact hf a rfl bal h

theorem neverNegative_ok {α : Type} (a : α) : NeverNegative (.ok a) := by
  intro bal h
  cases h

theorem neverNegative_rejectIf {c : Prop} [Decidable c] {e : Error}
    (he : ∀ bal, e ≠ .negativeBalance bal) :
    NeverNegative (rejectIf c e) := by
  intro bal
  unfold rejectIf
  split
  · simpa using he bal
  · simp

theorem setBalance_neverNegative {a : Addr} {bal : Int} (hb : 0 ≤ bal) :
    NeverNegative (setBalance s a bal) := by
  by_cases ha : a = []
  · intro bal'
    simp [setBalance, setBalance_account, Account.validate, rejectIf, ha]
  · obtain ⟨s', h⟩ := setBalance_of s bal ha hb
    rw [h]
    exact neverNegative_ok s'

theorem withBank_neverNegative {x : Except BankError (Bank A)} : NeverNegative (withBank s x) := by
  intro bal
  cases x with
  | error e => simp [withBank, Bank.store]
  | ok b => simp [withBank, Bank.store]

theorem withBankIfPositive_neverNegative {c : Coin} {x : Except BankError (Bank A)} :
    NeverNegative (withBankIfPositive s c x) := by
  unfold withBankIfPositive
  split
  · exact withBank_neverNegative
  · exact neverNegative_ok s

/-! ## The parts of an operation -/

theorem setBalance_keeps {a : Addr} {bal : Int} (h : setBalance s a bal = .ok s') :
    (Positive s → Positive s') ∧ ∀ x, getBalance s' x = if x = a then bal else getBalance s x := by
  refine ⟨setBalance_positive h, fun x => ?_⟩
  rw [(setBalance_ok h).balance x]
  split
  · rename_i hx
    rw [hx]
    omega
  · omega

theorem withBank_keeps {x : Except BankError (Bank A)} (h : withBank s x = .ok s') :
    (Positive s → Positive s') ∧ ∀ y, getBalance s' y = getBalance s y := by
  obtain ⟨b, _, rfl⟩ := (withBank_eq_ok s s' x).mp h
  exact ⟨id, fun _ => rfl⟩

theorem withBankIfPositive_keeps {c : Coin} {x : Except BankError (Bank A)}
    (h : withBankIfPositive s c x = .ok s') :
    (Positive s → Positive s') ∧ ∀ y, getBalance s' y = getBalance s y := by
  unfold withBankIfPositive at h
  split at h
  · exact withBank_keeps h
  · cases h
    exact ⟨id, fun _ => rfl⟩

/-- Once the amount is taken off, the payer has less than a unit again. -/
theorem convertOneGasDenomToEvmDenomIfNeeded_keeps {a : Addr} {n : Int} (h₀ : 0 ≤ n)
    (ha : getBalance s a < conversionMultiplier)
    (h : convertOneGasDenomToEvmDenomIfNeeded s a n = .ok s') :
    (Positive s → Positive s') ∧ (∀ x, x ≠ a → getBalance s' x = getBalance s x) ∧
      getBalance s' a - n < conversionMultiplier := by
  unfold convertOneGasDenomToEvmDenomIfNeeded at h
  split at h
  · cases h
    exact ⟨id, fun _ _ => rfl, by omega⟩
  · rename_i hlt
    simp only [bind_eq_ok] at h
    obtain ⟨s₁, hbank, hadd⟩ := h
    obtain ⟨l₁, e₁⟩ := withBank_keeps hbank
    have hnn := getBalance_nonneg s a
    have hM := conversionMultiplier_pos
    unfold addBalance at hadd
    rw [e₁] at hadd
    obtain ⟨l₂, e₂⟩ := setBalance_keeps hadd
    refine ⟨l₂ ∘ l₁, fun x hx => ?_, ?_⟩
    · rw [e₂, if_neg hx, e₁]
    · rw [e₂, if_pos rfl]
      omega

theorem sendBalance_keeps {src dst : Addr} {n : Int} (h : sendBalance s src dst n = .ok s') :
    (Positive s → Positive s') ∧ ∀ x, x ≠ dst → getBalance s' x = getBalance s x - if x = src then n
      else 0 := by
  have hbalance := (sendBalance_ok h).2.1
  refine ⟨?_, fun x hx => ?_⟩
  · simp only [sendBalance, bind_eq_ok, rejectIf_eq_ok] at h
    obtain ⟨_, h₀, h⟩ := h
    split at h
    · cases h
      exact id
    · simp only [bind_eq_ok, rejectIf_eq_ok] at h
      obtain ⟨_, _, s₁, hdebit, hcredit⟩ := h
      exact setBalance_positive hcredit ∘ setBalance_positive hdebit
  · rw [hbalance, if_neg hx, add_zero]

theorem convertEvmDenomToGasDenom_keeps {a : Addr} (h : convertEvmDenomToGasDenom s a = .ok s') :
    (Positive s → Positive s') ∧
      ∀ x, getBalance s' x = if x = a then getBalance s a % conversionMultiplier
        else getBalance s x := by
  have hnn := getBalance_nonneg s a
  have hM := conversionMultiplier_pos
  simp only [convertEvmDenomToGasDenom, splitEvmDenomCoins_evmCoins hnn, ok_bind] at h
  split at h
  · rename_i hq
    cases h
    have hlt : getBalance s a < conversionMultiplier := by
      by_contra hge
      exact hq (Int.le_ediv_of_mul_le hM (by omega))
    refine ⟨id, fun x => ?_⟩
    split
    · rename_i hx
      rw [hx, Int.emod_eq_of_lt hnn hlt]
    · rfl
  · simp only [bind_eq_ok] at h
    obtain ⟨s₁, hset, hbank⟩ := h
    have hmod : getBalance s a - getBalance s a / conversionMultiplier * conversionMultiplier =
        getBalance s a % conversionMultiplier := by
      rw [Int.emod_def, Int.mul_comm]
    rw [hmod] at hset
    have hlt := Int.emod_lt_of_pos (getBalance s a) hM
    obtain ⟨l₁, e₁⟩ := setBalance_keeps hset
    obtain ⟨l₂, e₂⟩ := withBank_keeps hbank
    exact ⟨l₂ ∘ l₁, fun x => (e₂ x).trans (e₁ x)⟩

/-! ## The operations -/

theorem Transfers.small {src dst : Addr} {amt : Coins}
    (hs : ∀ y, getBalance s y < conversionMultiplier) (h : Transfers s src dst amt s') :
    (Positive s → Positive s') ∧ ∀ y, getBalance s' y < conversionMultiplier := by
  obtain ⟨q, r, hsplit, s₁, s₂, s₃, ⟨_, _, h₁⟩, h₂, h₃, h₄⟩ := h
  obtain ⟨l₁, e₁⟩ := withBankIfPositive_keeps h₁
  obtain ⟨l₂, e₂, hsrc⟩ := convertOneGasDenomToEvmDenomIfNeeded_keeps hsplit.remainder_nonneg
    (by rw [e₁]; exact hs src) h₂
  have hother : ∀ y, y ≠ src → getBalance s₂ y < conversionMultiplier := by
    intro y hy
    rw [e₂ y hy, e₁]
    exact hs y
  obtain ⟨l₃, e₃⟩ := sendBalance_keeps h₃
  obtain ⟨l₄, e₄⟩ := convertEvmDenomToGasDenom_keeps h₄
  refine ⟨l₄ ∘ l₃ ∘ l₂ ∘ l₁, fun y => ?_⟩
  rw [e₄]
  split
  · exact Int.emod_lt_of_pos _ conversionMultiplier_pos
  · rename_i hy
    rw [e₃ y hy]
    by_cases hsy : y = src
    · rw [if_pos hsy, hsy]
      exact hsrc
    · rw [if_neg hsy, sub_zero]
      exact hother y hsy

theorem mintCoins_small {m : ModuleName} {amt : Coins}
    (hs : ∀ y, getBalance s y < conversionMultiplier) (h : EvmBank.mintCoins s m amt = .ok s') :
    (Positive s → Positive s') ∧ ∀ y, getBalance s' y < conversionMultiplier := by
  obtain ⟨q, r, hsplit, s₁, s₂, h₁, h₂, h₃⟩ := mintCoins_steps h
  obtain ⟨l₁, e₁⟩ := withBankIfPositive_keeps h₁
  obtain ⟨l₂, e₂⟩ := setBalance_keeps h₂
  obtain ⟨l₃, e₃⟩ := convertEvmDenomToGasDenom_keeps h₃
  refine ⟨l₃ ∘ l₂ ∘ l₁, fun y => ?_⟩
  rw [e₃]
  split
  · exact Int.emod_lt_of_pos _ conversionMultiplier_pos
  · rename_i hy
    rw [e₂, if_neg hy, e₁]
    exact hs y

theorem burnCoins_small {m : ModuleName} {amt : Coins}
    (hs : ∀ y, getBalance s y < conversionMultiplier) (h : EvmBank.burnCoins s m amt = .ok s') :
    (Positive s → Positive s') ∧ ∀ y, getBalance s' y < conversionMultiplier := by
  obtain ⟨q, r, hsplit, s₁, s₂, h₁, h₂, h₃⟩ := burnCoins_steps h
  have hr := hsplit.remainder_lt
  obtain ⟨l₁, e₁⟩ := withBankIfPositive_keeps h₁
  obtain ⟨l₂, e₂, hm⟩ :=
    convertOneGasDenomToEvmDenomIfNeeded_keeps hsplit.remainder_nonneg (by rw [e₁]; exact hs _) h₂
  have hbalance := (removeBalance_ok h₃).balance
  have l₃ : Positive s₂ → Positive s' := by
    simp only [removeBalance, bind_eq_ok, rejectIf_eq_ok] at h₃
    obtain ⟨_, _, h₃⟩ := h₃
    split at h₃
    · cases h₃
      exact id
    · simp only [bind_eq_ok, rejectIf_eq_ok] at h₃
      obtain ⟨_, _, h₃⟩ := h₃
      exact setBalance_positive h₃
  refine ⟨l₃ ∘ l₂ ∘ l₁, fun y => ?_⟩
  rw [hbalance]
  by_cases hy : y = A.addr m
  · rw [if_pos hy, hy]
    omega
  · rw [if_neg hy, add_zero, e₂ y hy, e₁]
    exact hs y

theorem EvmOp.exec_small {op : EvmOp} (hs : SmallBalances s) (h : op.exec s = .ok s') :
    SmallBalances s' := by
  rw [smallBalances_iff] at hs
  have hop : (Positive s → Positive s') ∧ ∀ y, getBalance s' y < conversionMultiplier := by
    cases op with
    | sendCoinsFromAccountToModule src m amt =>
      exact (sendCoinsFromAccountToModule_transfers h).small hs.2
    | sendCoinsFromModuleToAccount m dst amt =>
      exact (sendCoinsFromModuleToAccount_transfers h).small hs.2
    | mintCoins m amt => exact mintCoins_small hs.2 h
    | burnCoins m amt => exact burnCoins_small hs.2 h
  exact (smallBalances_iff s').mpr ⟨hop.1 hs.1, hop.2⟩

/-! ## No negative balance is computed -/

theorem splitEvmDenomCoins_neverNegative (amt : Coins) :
    NeverNegative (splitEvmDenomCoins amt) := by
  cases amt with
  | nil => exact neverNegative_ok _
  | cons c cs =>
    refine NeverNegative.bind ?_ fun _ _ => neverNegative_ok _
    refine (neverNegative_rejectIf ?_).bind fun _ _ => neverNegative_rejectIf ?_
    · simp
    · simp

theorem convertOneGasDenomToEvmDenomIfNeeded_neverNegative (s : State A) (a : Addr) (n : Int) :
    NeverNegative (convertOneGasDenomToEvmDenomIfNeeded s a n) := by
  unfold convertOneGasDenomToEvmDenomIfNeeded
  split
  · exact neverNegative_ok s
  · refine withBank_neverNegative.bind fun s₁ _ => setBalance_neverNegative ?_
    have hnn := getBalance_nonneg s₁ a
    have hM := conversionMultiplier_pos
    omega

theorem sendBalance_neverNegative (s : State A) (src dst : Addr) (n : Int) :
    NeverNegative (sendBalance s src dst n) := by
  refine (neverNegative_rejectIf (by simp)).bind fun _ h₀ => ?_
  rw [rejectIf_eq_ok] at h₀
  split
  · exact neverNegative_ok s
  · refine (neverNegative_rejectIf (by simp)).bind fun _ hle => ?_
    rw [rejectIf_eq_ok] at hle
    refine (setBalance_neverNegative (by omega)).bind fun s₁ _ => setBalance_neverNegative ?_
    have hnn := getBalance_nonneg s₁ dst
    omega

theorem convertEvmDenomToGasDenom_neverNegative (s : State A) (a : Addr) :
    NeverNegative (convertEvmDenomToGasDenom s a) := by
  have hnn := getBalance_nonneg s a
  simp only [convertEvmDenomToGasDenom, splitEvmDenomCoins_evmCoins hnn, ok_bind]
  split
  · exact neverNegative_ok s
  · refine (setBalance_neverNegative ?_).bind fun _ _ => withBank_neverNegative
    have hle := Int.ediv_mul_le (getBalance s a) conversionMultiplier_pos.ne'
    omega

theorem removeBalance_neverNegative (s : State A) (a : Addr) (n : Int) :
    NeverNegative (removeBalance s a n) := by
  refine (neverNegative_rejectIf (by simp)).bind fun _ _ => ?_
  split
  · exact neverNegative_ok s
  · refine (neverNegative_rejectIf (by simp)).bind fun _ hfinal => ?_
    rw [rejectIf_eq_ok] at hfinal
    exact setBalance_neverNegative (by omega)

theorem EvmOp.exec_neverNegative (s : State A) (op : EvmOp) : NeverNegative (op.exec s) := by
  cases op with
  | sendCoinsFromAccountToModule _ _ amt | sendCoinsFromModuleToAccount _ _ amt =>
    refine (splitEvmDenomCoins_neverNegative amt).bind fun _ _ => ?_
    refine withBankIfPositive_neverNegative.bind fun s₁ _ => ?_
    refine (convertOneGasDenomToEvmDenomIfNeeded_neverNegative _ _ _).bind fun s₂ _ => ?_
    refine (sendBalance_neverNegative _ _ _ _).bind fun s₃ _ => ?_
    exact convertEvmDenomToGasDenom_neverNegative s₃ _
  | mintCoins m amt =>
    refine (splitEvmDenomCoins_neverNegative amt).bind fun p hp => ?_
    obtain ⟨q, r, rfl, hsplit⟩ := splitEvmDenomCoins_split hp
    refine withBankIfPositive_neverNegative.bind fun s₁ _ => ?_
    have hadd : NeverNegative (addBalance s₁ (A.addr m) r) := by
      have hnn := getBalance_nonneg s₁ (A.addr m)
      have hr := hsplit.remainder_nonneg
      exact setBalance_neverNegative (by omega)
    exact hadd.bind fun s₂ _ => convertEvmDenomToGasDenom_neverNegative s₂ _
  | burnCoins m amt =>
    refine (splitEvmDenomCoins_neverNegative amt).bind fun _ _ => ?_
    refine withBankIfPositive_neverNegative.bind fun s₁ _ => ?_
    refine (convertOneGasDenomToEvmDenomIfNeeded_neverNegative _ _ _).bind fun s₂ _ => ?_
    exact removeBalance_neverNegative s₂ _ _

def EvmOp.execAll (s : State A) (ops : List EvmOp) : Except Error (State A) :=
  ops.foldlM EvmOp.exec s

/-- Minor balances that are small stay small, and no operation in any state attempts to
store a negative one, which would be an error. -/
theorem small_balances_kept (s s' : State A) (ops : List EvmOp) (hs : SmallBalances s)
    (h : EvmOp.execAll s ops = .ok s') :
    SmallBalances s' ∧ ∀ (t : State A) (op : EvmOp) (bal : Int), op.exec t ≠
      .error (.negativeBalance bal) := by
  refine ⟨?_, EvmOp.exec_neverNegative⟩
  induction ops generalizing s with
  | nil =>
    cases h
    exact hs
  | cons op ops ih =>
    rw [EvmOp.execAll, List.foldlM_cons, bind_eq_ok] at h
    obtain ⟨s₁, h₁, h⟩ := h
    exact ih s₁ (EvmOp.exec_small hs h₁) h

/-- The holder borrows a unit, the module account's balance carries, and then the module
pays itself. -/
def borrowOps : List EvmOp :=
  [.sendCoinsFromAccountToModule holderAddr .evm (evmCoins 1000000000500),
    .sendCoinsFromAccountToModule (chainAddrs.addr .evm) .evm (evmCoins 999999999999),
      .burnCoins .evm (evmCoins 7)]

theorem small_balances_kept_borrow : ∃ s', EvmOp.execAll borrowState borrowOps = .ok s' ∧
    SmallBalances s' := by
  have hs : SmallBalances borrowState := by
    have hentries : ∀ e ∈ borrowState.accounts.entries, 0 < e.2.balance ∧
        e.2.balance < conversionMultiplier := by decide
    intro a acc h
    exact hentries (a, acc) ((KVStore.get_eq_some_iff _ _ _).mp h)
  have hok : ∃ s', EvmOp.execAll borrowState borrowOps = .ok s' := by decide +kernel
  obtain ⟨s', h⟩ := hok
  exact ⟨s', h, (small_balances_kept borrowState s' borrowOps hs h).1⟩

end ZgChain.Evmutil
