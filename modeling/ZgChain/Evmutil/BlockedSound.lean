import ZgChain.Evmutil.SpendSound

/-!
# Blocked recipients

The bank refuses to pay blocked addresses, but it is asked to only when whole units are sent
to an account. The remainder moves in the store of minor balances, and the carry is paid by a
transfer that the bank does not check. So an amount below a unit is sent to a blocked address
like to any other one: it is refused only if the module account or the reserve cannot pay.
-/

namespace ZgChain.Evmutil

variable {A : ModuleAddrs} {s s₁ s₂ s' : State A}

/-- The unit that the module account of the EVM has to convert for an amount below a unit. -/
def lentUnits (s : State A) (a : Int) : Int := if a ≤ getBalance s (A.addr .evm) then 0 else 1

/-- The minor balance of the recipient before full units of it are converted back. -/
def receivedBalance (s : State A) (recipient : Addr) (a : Int) : Int :=
  getBalance s recipient + if recipient = A.addr .evm then conversionMultiplier *
    lentUnits s a else a

/-! ## Sending an amount below a unit -/

theorem lend_ok {a : Int} (h : convertOneGasDenomToEvmDenomIfNeeded s (A.addr .evm) a = .ok s₁) :
    s₁.bank.balances (A.addr .evmutil) gasDenom = s.bank.balances (A.addr .evmutil) gasDenom +
      lentUnits s a ∧
    ∀ x, getBalance s₁ x = getBalance s x + if x = A.addr .evm then conversionMultiplier *
      lentUnits s a else 0 := by
  unfold convertOneGasDenomToEvmDenomIfNeeded at h
  unfold lentUnits
  by_cases hn : a ≤ getBalance s (A.addr .evm)
  · rw [if_pos hn] at h
    cases h
    simp [hn]
  · rw [if_neg hn] at h
    simp only [bind_eq_ok, withBank_eq_ok] at h
    obtain ⟨_, ⟨b, hb, rfl⟩, hadd⟩ := h
    have hadjust := addBalance_ok hadd
    have hne : A.addr .evmutil ≠ A.addr .evm := A.addr_ne (by decide)
    rw [if_neg hn]
    constructor
    · rw [hadjust.bank]
      change b.balances (A.addr .evmutil) gasDenom = _
      rw [(Bank.sendCoins_ok hb).2.1, if_neg hne, if_pos rfl, amountOf_newCoins, if_pos rfl,
        sub_zero]
    · intro x
      rw [mul_one]
      exact hadjust.balance x

theorem lend_succeeds_iff {a : Int} :
    (∃ s₁, convertOneGasDenomToEvmDenomIfNeeded s (A.addr .evm) a = .ok s₁) ↔
    lentUnits s a ≤ s.bank.balances (A.addr .evm) gasDenom := by
  have hl := s.bank.locked_module .evm gasDenom
  have hnonneg := s.bank.balances_nonneg (A.addr .evm) gasDenom
  have hsplit : (a ≤ getBalance s (A.addr .evm) ∨ 1 ≤ s.bank.balances (A.addr .evm) gasDenom) ↔
      lentUnits s a ≤ s.bank.balances (A.addr .evm) gasDenom := by
    unfold lentUnits
    by_cases hn : a ≤ getBalance s (A.addr .evm)
    · simp [hn, hnonneg]
    · simp [hn]
  rw [← hsplit]
  constructor
  · intro h
    obtain ⟨s₁, h⟩ := h
    exact (convertOneGasDenomToEvmDenomIfNeeded_ok hl h).1
  · exact convertOneGasDenomToEvmDenomIfNeeded_of (A.nonempty .evm) hl

/-- An amount below a unit is sent without asking the bank whether the recipient is blocked. -/
theorem sendBelowUnit_succeeds_iff {recipient : Addr} {a : Int} (hr : recipient ≠ []) (ha : 0 < a)
    (hlt : a < conversionMultiplier) :
    (∃ s', EvmBank.sendCoinsFromModuleToAccount s .evm recipient (evmCoins a) = .ok s') ↔
      lentUnits s a ≤ s.bank.balances (A.addr .evm) gasDenom ∧
      receivedBalance s recipient a / conversionMultiplier ≤
        s.bank.balances (A.addr .evmutil) gasDenom + lentUnits s a := by
  have hquo : a / conversionMultiplier = 0 := Int.ediv_eq_zero_of_lt ha.le hlt
  have hrem : a % conversionMultiplier = a := Int.emod_eq_of_lt ha.le hlt
  -- after the loan the module account has the amount, and the reserve may have to pay the carry
  have hafter : ∀ s₁, convertOneGasDenomToEvmDenomIfNeeded s (A.addr .evm) a = .ok s₁ →
      ((∃ s' s₂, sendBalance s₁ (A.addr .evm) recipient a = .ok s₂ ∧
        convertEvmDenomToGasDenom s₂ recipient = .ok s') ↔
        receivedBalance s recipient a / conversionMultiplier ≤
          s.bank.balances (A.addr .evmutil) gasDenom + lentUnits s a) := by
    intro s₁ h₁
    obtain ⟨hreserve, hbalance⟩ := lend_ok h₁
    have henough := (convertOneGasDenomToEvmDenomIfNeeded_ok (s.bank.locked_module .evm gasDenom)
      h₁).2 hlt.le
    obtain ⟨s₂, h₂⟩ := sendBalance_of s₁ (A.nonempty .evm) hr ha.le henough
    obtain ⟨hbank, hsent, _⟩ := sendBalance_ok h₂
    have hreceived : getBalance s₂ recipient = receivedBalance s recipient a := by
      rw [hsent, hbalance, receivedBalance]
      by_cases he : recipient = A.addr .evm
      · simp [he]
      · simp [he]
    rw [← hreceived, ← hreserve, ← hbank, ← convertEvmDenomToGasDenom_succeeds_iff hr]
    constructor
    · rintro ⟨s', t, ht, h⟩
      rw [h₂] at ht
      cases ht
      exact ⟨s', h⟩
    · rintro ⟨s', h⟩
      exact ⟨s', s₂, h₂, h⟩
  simp only [EvmBank.sendCoinsFromModuleToAccount, splitEvmDenomCoins_evmCoins ha.le, hquo, hrem,
    ok_bind, withBankIfPositive, lt_irrefl, if_false, bind_eq_ok]
  rw [← lend_succeeds_iff]
  constructor
  · rintro ⟨s', s₁, h₁, s₂, h₂, h⟩
    exact ⟨⟨s₁, h₁⟩, (hafter s₁ h₁).mp ⟨s', s₂, h₂, h⟩⟩
  · rintro ⟨⟨s₁, h₁⟩, hcarry⟩
    obtain ⟨s', s₂, h₂, h⟩ := (hafter s₁ h₁).mpr hcarry
    exact ⟨s', s₁, h₁, s₂, h₂, h⟩

theorem sendUnits_blocked {recipient : Addr} {a : Int}
    (hblocked : A.loadBlockedMaccAddrs recipient = true) (ha : conversionMultiplier ≤ a) :
    EvmBank.sendCoinsFromModuleToAccount s .evm recipient (evmCoins a) =
      .error (.bank (.unauthorized recipient)) := by
  have hM := conversionMultiplier_pos
  have hpos : 0 < a / conversionMultiplier := Int.le_ediv_of_mul_le hM (by omega)
  simp only [EvmBank.sendCoinsFromModuleToAccount, splitEvmDenomCoins_evmCoins (hM.le.trans ha),
    ok_bind, withBankIfPositive, if_pos hpos, Bank.sendCoinsFromModuleToAccount, rejectIf, hblocked,
    if_true, error_bind, withBank, Bank.store]

/-- A positive amount for a blocked recipient is refused exactly if it has a whole unit, or
the module account has no unit to convert for it, or the reserve does not have the units of
the recipient's carry. -/
theorem blocked_recipient_refused_iff (s : State A) (recipient : Addr) (a : Int)
    (hblocked : A.loadBlockedMaccAddrs recipient = true) (ha : 0 < a) :
    (∃ e, EvmBank.sendCoinsFromModuleToAccount s .evm recipient (evmCoins a) = .error e) ↔
      conversionMultiplier ≤ a ∨
      s.bank.balances (A.addr .evm) gasDenom < lentUnits s a ∨
      s.bank.balances (A.addr .evmutil) gasDenom + lentUnits s a <
        receivedBalance s recipient a / conversionMultiplier := by
  by_cases hunit : conversionMultiplier ≤ a
  · exact ⟨fun _ => .inl hunit, fun _ => ⟨_, sendUnits_blocked hblocked hunit⟩⟩
  · -- a blocked address is that of a module, so it is not empty
    rw [A.loadBlockedMaccAddrs_eq, A.moduleAccountAddrs_iff] at hblocked
    obtain ⟨m, rfl⟩ := hblocked
    have hsent := sendBelowUnit_succeeds_iff (s := s) (A.nonempty m) ha (not_le.mp hunit)
    rw [fails_iff, hsent, not_and_or, not_le, not_le]
    exact (or_iff_right hunit).symm

theorem fiveHeld_valid : ∀ e ∈ (KVStore.empty.set (chainAddrs.addr .evm) ⟨chainAddrs.addr .evm, 5⟩ :
    KVStore Addr Account).entries, e.2.address = e.1 ∧ e.2.validate = .ok () := by
  decide

def fiveHeld : State chainAddrs := State.ofEntries _ Bank.empty fiveHeld_valid

theorem blocked_recipient_refused_unit :
    chainAddrs.loadBlockedMaccAddrs (chainAddrs.addr .mint) = true ∧
    ∃ e, EvmBank.sendCoinsFromModuleToAccount fiveHeld .evm (chainAddrs.addr .mint)
      (evmCoins conversionMultiplier) =
      .error e := by
  have hblocked : chainAddrs.loadBlockedMaccAddrs (chainAddrs.addr .mint) = true := by decide
  have hrefused :=
    blocked_recipient_refused_iff fiveHeld (chainAddrs.addr .mint) conversionMultiplier
      hblocked (by decide)
  exact ⟨hblocked, hrefused.mpr (.inl le_rfl)⟩

theorem blocked_recipient_paid : chainAddrs.loadBlockedMaccAddrs (chainAddrs.addr .mint) = true ∧
    ∃ s', EvmBank.sendCoinsFromModuleToAccount fiveHeld .evm (chainAddrs.addr .mint)
      (evmCoins 3) = .ok s' ∧
      getBalance s' (chainAddrs.addr .mint) = 3 := by
  decide

end ZgChain.Evmutil
