import ZgChain.Evmutil.LedgerSound

/-!
# What an account can spend

The balance the EVM's bank keeper reports counts the account's gas coins, its
minor balance and the evm denom coins it holds in the bank. A send draws on the
first two only. When the minor balances are backed, a send of an amount succeeds
as soon as the payer has the whole units and, for the remainder, a large enough
minor balance or one more unit to convert: the payee's carry is always paid.
-/

namespace ZgChain.Evmutil

variable {A : ModuleAddrs} {s s₁ s' : State A}

/-! ## The payer's links -/

theorem isValid_gasDenom {q : Int} (h : 0 < q) : Coins.isValid [⟨gasDenom, q⟩] = true :=
  have hd : validateDenom gasDenom = true := by decide
  (isValid_singleton _).mpr ⟨hd, h⟩

section
variable {src : Addr} {m : ModuleName} {q : Int}

theorem payUnits_ok (hl : s.bank.locked src gasDenom = 0) (hq : 0 ≤ q)
    (h : withBankIfPositive s ⟨gasDenom, q⟩
      (s.bank.sendCoinsFromAccountToModule src m (newCoins ⟨gasDenom, q⟩)) = .ok s₁) :
    q ≤ s.bank.balances src gasDenom ∧
    s₁.bank.balances src gasDenom = s.bank.balances src gasDenom - q +
      (if src = A.addr m then q else 0) ∧
    s₁.bank.locked = s.bank.locked ∧ ∀ x, getBalance s₁ x = getBalance s x := by
  unfold withBankIfPositive at h
  split at h
  · rename_i hpos
    obtain ⟨b, hb, rfl⟩ := (withBank_eq_ok _ _ _).mp h
    obtain ⟨_, hbal, hlock⟩ := Bank.sendCoins_ok hb
    rw [newCoins, if_neg hpos.ne'] at hb
    have hle := ((Bank.sendCoins_singleton _ _ _ _).mp ⟨b, hb⟩).2
    refine ⟨by simpa [hl] using hle, ?_, hlock, fun _ => rfl⟩
    rw [hbal, amountOf_newCoins]
    simp
  · rename_i hpos
    cases h
    have h₀ : q = 0 := le_antisymm (not_lt.mp hpos) hq
    subst h₀
    exact ⟨s.bank.balances_nonneg src gasDenom, by simp, rfl, fun _ => rfl⟩

theorem payUnits_of (hl : s.bank.locked src gasDenom = 0) (h : q ≤ s.bank.balances src gasDenom) :
    ∃ s₁, withBankIfPositive s ⟨gasDenom, q⟩
      (s.bank.sendCoinsFromAccountToModule src m (newCoins ⟨gasDenom, q⟩)) = .ok s₁ := by
  unfold withBankIfPositive
  split
  · rename_i hpos
    obtain ⟨b, hb⟩ := (Bank.sendCoins_singleton s.bank src (A.addr m) ⟨gasDenom, q⟩).mpr
      ⟨isValid_gasDenom hpos, by simpa [hl] using h⟩
    rw [newCoins, if_neg (ne_of_gt hpos)]
    exact ⟨_, (withBank_eq_ok _ _ _).mpr ⟨b, hb, rfl⟩⟩
  · exact ⟨s, rfl⟩

end

theorem convertOneGasDenomToEvmDenomIfNeeded_ok {a : Addr} {n : Int}
    (hl : s.bank.locked a gasDenom = 0) (h : convertOneGasDenomToEvmDenomIfNeeded s a n = .ok s') :
    (n ≤ getBalance s a ∨ 1 ≤ s.bank.balances a gasDenom) ∧
    (n ≤ conversionMultiplier → n ≤ getBalance s' a) := by
  unfold convertOneGasDenomToEvmDenomIfNeeded at h
  split at h
  · rename_i hn; cases h
    exact ⟨Or.inl hn, fun _ => hn⟩
  · simp only [bind_eq_ok, withBank_eq_ok] at h
    obtain ⟨_, ⟨b, hb, rfl⟩, h⟩ := h
    have hle := ((Bank.sendCoins_singleton _ _ _ _).mp ⟨b, hb⟩).2
    refine ⟨Or.inr (by simpa [hl] using hle), fun hn => ?_⟩
    have hm := (addBalance_ok h).balance a
    have h₀ := getBalance_nonneg s a
    rw [if_pos rfl] at hm
    change getBalance s' a = getBalance s a + _ at hm
    omega

theorem convertOneGasDenomToEvmDenomIfNeeded_of {a : Addr} {n : Int} (ha : a ≠ [])
    (hl : s.bank.locked a gasDenom = 0) (h : n ≤ getBalance s a ∨ 1 ≤ s.bank.balances a gasDenom) :
    ∃ s', convertOneGasDenomToEvmDenomIfNeeded s a n = .ok s' := by
  unfold convertOneGasDenomToEvmDenomIfNeeded
  split
  · exact ⟨s, rfl⟩
  · rename_i hn
    have hg := h.resolve_left hn
    obtain ⟨b, hb⟩ := (Bank.sendCoins_singleton s.bank a (A.addr .evmutil) ⟨gasDenom, 1⟩).mpr
      ⟨by decide, by simpa [hl] using hg⟩
    have hw : withBank s (s.bank.sendCoinsFromAccountToModule a .evmutil (newCoins ⟨gasDenom, 1⟩)) =
        .ok { s with bank := b } := (withBank_eq_ok _ _ _).mpr ⟨b, hb, rfl⟩
    simp only [hw, ok_bind]
    have h₀ := getBalance_nonneg { s with bank := b } a
    have hM := conversionMultiplier_pos
    exact setBalance_of _ _ ha (by omega)

/-! ## The payee's carry -/

theorem convertEvmDenomToGasDenom_succeeds_iff {a : Addr} (ha : a ≠ []) :
    (∃ s', convertEvmDenomToGasDenom s a = .ok s') ↔
      getBalance s a / conversionMultiplier ≤ s.bank.balances (A.addr .evmutil) gasDenom := by
  have h₀ := getBalance_nonneg s a
  simp only [convertEvmDenomToGasDenom, splitEvmDenomCoins_evmCoins h₀, ok_bind]
  by_cases hpos : 0 < getBalance s a / conversionMultiplier
  · have hle : getBalance s a / conversionMultiplier * conversionMultiplier ≤ getBalance s a :=
      Int.ediv_mul_le _ conversionMultiplier_pos.ne'
    obtain ⟨s₁, h₁⟩ := setBalance_of s
      (getBalance s a - getBalance s a / conversionMultiplier * conversionMultiplier) ha (by omega)
    have hpay := Bank.sendCoins_singleton s₁.bank (A.addr .evmutil) a
      ⟨gasDenom, getBalance s a / conversionMultiplier⟩
    rw [s₁.bank.locked_module, (setBalance_ok h₁).bank, sub_zero] at hpay
    rw [if_neg (not_not.mpr hpos), h₁, ok_bind, newCoins, if_neg hpos.ne']
    simp only [withBank_eq_ok]
    constructor
    · rintro ⟨s', b, hb, _⟩
      rw [(setBalance_ok h₁).bank] at hb
      exact (hpay.mp ⟨b, hb⟩).2
    · intro hreserve
      obtain ⟨b, hb⟩ := hpay.mpr ⟨isValid_gasDenom hpos, hreserve⟩
      rw [(setBalance_ok h₁).bank]
      exact ⟨_, b, hb, rfl⟩
  · have hnonneg := s.bank.balances_nonneg (A.addr .evmutil) gasDenom
    rw [if_pos hpos]
    constructor
    · intro _
      omega
    · intro _
      exact ⟨s, rfl⟩

theorem convertEvmDenomToGasDenom_of {a : Addr} (ha : a ≠ []) (hb : FullyBacked s) :
    ∃ s', convertEvmDenomToGasDenom s a = .ok s' := by
  rw [convertEvmDenomToGasDenom_succeeds_iff ha]
  have hs := (fullyBacked_iff s).mp hb
  have ht := getBalance_le_total s a
  simp only [reserveSurplus, conversionMultiplier] at *
  omega

/-! ## When a send succeeds -/

section
variable {src : Addr} {m : ModuleName}

theorem sendCoinsFromAccountToModule_succeeds_iff (hb : FullyBacked s) (hs : src ≠ A.addr .evmutil)
    (hne : src ≠ []) (hm : m ≠ .evmutil) (hl : s.bank.locked src gasDenom = 0) (a : Nat) :
    (∃ s', EvmBank.sendCoinsFromAccountToModule s src m (evmCoins a) = .ok s') ↔
      a / conversionMultiplier ≤ s.bank.balances src gasDenom ∧
      (a % conversionMultiplier ≤ getBalance s src ∨
        1 ≤ s.bank.balances src gasDenom - a / conversionMultiplier +
          (if src = A.addr m then a / conversionMultiplier else 0)) := by
  have hM := conversionMultiplier_pos
  have hq : (0 : Int) ≤ a / conversionMultiplier := Int.ediv_nonneg (Int.natCast_nonneg a) hM.le
  have hr := Int.emod_nonneg a hM.ne'
  have hrM := (Int.emod_lt_of_pos a hM).le
  have hsplit := splitEvmDenomCoins_evmCoins (Int.natCast_nonneg a)
  have hme := A.addr_ne hm
  simp only [EvmBank.sendCoinsFromAccountToModule, hsplit, ok_bind, bind_eq_ok]
  refine ⟨fun h => ?_, fun h => ?_⟩
  · obtain ⟨s', s₁, h₁, s₂, h₂, _⟩ := h
    obtain ⟨hle, hg, hlock, hbal⟩ := payUnits_ok hl hq h₁
    have hc := (convertOneGasDenomToEvmDenomIfNeeded_ok (by rw [hlock, hl]) h₂).1
    rw [hbal, hg] at hc
    exact ⟨hle, hc⟩
  · obtain ⟨hle, hc⟩ := h
    obtain ⟨s₁, h₁⟩ := payUnits_of (m := m) hl hle
    obtain ⟨_, hg, hlock, hbal⟩ := payUnits_ok hl hq h₁
    have hl₁ : s₁.bank.locked src gasDenom = 0 := by rw [hlock, hl]
    obtain ⟨s₂, h₂⟩ := convertOneGasDenomToEvmDenomIfNeeded_of hne hl₁ (by rw [hbal, hg]; exact hc)
    have hn := (convertOneGasDenomToEvmDenomIfNeeded_ok hl₁ h₂).2 hrM
    obtain ⟨s₃, h₃⟩ := sendBalance_of s₂ hne (A.nonempty m) hr hn
    have hb₃ : FullyBacked s₃ := by
      have c₁ := (transferUnits_change hs hme hq (fun _ hb => hb) h₁).surplus
      have c₂ := (convertOneGasDenomToEvmDenomIfNeeded_change hs h₂).surplus
      have c₃ := (sendBalance_change h₃).surplus
      rw [fullyBacked_iff] at hb ⊢
      omega
    obtain ⟨s', h₄⟩ := convertEvmDenomToGasDenom_of (A.nonempty m) hb₃
    exact ⟨s', s₁, h₁, s₂, h₂, s₃, h₃, h₄⟩

end

/-! ## The reported balance -/

theorem getBalance_evmDenom (s : State A) (x : Addr) (hl : ∀ d, s.bank.locked x d = 0) :
    EvmBank.getBalance s x evmDenom =
      .ok ⟨evmDenom, evmLedger s x + s.bank.balances x evmDenom⟩ := by
  have hg := s.bank.balances_nonneg x gasDenom
  have he := s.bank.balances_nonneg x evmDenom
  simp only [EvmBank.getBalance, rejectIf_neg (not_not.mpr rfl), ok_bind, Bank.spendable, hl,
    sub_zero, max_eq_right hg, max_eq_right he]
  split
  · simp only [evmLedger, mul_comm]
    exact congrArg (fun n => Except.ok (Coin.mk evmDenom n)) (by omega)
  · have hz : s.bank.balances x gasDenom = 0 := by omega
    simp only [evmLedger, hz, mul_zero]
    exact congrArg (fun n => Except.ok (Coin.mk evmDenom n)) (by omega)

def bondedState : State chainAddrs :=
  State.ofEntries KVStore.empty (Bank.empty.credit holderAddr ⟨evmDenom, 5⟩ (by decide))
    empty_entries_valid

end ZgChain.Evmutil
