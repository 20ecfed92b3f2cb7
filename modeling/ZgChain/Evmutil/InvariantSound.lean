import ZgChain.Evmutil.PairSound
import ZgChain.Evmutil.SmallSound
import ZgChain.Lib.Latch

/-!
# Verdicts of the registered invariants

An invariant is built once and then evaluated on one state after another. Each of the four
keeps a variable outside of the function that is evaluated. The one for the reserve assigns
it in every evaluation; the others only ever set it, so that after a broken state they report
every state as broken.
-/

namespace ZgChain.Evmutil

variable {A : ModuleAddrs} {E : Type} {evm : EvmKeeper E}

/-- The invariant of the conversion pairs. It stops at the first pair that is not covered,
and panics if a contract does not answer. What it found broken once it reports ever after.
-/
def backedCoinsInvariant (evm : EvmKeeper E) (w : World A E) (broken : Bool) :
    Except ConvertError (String × Bool) :=
  let rec check : List ConversionPair → Bool → Except ConvertError Bool
    | [], broken => .ok broken
    | pair :: pairs, broken => do
      let erc20Balance ← queryERC20BalanceOf evm w pair.getAddress (moduleEVMAddress A)
      if erc20Balance < w.bank.supply pair.denom then return true else check pairs broken
  (fun b => ("evmutil: backed coins broken invariant\n" ++
      "coin supply is greater than module account ERC20 tokens\n", b))
    <$> check w.params.val.enabledConversionPairs broken

inductive Route where
  | fullyBacked
  | smallBalances
  | backedCoins
  | cosmosCoinsFullyBacked
  deriving DecidableEq, Repr

namespace Route

def invariant (evm : EvmKeeper E) : Route → Bool → World A E → Except ConvertError (String × Bool)
  | fullyBacked, _, w => .ok (fullyBackedInvariant w.state)
  | smallBalances, broken, w => .ok (smallBalancesInvariant broken w.state)
  | backedCoins, broken, w => backedCoinsInvariant evm w broken
  | cosmosCoinsFullyBacked, broken, w => cosmosCoinsFullyBackedInvariant evm w broken

def check (evm : EvmKeeper E) (r : Route) (broken : Bool) (w : World A E) :
    Except ConvertError Bool :=
  Prod.snd <$> r.invariant evm broken w

/-- What the comment of each invariant says that it ensures. -/
def Ensured (evm : EvmKeeper E) (r : Route) (w : World A E) : Prop :=
  match r with
  | fullyBacked => totalMinorBalances w.state ≤ conversionMultiplier * w.moduleBalance gasDenom
  | smallBalances => ∀ a acc, w.state.accounts.get a = some acc → acc.balance < conversionMultiplier
  | backedCoins =>
    ∀ pair ∈ w.params.val.enabledConversionPairs, ∀ b, lockedBalance evm w pair = some b →
    w.bank.supply pair.denom ≤ b
  | cosmosCoinsFullyBacked =>
    ∀ d c, w.deployed.get d = some c → ∀ n, evm.totalSupply w.evm c = some n →
    n = w.moduleBalance d

end Route

/-! ## One evaluation -/

section
variable {w : World A E} {b : Bool}

theorem backedCoins_check {pairs : List ConversionPair} {broken : Bool}
    (h : backedCoinsInvariant.check evm w pairs broken = .ok b) :
    b = true ↔ broken = true ∨ ∃ pair ∈ pairs, ∃ n, lockedBalance evm w pair = some n ∧
    n < w.bank.supply pair.denom := by
  induction pairs with
  | nil =>
    cases h
    simp
  | cons pair pairs ih =>
    unfold backedCoinsInvariant.check queryERC20BalanceOf at h
    simp only [bind_eq_ok, orReject_eq_ok] at h
    obtain ⟨n, hn, h⟩ := h
    simp only [List.mem_cons, exists_eq_or_imp]
    by_cases hlt : n < w.bank.supply pair.denom
    · rw [if_pos hlt, pure_eq_ok] at h
      simp only [← h, true_iff]
      exact .inr (.inl ⟨n, hn, hlt⟩)
    · rw [if_neg hlt] at h
      have hcovered : ¬ ∃ n, lockedBalance evm w pair = some n ∧ n < w.bank.supply pair.denom := by
        rintro ⟨n', hn', hlt'⟩
        rw [lockedBalance, hn] at hn'
        cases hn'
        exact hlt hlt'
      rw [ih h, or_iff_right hcovered]

theorem cosmosCoinsFullyBacked_check {entries : List (Denom × InternalEVMAddress)} {broken : Bool}
    (h : cosmosCoinsFullyBackedInvariant.check evm w entries broken = .ok b) :
    b = true ↔ broken = true ∨ ∃ e ∈ entries, ∃ n, evm.totalSupply w.evm e.2 = some n ∧
    n ≠ w.moduleBalance e.1 := by
  induction entries generalizing broken with
  | nil =>
    cases h
    simp
  | cons e entries ih =>
    unfold cosmosCoinsFullyBackedInvariant.check at h
    simp only [bind_eq_ok, orReject_eq_ok] at h
    obtain ⟨n, hn, h⟩ := h
    simp only [List.mem_cons, exists_eq_or_imp]
    by_cases hstop : broken = true ∨ n ≠ w.moduleBalance e.1
    · rw [if_pos (by simpa using hstop), pure_eq_ok] at h
      simp only [← h, true_iff]
      rcases hstop with hbroken | hne
      · exact .inl hbroken
      · exact .inr (.inl ⟨n, hn, hne⟩)
    · rw [if_neg (by simpa using hstop)] at h
      rw [not_or, not_not] at hstop
      have hbacked : ¬ ∃ n, evm.totalSupply w.evm e.2 = some n ∧ n ≠ w.moduleBalance e.1 := by
        rintro ⟨n', hn', hne⟩
        rw [hn] at hn'
        cases hn'
        exact hne hstop.2
      rw [ih h, or_iff_right hbacked, or_iff_right hstop.1]
      simp

theorem Route.check_fullyBacked {broken : Bool} (h : Route.fullyBacked.check evm broken w = .ok b) :
    b = true ↔ ¬ Route.fullyBacked.Ensured evm w := by
  cases h
  simp only [fullyBackedInvariant, decide_eq_true_eq, Route.Ensured, World.moduleBalance,
    World.bank, not_le]
  rw [mul_comm]

theorem Route.check_latched {r : Route} (hr : r ≠ .fullyBacked) :
    Latched (r.check evm) fun w : World A E => ¬ r.Ensured evm w := by
  intro broken w b h
  rw [Route.check, map_eq_ok] at h
  obtain ⟨⟨text, b'⟩, h, rfl⟩ := h
  cases r with
  | fullyBacked => exact absurd rfl hr
  | smallBalances =>
    cases h
    simp only [Bool.or_eq_true, List.any_eq_true, decide_eq_true_eq, Route.Ensured, not_forall,
      not_lt]
    constructor
    · rintro (hbroken | ⟨e, he, hle⟩)
      · exact .inl hbroken
      · exact .inr ⟨e.1, e.2, (KVStore.get_eq_some_iff _ _ _).mpr he, hle⟩
    · rintro (hbroken | ⟨a, acc, hget, hle⟩)
      · exact .inl hbroken
      · exact .inr ⟨(a, acc), (KVStore.get_eq_some_iff _ _ _).mp hget, hle⟩
  | backedCoins =>
    obtain ⟨b, hcheck, hb⟩ := map_eq_ok.mp h
    cases hb
    rw [backedCoins_check hcheck]
    simp only [Route.Ensured, not_forall, not_le, exists_prop]
  | cosmosCoinsFullyBacked =>
    obtain ⟨b, hcheck, hb⟩ := map_eq_ok.mp h
    cases hb
    rw [cosmosCoinsFullyBacked_check hcheck]
    simp only [Route.Ensured, not_forall, exists_prop, Prod.exists, KVStore.get_eq_some_iff]

end

/-! ## Evaluations in turn -/

/-- In every sequence of evaluations of an invariant that is built once, each verdict
describes the state it is made on exactly if the invariant is that of the reserve, or no
state that satisfies it is reported on after a state that was found broken. -/
theorem verdicts_current_iff (evm : EvmKeeper E) (r : Route) (ws : List (World A E)) :
    Describes (fun w => ¬ r.Ensured evm w) ws (verdicts (r.check evm) false ws) ↔
      r = .fullyBacked ∨ ws.Pairwise fun w w' =>
        r.check evm false w = .ok true → (∃ b, r.check evm true w' = .ok b) →
        ¬ r.Ensured evm w' := by
  by_cases hr : r = .fullyBacked
  · subst hr
    exact iff_of_true (describes_of_fresh (fun _ _ _ h => Route.check_fullyBacked h) false ws)
      (.inl rfl)
  · rw [(Route.check_latched hr).describes_iff, or_iff_right hr]
    simp

theorem unitHeld_valid : ∀ e ∈ (KVStore.empty.set holderAddr ⟨holderAddr, conversionMultiplier⟩ :
    KVStore Addr Account).entries, e.2.address = e.1 ∧ e.2.validate = .ok () := by
  decide

/-- A minor balance of a unit, a coin of the pair without a token, and a contract whose
tokens have no coins. -/
def brokenWorld : World chainAddrs Contracts :=
  { pairWorld with
    state := State.ofEntries _ { Bank.empty with supply := fun _ => 1 } unitHeld_valid
    deployed := KVStore.empty.set "uatom" (createAddress 0) }

/-- After a broken state, a state is reported as broken that satisfies the invariant. -/
def OutOfDate (r : Route) : Prop :=
  verdicts (r.check (erc20Evm id)) false [brokenWorld, pairWorld] = [.ok true, .ok true] ∧
  r.Ensured (erc20Evm id) pairWorld

theorem verdicts_out_of_date :
    OutOfDate .smallBalances ∧ OutOfDate .backedCoins ∧ OutOfDate .cosmosCoinsFullyBacked := by
  refine ⟨⟨by decide +kernel, fun a acc h => ?_⟩, ⟨by decide +kernel, fun pair hpair n hn => ?_⟩,
    ⟨by decide +kernel, fun d c h => ?_⟩⟩
  · cases h
  · rw [List.mem_singleton.mp hpair] at hn ⊢
    have hzero : lockedBalance (erc20Evm id) pairWorld samplePair = some 0 := by decide +kernel
    rw [hzero] at hn
    cases hn
    exact le_refl _
  · cases h

end ZgChain.Evmutil
