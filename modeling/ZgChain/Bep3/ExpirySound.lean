import ZgChain.Bep3.RoundTripSound

/-!
# A swap does not expire early

The height a swap expires at is the height of its creation plus a span. The span of
an outgoing swap has to lie in the range of its asset, but no check bounds the span
of an incoming one, nor the range itself, and the sum is taken in 64 bits. If it
does not fit, the swap is stored with a height that has passed.
-/

namespace ZgChain.Bep3

variable {A : ModuleAddrs} {env : Env} {s : State A} {id : Bytes} {a : AtomicSwap}

def StaysStored (env : Env) (id : Bytes) (s : State A) (events : List Event) : Prop :=
  ∀ pre post, events = pre ++ post → (runSteps (exec env) s pre).swaps.get id ≠ none

def MarksExpired (env : Env) (id : Bytes) (s : State A) (ctx : Ctx) : Prop :=
  ∃ a a', s.swaps.get id = some a ∧ a.status ≠ .expired ∧
    (exec env s (.beginBlock ctx)).swaps.get id = some a' ∧ a'.status = .expired

theorem LifeStep.marked {ctx : Ctx} {a' : AtomicSwap}
    (h : LifeStep env id s a (.beginBlock ctx) (some a'))
    (hs : a.status ≠ .expired) (hs' : a'.status = .expired) :
    a.expireHeight.toNat ≤ ctx.blockHeight := by
  cases h with
  | keep _ _ => exact absurd hs' hs
  | expire _ hh => exact hh

/-- While its height of expiry lies ahead, an open swap is not marked before that height. -/
theorem Phase.marked_late {height : Nat} (hp : Phase height 0 a) (hi : IndexInv env s)
    (hg : s.swaps.get id = some a)
    {after : List Event} {ctx : Ctx} (hf : Follows height (after ++ [.beginBlock ctx]))
    (hstays : StaysStored env id s after)
    (hm : MarksExpired env id (runSteps (exec env) s after) ctx) :
    a.expireHeight.toNat ≤ ctx.blockHeight := by
  obtain ⟨a₁, a₂, hg₁, hs₁, hg₂, hs₂⟩ := hm
  obtain ⟨a', hg', hsame, hstep, _⟩ := hp.run (SameSwap.refl a) hi hg hf hstays
  rw [hg₁] at hg'
  cases hg'
  rw [hg₂] at hstep
  have hle := hstep.marked hs₁ hs₂
  obtain ⟨_, _, rfl⟩ := hsame
  exact hle

/-- A swap is stored with a height to come and marked as expired no earlier than its
span after its creation, exactly if the two add up to a number of 64 bits. -/
theorem swap_not_early_iff (env : Env) (bank : Bank A) (gs : GenesisState) (s₀ : State A)
    (hg : initGenesis env bank gs = .ok s₀) (before : List Event) (ctx : Ctx)
    (msg : MsgCreateAtomicSwap) (s₁ : State A)
    (hok : handle env ctx (runSteps (exec env) s₀ before) (.create msg) = .ok s₁) (id : Bytes)
    (a : AtomicSwap)
    (hnew : (runSteps (exec env) s₀ before).swaps.get id = none) (ha : s₁.swaps.get id = some a) :
    (ctx.blockHeight < a.expireHeight.toNat ∧
      ∀ after ctx', Follows ctx.blockHeight (after ++ [.beginBlock ctx']) →
        StaysStored env id s₁ after →
        MarksExpired env id (runSteps (exec env) s₁ after) ctx' →
        ctx.blockHeight + msg.heightSpan.toNat ≤ ctx'.blockHeight) ↔
    ctx.blockHeight + msg.heightSpan.toNat < 2 ^ 64 := by
  obtain ⟨⟨_, _, _, hopen, hexp⟩, hpos⟩ := created_swap hok hnew ha
  have hheight := expireHeight_eq hexp
  have hlt := msg.heightSpan.toNat_lt
  have hctx := ctx.height_lt
  constructor
  · intro h
    -- a sum that wraps around is below the height it was added to
    have hstored := h.1
    rw [hheight] at hstored
    omega
  · intro hspan
    rw [Nat.mod_eq_of_lt hspan] at hheight
    refine ⟨by omega, fun after ctx' hf hstays hm => ?_⟩
    have hi₁ : IndexInv env s₁ := by
      have h := ((IndexInv.initGenesis hg).runEvents before).exec (.deliver ctx (.create msg))
      rwa [exec, hok] at h
    have hp : Phase ctx.blockHeight 0 a := .open hopen (by omega) rfl
    rw [← hheight]
    exact hp.marked_late hi₁ ha hf hstays hm

def freshBlock : State chainAddrs :=
  runSteps (exec sampleEnv) (emptyChain sampleEnv) [.beginBlock (sampleCtx 100)]

def shortStored : AtomicSwap :=
  newSwap (sampleCtx 100) { sampleArgs 1 deputyAddr userAddr 100 with heightSpan := 1 } .incoming

theorem swap_not_early_short :
    ∃ s₁, handle sampleEnv (sampleCtx 100) freshBlock (.create shortSwap) = .ok s₁ ∧
      s₁.swaps.get (sampleID 1 deputyAddr) = some shortStored ∧
      ∀ after ctx', Follows 100 (after ++ [.beginBlock ctx']) →
        StaysStored sampleEnv (sampleID 1 deputyAddr) s₁ after →
        MarksExpired sampleEnv (sampleID 1 deputyAddr) (runSteps (exec sampleEnv) s₁ after) ctx' →
        101 ≤ ctx'.blockHeight := by
  have hcreated : ∃ s₁, handle sampleEnv (sampleCtx 100) freshBlock (.create shortSwap) = .ok s₁ ∧
      freshBlock.swaps.get (sampleID 1 deputyAddr) = none ∧
      s₁.swaps.get (sampleID 1 deputyAddr) = some shortStored := by decide +kernel
  obtain ⟨s₁, hok, hnew, ha⟩ := hcreated
  have hg : initGenesis sampleEnv Bank.empty emptyGenesis = .ok (emptyChain sampleEnv) :=
    eq_ok_orElseKeep (by decide +kernel) sampleState
  have h := (swap_not_early_iff sampleEnv Bank.empty emptyGenesis _ hg [.beginBlock (sampleCtx 100)]
    (sampleCtx 100)
    shortSwap s₁ hok (sampleID 1 deputyAddr) shortStored hnew ha).mpr (by decide)
  exact ⟨s₁, hok, ha, h.2⟩

/-- A swap whose span does not fit on top of any height. -/
def longSwap : MsgCreateAtomicSwap := { shortSwap with heightSpan := 18446744073709551615 }

/-- The next block marks the swap as expired, and it is refunded there. -/
theorem swap_expires_at_once :
    ∃ s₁, handle sampleEnv (sampleCtx 100) freshBlock (.create longSwap) = .ok s₁ ∧
      (s₁.swaps.get (sampleID 1 deputyAddr)).map AtomicSwap.expireHeight = some 99 ∧
      (s₁.swaps.get (sampleID 1 deputyAddr)).map AtomicSwap.status = some .open ∧
      ((exec sampleEnv s₁ shortExpiry).swaps.get (sampleID 1 deputyAddr)).map AtomicSwap.status =
        some .expired ∧
      releases sampleEnv (sampleID 1 deputyAddr) (exec sampleEnv s₁ shortExpiry)
        shortRefund = true ∧
      shortExpiry.height < 100 + longSwap.heightSpan.toNat := by
  decide +kernel

end ZgChain.Bep3
