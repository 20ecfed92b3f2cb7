import ZgChain.App.Payments

/-!
# The modules over one bank

The keepers of the swaps, of the issued assets and of the conversions are given the same
bank keeper. A chain has their stores and one bank, and runs their messages, the calls of
the EVM, plain transfers and the begin blockers in any order.
-/

namespace ZgChain.App

structure Env (E : Type) where
  bep3 : Bep3.Env
  issuance : Issuance.Env
  evm : Evmutil.EvmKeeper E

/-- The stores of the modules, each with its view of the one bank. -/
structure Chain (A : ModuleAddrs) (E : Type) where
  bep3 : Bep3.State A
  issuance : Issuance.State A
  evmutil : Evmutil.World A E
  issuance_bank : issuance.bank = bep3.bank
  evmutil_bank : evmutil.bank = bep3.bank

variable {A : ModuleAddrs} {E : Type}

namespace Chain

def bank (c : Chain A E) : Bank A := c.bep3.bank

/-- What a module leaves in the bank is what the others find there. -/
def withBep3 (c : Chain A E) (s : Bep3.State A) : Chain A E where
  bep3 := s
  issuance := { c.issuance with bank := s.bank }
  evmutil := c.evmutil.setBank s.bank
  issuance_bank := rfl
  evmutil_bank := rfl

def withIssuance (c : Chain A E) (s : Issuance.State A) : Chain A E where
  bep3 := { c.bep3 with bank := s.bank }
  issuance := s
  evmutil := c.evmutil.setBank s.bank
  issuance_bank := rfl
  evmutil_bank := rfl

def withEvmutil (c : Chain A E) (w : Evmutil.World A E) : Chain A E where
  bep3 := { c.bep3 with bank := w.bank }
  issuance := { c.issuance with bank := w.bank }
  evmutil := w
  issuance_bank := rfl
  evmutil_bank := rfl

/-- The begin blockers in the order of the application, of the modules that are modelled. -/
def beginBlocker (env : Env E) (ctx : Ctx) (c : Chain A E) : Except Issuance.Error (Chain A E) := do
  let c := c.withBep3 (Bep3.beginBlocker env.bep3 ctx c.bep3)
  let s ← Issuance.beginBlocker env.issuance ctx c.issuance
  return c.withIssuance s

end Chain

inductive Op where
  | bep3 (op : Bep3.Op)
  | issuance (op : Issuance.Op)
  | evmutil (op : Evmutil.Op)
  | beginBlock (ctx : Ctx)

/-- A failed message is reverted, and a panic in a begin blocker stops the chain in the
state it had. -/
def step (env : Env E) (c : Chain A E) : Op → Chain A E
  | .bep3 op => c.withBep3 (Bep3.step env.bep3 c.bep3 op)
  | .issuance op => c.withIssuance (Issuance.step env.issuance c.issuance op)
  | .evmutil op => c.withEvmutil (Evmutil.step env.evm c.evmutil op)
  | .beginBlock ctx => orElseKeep c (c.beginBlocker env ctx)

def run (env : Env E) (c : Chain A E) (ops : List Op) : Chain A E := runSteps (step env) c ops

/-- A block begins with the begin blockers of both modules, or not at all. -/
theorem step_beginBlock (env : Env E) (c : Chain A E) (ctx : Ctx) :
    step env c (.beginBlock ctx) = c ∨ step env c (.beginBlock ctx) =
      step env (step env c (.bep3 (.beginBlock ctx))) (.issuance (.beginBlock ctx)) := by
  let c₁ := c.withBep3 (Bep3.beginBlocker env.bep3 ctx c.bep3)
  change orElseKeep c
    (Issuance.beginBlocker env.issuance ctx c₁.issuance >>= fun s => .ok (c₁.withIssuance s)) = c ∨
    orElseKeep c (Issuance.beginBlocker env.issuance ctx c₁.issuance >>=
      fun s => .ok (c₁.withIssuance s)) =
      c₁.withIssuance (orElseKeep c₁.issuance (Issuance.beginBlocker env.issuance ctx c₁.issuance))
  cases Issuance.beginBlocker env.issuance ctx c₁.issuance with
  | error e => exact Or.inl rfl
  | ok s => exact Or.inr rfl

/-! ## Who an operation concerns -/

namespace Op

/-- The account signs for the operation, or is debited by the EVM. -/
def Signs (env : Env E) (x : Addr) : Op → Prop
  | bep3 op => op.sender = some x
  | issuance op => op.Signs env.issuance x
  | evmutil op => op.Signs x
  | beginBlock _ => False

/-- The modules whose accounts the operation works with. -/
def Uses (m : ModuleName) : Op → Prop
  | bep3 _ => m = .bep3
  | issuance _ => m = .issuance
  | evmutil op => m = .evmutil ∨ op.Calls m
  | beginBlock _ => m = .bep3 ∨ m = .issuance

def Begins : Op → Prop
  | bep3 (.beginBlock _) => True
  | issuance (.beginBlock _) => True
  | beginBlock _ => True
  | _ => False

/-- The owner of the asset `d` lists the account. -/
def Lists (env : Env E) (x : Addr) (d : Denom) : Op → Prop
  | issuance op => op.Lists env.issuance x d
  | _ => False

/-- No module account signs, no plain transfer pays a module account, which the bank's
message server refuses, and the EVM's bank keeper is called for gas and by the EVM itself. -/
structure Ordinary (A : ModuleAddrs) (env : Env E) (op : Op) : Prop where
  signs : ∀ m, ¬ op.Signs env (A.addr m)
  pays : ∀ m src amt, op ≠ .issuance (.send src (A.addr m) amt)
  calls : ∀ o, op = .evmutil (.evmBank o) → o.module = .evm ∨ o.module = .feeCollector

end Op

/-- The accounts of the modules that work, the signer, and at the begin of a block the
listed accounts. -/
def payers (env : Env E) (c : Chain A E) (op : Op) (x : Addr) (d : Denom) : Prop :=
  (∃ m, op.Uses m ∧ x = A.addr m) ∨ op.Signs env x ∨ op.Begins ∧
  Issuance.Listed env.issuance c.issuance x d

section
variable (env : Env E) (c : Chain A E)

theorem bep3_flow (op : Bep3.Op) : Flow (payers env c (.bep3 op)) (Bep3.payees A) c.bank.balances
    (step env c (.bep3 op)).bank.balances := by
  refine (Bep3.step_flow env.bep3 c.bep3 op).mono (fun x d h => ?_) fun _ _ h => h
  rcases h with h | h
  · exact Or.inl ⟨.bep3, rfl, h⟩
  · exact Or.inr (Or.inl h)

theorem issuance_flow (op : Issuance.Op) :
    Flow (payers env c (.issuance op)) (Issuance.payees A op) c.bank.balances
    (step env c (.issuance op)).bank.balances := by
  have h := Issuance.step_flow env.issuance c.issuance op
  rw [c.issuance_bank] at h
  refine h.mono (fun x d h => ?_) fun _ _ h => h
  rcases h with h | h | ⟨⟨ctx, rfl⟩, hlisted⟩
  · exact Or.inl ⟨.issuance, rfl, h⟩
  · exact Or.inr (Or.inl h)
  · exact Or.inr (Or.inr ⟨trivial, hlisted⟩)

theorem evmutil_flow (op : Evmutil.Op) :
    Flow (payers env c (.evmutil op)) Evmutil.anyone c.bank.balances
    (step env c (.evmutil op)).bank.balances := by
  have h := Evmutil.step_flow env.evm c.evmutil op
  rw [c.evmutil_bank] at h
  refine h.mono (fun x d h => ?_) fun _ _ h => h
  rcases h with h | h | ⟨m, hm, h⟩
  · exact Or.inl ⟨.evmutil, Or.inl rfl, h⟩
  · exact Or.inr (Or.inl h)
  · exact Or.inl ⟨m, Or.inr hm, h⟩

/-- Only those an operation concerns lose coins by it. -/
theorem step_flow (op : Op) :
    Flow (payers env c op) Evmutil.anyone c.bank.balances (step env c op).bank.balances := by
  cases op with
  | bep3 op => exact (bep3_flow env c op).mono (fun _ _ h => h) fun _ _ _ => trivial
  | issuance op => exact (issuance_flow env c op).mono (fun _ _ h => h) fun _ _ _ => trivial
  | evmutil op => exact evmutil_flow env c op
  | beginBlock ctx =>
    rcases step_beginBlock env c ctx with h | h
    · rw [h]
      exact Flow.refl _ _ _
    · rw [h]
      have h₁ := bep3_flow env c (.beginBlock ctx)
      have h₂ := issuance_flow env (step env c (.bep3 (.beginBlock ctx))) (.beginBlock ctx)
      refine (h₁.mono (fun x d h => ?_) fun _ _ _ => trivial).trans
        (h₂.mono (fun x d h => ?_) fun _ _ _ => trivial)
      · rcases h with ⟨m, hm, h⟩ | h | ⟨_, h⟩
        · exact Or.inl ⟨m, Or.inl hm, h⟩
        · cases h
        · exact Or.inr (Or.inr ⟨trivial, h⟩)
      · rcases h with ⟨m, hm, h⟩ | h | ⟨_, h⟩
        · exact Or.inl ⟨m, Or.inr hm, h⟩
        · exact h.elim
        · exact Or.inr (Or.inr ⟨trivial, h⟩)

end

/-! ## A chain -/

def bep3Text : String := "0g1eyugkwc74zejgwdwl7mvm7pad4hzdnkadv928r"

def sampleIssuanceEnv : Issuance.Env where
  accAddressFromBech32 str :=
    if str = bep3Text then some (chainAddrs.addr .bep3)
    else Issuance.sampleEnv.accAddressFromBech32 str
  bech32 a := if a = chainAddrs.addr .bep3 then bep3Text else Issuance.sampleEnv.bech32 a

def sampleEnv : Env Evmutil.Contracts := ⟨Bep3.sampleEnv, sampleIssuanceEnv, Evmutil.erc20Evm id⟩

theorem bnbParams_valid :
    Issuance.Params.validate ⟨[⟨Issuance.ownerText, "bnb", [], false, true, ⟨false, 0, 0⟩⟩]⟩ =
      .ok () := by
  decide

def sampleChain : Chain chainAddrs Evmutil.Contracts where
  bep3 := { Bep3.sampleState with bank := Evmutil.atomWorld.bank }
  issuance := ⟨⟨_, bnbParams_valid⟩, KVStore.empty, none, Evmutil.atomWorld.bank⟩
  evmutil := Evmutil.atomWorld
  issuance_bank := rfl
  evmutil_bank := rfl

/-- A swap comes in and one goes out, a holder wraps coins and the owner issues some. -/
def sampleOps : List Op :=
  [.bep3 (.create (Bep3.sampleCtx 100) (Bep3.sampleArgs 1 Bep3.deputyAddr Bep3.userAddr 100)),
    .bep3 Bep3.sampleClaim,
    .evmutil (.convertCosmosCoinToERC20 Evmutil.holderAddr Evmutil.holderEVMAddress ⟨"uatom", 5⟩),
    .bep3 (.create (Bep3.sampleCtx 101) (Bep3.sampleArgs 2 Bep3.userAddr Bep3.deputyAddr 60)),
    .issuance (.deliver (.issueTokens ⟨Issuance.ownerText, ⟨"bnb", 7⟩, Issuance.ownerText⟩))]

end ZgChain.App
