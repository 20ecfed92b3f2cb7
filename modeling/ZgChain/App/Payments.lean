import ZgChain.Lib.Flow
import ZgChain.Bep3.ClaimSound
import ZgChain.Issuance.SweepSound
import ZgChain.Issuance.BlockListSound
import ZgChain.Evmutil.WrappedSound

/-!
# Who pays and who is paid

Every operation of the modules ends in calls of the bank. For each of them it is said
whose coins it may take and whom it may give some: the bank's own operations first, then the
steps of the swaps, of the issued assets and of the conversions.
-/

namespace ZgChain

variable {A : ModuleAddrs}

/-! ## The bank -/

namespace Bank

variable {b b' : Bank A} {P Q : Addr → Denom → Prop} {amt : Coins}

theorem amountOf_of_isValid (hv : amt.isValid = true) (d : Denom) : 0 ≤ amt.amountOf d :=
  amountOf_nonneg (fun c hc => (amount_pos_of_isValid hv c hc).le) d

theorem sendCoins_flow {src dst : Addr} (h : b.sendCoins src dst amt = .ok b')
    (hsrc : ∀ d, 0 < amt.amountOf d → P src d)
    (hdst : ∀ d, 0 < amt.amountOf d → Q dst d) : Flow P Q b.balances b'.balances := by
  obtain ⟨hv, hb, _⟩ := sendCoins_ok h
  refine ⟨fun x d hlt => ?_, fun x d hlt => ?_⟩
  all_goals
    rw [hb] at hlt
    have hn := amountOf_of_isValid hv d
  · by_cases hx : x = src
    · subst hx
      refine hsrc d ?_
      split at hlt <;> split at hlt <;> omega
    · rw [if_neg hx] at hlt
      split at hlt <;> omega
  · by_cases hx : x = dst
    · subst hx
      refine hdst d ?_
      split at hlt <;> split at hlt <;> omega
    · rw [if_neg hx] at hlt
      split at hlt <;> omega

/-- The bank pays no module account from a module. -/
theorem sendCoinsFromModuleToAccount_flow {m : ModuleName} {dst : Addr}
    (h : b.sendCoinsFromModuleToAccount m dst amt = .ok b') (hsrc : ∀ d, P (A.addr m) d)
    (hdst : ∀ d, A.moduleAccountAddrs dst = false → 0 < amt.amountOf d → Q dst d) :
    Flow P Q b.balances b'.balances := by
  obtain ⟨hm, h⟩ := sendCoinsFromModuleToAccount_ok.mp h
  exact sendCoins_flow h (fun d _ => hsrc d) fun d => hdst d hm

theorem mintCoins_flow {m : ModuleName} (h : b.mintCoins m amt = .ok b')
    (hm : ∀ d, Q (A.addr m) d) :
    Flow P Q b.balances b'.balances := by
  obtain ⟨hv, hb, _⟩ := mintCoins_ok h
  refine ⟨fun x d hlt => ?_, fun x d hlt => ?_⟩
  all_goals
    rw [hb] at hlt
    have hn := amountOf_of_isValid hv d
    split at hlt
  · omega
  · omega
  · rename_i hx
    exact hx ▸ hm d
  · omega

theorem burnCoins_flow {m : ModuleName} (h : b.burnCoins m amt = .ok b')
    (hm : ∀ d, P (A.addr m) d) :
    Flow P Q b.balances b'.balances := by
  obtain ⟨hv, hb, _⟩ := burnCoins_ok h
  refine ⟨fun x d hlt => ?_, fun x d hlt => ?_⟩
  all_goals
    rw [hb] at hlt
    have hn := amountOf_of_isValid hv d
    split at hlt
  · rename_i hx
    exact hx ▸ hm d
  · omega
  · omega
  · omega

theorem createVestingAccount_flow {src dst : Addr} (h : b.createVestingAccount src dst amt = .ok b')
    (hsrc : ∀ d, P src d) (hdst : ∀ d, A.moduleAccountAddrs dst = false → Q dst d) :
    Flow P Q b.balances b'.balances := by
  simp only [createVestingAccount, bind_eq_ok] at h
  obtain ⟨_, _, h⟩ := h
  split at h
  · rename_i hv
    simp only [bind_eq_ok, pure_eq_ok] at h
    obtain ⟨b₁, h₁, rfl⟩ := h
    change Flow P Q b.balances b₁.balances
    exact sendCoins_flow h₁ (fun d _ => hsrc d) fun d _ => hdst d hv.2
  · cases h

end Bank

/-! ## Swaps -/

namespace Bep3

variable {s s' : State A} {P Q : Addr → Denom → Prop}

/-- The module account, and the sender of a new swap. -/
def payers (A : ModuleAddrs) (sender : Option Addr) (x : Addr) (_ : Denom) : Prop :=
  x = A.addr .bep3 ∨ sender = some x

/-- The module account, and accounts of no module. -/
def payees (A : ModuleAddrs) (x : Addr) (_ : Denom) : Prop :=
  x = A.addr .bep3 ∨ A.moduleAccountAddrs x = false

theorem escrow_flow {asset : AssetParam} {args : CreateArgs} {coin : Coin}
    {direction : SwapDirection} (h : escrow s asset args coin direction = .ok s') :
    Flow (payers A (some args.sender)) (payees A) s.bank.balances s'.bank.balances := by
  cases direction with
  | unspecified => cases h
  | incoming =>
    rw [(incrementIncomingAssetSupply_sets h).bank]
    exact Flow.refl _ _ _
  | outgoing =>
    simp only [escrow, bind_eq_ok] at h
    obtain ⟨_, _, _, _, s₁, h₁, h₂⟩ := h
    rw [← (incrementOutgoingAssetSupply_sets h₁).bank]
    exact Bank.sendCoins_flow (withBank_bank h₂) (fun _ _ => Or.inr rfl) fun _ _ => Or.inl rfl

theorem payClaim_flow {a : AtomicSwap} (h : payClaim s a = .ok s') :
    Flow (payers A none) (payees A) s.bank.balances s'.bank.balances := by
  cases payClaim_ok h with
  | incoming _ _ h₁ h₂ h₃ h₄ =>
    rw [← (decrementAssetSupply_sets h₁).bank, ← (incrementCurrentAssetSupply_sets h₂).bank]
    exact (Bank.mintCoins_flow (withBank_bank h₃) fun _ => Or.inl rfl).trans
      (Bank.sendCoinsFromModuleToAccount_flow (withBank_bank h₄) (fun _ => Or.inl rfl)
        fun _ hm _ => Or.inr hm)
  | outgoing _ _ h₁ h₂ h₃ =>
    rw [← (decrementAssetSupply_sets h₁).bank, ← (decrementAssetSupply_sets h₂).bank]
    exact Bank.burnCoins_flow (withBank_bank h₃) fun _ => Or.inl rfl

theorem payRefund_flow {a : AtomicSwap} (h : payRefund s a = .ok s') :
    Flow (payers A none) (payees A) s.bank.balances s'.bank.balances := by
  cases payRefund_ok h with
  | incoming _ _ h₁ =>
    rw [(decrementAssetSupply_sets h₁).bank]
    exact Flow.refl _ _ _
  | outgoing _ _ h₁ h₂ =>
    rw [← (decrementAssetSupply_sets h₁).bank]
    exact Bank.sendCoinsFromModuleToAccount_flow (withBank_bank h₂) (fun _ => Or.inl rfl)
      fun _ hm _ => Or.inr hm

theorem beginBlocker_bank (env : Env) (ctx : Ctx) (s : State A) :
    (beginBlocker env ctx s).bank = s.bank := by
  obtain ⟨W, B, L, hb⟩ := beginBlocker_scans env ctx s
  obtain ⟨_, _, he⟩ := updateTimeBasedSupplyLimits_frame ctx s
  rw [hb, he]

theorem step_flow (env : Env) (s : State A) (op : Op) :
    Flow (payers A op.sender) (payees A) s.bank.balances (step env s op).bank.balances := by
  have hrefl := Flow.refl (payers A op.sender) (payees A) s.bank.balances
  cases op with
  | create ctx args =>
    refine orElseKeep_rule (P := fun s' : State A => Flow _ _ _ s'.bank.balances) hrefl
      fun s' h => ?_
    obtain ⟨coin, asset, direction, s₁, hc⟩ := createAtomicSwap_ok h
    rw [hc.state]
    change Flow _ _ _ s₁.bank.balances
    exact escrow_flow hc.escrowed
  | claim ctx id number =>
    refine orElseKeep_rule (P := fun s' : State A => Flow _ _ _ s'.bank.balances) hrefl
      fun s' h => ?_
    obtain ⟨a, s₁, _, _, _, hpay, rfl⟩ := claimAtomicSwap_ok h
    change Flow _ _ _ s₁.bank.balances
    exact payClaim_flow hpay
  | refund ctx id =>
    refine orElseKeep_rule (P := fun s' : State A => Flow _ _ _ s'.bank.balances) hrefl
      fun s' h => ?_
    obtain ⟨a, s₁, _, _, hpay, rfl⟩ := refundAtomicSwap_ok h
    change Flow _ _ _ s₁.bank.balances
    exact payRefund_flow hpay
  | beginBlock ctx =>
    change Flow _ _ _ (beginBlocker env ctx s).bank.balances
    rw [beginBlocker_bank]
    exact hrefl

end Bep3

/-! ## Issued assets -/

namespace Issuance

variable {env : Env} {s s' : State A} {P Q : Addr → Denom → Prop}

def Msg.sender : Msg → String
  | .issueTokens msg => msg.sender
  | .redeemTokens msg => msg.sender
  | .blockAddress msg => msg.sender
  | .unblockAddress msg => msg.sender
  | .setPauseStatus msg => msg.sender

/-- A block list of the asset `d` has the address. -/
def Listed (env : Env) (s : State A) (x : Addr) (d : Denom) : Prop :=
  ∃ asset ∈ s.params.val.assets, asset.denom = d ∧ x ∈ blocked env asset

/-- The account signs for the operation; nobody does for a begin blocker or when time passes. -/
def Op.Signs (env : Env) (x : Addr) : Op → Prop
  | .deliver msg => env.accAddressFromBech32 msg.sender = some x
  | .send src _ _ => x = src
  | .createVestingAccount src _ _ => x = src
  | .vest _ _ _ => False
  | .beginBlock _ => False

def Op.Pays (x : Addr) : Op → Prop
  | .send _ dst _ => x = dst
  | _ => False

def payers (env : Env) (s : State A) (op : Op) (x : Addr) (d : Denom) : Prop :=
  x = A.addr .issuance ∨ op.Signs env x ∨ (∃ ctx, op = .beginBlock ctx) ∧ Listed env s x d

def payees (A : ModuleAddrs) (op : Op) (x : Addr) (_ : Denom) : Prop :=
  x = A.addr .issuance ∨ A.moduleAccountAddrs x = false ∨ op.Pays x

theorem incrementCurrentAssetSupply_frame {coin : Coin}
    (h : incrementCurrentAssetSupply s coin = .ok s') :
    s'.bank = s.bank ∧ s'.params = s.params := by
  simp only [incrementCurrentAssetSupply, bind_eq_ok] at h
  obtain ⟨_, _, h⟩ := h
  split at h
  · simp only [bind_eq_ok, pure_eq_ok] at h
    obtain ⟨_, _, _, _, _, _, _, _, rfl⟩ := h
    exact ⟨rfl, rfl⟩
  · cases h
    exact ⟨rfl, rfl⟩

/-- An issue may count against the rate limit, and then mints and pays. -/
theorem issueTokens_ok {tokens : Coin} {owner receiver : Addr}
    (h : issueTokens env s tokens owner receiver = .ok s') :
    ∃ s₁ s₂ : State A, (s₁.bank = s.bank ∧ s₁.params = s.params) ∧
      withBank s₁ (s₁.bank.mintCoins .issuance (newCoins tokens)) = .ok s₂ ∧
      withBank s₂ (s₂.bank.sendCoinsFromModuleToAccount .issuance receiver (newCoins tokens)) =
        .ok s' := by
  simp only [issueTokens, bind_eq_ok] at h
  obtain ⟨_, _, _, _, _, _, _, _, _, _, s₁, h₁, s₂, h₂, h₃⟩ := h
  refine ⟨s₁, s₂, ?_, h₂, h₃⟩
  split at h₁
  · exact incrementCurrentAssetSupply_frame h₁
  · cases h₁
    exact ⟨rfl, rfl⟩

theorem setAsset_bank {asset : Asset} (h : setAsset s asset = .ok s') : s'.bank = s.bank := by
  unfold setAsset setParams at h
  split at h
  · cases h
  · cases h
    rfl

theorem ListOp.exec_bank {op : ListOp} (h : op.exec env s = .ok s') : s'.bank = s.bank := by
  cases op with
  | blockAddress denom owner x =>
    simp only [ListOp.exec, Issuance.blockAddress, bind_eq_ok] at h
    obtain ⟨_, _, _, _, _, _, _, _, _, _, h⟩ := h
    exact setAsset_bank h
  | unblockAddress denom owner x =>
    simp only [ListOp.exec, Issuance.unblockAddress, bind_eq_ok] at h
    obtain ⟨_, _, _, _, _, _, _, _, h⟩ := h
    exact setAsset_bank h
  | setPauseStatus owner denom status =>
    simp only [ListOp.exec, Issuance.setPauseStatus, bind_eq_ok] at h
    obtain ⟨_, _, _, _, h⟩ := h
    split at h
    · cases h
      rfl
    · exact setAsset_bank h
  | synchronizeBlockList =>
    rw [ListOp.exec, synchronizeBlockList_eq] at h
    cases h
    rfl

theorem issueTokens_flow {tokens : Coin} {owner receiver : Addr}
    (h : issueTokens env s tokens owner receiver = .ok s')
    (hP : ∀ d, P (A.addr .issuance) d) (hQ : ∀ d, Q (A.addr .issuance) d)
    (hpaid : ∀ d, A.moduleAccountAddrs receiver = false → Q receiver d) :
    Flow P Q s.bank.balances s'.bank.balances := by
  obtain ⟨s₁, s₂, ⟨hbank, _⟩, h₂, h₃⟩ := issueTokens_ok h
  rw [← hbank]
  exact (Bank.mintCoins_flow (withBank_bank h₂) hQ).trans
    (Bank.sendCoinsFromModuleToAccount_flow (withBank_bank h₃) hP fun d hm _ => hpaid d hm)

theorem redeemTokens_flow {tokens : Coin} {owner : Addr}
    (h : redeemTokens env s tokens owner = .ok s')
    (hP : ∀ d, P (A.addr .issuance) d) (hQ : ∀ d, Q (A.addr .issuance) d) (hpays : ∀ d, P owner d) :
    Flow P Q s.bank.balances s'.bank.balances := by
  simp only [redeemTokens, bind_eq_ok] at h
  obtain ⟨_, _, _, _, _, _, s₁, h₁, h₂⟩ := h
  exact (Bank.sendCoins_flow (withBank_bank h₁) (fun d _ => hpays d) fun d _ => hQ d).trans
    (Bank.burnCoins_flow (withBank_bank h₂) hP)

theorem handle_flow {msg : Msg} (h : handle env s msg = .ok s') :
    Flow (payers env s (.deliver msg)) (payees A (.deliver msg)) s.bank.balances
      s'.bank.balances := by
  simp only [handle, bind_eq_ok] at h
  obtain ⟨_, _, h⟩ := h
  have hlist (op : ListOp) (h : op.exec env s = .ok s') :
      Flow (payers env s (.deliver msg)) (payees A (.deliver msg))
      s.bank.balances s'.bank.balances := by
    rw [ListOp.exec_bank h]
    exact Flow.refl _ _ _
  cases msg with
  | issueTokens msg =>
    simp only [MsgServer.issueTokens, bind_eq_ok] at h
    obtain ⟨_, _, receiver, _, h⟩ := h
    exact issueTokens_flow h (fun _ => Or.inl rfl) (fun _ => Or.inl rfl) fun _ hm =>
      Or.inr (Or.inl hm)
  | redeemTokens msg =>
    simp only [MsgServer.redeemTokens, decodeAddress, bind_eq_ok, orReject_eq_ok] at h
    obtain ⟨owner, howner, h⟩ := h
    exact redeemTokens_flow h (fun _ => Or.inl rfl) (fun _ => Or.inl rfl) fun _ => Or.inr
      (Or.inl howner)
  | blockAddress msg =>
    simp only [MsgServer.blockAddress, bind_eq_ok] at h
    obtain ⟨owner, _, x, _, h⟩ := h
    exact hlist (.blockAddress msg.denom owner x) h
  | unblockAddress msg =>
    simp only [MsgServer.unblockAddress, bind_eq_ok] at h
    obtain ⟨owner, _, x, _, h⟩ := h
    exact hlist (.unblockAddress msg.denom owner x) h
  | setPauseStatus msg =>
    simp only [MsgServer.setPauseStatus, bind_eq_ok] at h
    obtain ⟨owner, _, h⟩ := h
    exact hlist (.setPauseStatus owner msg.denom msg.status) h

theorem seizeFrom_flow {asset : Asset} {b b' : Bank A} {address : String}
    (h : seizeFrom env asset b address = .ok b')
    (hP : ∀ d, P (A.addr .issuance) d) (hQ : ∀ d, Q (A.addr .issuance) d)
    (hpays : ∀ x, env.accAddressFromBech32 address = some x → P x asset.denom)
    (hpaid : ∀ x d, A.moduleAccountAddrs x = false → Q x d) : Flow P Q b.balances b'.balances := by
  simp only [seizeFrom, decodeAddress, bind_eq_ok, orReject_eq_ok] at h
  obtain ⟨x, hx, h⟩ := h
  split at h
  · cases h
    exact Flow.refl _ _ _
  · split at h
    · cases h
      exact Flow.refl _ _ _
    · simp only [bind_eq_ok, mapError_eq_ok, orReject_eq_ok] at h
      obtain ⟨b₁, h₁, owner, _, h₂⟩ := h
      have hsrc : ∀ d,
          0 < (newCoins ⟨asset.denom, b.balances x asset.denom⟩).amountOf d → P x d := by
        intro d hd
        rw [amountOf_newCoins] at hd
        split at hd
        · rename_i e
          exact e ▸ hpays x hx
        · omega
      exact (Bank.sendCoins_flow h₁ hsrc fun d _ => hQ d).trans
        (Bank.sendCoinsFromModuleToAccount_flow h₂ hP fun d hm _ => hpaid owner d hm)

theorem foldlM_seizeFrom_flow {asset : Asset} {addresses : List String} {b b' : Bank A}
    (h : addresses.foldlM (seizeFrom env asset) b = .ok b') (hP : ∀ d, P (A.addr .issuance) d)
    (hQ : ∀ d, Q (A.addr .issuance) d)
    (hpays : ∀ x ∈ addresses.filterMap env.accAddressFromBech32, P x asset.denom)
    (hpaid : ∀ x d, A.moduleAccountAddrs x = false → Q x d) : Flow P Q b.balances b'.balances := by
  induction addresses generalizing b with
  | nil =>
    cases h
    exact Flow.refl _ _ _
  | cons address addresses ih =>
    rw [List.foldlM_cons, bind_eq_ok] at h
    obtain ⟨b₁, h₁, h₂⟩ := h
    have hhead : ∀ x, env.accAddressFromBech32 address = some x → P x asset.denom :=
      fun x hx => hpays x (List.mem_filterMap.mpr ⟨address, by simp, hx⟩)
    have htail : ∀ x ∈ addresses.filterMap env.accAddressFromBech32, P x asset.denom := by
      intro x hx
      obtain ⟨a, ha, hax⟩ := List.mem_filterMap.mp hx
      exact hpays x (List.mem_filterMap.mpr ⟨a, by simp [ha], hax⟩)
    exact (seizeFrom_flow h₁ hP hQ hhead hpaid).trans (ih h₂ htail)

theorem seizeAssets_flow {assets : List Asset}
    (hg : ∀ asset ∈ assets, getAsset s asset.denom = .ok asset)
    (h : assets.foldlM (seizeAsset env) s = .ok s') (hP : ∀ d, P (A.addr .issuance) d)
    (hQ : ∀ d, Q (A.addr .issuance) d)
    (hpays : ∀ asset ∈ assets, ∀ x ∈ blocked env asset, P x asset.denom)
    (hpaid : ∀ x d, A.moduleAccountAddrs x = false → Q x d) :
    Flow P Q s.bank.balances s'.bank.balances := by
  induction assets generalizing s with
  | nil =>
    cases h
    exact Flow.refl _ _ _
  | cons asset assets ih =>
    rw [List.foldlM_cons, bind_eq_ok] at h
    obtain ⟨s₁, h₁, h⟩ := h
    have hhead : Flow P Q s.bank.balances s₁.bank.balances := by
      unfold seizeAsset at h₁
      split at h₁
      · simp only [seizeCoinsFromBlockedAddresses, hg asset (by simp), ok_bind, bind_eq_ok,
          pure_eq_ok] at h₁
        obtain ⟨b', hb, rfl⟩ := h₁
        exact foldlM_seizeFrom_flow hb hP hQ (hpays asset (by simp)) hpaid
      · cases h₁
        exact Flow.refl _ _ _
    obtain ⟨b₁, rfl, _⟩ := seizeAsset_ok (hg asset (by simp)) h₁
    exact hhead.trans (ih (fun a ha => hg a (by simp [ha])) h fun a ha => hpays a (by simp [ha]))

theorem beginBlocker_flow {ctx : Ctx} (h : beginBlocker env ctx s = .ok s') :
    Flow (payers env s (.beginBlock ctx)) (payees A (.beginBlock ctx)) s.bank.balances
      s'.bank.balances := by
  simp only [beginBlocker, synchronizeBlockList_eq, bind_eq_ok, pure_eq_ok] at h
  obtain ⟨s₁, h₁, s₂, h₂, rfl⟩ := h
  cases h₂
  rw [updateTimeBasedSupplyLimits_bank]
  refine seizeAssets_flow (fun a ha => getAsset_mem s ha) h₁ (fun _ => Or.inl rfl)
    (fun _ => Or.inl rfl) ?_ ?_
  · intro asset ha x hx
    exact Or.inr (Or.inr ⟨⟨ctx, rfl⟩, asset, ha, rfl, hx⟩)
  · intro x d hm
    exact Or.inr (Or.inl hm)

/-- The signer of a message pays, a begin blocker takes from listed accounts what they are
listed for, and a module account is paid by a plain transfer only. -/
theorem step_flow (env : Env) (s : State A) (op : Op) :
    Flow (payers env s op) (payees A op) s.bank.balances (step env s op).bank.balances := by
  have hrefl := Flow.refl (payers env s op) (payees A op) s.bank.balances
  cases op with
  | deliver msg =>
    exact orElseKeep_rule (P := fun s' : State A => Flow _ _ _ s'.bank.balances) hrefl fun s' h =>
      handle_flow h
  | send src dst amt =>
    refine orElseKeep_rule (P := fun s' : State A => Flow _ _ _ s'.bank.balances) hrefl
      fun s' h => ?_
    exact Bank.sendCoins_flow (withBank_bank h) (fun _ _ => Or.inr (Or.inl rfl))
      fun _ _ => Or.inr (Or.inr rfl)
  | createVestingAccount src dst amt =>
    refine orElseKeep_rule (P := fun s' : State A => Flow _ _ _ s'.bank.balances) hrefl
      fun s' h => ?_
    exact Bank.createVestingAccount_flow (withBank_bank h) (fun _ => Or.inr (Or.inl rfl))
      fun _ hm => Or.inr (Or.inl hm)
  | vest a d n => exact hrefl
  | beginBlock ctx =>
    exact orElseKeep_rule (P := fun s' : State A => Flow _ _ _ s'.bank.balances) hrefl fun s' h =>
      beginBlocker_flow h

/-! ### Block lists -/

/-- The owner of the asset `d` blocks an address whose text is one of `x`. -/
def ListOp.Lists (env : Env) (x : Addr) (d : Denom) : ListOp → Prop
  | blockAddress denom _ y => denom = d ∧ env.accAddressFromBech32 (env.bech32 y) = some x
  | _ => False

def Op.Lists (env : Env) (x : Addr) (d : Denom) : Op → Prop
  | .deliver (.blockAddress msg) => msg.denom = d ∧
    ∃ y, env.accAddressFromBech32 msg.blockedAddress = some y ∧
      env.accAddressFromBech32 (env.bech32 y) = some x
  | _ => False

theorem Changes.listed {op : ListOp} {asset asset' : Asset} (h : Changes env op asset asset') :
    asset'.denom = asset.denom ∧
      ∀ x ∈ Issuance.blocked env asset', x ∈ Issuance.blocked env asset ∨
        op.Lists env x asset.denom := by
  cases h with
  | other => exact ⟨rfl, fun x hx => Or.inl hx⟩
  | blocked owner y hnew =>
    refine ⟨rfl, fun x hx => ?_⟩
    obtain ⟨t, ht, htx⟩ := List.mem_filterMap.mp hx
    rcases List.mem_append.mp ht with ht | ht
    · exact Or.inl (List.mem_filterMap.mpr ⟨t, ht, htx⟩)
    · rw [List.mem_singleton.mp ht] at htx
      exact Or.inr ⟨rfl, htx⟩
  | unblocked owner y hi =>
    refine ⟨rfl, fun x hx => Or.inl ?_⟩
    obtain ⟨hlt, _⟩ := List.getElem?_eq_some_iff.mp hi
    obtain ⟨t, ht, htx⟩ := List.mem_filterMap.mp hx
    have hmem := List.mem_of_mem_eraseIdx ((removeBlockedAddress_perm hlt).mem_iff.mp ht)
    exact List.mem_filterMap.mpr ⟨t, hmem, htx⟩
  | paused => exact ⟨rfl, fun x hx => Or.inl hx⟩

theorem ListOp.exec_listed {op : ListOp} (h : op.exec env s = .ok s') {x : Addr} {d : Denom}
    (hl : Listed env s' x d) :
    Listed env s x d ∨ op.Lists env x d := by
  obtain ⟨f, hf, hchanges⟩ := ListOp.exec_changes h
  obtain ⟨asset', ha', rfl, hx⟩ := hl
  rw [hf] at ha'
  obtain ⟨asset, ha, rfl⟩ := List.mem_map.mp ha'
  obtain ⟨hd, hsub⟩ := (hchanges asset ha).listed
  rw [hd]
  exact (hsub x hx).imp (fun hx => ⟨asset, ha, rfl, hx⟩) id

theorem withBank_params {x : Except BankError (Bank A)} (h : withBank s x = .ok s') :
    s'.params = s.params := by
  obtain ⟨b, _, rfl⟩ := (withBank_eq_ok s s' x).mp h
  rfl

/-- A message changes the parameters as one of the calls for block lists and pauses does. -/
theorem handle_list {msg : Msg} (h : handle env s msg = .ok s') : s'.params = s.params ∨
    ∃ op : ListOp, op.exec env s = .ok s' ∧ ∀ x d, op.Lists env x d →
      Op.Lists env x d (.deliver msg) := by
  simp only [handle, bind_eq_ok] at h
  obtain ⟨_, _, h⟩ := h
  cases msg with
  | issueTokens msg =>
    simp only [MsgServer.issueTokens, bind_eq_ok] at h
    obtain ⟨_, _, _, _, h⟩ := h
    obtain ⟨s₁, s₂, ⟨_, hparams⟩, h₂, h₃⟩ := issueTokens_ok h
    refine Or.inl ?_
    rw [withBank_params h₃, withBank_params h₂, hparams]
  | redeemTokens msg =>
    simp only [MsgServer.redeemTokens, redeemTokens, bind_eq_ok] at h
    obtain ⟨_, _, _, _, _, _, _, _, s₁, h₁, h₂⟩ := h
    refine Or.inl ?_
    rw [withBank_params h₂, withBank_params h₁]
  | blockAddress msg =>
    simp only [MsgServer.blockAddress, decodeAddress, bind_eq_ok, orReject_eq_ok] at h
    obtain ⟨owner, _, y, hy, h⟩ := h
    exact Or.inr ⟨.blockAddress msg.denom owner y, h, fun x d hl => ⟨hl.1, y, hy, hl.2⟩⟩
  | unblockAddress msg =>
    simp only [MsgServer.unblockAddress, bind_eq_ok] at h
    obtain ⟨owner, _, y, _, h⟩ := h
    exact Or.inr ⟨.unblockAddress msg.denom owner y, h, fun _ _ hl => hl.elim⟩
  | setPauseStatus msg =>
    simp only [MsgServer.setPauseStatus, bind_eq_ok] at h
    obtain ⟨owner, _, h⟩ := h
    exact Or.inr ⟨.setPauseStatus owner msg.denom msg.status, h, fun _ _ hl => hl.elim⟩

theorem beginBlocker_params {ctx : Ctx} (h : beginBlocker env ctx s = .ok s') :
    s'.params = s.params := by
  simp only [beginBlocker, synchronizeBlockList_eq, bind_eq_ok, pure_eq_ok] at h
  obtain ⟨s₁, h₁, s₂, h₂, rfl⟩ := h
  cases h₂
  obtain ⟨b, rfl⟩ := seizeAssets_bank h₁
  exact foldl_updateTimeBasedSupplyLimit_params _ _ _

theorem step_list (env : Env) (s : State A) (op : Op) : (step env s op).params = s.params ∨
    ∃ lop : ListOp, lop.exec env s = .ok (step env s op) ∧ ∀ x d, lop.Lists env x d →
      op.Lists env x d := by
  cases op with
  | deliver msg =>
    rcases orElseKeep_cases s (handle env s msg) with ⟨s', h, e⟩ | ⟨_, e⟩
    · rw [step, e]
      exact handle_list h
    · exact Or.inl (congrArg State.params e)
  | send src dst amt =>
    exact Or.inl (orElseKeep_rule (P := fun s' : State A => s'.params = s.params) rfl fun s' h =>
      withBank_params h)
  | createVestingAccount src dst amt =>
    exact Or.inl (orElseKeep_rule (P := fun s' : State A => s'.params = s.params) rfl fun s' h =>
      withBank_params h)
  | vest a d n => exact Or.inl rfl
  | beginBlock ctx =>
    exact Or.inl (orElseKeep_rule (P := fun s' : State A => s'.params = s.params) rfl fun s' h =>
      beginBlocker_params h)

theorem step_listed (env : Env) (s : State A) {op : Op} {x : Addr} {d : Denom}
    (hl : Listed env (step env s op) x d) :
    Listed env s x d ∨ op.Lists env x d := by
  rcases step_list env s op with hp | ⟨lop, h, hlists⟩
  · rw [Listed, hp] at hl
    exact Or.inl hl
  · exact (ListOp.exec_listed h hl).imp id (hlists x d)

end Issuance

/-! ## Conversions and the EVM's bank keeper -/

namespace Evmutil

variable {E : Type} {s s' : State A} {P : Addr → Denom → Prop}

/-- The account signs for the operation, or is debited by the EVM. -/
def Op.Signs (x : Addr) : Op → Prop
  | convertCosmosCoinToERC20 initiator _ _ => x = initiator
  | convertCoinToERC20 initiator _ _ => x = initiator
  | evmBank (.sendCoinsFromAccountToModule src _ _) => x = src
  | _ => False

def EvmOp.module : EvmOp → ModuleName
  | sendCoinsFromAccountToModule _ m _ => m
  | sendCoinsFromModuleToAccount m _ _ => m
  | mintCoins m _ => m
  | burnCoins m _ => m

def Op.Calls (m : ModuleName) : Op → Prop
  | evmBank op => op.module = m
  | _ => False

/-- The signer, the module account, and the account of the module that calls the EVM's bank
keeper. -/
def payers (A : ModuleAddrs) (op : Op) (x : Addr) (_ : Denom) : Prop :=
  x = A.addr .evmutil ∨ op.Signs x ∨ ∃ m, op.Calls m ∧ x = A.addr m

def anyone (_ : Addr) (_ : Denom) : Prop := True

theorem withBankIfPositive_flow {c : Coin} {x : Except BankError (Bank A)}
    (h : withBankIfPositive s c x = .ok s')
    (hx : ∀ b, x = .ok b → Flow P anyone s.bank.balances b.balances) :
    Flow P anyone s.bank.balances s'.bank.balances := by
  unfold withBankIfPositive at h
  split at h
  · exact hx _ (withBank_bank h)
  · cases h
    exact Flow.refl _ _ _

theorem convertOneGasDenomToEvmDenomIfNeeded_flow {a : Addr} {n : Int} (hP : ∀ d, P a d)
    (h : convertOneGasDenomToEvmDenomIfNeeded s a n = .ok s') :
    Flow P anyone s.bank.balances s'.bank.balances := by
  unfold convertOneGasDenomToEvmDenomIfNeeded at h
  split at h
  · cases h
    exact Flow.refl _ _ _
  · simp only [bind_eq_ok] at h
    obtain ⟨s₁, h₁, h₂⟩ := h
    rw [(addBalance_ok h₂).bank]
    exact Bank.sendCoins_flow (withBank_bank h₁) (fun d _ => hP d) fun _ _ => trivial

theorem convertEvmDenomToGasDenom_flow {a : Addr} (hP : ∀ d, P (A.addr .evmutil) d)
    (h : convertEvmDenomToGasDenom s a = .ok s') :
    Flow P anyone s.bank.balances s'.bank.balances := by
  simp only [convertEvmDenomToGasDenom, bind_eq_ok] at h
  obtain ⟨p, _, h⟩ := h
  split at h
  · cases h
    exact Flow.refl _ _ _
  · simp only [bind_eq_ok] at h
    obtain ⟨s₁, h₁, h₂⟩ := h
    rw [← (setBalance_ok h₁).bank]
    exact Bank.sendCoins_flow (withBank_bank h₂) (fun d _ => hP d) fun _ _ => trivial

theorem Transfers.flow {src dst : Addr} {amt : Coins} (h : Transfers s src dst amt s')
    (hsrc : ∀ d, P src d)
    (hP : ∀ d, P (A.addr .evmutil) d) : Flow P anyone s.bank.balances s'.bank.balances := by
  obtain ⟨q, r, _, s₁, s₂, s₃, ⟨x, hx, h₁⟩, h₂, h₃, h₄⟩ := h
  have c₁ : Flow P anyone s.bank.balances s₁.bank.balances :=
    withBankIfPositive_flow h₁ fun b hb => Bank.sendCoins_flow (hx b hb) (fun d _ => hsrc d)
      fun _ _ => trivial
  have c₂ : Flow P anyone s₁.bank.balances s₂.bank.balances :=
    convertOneGasDenomToEvmDenomIfNeeded_flow hsrc h₂
  have c₄ : Flow P anyone s₃.bank.balances s'.bank.balances := convertEvmDenomToGasDenom_flow hP h₄
  rw [(sendBalance_ok h₃).1] at c₄
  exact (c₁.trans c₂).trans c₄

theorem EvmOp.exec_flow {op : EvmOp} (h : op.exec s = .ok s') :
    Flow (payers A (.evmBank op)) anyone s.bank.balances s'.bank.balances := by
  have hevmutil : ∀ d, payers A (.evmBank op) (A.addr .evmutil) d := fun _ => Or.inl rfl
  have hmodule : ∀ d, payers A (.evmBank op) (A.addr op.module) d :=
    fun _ => Or.inr (Or.inr ⟨_, rfl, rfl⟩)
  cases op with
  | sendCoinsFromAccountToModule src m amt =>
    exact (sendCoinsFromAccountToModule_transfers h).flow (fun _ => Or.inr (Or.inl rfl)) hevmutil
  | sendCoinsFromModuleToAccount m dst amt =>
    exact (sendCoinsFromModuleToAccount_transfers h).flow hmodule hevmutil
  | mintCoins m amt =>
    obtain ⟨q, r, _, s₁, s₂, h₁, h₂, h₃⟩ := mintCoins_steps h
    have c₁ := withBankIfPositive_flow (P := payers A (.evmBank (.mintCoins m amt))) h₁ fun b hb =>
      Bank.mintCoins_flow hb fun _ => trivial
    have c₃ := convertEvmDenomToGasDenom_flow hevmutil h₃
    rw [(addBalance_ok h₂).bank] at c₃
    exact c₁.trans c₃
  | burnCoins m amt =>
    obtain ⟨q, r, _, s₁, s₂, h₁, h₂, h₃⟩ := burnCoins_steps h
    rw [(removeBalance_ok h₃).bank]
    refine (withBankIfPositive_flow h₁ fun b hb => ?_).trans
      (convertOneGasDenomToEvmDenomIfNeeded_flow hmodule h₂)
    exact Bank.burnCoins_flow hb hmodule

variable {evm : EvmKeeper E} {w w' : World A E}

theorem mintConversionPairCoin_flow {pair : ConversionPair} {n : Int} {recipient : Addr}
    (h : mintConversionPairCoin w pair n recipient = .ok w') (hP : ∀ d, P (A.addr .evmutil) d) :
    Flow P anyone w.bank.balances w'.bank.balances := by
  simp only [mintConversionPairCoin, bind_eq_ok] at h
  obtain ⟨coins, _, w₁, h₁, h₂⟩ := h
  exact (Bank.mintCoins_flow (World.withBank_bank h₁) fun _ => trivial).trans
    (Bank.sendCoinsFromModuleToAccount_flow (World.withBank_bank h₂) hP fun _ _ _ => trivial)

theorem burnConversionPairCoin_flow {coin : Coin} {account : Addr}
    (h : burnConversionPairCoin w coin account = .ok w')
    (hP : ∀ d, P (A.addr .evmutil) d) (hpays : ∀ d, P account d) :
    Flow P anyone w.bank.balances w'.bank.balances := by
  simp only [burnConversionPairCoin, bind_eq_ok] at h
  obtain ⟨coins, _, w₁, h₁, h₂⟩ := h
  exact (Bank.sendCoins_flow (World.withBank_bank h₁) (fun d _ => hpays d) fun _ _ => trivial).trans
    (Bank.burnCoins_flow (World.withBank_bank h₂) hP)

theorem getOrDeployCosmosCoinERC20Contract_state {token : AllowedCosmosCoinERC20Token}
    {c : InternalEVMAddress} (h : getOrDeployCosmosCoinERC20Contract evm w token = .ok (c, w')) :
    w'.state = w.state ∧ w'.params = w.params := by
  unfold getOrDeployCosmosCoinERC20Contract at h
  split at h
  · cases h
    exact ⟨rfl, rfl⟩
  · simp only [deployZgChainWrappedCosmosCoinERC20Contract, setDeployedCosmosCoinContract,
      bind_eq_ok, pure_eq_ok] at h
    obtain ⟨_, ⟨_, _, _, _, rfl⟩, _, ⟨_, _, _, _, rfl⟩, h⟩ := h
    cases h
    exact ⟨rfl, rfl⟩

theorem convertCosmosCoinToERC20_ok {initiator : Addr} {receiver : InternalEVMAddress}
    {amount : Coin} (h : convertCosmosCoinToERC20 evm w initiator receiver amount = .ok w') :
    ∃ b, w.bank.sendCoins initiator (A.addr .evmutil) (newCoins amount) = .ok b ∧ w'.bank = b ∧
      w'.params = w.params := by
  simp only [convertCosmosCoinToERC20, mintERC20, bind_eq_ok, orReject_eq_ok, World.withBank_ok,
    pure_eq_ok] at h
  obtain ⟨token, _, coins, hc, _, ⟨b, hsend, rfl⟩, r, hr, e, _, rfl⟩ := h
  obtain ⟨c, w₂⟩ := r
  obtain ⟨rfl, _⟩ := mustNewCoins_ok hc
  obtain ⟨hstate, hparams⟩ := getOrDeployCosmosCoinERC20Contract_state hr
  exact ⟨b, hsend, congrArg State.bank hstate, hparams⟩

theorem convertCosmosCoinFromERC20_ok {initiator : InternalEVMAddress} {receiver : Addr}
    {coin : Coin} (h : convertCosmosCoinFromERC20 evm w initiator receiver coin = .ok w') :
    ∃ b, w.bank.sendCoinsFromModuleToAccount .evmutil receiver (newCoins coin) = .ok b ∧
      w'.bank = b ∧
      w'.params = w.params := by
  simp only [convertCosmosCoinFromERC20, burnERC20, bind_eq_ok, orReject_eq_ok, World.withBank_ok,
    pure_eq_ok] at h
  obtain ⟨_, _, _, _, _, _, _, ⟨e, _, rfl⟩, coins, hc, b, hsend, rfl⟩ := h
  obtain ⟨rfl, _⟩ := mustNewCoins_ok hc
  exact ⟨b, hsend, rfl, rfl⟩

theorem Op.exec_flow {op : Op} (h : op.exec evm w = .ok w') :
    Flow (payers A op) anyone w.bank.balances w'.bank.balances := by
  have hevmutil : ∀ d, payers A op (A.addr .evmutil) d := fun _ => Or.inl rfl
  cases op with
  | convertCosmosCoinToERC20 initiator receiver amount =>
    obtain ⟨b, hsend, rfl, _⟩ := convertCosmosCoinToERC20_ok h
    exact Bank.sendCoins_flow hsend (fun _ _ => Or.inr (Or.inl rfl)) fun _ _ => trivial
  | convertCosmosCoinFromERC20 initiator receiver coin =>
    obtain ⟨b, hsend, rfl, _⟩ := convertCosmosCoinFromERC20_ok h
    exact Bank.sendCoinsFromModuleToAccount_flow hsend hevmutil fun _ _ _ => trivial
  | convertCoinToERC20 initiator receiver coin =>
    obtain ⟨pair, _, w₁, h₁, h₂⟩ := convertCoinToERC20_ok h
    obtain ⟨_, e, _, _, _, _, rfl⟩ := unlockERC20Tokens_ok h₂
    change Flow _ _ _ w₁.bank.balances
    exact burnConversionPairCoin_flow h₁ hevmutil fun _ => Or.inr (Or.inl rfl)
  | convertERC20ToCoin initiator receiver contract amount =>
    obtain ⟨pair, _, w₁, h₁, h₂⟩ := convertERC20ToCoin_ok h
    obtain ⟨_, e, _, _, _, _, rfl⟩ := lockERC20Tokens_ok h₁
    change Flow _ _ (World.bank { w with evm := e }).balances _
    exact mintConversionPairCoin_flow h₂ hevmutil
  | evmBank op =>
    obtain ⟨s', hs, rfl⟩ := evmBankOp_ok h
    exact EvmOp.exec_flow hs
  | transfer contract sender receiver amount =>
    obtain ⟨e, logs, _, rfl⟩ := execTransfer_ok h
    exact Flow.refl _ _ _

theorem step_flow (evm : EvmKeeper E) (w : World A E) (op : Op) :
    Flow (payers A op) anyone w.bank.balances (step evm w op).bank.balances :=
  orElseKeep_rule (P := fun w' : World A E => Flow _ _ _ w'.bank.balances) (Flow.refl _ _ _)
    fun _ h => Op.exec_flow h

end Evmutil

end ZgChain
