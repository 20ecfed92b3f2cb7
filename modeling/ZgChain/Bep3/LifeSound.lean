import ZgChain.Bep3.IndexSound
import ZgChain.Bep3.Msg

/-!
# The life of one swap

No message checks a height. An open swap can nevertheless be claimed only before
the height it expires at, because the begin blocker of that height finds it in the
index and expires it before any message of the block. With the status, the height
and the number of releases kept together, every step of a swap is one of a few.
-/

namespace ZgChain.Bep3

variable {A : ModuleAddrs} {env : Env} {s s' : State A} {id : Bytes} {a : AtomicSwap}

/-! ## Payments -/

/-- A claim mints the amount to the recipient, or burns it. -/
def ClaimPays (a : AtomicSwap) (b b' : Bank A) : Prop :=
  match a.direction with
  | .incoming =>
    (∀ x d, b'.balances x d = b.balances x d + if x = a.recipient then a.amount.amountOf d else 0) ∧
    ∀ d, b'.supply d = b.supply d + a.amount.amountOf d
  | .outgoing =>
    (∀ x d, b'.balances x d = b.balances x d - if x = A.addr .bep3 then
      a.amount.amountOf d else 0) ∧
    ∀ d, b'.supply d = b.supply d - a.amount.amountOf d
  | .unspecified => False

/-- A refund returns the amount to the sender, if the swap took any coins. -/
def RefundPays (a : AtomicSwap) (b b' : Bank A) : Prop :=
  match a.direction with
  | .incoming => b' = b
  | .outgoing =>
    (∀ x d, b'.balances x d =
      b.balances x d - (if x = A.addr .bep3 then a.amount.amountOf d else 0) +
      if x = a.sender then a.amount.amountOf d else 0) ∧
    b'.supply = b.supply
  | .unspecified => False

theorem payClaim_bank (h : payClaim s a = .ok s') : ClaimPays a s.bank s'.bank := by
  unfold ClaimPays
  cases payClaim_ok h with
  | @incoming _ _ s₂ _ hd _ h₁ h₂ h₃ h₄ =>
    obtain ⟨b₁, hb₁, rfl⟩ := (withBank_eq_ok _ _ _).mp h₃
    obtain ⟨b₂, hb₂, rfl⟩ := (withBank_eq_ok _ _ _).mp h₄
    have hb₂ := (Bank.sendCoinsFromModuleToAccount_ok.mp hb₂).2
    have hs : s₂.bank = s.bank :=
      (incrementCurrentAssetSupply_sets h₂).bank.trans (decrementAssetSupply_sets h₁).bank
    simp only [hd]
    refine ⟨fun x d => ?_, fun d => ?_⟩
    · rw [(Bank.sendCoins_ok hb₂).2.1, (Bank.mintCoins_ok hb₁).2.1, hs]
      omega
    · rw [Bank.sendCoins_supply hb₂, Bank.mintCoins_supply hb₁, hs]
  | @outgoing _ _ s₂ hd _ h₁ h₂ h₃ =>
    obtain ⟨b₁, hb₁, rfl⟩ := (withBank_eq_ok _ _ _).mp h₃
    have hs : s₂.bank = s.bank :=
      (decrementAssetSupply_sets h₂).bank.trans (decrementAssetSupply_sets h₁).bank
    simp only [hd]
    refine ⟨fun x d => ?_, fun d => ?_⟩
    · rw [(Bank.burnCoins_ok hb₁).2.1, hs]
    · rw [Bank.burnCoins_supply hb₁, hs]

theorem payRefund_bank (h : payRefund s a = .ok s') : RefundPays a s.bank s'.bank := by
  unfold RefundPays
  cases payRefund_ok h with
  | incoming hd _ h₁ =>
    simp only [hd]
    exact (decrementAssetSupply_sets h₁).bank
  | outgoing hd _ h₁ h₂ =>
    obtain ⟨b₁, hb₁, rfl⟩ := (withBank_eq_ok _ _ _).mp h₂
    have hb₁ := (Bank.sendCoinsFromModuleToAccount_ok.mp hb₁).2
    have hs := (decrementAssetSupply_sets h₁).bank
    simp only [hd]
    refine ⟨fun x d => ?_, ?_⟩
    · rw [(Bank.sendCoins_ok hb₁).2.1, hs]
    · rw [Bank.sendCoins_supply hb₁, hs]

/-! ## Steps -/

def releases (env : Env) (id : Bytes) (s : State A) : Event → Bool
  | .deliver ctx (.claim msg) =>
    decide (decodeHex msg.swapID = some id ∧ ∃ s', handle env ctx s (.claim msg) = .ok s')
  | .deliver ctx (.refund msg) =>
    decide (decodeHex msg.swapID = some id ∧ ∃ s', handle env ctx s (.refund msg) = .ok s')
  | _ => false

def releaseCount (env : Env) (id : Bytes) (s : State A) : List Event → Nat
  | [] => 0
  | e :: es => (releases env id s e).toNat + releaseCount env id (exec env s e) es

inductive LifeStep (env : Env) (id : Bytes) (s : State A) (a : AtomicSwap) :
    Event → Option AtomicSwap → Prop where
  | keep (e : Event) (hr : releases env id s e = false) : LifeStep env id s a e (some a)
  | claim {ctx : Ctx} {msg : MsgClaimAtomicSwap} (hid : decodeHex msg.swapID = some id)
      (hs : a.status = .open)
      (hh : ctx.blockHeight < a.expireHeight.toNat)
      (hp : ClaimPays a s.bank (exec env s (.deliver ctx (.claim msg))).bank) :
      LifeStep env id s a (.deliver ctx (.claim msg)) (some (completedSwap ctx a))
  | expire {ctx : Ctx} (hs : a.status = .open) (hh : a.expireHeight.toNat ≤ ctx.blockHeight) :
      LifeStep env id s a (.beginBlock ctx) (some (expiredSwap a))
  | refund {ctx : Ctx} {msg : MsgRefundAtomicSwap} (hid : decodeHex msg.swapID = some id)
      (hs : a.status = .expired)
      (hh : a.expireHeight.toNat ≤ ctx.blockHeight)
      (hp : RefundPays a s.bank (exec env s (.deliver ctx (.refund msg))).bank) :
      LifeStep env id s a (.deliver ctx (.refund msg)) (some (completedSwap ctx a))
  | delete {ctx : Ctx} (hs : a.status = .completed)
      (hh : a.closedBlock.toInt + 86400 ≤ ctx.blockHeight) :
      LifeStep env id s a (.beginBlock ctx) none

/-- What the status says about the height and the releases so far. -/
inductive Phase (height count : Nat) (a : AtomicSwap) : Prop where
  | open (hs : a.status = .open) (hh : height < a.expireHeight.toNat) (hc : count = 0)
  | expired (hs : a.status = .expired) (hh : a.expireHeight.toNat ≤ height) (hc : count = 0)
  | completed (hs : a.status = .completed) (hb : ∃ k < 2 ^ 63, a.closedBlock = Int64.ofNat k)
      (hc : count = 1)

def SameSwap (a a' : AtomicSwap) : Prop := ∃ st cb, a' = { a with status := st, closedBlock := cb }

theorem SameSwap.refl (a : AtomicSwap) : SameSwap a a := ⟨a.status, a.closedBlock, rfl⟩

theorem SameSwap.trans {a₁ a₂ : AtomicSwap} (h : SameSwap a a₁) (h' : SameSwap a₁ a₂) :
    SameSwap a a₂ := by
  obtain ⟨_, _, rfl⟩ := h
  obtain ⟨st, cb, rfl⟩ := h'
  exact ⟨st, cb, rfl⟩

theorem toNat_deletionHeight {k : Nat} (hk : k < 2 ^ 63) (hb : a.closedBlock = Int64.ofNat k) :
    (deletionHeight a).toNat = k + 86400 ∧ a.closedBlock.toInt = k := by
  have hu : (Int64.ofNat k).toUInt64.toNat = k := by
    change (UInt64.ofNat k).toNat = k
    rw [UInt64.toNat_ofNat']
    omega
  refine ⟨?_, ?_⟩
  · rw [deletionHeight, hb, UInt64.toNat_add, hu]
    change (k + 86400) % 2 ^ 64 = _
    omega
  · rw [hb, Int64.toInt_ofNat_of_lt hk]

/-- The height of expiry is added in 64 bits. -/
theorem expireHeight_eq {ctx : Ctx} {span : UInt64}
    (h : a.expireHeight = UInt64.ofNat ctx.blockHeight + span) :
    a.expireHeight.toNat = (ctx.blockHeight + span.toNat) % 2 ^ 64 := by
  rw [h, UInt64.toNat_add, ofNat_blockHeight_toNat]

/-- What is known of a step: its kind, that it releases at most what was left, and the phase
it leads to. -/
structure Lives (env : Env) (id : Bytes) (s : State A) (a : AtomicSwap) (count : Nat) (e : Event) :
    Prop where
  step : LifeStep env id s a e ((exec env s e).swaps.get id)
  once : count + (releases env id s e).toNat ≤ 1
  after : ∀ a', (exec env s e).swaps.get id = some a' →
    SameSwap a a' ∧ Phase e.height (count + (releases env id s e).toNat) a'

theorem Phase.count_le {height count : Nat} (h : Phase height count a) : count ≤ 1 := by
  cases h <;> omega

theorem Phase.lives_keep {height count : Nat} (hp : Phase height count a) {e : Event}
    (hh : e.height = height)
    (hk : (exec env s e).swaps.get id = some a) (hr : releases env id s e = false) :
    Lives env id s a count e := by
  refine ⟨?_, ?_, fun a' ha' => ?_⟩
  · rw [hk]
    exact .keep e hr
  · rw [hr]
    exact hp.count_le
  · rw [hk] at ha'
    cases ha'
    rw [hr, hh]
    exact ⟨SameSwap.refl a, hp⟩

theorem lives_release {ctx : Ctx} {e : Event}
    (hget : (exec env s e).swaps.get id = some (completedSwap ctx a))
    (hr : releases env id s e = true) (hl : LifeStep env id s a e (some (completedSwap ctx a))) :
    Lives env id s a 0 e := by
  refine ⟨?_, ?_, fun a' ha' => ?_⟩
  · rw [hget]
    exact hl
  · rw [hr]
    exact le_refl 1
  · rw [hget] at ha'
    cases ha'
    rw [hr]
    exact ⟨⟨_, _, rfl⟩, .completed rfl ⟨ctx.blockHeight, ctx.height_lt, rfl⟩ rfl⟩

section
variable (hi : IndexInv env s) (hg : s.swaps.get id = some a) {height count : Nat}
  (hp : Phase height count a)
include hi hg hp

theorem Phase.lives_beginBlock {ctx : Ctx} (hh : ctx.blockHeight = height + 1) :
    Lives env id s a count (.beginBlock ctx) := by
  -- the block expires an open swap, deletes a completed one, or leaves it
  have hget : (exec env s (.beginBlock ctx)).swaps.get id = afterBlock ctx.blockHeight a := by
    rw [exec, (hi.beginBlocker ctx).2 id, hg, Option.bind_some]
  refine ⟨?_, hp.count_le, fun a' ha' => ?_⟩
  · rw [hget]
    unfold afterBlock
    split
    · rename_i h
      exact .expire h.1 h.2
    · split
      · rename_i h
        cases hp with
        | «open» hs | expired hs => simp [hs] at h
        | completed hs hb =>
          obtain ⟨k, hk, hb⟩ := hb
          obtain ⟨hd, hc⟩ := toNat_deletionHeight hk hb
          exact .delete hs (by omega)
      · exact .keep _ rfl
  · rw [hget, afterBlock] at ha'
    split at ha'
    · rename_i h
      cases ha'
      refine ⟨⟨_, _, rfl⟩, .expired rfl h.2 ?_⟩
      cases hp with
      | «open» _ _ hc => exact hc
      | expired hs | completed hs => simp [hs] at h
    · split at ha'
      · cases ha'
      · rename_i hno _
        cases ha'
        refine ⟨SameSwap.refl a, ?_⟩
        cases hp with
        | «open» hs _ hc =>
          refine .open hs ?_ hc
          exact Nat.lt_of_not_le fun hle => hno ⟨hs, hle⟩
        | expired hs hle hc => exact .expired hs (by change _ ≤ ctx.blockHeight; omega) hc
        | completed hs hb hc => exact .completed hs hb hc

/-- A successful claim finds the swap open, so before its expiry. -/
theorem Phase.lives_claim {ctx : Ctx} (hh : ctx.blockHeight = height) {msg : MsgClaimAtomicSwap}
    (hok : handle env ctx s (.claim msg) = .ok s') :
    Lives env id s a count (.deliver ctx (.claim msg)) := by
  obtain ⟨id', number, hid', hclaim⟩ := handle_claim_ok hok
  obtain ⟨a₁, hg₁, hs₁, hset⟩ := claimAtomicSwap_swaps hi hclaim
  have hexec : exec env s (.deliver ctx (.claim msg)) = s' := by simp [exec, hok, orElseKeep]
  by_cases he : id = id'
  · subst he
    rw [hg] at hg₁
    cases hg₁
    have hpays : ClaimPays a s.bank (exec env s (.deliver ctx (.claim msg))).bank := by
      obtain ⟨a₂, s₁, hg₂, _, _, hpay, rfl⟩ := claimAtomicSwap_ok hclaim
      rw [hg] at hg₂
      cases hg₂
      rw [hexec]
      exact (payClaim_bank hpay :)
    cases hp with
    | «open» hs hlt hc =>
      subst hc
      apply lives_release
      · rw [hexec, hset, KVStore.get_set_self]
      · exact decide_eq_true ⟨hid', s', hok⟩
      · exact .claim hid' hs (by omega) hpays
    | expired hs | completed hs => simp [hs] at hs₁
  · refine hp.lives_keep hh ?_ ?_
    · rw [hexec, hset, KVStore.get_set_ne _ he, hg]
    · simp [releases, hid', Ne.symm he]

theorem Phase.lives_refund {ctx : Ctx} (hh : ctx.blockHeight = height) {msg : MsgRefundAtomicSwap}
    (hok : handle env ctx s (.refund msg) = .ok s') :
    Lives env id s a count (.deliver ctx (.refund msg)) := by
  obtain ⟨id', hid', hrefund⟩ := handle_refund_ok hok
  obtain ⟨a₁, hg₁, hs₁, hset⟩ := refundAtomicSwap_swaps hi hrefund
  have hexec : exec env s (.deliver ctx (.refund msg)) = s' := by simp [exec, hok, orElseKeep]
  by_cases he : id = id'
  · subst he
    rw [hg] at hg₁
    cases hg₁
    have hpays : RefundPays a s.bank (exec env s (.deliver ctx (.refund msg))).bank := by
      obtain ⟨a₂, s₁, hg₂, _, hpay, rfl⟩ := refundAtomicSwap_ok hrefund
      rw [hg] at hg₂
      cases hg₂
      rw [hexec]
      exact (payRefund_bank hpay :)
    cases hp with
    | expired hs hle hc =>
      subst hc
      apply lives_release
      · rw [hexec, hset, KVStore.get_set_self]
      · exact decide_eq_true ⟨hid', s', hok⟩
      · exact .refund hid' hs (by omega) hpays
    | «open» hs | completed hs => simp [hs] at hs₁
  · refine hp.lives_keep hh ?_ ?_
    · rw [hexec, hset, KVStore.get_set_ne _ he, hg]
    · simp [releases, hid', Ne.symm he]

theorem Phase.lives {e : Event} (hh : e.height = e.next height) : Lives env id s a count e := by
  cases e with
  | beginBlock ctx => exact hp.lives_beginBlock hi hg hh
  | deliver ctx msg =>
    have hh : ctx.blockHeight = height := hh
    rcases orElseKeep_cases s (handle env ctx s msg) with ⟨s', hok, he⟩ | ⟨⟨err, herr⟩, he⟩
    · cases msg with
      | claim msg => exact hp.lives_claim hi hg hh hok
      | refund msg => exact hp.lives_refund hi hg hh hok
      | create msg =>
        obtain ⟨args, hc, _⟩ := handle_create_ok hok
        obtain ⟨_, _, dir, _, hc⟩ := createAtomicSwap_ok hc
        have hne : id ≠ (newSwap ctx args dir).getSwapID env := by
          intro e
          rw [e, hc.fresh] at hg
          cases hg
        refine hp.lives_keep hh ?_ rfl
        rw [exec, he, createAtomicSwap_swaps hc, KVStore.get_set_ne _ hne, hg]
    · refine hp.lives_keep hh (by rw [exec, he, hg]) ?_
      cases msg <;> simp [releases, herr]

end

/-! ## Runs -/

theorem IndexInv.exec (h : IndexInv env s) (e : Event) : IndexInv env (exec env s e) := by
  cases e with
  | beginBlock ctx => exact (h.beginBlocker ctx).1
  | deliver ctx msg =>
    refine orElseKeep_rule h fun s' hok => ?_
    cases msg with
    | create msg =>
      obtain ⟨args, hc, _⟩ := handle_create_ok hok
      simpa [Bep3.step, hc, orElseKeep] using h.step (.create ctx args)
    | claim msg =>
      obtain ⟨id, number, _, hc⟩ := handle_claim_ok hok
      simpa [Bep3.step, hc, orElseKeep] using h.step (.claim ctx id number)
    | refund msg =>
      obtain ⟨id, _, hc⟩ := handle_refund_ok hok
      simpa [Bep3.step, hc, orElseKeep] using h.step (.refund ctx id)

theorem Phase.run {a₀ : AtomicSwap} (hsame : SameSwap a₀ a) {height count : Nat}
    (hp : Phase height count a)
    (hi : IndexInv env s) (hg : s.swaps.get id = some a) {after : List Event} {e : Event}
    (hf : Follows height (after ++ [e]))
    (hlive : ∀ pre post, after = pre ++ post →
      (runSteps (Bep3.exec env) s pre).swaps.get id ≠ none) :
    ∃ a', (runSteps (Bep3.exec env) s after).swaps.get id = some a' ∧ SameSwap a₀ a' ∧
      LifeStep env id (runSteps (Bep3.exec env) s after) a' e
        ((Bep3.exec env (runSteps (Bep3.exec env) s after) e).swaps.get id) ∧
      count + releaseCount env id s (after ++ [e]) ≤ 1 := by
  induction after generalizing s a height count with
  | nil =>
    have hl := hp.lives hi hg hf.1
    exact ⟨a, hg, hsame, hl.step, hl.once⟩
  | cons x after ih =>
    have hl := hp.lives hi hg hf.1
    obtain ⟨a₁, ha₁⟩ := Option.ne_none_iff_exists'.mp (hlive [x] after rfl)
    obtain ⟨hs₁, hp₁⟩ := hl.after a₁ ha₁
    obtain ⟨a', hg', hsame', hstep, hcount⟩ :=
      ih (hsame.trans hs₁) hp₁ (hi.exec x) ha₁ hf.2 fun pre post hpre =>
      hlive (x :: pre) post (by rw [hpre, List.cons_append])
    refine ⟨a', hg', hsame', hstep, ?_⟩
    rw [List.cons_append, releaseCount]
    omega

theorem IndexInv.runEvents (h : IndexInv env s) (es : List Event) :
    IndexInv env (runSteps (Bep3.exec env) s es) :=
  runSteps_inv (P := fun _ => True) (Bep3.exec env) (fun _ e _ h => h.exec e) h es
    fun _ _ => trivial

theorem created_swap {ctx : Ctx} {msg : MsgCreateAtomicSwap}
    (hok : handle env ctx s (.create msg) = .ok s')
    (hnew : s.swaps.get id = none) (ha : s'.swaps.get id = some a) :
    (env.accAddressFromBech32 msg.fromAddr = some a.sender ∧ env.accAddressFromBech32 msg.toAddr =
      some a.recipient ∧
      a.amount = msg.amount ∧ a.status = .open ∧ a.expireHeight = UInt64.ofNat ctx.blockHeight +
        msg.heightSpan) ∧
    0 < msg.heightSpan.toNat := by
  obtain ⟨args, hc, hsender, hrecipient, hamount, hspan, hpos⟩ := handle_create_ok hok
  obtain ⟨_, _, dir, _, hc⟩ := createAtomicSwap_ok hc
  rw [createAtomicSwap_swaps hc, KVStore.get_set] at ha
  split at ha
  · cases ha
    exact ⟨⟨hsender, hrecipient, hamount, rfl, by rw [← hspan]; rfl⟩,
      UInt64.lt_iff_toNat_lt.mp hpos⟩
  · rw [hnew] at ha
    cases ha

theorem Follows.append {height : Nat} {xs ys : List Event} (h : Follows height (xs ++ ys)) :
    ∃ height', Follows height' ys := by
  induction xs generalizing height with
  | nil => exact ⟨height, h⟩
  | cons x xs ih => exact ih h.2

/-- From its creation on, as long as it is stored, a swap keeps its terms, takes only
the steps of `LifeStep`, and is released at most once. -/
theorem swap_life (env : Env) (s₀ : State A) (hn : NoSwaps s₀) (h₀ : Nat)
    (before after : List Event) (ctx : Ctx) (msg : MsgCreateAtomicSwap) (e : Event)
    (hf : Follows h₀ (before ++ .deliver ctx (.create msg) :: (after ++ [e]))) (id : Bytes)
    (a₀ : AtomicSwap)
    (s₁ : State A) (hs₁ : runSteps (exec env) s₀ (before ++ [.deliver ctx (.create msg)]) = s₁)
    (hnew : (runSteps (exec env) s₀ before).swaps.get id = none) (ha₀ : s₁.swaps.get id = some a₀)
    (hspan : ctx.blockHeight + msg.heightSpan.toNat < 2 ^ 64)
    (hlive : ∀ pre post, after = pre ++ post → (runSteps (exec env) s₁ pre).swaps.get id ≠ none) :
    (env.accAddressFromBech32 msg.fromAddr = some a₀.sender ∧ env.accAddressFromBech32 msg.toAddr =
      some a₀.recipient ∧
      a₀.amount = msg.amount ∧ a₀.status = .open ∧
      a₀.expireHeight.toNat = ctx.blockHeight + msg.heightSpan.toNat) ∧
    ∃ a, (runSteps (exec env) s₁ after).swaps.get id = some a ∧ SameSwap a₀ a ∧
      LifeStep env id (runSteps (exec env) s₁ after) a e
        ((exec env (runSteps (exec env) s₁ after) e).swaps.get id) ∧
      releaseCount env id s₁ (after ++ [e]) ≤ 1 := by
  have hi₁ : IndexInv env s₁ := by
    rw [← hs₁]
    exact (IndexInv.of_empty hn).runEvents _
  obtain ⟨_, _, hf⟩ := hf.append
  rw [runSteps_append, runSteps_cons, runSteps_nil, exec] at hs₁
  rcases orElseKeep_cases (runSteps (exec env) s₀ before)
    (handle env ctx (runSteps (exec env) s₀ before) (.create msg))
    with ⟨s', hok, he⟩ | ⟨_, he⟩
  · rw [he] at hs₁
    subst hs₁
    obtain ⟨⟨hsender, hrecipient, hamount, hopen, hexp⟩, hpos⟩ := created_swap hok hnew ha₀
    have hheight := expireHeight_eq hexp
    rw [Nat.mod_eq_of_lt hspan] at hheight
    refine ⟨⟨hsender, hrecipient, hamount, hopen, hheight⟩, ?_⟩
    have hp : Phase ctx.blockHeight 0 a₀ := .open hopen (by omega) rfl
    obtain ⟨a, hg, hsame, hstep, hcount⟩ := hp.run (SameSwap.refl _) hi₁ ha₀ hf hlive
    exact ⟨a, hg, hsame, hstep, by omega⟩
  · rw [he] at hs₁
    rw [← hs₁, hnew] at ha₀
    cases ha₀

def shortSwap : MsgCreateAtomicSwap where
  fromAddr := "0g1qqqqqqqqqqqqqqqqqqqqqqqqqqqqqr0f40xh7q"
  toAddr := "0g1qqqqqqqqqqqqqqqqqqqqqqqqqqqq5ywwfrrwct"
  recipientOtherChain := "bnb1recipient"
  senderOtherChain := "bnb1sender"
  randomNumberHash := "5bf90681a98e9214158344b56a2b1f8af86fe5e10cdec1227f20e1fccaddc86d"
  timestamp := 1700000000
  amount := [⟨"bnb", 100⟩]
  heightSpan := 1

def shortCreation : Event := .deliver (sampleCtx 100) (.create shortSwap)

def shortExpiry : Event := .beginBlock (sampleCtx 101)

def shortRefund : Event :=
  .deliver (sampleCtx 101) (.refund
    ⟨"0g1qqqqqqqqqqqqqqqqqqqqqqqqqqqqqr0f40xh7q",
      "23ce3183d06f1ae012cc8c7f2d525d19ec3fa2e368e3169a76e9e035f93f9e0f"⟩)

theorem swap_life_refunded :
    ∃ s₁ a, runSteps (exec sampleEnv) sampleState [shortCreation, shortExpiry] = s₁ ∧
      s₁.swaps.get (sampleID 1 deputyAddr) = some a ∧
      releases sampleEnv (sampleID 1 deputyAddr) s₁ shortRefund = true ∧
      LifeStep sampleEnv (sampleID 1 deputyAddr) s₁ a shortRefund
        ((exec sampleEnv s₁ shortRefund).swaps.get (sampleID 1 deputyAddr)) := by
  have hlive : ∀ pre post, [shortExpiry] = pre ++ post →
      (runSteps (exec sampleEnv) (exec sampleEnv sampleState shortCreation) pre).swaps.get
        (sampleID 1 deputyAddr) ≠ none := by
    intro pre post h
    rcases List.append_eq_singleton_iff.mp h.symm with ⟨rfl, _⟩ | ⟨rfl, _⟩
    · decide
    · decide
  obtain ⟨_, a, hg, _, hstep, _⟩ :=
    swap_life sampleEnv sampleState ⟨rfl, rfl, rfl⟩ 100 [] [shortExpiry]
    (sampleCtx 100) shortSwap shortRefund ⟨rfl, rfl, rfl, trivial⟩ (sampleID 1 deputyAddr)
    (newSwap (sampleCtx 100)
      { sampleArgs 1 deputyAddr userAddr 100 with heightSpan := 1 } .incoming)
    _ rfl (by decide) (by decide) (by decide) hlive
  exact ⟨_, a, rfl, hg, by decide, hstep⟩

end ZgChain.Bep3
