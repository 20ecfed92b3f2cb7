import ZgChain.Dasigners.RandomnessSound

/-!
# Calls act for their origin

What a call of the contract does to the store, a message of the account that the call
originates from does too. So every run with calls is one of messages and blocks, and the
record and the registrations of an account change by its own operations only.
-/

namespace ZgChain.Dasigners

open Bn254util

def Op.IsCall : Op → Prop
  | .precompile _ _ _ _ => True
  | _ => False

/-- The account that a message names as its signer, or the origin of a call. -/
def Op.author : Op → Option Bytes
  | .registerSigner _ msg => decodeHex msg.signer.account
  | .updateSocket msg => decodeHex msg.account
  | .registerNextEpoch _ msg => decodeHex msg.account
  | .precompile _ evm _ _ => some evm.origin.val
  | .beginBlock _ => none

/-- The message that does what the call does, if it does anything. -/
def callMessage (abi : Precompile.Abi) (ctx : CallCtx) (evm : Precompile.Evm) (input : Bytes) :
    Option Op :=
  let sender := Precompile.toLowerHexWithoutPrefix evm.origin
  match Precompile.decode abi input with
  | .ok ⟨.registerSigner, (detail, signature)⟩ =>
    if sender = Precompile.toLowerHexWithoutPrefix detail.signer then
      some (.registerSigner ctx (Precompile.newMsgRegisterSigner detail signature))
    else none
  | .ok ⟨.updateSocket, socket⟩ =>
    some (.updateSocket (Precompile.newMsgUpdateSocket socket sender))
  | .ok ⟨.registerNextEpoch, signature⟩ =>
    some (.registerNextEpoch ctx (Precompile.newMsgRegisterNextEpoch signature sender))
  | _ => none

def Op.asMessage (abi : Precompile.Abi) : Op → Option Op
  | .precompile ctx evm contract _ => callMessage abi ctx evm contract.input
  | op => some op

section
variable {abi : Precompile.Abi} {env : Env} {s : State}

theorem toLowerHexWithoutPrefix_valid (a : Precompile.Address) :
    validateHexAddress (Precompile.toLowerHexWithoutPrefix a) = .ok () :=
  validateHexAddress_of_decodes (decodeHex_encodeHex _) a.property

theorem newMsgRegisterSigner_validateBasic (detail : Precompile.SignerDetail)
    (signature : Precompile.G1Point) :
    (Precompile.newMsgRegisterSigner detail signature).validateBasic = .ok () := by
  rw [MsgRegisterSigner.validateBasic, newMsgRegisterSigner_valid, ok_bind]
  simp [Precompile.newMsgRegisterSigner, Precompile.serializeG1, g1PointSize, rejectIf]

theorem newMsgRegisterNextEpoch_validateBasic (signature : Precompile.G1Point)
    (a : Precompile.Address) :
    (Precompile.newMsgRegisterNextEpoch signature
      (Precompile.toLowerHexWithoutPrefix a)).validateBasic = .ok () := by
  rw [MsgRegisterNextEpoch.validateBasic, Precompile.newMsgRegisterNextEpoch,
    toLowerHexWithoutPrefix_valid, ok_bind]
  simp [Precompile.serializeG1, g1PointSize, rejectIf]

theorem commit_store (s : State) (x : Except Error State) (logs : List Precompile.Log) :
    (Precompile.commit ⟨s, []⟩ x logs).2.store = orElseKeep s x := by
  cases x with
  | ok s' => rfl
  | error e => rfl

/-- A call leaves the store as its message does. -/
theorem step_call (ctx : CallCtx) (evm : Precompile.Evm) (contract : Precompile.Contract)
    (readonly : Bool) :
    step abi env s (.precompile ctx evm contract readonly) =
      (callMessage abi ctx evm contract.input).elim s (step abi env s) := by
  rw [step, Precompile.run_world]
  unfold callMessage
  cases Precompile.decode abi contract.input with
  | error e => rfl
  | ok call =>
    obtain ⟨m, args⟩ := call
    cases m with
    | registerSigner =>
      obtain ⟨detail, signature⟩ := args
      dsimp only [Precompile.dispatch, Precompile.registerSigner]
      by_cases hsender : Precompile.toLowerHexWithoutPrefix evm.origin =
        Precompile.toLowerHexWithoutPrefix detail.signer
      · rw [if_pos hsender, if_neg (fun hne => hne hsender), commit_store, Option.elim_some, step,
          newMsgRegisterSigner_validateBasic, ok_bind]
      · have hne : Precompile.toLowerHexWithoutPrefix evm.origin ≠
            (Precompile.newMsgRegisterSigner detail signature).signer.account := hsender
        rw [if_neg hsender, if_pos hne]
        rfl
    | updateSocket =>
      dsimp only [Precompile.dispatch, Precompile.updateSocket]
      rw [commit_store, Option.elim_some, step, MsgUpdateSocket.validateBasic,
        Precompile.newMsgUpdateSocket, toLowerHexWithoutPrefix_valid, ok_bind]
    | registerNextEpoch =>
      dsimp only [Precompile.dispatch, Precompile.registerNextEpoch]
      rw [commit_store, Option.elim_some, step, newMsgRegisterNextEpoch_validateBasic, ok_bind]
    | _ => rfl

theorem step_asMessage (op : Op) :
    step abi env s op = (op.asMessage abi).elim s (step abi env s) := by
  cases op with
  | precompile ctx evm contract readonly => exact step_call ctx evm contract readonly
  | _ => rfl

/-- The message is no call, and it is signed by the origin. -/
theorem asMessage_author {op msg : Op} (h : op.asMessage abi = some msg) :
    ¬ msg.IsCall ∧ msg.author = op.author := by
  cases op with
  | precompile ctx evm contract readonly =>
    have horigin : decodeHex (Precompile.toLowerHexWithoutPrefix evm.origin) =
        some evm.origin.val := decodeHex_encodeHex _
    rw [Op.asMessage, callMessage] at h
    split at h
    · split at h
      · rename_i hsender
        cases h
        exact ⟨id, (congrArg decodeHex hsender).symm.trans horigin⟩
      · cases h
    · cases h
      exact ⟨id, horigin⟩
    · cases h
      exact ⟨id, horigin⟩
    · cases h
  | _ =>
    cases h
    exact ⟨id, rfl⟩

theorem run_asMessage (s : State) (ops : List Op) :
    run abi env s ops = run abi env s (ops.filterMap (Op.asMessage abi)) := by
  induction ops generalizing s with
  | nil => rfl
  | cons op ops ih =>
    rw [run, runSteps_cons, ← run, step_asMessage, ih, List.filterMap_cons]
    cases op.asMessage abi with
    | none => rfl
    | some msg => rfl

/-! ## Records and registrations of an account -/

structure SameAccount (key : Bytes) (s s' : State) : Prop where
  record : s'.signers.get key = s.signers.get key
  registrations : ∀ epoch, registration s' epoch key = registration s epoch key

theorem SameAccount.trans {key : Bytes} {s₁ s₂ s₃ : State} (h : SameAccount key s₁ s₂)
    (h' : SameAccount key s₂ s₃) :
    SameAccount key s₁ s₃ :=
  ⟨h'.record.trans h.record, fun epoch => (h'.registrations epoch).trans (h.registrations epoch)⟩

theorem putSigner_sameAccount {key key' : Bytes} {signer : Signer}
    {hk : decodeHex signer.account = some key'}
    (hne : key ≠ key') : SameAccount key s (putSigner s key' signer hk) :=
  ⟨KVStore.get_set_ne _ hne _, fun _ => rfl⟩

theorem step_message_sameAccount {msg : Op} (hcall : ¬ msg.IsCall) {key : Bytes}
    (h : msg.author ≠ some key) :
    SameAccount key s (step abi env s msg) := by
  have hkeep : SameAccount key s s := ⟨rfl, fun _ => rfl⟩
  have hne : ∀ {key' : Bytes}, msg.author = some key' → key ≠ key' := by
    intro key' hauthor e
    exact h (e ▸ hauthor)
  cases msg with
  | registerSigner ctx msg =>
    refine orElseKeep_rule hkeep fun s' hs' => ?_
    obtain ⟨_, _, hs'⟩ := (bind_eq_ok _ _ _).mp hs'
    obtain ⟨key', hk, _, rfl⟩ := registerSigner_ok hs'
    exact putSigner_sameAccount (hne hk)
  | updateSocket msg =>
    refine orElseKeep_rule hkeep fun s' hs' => ?_
    obtain ⟨_, _, hs'⟩ := (bind_eq_ok _ _ _).mp hs'
    obtain ⟨key', signer, _, hk, rfl⟩ := updateSocket_ok.mp hs'
    exact putSigner_sameAccount (hne hk)
  | registerNextEpoch ctx msg =>
    refine orElseKeep_rule hkeep fun s' hs' => ?_
    obtain ⟨_, _, hs'⟩ := (bind_eq_ok _ _ _).mp hs'
    obtain ⟨key', _, _, _, hk, _, _, _, _, rfl⟩ := registerNextEpoch_ok hs'
    refine ⟨rfl, fun epoch => KVStore.get_set_ne _ (fun e => ?_) _⟩
    exact hne hk (getEpochRegistrationKey_inj e).2
  | precompile ctx evm contract readonly => exact absurd trivial hcall
  | beginBlock ctx =>
    refine orElseKeep_rule hkeep fun s' hs' => ?_
    obtain ⟨hsigners, hregistrations⟩ := beginBlock_frame hs'
    exact ⟨by rw [hsigners], fun epoch => by rw [registration, hregistrations]; rfl⟩

end

/-- Every run with calls of the contract is a run of messages and blocks, each message being
signed by the origin of the call it stands for. An account that signs no message and
originates no call keeps its record and its registrations. -/
theorem calls_act_for_origin (abi : Precompile.Abi) (env : Env) (s : State) (ops : List Op) :
    (∀ msg ∈ ops.filterMap (Op.asMessage abi), ¬ msg.IsCall ∧
      ∃ op ∈ ops, op.asMessage abi = some msg ∧ msg.author = op.author) ∧
    run abi env s ops = run abi env s (ops.filterMap (Op.asMessage abi)) ∧
    ∀ key, (∀ op ∈ ops, op.author ≠ some key) → (run abi env s ops).signers.get key =
      s.signers.get key ∧
      ∀ epoch, registration (run abi env s ops) epoch key = registration s epoch key := by
  have hmessages : ∀ msg ∈ ops.filterMap (Op.asMessage abi),
      ¬ msg.IsCall ∧ ∃ op ∈ ops, op.asMessage abi = some msg ∧ msg.author = op.author := by
    intro msg hmsg
    obtain ⟨op, hop, hmessage⟩ := List.mem_filterMap.mp hmsg
    obtain ⟨hcall, hauthor⟩ := asMessage_author hmessage
    exact ⟨hcall, op, hop, hmessage, hauthor⟩
  refine ⟨hmessages, run_asMessage s ops, fun key hkey => ?_⟩
  have hstep : ∀ s₁ msg, (¬ msg.IsCall ∧ msg.author ≠ some key) → SameAccount key s s₁ →
      SameAccount key s (step abi env s₁ msg) :=
        fun s₁ msg hmsg h => h.trans (step_message_sameAccount hmsg.1 hmsg.2)
  have hothers : ∀ msg ∈ ops.filterMap (Op.asMessage abi), ¬ msg.IsCall ∧
      msg.author ≠ some key := by
    intro msg hmsg
    obtain ⟨hcall, op, hop, _, hauthor⟩ := hmessages msg hmsg
    exact ⟨hcall, hauthor ▸ hkey op hop⟩
  have hsame : SameAccount key s (run abi env s (ops.filterMap (Op.asMessage abi))) :=
    runSteps_inv (step abi env) hstep ⟨rfl, fun _ => rfl⟩ _ hothers
  rw [run_asMessage]
  exact ⟨hsame.record, hsame.registrations⟩

theorem calls_act_for_origin_register : (sampleCallOp.asMessage sampleAbi).isSome = true ∧
    run sampleAbi sampleEnv sampleState [sampleCallOp] =
      run sampleAbi sampleEnv sampleState ([sampleCallOp].filterMap (Op.asMessage sampleAbi)) ∧
    ∀ epoch, registration (run sampleAbi sampleEnv sampleState [sampleCallOp]) epoch
      (List.replicate 20 0x22) =
      registration sampleState epoch (List.replicate 20 0x22) := by
  obtain ⟨_, hrun, hothers⟩ := calls_act_for_origin sampleAbi sampleEnv sampleState [sampleCallOp]
  refine ⟨by decide +kernel, hrun, (hothers (List.replicate 20 0x22) fun op hop => ?_).2⟩
  rw [List.mem_singleton.mp hop]
  decide

end ZgChain.Dasigners
