import ZgChain.Dasigners.Abci
import ZgChain.Dasigners.Precompile

/-!
# Runs of the data availability signers

A run is made of messages, calls of the contract and begin blockers. A step adds
a signer, changes a socket, stores an accepted registration, or leaves signers
and registrations alone; so a key once registered stays. Quorums are written by
a block that enters the next epoch and by nothing else.
-/

namespace ZgChain.Dasigners

open Bn254util

inductive Op where
  | registerSigner (ctx : CallCtx) (msg : MsgRegisterSigner)
  | updateSocket (msg : MsgUpdateSocket)
  | registerNextEpoch (ctx : CallCtx) (msg : MsgRegisterNextEpoch)
  | precompile (ctx : CallCtx) (evm : Precompile.Evm) (contract : Precompile.Contract)
      (readonly : Bool)
  | beginBlock (ctx : CallCtx)

section
variable (abi : Precompile.Abi) (env : Env)

def step (s : State) : Op → State
  | .registerSigner ctx msg => orElseKeep s (do msg.validateBasic; registerSigner env ctx s msg)
  | .updateSocket msg => orElseKeep s (do msg.validateBasic; updateSocket s msg)
  | .registerNextEpoch ctx msg =>
    orElseKeep s (do msg.validateBasic; registerNextEpoch env ctx s msg)
  | .precompile ctx evm contract readonly =>
    (Precompile.run abi env ctx evm contract readonly ⟨s, []⟩).2.store
  | .beginBlock ctx => orElseKeep s (beginBlock env ctx s)

def run (s : State) (ops : List Op) : State := runSteps (step abi env) s ops

theorem run_append (s : State) (ops ops' : List Op) :
    run abi env s (ops ++ ops') = run abi env (run abi env s ops) ops' :=
  runSteps_append _ s ops ops'

theorem run_concat (s : State) (ops : List Op) (op : Op) :
    run abi env s (ops ++ [op]) = step abi env (run abi env s ops) op :=
  run_append abi env s ops [op]

def Op.registration : Op → Option (CallCtx × MsgRegisterNextEpoch)
  | .registerNextEpoch ctx msg =>
    match msg.validateBasic with
    | .ok _ => some (ctx, msg)
    | .error _ => none
  | .precompile ctx evm contract _ =>
    match Precompile.decode abi contract.input with
    | .ok ⟨.registerNextEpoch, signature⟩ =>
      some (ctx, Precompile.newMsgRegisterNextEpoch signature
        (Precompile.toLowerHexWithoutPrefix evm.origin))
    | _ => none
  | _ => none

def Op.socketUpdate : Op → Option MsgUpdateSocket
  | .updateSocket msg =>
    match msg.validateBasic with
    | .ok _ => some msg
    | .error _ => none
  | .precompile _ evm contract _ =>
    match Precompile.decode abi contract.input with
    | .ok ⟨.updateSocket, socket⟩ =>
      some (Precompile.newMsgUpdateSocket socket (Precompile.toLowerHexWithoutPrefix evm.origin))
    | _ => none
  | _ => none

def Accepts (s : State) (op : Op) (epoch : UInt64) (key signature : Bytes) : Prop :=
  ∃ ctx msg s' n, op.registration abi = some (ctx, msg) ∧ registerNextEpoch env ctx s msg = .ok s' ∧
    s.epochNumber = some n ∧ epoch = n + 1 ∧ decodeHex msg.account = some key ∧
    msg.signature = signature

inductive Evolves (op : Op) (s : State) : State → Prop
  | keep {s' : State} (hs : s'.signers = s.signers) (hr : s'.registrations = s.registrations) :
  Evolves op s s'
  | signer {key : Bytes} {signer : Signer} (hk : decodeHex signer.account = some key)
      (hnew : s.signers.get key = none) : Evolves op s (putSigner s key signer hk)
  | socket {key : Bytes} {signer : Signer} (socket : String)
    (hs : s.signers.get key = some signer) :
      Evolves op s (putSigner s key { signer with socket := socket } (s.keyed key signer hs))
  | register {epoch : UInt64} {key signature : Bytes}
      (ha : Accepts abi env s op epoch key signature) :
      Evolves op s { s with
        registrations := s.registrations.set (getEpochRegistrationKey epoch key) signature }

end

section
variable {abi : Precompile.Abi} {env : Env} {op : Op} {s s' : State}

/-! ## Registrations -/

theorem registration_msg {ctx : CallCtx} {msg : MsgRegisterNextEpoch} {u : Unit}
    (hv : msg.validateBasic = .ok u) :
    (Op.registerNextEpoch ctx msg).registration abi = some (ctx, msg) := by
  simp only [Op.registration, hv]

theorem registration_call {ctx : CallCtx} {evm : Precompile.Evm} {contract : Precompile.Contract}
    {readonly : Bool} {signature : Precompile.G1Point}
    (hd : Precompile.decode abi contract.input = .ok ⟨.registerNextEpoch, signature⟩) :
    (Op.precompile ctx evm contract readonly).registration abi = some (ctx,
      Precompile.newMsgRegisterNextEpoch signature
        (Precompile.toLowerHexWithoutPrefix evm.origin)) := by
  simp only [Op.registration, hd]

/-! ## What a step does -/

theorem Evolves.registered {ctx : CallCtx} {msg : MsgRegisterNextEpoch}
    (ho : op.registration abi = some (ctx, msg))
    (h : registerNextEpoch env ctx s msg = .ok s') : Evolves abi env op s s' := by
  obtain ⟨key, _, n, _, hk, _, hn, _, _, rfl⟩ := registerNextEpoch_ok h
  exact .register ⟨ctx, msg, _, n, ho, h, hn, rfl, hk, rfl⟩

theorem Evolves.updated {msg : MsgUpdateSocket} (h : updateSocket s msg = .ok s') :
    Evolves abi env op s s' := by
  obtain ⟨key, signer, hs, _, rfl⟩ := updateSocket_ok.mp h
  exact .socket msg.socket hs

theorem Evolves.added {ctx : CallCtx} {msg : MsgRegisterSigner}
    (h : registerSigner env ctx s msg = .ok s') :
    Evolves abi env op s s' := by
  obtain ⟨key, hk, hnew, rfl⟩ := registerSigner_ok h
  exact .signer hk hnew

theorem newMsgRegisterSigner_valid (detail : Precompile.SignerDetail)
    (signature : Precompile.G1Point) :
    (Precompile.newMsgRegisterSigner detail signature).signer.validate = .ok () := by
  refine Signer.validate_ok.mpr ⟨?_, ?_, ?_⟩
  · simp [Precompile.newMsgRegisterSigner, Precompile.serializeG1, g1PointSize]
  · simp [Precompile.newMsgRegisterSigner, Precompile.serializeG2, g2PointSize]
  · exact validateHexAddress_of_decodes (decodeHex_encodeHex _) detail.signer.property

/-- What holds of the state and of every result of the keeper holds after a step. -/
theorem step_rule {P : State → Prop} (hs : P s)
    (hsigner : ∀ ctx msg s', msg.signer.validate = .ok () →
      registerSigner env ctx s msg = .ok s' → P s')
    (hsocket : ∀ msg s', op.socketUpdate abi = some msg → updateSocket s msg = .ok s' → P s')
    (hnext : ∀ ctx msg s', op.registration abi = some (ctx, msg) →
      registerNextEpoch env ctx s msg = .ok s' → P s')
    (hblock : ∀ ctx s', op = .beginBlock ctx → beginBlock env ctx s = .ok s' → P s') :
    P (step abi env s op) := by
  have hcommit : ∀ (x : Except Error State) logs, (∀ s', x = .ok s' → P s') →
      P (Precompile.commit ⟨s, []⟩ x logs).2.store := by
    intro x logs h
    cases x with
    | error e => exact hs
    | ok s' => exact h s' rfl
  cases op with
  | registerSigner ctx msg =>
    refine orElseKeep_rule hs fun s' h => ?_
    simp only [MsgRegisterSigner.validateBasic, bind_eq_ok] at h
    obtain ⟨_, ⟨_, hv, _⟩, h⟩ := h
    exact hsigner ctx msg s' hv h
  | updateSocket msg =>
    refine orElseKeep_rule hs fun s' h => ?_
    rw [bind_eq_ok] at h
    obtain ⟨_, hv, h⟩ := h
    exact hsocket msg s' (by simp only [Op.socketUpdate, hv]) h
  | registerNextEpoch ctx msg =>
    refine orElseKeep_rule hs fun s' h => ?_
    rw [bind_eq_ok] at h
    obtain ⟨_, hv, h⟩ := h
    exact hnext ctx msg s' (registration_msg hv) h
  | precompile ctx evm contract readonly =>
    rw [step, Precompile.run_world]
    split
    · exact hs
    · rename_i m args hd
      -- of the eleven methods three change the store, each by a message
      cases m with
      | registerSigner =>
        simp only [Precompile.dispatch, Precompile.registerSigner]
        split
        · exact hs
        · exact hcommit _ _ fun s' h => hsigner ctx _ s' (newMsgRegisterSigner_valid _ _) h
      | updateSocket =>
        exact hcommit _ _ fun s' h => hsocket _ s' (by simp only [Op.socketUpdate, hd]) h
      | registerNextEpoch => exact hcommit _ _ fun s' h => hnext ctx _ s' (registration_call hd) h
      | _ => exact hs
  | beginBlock ctx => exact orElseKeep_rule hs fun s' h => hblock ctx s' rfl h

theorem step_evolves (s : State) (op : Op) : Evolves abi env op s (step abi env s op) := by
  refine step_rule (.keep rfl rfl) ?_ ?_ ?_ ?_
  · intro ctx msg s' _ h
    exact .added h
  · intro msg s' _ h
    exact .updated h
  · intro ctx msg s' ho h
    exact .registered ho h
  · intro ctx s' _ h
    obtain ⟨hs, hr⟩ := beginBlock_frame h
    exact .keep hs hr

theorem registration_length {ctx : CallCtx} {msg : MsgRegisterNextEpoch}
    (ho : op.registration abi = some (ctx, msg)) : msg.signature.length = g1PointSize := by
  unfold Op.registration at ho
  split at ho
  · split at ho
    · rename_i hv
      cases ho
      exact (MsgRegisterNextEpoch.validateBasic_ok hv).2
    · cases ho
  · split at ho
    · cases ho
      simp [Precompile.newMsgRegisterNextEpoch, Precompile.serializeG1, g1PointSize]
    · cases ho
  · cases ho

theorem step_registration {ctx : CallCtx} {msg : MsgRegisterNextEpoch}
    (ho : op.registration abi = some (ctx, msg))
    (h : registerNextEpoch env ctx s msg = .ok s') : step abi env s op = s' := by
  unfold Op.registration at ho
  split at ho
  · split at ho
    · rename_i hv
      cases ho
      rw [step, hv, ok_bind, h]
      rfl
    · cases ho
  · split at ho
    · rename_i hd
      cases ho
      rw [step, Precompile.run_world, hd]
      dsimp only [Precompile.dispatch, Precompile.registerNextEpoch]
      rw [h]
      rfl
    · cases ho
  · cases ho

/-! ## Keys stay -/

def SameKeys (a b : Signer) : Prop := a.pubkeyG1 = b.pubkeyG1 ∧ a.pubkeyG2 = b.pubkeyG2

def KeepsKeys (s s' : State) : Prop :=
  ∀ key signer, s.signers.get key = some signer → ∃ signer', s'.signers.get key = some signer' ∧
  SameKeys signer' signer

theorem KeepsKeys.trans {s₁ s₂ s₃ : State} (h : KeepsKeys s₁ s₂) (h' : KeepsKeys s₂ s₃) :
    KeepsKeys s₁ s₃ := by
  intro key signer hs
  obtain ⟨signer₂, hs₂, e₁, e₂⟩ := h key signer hs
  obtain ⟨signer₃, hs₃, e₃, e₄⟩ := h' key signer₂ hs₂
  exact ⟨signer₃, hs₃, e₃.trans e₁, e₄.trans e₂⟩

theorem Evolves.keepsKeys (h : Evolves abi env op s s') : KeepsKeys s s' := by
  intro key signer hs
  cases h with
  | keep hs' _ => exact ⟨signer, hs' ▸ hs, rfl, rfl⟩
  | @signer key' _ hk hnew =>
    have hne : key ≠ key' := by
      rintro rfl
      rw [hnew] at hs
      cases hs
    exact ⟨signer, (KVStore.get_set_ne _ hne _).trans hs, rfl, rfl⟩
  | @socket key' signer' socket hs' =>
    by_cases e : key = key'
    · subst e
      cases hs.symm.trans hs'
      exact ⟨_, KVStore.get_set_self _ _ _, rfl, rfl⟩
    · exact ⟨signer, (KVStore.get_set_ne _ e _).trans hs, rfl, rfl⟩
  | register _ => exact ⟨signer, hs, rfl, rfl⟩

theorem keepsKeys_run (s : State) (ops : List Op) : KeepsKeys s (run abi env s ops) := by
  refine runSteps_inv (step abi env) (P := fun _ => True) (fun s₁ op _ h => ?_) ?_ ops
    fun _ _ => trivial
  · exact h.trans (step_evolves s₁ op).keepsKeys
  · intro key signer hs
    exact ⟨signer, hs, rfl, rfl⟩

/-! ## Stored signers pass their check -/

def SignersValid (s : State) : Prop := ∀ key signer, s.signers.get key = some signer →
    signer.validate = .ok ()

theorem SignersValid.put {key : Bytes} {signer : Signer} {hk : decodeHex signer.account = some key}
    (h : SignersValid s)
    (hv : signer.validate = .ok ()) : SignersValid (putSigner s key signer hk) := by
  intro key' signer' hs
  rw [putSigner, KVStore.get_set] at hs
  split at hs
  · cases hs
    exact hv
  · exact h key' signer' hs

theorem SignersValid.step (h : SignersValid s) : SignersValid (step abi env s op) := by
  refine step_rule h ?_ ?_ ?_ ?_
  · intro ctx msg s' hv hr
    obtain ⟨key, hk, _, rfl⟩ := registerSigner_ok hr
    exact h.put hv
  · intro msg s' _ hr
    obtain ⟨key, signer, hs, _, rfl⟩ := updateSocket_ok.mp hr
    exact h.put (h key signer hs)
  · intro ctx msg s' _ hr
    obtain ⟨_, _, _, _, _, _, _, _, _, rfl⟩ := registerNextEpoch_ok hr
    exact h
  · intro ctx s' _ hb
    unfold SignersValid
    rw [(beginBlock_frame hb).1]
    exact h

theorem signersValid_run {gs : GenesisState} (h₀ : initGenesis gs = .ok s) (ops : List Op) :
    SignersValid (run abi env s ops) := by
  refine runSteps_inv (Dasigners.step abi env) (P := fun _ => True) (fun _ _ _ h => h.step) ?_ ops
    fun _ _ => trivial
  obtain ⟨hv, hst⟩ := initGenesis_ok h₀
  intro key signer hs
  rw [hst.signers] at hs
  rcases KVStore.mem_of_get_setAll hs with ⟨hmem, _⟩ | hnone
  · exact (GenesisState.validate_ok.mp hv).1 signer hmem
  · cases hnone

/-! ## Quorums are written by blocks -/

inductive Turns (env : Env) (op : Op) (s : State) : State → Prop
  | keep {s' : State} (hp : s'.params = s.params) (hn : s'.epochNumber = s.epochNumber)
      (hc : s'.quorumCounts = s.quorumCounts) (hq : s'.epochQuorums = s.epochQuorums) :
      Turns env op s s'
  | enter {ctx : CallCtx} {n : UInt64} {s' : State} (ho : op = .beginBlock ctx)
    (hn : s.epochNumber = some n)
      (hlt : n < n + 1) (he : UInt64.ofNat ctx.block.blockHeight / s.params.epochBlocks = n + 1)
      (h : enterEpoch env ctx s (n + 1) = .ok s') : Turns env op s s'

theorem step_turns (s : State) (op : Op) : Turns env op s (step abi env s op) := by
  refine step_rule (.keep rfl rfl rfl rfl) ?_ ?_ ?_ ?_
  · intro ctx msg s' _ hr
    obtain ⟨_, _, _, rfl⟩ := registerSigner_ok hr
    exact .keep rfl rfl rfl rfl
  · intro msg s' _ hr
    obtain ⟨_, _, _, _, rfl⟩ := updateSocket_ok.mp hr
    exact .keep rfl rfl rfl rfl
  · intro ctx msg s' _ hr
    obtain ⟨_, _, _, _, _, _, _, _, _, rfl⟩ := registerNextEpoch_ok hr
    exact .keep rfl rfl rfl rfl
  · intro ctx s' ho hb
    obtain ⟨n, hn, rfl | ⟨hlt, he, h⟩⟩ := beginBlock_ok hb
    · exact .keep rfl rfl rfl rfl
    · exact .enter ho hn hlt he h

end

end ZgChain.Dasigners
