import ZgChain.Dasigners.RandomnessSound
import ZgChain.Lib.InPlace

/-!
# Calls that fail

The contract works on the store in place, and no write is taken back when a call returns
an error. The messages of the keeper write last; after them the contract still packs logs
and results and charges gas. Values of their types are packed, and the gas is that of a table
of zeros, so no call fails after a write.
-/

namespace ZgChain.Dasigners.Precompile

open ZgChain.InPlace

/-! ## The contract in place -/

/-- The coding of values as a library that may return an error. A log is packed with its topics. -/
structure Codec where
  unpack : (m : Method) → Bytes → Option (Args m)
  pack : (m : Method) → Outputs m → Option Bytes
  packLog : Log → Option (List Bytes × Bytes)

structure Codec.PacksTyped (codec : Codec) : Prop where
  pack : ∀ m out, ∃ bz, codec.pack m out = some bz
  packLog : ∀ log, ∃ data, codec.packLog log = some data

def Codec.abi (codec : Codec) : Abi := ⟨codec.unpack, fun m out => (codec.pack m out).getD []⟩

inductive CallError where
  | run (e : RunError)
  | pack

abbrev CallM := EStateM CallError World

structure GasConfig where
  hasCost : Nat
  deleteCost : Nat
  readCostFlat : Nat
  readCostPerByte : Nat
  writeCostFlat : Nat
  writeCostPerByte : Nat
  iterNextCostFlat : Nat

inductive Access where
  | has
  | delete
  | read (bytes : Nat)
  | write (bytes : Nat)
  | next (bytes : Nat)

def GasConfig.cost (config : GasConfig) : Access → Nat
  | .has => config.hasCost
  | .delete => config.deleteCost
  | .read bytes => config.readCostFlat + config.readCostPerByte * bytes
  | .write bytes => config.writeCostFlat + config.writeCostPerByte * bytes
  | .next bytes => config.readCostPerByte * bytes + config.iterNextCostFlat

def kvGasConfig : GasConfig := ⟨0, 0, 0, 0, 0, 0, 0⟩

def gasConsumed (config : GasConfig) (accesses : List Access) : Nat :=
  (accesses.map config.cost).sum

theorem gasConsumed_kvGasConfig (accesses : List Access) :
    gasConsumed kvGasConfig accesses = storeGas := by
  refine List.sum_eq_zero fun n hn => ?_
  obtain ⟨access, _, rfl⟩ := List.mem_map.mp hn
  cases access with
  | has => rfl
  | delete => rfl
  | read bytes => simp [GasConfig.cost, kvGasConfig]
  | write bytes => simp [GasConfig.cost, kvGasConfig]
  | next bytes => simp [GasConfig.cost, kvGasConfig]

namespace InPlace

def keeper {α : Type} (f : State → Except Error α) : CallM α :=
  reads fun w => (f w.store).mapError fun e => .run (.keeper e)

def store (f : State → Except Error State) : CallM Unit := updates fun w =>
  match f w.store with
  | .ok s => .ok { w with store := s }
  | .error e => .error (.run (.keeper e))

def fail {α : Type} (e : RunError) : CallM α := reads fun _ => .error (.run e)

def emit (codec : Codec) (log : Log) : CallM Unit := updates fun w =>
  match codec.packLog log with
  | some _ => .ok { w with logs := w.logs ++ [log] }
  | none => .error .pack

def pack (codec : Codec) (m : Method) (out : Outputs m) : CallM Bytes :=
  reads fun _ => orReject (codec.pack m out) .pack

/-! ### Messages of the keeper -/

def registerSignerMsg (env : Env) (ctx : CallCtx) (msg : MsgRegisterSigner) : CallM Unit := do
  keeper fun s => checkDelegations ctx s msg.signer.account
  let found ← keeper fun s => Dasigners.getSigner s msg.signer.account
  keeper fun _ => rejectIf (found.isSome = true) .signerExists
  let chainID ← keeper fun _ => orReject env.chainID .invalidChainID
  let hash := pubkeyRegistrationHash env.curve (hexToAddress msg.signer.account) chainID
  keeper fun _ => checkSignature env msg.signer hash msg.signature
  store fun s => setSigner s msg.signer

def updateSocketMsg (msg : MsgUpdateSocket) : CallM Unit := do
  let found ← keeper fun s => Dasigners.getSigner s msg.account
  let signer ← keeper fun _ => orReject found .signerNotFound
  store fun s => setSigner s { signer with socket := msg.socket }

def registerNextEpochMsg (env : Env) (ctx : CallCtx) (msg : MsgRegisterNextEpoch) : CallM Unit := do
  keeper fun s => checkDelegations ctx s msg.account
  let found ← keeper fun s => Dasigners.getSigner s msg.account
  let signer ← keeper fun _ => orReject found .signerNotFound
  let epochNumber ← keeper fun s => getEpochNumber s
  let chainID ← keeper fun _ => orReject env.chainID .invalidChainID
  let hash := epochRegistrationHash env.curve (hexToAddress msg.account) (epochNumber + 1) chainID
  keeper fun _ => checkSignature env signer hash msg.signature
  store fun s => .ok (setRegistration s (epochNumber + 1) msg.account msg.signature)

/-! ### Methods -/

def emitSocketUpdatedEvent (codec : Codec) (ctx : CallCtx) (signer : Address) (socket : String) :
    CallM Unit :=
  emit codec (.socketUpdated signer socket ctx.block.blockHeight)

def emitNewSignerEvent (codec : Codec) (ctx : CallCtx) (detail : SignerDetail) : CallM Unit := do
  emit codec (.newSigner detail.signer detail.pkG1 detail.pkG2 ctx.block.blockHeight)
  emitSocketUpdatedEvent codec ctx detail.signer detail.socket

def registerSigner (codec : Codec) (env : Env) (ctx : CallCtx) (evm : Evm) (detail : SignerDetail)
    (signature : G1Point) :
    CallM Bytes := do
  let msg := newMsgRegisterSigner detail signature
  let sender := toLowerHexWithoutPrefix evm.origin
  if sender ≠ msg.signer.account then fail (.invalidSender sender msg.signer.account)
  else do
    registerSignerMsg env ctx msg
    emitNewSignerEvent codec ctx detail
    pack codec .registerSigner ()

def registerNextEpoch (codec : Codec) (env : Env) (ctx : CallCtx) (evm : Evm)
    (signature : G1Point) : CallM Bytes := do
  registerNextEpochMsg env ctx
    (newMsgRegisterNextEpoch signature (toLowerHexWithoutPrefix evm.origin))
  pack codec .registerNextEpoch ()

def updateSocket (codec : Codec) (ctx : CallCtx) (evm : Evm) (socket : String) : CallM Bytes := do
  updateSocketMsg (newMsgUpdateSocket socket (toLowerHexWithoutPrefix evm.origin))
  emitSocketUpdatedEvent codec ctx evm.origin socket
  pack codec .updateSocket ()

def query (codec : Codec) (m : Method) (f : State → Except Error (Outputs m)) : CallM Bytes := do
  let out ← keeper f
  pack codec m out

def call (codec : Codec) (env : Env) (ctx : CallCtx) (evm : Evm) :
    (m : Method) → Args m → CallM Bytes
  | .epochNumber, _ => query codec .epochNumber epochNumber
  | .quorumCount, epoch => query codec .quorumCount fun s => quorumCount s epoch
  | .getSigner, accounts => query codec .getSigner fun s => getSigner s accounts
  | .getQuorum, (epoch, quorumId) => query codec .getQuorum fun s => getQuorum s epoch quorumId
  | .getQuorumRow, (epoch, quorumId, rowIndex) =>
    query codec .getQuorumRow fun s => getQuorumRow s epoch quorumId rowIndex
  | .getAggPkG1, (epoch, quorumId, bitmap) =>
    query codec .getAggPkG1 fun s => getAggPkG1 env s epoch quorumId bitmap
  | .isSigner, account => query codec .isSigner fun s => isSigner s account
  | .registeredEpoch, (account, epoch) =>
    query codec .registeredEpoch fun s => registeredEpoch s account epoch
  | .registerSigner, (detail, signature) => registerSigner codec env ctx evm detail signature
  | .registerNextEpoch, signature => registerNextEpoch codec env ctx evm signature
  | .updateSocket, socket => updateSocket codec ctx evm socket

def useGas (contract : Contract) (cost : Nat) : CallM Unit :=
  reads fun _ => rejectIf (contract.gas < cost) (.run .outOfGas)

def run (codec : Codec) (env : Env) (ctx : CallCtx) (evm : Evm) (contract : Contract)
    (accesses : List Access) :
    CallM Bytes := do
  let ⟨m, args⟩ ← reads fun _ => (decode codec.abi contract.input).mapError .run
  let bz ← call codec env ctx evm m args
  useGas contract (gasConsumed kvGasConfig accesses)
  return bz

section
variable {codec : Codec} {env : Env} {ctx : CallCtx} {evm : Evm}

/-! ### Steps -/

theorem keeper_bind_store {α : Type} (f : State → Except Error α)
    (g : α → State → Except Error State) :
    (keeper f >>= fun a => store (g a)) = store fun s => f s >>= fun a => g a s := by
  refine (reads_bind_updates _ _).trans (congrArg updates (funext fun w => ?_))
  dsimp only
  cases f w.store with
  | ok a => rfl
  | error e => rfl

theorem store_traceless (f : State → Except Error State) : Traceless World.store (store f) :=
  updates_traceless _

theorem emit_total (hcodec : codec.PacksTyped) (log : Log) : Total (emit codec log) := by
  intro w
  obtain ⟨data, h⟩ := hcodec.packLog log
  simp only [emit, updates, h]
  exact ⟨_, _, rfl⟩

theorem pack_eq (hcodec : codec.PacksTyped) (m : Method) (out : Outputs m) (w : World) :
    pack codec m out w = .ok (codec.abi.pack m out) w := by
  obtain ⟨bz, h⟩ := hcodec.pack m out
  simp only [pack, reads, h, orReject, Codec.abi, Option.getD_some]

theorem pack_total (hcodec : codec.PacksTyped) (m : Method) (out : Outputs m) :
    Total (pack codec m out) :=
  fun w => ⟨_, w, pack_eq hcodec m out w⟩

theorem useGas_total (contract : Contract) (accesses : List Access) :
    Total (useGas contract (gasConsumed kvGasConfig accesses)) := by
  intro w
  rw [gasConsumed_kvGasConfig, storeGas, useGas, reads, rejectIf_neg (Nat.not_lt_zero _)]
  exact ⟨(), w, rfl⟩

/-! ### Messages write last -/

theorem registerSignerMsg_eq (msg : MsgRegisterSigner) :
    registerSignerMsg env ctx msg = store fun s => Dasigners.registerSigner env ctx s msg := by
  simp only [registerSignerMsg, keeper_bind_store]
  rfl

theorem updateSocketMsg_eq (msg : MsgUpdateSocket) :
    updateSocketMsg msg = store fun s => Dasigners.updateSocket s msg := by
  simp only [updateSocketMsg, keeper_bind_store]
  rfl

theorem registerNextEpochMsg_eq (msg : MsgRegisterNextEpoch) :
    registerNextEpochMsg env ctx msg =
      store fun s => Dasigners.registerNextEpoch env ctx s msg := by
  simp only [registerNextEpochMsg, keeper_bind_store]
  rfl

theorem emitNewSignerEvent_total (hcodec : codec.PacksTyped) (detail : SignerDetail) :
    Total (emitNewSignerEvent codec ctx detail) :=
  (emit_total hcodec _).bind fun _ => emit_total hcodec _

theorem registerSigner_traceless (hcodec : codec.PacksTyped) (detail : SignerDetail)
    (signature : G1Point) :
    Traceless World.store (registerSigner codec env ctx evm detail signature) := by
  unfold registerSigner
  dsimp only
  split
  · exact (reads_readsOnly _).traceless
  · rw [registerSignerMsg_eq]
    refine (store_traceless _).bind fun _ => ?_
    exact (emitNewSignerEvent_total hcodec detail).bind fun _ => pack_total hcodec _ _

theorem registerNextEpoch_traceless (hcodec : codec.PacksTyped) (signature : G1Point) :
    Traceless World.store (registerNextEpoch codec env ctx evm signature) := by
  rw [registerNextEpoch, registerNextEpochMsg_eq]
  exact (store_traceless _).bind fun _ => pack_total hcodec _ _

theorem updateSocket_traceless (hcodec : codec.PacksTyped) (socket : String) :
    Traceless World.store (updateSocket codec ctx evm socket) := by
  rw [updateSocket, updateSocketMsg_eq]
  refine (store_traceless _).bind fun _ => ?_
  exact (emit_total hcodec _).bind fun _ => pack_total hcodec _ _

theorem query_traceless (m : Method) (f : State → Except Error (Outputs m)) :
    Traceless World.store (query codec m f) :=
  (reads_readsOnly _).bind fun _ => (reads_readsOnly _).traceless

theorem call_traceless (hcodec : codec.PacksTyped) (m : Method) (args : Args m) :
    Traceless World.store (call codec env ctx evm m args) := by
  cases m with
  | registerSigner => exact registerSigner_traceless hcodec args.1 args.2
  | registerNextEpoch => exact registerNextEpoch_traceless hcodec args
  | updateSocket => exact updateSocket_traceless hcodec args
  | _ => exact query_traceless _ _

/-! ### The contract as a function -/

def ofPair {α β : Type} (f : α → β) : Except RunError α × World → EStateM.Result CallError World β
  | (.ok a, w) => .ok (f a) w
  | (.error e, w) => .error (.run e) w

theorem query_eq (hcodec : codec.PacksTyped) (m : Method) (f : State → Except Error (Outputs m))
    (w : World) :
    query codec m f w = ofPair (codec.abi.pack m) (answer w (f w.store)) := by
  simp only [query, keeper, answer, bind, EStateM.bind, reads]
  cases f w.store with
  | ok out => exact pack_eq hcodec m out w
  | error e => rfl

theorem emit_eq (hcodec : codec.PacksTyped) (log : Log) (w : World) :
    emit codec log w = .ok () { w with logs := w.logs ++ [log] } := by
  obtain ⟨data, h⟩ := hcodec.packLog log
  simp only [emit, updates, h]

theorem store_bind_eq {packed : Unit → Bytes} {logs : List Log} {rest : CallM Bytes}
    (hrest : ∀ w, rest w = .ok (packed ()) { w with logs := w.logs ++ logs })
    (f : State → Except Error State) (w : World) :
    (store f >>= fun _ => rest) w = ofPair packed (commit w (f w.store) logs) := by
  simp only [bind, EStateM.bind, store, updates, commit]
  cases f w.store with
  | ok s => exact hrest _
  | error e => rfl

theorem call_eq (hcodec : codec.PacksTyped) (m : Method) (args : Args m) (w : World) :
    call codec env ctx evm m args w = ofPair (codec.abi.pack m)
      (dispatch env ctx evm w m args) := by
  cases m with
  | registerSigner =>
    show registerSigner codec env ctx evm args.1 args.2 w =
        ofPair _ (Precompile.registerSigner env ctx evm w args.1 args.2)
    unfold registerSigner Precompile.registerSigner
    dsimp only
    split
    · rfl
    · rw [registerSignerMsg_eq]
      refine store_bind_eq (fun w => ?_) _ w
      simp only [emitNewSignerEvent, emitSocketUpdatedEvent, bind, EStateM.bind, emit_eq hcodec,
        pack_eq hcodec, newSignerEvent, socketUpdatedEvent, List.append_assoc, List.cons_append,
        List.nil_append]
  | registerNextEpoch =>
    show registerNextEpoch codec env ctx evm args w = _
    rw [registerNextEpoch, registerNextEpochMsg_eq]
    refine store_bind_eq (fun w => ?_) _ w
    rw [pack_eq hcodec, List.append_nil]
  | updateSocket =>
    show updateSocket codec ctx evm args w = _
    rw [updateSocket, updateSocketMsg_eq]
    refine store_bind_eq (fun w => ?_) _ w
    simp only [emitSocketUpdatedEvent, bind, EStateM.bind, emit_eq hcodec, pack_eq hcodec,
      socketUpdatedEvent]
  | _ => exact query_eq hcodec _ _ w

/-- In place the contract does what it does as a function. -/
theorem run_eq (hcodec : codec.PacksTyped) (contract : Contract) (accesses : List Access)
    (readonly : Bool) (w : World) :
    run codec env ctx evm contract accesses w =
      ofPair id (Precompile.run codec.abi env ctx evm contract readonly w) := by
  unfold Precompile.run
  simp only [run, bind, EStateM.bind, reads]
  cases decode codec.abi contract.input with
  | error e => rfl
  | ok c =>
    obtain ⟨m, args⟩ := c
    simp only [Except.mapError, call_eq hcodec]
    cases dispatch env ctx evm w m args with
    | mk r w' =>
      cases r with
      | error e => rfl
      | ok out =>
        simp only [ofPair, useGas, gasConsumed_kvGasConfig, reads, rejectIf_neg (Nat.not_lt_zero _),
          storeGas]
        rfl

end

end InPlace

/-- For every input, caller, amount of gas and state: a call that returns an error leaves the
store as it was. -/
theorem failed_call_leaves_store {codec : Codec} (hcodec : codec.PacksTyped) (env : Env)
    (ctx : CallCtx) (evm : Evm)
    (contract : Contract) (accesses : List Access) {w w' : World} {e : CallError}
    (h : InPlace.run codec env ctx evm contract accesses w = .error e w') : w'.store = w.store := by
  have htraceless : Traceless World.store (InPlace.run codec env ctx evm contract accesses) := by
    refine (reads_readsOnly _).bind fun c => ?_
    refine (InPlace.call_traceless hcodec c.1 c.2).bind fun bz => ?_
    exact (InPlace.useGas_total contract accesses).bind fun _ w => ⟨bz, w, rfl⟩
  exact htraceless w e w' h

def sampleCodec : Codec :=
  ⟨sampleAbi.unpack, fun m out => some (sampleAbi.pack m out), fun _ => some ([], [])⟩

def strangerCall : Contract :=
  ⟨strangerAddress, [0x0c, 0xf4, 0xb7, 0x67] ++ sampleSocketArgs, 100000⟩

def CallM.fails {α : Type} (x : CallM α) (w : World) : Bool :=
  match x w with
  | .ok _ _ => false
  | .error _ _ => true

/-- There is a signer, and one who is none calls for an update. -/
theorem failed_call_leaves_store_socket :
    sampleState.signers.get sampleAccount = some sampleSigner ∧ ∃ e w',
    InPlace.run sampleCodec sampleEnv sampleCtx ⟨strangerAddress⟩ strangerCall [.read 40]
      ⟨sampleState, []⟩ =
      .error e w' ∧ w'.store = sampleState := by
  have hcodec : sampleCodec.PacksTyped := ⟨fun _ _ => ⟨_, rfl⟩, fun _ => ⟨_, rfl⟩⟩
  have hfails : CallM.fails
      (InPlace.run sampleCodec sampleEnv sampleCtx ⟨strangerAddress⟩ strangerCall [.read 40])
      ⟨sampleState, []⟩ = true := by decide +kernel
  unfold CallM.fails at hfails
  cases h : InPlace.run sampleCodec sampleEnv sampleCtx ⟨strangerAddress⟩ strangerCall [.read 40]
    ⟨sampleState, []⟩ with
  | ok bz w' =>
    rw [h] at hfails
    cases hfails
  | error e w' =>
    have hstore := failed_call_leaves_store hcodec sampleEnv sampleCtx ⟨strangerAddress⟩
      strangerCall [.read 40] h
    dsimp only at hstore
    exact ⟨sampleState_signer, e, w', rfl, hstore⟩

end ZgChain.Dasigners.Precompile
