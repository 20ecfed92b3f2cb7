import ZgChain.Dasigners.RandomnessSound

/-!
# Calls without effects

A contract may be called with the promise that nothing changes. The contract of the
signers does not look at the promise: the methods that write do so all the same. A
call leaves store and logs alone exactly if it is none of the three transactions, or
the keeper refuses it, or it registers bytes that were already registered.
-/

namespace ZgChain.Dasigners.Precompile

def Writes (env : Env) (ctx : CallCtx) (evm : Evm) (w : World) : (m : Method) → Args m → Prop
  | .registerSigner, (detail, signature) => evm.origin = detail.signer ∧
    ∃ s, Dasigners.registerSigner env ctx w.store (newMsgRegisterSigner detail signature) = .ok s
  | .updateSocket, _ => ∃ signer, w.store.signers.get evm.origin.val = some signer
  | .registerNextEpoch, signature => ∃ s epoch,
    Dasigners.registerNextEpoch env ctx w.store
      (newMsgRegisterNextEpoch signature (toLowerHexWithoutPrefix evm.origin)) = .ok s ∧
    w.store.epochNumber = some epoch ∧
    w.store.registrations.get (getEpochRegistrationKey (epoch + 1) evm.origin.val) ≠
      some (serializeG1 signature)
  | _, _ => False

section
variable {env : Env} {ctx : CallCtx} {evm : Evm} {w : World}

theorem toLowerHexWithoutPrefix_injective : Function.Injective toLowerHexWithoutPrefix := by
  intro a b h
  have := congrArg decodeHex h
  rw [toLowerHexWithoutPrefix, toLowerHexWithoutPrefix, decodeHex_encodeHex,
    decodeHex_encodeHex] at this
  exact Subtype.ext (Option.some.inj this)

theorem commit_world_of_logs {x : Except Error State} {logs : List Log} (hl : logs ≠ []) :
    (commit w x logs).2 = w ↔ ¬ ∃ s, x = .ok s := by
  rw [commit_world_iff]
  constructor
  · rintro h ⟨s, hs⟩
    exact hl (h s hs).2
  · intro h s hs
    exact absurd ⟨s, hs⟩ h

theorem registerSigner_world_iff (detail : SignerDetail) (signature : G1Point) :
    (registerSigner env ctx evm w detail signature).2 = w ↔
      ¬ Writes env ctx evm w .registerSigner (detail, signature) := by
  unfold registerSigner Writes
  dsimp only
  by_cases ho : evm.origin = detail.signer
  · rw [if_neg (by simp [newMsgRegisterSigner, ho]),
      commit_world_of_logs (by simp [newSignerEvent])]
    simp [ho]
  · have hne : toLowerHexWithoutPrefix evm.origin ≠
        (newMsgRegisterSigner detail signature).signer.account :=
      fun h => ho (toLowerHexWithoutPrefix_injective h)
    rw [if_pos hne]
    simp [ho]

theorem updateSocket_world_iff (socket : String) :
    (updateSocket ctx evm w socket).2 = w ↔ ¬ Writes env ctx evm w .updateSocket socket := by
  unfold updateSocket Writes
  rw [commit_world_of_logs (by simp [socketUpdatedEvent]), not_iff_not]
  constructor
  · rintro ⟨s, h⟩
    obtain ⟨key, signer, hs, hk, _⟩ := updateSocket_ok.mp h
    rw [newMsgUpdateSocket, toLowerHexWithoutPrefix, decodeHex_encodeHex] at hk
    cases hk
    exact ⟨signer, hs⟩
  · rintro ⟨signer, hs⟩
    exact ⟨_, updateSocket_ok.mpr ⟨_, signer, hs, decodeHex_encodeHex _, rfl⟩⟩

theorem registerNextEpoch_world_iff (signature : G1Point) :
    (registerNextEpoch env ctx evm w signature).2 = w ↔
    ¬ Writes env ctx evm w .registerNextEpoch signature := by
  unfold registerNextEpoch Writes
  dsimp only
  rw [commit_world_iff]
  constructor
  · rintro h ⟨s, epoch, hr, he, hne⟩
    obtain ⟨key, _, epoch', _, hk, _, he', _, _, rfl⟩ := registerNextEpoch_ok hr
    cases he.symm.trans he'
    rw [newMsgRegisterNextEpoch, toLowerHexWithoutPrefix, decodeHex_encodeHex] at hk
    cases hk
    have hset := congrArg State.registrations (h _ hr).1
    exact hne ((KVStore.set_eq_self_iff _ _ _).mp hset)
  · intro h s hr
    obtain ⟨key, _, epoch, _, hk, _, he, _, _, rfl⟩ := registerNextEpoch_ok hr
    rw [newMsgRegisterNextEpoch, toLowerHexWithoutPrefix, decodeHex_encodeHex] at hk
    cases hk
    have hget : w.store.registrations.get (getEpochRegistrationKey (epoch + 1) evm.origin.val) =
        some (serializeG1 signature) :=
      Classical.byContradiction fun hne => h ⟨_, epoch, hr, he, hne⟩
    have hset := (KVStore.set_eq_self_iff _ _ _).mpr hget
    refine ⟨?_, rfl⟩
    simp only [newMsgRegisterNextEpoch]
    rw [hset]

theorem dispatch_world_iff (m : Method) (args : Args m) :
    (dispatch env ctx evm w m args).2 = w ↔ ¬ Writes env ctx evm w m args := by
  cases m with
  | registerSigner => exact registerSigner_world_iff args.1 args.2
  | updateSocket => exact updateSocket_world_iff args
  | registerNextEpoch => exact registerNextEpoch_world_iff args
  | _ => simp [dispatch, Writes]

/-- A call without effects leaves store and logs alone exactly if it does not decode to a
call that writes. -/
theorem run_readonly_unchanged_iff (abi : Abi) (env : Env) (ctx : CallCtx) (evm : Evm)
    (contract : Contract) (w : World) :
    (run abi env ctx evm contract true w).2 = w ↔
      ∀ m args, decode abi contract.input = .ok ⟨m, args⟩ → ¬ Writes env ctx evm w m args := by
  rw [run_world]
  cases hd : decode abi contract.input with
  | error e =>
    constructor
    · intro _ m args h
      cases h
    · intro _
      rfl
  | ok call =>
    obtain ⟨m, args⟩ := call
    dsimp only
    rw [dispatch_world_iff]
    constructor
    · intro h m' args' e
      cases e
      exact h
    · intro h
      exact h m args rfl

end

/-- A registered signer's call of `updateSocket` that promised no effects. -/
theorem readonly_updateSocket_writes :
    let w : World := ⟨sampleState, []⟩
    let contract := sampleCall ([0x0c, 0xf4, 0xb7, 0x67] ++ sampleSocketArgs)
    let w' := (run sampleAbi sampleEnv sampleCtx ⟨sampleOrigin⟩ contract true w).2
    (w.store.signers.get sampleAccount).map Signer.socket = some "a" ∧
    (w'.store.signers.get sampleAccount).map Signer.socket = some "b" ∧
    w'.logs = [.socketUpdated sampleOrigin "b" 1] := by
  decide +kernel

end ZgChain.Dasigners.Precompile
