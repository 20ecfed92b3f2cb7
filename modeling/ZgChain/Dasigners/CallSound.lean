import ZgChain.Dasigners.EpochSound

/-!
# Calls of the contract

Numbers of a call have 256 bits and those of the keeper 64. The contract passes on the
low half of each, so a number from `2 ^ 64` on is answered for another one. Input that is no
call of a method is refused before the keeper is reached, but the gas for it is computed
from its first four bytes, whether it has them or not.
-/

namespace ZgChain.Dasigners.Precompile

/-! ## Numbers asked for -/

def exact64 (n : UInt256) : Option UInt64 :=
  if n.val < 2 ^ 64 then some (UInt64.ofNat n.val) else none

inductive EpochQuery where
  | quorumCount (epoch : UInt256)
  | getQuorum (epoch quorumId : UInt256)
  | getQuorumRow (epoch quorumId : UInt256) (rowIndex : UInt32)
  | getAggPkG1 (epoch quorumId : UInt256) (quorumBitmap : Bytes)
  | registeredEpoch (account : Address) (epoch : UInt256)

namespace EpochQuery

def method : EpochQuery → Method
  | quorumCount _ => .quorumCount
  | getQuorum _ _ => .getQuorum
  | getQuorumRow _ _ _ => .getQuorumRow
  | getAggPkG1 _ _ _ => .getAggPkG1
  | registeredEpoch _ _ => .registeredEpoch

def args : (q : EpochQuery) → Args q.method
  | quorumCount epoch => epoch
  | getQuorum epoch quorumId => (epoch, quorumId)
  | getQuorumRow epoch quorumId rowIndex => (epoch, quorumId, rowIndex)
  | getAggPkG1 epoch quorumId quorumBitmap => (epoch, quorumId, quorumBitmap)
  | registeredEpoch account epoch => (account, epoch)

/-- The answer of a keeper that is asked for exactly these numbers; there is none if it has no
entry for them. -/
def entry (env : Env) (s : State) : (q : EpochQuery) → Option (Outputs q.method)
  | quorumCount epoch => do
    let e ← exact64 epoch
    let count ← (getQuorumCount s e).toOption
    return (count.toNat : Int)
  | getQuorum epoch quorumId => do
    let e ← exact64 epoch
    let id ← exact64 quorumId
    let signers ← (getEpochQuorum s e id).toOption
    return signers.map Address.ofHex
  | getQuorumRow epoch quorumId rowIndex => do
    let e ← exact64 epoch
    let id ← exact64 quorumId
    let signer ← (Query.epochQuorumRow s e id rowIndex).toOption
    return Address.ofHex signer
  | getAggPkG1 epoch quorumId quorumBitmap => do
    let e ← exact64 epoch
    let id ← exact64 quorumId
    let r ← (Query.aggregatePubkeyG1 env s e id quorumBitmap).toOption
    let point ← (newBN254G1Point r.aggregatePubkeyG1).toOption
    return (point, (r.total.toNat : Int), (r.hit.toNat : Int))
  | registeredEpoch account epoch =>
    match exact64 epoch with
    | none => some false
    | some e => (getRegistration s e (toLowerHexWithoutPrefix account)).toOption.map Option.isSome

def answer (env : Env) (s : State) : (q : EpochQuery) → Except Error (Outputs q.method)
  | quorumCount epoch => Precompile.quorumCount s epoch
  | getQuorum epoch quorumId => Precompile.getQuorum s epoch quorumId
  | getQuorumRow epoch quorumId rowIndex => Precompile.getQuorumRow s epoch quorumId rowIndex
  | getAggPkG1 epoch quorumId quorumBitmap =>
    Precompile.getAggPkG1 env s epoch quorumId quorumBitmap
  | registeredEpoch account epoch => Precompile.registeredEpoch s account epoch

/-- An entry under the low halves of the numbers is one for the numbers, and a number that it
returns is one of 63 bits. -/
def Faithful (env : Env) (s : State) : EpochQuery → Prop
  | quorumCount epoch => ∀ count, getQuorumCount s (low64 epoch) = .ok count →
    epoch.val < 2 ^ 64 ∧ count.toNat < 2 ^ 63
  | getQuorum epoch quorumId =>
    ∀ quorum, getEpochQuorum s (low64 epoch) (low64 quorumId) = .ok quorum →
    epoch.val < 2 ^ 64 ∧ quorumId.val < 2 ^ 64
  | getQuorumRow epoch quorumId rowIndex => ∀ signer,
    Query.epochQuorumRow s (low64 epoch) (low64 quorumId) rowIndex = .ok signer →
    epoch.val < 2 ^ 64 ∧ quorumId.val < 2 ^ 64
  | getAggPkG1 epoch quorumId quorumBitmap => ∀ r,
    Query.aggregatePubkeyG1 env s (low64 epoch) (low64 quorumId) quorumBitmap = .ok r →
    epoch.val < 2 ^ 64 ∧ quorumId.val < 2 ^ 64 ∧ r.total.toNat < 2 ^ 63 ∧ r.hit.toNat < 2 ^ 63
  | registeredEpoch account epoch => ∀ signature,
    s.registrations.get (getEpochRegistrationKey (low64 epoch) account.val) = some signature →
    epoch.val < 2 ^ 64

end EpochQuery

section
variable {env : Env} {s : State}

theorem exact64_of_lt {n : UInt256} (h : n.val < 2 ^ 64) : exact64 n = some (low64 n) := if_pos h

theorem exact64_eq_some {n : UInt256} {x : UInt64} (h : exact64 n = some x) : n.val < 2 ^ 64 := by
  unfold exact64 at h
  split at h
  · assumption
  · cases h

theorem toBig_eq_iff (n : UInt64) : toBig n = n.toNat ↔ n.toNat < 2 ^ 63 := by
  rw [toBig, toInt_toInt64, Int.bmod_def]
  have hlt := n.toNat_lt
  split
  · omega
  · omega

theorem toOption_eq_some {ε α : Type} {x : Except ε α} {a : α} :
    x.toOption = some a ↔ x = .ok a := by
  cases x with
  | error e => simp [Except.toOption]
  | ok b => simp [Except.toOption]

theorem exists_exact64 {n : UInt256} {P : UInt64 → Prop} :
    (∃ x, exact64 n = some x ∧ P x) ↔ n.val < 2 ^ 64 ∧ P (low64 n) := by
  constructor
  · intro h
    obtain ⟨x, hx, hp⟩ := h
    have hlt := exact64_eq_some hx
    cases (exact64_of_lt hlt).symm.trans hx
    exact ⟨hlt, hp⟩
  · intro h
    exact ⟨low64 n, exact64_of_lt h.1, h.2⟩

theorem dispatch_epochQuery (ctx : CallCtx) (evm : Evm) (w : World) (q : EpochQuery)
    (out : Outputs q.method) :
    (dispatch env ctx evm w q.method q.args).1 = .ok out ↔ q.answer env w.store = .ok out := by
  cases q with
  | _ => exact mapError_eq_ok _ _ _

/-! What each query answers and what it should. -/

theorem quorumCount_entry {epoch : UInt256} {out : Int} :
    (EpochQuery.quorumCount epoch).entry env s = some out ↔
    epoch.val < 2 ^ 64 ∧ ∃ count, getQuorumCount s (low64 epoch) = .ok count ∧
    (count.toNat : Int) = out := by
  show ((exact64 epoch).bind fun e => (getQuorumCount s e).toOption.bind fun count =>
    some (count.toNat : Int)) = some out ↔ _
  simp only [Option.bind_eq_some_iff, exists_exact64, toOption_eq_some, Option.some.injEq]

theorem getQuorum_entry {epoch quorumId : UInt256} {out : List Address} :
    (EpochQuery.getQuorum epoch quorumId).entry env s = some out ↔ epoch.val < 2 ^ 64 ∧
    quorumId.val < 2 ^ 64 ∧
      ∃ quorum, getEpochQuorum s (low64 epoch) (low64 quorumId) = .ok quorum ∧
        quorum.map Address.ofHex = out := by
  show ((exact64 epoch).bind fun e => (exact64 quorumId).bind fun id =>
    (getEpochQuorum s e id).toOption.bind fun signers => some (signers.map Address.ofHex)) =
      some out ↔ _
  simp only [Option.bind_eq_some_iff, exists_exact64, toOption_eq_some, Option.some.injEq]

theorem getQuorumRow_entry {epoch quorumId : UInt256} {rowIndex : UInt32} {out : Address} :
    (EpochQuery.getQuorumRow epoch quorumId rowIndex).entry env s = some out ↔
      epoch.val < 2 ^ 64 ∧ quorumId.val < 2 ^ 64 ∧
      ∃ signer, Query.epochQuorumRow s (low64 epoch) (low64 quorumId) rowIndex = .ok signer ∧
        .ofHex signer = out := by
  show ((exact64 epoch).bind fun e => (exact64 quorumId).bind fun id =>
    (Query.epochQuorumRow s e id rowIndex).toOption.bind fun signer => some
      (Address.ofHex signer)) = some out ↔ _
  simp only [Option.bind_eq_some_iff, exists_exact64, toOption_eq_some, Option.some.injEq]

theorem getAggPkG1_entry {epoch quorumId : UInt256} {quorumBitmap : Bytes}
    {out : G1Point × Int × Int} :
    (EpochQuery.getAggPkG1 epoch quorumId quorumBitmap).entry env s = some out ↔
      epoch.val < 2 ^ 64 ∧ quorumId.val < 2 ^ 64 ∧
      ∃ r, Query.aggregatePubkeyG1 env s (low64 epoch) (low64 quorumId) quorumBitmap = .ok r ∧
        ∃ point, newBN254G1Point r.aggregatePubkeyG1 = .ok point ∧
          (point, (r.total.toNat : Int), (r.hit.toNat : Int)) = out := by
  show ((exact64 epoch).bind fun e => (exact64 quorumId).bind fun id =>
    (Query.aggregatePubkeyG1 env s e id quorumBitmap).toOption.bind fun r =>
      (newBN254G1Point r.aggregatePubkeyG1).toOption.bind fun point =>
        some (point, (r.total.toNat : Int), (r.hit.toNat : Int))) = some out ↔ _
  simp only [Option.bind_eq_some_iff, exists_exact64, toOption_eq_some, Option.some.injEq]

theorem quorumCount_faithful_iff (epoch : UInt256) :
    (∀ out, quorumCount s epoch = .ok out → (EpochQuery.quorumCount epoch).entry env s = some out) ↔
      (EpochQuery.quorumCount epoch).Faithful env s := by
  simp only [quorumCount, bind_eq_ok, pure_eq_ok, quorumCount_entry]
  constructor
  · intro h count hc
    obtain ⟨hlt, count', hc', e⟩ := h _ ⟨count, hc, rfl⟩
    cases hc.symm.trans hc'
    exact ⟨hlt, (toBig_eq_iff count).mp e.symm⟩
  · intro h out ho
    obtain ⟨count, hc, rfl⟩ := ho
    obtain ⟨hlt, hcount⟩ := h count hc
    exact ⟨hlt, count, hc, ((toBig_eq_iff count).mpr hcount).symm⟩

theorem getQuorum_faithful_iff (epoch quorumId : UInt256) :
    (∀ out, getQuorum s epoch quorumId = .ok out →
      (EpochQuery.getQuorum epoch quorumId).entry env s = some out) ↔
      (EpochQuery.getQuorum epoch quorumId).Faithful env s := by
  simp only [getQuorum, bind_eq_ok, pure_eq_ok, getQuorum_entry]
  constructor
  · intro h quorum hq
    obtain ⟨he, hid, _⟩ := h _ ⟨quorum, hq, rfl⟩
    exact ⟨he, hid⟩
  · intro h out ho
    obtain ⟨quorum, hq, rfl⟩ := ho
    obtain ⟨he, hid⟩ := h quorum hq
    exact ⟨he, hid, quorum, hq, rfl⟩

theorem getQuorumRow_faithful_iff (epoch quorumId : UInt256) (rowIndex : UInt32) :
    (∀ out, getQuorumRow s epoch quorumId rowIndex = .ok out →
      (EpochQuery.getQuorumRow epoch quorumId rowIndex).entry env s = some out) ↔
      (EpochQuery.getQuorumRow epoch quorumId rowIndex).Faithful env s := by
  simp only [getQuorumRow, bind_eq_ok, pure_eq_ok, getQuorumRow_entry]
  constructor
  · intro h signer hs
    obtain ⟨he, hid, _⟩ := h _ ⟨signer, hs, rfl⟩
    exact ⟨he, hid⟩
  · intro h out ho
    obtain ⟨signer, hs, rfl⟩ := ho
    obtain ⟨he, hid⟩ := h signer hs
    exact ⟨he, hid, signer, hs, rfl⟩

theorem newBN254G1Point_aggregate {epoch quorumId : UInt64} {bitmap : Bytes}
    {r : Query.AggregatePubkeyG1Response}
    (h : Query.aggregatePubkeyG1 env s epoch quorumId bitmap = .ok r) :
    ∃ point, newBN254G1Point r.aggregatePubkeyG1 = .ok point := by
  simp only [Query.aggregatePubkeyG1, bind_eq_ok, pure_eq_ok] at h
  obtain ⟨_, _, _, _, acc, _, rfl⟩ := h
  unfold newBN254G1Point
  rw [rejectIf_neg (by rw [Bn254util.length_serializeG1]; exact lt_irrefl _)]
  exact ⟨_, rfl⟩

theorem getAggPkG1_faithful_iff (epoch quorumId : UInt256) (quorumBitmap : Bytes) :
    (∀ out, getAggPkG1 env s epoch quorumId quorumBitmap = .ok out →
      (EpochQuery.getAggPkG1 epoch quorumId quorumBitmap).entry env s = some out) ↔
      (EpochQuery.getAggPkG1 epoch quorumId quorumBitmap).Faithful env s := by
  simp only [getAggPkG1, bind_eq_ok, pure_eq_ok, getAggPkG1_entry]
  constructor
  · intro h r hr
    obtain ⟨point, hp⟩ := newBN254G1Point_aggregate hr
    obtain ⟨he, hid, r', hr', point', _, e⟩ := h _ ⟨r, hr, point, hp, rfl⟩
    cases hr.symm.trans hr'
    rw [Prod.mk.injEq, Prod.mk.injEq] at e
    exact ⟨he, hid, (toBig_eq_iff _).mp e.2.1.symm, (toBig_eq_iff _).mp e.2.2.symm⟩
  · intro h out ho
    obtain ⟨r, hr, point, hp, rfl⟩ := ho
    obtain ⟨he, hid, ht, hh⟩ := h r hr
    refine ⟨he, hid, r, hr, point, hp, ?_⟩
    rw [(toBig_eq_iff _).mpr ht, (toBig_eq_iff _).mpr hh]

theorem getRegistration_address (epoch : UInt64) (account : Address) :
    getRegistration s epoch (toLowerHexWithoutPrefix account) =
      .ok (s.registrations.get (getEpochRegistrationKey epoch account.val)) := by
  simp only [getRegistration, getSignerKeyFromAccount, toLowerHexWithoutPrefix, decodeHex_encodeHex,
    orReject, ok_bind]
  rfl

theorem registeredEpoch_faithful_iff (account : Address) (epoch : UInt256) :
    (∀ out, registeredEpoch s account epoch = .ok out →
      (EpochQuery.registeredEpoch account epoch).entry env s = some out) ↔
      (EpochQuery.registeredEpoch account epoch).Faithful env s := by
  have hanswer : registeredEpoch s account epoch =
      .ok (s.registrations.get (getEpochRegistrationKey (low64 epoch) account.val)).isSome := by
    rw [registeredEpoch, getRegistration_address]
    rfl
  simp only [hanswer, Except.ok.injEq, forall_eq', EpochQuery.entry, EpochQuery.Faithful]
  by_cases hlt : epoch.val < 2 ^ 64
  · rw [exact64_of_lt hlt]
    simp only [getRegistration_address]
    exact ⟨fun _ _ _ => hlt, fun _ => rfl⟩
  · have hnone : exact64 epoch = none := if_neg hlt
    rw [hnone]
    dsimp only
    cases s.registrations.get (getEpochRegistrationKey (low64 epoch) account.val) with
    | none =>
      refine ⟨fun _ signature h => ?_, fun _ => rfl⟩
      cases h
    | some b =>
      refine ⟨fun h => ?_, fun h => absurd (h b rfl) hlt⟩
      cases h

/-- A query answers with the entry for the numbers it was asked for, and with none if there is
none, exactly if no entry is found under the low halves of larger numbers, and the counts
it returns have 63 bits. -/
theorem query_answers_exactly_iff (env : Env) (ctx : CallCtx) (evm : Evm) (w : World)
    (q : EpochQuery) :
    (∀ out, (dispatch env ctx evm w q.method q.args).1 = .ok out → q.entry env w.store = some out) ↔
      q.Faithful env w.store := by
  simp only [dispatch_epochQuery]
  cases q with
  | quorumCount epoch => exact quorumCount_faithful_iff epoch
  | getQuorum epoch quorumId => exact getQuorum_faithful_iff epoch quorumId
  | getQuorumRow epoch quorumId rowIndex => exact getQuorumRow_faithful_iff epoch quorumId rowIndex
  | getAggPkG1 epoch quorumId quorumBitmap =>
    exact getAggPkG1_faithful_iff epoch quorumId quorumBitmap
  | registeredEpoch account epoch => exact registeredEpoch_faithful_iff account epoch

end

def wrappedEpoch : UInt256 := 18446744073709551617

/-- Asked for epoch `2 ^ 64 + 1`, the contract answers for the first one. -/
theorem query_answers_other_epoch :
    quorumCount (Dasigners.run sampleAbi sampleEnv shortState shortOps) wrappedEpoch = .ok 1 ∧
    registeredEpoch (Dasigners.run sampleAbi sampleEnv shortState shortOps) sampleOrigin
      wrappedEpoch = .ok true ∧
    (EpochQuery.quorumCount wrappedEpoch).entry sampleEnv
      (Dasigners.run sampleAbi sampleEnv shortState shortOps) = none := by
  refine ⟨by decide +kernel, by decide +kernel, ?_⟩
  rfl

/-! ## Input that is no call -/

/-- A slice of bytes, and what the array behind it has after them. -/
structure Input where
  bytes : Bytes
  spare : Bytes

def Input.cap (input : Input) : Nat := input.bytes.length + input.spare.length

def requiredGasMax : Nat := 1000000000

def requiredGasBasic : Method → Nat
  | .epochNumber => 1000
  | .quorumCount => 1000
  | .getSigner => 100000
  | .getQuorum => 100000
  | .getQuorumRow => 10000
  | .registerSigner => 100000
  | .updateSocket => 50000
  | .registerNextEpoch => 100000
  | .getAggPkG1 => 1000000
  | .isSigner => 10000
  | .registeredEpoch => 10000

/-- The first four bytes are cut off without a look at the length, and the cut panics beyond the
capacity only. -/
def requiredGas (input : Input) : Except Error Nat := do
  rejectIf (input.cap < 4) sliceOutOfRange
  match methodById ((input.bytes ++ input.spare).take 4) with
  | none => return requiredGasMax
  | some m => return requiredGasBasic m

theorem requiredGas_returns_iff (input : Input) :
    (∃ gas, requiredGas input = .ok gas) ↔ 4 ≤ input.cap := by
  simp only [requiredGas, bind_eq_ok, rejectIf_eq_ok, not_lt]
  constructor
  · intro h
    obtain ⟨_, _, hcap, _⟩ := h
    exact hcap
  · intro hcap
    cases hm : methodById ((input.bytes ++ input.spare).take 4) with
    | none => exact ⟨_, (), hcap, rfl⟩
    | some m => exact ⟨_, (), hcap, rfl⟩

theorem decode_error {abi : Abi} {input : Bytes} {e : RunError} (h : decode abi input = .error e) :
    e = .executionReverted ∨ e = .unpack := by
  unfold decode at h
  by_cases hl : input.length < 4
  · simp only [rejectIf, hl, if_true, error_bind, Except.error.injEq] at h
    exact .inl h.symm
  · rw [rejectIf_neg hl, ok_bind] at h
    cases hm : methodById (input.take 4) with
    | none =>
      simp only [hm, orReject, error_bind, Except.error.injEq] at h
      exact .inl h.symm
    | some m =>
      cases ha : abi.unpack m (input.drop 4) with
      | none =>
        simp only [hm, ha, orReject, ok_bind, error_bind, Except.error.injEq] at h
        exact .inr h.symm
      | some args =>
        simp only [hm, ha, orReject, ok_bind] at h
        cases h

/-- For input that is no call of a method, gas is returned exactly if there is room for four
bytes; the call itself returns an error, no panic, and changes nothing. -/
theorem malformed_call_refused_iff (abi : Abi) (env : Env) (ctx : CallCtx) (evm : Evm)
    (contract : Contract) (readonly : Bool) (w : World) (spare : Bytes)
    (hbad : ∀ call, decode abi contract.input ≠ .ok call) :
    ((∃ gas, requiredGas ⟨contract.input, spare⟩ = .ok gas) ∧
      ∃ e, (e = .executionReverted ∨ e = .unpack) ∧
        run abi env ctx evm contract readonly w = (.error e, w)) ↔
          4 ≤ contract.input.length + spare.length := by
  have hrun : ∃ e, (e = .executionReverted ∨ e = .unpack) ∧
      run abi env ctx evm contract readonly w = (.error e, w) := by
    cases hd : decode abi contract.input with
    | ok call => exact absurd hd (hbad call)
    | error e =>
      refine ⟨e, decode_error hd, ?_⟩
      rw [run, hd]
  rw [requiredGas_returns_iff]
  exact ⟨fun h => h.1, fun h => ⟨h, hrun⟩⟩

/-- The empty input is no call, and no gas is computed for it. -/
theorem empty_input_panics : (∀ call, decode sampleAbi [] ≠ .ok call) ∧
    requiredGas ⟨[], []⟩ = .error sliceOutOfRange := by
  refine ⟨fun call h => ?_, rfl⟩
  cases h

theorem malformed_call_refused_iff_unknown :
    (∃ gas, requiredGas ⟨[1, 2, 3, 4], []⟩ = .ok gas) ∧
      ∃ e, (e = .executionReverted ∨ e = .unpack) ∧
        run sampleAbi sampleEnv sampleCtx ⟨sampleOrigin⟩ (sampleCall [1, 2, 3, 4]) false
          ⟨sampleState, []⟩ =
          (.error e, ⟨sampleState, []⟩) := by
  have hbad : ∀ call, decode sampleAbi [1, 2, 3, 4] ≠ .ok call := by
    intro call h
    cases h
  exact (malformed_call_refused_iff sampleAbi sampleEnv sampleCtx ⟨sampleOrigin⟩
    (sampleCall [1, 2, 3, 4]) false
    ⟨sampleState, []⟩ [] hbad).mpr (by decide)

end ZgChain.Dasigners.Precompile
