import ZgChain.Dasigners.Chain

/-!
# Epoch randomness

A stored registration is a signature of its account's key for its epoch, and as a
point it is unique. Its bytes are not: a coordinate and the same coordinate plus
the field's prime read as one point. The bytes, and the ballots derived from them,
are fixed by account, key and epoch up to the quotients of the coordinates by the
prime, so they are fixed when every signature has its coordinates below it.
-/

namespace ZgChain.Dasigners

open Bn254util

/-- For every message at most one point is a signature of the signer. -/
def UniqueSignatures (c : Curve) (signer : Signer) : Prop :=
  ∀ hash p q, signer.validateSignature c hash p = .ok true → signer.validateSignature c hash q =
    .ok true → p = q

/-- A registration of the operation has its coordinates below the prime. -/
def Op.Canonical (abi : Precompile.Abi) (op : Op) : Prop :=
  ∀ ctx msg, op.registration abi = some (ctx, msg) → quotients msg.signature = (0, 0)

def registration (s : State) (epoch : UInt64) (key : Bytes) : Option Bytes :=
  s.registrations.get (getEpochRegistrationKey epoch key)

structure Signed (env : Env) (s : State) (epoch : UInt64) (key b : Bytes) : Prop where
  length : b.length = g1PointSize
  checked : ∃ signer chainID, s.signers.get key = some signer ∧ env.chainID = some chainID ∧
    checkSignature env signer
      (epochRegistrationHash env.curve (bytesToAddress key) epoch chainID) b = .ok ()

section
variable {abi : Precompile.Abi} {env : Env} {op : Op} {s s' : State} {epoch : UInt64}
  {key a b : Bytes}
  {signer signer' : Signer}

/-! ## Stored registrations are signed -/

theorem SameKeys.validateSignature (h : SameKeys signer signer') (c : Curve) (hash p : G1Affine) :
    signer.validateSignature c hash p = signer'.validateSignature c hash p := by
  unfold Signer.validateSignature
  rw [h.1, h.2]

theorem SameKeys.checkSignature (h : SameKeys signer signer') (hash : Option G1Affine) (b : Bytes) :
    checkSignature env signer hash b = checkSignature env signer' hash b := by
  simp only [Dasigners.checkSignature, h.validateSignature]

theorem Signed.mono (h : Signed env s epoch key b) (hk : KeepsKeys s s') :
    Signed env s' epoch key b := by
  obtain ⟨signer, chainID, hs, hc, hsig⟩ := h.checked
  obtain ⟨signer', hs', hkeys⟩ := hk key signer hs
  exact ⟨h.length, signer', chainID, hs', hc, (hkeys.checkSignature _ _).trans hsig⟩

theorem Accepts.signed (h : Accepts abi env s op epoch key b) : Signed env s epoch key b := by
  obtain ⟨ctx, msg, s', n, ho, hr, hn, rfl, hk, rfl⟩ := h
  obtain ⟨key', signer, n', chainID, hk', hs, hn', hc, hsig, _⟩ := registerNextEpoch_ok hr
  cases hk.symm.trans hk'
  cases hn.symm.trans hn'
  exact ⟨registration_length ho, signer, chainID, hs, hc, hsig⟩

theorem Accepts.stored (h : Accepts abi env s op epoch key b) :
    registration (step abi env s op) epoch key = some b := by
  obtain ⟨ctx, msg, s', n, ho, hr, hn, rfl, hk, rfl⟩ := h
  obtain ⟨key', _, n', _, hk', _, hn', _, _, rfl⟩ := registerNextEpoch_ok hr
  cases hk.symm.trans hk'
  cases hn.symm.trans hn'
  rw [step_registration ho hr]
  exact KVStore.get_set_self _ _ _

theorem Accepts.quotients (h : Accepts abi env s op epoch key b) (hc : op.Canonical abi) :
    quotients b = (0, 0) := by
  obtain ⟨ctx, msg, _, _, ho, _, _, _, _, rfl⟩ := h
  exact hc ctx msg ho

/-- Every stored registration is signed, and has the property `P` of the bytes that were sent. -/
def RegistrationInv (env : Env) (P : Bytes → Prop) (s : State) : Prop :=
  ∀ epoch key b, registration s epoch key = some b → P b ∧ Signed env s epoch key b

/-- Only an accepted registration writes; everything else keeps the entry. -/
theorem Evolves.registration (h : Evolves abi env op s s')
    (hb : registration s' epoch key = some b) :
    Accepts abi env s op epoch key b ∨ registration s epoch key = some b := by
  cases h with
  | keep _ hr =>
    rw [Dasigners.registration, hr] at hb
    exact .inr hb
  | signer _ _ => exact .inr hb
  | socket _ _ => exact .inr hb
  | @register epoch' key' b' ha =>
    by_cases e : getEpochRegistrationKey epoch key = getEpochRegistrationKey epoch' key'
    · obtain ⟨rfl, rfl⟩ := getEpochRegistrationKey_inj e
      have hb' : some b' = some b := (KVStore.get_set_self _ _ _).symm.trans hb
      cases hb'
      exact .inl ha
    · exact .inr ((KVStore.get_set_ne _ e _).symm.trans hb)

theorem RegistrationInv.step {P : Bytes → Prop}
    (hP : ∀ ctx msg, op.registration abi = some (ctx, msg) → P msg.signature)
    (h : RegistrationInv env P s) : RegistrationInv env P (step abi env s op) := by
  have hstep : Evolves abi env op s (Dasigners.step abi env s op) := step_evolves s op
  intro epoch key b hb
  rcases hstep.registration hb with ha | hb
  · obtain ⟨ctx, msg, _, _, ho, _, _, _, _, rfl⟩ := id ha
    exact ⟨hP ctx msg ho, ha.signed.mono hstep.keepsKeys⟩
  · obtain ⟨hp, hs⟩ := h epoch key b hb
    exact ⟨hp, hs.mono hstep.keepsKeys⟩

theorem RegistrationInv.run {P : Bytes → Prop} {gs : GenesisState} (h₀ : initGenesis gs = .ok s)
    {ops : List Op}
    (hP : ∀ op ∈ ops, ∀ ctx msg, op.registration abi = some (ctx, msg) → P msg.signature) :
    RegistrationInv env P (run abi env s ops) := by
  refine runSteps_inv (Dasigners.step abi env) (fun s op hop h => h.step hop) ?_ ops hP
  intro epoch key b hb
  rw [registration, (initGenesis_ok h₀).2.registrations] at hb
  cases hb

theorem registration_signed {gs : GenesisState} (h₀ : initGenesis gs = .ok s) {ops : List Op}
    (hb : registration (Dasigners.run abi env s ops) epoch key = some b) :
    Signed env (Dasigners.run abi env s ops) epoch key b :=
  (RegistrationInv.run (P := fun _ => True) h₀ (fun _ _ _ _ _ => trivial) epoch key b hb).2

theorem registration_canonical {gs : GenesisState} (h₀ : initGenesis gs = .ok s) {ops : List Op}
    (hc : ∀ op ∈ ops, op.Canonical abi)
    (hb : registration (Dasigners.run abi env s ops) epoch key = some b) :
    quotients b = (0, 0) :=
  (RegistrationInv.run (P := fun b => quotients b = (0, 0)) h₀ hc epoch key b hb).1

/-! ## The bytes of a signature -/

theorem Signed.eq_iff (ha : Signed env s epoch key a) (hb : Signed env s' epoch key b)
    (hs : s.signers.get key = some signer) (hs' : s'.signers.get key = some signer')
    (hkeys : SameKeys signer' signer) (hu : UniqueSignatures env.curve signer) :
    a = b ↔ quotients a = quotients b := by
  obtain ⟨signer₁, chainID, hs₁, hc, hsig⟩ := ha.checked
  obtain ⟨signer₂, chainID', hs₂, hc', hsig'⟩ := hb.checked
  cases hs.symm.trans hs₁
  cases hs'.symm.trans hs₂
  cases hc.symm.trans hc'
  rw [hkeys.checkSignature] at hsig'
  obtain ⟨hash, p, hh, hp, hvalid⟩ := checkSignature_ok.mp hsig
  obtain ⟨hash', q, hh', hq, hvalid'⟩ := checkSignature_ok.mp hsig'
  cases hh.symm.trans hh'
  cases hu hash p q hvalid hvalid'
  exact eq_iff_quotients ha.length hb.length hp hq

theorem castBallots_eq_iff (c : Curve) (account : String) (n : Nat) (a b : Bytes) :
    castBallots c account n a = castBallots c account n b ↔ n = 0 ∨ a = b := by
  cases n with
  | zero => simp [castBallots]
  | succ n =>
    constructor
    · intro h
      simp only [castBallots, List.cons.injEq, Ballot.mk.injEq] at h
      exact .inr h.1.2
    · intro h
      rw [h.resolve_left (Nat.succ_ne_zero n)]

end

/-! ## A signature in two encodings

The account signs with the secret key one, so its signature is the hash itself. The
table has the values of the curve that the check of this signature asks for. -/

def sampleAccount : Bytes := List.replicate 20 0x11

def sampleHash : G1Affine :=
  ⟨5852655257325337180440204316340994879743293032843196312138749579788402842667,
    16668237961576037788375943738021161174894275664172766893367674153154288477320⟩

def sampleMultiple : G1Affine :=
  ⟨15496599232463710654431190424696479056658843284732561964826758705474840635525,
    16464355999108563254612510160962060100263615448724094852759578600926503065516⟩

def sampleSum : G1Affine :=
  ⟨6081959158499846033607834307833042349690256085101915922117824205371214729250,
    16446753004593939300143852061401157629032617307178797639851519911554018658458⟩

def sampleKeccak256 (b : Bytes) : Bytes :=
  if b = sampleAccount ++ beBytes 8 1 ++ beBytes 32 16600 then
    beBytes 32 71517383872843162847179421552112820145832226504736667300205863263724081468415
  else if b = serializeG1 sampleHash ++ serializeG1 sampleHash ++ serializeG1 getG1Generator ++
      serializeG2 getG2Generator then
    beBytes 32 105779967887740978717603224702674780989851418461814889536068706966834073258967
  else []

def sampleAdd (p q : G1Affine) : G1Affine :=
  if q = ⟨0, 0⟩ then p else Equiv.swap sampleHash sampleSum p

def sampleCurve : Curve where
  keccak256 := sampleKeccak256
  modSqrt y :=
    if y = 8896439651331648356693533373593483561188395251870589347611029034959969776580 then
      some sampleHash.y.val
    else none
  add := sampleAdd
  scalarMultiplication _ n := if n = 0 then ⟨0, 0⟩ else sampleMultiple
  neg q := ⟨q.x, ⟨-q.y.a0, -q.y.a1⟩⟩
  pairingCheck p q := some (decide (p[0]? = p[1]? ∧ q = [⟨getG2Generator.x,
    ⟨-getG2Generator.y.a0, -getG2Generator.y.a1⟩⟩, getG2Generator]))

def sampleEnv : Env := ⟨sampleCurve, some 16600⟩

def sampleSigner : Signer :=
  ⟨encodeHex sampleAccount, "a", serializeG1 getG1Generator, serializeG2 getG2Generator⟩

def sampleGenesis : GenesisState := { defaultGenesisState with signers := [sampleSigner] }

def sampleState : State := orElseKeep emptyState (initGenesis sampleGenesis)

theorem sampleShares_pos : 0 < (wholeShares (10 ^ 7)).val.val := by decide

def sampleValidator : Validator := ⟨10 ^ 7, (wholeShares (10 ^ 7)).val, sampleShares_pos⟩

def sampleStaking : Staking where
  delegations a := if a = sampleAccount then [⟨[1], wholeShares (10 ^ 7)⟩] else []
  getValidator v := if v = [1] then some sampleValidator else none

def sampleCtx : CallCtx := ⟨.atHeight 1 0, sampleStaking⟩

def sampleOrigin : Precompile.Address := ⟨sampleAccount, rfl⟩

/-- An address that is no signer. -/
def strangerAddress : Precompile.Address := ⟨List.replicate 20 0x22, rfl⟩

def sampleSocketArgs : Bytes := beBytes 32 32 ++ beBytes 32 1 ++ strBytes "b" ++ List.replicate 31 0

def sampleAbi : Precompile.Abi where
  unpack
    | .registerNextEpoch, b =>
      if b.length < 64 then none else some ⟨Precompile.readWord b 0, Precompile.readWord b 1⟩
    | .updateSocket, b => if b = sampleSocketArgs then some "b" else none
    | _, _ => none
  pack _ _ := []

def sampleCall (input : Bytes) : Precompile.Contract := ⟨sampleOrigin, input, 100000⟩

def sampleMsgOp : Op :=
  .registerNextEpoch sampleCtx ⟨encodeHex sampleAccount, serializeG1 sampleHash⟩

/-- The signature with the prime added to its first coordinate. -/
def shiftedPoint : Precompile.G1Point :=
  ⟨Fin.ofNat (2 ^ 256) (sampleHash.x.val + fpModulus), Fin.ofNat (2 ^ 256) sampleHash.y.val⟩

def shiftedSignature : Bytes := Precompile.serializeG1 shiftedPoint

def sampleCallOp : Op :=
  .precompile sampleCtx ⟨sampleOrigin⟩
    (sampleCall ([0x56, 0xa3, 0x23, 0x72] ++ shiftedSignature)) false

theorem initGenesis_sampleState : initGenesis sampleGenesis = .ok sampleState := by
  have hpubkeyG2 : (serializeG2 getG2Generator).length = g2PointSize := by
    simp [serializeG2, Fp.bytes, g2PointSize]
  have hsigner : sampleSigner.validate = .ok () :=
    Signer.validate_ok.mpr
      ⟨length_serializeG1 _, hpubkeyG2, validateHexAddress_of_decodes (decodeHex_encodeHex _) rfl⟩
  have hvalid : sampleGenesis.validate = .ok () := by
    refine GenesisState.validate_ok.mpr ⟨fun signer hs => ?_, rfl, fun account ha => ?_⟩
    · rw [List.mem_singleton.mp hs]
      exact hsigner
    · cases ha
  exact eq_ok_orElseKeep (initGenesis_returns hvalid) emptyState

theorem sampleAdd_injective (q : G1Affine) : Function.Injective fun p => sampleAdd p q := by
  intro p p' h
  simp only [sampleAdd] at h
  split at h
  · exact h
  · exact (Equiv.swap sampleHash sampleSum).injective h

theorem sampleCurve_pairingCheck {p : List G1Affine} {q : List G2Affine}
    (h : (sampleCurve.pairingCheck p q).getD false = true) : p[0]? = p[1]? :=
  (of_decide_eq_true h).1

theorem sampleCurve_scalarMultiplication (p q : G1Affine) (n : Nat) :
    sampleCurve.scalarMultiplication p n = sampleCurve.scalarMultiplication q n := rfl

theorem sampleCurve_uniqueSignatures (signer : Signer) : UniqueSignatures sampleCurve signer := by
  have hself : ∀ hash p, signer.validateSignature sampleCurve hash p = .ok true → p = hash := by
    intro hash p h
    simp only [Signer.validateSignature, bind_eq_ok, orReject_eq_ok, pure_eq_ok] at h
    obtain ⟨pubkeyG1, _, pubkeyG2, _, h⟩ := h
    have hsum := Option.some.inj (sampleCurve_pairingCheck h)
    rw [sampleCurve_scalarMultiplication getG1Generator pubkeyG1] at hsum
    exact sampleAdd_injective _ hsum
  intro hash p q hp hq
  rw [hself hash p hp, hself hash q hq]

theorem Accepts.intro {abi : Precompile.Abi} {env : Env} {op : Op} {s : State} {ctx : CallCtx}
    {msg : MsgRegisterNextEpoch} {n : UInt64} {key : Bytes}
    (ho : op.registration abi = some (ctx, msg))
    (hr : ∃ s', registerNextEpoch env ctx s msg = .ok s') (hn : s.epochNumber = some n)
    (hk : decodeHex msg.account = some key) : Accepts abi env s op (n + 1) key msg.signature := by
  obtain ⟨s', hr⟩ := hr
  exact ⟨ctx, msg, s', n, ho, hr, hn, rfl, hk, rfl⟩

/-- A registration does not change what is asked of later ones. -/
theorem Accepts.again {abi : Precompile.Abi} {env : Env} {op op' : Op} {s : State} {ctx' : CallCtx}
    {msg' : MsgRegisterNextEpoch} {epoch n : UInt64} {key key' b : Bytes}
    (h : Accepts abi env s op epoch key b) (ho' : op'.registration abi = some (ctx', msg'))
    (hr' : ∃ s', registerNextEpoch env ctx' s msg' = .ok s')
    (hn : s.epochNumber = some n) (hk' : decodeHex msg'.account = some key') :
    Accepts abi env (step abi env s op) op' (n + 1) key' msg'.signature := by
  obtain ⟨ctx, msg, s₁, _, ho, hr, _⟩ := h
  rw [step_registration ho hr]
  obtain ⟨_, _, _, _, _, _, _, _, _, rfl⟩ := registerNextEpoch_ok hr
  refine Accepts.intro ho' ?_ hn hk'
  simp only [registerNextEpoch, bind_eq_ok] at hr' ⊢
  obtain ⟨_, _, hd, found, hf, signer, hs, m, hm, chainID, hc, _, hsig, _⟩ := hr'
  exact ⟨_, _, hd, found, hf, signer, hs, m, hm, chainID, hc, _, hsig, rfl⟩

theorem sampleState_epochNumber : sampleState.epochNumber = some 0 :=
  (initGenesis_ok initGenesis_sampleState).2.epochNumber

theorem sampleMsgOp_accepted :
    Accepts sampleAbi sampleEnv sampleState sampleMsgOp 1 sampleAccount
      (serializeG1 sampleHash) := by
  have hv : ∃ u, (⟨encodeHex sampleAccount, serializeG1 sampleHash⟩ :
      MsgRegisterNextEpoch).validateBasic = .ok u := by
    decide +kernel
  obtain ⟨u, hv⟩ := hv
  exact Accepts.intro (registration_msg hv) (by decide +kernel) sampleState_epochNumber
    (decodeHex_encodeHex _)

theorem sampleCallOp_accepted :
    Accepts sampleAbi sampleEnv (run sampleAbi sampleEnv sampleState [sampleMsgOp]) sampleCallOp 1
      sampleAccount
      shiftedSignature := by
  have hd : Precompile.decode sampleAbi ([0x56, 0xa3, 0x23, 0x72] ++ shiftedSignature) =
      .ok ⟨.registerNextEpoch, shiftedPoint⟩ := by
    obtain ⟨hx, hy⟩ := Precompile.readWord_serializeG1 shiftedPoint
    refine Precompile.decode_ok.mpr ⟨by decide +kernel, by decide +kernel, ?_⟩
    show (if shiftedSignature.length < 64 then none
      else some (⟨Precompile.readWord shiftedSignature 0, Precompile.readWord shiftedSignature 1⟩ :
        Precompile.G1Point)) = some shiftedPoint
    rw [if_neg (by decide +kernel), shiftedSignature, hx, hy]
  rw [run, runSteps_cons, runSteps_nil]
  exact sampleMsgOp_accepted.again (registration_call hd) (by decide +kernel)
    sampleState_epochNumber (decodeHex_encodeHex _)

theorem sampleState_signer : sampleState.signers.get sampleAccount = some sampleSigner := by
  have hkey : signerKey sampleSigner = sampleAccount :=
    signerKey_of_decodes (decodeHex_encodeHex sampleAccount)
  rw [(initGenesis_ok initGenesis_sampleState).2.signers, ← hkey]
  exact KVStore.get_set_self _ _ _

theorem run_sampleMsgOp_stored :
    registration (run sampleAbi sampleEnv sampleState [sampleMsgOp]) 1 sampleAccount =
      some (serializeG1 sampleHash) := by
  rw [run, runSteps_cons, runSteps_nil]
  exact sampleMsgOp_accepted.stored

theorem run_sampleCallOp_stored :
    registration (run sampleAbi sampleEnv sampleState [sampleMsgOp, sampleCallOp]) 1 sampleAccount =
      some shiftedSignature := by
  have h := run_concat sampleAbi sampleEnv sampleState [sampleMsgOp] sampleCallOp
  rw [List.singleton_append] at h
  rw [h]
  exact sampleCallOp_accepted.stored

end ZgChain.Dasigners
