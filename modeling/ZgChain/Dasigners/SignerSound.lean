import ZgChain.Dasigners.EpochSound

/-!
# Signers through the contract

A record is written from the detail that a signer registers with, and read back as that
detail: the coordinates are words of 32 bytes and the account is the text of the
address. A lookup of several addresses has one entry for each of them, but the keeper
answers nothing at all if one of them has no record, and the contract reads that answer.
-/

namespace ZgChain.Dasigners.Precompile

open Bn254util

/-! ## Words and points -/

theorem beBytes_readWord {b : Bytes} {i : Nat} (h : 32 * (i + 1) ≤ b.length) :
    beBytes 32 (readWord b i).val = word b i := by
  have hlen : (word b i).length = 32 := by
    rw [word, List.length_take, List.length_drop]
    omega
  have hlt : beToNat (word b i) < 2 ^ 256 := by
    have hbound := beToNat_lt (word b i)
    rw [hlen] at hbound
    exact lt_of_lt_of_eq hbound (by norm_num)
  have hval : (readWord b i).val = beToNat (word b i) := Nat.mod_eq_of_lt hlt
  have hback := beBytes_beToNat (word b i)
  rw [hlen] at hback
  rw [hval, hback]

theorem word_append_drop (b : Bytes) (i : Nat) :
    word b i ++ b.drop (32 * (i + 1)) = b.drop (32 * i) := by
  rw [word, Nat.mul_succ, ← List.drop_drop, List.take_append_drop]

theorem serializeG1_readWord {b : Bytes} (h : b.length = g1PointSize) :
    serializeG1 ⟨readWord b 0, readWord b 1⟩ = b := by
  have hlen : b.length = 64 := h
  rw [serializeG1, beBytes_readWord (by omega), beBytes_readWord (by omega)]
  exact words_eq h

theorem serializeG2_readWord {b : Bytes} (h : b.length = g2PointSize) :
    serializeG2 ⟨(readWord b 0, readWord b 1), (readWord b 2, readWord b 3)⟩ = b := by
  have hlen : b.length = 128 := h
  have hend : b.drop (32 * (3 + 1)) = [] := List.drop_eq_nil_of_le (by omega)
  have h₃ := word_append_drop b 3
  rw [hend, List.append_nil] at h₃
  rw [serializeG2, beBytes_readWord (by omega), beBytes_readWord (by omega),
    beBytes_readWord (by omega), beBytes_readWord (by omega), List.append_assoc, List.append_assoc,
    h₃, word_append_drop b 2, word_append_drop b 1]
  exact word_append_drop b 0

theorem beBytes_word_inj {m n : UInt256} (h : beBytes 32 m.val = beBytes 32 n.val) : m = n := by
  have hsize : 2 ^ 256 = 256 ^ 32 := by norm_num
  exact Fin.ext (beBytes_injective (lt_of_lt_of_eq m.isLt hsize) (lt_of_lt_of_eq n.isLt hsize) h)

theorem serializeG1_inj {p q : G1Point} (h : serializeG1 p = serializeG1 q) : p = q := by
  obtain ⟨hx, hy⟩ := List.append_inj h (by simp)
  exact congrArg₂ G1Point.mk (beBytes_word_inj hx) (beBytes_word_inj hy)

theorem serializeG2_inj {p q : G2Point} (h : serializeG2 p = serializeG2 q) : p = q := by
  obtain ⟨h, hy₁⟩ := List.append_inj h (by simp)
  obtain ⟨h, hy₀⟩ := List.append_inj h (by simp)
  obtain ⟨hx₀, hx₁⟩ := List.append_inj h (by simp)
  have hx : p.x = q.x := Prod.ext (beBytes_word_inj hx₀) (beBytes_word_inj hx₁)
  have hy : p.y = q.y := Prod.ext (beBytes_word_inj hy₀) (beBytes_word_inj hy₁)
  exact congrArg₂ G2Point.mk hx hy

/-! ## Details -/

structure Shows (account : Address) (signer : Signer) (detail : SignerDetail) : Prop where
  address : detail.signer = account
  socket : detail.socket = signer.socket
  pkG1 : serializeG1 detail.pkG1 = signer.pubkeyG1
  pkG2 : serializeG2 detail.pkG2 = signer.pubkeyG2

theorem ofHex_eq {account : Address} {text : String} (h : decodeHex text = some account.val) :
    Address.ofHex text = account := by
  have hval : (Address.ofHex text).val = bytesToAddress account.val := hexToAddress_of_decodes h
  rw [bytesToAddress_of_length account.property] at hval
  exact Subtype.ext hval

theorem newIDASignersSignerDetail_shows {account : Address} {signer : Signer}
    (hv : signer.validate = .ok ()) (hk : decodeHex signer.account = some account.val) :
    ∃ detail, newIDASignersSignerDetail signer = .ok detail ∧ Shows account signer detail := by
  obtain ⟨h₁, h₂, _⟩ := Signer.validate_ok.mp hv
  refine ⟨⟨.ofHex signer.account, signer.socket,
    ⟨readWord signer.pubkeyG1 0, readWord signer.pubkeyG1 1⟩,
    ⟨(readWord signer.pubkeyG2 0, readWord signer.pubkeyG2 1),
      (readWord signer.pubkeyG2 2, readWord signer.pubkeyG2 3)⟩⟩,
    ?_, ofHex_eq hk, rfl, serializeG1_readWord h₁, serializeG2_readWord h₂⟩
  rw [newIDASignersSignerDetail, newBN254G1Point, rejectIf_neg (by omega), newBN254G2Point,
    rejectIf_neg (by omega)]
  rfl

theorem Shows.unique {account : Address} {signer : Signer} {detail detail' : SignerDetail}
    (h : Shows account signer detail) (h' : Shows account signer detail') : detail = detail' := by
  obtain ⟨a, b, c, d⟩ := detail
  obtain ⟨a', b', c', d'⟩ := detail'
  have ha : a = a' := h.address.trans h'.address.symm
  have hb : b = b' := h.socket.trans h'.socket.symm
  have hc : c = c' := serializeG1_inj (h.pkG1.trans h'.pkG1.symm)
  have hd : d = d' := serializeG2_inj (h.pkG2.trans h'.pkG2.symm)
  rw [ha, hb, hc, hd]

/-! ## Lookups -/

section
variable {s : State}

/-- All the records, or none of them. -/
theorem signer_eq (s : State) (accounts : List Address) :
    Query.signer s (accounts.map toLowerHexWithoutPrefix) =
      .ok (accounts.mapM fun account => s.signers.get account.val) := by
  induction accounts with
  | nil => rfl
  | cons account rest ih =>
    have hfound : Dasigners.getSigner s (toLowerHexWithoutPrefix account) =
        .ok (s.signers.get account.val) :=
      getSigner_ok.mpr ⟨account.val, decodeHex_encodeHex _, rfl⟩
    rw [List.map_cons, Query.signer, hfound, ok_bind, List.mapM_cons]
    cases s.signers.get account.val with
    | none => rfl
    | some signer =>
      dsimp only
      rw [ih, ok_bind]
      cases rest.mapM fun account => s.signers.get account.val with
      | none => rfl
      | some signers => rfl

def Shown (s : State) (account : Address) (detail : SignerDetail) : Prop :=
  ∃ signer, s.signers.get account.val = some signer ∧ Shows account signer detail

/-- An error but no panic, or one entry for each address, in their order, that shows its record.
An address without a record leaves only the error. -/
def Answered (s : State) (accounts : List Address) : Except Error (List SignerDetail) → Prop
  | .error e => ∀ text, e ≠ .panic text
  | .ok details => List.Forall₂ (Shown s) accounts details

theorem mapM_records_none {accounts : List Address}
    (h : ∃ account ∈ accounts, s.signers.get account.val = none) :
    (accounts.mapM fun account => s.signers.get account.val) = none := by
  induction accounts with
  | nil =>
    obtain ⟨_, ha, _⟩ := h
    cases ha
  | cons account rest ih =>
    rw [List.mapM_cons]
    cases hs : s.signers.get account.val with
    | none => rfl
    | some signer =>
      obtain ⟨account', ha, hnone⟩ := h
      have hrest : account' ∈ rest := by
        rcases List.mem_cons.mp ha with rfl | ha
        · rw [hs] at hnone
          cases hnone
        · exact ha
      rw [ih ⟨account', hrest, hnone⟩]
      rfl

theorem mapM_records_shown (hv : SignersValid s) {accounts : List Address}
    (h : ∀ account ∈ accounts, ∃ signer, s.signers.get account.val = some signer) :
    ∃ signers details, (accounts.mapM fun account => s.signers.get account.val) = some signers ∧
      signers.mapM newIDASignersSignerDetail = .ok details ∧
      List.Forall₂ (Shown s) accounts details := by
  induction accounts with
  | nil => exact ⟨[], [], rfl, rfl, .nil⟩
  | cons account rest ih =>
    obtain ⟨signer, hs⟩ := h account List.mem_cons_self
    obtain ⟨signers, details, hrest, hdetails, hshown⟩ :=
      ih fun a ha => h a (List.mem_cons_of_mem _ ha)
    obtain ⟨detail, hd, hshows⟩ :=
      newIDASignersSignerDetail_shows (hv _ signer hs) (s.keyed _ signer hs)
    refine ⟨signer :: signers, detail :: details, ?_, ?_, .cons ⟨signer, hs, hshows⟩ hshown⟩
    · rw [List.mapM_cons, hs, hrest]
      rfl
    · rw [List.mapM_cons, hd, hdetails]
      rfl

theorem getSigner_eq (s : State) (accounts : List Address) : getSigner s accounts =
    (orReject (accounts.mapM fun account => s.signers.get account.val)
      (.panic "invalid memory address or nil pointer dereference")).bind
        (·.mapM newIDASignersSignerDetail) := by
  rw [getSigner, signer_eq]
  rfl

theorem getSigner_congr {s' : State} {accounts : List Address}
    (h : ∀ account ∈ accounts, s'.signers.get account.val = s.signers.get account.val) :
    getSigner s' accounts = getSigner s accounts := by
  have hrecords : (accounts.mapM fun account => s'.signers.get account.val) =
      accounts.mapM fun account => s.signers.get account.val := by
    induction accounts with
    | nil => rfl
    | cons account rest ih =>
      rw [List.mapM_cons, List.mapM_cons, h account List.mem_cons_self,
        ih fun a ha => h a (List.mem_cons_of_mem _ ha)]
  rw [getSigner_eq, getSigner_eq, hrecords]

theorem getSigner_shown (hv : SignersValid s) {accounts : List Address}
    (h : ∀ account ∈ accounts, ∃ signer, s.signers.get account.val = some signer) :
    ∃ details, getSigner s accounts = .ok details ∧ List.Forall₂ (Shown s) accounts details := by
  obtain ⟨signers, details, hsigners, hdetails, hshown⟩ := mapM_records_shown hv h
  refine ⟨details, ?_, hshown⟩
  rw [getSigner_eq, hsigners]
  exact hdetails

end

/-- In every state that is reached, a lookup is answered exactly if every address has a record.
Otherwise it panics. -/
theorem getSigner_answered_iff (abi : Abi) (env : Env) {gs : GenesisState} {s₀ : State}
    (h₀ : initGenesis gs = .ok s₀) (ops : List Op) (accounts : List Address) :
    Answered (Dasigners.run abi env s₀ ops) accounts
      (getSigner (Dasigners.run abi env s₀ ops) accounts) ↔
      ∀ account ∈ accounts, ∃ signer, (Dasigners.run abi env s₀ ops).signers.get account.val =
        some signer := by
  constructor
  · intro hanswered account ha
    by_contra hmissing
    have hnone : (Dasigners.run abi env s₀ ops).signers.get account.val = none := by
      rw [Option.eq_none_iff_forall_ne_some]
      intro signer hs
      exact hmissing ⟨signer, hs⟩
    rw [getSigner_eq, mapM_records_none ⟨account, ha, hnone⟩] at hanswered
    exact hanswered _ rfl
  · intro hall
    obtain ⟨details, hdetails, hshown⟩ := getSigner_shown (signersValid_run h₀ ops) hall
    rw [hdetails]
    exact hshown

theorem getSigner_answered_twice :
    Answered sampleState [sampleOrigin, sampleOrigin]
      (getSigner sampleState [sampleOrigin, sampleOrigin]) ∧
    ∃ details, getSigner sampleState [sampleOrigin, sampleOrigin] = .ok details ∧
      details.length = 2 := by
  have hiff := getSigner_answered_iff sampleAbi sampleEnv initGenesis_sampleState []
    [sampleOrigin, sampleOrigin]
  rw [Dasigners.run, runSteps_nil] at hiff
  constructor
  · rw [hiff]
    intro account ha
    have hsame : account = sampleOrigin := by
      rcases List.mem_cons.mp ha with rfl | ha
      · rfl
      · exact List.mem_singleton.mp ha
    rw [hsame]
    exact ⟨_, sampleState_signer⟩
  · decide +kernel

/-- The second address has no record. -/
theorem getSigner_panics : sampleState.signers.get strangerAddress.val = none ∧
    getSigner sampleState [sampleOrigin, strangerAddress] =
      .error (.panic "invalid memory address or nil pointer dereference") := by
  decide +kernel

/-! ## Registration -/

section
variable {abi : Abi} {env : Env} {s s' : State} {op : Op} {key : Bytes} {signer : Signer}

def KeepsSocket (abi : Abi) (key : Bytes) (op : Op) : Prop :=
  ∀ msg, op.socketUpdate abi = some msg → decodeHex msg.account ≠ some key

theorem step_keeps_record (hop : KeepsSocket abi key op) (hs : s.signers.get key = some signer) :
    (step abi env s op).signers.get key = some signer := by
  refine step_rule (P := fun s' => s'.signers.get key = some signer) hs ?_ ?_ ?_ ?_
  · intro ctx msg s' _ h
    obtain ⟨key', hk, hnew, rfl⟩ := registerSigner_ok h
    have hne : key ≠ key' := by
      intro e
      rw [e, hnew] at hs
      cases hs
    exact (KVStore.get_set_ne _ hne _).trans hs
  · intro msg s' hmsg h
    obtain ⟨key', signer', hs', hk, rfl⟩ := updateSocket_ok.mp h
    have hne : key ≠ key' := by
      intro e
      rw [← e] at hk
      exact hop msg hmsg hk
    exact (KVStore.get_set_ne _ hne _).trans hs
  · intro ctx msg s' _ h
    obtain ⟨_, _, _, _, _, _, _, _, _, rfl⟩ := registerNextEpoch_ok h
    exact hs
  · intro ctx s' _ h
    rw [(beginBlock_frame h).1]
    exact hs

theorem run_keeps_record (hs : s.signers.get key = some signer) (ops : List Op)
    (hops : ∀ op ∈ ops, KeepsSocket abi key op) :
    (Dasigners.run abi env s ops).signers.get key = some signer := by
  have hstep : ∀ s₁ op, KeepsSocket abi key op → s₁.signers.get key = some signer →
      (step abi env s₁ op).signers.get key = some signer := fun _ _ hop h => step_keeps_record hop h
  exact runSteps_inv (step abi env) hstep hs ops hops

theorem registerSigner_stores {ctx : CallCtx} {evm : Evm} {w w' : World} {detail : SignerDetail}
    {signature : G1Point} (h : registerSigner env ctx evm w detail signature = (.ok (), w')) :
    w'.store.signers = w.store.signers.set detail.signer.val
      (newMsgRegisterSigner detail signature).signer := by
  unfold registerSigner at h
  dsimp only at h
  split at h
  · cases h
  · cases hr : Dasigners.registerSigner env ctx w.store (newMsgRegisterSigner detail signature) with
    | error e =>
      rw [hr] at h
      cases h
    | ok s' =>
      rw [hr] at h
      cases h
      obtain ⟨key, hk, _, rfl⟩ := registerSigner_ok hr
      have hkey : detail.signer.val = key := Option.some.inj ((decodeHex_encodeHex _).symm.trans hk)
      rw [hkey]
      rfl

theorem getSigner_of_record {account : Address} (hv : signer.validate = .ok ())
    {detail : SignerDetail}
    (hshows : Shows account signer detail) (hk : decodeHex signer.account = some account.val)
    (hs : s.signers.get account.val = some signer) : getSigner s [account] = .ok [detail] := by
  obtain ⟨detail', hd, hshows'⟩ := newIDASignersSignerDetail_shows hv hk
  rw [getSigner_eq, List.mapM_cons, hs, hshows.unique hshows']
  exact congrArg (fun x => x >>= fun d => pure [d]) hd

end

/-- A detail that was registered is read back, in the state that results and after
everything that follows as long as the account does not change its socket. The lookup of
other addresses gives what it gave before. -/
theorem registered_detail_returned (abi : Abi) (env : Env) (ctx : CallCtx) (evm : Evm)
    {w w' : World} {detail : SignerDetail} {signature : G1Point}
    (h : registerSigner env ctx evm w detail signature = (.ok (), w')) :
    getSigner w'.store [detail.signer] = .ok [detail] ∧
    (∀ later : List Op, (∀ op ∈ later, KeepsSocket abi detail.signer.val op) →
      getSigner (Dasigners.run abi env w'.store later) [detail.signer] = .ok [detail]) ∧
    ∀ accounts, detail.signer ∉ accounts →
      getSigner w'.store accounts = getSigner w.store accounts := by
  have hstore := registerSigner_stores h
  have hrecord : w'.store.signers.get detail.signer.val =
      some (newMsgRegisterSigner detail signature).signer := by
    rw [hstore, KVStore.get_set_self]
  have hshows : Shows detail.signer (newMsgRegisterSigner detail signature).signer detail :=
    ⟨rfl, rfl, rfl, rfl⟩
  have hlookup : ∀ s : State, s.signers.get detail.signer.val =
      some (newMsgRegisterSigner detail signature).signer →
      getSigner s [detail.signer] = .ok [detail] := fun s hs =>
    getSigner_of_record (newMsgRegisterSigner_valid detail signature) hshows
      (decodeHex_encodeHex _) hs
  refine ⟨hlookup _ hrecord, fun later hlater => hlookup _ (run_keeps_record hrecord later hlater),
    fun accounts hother => ?_⟩
  refine getSigner_congr fun account ha => ?_
  have hne : account.val ≠ detail.signer.val := by
    intro e
    exact hother (Subtype.ext e ▸ ha)
  rw [hstore, KVStore.get_set_ne _ hne]

/-! A registration of the account with the secret key one: its keys are the generators and
its signature
is the point it signs. The operations of the curve are tabulated where the registration asks
for them. -/

def registrationHash : Bn254util.G1Affine :=
  ⟨7584501425877348129318930095624624880461539359935182367279130304510738635930,
    14548673773403633866124779632227717507111330882918090540203398527719899276114⟩

def registrationGamma : Nat :=
  8272380465176904900333499818118537671467019744603425661317252287904973331013

def registrationMultiple : Bn254util.G1Affine :=
  ⟨10586669237547168688045642354641918321299187984625904698971412870389841373655,
    7827803630854323924350558283760230427749550831963162732750697854572007373645⟩

def registrationSum : Bn254util.G1Affine :=
  ⟨15366954234509438104463361708106898319813487024223206570838335858357766298838,
    17616909052967125046852264072267099035099263545432723449314182015450974145518⟩

def registrationKeccak256 (b : Bytes) : Bytes :=
  if b = sampleAccount ++ beBytes 32 16600 ++ strBytes "0G_BN254_Pubkey_Registration" then
    beBytes 32 73249230041395173796058147331396450146550472831828653355346243988446417261678
  else if b = Bn254util.serializeG1 registrationHash ++ Bn254util.serializeG1 registrationHash ++
      Bn254util.serializeG1 Bn254util.getG1Generator ++
        Bn254util.serializeG2 Bn254util.getG2Generator then
    beBytes 32 registrationGamma
  else []

def registrationCurve : Bn254util.Curve where
  keccak256 := registrationKeccak256
  modSqrt y :=
    if y = 16570745996559884257438484081191136489271829465111937647961923490581860597844 then
      some registrationHash.y.val
    else none
  add p q := if p = registrationHash ∧ q = registrationMultiple then registrationSum else ⟨0, 0⟩
  scalarMultiplication p n :=
    if p = Bn254util.getG1Generator ∧ n = registrationGamma then registrationMultiple else ⟨0, 0⟩
  neg q := ⟨q.x, ⟨-q.y.a0, -q.y.a1⟩⟩
  pairingCheck p q := some (decide (p = [registrationSum, registrationSum] ∧
    q = [⟨Bn254util.getG2Generator.x,
      ⟨-Bn254util.getG2Generator.y.a0, -Bn254util.getG2Generator.y.a1⟩⟩,
      Bn254util.getG2Generator]))

def registrationEnv : Env := ⟨registrationCurve, some 16600⟩

def registrationSignature : G1Point :=
  ⟨Fin.ofNat (2 ^ 256) registrationHash.x.val, Fin.ofNat (2 ^ 256) registrationHash.y.val⟩

def sampleDetail : SignerDetail where
  signer := sampleOrigin
  socket := "a"
  pkG1 := ⟨1, 2⟩
  pkG2 := ⟨(10857046999023057135944570762232829481370756359578518086990519993285655852781,
      11559732032986387107991004021392285783925812861821192530917403151452391805634),
    (8495653923123431417604973247489272438418190587263600148770280649306958101930,
      4082367875863433681332203403145435568316851327593401208105741076214120093531)⟩

def noSignersWorld : World := ⟨orElseKeep emptyState (initGenesis defaultGenesisState), []⟩

theorem registerSigner_sample :
    (registerSigner registrationEnv sampleCtx ⟨sampleOrigin⟩ noSignersWorld sampleDetail
      registrationSignature).1 =
      .ok () := by
  decide +kernel

theorem registered_detail_returned_sample : ∃ w',
    registerSigner registrationEnv sampleCtx ⟨sampleOrigin⟩ noSignersWorld sampleDetail
      registrationSignature = (.ok (), w') ∧
    getSigner w'.store [sampleOrigin] = .ok [sampleDetail] ∧
    getSigner (Dasigners.run sampleAbi registrationEnv w'.store [.beginBlock (blockCtx 1)])
      [sampleOrigin] =
      .ok [sampleDetail] := by
  have hok := registerSigner_sample
  generalize hr : registerSigner registrationEnv sampleCtx ⟨sampleOrigin⟩ noSignersWorld
    sampleDetail registrationSignature = r at hok
  obtain ⟨x, w'⟩ := r
  cases hok
  obtain ⟨hnow, hlater, _⟩ :=
    registered_detail_returned sampleAbi registrationEnv sampleCtx ⟨sampleOrigin⟩ hr
  refine ⟨w', rfl, hnow, hlater [.beginBlock (blockCtx 1)] fun op hop msg hmsg => ?_⟩
  rw [List.mem_singleton.mp hop] at hmsg
  cases hmsg

end ZgChain.Dasigners.Precompile
