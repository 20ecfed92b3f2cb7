import ZgChain.Lib.Result

/-!
# Messages that authorizations may not carry

The decorator looks for disabled messages inside `MsgExec`, at any depth, and for grants
of disabled messages. The messages of the transaction itself are not compared with the
list, only what they contain is.
-/

namespace ZgChain.Authz

def msgGrantURL : String := "/cosmos.authz.v1beta1.MsgGrant"

def msgExecURL : String := "/cosmos.authz.v1beta1.MsgExec"

structure OtherURL where
  url : String
  not_grant : url ≠ msgGrantURL
  not_exec : url ≠ msgExecURL

structure Authorization where
  msgTypeURL : String
  deriving DecidableEq, Repr

/-- A grant whose authorization does not unpack has none; so does a `MsgExec` of which one
message does not unpack. -/
inductive Msg where
  | grant (authorization : Option Authorization)
  | exec (messages : Option (List Msg))
  | other (type : OtherURL)

def Msg.typeURL : Msg → String
  | .grant _ => msgGrantURL
  | .exec _ => msgExecURL
  | .other type => type.url

inductive CheckError where
  | foundDisabled (typeURL : String)
  | foundDisabledInGrant (typeURL : String)
  | invalidType
  | invalidRequest
  deriving DecidableEq, Repr

structure AuthzLimiterDecorator where
  disabledMsgTypes : List String

namespace AuthzLimiterDecorator

def isDisabled (ald : AuthzLimiterDecorator) (msgTypeURL : String) : Bool :=
  ald.disabledMsgTypes.any fun disabledType => msgTypeURL == disabledType

def checkGrant (ald : AuthzLimiterDecorator) (authorization : Option Authorization) :
    Except CheckError Unit := do
  -- looked at only if the grant is not itself disabled
  let authorization ← orReject authorization .invalidType
  rejectIf (ald.isDisabled authorization.msgTypeURL = true)
    (.foundDisabledInGrant authorization.msgTypeURL)

mutual

def checkMsg (ald : AuthzLimiterDecorator) (searchOnlyInAuthzMsgs : Bool) :
    Msg → Except CheckError Unit
  | .grant authorization =>
    if searchOnlyInAuthzMsgs = false ∧ ald.isDisabled msgGrantURL = true then
      .error (.foundDisabled msgGrantURL)
    else ald.checkGrant authorization
  | .exec messages =>
    if searchOnlyInAuthzMsgs = false ∧ ald.isDisabled msgExecURL = true then
      .error (.foundDisabled msgExecURL)
    else
      match messages with
      | none => .error .invalidRequest
      | some innerMsgs => ald.checkForDisabledMsg false innerMsgs
  | .other type =>
    if searchOnlyInAuthzMsgs = false ∧ ald.isDisabled type.url = true then
      .error (.foundDisabled type.url)
    else .ok ()

def checkForDisabledMsg (ald : AuthzLimiterDecorator) (searchOnlyInAuthzMsgs : Bool) :
    List Msg → Except CheckError Unit
  | [] => .ok ()
  | msg :: msgs =>
    match ald.checkMsg searchOnlyInAuthzMsgs msg with
    | .error e => .error e
    | .ok () => ald.checkForDisabledMsg searchOnlyInAuthzMsgs msgs

end

end AuthzLimiterDecorator

structure Tx where
  getMsgs : List Msg

inductive AnteError (ε : Type) where
  | unauthorized (err : CheckError)
  | next (err : ε)

abbrev AnteHandler (C ε : Type) := C → Tx → Bool → Except (AnteError ε) C

def AuthzLimiterDecorator.anteHandle {C ε : Type} (ald : AuthzLimiterDecorator) (ctx : C) (tx : Tx)
    (simulate : Bool) (next : AnteHandler C ε) : Except (AnteError ε) C :=
  match ald.checkForDisabledMsg true tx.getMsgs with
  | .error err => .error (.unauthorized err)
  | .ok () => next ctx tx simulate

/-! ## What is inside of the messages -/

inductive InsideExec (m : Msg) : List Msg → Prop where
  | direct {msgs inner : List Msg} (h : .exec (some inner) ∈ msgs) (hm : m ∈ inner) :
      InsideExec m msgs
  | deeper {msgs inner : List Msg} (h : .exec (some inner) ∈ msgs) (hm : InsideExec m inner) :
      InsideExec m msgs

/-- A message is in the list or inside a `MsgExec` of it. -/
def Occurs (m : Msg) (msgs : List Msg) : Prop := m ∈ msgs ∨ InsideExec m msgs

def Unpacks (msgs : List Msg) : Prop := ¬ Occurs (.grant none) msgs ∧ ¬ Occurs (.exec none) msgs

/-- No disabled message inside a `MsgExec`, and no grant of one anywhere. -/
structure Clean (disabled : List String) (msgs : List Msg) : Prop where
  inside : ∀ m, InsideExec m msgs → m.typeURL ∉ disabled
  grants : ∀ authorization, Occurs (.grant (some authorization)) msgs →
    authorization.msgTypeURL ∉ disabled

theorem insideExec_iff {m : Msg} {msgs : List Msg} :
    InsideExec m msgs ↔ ∃ inner, .exec (some inner) ∈ msgs ∧ Occurs m inner := by
  constructor
  · intro h
    cases h with
    | direct h hm => exact ⟨_, h, .inl hm⟩
    | deeper h hm => exact ⟨_, h, .inr hm⟩
  · intro ⟨inner, h, hm⟩
    rcases hm with hm | hm
    · exact .direct h hm
    · exact .deeper h hm

theorem Occurs.of_exec {m : Msg} {msgs inner : List Msg} (hm : Occurs m inner)
    (h : .exec (some inner) ∈ msgs) :
    Occurs m msgs := .inr (insideExec_iff.mpr ⟨inner, h, hm⟩)

theorem Unpacks.inner {msgs inner : List Msg} (hu : Unpacks msgs) (h : .exec (some inner) ∈ msgs) :
    Unpacks inner :=
  ⟨fun ho => hu.1 (ho.of_exec h), fun ho => hu.2 (ho.of_exec h)⟩

theorem Unpacks.ne_none {msgs : List Msg} (hu : Unpacks msgs) {m : Msg} (hm : m ∈ msgs) :
    m ≠ .grant none ∧ m ≠ .exec none := by
  constructor
  · intro e
    exact hu.1 (.inl (e ▸ hm))
  · intro e
    exact hu.2 (.inl (e ▸ hm))

theorem unpacks_iff {msgs : List Msg} :
    Unpacks msgs ↔ (∀ m ∈ msgs, m ≠ .grant none ∧ m ≠ .exec none) ∧
    ∀ inner, .exec (some inner) ∈ msgs → Unpacks inner := by
  constructor
  · intro h
    exact ⟨fun m hm => h.ne_none hm, fun inner hi => h.inner hi⟩
  · intro ⟨hne, hinner⟩
    constructor
    · intro ho
      rcases ho with ho | ho
      · exact (hne _ ho).1 rfl
      · obtain ⟨inner, hi, ho⟩ := insideExec_iff.mp ho
        exact (hinner inner hi).1 ho
    · intro ho
      rcases ho with ho | ho
      · exact (hne _ ho).2 rfl
      · obtain ⟨inner, hi, ho⟩ := insideExec_iff.mp ho
        exact (hinner inner hi).2 ho

theorem clean_iff {disabled : List String} {msgs : List Msg} : Clean disabled msgs ↔
    (∀ authorization, .grant (some authorization) ∈ msgs → authorization.msgTypeURL ∉ disabled) ∧
    ∀ inner, .exec (some inner) ∈ msgs → (∀ m ∈ inner, m.typeURL ∉ disabled) ∧
      Clean disabled inner := by
  constructor
  · intro h
    refine ⟨fun a ha => h.grants a (.inl ha),
      fun inner hi => ⟨fun m hm => ?_, fun m hm => ?_, fun a ha => ?_⟩⟩
    · exact h.inside m (.direct hi hm)
    · exact h.inside m (.deeper hi hm)
    · exact h.grants a (ha.of_exec hi)
  · intro ⟨hgrants, hexecs⟩
    constructor
    · intro m hm
      obtain ⟨inner, hi, hm | hm⟩ := insideExec_iff.mp hm
      · exact (hexecs inner hi).1 m hm
      · exact (hexecs inner hi).2.inside m hm
    · intro a ha
      rcases ha with ha | ha
      · exact hgrants a ha
      · obtain ⟨inner, hi, ha⟩ := insideExec_iff.mp ha
        exact (hexecs inner hi).2.grants a ha

theorem sizeOf_inner_lt {msgs inner : List Msg} (h : .exec (some inner) ∈ msgs) :
    sizeOf inner < sizeOf msgs := by
  have hmem := List.sizeOf_lt_of_mem h
  have hexec : sizeOf inner < sizeOf (Msg.exec (some inner)) := by
    simp only [Msg.exec.sizeOf_spec, Option.some.sizeOf_spec]
    omega
  omega

/-! ## The check -/

section
variable {ald : AuthzLimiterDecorator}

theorem isDisabled_iff (url : String) : ald.isDisabled url = true ↔ url ∈ ald.disabledMsgTypes := by
  simp [AuthzLimiterDecorator.isDisabled]

theorem checkForDisabledMsg_ok {only : Bool} (msgs : List Msg) :
    ald.checkForDisabledMsg only msgs = .ok () ↔ ∀ m ∈ msgs, ald.checkMsg only m = .ok () := by
  induction msgs with
  | nil => simp [AuthzLimiterDecorator.checkForDisabledMsg]
  | cons m msgs ih =>
    rw [AuthzLimiterDecorator.checkForDisabledMsg, List.forall_mem_cons, ← ih]
    cases ald.checkMsg only m with
    | error e => simp
    | ok u => simp

/-- What the check of one message comes to: its own type, unless only the contents are
searched, and what it contains. -/
theorem checkMsg_ok {only : Bool} {m : Msg} (hg : m ≠ .grant none) (he : m ≠ .exec none) :
    ald.checkMsg only m = .ok () ↔
    (only = false → m.typeURL ∉ ald.disabledMsgTypes) ∧
    (∀ authorization, m = .grant (some authorization) →
      authorization.msgTypeURL ∉ ald.disabledMsgTypes) ∧
    ∀ inner, m = .exec (some inner) → ald.checkForDisabledMsg false inner = .ok () := by
  have hown : ∀ (url : String) (e : CheckError) (x : Except CheckError Unit),
      (if only = false ∧ ald.isDisabled url = true then .error e else x) = .ok () ↔
        (only = false → url ∉ ald.disabledMsgTypes) ∧ x = .ok () := by
    intro url e x
    by_cases h : only = false ∧ ald.isDisabled url = true
    · simp [h.1, h.2, (isDisabled_iff url).mp h.2]
    · rw [if_neg h]
      rw [not_and, isDisabled_iff] at h
      simp only [iff_and_self]
      intro _
      exact h
  unfold AuthzLimiterDecorator.checkMsg
  cases m with
  | grant authorization =>
    cases authorization with
    | none => exact absurd rfl hg
    | some a =>
      rw [hown]
      simp [Msg.typeURL, AuthzLimiterDecorator.checkGrant, orReject, isDisabled_iff]
  | exec messages =>
    cases messages with
    | none => exact absurd rfl he
    | some inner =>
      rw [hown]
      simp [Msg.typeURL]
  | other type =>
    rw [hown]
    simp [Msg.typeURL]

/-- The check finds the disabled messages and grants at every depth; the types of the
messages it is called with count only below the first level. -/
theorem check_iff_clean {only : Bool} {msgs : List Msg} (hu : Unpacks msgs) :
    ald.checkForDisabledMsg only msgs = .ok () ↔
    (only = false → ∀ m ∈ msgs, m.typeURL ∉ ald.disabledMsgTypes) ∧
    Clean ald.disabledMsgTypes msgs := by
  -- by induction on the size: the messages of a `MsgExec` are smaller than the list it is in
  induction hn : sizeOf msgs using Nat.strong_induction_on generalizing only msgs with
  | _ n ih =>
    have hinner : ∀ inner, .exec (some inner) ∈ msgs →
        (ald.checkForDisabledMsg false inner = .ok () ↔
        (∀ m ∈ inner, m.typeURL ∉ ald.disabledMsgTypes) ∧ Clean ald.disabledMsgTypes inner) := by
      intro inner h
      have hsmaller := @ih (sizeOf inner) (hn ▸ sizeOf_inner_lt h) false inner (hu.inner h) rfl
      simpa using hsmaller
    have hmsg : ∀ m ∈ msgs, ald.checkMsg only m = .ok () ↔ _ := fun m hm =>
      checkMsg_ok (hu.ne_none hm).1 (hu.ne_none hm).2
    rw [checkForDisabledMsg_ok, clean_iff]
    constructor
    · intro h
      refine ⟨fun ho m hm => ((hmsg m hm).mp (h m hm)).1 ho, fun a ha => ?_, fun inner hi => ?_⟩
      · exact ((hmsg _ ha).mp (h _ ha)).2.1 a rfl
      · exact (hinner inner hi).mp (((hmsg _ hi).mp (h _ hi)).2.2 inner rfl)
    · intro ⟨htypes, hgrants, hexecs⟩ m hm
      refine (hmsg m hm).mpr ⟨fun ho => htypes ho m hm, fun a e => ?_, fun inner e => ?_⟩
      · exact hgrants a (e ▸ hm)
      · exact (hinner inner (e ▸ hm)).mpr (hexecs inner (e ▸ hm))

end

/-- The decorator passes a transaction on exactly if no message inside a `MsgExec` has a
disabled type and no grant, at any level, is for one. A transaction whose messages
contain no others always passes, whatever their types. -/
theorem anteHandle_passes_iff (ald : AuthzLimiterDecorator) (tx : Tx) (hu : Unpacks tx.getMsgs)
    (C ε : Type) (ctx : C) (simulate : Bool) (next : AnteHandler C ε) :
    (Clean ald.disabledMsgTypes tx.getMsgs → ald.anteHandle ctx tx simulate next =
      next ctx tx simulate) ∧
    (¬ Clean ald.disabledMsgTypes tx.getMsgs → ∃ err, ald.anteHandle ctx tx simulate next =
      .error (.unauthorized err)) ∧
    ((∀ m ∈ tx.getMsgs, ∃ type, m = .other type) → ald.anteHandle ctx tx simulate next =
      next ctx tx simulate) := by
  have hiff : ald.checkForDisabledMsg true tx.getMsgs = .ok () ↔
      Clean ald.disabledMsgTypes tx.getMsgs := by
    rw [check_iff_clean hu]
    simp
  have hpass : Clean ald.disabledMsgTypes tx.getMsgs → ald.anteHandle ctx tx simulate next =
      next ctx tx simulate := by
    intro h
    rw [AuthzLimiterDecorator.anteHandle, hiff.mpr h]
  refine ⟨hpass, fun h => ?_, fun h => hpass (clean_iff.mpr ⟨fun a ha => ?_, fun inner hi => ?_⟩)⟩
  · cases hcheck : ald.checkForDisabledMsg true tx.getMsgs with
    | ok u => exact absurd (hiff.mp hcheck) h
    | error err => exact ⟨err, by rw [AuthzLimiterDecorator.anteHandle, hcheck]⟩
  · obtain ⟨_, e⟩ := h _ ha
    cases e
  · obtain ⟨_, e⟩ := h _ hi
    cases e

def ethereumTxURL : String := "/ethermint.evm.v1.MsgEthereumTx"

theorem ethereumTx_not_grant : ethereumTxURL ≠ msgGrantURL := by decide

theorem ethereumTx_not_exec : ethereumTxURL ≠ msgExecURL := by decide

def msgEthereumTx : Msg := .other ⟨ethereumTxURL, ethereumTx_not_grant, ethereumTx_not_exec⟩

/-- The message by itself, and once more inside two `MsgExec`s. -/
def smuggledTx : Tx := ⟨[msgEthereumTx, .exec (some [.exec (some [msgEthereumTx])])]⟩

theorem smuggledTx_unpacks : Unpacks smuggledTx.getMsgs := by
  have h₀ : Unpacks [msgEthereumTx] := by
    rw [unpacks_iff]
    simp [msgEthereumTx]
  have h₁ : Unpacks [.exec (some [msgEthereumTx])] := by
    rw [unpacks_iff]
    simpa using h₀
  rw [smuggledTx, unpacks_iff]
  simpa [msgEthereumTx] using h₁

theorem anteHandle_rejects_smuggled : Unpacks smuggledTx.getMsgs ∧
    ∃ err, (AuthzLimiterDecorator.mk [ethereumTxURL]).anteHandle () smuggledTx false
      (fun ctx _ _ => .ok ctx) =
      (.error (.unauthorized err) : Except (AnteError Unit) Unit) := by
  refine ⟨smuggledTx_unpacks, ?_⟩
  refine (anteHandle_passes_iff ⟨[ethereumTxURL]⟩ smuggledTx smuggledTx_unpacks Unit Unit
    () false _).2.1 fun h => ?_
  have hinside : InsideExec msgEthereumTx smuggledTx.getMsgs :=
    .deeper (List.mem_cons_of_mem _ (List.mem_singleton.mpr rfl))
      (.direct (List.mem_singleton.mpr rfl) (List.mem_singleton.mpr rfl))
  exact h.inside msgEthereumTx hinside (List.mem_singleton.mpr rfl)

end ZgChain.Authz
