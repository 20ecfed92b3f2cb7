import ZgChain.Committees.Keeper

/-!
# The life of a proposal

A proposal is submitted by a member of a committee whose permissions allow it,
voted on, and enacted by the handler of its route once enough votes are cast or,
depending on the committee, at its deadline. Before it is enacted it is tried on a
copy of the state, with panics recovered.
-/

namespace ZgChain.Committees

variable {R : Type} (env : Env R) (router : Router R)

namespace State

/-! ## Submissions and votes -/

def validatePubProposal (s : State R) (pubProposal : Option PubProposal) : Except Failure Unit :=
  match pubProposal with
  | none => .error (.error (.invalidPubProposal "pub proposal cannot be nil"))
  | some c => do
    -- a panic here is not recovered
    c.validateBasic env
    match router (c.route env) with
    | none => .error (.error .noProposalHandlerExists)
    | some handler =>
      -- the handler runs on a copy of the state that is dropped
      match (handler s c).1 with
      | .error (.panic _) => .error (.error (.invalidPubProposal "proposal handler panicked"))
      | result => result

def submitProposal (s : State R) (time : Time) (proposer : Addr) (committeeID : UInt64)
    (pubProposal : Option PubProposal) : Except Failure (UInt64 × State R) := do
  let com ← orReject (s.getCommittee committeeID) (.error .unknownCommittee)
  rejectIf (com.hasMember proposer = false)
    (.error (.unauthorized "proposer not member of committee"))
  let allowed ← (com.hasPermissionsFor env s.rest pubProposal).mapError .panic
  rejectIf (allowed = false)
    (.error (.unauthorized "committee does not have permissions to enact proposal"))
  s.validatePubProposal env router pubProposal
  let content ← orReject pubProposal (.error (.invalidPubProposal "pub proposal cannot be nil"))
  (s.storeNewProposal content committeeID (time + com.proposalDuration.toInt)).mapError .error

def addVote (s : State R) (time : Time) (proposalID : UInt64) (voter : Addr) (voteType : VoteType) :
    Except Error (State R) := do
  let pr ← orReject (s.getProposal proposalID) .unknownProposal
  rejectIf (pr.hasExpiredBy time = true) .proposalExpired
  let com ← orReject (s.getCommittee pr.committeeID) .unknownCommittee
  rejectIf (com.kind = .member ∧ com.hasMember voter = false)
    (.unauthorized "voter must be a member of committee")
  rejectIf (com.kind = .member ∧ voteType ≠ .yes) .invalidVoteType
  return s.setVote ⟨proposalID, voter, voteType⟩

/-! ## Enactment -/

/-- The state is the one the proposal leaves, also if it fails. The second run of
the handler is not protected, and its error is turned into a panic. -/
def enactProposal (s : State R) (p : Proposal) : Except Failure Unit × State R :=
  match s.getCommittee p.committeeID with
  | none => (.error (.error .unknownCommittee), s)
  | some com =>
    match com.hasPermissionsFor env s.rest p.content with
    | .error e => (.error (.panic e), s)
    | .ok false =>
      (.error (.error (.unauthorized "committee does not have permissions to enact proposal")), s)
    | .ok true =>
      match s.validatePubProposal env router p.content,
        p.content.bind fun c => (router (c.route env)).map (·, c) with
      | .error e, _ => (.error e, s)
      | .ok (), none => (.error (.panic .nilPointer), s)
      | .ok (), some (handler, c) =>
        match handler s c with
        | (.error (.error _), s') => (.error (.panic .handlerError), s')
        | r => r

def attemptEnactProposal (s : State R) (p : Proposal) : Except Panic ProposalOutcome × State R :=
  match s.enactProposal env router p with
  | (.ok (), s') => (.ok .passed, s')
  | (.error (.error _), s') => (.ok .invalid, s')
  | (.error (.panic e), s') => (.error e, s')

def enactAndClose (s : State R) (p : Proposal) : Except Panic (State R) :=
  match s.attemptEnactProposal env router p with
  | (.error e, _) => .error e
  | (.ok _, s') => s'.closeProposal env p

def processProposal (time : Time) (s : State R) (p : Proposal) : Except Panic (State R) :=
  match s.getCommittee p.committeeID with
  | none => s.closeProposal env p
  | some com =>
    if p.hasExpiredBy time = false then
      if com.tallyOption = .firstPastThePost then do
        let passed ← s.getProposalResult env p.id com
        if passed then s.enactAndClose env router p else return s
      else .ok s
    else do
      let passed ← s.getProposalResult env p.id com
      if passed then s.enactAndClose env router p else s.closeProposal env p

/-- The proposals that are stored at the start are visited, also those that a
visit before theirs has closed. -/
def processProposals (s : State R) (time : Time) : Except Panic (State R) :=
  s.getProposals.foldlM (processProposal env router time) s

/-! ## Changes of committees -/

def closeAll : State R → List Proposal → Except Panic Unit × State R
  | s, [] => (.ok (), s)
  | s, p :: ps =>
    match s.closeProposal env p with
    | .error e => (.error e, s)
    | .ok s' => closeAll s' ps

def changeCommittee (s : State R) (committeeID : UInt64) (change : State R → State R) :
    Except Failure Unit × State R :=
  match closeAll env s (s.getProposalsByCommittee committeeID) with
  | (.error e, s') => (.error (.panic e), s')
  | (.ok (), s') => (.ok (), change s')

def handleCommitteeChangeProposal (s : State R) (newCommittee : PackedCommittee) :
    Except Failure Unit × State R :=
  match newCommittee with
  | .packed c => s.changeCommittee env c.id fun s => s.setCommittee c
  | _ => (.error (.panic .nilPointer), s)

def handleCommitteeDeleteProposal (s : State R) (committeeID : UInt64) :
    Except Failure Unit × State R :=
  s.changeCommittee env committeeID fun s => s.deleteCommittee committeeID

def newProposalHandler : Handler R := fun s content =>
  match content with
  | .committeeChange _ _ newCommittee =>
    match content.validateBasic env with
    | .error (.error _) => (.error (.error (.invalidPubProposal "invalid committee change")), s)
    | .error (.panic e) => (.error (.panic e), s)
    | .ok () => s.handleCommitteeChangeProposal env newCommittee
  | .committeeDelete _ _ committeeID =>
    match content.validateBasic env with
    | .error (.error _) => (.error (.error (.invalidPubProposal "invalid committee deletion")), s)
    | .error (.panic e) => (.error (.panic e), s)
    | .ok () => s.handleCommitteeDeleteProposal env committeeID
  | _ => (.error (.error .unknownRequest), s)

/-! ## How the calls end -/

variable {env router} {s s' : State R}

theorem closeAll_ok {ps : List Proposal} (h : closeAll env s ps = (.ok (), s')) :
    s' = ps.foldl (fun s p => s.deleteProposalAndVotes p.id) s := by
  induction ps generalizing s with
  | nil => exact (congrArg Prod.snd h).symm
  | cons p ps ih =>
    unfold closeAll at h
    split at h
    · cases congrArg Prod.fst h
    · rename_i s₁ hs₁
      rw [ih h, closeProposal_ok hs₁]
      rfl

theorem changeCommittee_ok {id : UInt64} {change : State R → State R}
    (h : s.changeCommittee env id change = (.ok (), s')) :
    s' = change ((s.getProposalsByCommittee id).foldl
      (fun s p => s.deleteProposalAndVotes p.id) s) := by
  unfold changeCommittee at h
  split at h
  · cases congrArg Prod.fst h
  · rename_i s₁ hs₁
    rw [← closeAll_ok hs₁]
    exact (congrArg Prod.snd h).symm

theorem validate_of_validateBasic {title description : String} {c : Committee}
    (h : (PubProposal.committeeChange title description (.packed c)).validateBasic env = .ok ()) :
    c.validate = .ok () := by
  obtain ⟨_, _, h⟩ := (bind_eq_ok _ _ _).mp h
  exact (mapError_eq_ok _ _ _).mp h

/-- A proposal of the module sets a valid committee or deletes one, once the proposals
of that committee are closed. -/
theorem newProposalHandler_ok {content : PubProposal}
    (h : newProposalHandler env s content = (.ok (), s')) :
    ∃ id change, s' =
      change ((s.getProposalsByCommittee id).foldl (fun s p => s.deleteProposalAndVotes p.id) s) ∧
      ((∃ c : Committee, c.id = id ∧ c.validate = .ok () ∧ change = fun s => s.setCommittee c) ∨
        change = fun s => s.deleteCommittee id) := by
  unfold newProposalHandler at h
  split at h
  · split at h
    · cases congrArg Prod.fst h
    · cases congrArg Prod.fst h
    · rename_i hvalid
      unfold handleCommitteeChangeProposal at h
      split at h
      · rename_i c
        exact ⟨c.id, _, changeCommittee_ok h,
          Or.inl ⟨c, rfl, validate_of_validateBasic hvalid, rfl⟩⟩
      · cases congrArg Prod.fst h
  · split at h
    · cases congrArg Prod.fst h
    · cases congrArg Prod.fst h
    · rename_i id _ _
      exact ⟨id, _, changeCommittee_ok h, Or.inr rfl⟩
  · cases congrArg Prod.fst h

def EnactPanics (env : Env R) (s : State R) (p : Proposal) (e : Panic) : Prop :=
  ∃ com, s.getCommittee p.committeeID = some com ∧
    (com.hasPermissionsFor env s.rest p.content = .error e ∨
      com.hasPermissionsFor env s.rest p.content = .ok true ∧
        ∃ c, p.content = some c ∧ c.validateBasic env = .error (.panic e))

def Enacts (env : Env R) (router : Router R) (s : State R) (p : Proposal) (s' : State R) : Prop :=
  ∃ com c handler, s.getCommittee p.committeeID = some com ∧
  com.hasPermissionsFor env s.rest p.content = .ok true ∧
    p.content = some c ∧ router (c.route env) = some handler ∧ handler s c = (.ok (), s')

theorem validatePubProposal_cases (env : Env R) (router : Router R) (s : State R)
    (content : Option PubProposal) :
    (∃ e, s.validatePubProposal env router content = .error (.error e)) ∨
    (∃ c e, content = some c ∧ c.validateBasic env = .error (.panic e) ∧
      s.validatePubProposal env router content = .error (.panic e)) ∨
    (∃ c handler s', content = some c ∧ (∀ e, c.validateBasic env ≠ .error (.panic e)) ∧
      router (c.route env) = some handler ∧ handler s c = (.ok (), s') ∧
      s.validatePubProposal env router content = .ok ()) := by
  unfold validatePubProposal
  cases content with
  | none => exact Or.inl ⟨_, rfl⟩
  | some c =>
    cases hb : c.validateBasic env with
    | error f =>
      cases f with
      | error e => exact Or.inl ⟨e, by simp only [hb]; rfl⟩
      | panic e => exact Or.inr (Or.inl ⟨c, e, rfl, hb, by simp only [hb]; rfl⟩)
    | ok u =>
      simp only [hb, ok_bind]
      cases hr : router (c.route env) with
      | none => exact Or.inl ⟨_, rfl⟩
      | some handler =>
        cases hh : handler s c with
        | mk res s' =>
          cases res with
          | error f =>
            cases f with
            | error e => exact Or.inl ⟨e, by simp only [hh]⟩
            | panic e => exact Or.inl ⟨_, by simp only [hh]; rfl⟩
          | ok u =>
            refine Or.inr (Or.inr ⟨c, handler, s', rfl, ?_, hr, hh, by simp only [hh]⟩)
            intro e he
            rw [hb] at he
            cases he

theorem attemptEnactProposal_cases (env : Env R) (router : Router R) (s : State R) (p : Proposal) :
    (∃ e, EnactPanics env s p e ∧ s.attemptEnactProposal env router p = (.error e, s)) ∨
    s.attemptEnactProposal env router p = (.ok .invalid, s) ∨
    (∃ s', Enacts env router s p s' ∧ s.attemptEnactProposal env router p = (.ok .passed, s')) := by
  unfold attemptEnactProposal enactProposal
  cases hcom : s.getCommittee p.committeeID with
  | none => exact Or.inr (Or.inl rfl)
  | some com =>
    cases hperm : com.hasPermissionsFor env s.rest p.content with
    | error e =>
      simp only [hperm]
      exact Or.inl ⟨e, ⟨com, hcom, Or.inl hperm⟩, rfl⟩
    | ok allowed =>
      cases allowed with
      | false => exact Or.inr (Or.inl (by simp only [hperm]))
      | true =>
        rcases validatePubProposal_cases env router s p.content with
          ⟨e, hv⟩ | ⟨c, e, hc, hb, hv⟩ | ⟨c, handler, s', hc, _, hr, hh, hv⟩
        · exact Or.inr (Or.inl (by simp only [hperm, hv]))
        · exact Or.inl ⟨e, ⟨com, hcom, Or.inr ⟨hperm, c, hc, hb⟩⟩, by simp only [hperm, hv]⟩
        · refine Or.inr (Or.inr ⟨s', ⟨com, c, handler, hcom, hperm, hc, hr, hh⟩, ?_⟩)
          rw [hc] at hperm hv
          simp only [hc, hperm, hv, Option.bind_some, hr, Option.map_some, hh]

theorem EnactPanics.attempt (router : Router R) {p : Proposal} {e : Panic}
    (h : EnactPanics env s p e) :
    s.attemptEnactProposal env router p = (.error e, s) := by
  obtain ⟨com, hcom, hperm | ⟨hperm, c, hc, hb⟩⟩ := h
  · unfold attemptEnactProposal enactProposal
    simp only [hcom, hperm]
  · have hv : s.validatePubProposal env router p.content = .error (.panic e) := by
      rw [hc, validatePubProposal, hb, error_bind]
    unfold attemptEnactProposal enactProposal
    simp only [hcom, hperm, hv]

end State

end ZgChain.Committees
