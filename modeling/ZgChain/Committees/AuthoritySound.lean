import ZgChain.Committees.ExportSound

/-!
# What a member committee enacts was agreed on

The begin blocker visits the proposals that were stored when it began, also those that an
earlier visit has closed. A vote is counted by its key alone and without a look at its voter.
Still a member committee enacts only what one of its present members has submitted, what
enough of its present members have voted for in time, and what it has permission for: what is
stored has a history, and a committee does not change while it has proposals.
-/

namespace ZgChain.Committees

variable {R : Type} {env : Env R} {router : Router R} {s s' : State R}

/-! ## Visits -/

/-- The states in which the begin blocker visits proposals, with the proposals. -/
def visits (env : Env R) (router : Router R) (time : Time) :
    State R → List Proposal → List (State R × Proposal)
  | _, [] => []
  | s, p :: ps =>
    (s, p) :: match State.processProposal env router time s p with
      | .ok s' => visits env router time s' ps
      | .error _ => []

/-- A relation that every visit keeps holds between the first state and that of a later visit. -/
theorem visits_rel {Rel : State R → State R → Prop} (hv : Visiting env router Rel) {time : Time}
    {ps : List Proposal}
    {x : State R × Proposal} (hx : x ∈ visits env router time s ps) : Rel s x.1 ∧ x.2 ∈ ps := by
  induction ps generalizing s with
  | nil => cases hx
  | cons p ps ih =>
    rw [visits] at hx
    rcases List.mem_cons.mp hx with rfl | hx
    · exact ⟨hv.refl s, List.mem_cons_self⟩
    · split at hx
      · rename_i s₁ hs₁
        obtain ⟨hrest, hmem⟩ := ih hx
        exact ⟨hv.trans (hv.processProposal hs₁) hrest, List.mem_cons_of_mem _ hmem⟩
      · cases hx

/-- A visit does nothing, closes the proposal, or enacts it because it has passed, and closes it. -/
theorem processProposal_ends {time : Time} {p : Proposal}
    (h : State.processProposal env router time s p = .ok s') :
    s' = s ∨ s' = s.deleteProposalAndVotes p.id ∨
    ∃ com s₁, s.getCommittee p.committeeID = some com ∧
      s.getProposalResult env p.id com = .ok true ∧ State.Enacts env router s p s₁ ∧
      s' = s₁.deleteProposalAndVotes p.id := by
  have henact {com : Committee} (hcom : s.getCommittee p.committeeID = some com)
      (hres : s.getProposalResult env p.id com = .ok true)
        (h : s.enactAndClose env router p = .ok s') :
      s' = s.deleteProposalAndVotes p.id ∨ ∃ com s₁, s.getCommittee p.committeeID = some com ∧
        s.getProposalResult env p.id com = .ok true ∧ State.Enacts env router s p s₁ ∧
        s' = s₁.deleteProposalAndVotes p.id := by
    unfold State.enactAndClose at h
    rcases State.attemptEnactProposal_cases env router s p with ⟨e, _, ha⟩ | ha | ⟨s₁, hs₁, ha⟩
    · rw [ha] at h
      cases h
    · rw [ha] at h
      exact Or.inl (State.closeProposal_ok h)
    · rw [ha] at h
      exact Or.inr ⟨com, s₁, hcom, hres, hs₁, State.closeProposal_ok h⟩
  unfold State.processProposal at h
  split at h
  · exact Or.inr (Or.inl (State.closeProposal_ok h))
  · rename_i com hcom
    split at h
    · split at h
      · obtain ⟨passed, hres, h⟩ := (bind_eq_ok _ _ _).mp h
        split at h
        · rename_i hpassed
          exact Or.inr (henact hcom (hpassed ▸ hres) h)
        · cases h
          exact Or.inl rfl
      · cases h
        exact Or.inl rfl
    · obtain ⟨passed, hres, h⟩ := (bind_eq_ok _ _ _).mp h
      split at h
      · rename_i hpassed
        exact Or.inr (henact hcom (hpassed ▸ hres) h)
      · exact Or.inr (Or.inl (State.closeProposal_ok h))

/-! ## What visits and committee changes leave -/

/-- Proposals and votes are only dropped, the committees of the proposals that are left do
not change, and those that are new are valid. -/
structure Keeps (s s' : State R) : Prop where
  keyed : s'.ProposalsKeyed
  proposals : ∀ k p, s'.proposals.get k = some p → s.proposals.get k = some p ∧
    s'.getCommittee p.committeeID = s.getCommittee p.committeeID
  votes : ∀ k v, s'.votes.get k = some v → s.votes.get k = some v
  committees : ∀ k c, s'.committees.get k = some c → s.committees.get k = some c ∨
    c.validate = .ok ()

theorem Keeps.refl (hk : s.ProposalsKeyed) : Keeps s s :=
  ⟨hk, fun _ _ hp => ⟨hp, rfl⟩, fun _ _ hv => hv, fun _ _ hc => Or.inl hc⟩

theorem Keeps.trans {s₁ s₂ : State R} (h : Keeps s s₁) (h' : Keeps s₁ s₂) : Keeps s s₂ where
  keyed := h'.keyed
  proposals k p hp := by
    obtain ⟨hp₁, hc₁⟩ := h'.proposals k p hp
    obtain ⟨hp₀, hc₀⟩ := h.proposals k p hp₁
    exact ⟨hp₀, hc₁.trans hc₀⟩
  votes k v hv := h.votes k v (h'.votes k v hv)
  committees k c hc := by
    rcases h'.committees k c hc with hc | hc
    · exact h.committees k c hc
    · exact Or.inr hc

theorem keeps_close (hk : s.ProposalsKeyed) (id : UInt64) :
    Keeps s (s.deleteProposalAndVotes id) where
  keyed := (Change.close s id).proposalsKeyed hk
  proposals k p hp := by
    refine ⟨?_, getCommittee_deleteProposalAndVotes s id p.committeeID⟩
    rw [State.deleteProposalAndVotes_frame, KVStore.get_delete] at hp
    split at hp
    · cases hp
    · exact hp
  votes k v hv := ((State.get_foldl_deleteVote _ _ k v).mp hv).1
  committees k c hc := by
    rw [State.deleteProposalAndVotes_frame] at hc
    exact Or.inl hc

theorem keeps_closings (ps : List Proposal) (hk : s.ProposalsKeyed) :
    Keeps s (ps.foldl (fun s p => s.deleteProposalAndVotes p.id) s) := by
  induction ps generalizing s with
  | nil => exact .refl hk
  | cons p ps ih => exact (keeps_close hk p.id).trans (ih (keeps_close hk p.id).keyed)

theorem keeps_rest (hk : s.ProposalsKeyed) (r : R) : Keeps s { s with rest := r } :=
  ⟨hk, fun _ _ hp => ⟨hp, rfl⟩, fun _ _ hv => hv, fun _ _ hc => Or.inl hc⟩

theorem keeps_handler (hk : s.ProposalsKeyed) {content : PubProposal}
    (h : State.newProposalHandler env s content = (.ok (), s')) : Keeps s s' := by
  obtain ⟨id, change, rfl, hchange⟩ := State.newProposalHandler_ok h
  have hclosed := keeps_closings (s.getProposalsByCommittee id) hk
  have hnone := getProposalsByCommittee_closings hk id
  refine hclosed.trans ?_
  generalize (s.getProposalsByCommittee id).foldl (fun s p => s.deleteProposalAndVotes p.id) s =
    t at hclosed hnone
  -- no proposal of the committee is left
  have hother : ∀ k p, t.proposals.get k = some p → getKeyFromID p.committeeID ≠ getKeyFromID id :=
    fun k p hp e => committeeID_ne hnone hp (getKeyFromID_inj e)
  rcases hchange with ⟨c, rfl, hvalid, rfl⟩ | rfl
  · refine ⟨hclosed.keyed, fun k p hp => ⟨hp, KVStore.get_set_ne _ (hother k p hp) c⟩,
      fun _ _ hv => hv, fun k d hd => ?_⟩
    dsimp only [State.setCommittee] at hd
    rw [KVStore.get_set] at hd
    split at hd
    · cases hd
      exact Or.inr hvalid
    · exact Or.inl hd
  · refine ⟨hclosed.keyed, fun k p hp => ⟨hp, KVStore.get_delete_ne _ (hother k p hp)⟩,
      fun _ _ hv => hv, fun k d hd => ?_⟩
    dsimp only [State.deleteCommittee] at hd
    rw [KVStore.get_delete] at hd
    split at hd
    · cases hd
    · exact Or.inl hd

theorem keeps_visiting (hr : RouterOk env router) :
    Visiting env router fun s s' => s.ProposalsKeyed → Keeps s s' where
  refl := fun _ hk => .refl hk
  trans := fun h h' hk => (h hk).trans (h' (h hk).keyed)
  close := fun _ id hk => keeps_close hk id
  enact := fun h hk => by
    obtain ⟨_, c, handler, _, _, _, hroute, hrun⟩ := h
    rcases hr _ handler hroute with hkeep | rfl
    · obtain ⟨r, rfl⟩ := hkeep _ c _ hrun
      exact keeps_rest hk r
    · exact keeps_handler hk hrun

/-! ## What is stored has a history -/

/-- Every stored proposal was submitted by a present member of its committee, every stored
vote was cast before the deadline of its proposal, and the committees are valid. -/
structure Recorded (hist : List (Time × Op R)) (s : State R) : Prop where
  submitted : ∀ k p, s.proposals.get k = some p → ∃ time proposer c,
    (time, Op.submitProposal proposer p.committeeID p.content) ∈ hist ∧
    s.getCommittee p.committeeID = some c ∧
      c.hasMember proposer = true ∧ p.deadline = time + c.proposalDuration.toInt
  cast : ∀ k v p, s.votes.get k = some v → s.getProposal v.proposalID = some p →
    ∃ time, (time, Op.addVote v.proposalID v.voter v.voteType) ∈ hist ∧ p.hasExpiredBy time = false
  valid : ∀ k c, s.committees.get k = some c → c.validate = .ok ()

section
variable {hist : List (Time × Op R)}

theorem Recorded.later (h : Recorded hist s) (op : Time × Op R) : Recorded (hist ++ [op]) s where
  submitted k p hp := by
    obtain ⟨time, proposer, c, hmem, hrest⟩ := h.submitted k p hp
    exact ⟨time, proposer, c, List.mem_append_left _ hmem, hrest⟩
  cast k v p hv hp := by
    obtain ⟨time, hmem, hrest⟩ := h.cast k v p hv hp
    exact ⟨time, List.mem_append_left _ hmem, hrest⟩
  valid := h.valid

theorem Recorded.keeps (h : Recorded hist s) (hk : Keeps s s') : Recorded hist s' where
  submitted k p hp := by
    obtain ⟨hp₀, hc₀⟩ := hk.proposals k p hp
    rw [hc₀]
    exact h.submitted k p hp₀
  cast k v p hv hp := h.cast k v p (hk.votes k v hv) (hk.proposals _ p hp).1
  valid k c hc := by
    rcases hk.committees k c hc with hc | hc
    · exact h.valid k c hc
    · exact hc

theorem Recorded.propose (h : Recorded hist s) (hrefs : RefInv s) {time : Time} {proposer : Addr}
    {committeeID n : UInt64} {content : Option PubProposal}
    (hs : s.submitProposal env router time proposer committeeID content = .ok (n, s')) :
    Recorded (hist ++ [(time, .submitProposal proposer committeeID content)]) s' := by
  unfold State.submitProposal State.storeNewProposal State.incrementNextProposalID
    State.getNextProposalID at hs
  simp only [bind_eq_ok, orReject_eq_ok, rejectIf_eq_ok, mapError_eq_ok, pure_eq_ok, Prod.mk.injEq,
    Bool.not_eq_false] at hs
  obtain ⟨c, hc, _, hmember, _, _, _, _, _, _, pc, rfl, n', hn, s₁, ⟨n₁, hn₁, rfl⟩, rfl, rfl⟩ := hs
  have hlater := h.later (time, .submitProposal proposer committeeID (some pc))
  refine ⟨fun k p hp => ?_, fun k v p hv hp => ?_, hlater.valid⟩
  · rw [State.setNextProposalID, State.setProposal, KVStore.get_set] at hp
    split at hp
    · cases hp
      exact ⟨time, proposer, c, List.mem_append_right _ List.mem_cons_self, hc, hmember, rfl⟩
    · exact hlater.submitted k p hp
  · have hsame := getProposal_setProposal s
      ⟨some pc, n', committeeID, time + c.proposalDuration.toInt⟩ v.proposalID
    -- no vote has the number of the new proposal
    rw [if_neg (hrefs.vote_ne hn hv)] at hsame
    exact hlater.cast k v p hv (hsame.symm.trans hp)

theorem Recorded.vote (h : Recorded hist s) {time : Time} {id : UInt64} {voter : Addr}
    {vt : VoteType} (hs : s.addVote time id voter vt = .ok s') :
    Recorded (hist ++ [(time, .addVote id voter vt)]) s' := by
  unfold State.addVote at hs
  simp only [bind_eq_ok, orReject_eq_ok, rejectIf_eq_ok, pure_eq_ok, Bool.not_eq_true] at hs
  obtain ⟨p, hp, _, hdue, _, _, _, _, _, _, rfl⟩ := hs
  have hlater := h.later (time, .addVote id voter vt)
  refine ⟨hlater.submitted, fun k v q hv hq => ?_, hlater.valid⟩
  rw [State.setVote, KVStore.get_set] at hv
  split at hv
  · cases hv
    cases hp.symm.trans hq
    exact ⟨time, List.mem_append_right _ List.mem_cons_self, hdue⟩
  · exact hlater.cast k v q hv hq

theorem Recorded.step (hr : RouterOk env router) (h : Recorded hist s) (hrefs : RefInv s)
    (op : Time × Op R) :
    Recorded (hist ++ [op]) (step env router s op) := by
  obtain ⟨time, op⟩ := op
  have hkept {s' : State R} (hk : s.ProposalsKeyed → Keeps s s') :
      Recorded (hist ++ [(time, op)]) s' :=
    (h.later _).keeps (hk hrefs.proposalsKeyed)
  unfold Committees.step
  cases op with
  | submitProposal proposer committeeID content =>
    dsimp only
    cases hs : s.submitProposal env router time proposer committeeID content with
    | error e => exact h.later _
    | ok r => exact h.propose hrefs hs
  | addVote id voter vt =>
    exact orElseKeep_rule (P := Recorded (hist ++ [(time, .addVote id voter vt)])) (h.later _)
      fun s' hs => h.vote hs
  | processProposals =>
    refine orElseKeep_rule (P := Recorded (hist ++ [(time, .processProposals)])) (h.later _)
      fun s' hs => ?_
    exact hkept ((keeps_visiting hr).processProposals hs)
  | govern content =>
    dsimp only
    split
    · rename_i s' hs
      exact hkept fun hk => keeps_handler hk hs
    · exact h.later _
  | external rest => exact hkept fun hk => keeps_rest hk rest

theorem Recorded.init {r : R} {gs : GenesisState} (h : initGenesis env r gs = .ok s)
    (hp : gs.proposals = []) (hv : gs.votes = []) : Recorded [] s := by
  have hvalid := (exportable_init h).committees
  obtain ⟨_, rfl⟩ := initGenesis_eq_ok.mp h
  rw [hp, hv] at *
  exact ⟨fun k p hp => (nomatch hp), fun k v p hv => (nomatch hv), fun k c hc => (hvalid k c hc).2⟩

theorem Recorded.run (hr : RouterOk env router) (h : Recorded hist s) (hinv : StoreInv s)
    {n : UInt64} (hn : s.nextProposalID = some n) (ops : List (Time × Op R))
    (hroom : n.toNat + submissions env router s ops < 2 ^ 64) :
    Recorded (hist ++ ops) (run env router s ops) := by
  induction ops generalizing s n hist with
  | nil => simpa [Committees.run] using h
  | cons op ops ih =>
    rw [submissions] at hroom
    obtain ⟨hinv', _, n', hn', heq⟩ := hinv.step hr hn op (by omega)
    have hrest := ih (h.step hr hinv.refs op) hinv' hn' (by omega)
    rw [List.append_assoc, List.singleton_append] at hrest
    exact hrest

end

/-! ## Enactments -/

theorem threshold_pos {c : Committee} (hv : c.validate = .ok ()) (hk : c.kind = .member) :
    0 < Dec.mul c.voteThreshold (newDec c.members.length) := by
  unfold Committee.validate at hv
  rw [hk] at hv
  simp only [Committee.validateBase, bind_eq_ok, rejectIf_eq_ok, not_or, not_le] at hv
  obtain ⟨_, _, _, hmembers, _, _, _, _, _, hthreshold, _⟩ := hv
  rw [mul_newDec]
  exact Int.mul_pos hthreshold.1 (by exact_mod_cast List.length_pos_of_ne_nil hmembers)

/-- Why a proposal was enacted: it is open, the committee has permission for it, one of the
present members has submitted it, and enough of them have voted for it before its deadline.
-/
structure Agreed (env : Env R) (ops : List (Time × Op R)) (t : State R) (p : Proposal)
    (com : Committee) : Prop where
  opened : t.getProposal p.id = some p
  permitted : com.hasPermissionsFor env t.rest p.content = .ok true
  submitted : ∃ time proposer, (time, Op.submitProposal proposer p.committeeID p.content) ∈ ops ∧
    com.hasMember proposer = true ∧ p.deadline = time + com.proposalDuration.toInt
  voted : ∃ voters : List Addr, voters.Nodup ∧
    Dec.mul com.voteThreshold (newDec com.members.length) ≤ newDec voters.length ∧
    ∀ x ∈ voters, com.hasMember x = true ∧ ∃ time, (time, Op.addVote p.id x .yes) ∈ ops ∧
    p.hasExpiredBy time = false

theorem agreed {ops : List (Time × Op R)} {t t₁ : State R} {p : Proposal} {com : Committee}
    (hinv : StoreInv t) (hrec : Recorded ops t) (hp : ∀ q, t.getProposal p.id = some q → q = p)
    (hcom : t.getCommittee p.committeeID = some com) (hkind : com.kind = .member)
    (hres : t.getProposalResult env p.id com = .ok true) (henact : State.Enacts env router t p t₁) :
    Agreed env ops t p com := by
  have hpassed : Dec.mul com.voteThreshold (newDec com.members.length) ≤
      t.tallyMemberCommitteeVotes p.id := by
    simpa [State.getProposalResult, hkind, State.getMemberCommitteeProposalResult] using hres
  have hvote : ∀ v ∈ t.getVotesByProposal p.id, t.votes.get (getVoteKey v.proposalID v.voter) =
      some v ∧ v.proposalID = p.id :=
    fun v hv => (hinv.votesKeyed.mem_getVotesByProposal p.id v).mp hv
  have hopen : t.getProposal p.id = some p := by
    -- a threshold is positive, so there is a vote, and its proposal is stored
    have hsome : t.getVotesByProposal p.id ≠ [] := by
      intro e
      have hpos := lt_of_lt_of_le (threshold_pos (hrec.valid _ com hcom) hkind) hpassed
      rw [State.tallyMemberCommitteeVotes, e] at hpos
      exact absurd hpos (lt_irrefl _)
    obtain ⟨v, hv⟩ := List.exists_mem_of_ne_nil _ hsome
    obtain ⟨hget, hid⟩ := hvote v hv
    obtain ⟨q, hq⟩ := hinv.proposal _ v hget
    rw [hid] at hq
    rw [hq, hp q hq]
  refine ⟨hopen, ?_, ?_, (t.getVotesByProposal p.id).map Vote.voter, ?_, ?_, fun x hx => ?_⟩
  · obtain ⟨com', _, _, hcom', hperm, _⟩ := henact
    cases hcom.symm.trans hcom'
    exact hperm
  · obtain ⟨time, proposer, c, hmem, hc, hrest⟩ := hrec.submitted _ p hopen
    cases hcom.symm.trans hc
    exact ⟨time, proposer, hmem, hrest⟩
  · exact nodup_valuesWithId (f := Vote.proposalID)
      (fun k v hv => (hinv.votesKeyed k v hv).symm) p.id
  · rw [List.length_map]
    exact hpassed
  · obtain ⟨v, hv, rfl⟩ := List.mem_map.mp hx
    obtain ⟨hget, hid⟩ := hvote v hv
    have hopen' : t.getProposal v.proposalID = some p := hid ▸ hopen
    obtain ⟨hyes, hmember⟩ := hinv.member _ v p com hget hopen' hcom hkind
    obtain ⟨time, hmem, hdue⟩ := hrec.cast _ v p hget hopen'
    rw [hid, hyes] at hmem
    exact ⟨hmember, time, hmem, hdue⟩

/-- Along every run from a valid genesis state, whatever a visit of the begin blocker does
to a proposal of a member committee besides closing it, it does because the present members
have agreed on it. -/
theorem member_committees_enact_what_was_agreed (hr : RouterOk env router) {r : R}
    {gs : GenesisState} {s₀ : State R}
    (h₀ : initGenesis env r gs = .ok s₀) (hp : gs.proposals = []) (hv : gs.votes = [])
    (ops : List (Time × Op R))
    (hroom : gs.nextProposalID.toNat + submissions env router s₀ ops < 2 ^ 64) (time : Time) :
    ∀ x ∈ visits env router time (run env router s₀ ops) (run env router s₀ ops).getProposals, ∀ t',
      State.processProposal env router time x.1 x.2 = .ok t' →
      t' = x.1 ∨ t' = x.1.deleteProposalAndVotes x.2.id ∨
      ∃ com t₁, x.1.getCommittee x.2.committeeID = some com ∧
        State.Enacts env router x.1 x.2 t₁ ∧ t' = t₁.deleteProposalAndVotes x.2.id ∧
        (com.kind = .member → Agreed env ops x.1 x.2 com) := by
  obtain ⟨hinv₀, hn₀⟩ := StoreInv.init h₀ hp hv
  have hinv := (hinv₀.run hr hn₀ ops hroom).1
  have hrec : Recorded ops (run env router s₀ ops) :=
    (Recorded.init h₀ hp hv).run hr hinv₀ hn₀ ops hroom
  intro x hx t' ht'
  obtain ⟨hkeeps, hmem⟩ := visits_rel (keeps_visiting hr) hx
  have hkeeps := hkeeps hinv.proposalsKeyed
  have hinvx := hinv.evolves ((visits_rel (evolves_visiting hr) hx).1 hinv.proposalsKeyed)
  -- a proposal that is stored under the number is the one that was visited
  have hsame : ∀ q, x.1.getProposal x.2.id = some q → q = x.2 := by
    intro q hq
    obtain ⟨k, hk⟩ := (KVStore.mem_values _ x.2).mp hmem
    have hkey := hinv.proposalsKeyed k x.2 hk
    subst hkey
    exact Option.some.inj ((hkeeps.proposals _ q hq).1.symm.trans hk)
  rcases processProposal_ends ht' with h | h | ⟨com, t₁, hcom, hres, henact, h⟩
  · exact Or.inl h
  · exact Or.inr (Or.inl h)
  · refine Or.inr (Or.inr ⟨com, t₁, hcom, henact, h, fun hkind => ?_⟩)
    exact agreed hinvx (hrec.keeps hkeeps) hsame hcom hkind hres henact

/-- The first proposal changes the committee and closes the second one, which is visited all
the same. -/
theorem member_committees_enact_what_was_agreed_self_change :
    ∃ s₀ s, initGenesis sampleEnv () sampleGenesis = .ok s₀ ∧
      s = run sampleEnv sampleRouter s₀ (sampleOps.take 4) ∧
      (visits sampleEnv sampleRouter 4 s s.getProposals).map
        (fun x => (x.2.id, x.1.getProposals.length)) = [(1, 2), (2, 0)] ∧
      (step sampleEnv sampleRouter s (4, .processProposals)).getCommittees.map
        Committee.members = [[[1]]] ∧
      ∀ x ∈ visits sampleEnv sampleRouter 4 s s.getProposals, ∀ t',
        State.processProposal sampleEnv sampleRouter 4 x.1 x.2 = .ok t' →
        t' = x.1 ∨ t' = x.1.deleteProposalAndVotes x.2.id ∨
        ∃ com t₁, x.1.getCommittee x.2.committeeID = some com ∧
          State.Enacts sampleEnv sampleRouter x.1 x.2 t₁ ∧ t' = t₁.deleteProposalAndVotes x.2.id ∧
          (com.kind = .member → Agreed sampleEnv (sampleOps.take 4) x.1 x.2 com) := by
  have h₀ := eq_ok_orElseKeep (x := initGenesis sampleEnv () sampleGenesis) (by decide +kernel)
    (emptyState ())
  refine ⟨_, _, h₀, rfl, by decide +kernel, by decide +kernel, ?_⟩
  exact member_committees_enact_what_was_agreed sampleRouter_ok h₀ rfl rfl (sampleOps.take 4)
    (by decide +kernel) 4

end ZgChain.Committees
