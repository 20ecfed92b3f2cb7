import ZgChain.Committees.StoreSound

/-!
# The exported state can be imported again

The check of a genesis state looks once more at every committee, proposal and vote and at what
they refer to. What is stored refers to what is stored, and only valid committees, proposals
and votes get into the stores.
-/

namespace ZgChain.Committees

variable {R : Type} {env : Env R}

/-! ## What the check of a genesis state asks for -/

structure GenesisOk (env : Env R) (gs : GenesisState) : Prop where
  committeeIDs : (gs.committees.map Committee.id).Nodup
  committees : ∀ c ∈ gs.committees, c.validate = .ok ()
  proposalIDs : (gs.proposals.map Proposal.id).Nodup
  proposals : ∀ p ∈ gs.proposals, p.id < gs.nextProposalID ∧
    p.committeeID ∈ gs.committees.map Committee.id ∧
      p.validateBasic env = .ok ()
  votes : ∀ v ∈ gs.votes, v.validate = .ok () ∧ v.proposalID ∈ gs.proposals.map Proposal.id

theorem validateCommittees_eq_ok {seen : List UInt64} {cs : List Committee} {u : Unit} :
    validateCommittees seen cs = .ok u ↔
      (∀ c ∈ cs, c.validate = .ok ()) ∧ (cs.map Committee.id).Nodup ∧ ∀ c ∈ cs, c.id ∉ seen := by
  induction cs generalizing seen with
  | nil => simp [validateCommittees]
  | cons c cs ih =>
    simp only [validateCommittees, bind_eq_ok, rejectIf_eq_ok, mapError_eq_ok, ih, exists_const]
    rw [nodup_fresh_cons, List.forall_mem_cons]
    tauto

theorem validateProposals_eq_ok {gs : GenesisState} {seen : List UInt64} {ps : List Proposal}
    {u : Unit} :
    gs.validateProposals env seen ps = .ok u ↔
      (∀ p ∈ ps, p.id < gs.nextProposalID ∧ p.committeeID ∈ gs.committees.map Committee.id ∧
        p.validateBasic env = .ok ()) ∧ (ps.map Proposal.id).Nodup ∧ ∀ p ∈ ps, p.id ∉ seen := by
  induction ps generalizing seen with
  | nil => simp [GenesisState.validateProposals]
  | cons p ps ih =>
    simp only [GenesisState.validateProposals, bind_eq_ok, rejectIf_eq_ok, ih, exists_const,
      not_not, UInt64.not_le]
    rw [nodup_fresh_cons, List.forall_mem_cons]
    tauto

theorem validateVote_eq_ok {gs : GenesisState} {v : Vote} {u : Unit} :
    gs.validateVote v = .ok u ↔ v.validate = .ok () ∧
    v.proposalID ∈ gs.proposals.map Proposal.id := by
  simp only [GenesisState.validateVote, bind_eq_ok, mapError_eq_ok, rejectIf_eq_ok, not_not]
  constructor
  · rintro ⟨_, h⟩
    exact h
  · intro h
    exact ⟨(), h⟩

theorem genesis_validate_eq_ok {gs : GenesisState} {u : Unit} :
    gs.validate env = .ok u ↔ GenesisOk env gs := by
  simp only [GenesisState.validate, bind_eq_ok, validateCommittees_eq_ok, validateProposals_eq_ok,
    forM_eq_ok, validateVote_eq_ok, exists_const]
  constructor
  · rintro ⟨⟨hc, hcn, _⟩, ⟨hp, hpn, _⟩, hv⟩
    exact ⟨hcn, hc, hpn, hp, hv⟩
  · intro h
    exact ⟨⟨h.committees, h.committeeIDs, by simp⟩, ⟨h.proposals, h.proposalIDs, by simp⟩, h.votes⟩

/-! ## The imported state -/

def committeeKey (c : Committee) : Bytes := getKeyFromID c.id

def proposalKey (p : Proposal) : Bytes := getKeyFromID p.id

def voteKey (v : Vote) : Bytes := getVoteKey v.proposalID v.voter

theorem foldl_setCommittee (cs : List Committee) (s : State R) :
    cs.foldl State.setCommittee s =
      { s with committees := KVStore.setAll committeeKey s.committees cs } := by
  induction cs generalizing s with
  | nil => rfl
  | cons c cs ih => exact ih (s.setCommittee c)

theorem foldl_setProposal (ps : List Proposal) (s : State R) :
    ps.foldl State.setProposal s =
      { s with proposals := KVStore.setAll proposalKey s.proposals ps } := by
  induction ps generalizing s with
  | nil => rfl
  | cons p ps ih => exact ih (s.setProposal p)

theorem foldl_setVote (vs : List Vote) (s : State R) :
    vs.foldl State.setVote s = { s with votes := KVStore.setAll voteKey s.votes vs } := by
  induction vs generalizing s with
  | nil => rfl
  | cons v vs ih => exact ih (s.setVote v)

theorem initGenesis_eq_ok {r : R} {gs : GenesisState} {s : State R} :
    initGenesis env r gs = .ok s ↔ GenesisOk env gs ∧
    s = ⟨KVStore.setAll committeeKey .empty gs.committees,
      KVStore.setAll proposalKey .empty gs.proposals,
      KVStore.setAll voteKey .empty gs.votes, some gs.nextProposalID, r⟩ := by
  simp only [initGenesis, bind_eq_ok, pure_eq_ok, foldl_setCommittee, foldl_setProposal,
    foldl_setVote]
  constructor
  · rintro ⟨_, hv, rfl⟩
    exact ⟨genesis_validate_eq_ok.mp hv, rfl⟩
  · rintro ⟨hv, rfl⟩
    exact ⟨(), genesis_validate_eq_ok.mpr hv, rfl⟩

/-! ## States that can be exported -/

structure Exportable (env : Env R) (s : State R) : Prop where
  refs : RefInv s
  committees : ∀ k c, s.committees.get k = some c → committeeKey c = k ∧ c.validate = .ok ()
  proposals : ∀ k p, s.proposals.get k = some p → p.validateBasic env = .ok ()
  votes : ∀ k v, s.votes.get k = some v → v.validate = .ok ()

theorem mem_of_get {V : Type} {key : V → Bytes} {vs : List V} {k : Bytes} {v : V}
    (h : (KVStore.setAll key .empty vs).get k = some v) : v ∈ vs ∧ key v = k :=
  (KVStore.mem_of_get_setAll h).resolve_right fun e => by cases e

theorem exportable_init {r : R} {gs : GenesisState} {s : State R}
    (h : initGenesis env r gs = .ok s) : Exportable env s := by
  obtain ⟨hok, rfl⟩ := initGenesis_eq_ok.mp h
  refine ⟨⟨fun k p hp => (mem_of_get hp).2.symm, fun k v hv => (mem_of_get hv).2.symm,
    fun k p hp => ?_, fun k v hv => ?_,
    gs.nextProposalID, rfl, fun k p hp => (hok.proposals p (mem_of_get hp).1).1⟩, fun k c hc => ?_,
      fun k p hp => ?_,
    fun k v hv => ?_⟩
  · obtain ⟨c, hc, he⟩ := List.mem_map.mp (hok.proposals p (mem_of_get hp).1).2.1
    exact KVStore.exists_get_setAll (Or.inl ⟨c, hc, congrArg getKeyFromID he⟩)
  · obtain ⟨p, hp, he⟩ := List.mem_map.mp (hok.votes v (mem_of_get hv).1).2
    exact KVStore.exists_get_setAll (Or.inl ⟨p, hp, congrArg getKeyFromID he⟩)
  · exact ⟨(mem_of_get hc).2, hok.committees c (mem_of_get hc).1⟩
  · exact (hok.proposals p (mem_of_get hp).1).2.2
  · exact (hok.votes v (mem_of_get hv).1).1

theorem map_id_nodup {V : Type} {s : KVStore Bytes V} {id : V → UInt64}
    (h : ∀ k v, s.get k = some v → getKeyFromID (id v) = k) : (s.values.map id).Nodup := by
  refine List.Nodup.of_map getKeyFromID ?_
  rw [List.map_map]
  exact KVStore.values_nodup h

section
variable {s : State R} (h : Exportable env s)
include h

theorem Exportable.genesisOk {n : UInt64} (hn : s.nextProposalID = some n) :
    GenesisOk env ⟨n, s.getCommittees, s.getProposals, s.getVotes⟩ where
  committeeIDs := map_id_nodup fun k c hc => (h.committees k c hc).1
  committees := by
    intro c hc
    obtain ⟨k, hget⟩ := (KVStore.mem_values _ c).mp hc
    exact (h.committees k c hget).2
  proposalIDs := map_id_nodup fun k p hp => (h.refs.proposalsKeyed k p hp).symm
  proposals := by
    intro p hp
    obtain ⟨k, hget⟩ := (KVStore.mem_values _ p).mp hp
    obtain ⟨n', hn', hlt⟩ := h.refs.next
    cases hn.symm.trans hn'
    obtain ⟨c, hc⟩ := h.refs.committee k p hget
    have hid : c.id = p.committeeID := getKeyFromID_inj (h.committees _ c hc).1
    exact ⟨hlt k p hget, hid ▸ List.mem_map_of_mem ((KVStore.mem_values _ c).mpr ⟨_, hc⟩),
      h.proposals k p hget⟩
  votes := by
    intro v hv
    obtain ⟨k, hget⟩ := (KVStore.mem_values _ v).mp hv
    obtain ⟨p, hp⟩ := h.refs.proposal k v hget
    have hid : v.proposalID = p.id := getKeyFromID_inj (h.refs.proposalsKeyed _ p hp)
    exact ⟨h.votes k v hget, hid ▸ List.mem_map_of_mem ((KVStore.mem_values _ p).mpr ⟨_, hp⟩)⟩

theorem Exportable.restored (r : R) :
    ∃ gs s', exportGenesis s = .ok gs ∧ gs.validate env = .ok () ∧ initGenesis env r gs = .ok s' ∧
      s'.committees = s.committees ∧ s'.proposals = s.proposals ∧ s'.votes = s.votes ∧
      s'.nextProposalID = s.nextProposalID := by
  obtain ⟨n, hn, _⟩ := h.refs.next
  have hok := h.genesisOk hn
  have hexport : exportGenesis s = .ok ⟨n, s.getCommittees, s.getProposals, s.getVotes⟩ := by
    rw [exportGenesis, State.getNextProposalID, hn]
    rfl
  refine ⟨_, _, hexport, genesis_validate_eq_ok.mpr hok, initGenesis_eq_ok.mpr ⟨hok, rfl⟩, ?_, ?_,
    ?_, hn.symm⟩
  · exact KVStore.setAll_values fun k c hc => (h.committees k c hc).1
  · exact KVStore.setAll_values fun k p hp => (h.refs.proposalsKeyed k p hp).symm
  · exact KVStore.setAll_values fun k v hv => (h.refs.votesKeyed k v hv).symm

end

/-! ## Only valid things are stored -/

structure NewValid (env : Env R) (s s' : State R) : Prop where
  committees : ∀ k c, s'.committees.get k = some c → s.committees.get k = some c ∨
    committeeKey c = k ∧ c.validate = .ok ()
  proposals : ∀ k p, s'.proposals.get k = some p → s.proposals.get k = some p ∨
    p.validateBasic env = .ok ()
  votes : ∀ k v, s'.votes.get k = some v → s.votes.get k = some v ∨ v.validate = .ok ()

theorem NewValid.exportable {s s' : State R} (h : NewValid env s s') (hs : Exportable env s)
    (hrefs : RefInv s') :
    Exportable env s' where
  refs := hrefs
  committees := fun k c hc => (h.committees k c hc).elim (hs.committees k c) id
  proposals := fun k p hp => (h.proposals k p hp).elim (hs.proposals k p) id
  votes := fun k v hv => (h.votes k v hv).elim (hs.votes k v) id

theorem NewValid.refl (s : State R) : NewValid env s s :=
  ⟨fun _ _ => .inl, fun _ _ => .inl, fun _ _ => .inl⟩

theorem NewValid.trans {s s₁ s₂ : State R} (h : NewValid env s s₁) (h' : NewValid env s₁ s₂) :
    NewValid env s s₂ where
  committees := fun k c hc => (h'.committees k c hc).elim (h.committees k c) .inr
  proposals := fun k p hp => (h'.proposals k p hp).elim (h.proposals k p) .inr
  votes := fun k v hv => (h'.votes k v hv).elim (h.votes k v) .inr

theorem newValid_close (s : State R) (id : UInt64) :
    NewValid env s (s.deleteProposalAndVotes id) where
  committees := by
    intro k c hc
    rw [State.deleteProposalAndVotes_frame] at hc
    exact .inl hc
  proposals := by
    intro k p hp
    rw [State.deleteProposalAndVotes_frame, KVStore.get_delete] at hp
    split at hp
    · cases hp
    · exact .inl hp
  votes := by
    intro k v hv
    exact .inl ((State.get_foldl_deleteVote _ _ k v).mp hv).1

theorem newValid_closings (ps : List Proposal) (s : State R) :
    NewValid env s (ps.foldl (fun s p => s.deleteProposalAndVotes p.id) s) := by
  induction ps generalizing s with
  | nil => exact .refl s
  | cons p ps ih => exact (newValid_close s p.id).trans (ih _)

theorem newValid_setCommittee (s : State R) {c : Committee} (hc : c.validate = .ok ()) :
    NewValid env s (s.setCommittee c) where
  committees := by
    intro k d hd
    rw [State.setCommittee, KVStore.get_set] at hd
    split at hd
    · rename_i hk
      cases hd
      exact .inr ⟨hk.symm, hc⟩
    · exact .inl hd
  proposals := fun _ _ => .inl
  votes := fun _ _ => .inl

theorem newValid_deleteCommittee (s : State R) (id : UInt64) :
    NewValid env s (s.deleteCommittee id) where
  committees := by
    intro k d hd
    rw [State.deleteCommittee, KVStore.get_delete] at hd
    split at hd
    · cases hd
    · exact .inl hd
  proposals := fun _ _ => .inl
  votes := fun _ _ => .inl

theorem newValid_handler {s s' : State R} {content : PubProposal}
    (h : State.newProposalHandler env s content = (.ok (), s')) : NewValid env s s' := by
  obtain ⟨id, change, rfl, hchange⟩ := State.newProposalHandler_ok h
  refine (newValid_closings (s.getProposalsByCommittee id) s).trans ?_
  rcases hchange with ⟨c, _, hc, rfl⟩ | rfl
  · exact newValid_setCommittee _ hc
  · exact newValid_deleteCommittee _ id

theorem newValid_propose (s : State R) {p : Proposal} (hp : p.validateBasic env = .ok ())
    (n : UInt64) :
    NewValid env s ((s.setProposal p).setNextProposalID n) where
  committees := fun _ _ => .inl
  proposals := by
    intro k q hq
    rw [State.setNextProposalID, State.setProposal, KVStore.get_set] at hq
    split at hq
    · cases hq
      exact .inr hp
    · exact .inl hq
  votes := fun _ _ => .inl

theorem newValid_vote (s : State R) {v : Vote} (hv : v.validate = .ok ()) :
    NewValid env s (s.setVote v) where
  committees := fun _ _ => .inl
  proposals := fun _ _ => .inl
  votes := by
    intro k w hw
    rw [State.setVote, KVStore.get_set] at hw
    split at hw
    · cases hw
      exact .inr hv
    · exact .inl hw

theorem newValid_rest (s : State R) (r : R) : NewValid env s { s with rest := r } :=
  ⟨fun _ _ => .inl, fun _ _ => .inl, fun _ _ => .inl⟩

/-! ## Runs -/

/-- A vote whose message passes its basic check. -/
def Op.VoteChecked : Op R → Prop
  | .addVote proposalID voter voteType => (⟨proposalID, voter, voteType⟩ : Vote).validate = .ok ()
  | _ => True

section
variable {router : Router R} (hr : RouterOk env router)
include hr

theorem newValid_visiting : Visiting env router (NewValid env) where
  refl := .refl
  trans := .trans
  close := newValid_close
  enact := by
    rintro s p s' ⟨_, content, handler, _, _, _, hroute, hrun⟩
    rcases hr _ handler hroute with hkeep | rfl
    · obtain ⟨r, rfl⟩ := hkeep s content s' hrun
      exact newValid_rest s r
    · exact newValid_handler hrun

theorem step_newValid (s : State R) (op : Time × Op R) (hvote : op.2.VoteChecked) :
    NewValid env s (step env router s op) := by
  obtain ⟨time, op⟩ := op
  unfold step
  cases op with
  | submitProposal proposer committeeID content =>
    simp only
    cases hs : s.submitProposal env router time proposer committeeID content with
    | error e => exact .refl s
    | ok result =>
      obtain ⟨n, s'⟩ := result
      obtain ⟨_, p, _, _, _, _, hvalid, rfl⟩ := submitProposal_ok hs
      exact newValid_propose s hvalid _
  | addVote id voter vt =>
    refine orElseKeep_rule (P := NewValid env s) (.refl s) fun s' hs => ?_
    obtain ⟨_, _, _, _, _, rfl⟩ := addVote_ok hs
    exact newValid_vote s hvote
  | processProposals =>
    exact orElseKeep_rule (P := NewValid env s) (.refl s) fun s' hs =>
      (newValid_visiting hr).processProposals hs
  | govern content =>
    simp only
    split
    · rename_i s' hs
      exact newValid_handler hs
    · exact .refl s
  | external rest => exact newValid_rest s rest

theorem Exportable.run {s : State R} (h : Exportable env s) {n : UInt64}
    (hn : s.nextProposalID = some n)
    (ops : List (Time × Op R)) (hvotes : ∀ op ∈ ops, op.2.VoteChecked)
    (hroom : n.toNat + submissions env router s ops < 2 ^ 64) :
    Exportable env (run env router s ops) := by
  induction ops generalizing s n with
  | nil => exact h
  | cons op ops ih =>
    rw [submissions] at hroom
    rw [List.forall_mem_cons] at hvotes
    obtain ⟨hrefs, _, n', hn', heq⟩ := h.refs.step hr hn op (by omega)
    exact ih ((step_newValid hr s op hvotes.1).exportable h hrefs) hn' hvotes.2 (by omega)

end

/-- In a run whose votes pass the check of their messages, the state can be exported at any
time, the export is valid, and its import restores the stores. -/
theorem committees_restored_from_export {env : Env R} {router : Router R}
    (hr : RouterOk env router) {r : R}
    {gs : GenesisState} {s₀ : State R} (h₀ : initGenesis env r gs = .ok s₀)
    (ops : List (Time × Op R)) (hvotes : ∀ op ∈ ops, op.2.VoteChecked)
    (hroom : gs.nextProposalID.toNat + submissions env router s₀ ops < 2 ^ 64) (r' : R) :
    ∃ exported s', exportGenesis (run env router s₀ ops) = .ok exported ∧
      exported.validate env = .ok () ∧
      initGenesis env r' exported = .ok s' ∧ s'.committees = (run env router s₀ ops).committees ∧
      s'.proposals = (run env router s₀ ops).proposals ∧ s'.votes = (run env router s₀ ops).votes ∧
      s'.nextProposalID = (run env router s₀ ops).nextProposalID := by
  have hn : s₀.nextProposalID = some gs.nextProposalID := by
    rw [(initGenesis_eq_ok.mp h₀).2]
  exact ((exportable_init h₀).run hr hn ops hvotes hroom).restored r'

/-! Two chains: members that vote yes, and holders of a token that may also vote otherwise. -/

theorem sampleOps_checked : ∀ op ∈ sampleOps, op.2.VoteChecked := by
  intro op hop
  simp only [sampleOps, List.mem_cons, List.not_mem_nil, or_false] at hop
  rcases hop with rfl | rfl | rfl | rfl | rfl | rfl | rfl
  all_goals first | rfl | trivial

theorem committees_restored_after_self_change :
    ∃ s₀ exported s', initGenesis sampleEnv () sampleGenesis = .ok s₀ ∧
      exportGenesis (run sampleEnv sampleRouter s₀ sampleOps) = .ok exported ∧
      exported.validate sampleEnv = .ok () ∧
      initGenesis sampleEnv () exported = .ok s' ∧
      s'.votes = (run sampleEnv sampleRouter s₀ sampleOps).votes := by
  have h₀ := eq_ok_orElseKeep (x := initGenesis sampleEnv () sampleGenesis) (by decide +kernel)
    (emptyState ())
  obtain ⟨exported, s', hexport, hvalid, hinit, _, _, hvotes, _⟩ :=
    committees_restored_from_export sampleRouter_ok h₀ sampleOps sampleOps_checked
      (by decide +kernel) ()
  exact ⟨_, exported, s', h₀, hexport, hvalid, hinit, hvotes⟩

def tokenCommittee : Committee := { sampleCommittee [[1]] with kind := .token 0 "abc" }

def tokenGenesis : GenesisState := ⟨1, [tokenCommittee], [], []⟩

/-- The vote has no type, and its message would not pass the basic check. -/
def uncheckedOps : List (Time × Op Unit) :=
  [(0, .submitProposal [1] 1 (some (.text "a" "b"))), (1, .addVote 1 [2] .unspecified)]

/-- A vote without a type is stored, and the export with it does not pass the check. -/
theorem unchecked_vote_not_restored :
    ∃ s₀ exported, initGenesis sampleEnv () tokenGenesis = .ok s₀ ∧
      exportGenesis (run sampleEnv sampleRouter s₀ uncheckedOps) = .ok exported ∧
      exported.validate sampleEnv = .error (invalidGenesis "invalid vote type") := by
  have h₀ := eq_ok_orElseKeep (x := initGenesis sampleEnv () tokenGenesis) (by decide +kernel)
    (emptyState ())
  refine ⟨_, _, h₀, eq_ok_orElseKeep (by decide +kernel) tokenGenesis, by decide +kernel⟩

end ZgChain.Committees
