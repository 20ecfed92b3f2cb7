import ZgChain.Committees.Genesis

/-!
# Runs of the committee module

Messages, the begin blocker, proposals that governance enacts and whatever the
other modules do. An operation stores one new proposal or is a sequence of the
changes that `Change` lists. Handlers of other modules keep the stores of this one.
-/

namespace ZgChain.Committees

variable {R : Type}

inductive Op (R : Type) where
  | submitProposal (proposer : Addr) (committeeID : UInt64) (pubProposal : Option PubProposal)
  | addVote (proposalID : UInt64) (voter : Addr) (voteType : VoteType)
  | processProposals
  | govern (content : PubProposal)
  | external (rest : R)

section
variable (env : Env R) (router : Router R)

/-- A failed operation is reverted; a panic of the begin blocker stops the chain
in the state it had. -/
def step (s : State R) (op : Time × Op R) : State R :=
  match op.2 with
  | .submitProposal proposer committeeID pubProposal =>
    orElseKeep s ((s.submitProposal env router op.1 proposer committeeID pubProposal).map Prod.snd)
  | .addVote proposalID voter voteType => orElseKeep s (s.addVote op.1 proposalID voter voteType)
  | .processProposals => orElseKeep s (s.processProposals env router op.1)
  | .govern content =>
    match State.newProposalHandler env s content with
    | (.ok (), s') => s'
    | (.error _, _) => s
  | .external rest => { s with rest := rest }

def run (s : State R) (ops : List (Time × Op R)) : State R := runSteps (step env router) s ops

def stores (s : State R) (op : Time × Op R) : Bool :=
  match op.2 with
  | .submitProposal proposer committeeID pubProposal =>
    (s.submitProposal env router op.1 proposer committeeID pubProposal).isOk
  | _ => false

def submissions : State R → List (Time × Op R) → Nat
  | _, [] => 0
  | s, op :: ops => (stores env router s op).toNat + submissions (step env router s op) ops

end

/-- A handler whose successful runs change the state of other modules only. -/
def Handler.KeepsStores (h : Handler R) : Prop :=
  ∀ s c s', h s c = (.ok (), s') → ∃ r, s' = { s with rest := r }

/-- The module's own handler may be registered, for committees to change committees. -/
def RouterOk (env : Env R) (router : Router R) : Prop :=
  ∀ route h, router route = some h → h.KeepsStores ∨ h = State.newProposalHandler env

/-! ## Changes of the stores -/

inductive Change : State R → State R → Prop
  | rest (s : State R) (r : R) : Change s { s with rest := r }
  | close (s : State R) (id : UInt64) : Change s (s.deleteProposalAndVotes id)
  | setCommittee (s : State R) (c : Committee) : s.getProposalsByCommittee c.id = [] →
      Change s (s.setCommittee c)
  | deleteCommittee (s : State R) (id : UInt64) : s.getProposalsByCommittee id = [] →
      Change s (s.deleteCommittee id)
  | vote (s : State R) (v : Vote) (p : Proposal) (c : Committee) :
      s.getProposal v.proposalID = some p →
      s.getCommittee p.committeeID = some c →
      (c.kind = .member → v.voteType = .yes ∧ c.hasMember v.voter = true) → Change s (s.setVote v)

abbrev Evolves : State R → State R → Prop := Relation.ReflTransGen Change

theorem Change.proposalsKeyed {s s' : State R} (h : Change s s') (hk : s.ProposalsKeyed) :
    s'.ProposalsKeyed := by
  cases h with
  | rest r => exact hk
  | close id =>
    intro k p hp
    rw [State.deleteProposalAndVotes_frame, KVStore.get_delete] at hp
    split at hp
    · cases hp
    · exact hk k p hp
  | setCommittee c _ => exact hk
  | deleteCommittee id _ => exact hk
  | vote v p c _ _ _ => exact hk

theorem Evolves.proposalsKeyed {s s' : State R} (h : Evolves s s') (hk : s.ProposalsKeyed) :
    s'.ProposalsKeyed := by
  induction h with
  | refl => exact hk
  | tail _ hc ih => exact hc.proposalsKeyed ih

theorem evolves_closings (ps : List Proposal) (s : State R) :
    Evolves s (ps.foldl (fun s p => s.deleteProposalAndVotes p.id) s) := by
  induction ps generalizing s with
  | nil => exact .refl
  | cons p ps ih => exact .head (.close s p.id) (ih _)

theorem get_closings (ps : List Proposal) (s : State R) (k : Bytes) (p : Proposal)
    (h : (ps.foldl (fun s p => s.deleteProposalAndVotes p.id) s).proposals.get k = some p) :
    s.proposals.get k = some p ∧ ∀ q ∈ ps, getKeyFromID q.id ≠ k := by
  induction ps generalizing s with
  | nil => exact ⟨h, by simp⟩
  | cons q ps ih =>
    obtain ⟨hs, hne⟩ := ih (s.deleteProposalAndVotes q.id) h
    rw [State.deleteProposalAndVotes_frame, KVStore.get_delete] at hs
    split at hs
    · cases hs
    · rename_i hk
      exact ⟨hs, List.forall_mem_cons.mpr ⟨Ne.symm hk, hne⟩⟩

theorem getProposalsByCommittee_closings {s : State R} (hk : s.ProposalsKeyed) (id : UInt64) :
    ((s.getProposalsByCommittee id).foldl (fun s p => s.deleteProposalAndVotes p.id)
      s).getProposalsByCommittee id = [] := by
  rw [List.eq_nil_iff_forall_not_mem]
  intro p hp
  obtain ⟨hmem, hid⟩ := List.mem_filter.mp hp
  obtain ⟨k, hget⟩ := (KVStore.mem_values _ p).mp hmem
  obtain ⟨hold, hne⟩ := get_closings _ s k p hget
  refine hne p (List.mem_filter.mpr ⟨(KVStore.mem_values _ p).mpr ⟨k, hold⟩, hid⟩) ?_
  exact (hk k p hold).symm

theorem newProposalHandler_evolves {env : Env R} {s s' : State R} {content : PubProposal}
    (hk : s.ProposalsKeyed)
    (h : State.newProposalHandler env s content = (.ok (), s')) : Evolves s s' := by
  obtain ⟨id, change, rfl, hchange⟩ := State.newProposalHandler_ok h
  have hnone := getProposalsByCommittee_closings hk id
  rcases hchange with ⟨c, rfl, _, rfl⟩ | rfl
  · exact (evolves_closings _ s).tail (.setCommittee _ c hnone)
  · exact (evolves_closings _ s).tail (.deleteCommittee _ id hnone)

section
variable {env : Env R} {router : Router R} {s s' : State R}

theorem submitProposal_ok {time : Time} {proposer : Addr} {committeeID n : UInt64}
    {content : Option PubProposal}
    (h : s.submitProposal env router time proposer committeeID content = .ok (n, s')) :
    s.nextProposalID = some n ∧ ∃ (p : Proposal) (c : Committee), p.id = n ∧
    p.committeeID = committeeID ∧
      s.getCommittee committeeID = some c ∧ p.validateBasic env = .ok () ∧
      s' = (s.setProposal p).setNextProposalID (n + 1) := by
  unfold State.submitProposal State.storeNewProposal State.incrementNextProposalID
    State.getNextProposalID at h
  simp only [bind_eq_ok, orReject_eq_ok, rejectIf_eq_ok, mapError_eq_ok, pure_eq_ok,
    Prod.mk.injEq] at h
  obtain ⟨c, hc, _, _, _, _, _, _, _, hvalid, pc, hpc, n', hn, s₁, ⟨n₁, hn₁, rfl⟩, rfl, rfl⟩ := h
  have : n₁ = n' := Option.some.inj (hn₁.symm.trans hn)
  subst this
  rw [hpc] at hvalid
  obtain ⟨⟨⟩, hbasic, _⟩ := (bind_eq_ok _ _ _).mp hvalid
  refine ⟨hn, _, c, rfl, rfl, hc, ?_, rfl⟩
  exact hbasic

theorem addVote_ok {time : Time} {id : UInt64} {voter : Addr} {vt : VoteType}
    (h : s.addVote time id voter vt = .ok s') :
    ∃ p c, s.getProposal id = some p ∧ s.getCommittee p.committeeID = some c ∧
      (c.kind = .member → vt = .yes ∧ c.hasMember voter = true) ∧
      s' = s.setVote ⟨id, voter, vt⟩ := by
  unfold State.addVote at h
  simp only [bind_eq_ok, orReject_eq_ok, rejectIf_eq_ok, pure_eq_ok] at h
  obtain ⟨p, hp, _, _, c, hc, _, hmem, _, hyes, rfl⟩ := h
  refine ⟨p, c, hp, hc, fun hk => ⟨?_, ?_⟩, rfl⟩
  · by_contra hne
    exact hyes ⟨hk, hne⟩
  · by_contra hne
    exact hmem ⟨hk, Bool.not_eq_true _ ▸ hne⟩

structure Visiting (env : Env R) (router : Router R) (Rel : State R → State R → Prop) : Prop where
  refl : ∀ s, Rel s s
  trans : ∀ {s s₁ s₂}, Rel s s₁ → Rel s₁ s₂ → Rel s s₂
  close : ∀ s id, Rel s (s.deleteProposalAndVotes id)
  enact : ∀ {s p s'}, State.Enacts env router s p s' → Rel s s'

section
variable {Rel : State R → State R → Prop} (hv : Visiting env router Rel)
include hv

theorem Visiting.closeProposal {p : Proposal} (h : s.closeProposal env p = .ok s') : Rel s s' := by
  rw [State.closeProposal_ok h]
  exact hv.close s p.id

theorem Visiting.enactAndClose {p : Proposal} (h : s.enactAndClose env router p = .ok s') :
    Rel s s' := by
  unfold State.enactAndClose at h
  rcases State.attemptEnactProposal_cases env router s p with ⟨e, _, ha⟩ | ha | ⟨s₁, hs₁, ha⟩
  · rw [ha] at h
    cases h
  · rw [ha] at h
    exact hv.closeProposal h
  · rw [ha] at h
    exact hv.trans (hv.enact hs₁) (hv.closeProposal h)

theorem Visiting.processProposal {time : Time} {p : Proposal}
    (h : State.processProposal env router time s p = .ok s') :
    Rel s s' := by
  unfold State.processProposal at h
  split at h
  · exact hv.closeProposal h
  · split at h
    · split at h
      · obtain ⟨passed, _, h⟩ := (bind_eq_ok _ _ _).mp h
        split at h
        · exact hv.enactAndClose h
        · cases h
          exact hv.refl s
      · cases h
        exact hv.refl s
    · obtain ⟨passed, _, h⟩ := (bind_eq_ok _ _ _).mp h
      split at h
      · exact hv.enactAndClose h
      · exact hv.closeProposal h

theorem Visiting.processProposals {time : Time} (h : s.processProposals env router time = .ok s') :
    Rel s s' := by
  unfold State.processProposals at h
  generalize s.getProposals = ps at h
  induction ps generalizing s with
  | nil =>
    cases h
    exact hv.refl _
  | cons p ps ih =>
    rw [List.foldlM_cons] at h
    obtain ⟨s₁, hs₁, h⟩ := (bind_eq_ok _ _ _).mp h
    exact hv.trans (hv.processProposal hs₁) (ih h)

end

variable (hr : RouterOk env router)
include hr

theorem enacts_evolves (hk : s.ProposalsKeyed) {p : Proposal} (h : State.Enacts env router s p s') :
    Evolves s s' := by
  obtain ⟨_, c, handler, _, _, _, hroute, hrun⟩ := h
  rcases hr _ handler hroute with hkeep | rfl
  · obtain ⟨r, rfl⟩ := hkeep s c s' hrun
    exact .single (.rest s r)
  · exact newProposalHandler_evolves hk hrun

theorem evolves_visiting : Visiting env router fun s s' => s.ProposalsKeyed → Evolves s s' where
  refl := fun _ _ => .refl
  trans := fun h h' hk => (h hk).trans (h' ((h hk).proposalsKeyed hk))
  close := fun s id _ => .single (.close s id)
  enact := fun h hk => enacts_evolves hr hk h

theorem step_cases (hk : s.ProposalsKeyed) (op : Time × Op R) :
    (stores env router s op = false ∧ Evolves s (step env router s op)) ∨
    (stores env router s op = true ∧
      ∃ (p : Proposal) (n : UInt64) (c : Committee), s.nextProposalID = some n ∧
      p.id = n ∧ s.getCommittee p.committeeID = some c ∧
      step env router s op = (s.setProposal p).setNextProposalID (n + 1)) := by
  obtain ⟨time, op⟩ := op
  unfold step stores
  cases op with
  | submitProposal proposer committeeID content =>
    simp only
    cases hs : s.submitProposal env router time proposer committeeID content with
    | error e => exact Or.inl ⟨rfl, .refl⟩
    | ok r =>
      obtain ⟨n, s'⟩ := r
      obtain ⟨hn, p, c, hid, hpc, hc, _, rfl⟩ := submitProposal_ok hs
      exact Or.inr ⟨rfl, p, n, c, hn, hid, hpc ▸ hc, rfl⟩
  | addVote id voter vt =>
    refine Or.inl ⟨rfl, orElseKeep_rule (P := Evolves s) .refl fun s' hs => ?_⟩
    obtain ⟨p, c, hp, hc, hm, rfl⟩ := addVote_ok hs
    exact .single (.vote s _ p c hp hc hm)
  | processProposals =>
    exact Or.inl ⟨rfl, orElseKeep_rule (P := Evolves s) .refl fun s' hs =>
      (evolves_visiting hr).processProposals hs hk⟩
  | govern content =>
    refine Or.inl ⟨rfl, ?_⟩
    simp only
    split
    · rename_i s' hs
      exact newProposalHandler_evolves hk hs
    · exact .refl
  | external rest => exact Or.inl ⟨rfl, .single (.rest s rest)⟩

end

end ZgChain.Committees
