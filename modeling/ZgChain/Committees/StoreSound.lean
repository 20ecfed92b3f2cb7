import ZgChain.Committees.Chain

/-!
# The stores stay consistent

Votes are counted without a second look at who cast them. They are sound because
a committee is changed only when it has no proposals, a closed proposal takes its
votes along, and a proposal gets a number that no proposal had.
-/

namespace ZgChain.Committees

variable {R : Type}

structure RefInv (s : State R) : Prop where
  proposalsKeyed : s.ProposalsKeyed
  votesKeyed : s.VotesKeyed
  committee : ∀ k p, s.proposals.get k = some p → ∃ c, s.getCommittee p.committeeID = some c
  proposal : ∀ k v, s.votes.get k = some v → ∃ p, s.getProposal v.proposalID = some p
  next : ∃ n, s.nextProposalID = some n ∧ ∀ k p, s.proposals.get k = some p → p.id < n

structure StoreInv (s : State R) : Prop where
  proposalsKeyed : s.ProposalsKeyed
  votesKeyed : s.VotesKeyed
  committee : ∀ k p, s.proposals.get k = some p → ∃ c, s.getCommittee p.committeeID = some c
  proposal : ∀ k v, s.votes.get k = some v → ∃ p, s.getProposal v.proposalID = some p
  member : ∀ k v p c, s.votes.get k = some v → s.getProposal v.proposalID = some p →
    s.getCommittee p.committeeID = some c → c.kind = .member → v.voteType = .yes ∧
    c.hasMember v.voter = true
  next : ∃ n, s.nextProposalID = some n ∧ ∀ k p, s.proposals.get k = some p → p.id < n

theorem StoreInv.refs {s : State R} (h : StoreInv s) : RefInv s :=
  ⟨h.proposalsKeyed, h.votesKeyed, h.committee, h.proposal, h.next⟩

theorem RefInv.storeInv {s : State R} (h : RefInv s)
    (hm : ∀ k v p c, s.votes.get k = some v → s.getProposal v.proposalID = some p →
      s.getCommittee p.committeeID = some c → c.kind = .member → v.voteType = .yes ∧
      c.hasMember v.voter = true) :
    StoreInv s :=
  ⟨h.proposalsKeyed, h.votesKeyed, h.committee, h.proposal, hm, h.next⟩

theorem getProposal_deleteProposalAndVotes (s : State R) (id id' : UInt64) :
    (s.deleteProposalAndVotes id).getProposal id' = if id' = id then none
      else s.getProposal id' := by
  rw [State.getProposal, State.deleteProposalAndVotes_frame, KVStore.get_delete]
  by_cases h : id' = id
  · simp [h]
  · rw [if_neg (fun e => h (getKeyFromID_inj e)), if_neg h]
    rfl

theorem getCommittee_deleteProposalAndVotes (s : State R) (id id' : UInt64) :
    (s.deleteProposalAndVotes id).getCommittee id' = s.getCommittee id' := by
  rw [State.getCommittee, State.deleteProposalAndVotes_frame]
  rfl

theorem getProposal_setProposal (s : State R) (p : Proposal) (id : UInt64) :
    (s.setProposal p).getProposal id = if id = p.id then some p else s.getProposal id := by
  rw [State.getProposal, State.setProposal, KVStore.get_set]
  by_cases h : id = p.id
  · simp [h]
  · rw [if_neg (fun e => h (getKeyFromID_inj e)), if_neg h]
    rfl

theorem committeeID_ne {s : State R} {id : UInt64} (h : s.getProposalsByCommittee id = [])
    {k : Bytes} {p : Proposal} (hp : s.proposals.get k = some p) : p.committeeID ≠ id := by
  intro e
  have : p ∈ s.getProposalsByCommittee id :=
    List.mem_filter.mpr ⟨(KVStore.mem_values _ p).mpr ⟨k, hp⟩, decide_eq_true e⟩
  rw [h] at this
  cases this

theorem lt_add_one_of_room {a n : UInt64} (h : n.toNat + 1 < 2 ^ 64) (ha : a ≤ n) : a < n + 1 := by
  rw [UInt64.lt_iff_toNat_lt, UInt64.toNat_add, UInt64.toNat_one, Nat.mod_eq_of_lt h]
  rw [UInt64.le_iff_toNat_le] at ha
  omega

section
variable {s s' : State R} (h : RefInv s)
include h

theorem RefInv.close (id : UInt64) : RefInv (s.deleteProposalAndVotes id) where
  proposalsKeyed := (Change.close s id).proposalsKeyed h.proposalsKeyed
  votesKeyed := by
    intro k v hv
    exact h.votesKeyed k v ((h.votesKeyed.get_deleteProposalAndVotes id k v).mp hv).1
  committee := by
    intro k p hp
    rw [getCommittee_deleteProposalAndVotes]
    rw [State.deleteProposalAndVotes_frame, KVStore.get_delete] at hp
    split at hp
    · cases hp
    · exact h.committee k p hp
  proposal := by
    intro k v hv
    obtain ⟨hv, hid⟩ := (h.votesKeyed.get_deleteProposalAndVotes id k v).mp hv
    rw [getProposal_deleteProposalAndVotes, if_neg hid]
    exact h.proposal k v hv
  next := by
    obtain ⟨n, hn, hlt⟩ := h.next
    rw [State.deleteProposalAndVotes_frame]
    refine ⟨n, hn, fun k p hp => ?_⟩
    rw [KVStore.get_delete] at hp
    split at hp
    · cases hp
    · exact hlt k p hp

theorem RefInv.committees {id : UInt64} (hnone : s.getProposalsByCommittee id = [])
    (committees : KVStore Bytes Committee)
    (hsame : ∀ id' ≠ id, committees.get (getKeyFromID id') = s.committees.get (getKeyFromID id')) :
    RefInv { s with committees := committees } where
  proposalsKeyed := h.proposalsKeyed
  votesKeyed := h.votesKeyed
  committee := by
    intro k p hp
    obtain ⟨c, hc⟩ := h.committee k p hp
    exact ⟨c, (hsame _ (committeeID_ne hnone hp)).trans hc⟩
  proposal := h.proposal
  next := h.next

theorem RefInv.vote_ne {n : UInt64} (hn : s.nextProposalID = some n) {k : Bytes} {v : Vote}
    (hv : s.votes.get k = some v) :
    v.proposalID ≠ n := by
  intro e
  obtain ⟨q, hq⟩ := h.proposal k v hv
  have hqid : v.proposalID = q.id := getKeyFromID_inj (h.proposalsKeyed _ q hq)
  obtain ⟨n', hn', hlt⟩ := h.next
  cases hn.symm.trans hn'
  have hless := hlt _ q hq
  rw [← hqid, e] at hless
  exact UInt64.lt_irrefl _ hless

theorem RefInv.propose {p : Proposal} {n : UInt64} (hn : s.nextProposalID = some n) (hid : p.id = n)
    (hroom : n.toNat + 1 < 2 ^ 64) (hc : ∃ c, s.getCommittee p.committeeID = some c) :
    RefInv ((s.setProposal p).setNextProposalID (n + 1)) where
  proposalsKeyed := by
    intro k q hq
    rw [State.setNextProposalID, State.setProposal, KVStore.get_set] at hq
    split at hq
    · rename_i e
      cases hq
      exact e
    · exact h.proposalsKeyed k q hq
  votesKeyed := h.votesKeyed
  committee := by
    intro k q hq
    rw [State.setNextProposalID, State.setProposal, KVStore.get_set] at hq
    split at hq
    · cases hq
      exact hc
    · exact h.committee k q hq
  proposal := by
    intro k v hv
    have hsame := getProposal_setProposal s p v.proposalID
    -- no vote has the number of the new proposal
    rw [if_neg (hid ▸ h.vote_ne hn hv)] at hsame
    obtain ⟨q, hq⟩ := h.proposal k v hv
    exact ⟨q, hsame.trans hq⟩
  next := by
    obtain ⟨n', hn', hlt⟩ := h.next
    cases hn.symm.trans hn'
    refine ⟨n + 1, rfl, fun k q hq => ?_⟩
    rw [State.setNextProposalID, State.setProposal, KVStore.get_set] at hq
    split at hq
    · cases hq
      exact lt_add_one_of_room hroom (UInt64.le_of_eq hid)
    · exact lt_add_one_of_room hroom (UInt64.le_of_lt (hlt k q hq))

theorem RefInv.vote {v : Vote} {p : Proposal} (hp : s.getProposal v.proposalID = some p) :
    RefInv (s.setVote v) where
  proposalsKeyed := h.proposalsKeyed
  votesKeyed := by
    intro k w hw
    rw [State.setVote, KVStore.get_set] at hw
    split at hw
    · rename_i e
      cases hw
      exact e
    · exact h.votesKeyed k w hw
  committee := h.committee
  proposal := by
    intro k w hw
    rw [State.setVote, KVStore.get_set] at hw
    split at hw
    · cases hw
      exact ⟨p, hp⟩
    · exact h.proposal k w hw
  next := h.next

theorem RefInv.change (hc : Change s s') : RefInv s' := by
  cases hc with
  | rest r => exact ⟨h.proposalsKeyed, h.votesKeyed, h.committee, h.proposal, h.next⟩
  | close id => exact h.close id
  | setCommittee c hnone =>
    refine h.committees hnone _ fun id' hne => ?_
    exact KVStore.get_set_ne _ (fun e => hne (getKeyFromID_inj e)) c
  | deleteCommittee id hnone =>
    refine h.committees hnone _ fun id' hne => ?_
    exact KVStore.get_delete_ne _ fun e => hne (getKeyFromID_inj e)
  | vote v p c hp _ _ => exact h.vote hp

theorem RefInv.evolves (he : Evolves s s') : RefInv s' := by
  induction he with
  | refl => exact h
  | tail _ hc ih => exact ih.change hc

end

section
variable {s s' : State R} (h : StoreInv s)
include h

theorem StoreInv.close (id : UInt64) : StoreInv (s.deleteProposalAndVotes id) := by
  refine (h.refs.close id).storeInv fun k v p c hv hp hc hk => ?_
  obtain ⟨hv, hid⟩ := (h.votesKeyed.get_deleteProposalAndVotes id k v).mp hv
  rw [getProposal_deleteProposalAndVotes, if_neg hid] at hp
  rw [getCommittee_deleteProposalAndVotes] at hc
  exact h.member k v p c hv hp hc hk

theorem StoreInv.committees {id : UInt64} (hnone : s.getProposalsByCommittee id = [])
    (committees : KVStore Bytes Committee)
    (hsame : ∀ id' ≠ id, committees.get (getKeyFromID id') = s.committees.get (getKeyFromID id')) :
    StoreInv { s with committees := committees } := by
  refine (h.refs.committees hnone committees hsame).storeInv fun k v p c hv hp hc hk => ?_
  exact h.member k v p c hv hp ((hsame _ (committeeID_ne hnone hp)).symm.trans hc) hk

theorem StoreInv.propose {p : Proposal} {n : UInt64} (hn : s.nextProposalID = some n)
    (hid : p.id = n)
    (hroom : n.toNat + 1 < 2 ^ 64) (hc : ∃ c, s.getCommittee p.committeeID = some c) :
    StoreInv ((s.setProposal p).setNextProposalID (n + 1)) := by
  refine (h.refs.propose hn hid hroom hc).storeInv fun k v q c hv hq hc hk => ?_
  have hsame := getProposal_setProposal s p v.proposalID
  rw [if_neg (hid ▸ h.refs.vote_ne hn hv)] at hsame
  exact h.member k v q c hv (hsame.symm.trans hq) hc hk

theorem StoreInv.vote {v : Vote} {p : Proposal} {c : Committee}
    (hp : s.getProposal v.proposalID = some p) (hc : s.getCommittee p.committeeID = some c)
    (hm : c.kind = .member → v.voteType = .yes ∧ c.hasMember v.voter = true) :
    StoreInv (s.setVote v) := by
  refine (h.refs.vote hp).storeInv fun k w q d hw hq hd hk => ?_
  rw [State.setVote, KVStore.get_set] at hw
  split at hw
  · cases hw
    cases hp.symm.trans hq
    cases hc.symm.trans hd
    exact hm hk
  · exact h.member k w q d hw hq hd hk

theorem StoreInv.change (hc : Change s s') : StoreInv s' := by
  cases hc with
  | rest r => exact ⟨h.proposalsKeyed, h.votesKeyed, h.committee, h.proposal, h.member, h.next⟩
  | close id => exact h.close id
  | setCommittee c hnone =>
    refine h.committees hnone _ fun id' hne => ?_
    exact KVStore.get_set_ne _ (fun e => hne (getKeyFromID_inj e)) c
  | deleteCommittee id hnone =>
    refine h.committees hnone _ fun id' hne => ?_
    exact KVStore.get_delete_ne _ fun e => hne (getKeyFromID_inj e)
  | vote v p c hp hcom hm => exact h.vote hp hcom hm

theorem StoreInv.evolves (he : Evolves s s') : StoreInv s' := by
  induction he with
  | refl => exact h
  | tail _ hc ih => exact ih.change hc

end

/-! ## Numbers are not used again -/

/-- The counter does not go back, and the proposals that are new have numbers
from the old counter on. -/
structure Later (s s' : State R) : Prop where
  next : ∀ n, s.nextProposalID = some n → ∃ n', s'.nextProposalID = some n' ∧ n ≤ n'
  fresh : ∀ n, s.nextProposalID = some n → ∀ k p, s'.proposals.get k = some p →
    s.proposals.get k = some p ∨ n ≤ p.id

theorem Later.refl (s : State R) : Later s s where
  next := fun n hn => ⟨n, hn, UInt64.le_refl n⟩
  fresh := fun _ _ _ _ hp => Or.inl hp

theorem Later.trans {s s₁ s₂ : State R} (h : Later s s₁) (h' : Later s₁ s₂) : Later s s₂ where
  next := by
    intro n hn
    obtain ⟨n₁, hn₁, hle⟩ := h.next n hn
    obtain ⟨n₂, hn₂, hle'⟩ := h'.next n₁ hn₁
    exact ⟨n₂, hn₂, UInt64.le_trans hle hle'⟩
  fresh := by
    intro n hn k p hp
    obtain ⟨n₁, hn₁, hle⟩ := h.next n hn
    rcases h'.fresh n₁ hn₁ k p hp with hp | hge
    · exact h.fresh n hn k p hp
    · exact Or.inr (UInt64.le_trans hle hge)

theorem Change.later {s s' : State R} (h : Change s s') :
    s'.nextProposalID = s.nextProposalID ∧ Later s s' := by
  have hsub : ∀ {s' : State R}, s'.nextProposalID = s.nextProposalID →
      (∀ k p, s'.proposals.get k = some p → s.proposals.get k = some p) →
      s'.nextProposalID = s.nextProposalID ∧ Later s s' := by
    intro s' hn hp
    refine ⟨hn, fun n h => ⟨n, hn.trans h, UInt64.le_refl n⟩, fun n _ k p h => Or.inl (hp k p h)⟩
  cases h with
  | rest r => exact hsub rfl fun _ _ h => h
  | close id =>
    rw [State.deleteProposalAndVotes_frame]
    refine hsub rfl fun k p hp => ?_
    rw [KVStore.get_delete] at hp
    split at hp
    · cases hp
    · exact hp
  | setCommittee c _ => exact hsub rfl fun _ _ h => h
  | deleteCommittee id _ => exact hsub rfl fun _ _ h => h
  | vote v p c _ _ _ => exact hsub rfl fun _ _ h => h

theorem Evolves.later {s s' : State R} (h : Evolves s s') :
    s'.nextProposalID = s.nextProposalID ∧ Later s s' := by
  induction h with
  | refl => exact ⟨rfl, Later.refl s⟩
  | tail _ hc ih =>
    obtain ⟨hn, hl⟩ := hc.later
    exact ⟨hn.trans ih.1, ih.2.trans hl⟩

/-! ## Runs -/

section
variable {env : Env R} {router : Router R} (hr : RouterOk env router)
include hr

theorem RefInv.step {s : State R} (h : RefInv s) {n : UInt64} (hn : s.nextProposalID = some n)
    (op : Time × Op R) (hroom : n.toNat + (stores env router s op).toNat < 2 ^ 64) :
    RefInv (step env router s op) ∧ Later s (step env router s op) ∧
      ∃ n', (step env router s op).nextProposalID = some n' ∧
        n'.toNat = n.toNat + (stores env router s op).toNat := by
  rcases step_cases hr h.proposalsKeyed op with ⟨hs, he⟩ | ⟨hs, p, n₀, c, hn₀, hid, hc, heq⟩
  · obtain ⟨hnext, hlater⟩ := he.later
    exact ⟨h.evolves he, hlater, n, hnext.trans hn, by rw [hs]; rfl⟩
  · cases hn.symm.trans hn₀
    rw [hs, Bool.toNat_true] at hroom
    rw [heq, hs, Bool.toNat_true]
    have hadd : (n + 1).toNat = n.toNat + 1 := by
      rw [UInt64.toNat_add, UInt64.toNat_one, Nat.mod_eq_of_lt hroom]
    refine ⟨h.propose hn hid hroom ⟨c, hc⟩, ⟨?_, ?_⟩, n + 1, rfl, hadd⟩
    · intro m hm
      cases hn.symm.trans hm
      exact ⟨n + 1, rfl, UInt64.le_of_lt (lt_add_one_of_room hroom (UInt64.le_refl n))⟩
    · intro m hm k q hq
      cases hn.symm.trans hm
      rw [State.setNextProposalID, State.setProposal, KVStore.get_set] at hq
      split at hq
      · cases hq
        exact Or.inr (UInt64.le_of_eq hid.symm)
      · exact Or.inl hq

theorem StoreInv.step {s : State R} (h : StoreInv s) {n : UInt64} (hn : s.nextProposalID = some n)
    (op : Time × Op R) (hroom : n.toNat + (stores env router s op).toNat < 2 ^ 64) :
    StoreInv (step env router s op) ∧ Later s (step env router s op) ∧
      ∃ n', (step env router s op).nextProposalID = some n' ∧
        n'.toNat = n.toNat + (stores env router s op).toNat := by
  refine ⟨?_, (h.refs.step hr hn op hroom).2⟩
  rcases step_cases hr h.proposalsKeyed op with ⟨_, he⟩ | ⟨hs, p, n₀, c, hn₀, hid, hc, heq⟩
  · exact h.evolves he
  · cases hn.symm.trans hn₀
    rw [hs, Bool.toNat_true] at hroom
    rw [heq]
    exact h.propose hn hid hroom ⟨c, hc⟩

theorem StoreInv.run {s : State R} (h : StoreInv s) {n : UInt64} (hn : s.nextProposalID = some n)
    (ops : List (Time × Op R)) (hroom : n.toNat + submissions env router s ops < 2 ^ 64) :
    StoreInv (run env router s ops) ∧ Later s (run env router s ops) ∧
      ∃ n', (run env router s ops).nextProposalID = some n' ∧
        n'.toNat = n.toNat + submissions env router s ops := by
  induction ops generalizing s n with
  | nil => exact ⟨h, Later.refl s, n, hn, rfl⟩
  | cons op ops ih =>
    rw [submissions] at hroom ⊢
    obtain ⟨h', hlater, n', hn', heq⟩ := h.step hr hn op (by omega)
    obtain ⟨hinv, hl, m, hm, hsum⟩ := ih h' hn' (by omega)
    exact ⟨hinv, hlater.trans hl, m, hm, by omega⟩

end

theorem submissions_append (env : Env R) (router : Router R) (s : State R)
    (ops ops' : List (Time × Op R)) :
    submissions env router s (ops ++ ops') =
      submissions env router s ops + submissions env router (run env router s ops) ops' := by
  induction ops generalizing s with
  | nil => simp [submissions, run]
  | cons op ops ih =>
    rw [List.cons_append, submissions, submissions, ih, add_assoc]
    rfl

theorem StoreInv.init {env : Env R} {r : R} {gs : GenesisState} {s : State R}
    (h : initGenesis env r gs = .ok s) (hp : gs.proposals = []) (hv : gs.votes = []) :
    StoreInv s ∧ s.nextProposalID = some gs.nextProposalID := by
  unfold initGenesis at h
  simp only [bind_eq_ok, pure_eq_ok, hp, hv, List.foldl_nil] at h
  obtain ⟨_, _, rfl⟩ := h
  have hframe : ∀ (cs : List Committee) (s : State R), cs.foldl State.setCommittee s =
      { s with committees := (cs.foldl State.setCommittee s).committees } := by
    intro cs
    induction cs with
    | nil => intro s; rfl
    | cons c cs ih => intro s; rw [List.foldl_cons, ih]; rfl
  rw [hframe]
  refine ⟨⟨?_, ?_, ?_, ?_, ?_, gs.nextProposalID, rfl, ?_⟩, rfl⟩
  · intro k p h
    cases h
  · intro k v h
    cases h
  · intro k p h
    cases h
  · intro k v h
    cases h
  · intro k v p c h
    cases h
  · intro k p h
    cases h

theorem committee_store_invariant {env : Env R} {router : Router R}
    (hr : RouterOk env router) {r : R}
    {gs : GenesisState} {s₀ : State R} (h₀ : initGenesis env r gs = .ok s₀) (hp : gs.proposals = [])
    (hv : gs.votes = []) (ops : List (Time × Op R))
    (hroom : gs.nextProposalID.toNat + submissions env router s₀ ops < 2 ^ 64) :
    let s := run env router s₀ ops
    (∀ p ∈ s.getProposals, ∃ c, s.getCommittee p.committeeID = some c) ∧
    (∀ v ∈ s.getVotes, ∃ p, s.getProposal v.proposalID = some p) ∧
    (s.getVotes.map fun v => (v.proposalID, v.voter)).Nodup ∧
    (∀ v ∈ s.getVotes, ∀ p c, s.getProposal v.proposalID = some p →
      s.getCommittee p.committeeID = some c →
      c.kind = .member → v.voteType = .yes ∧ c.hasMember v.voter = true) ∧
    (∃ n, s.nextProposalID = some n ∧ ∀ p ∈ s.getProposals, p.id < n) ∧
    (∀ before after, ops = before ++ after →
      ∀ n, (run env router s₀ before).nextProposalID = some n →
      ∀ p ∈ s.getProposals, p ∈ (run env router s₀ before).getProposals ∨ n ≤ p.id) := by
  obtain ⟨hinv₀, hn₀⟩ := StoreInv.init h₀ hp hv
  have hinv := (hinv₀.run hr hn₀ ops hroom).1
  refine ⟨?_, ?_, ?_, ?_, ?_, ?_⟩
  · intro p hp
    obtain ⟨k, hk⟩ := (KVStore.mem_values _ p).mp hp
    exact hinv.committee k p hk
  · intro v hv
    obtain ⟨k, hk⟩ := (KVStore.mem_values _ v).mp hv
    exact hinv.proposal k v hk
  · have hkeyed : ∀ k v, (run env router s₀ ops).votes.get k = some v →
        (fun v : Vote => getVoteKey v.proposalID v.voter) v = k :=
          fun k v h => (hinv.votesKeyed k v h).symm
    have hnodup := KVStore.values_nodup hkeyed
    refine List.Nodup.of_map (fun x : UInt64 × Addr => getVoteKey x.1 x.2) ?_
    rw [List.map_map]
    exact hnodup
  · intro v hv p c hp hc hk
    obtain ⟨k, hget⟩ := (KVStore.mem_values _ v).mp hv
    exact hinv.member k v p c hget hp hc hk
  · obtain ⟨n, hn, hlt⟩ := hinv.next
    refine ⟨n, hn, fun p hp => ?_⟩
    obtain ⟨k, hk⟩ := (KVStore.mem_values _ p).mp hp
    exact hlt k p hk
  · intro before after hops n hn p hp
    -- the run is split where the counter was read
    subst hops
    rw [submissions_append] at hroom
    obtain ⟨hb, _, n', hn', hsum⟩ := hinv₀.run hr hn₀ before (by omega)
    cases hn.symm.trans hn'
    have hlater := (hb.run hr hn after (by omega)).2.1
    obtain ⟨k, hk⟩ := (KVStore.mem_values _ p).mp hp
    rw [run, runSteps_append] at hk
    rcases hlater.fresh n hn k p hk with hk | hge
    · exact Or.inl ((KVStore.mem_values _ p).mpr ⟨k, hk⟩)
    · exact Or.inr hge

/-! ## A committee that changes itself -/

def sampleEnv : Env Unit where
  getSubspace := fun _ => none
  getAccount := fun _ a => some a
  getBalance := fun _ _ _ => 0
  getSupply := fun _ _ => 0
  balance_nonneg := fun _ _ _ => Int.le_refl 0
  validateBasic := fun _ => .ok ()
  proposalRoute := fun _ => "gov"

def sampleRouter : Router Unit := fun route =>
  if route = "gov" then some fun s _ => (.ok (), s)
  else if route = routerKey then some (State.newProposalHandler sampleEnv)
  else none

theorem sampleRouter_ok : RouterOk sampleEnv sampleRouter := by
  intro route h hroute
  unfold sampleRouter at hroute
  split at hroute
  · cases hroute
    refine Or.inl fun s c s' hs => ⟨s.rest, ?_⟩
    exact (congrArg Prod.snd hs).symm
  · split at hroute
    · cases hroute
      exact Or.inr rfl
    · cases hroute

def sampleCommittee (members : List Addr) : Committee where
  id := 1
  description := "members"
  members := members
  permissions := [.god]
  voteThreshold := decPrecision / 2
  proposalDuration := 1000
  tallyOption := .firstPastThePost
  kind := .member

def sampleGenesis : GenesisState := ⟨1, [sampleCommittee [[1], [2]]], [], []⟩

/-- The first proposal drops the second member while that member's proposal is open. -/
def sampleOps : List (Time × Op Unit) :=
  [(0, .submitProposal [1] 1 (some (.committeeChange "a" "b" (.packed (sampleCommittee [[1]]))))),
   (1, .submitProposal [2] 1 (some (.text "c" "d"))),
   (2, .addVote 1 [1] .yes),
   (3, .addVote 2 [2] .yes),
   (4, .processProposals),
   (5, .submitProposal [1] 1 (some (.text "e" "f"))),
   (6, .addVote 3 [1] .yes)]

theorem committee_store_invariant_self_change :
    ∃ s₀ s, initGenesis sampleEnv () sampleGenesis = .ok s₀ ∧
      s = run sampleEnv sampleRouter s₀ sampleOps ∧
      s.getProposals.map (·.id) = [3] ∧ s.getVotes.length = 1 ∧
      ∀ v ∈ s.getVotes, ∀ p c, s.getProposal v.proposalID = some p →
        s.getCommittee p.committeeID = some c →
        c.kind = .member → v.voteType = .yes ∧ c.hasMember v.voter = true := by
  have h₀ := eq_ok_orElseKeep (x := initGenesis sampleEnv () sampleGenesis) (by decide +kernel)
    (emptyState ())
  refine ⟨_, _, h₀, rfl, by decide +kernel, by decide +kernel, ?_⟩
  exact (committee_store_invariant sampleRouter_ok h₀ rfl rfl sampleOps (by decide +kernel)).2.2.2.1

end ZgChain.Committees
