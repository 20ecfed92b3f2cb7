import ZgChain.Committees.Permissions
import ZgChain.Lib.IdKey
import ZgChain.Sdk.Dec

/-!
# The stores of committees, proposals and votes

A vote is stored under the number of its proposal and its voter, so the votes of a
proposal are the entries whose keys start with that number. Closing a proposal
tallies it a last time and deletes it with its votes.
-/

namespace ZgChain.Committees

variable {R : Type}

namespace State

/-! ## Committees -/

def getCommittee (s : State R) (committeeID : UInt64) : Option Committee :=
  s.committees.get (getKeyFromID committeeID)

def setCommittee (s : State R) (c : Committee) : State R :=
  { s with committees := s.committees.set (getKeyFromID c.id) c }

def deleteCommittee (s : State R) (committeeID : UInt64) : State R :=
  { s with committees := s.committees.delete (getKeyFromID committeeID) }

def getCommittees (s : State R) : List Committee := s.committees.values

/-! ## Proposals -/

def setNextProposalID (s : State R) (id : UInt64) : State R := { s with nextProposalID := some id }

def getNextProposalID (s : State R) : Except Error UInt64 :=
  orReject s.nextProposalID (.invalidGenesis "next proposal ID not set at genesis")

def incrementNextProposalID (s : State R) : Except Error (State R) := do
  let id ← s.getNextProposalID
  return s.setNextProposalID (id + 1)

def getProposal (s : State R) (proposalID : UInt64) : Option Proposal :=
  s.proposals.get (getKeyFromID proposalID)

def setProposal (s : State R) (p : Proposal) : State R :=
  { s with proposals := s.proposals.set (getKeyFromID p.id) p }

def deleteProposal (s : State R) (proposalID : UInt64) : State R :=
  { s with proposals := s.proposals.delete (getKeyFromID proposalID) }

def storeNewProposal (s : State R) (pubProposal : PubProposal) (committeeID : UInt64)
    (deadline : Time) :
    Except Error (UInt64 × State R) := do
  let newProposalID ← s.getNextProposalID
  let s' ← (s.setProposal
      ⟨some pubProposal, newProposalID, committeeID, deadline⟩).incrementNextProposalID
  return (newProposalID, s')

def getProposals (s : State R) : List Proposal := s.proposals.values

def getProposalsByCommittee (s : State R) (committeeID : UInt64) : List Proposal :=
  s.getProposals.filter fun p => decide (p.committeeID = committeeID)

/-! ## Votes -/

def setVote (s : State R) (v : Vote) : State R :=
  { s with votes := s.votes.set (getVoteKey v.proposalID v.voter) v }

def deleteVote (s : State R) (proposalID : UInt64) (voter : Addr) : State R :=
  { s with votes := s.votes.delete (getVoteKey proposalID voter) }

def getVotes (s : State R) : List Vote := s.votes.values

def getVotesByProposal (s : State R) (proposalID : UInt64) : List Vote :=
  (s.votes.entries.filter fun e => (getKeyFromID proposalID).isPrefixOf e.1).map Prod.snd

def deleteProposalAndVotes (s : State R) (proposalID : UInt64) : State R :=
  (s.getVotesByProposal proposalID).foldl (fun s v => s.deleteVote v.proposalID v.voter)
    (s.deleteProposal proposalID)

/-! ## Tallies -/

structure Tally where
  yesVotes : Dec
  noVotes : Dec
  totalVotes : Dec
  possibleVotes : Dec
  deriving DecidableEq, Repr

variable (env : Env R)

/-- A decimal of more than 315 bits makes the operation panic. -/
def checkDec (d : Dec) : Except Panic Dec := do
  rejectIf (2 ^ maxDecBitLen ≤ d.natAbs) (.other "Int overflow")
  return d

def tallyMemberCommitteeVotes (s : State R) (proposalID : UInt64) : Dec :=
  newDec (s.getVotesByProposal proposalID).length

def addTokenVote (s : State R) (tallyDenom : Denom) (t : Tally) (v : Vote) :
    Except Panic Tally := do
  -- the voter's account is used without a check that there is one
  let acc ← orReject (env.getAccount s.rest v.voter) .nilPointer
  let accNumCoins := newDec (env.getBalance s.rest acc tallyDenom)
  let totalVotes ← checkDec (t.totalVotes + accNumCoins)
  match v.voteType with
  | .yes => do
    let yesVotes ← checkDec (t.yesVotes + accNumCoins)
    return { t with yesVotes, totalVotes }
  | .no => do
    let noVotes ← checkDec (t.noVotes + accNumCoins)
    return { t with noVotes, totalVotes }
  | _ => return { t with totalVotes }

def tallyTokenCommitteeVotes (s : State R) (proposalID : UInt64) (tallyDenom : Denom) :
    Except Panic Tally :=
  (s.getVotesByProposal proposalID).foldlM (s.addTokenVote env tallyDenom)
    ⟨0, 0, 0, newDec (env.getSupply s.rest tallyDenom)⟩

/-- A threshold is at most one, so the product with the number of members is in range. -/
def getMemberCommitteeProposalResult (s : State R) (proposalID : UInt64) (c : Committee) : Bool :=
  decide (Dec.mul c.voteThreshold (newDec c.members.length) ≤
    s.tallyMemberCommitteeVotes proposalID)

def getTokenCommitteeProposalResult (s : State R) (proposalID : UInt64) (c : Committee)
    (quorum : Dec) (tallyDenom : Denom) : Except Panic Bool := do
  let t ← s.tallyTokenCommitteeVotes env proposalID tallyDenom
  let quorumVotes ← checkDec (Dec.mul quorum t.possibleVotes)
  if quorumVotes ≤ t.totalVotes then do
    let nonAbstainVotes ← checkDec (t.yesVotes + t.noVotes)
    let thresholdVotes ← checkDec (Dec.mul nonAbstainVotes c.voteThreshold)
    return decide (thresholdVotes ≤ t.yesVotes)
  else return false

def getProposalResult (s : State R) (proposalID : UInt64) (c : Committee) : Except Panic Bool :=
  match c.kind with
  | .member => .ok (s.getMemberCommitteeProposalResult proposalID c)
  | .token quorum tallyDenom => s.getTokenCommitteeProposalResult env proposalID c quorum tallyDenom
  | .base => .ok false

def getProposalTallyResponse (s : State R) (proposalID : UInt64) : Except Panic (Option Tally) :=
  match s.getProposal proposalID with
  | none => .ok none
  | some p =>
    match s.getCommittee p.committeeID with
    | none => .ok none
    | some c =>
      match c.kind with
      | .member =>
        let currVotes := s.tallyMemberCommitteeVotes p.id
        .ok (some ⟨currVotes, 0, currVotes, newDec c.members.length⟩)
      | .token _ tallyDenom => (s.tallyTokenCommitteeVotes env p.id tallyDenom).map some
      | .base => .ok (some ⟨0, 0, 0, 0⟩)

def closeProposal (s : State R) (p : Proposal) : Except Panic (State R) := do
  let _ ← s.getProposalTallyResponse env p.id
  return s.deleteProposalAndVotes p.id

end State

/-! ## Keys -/

theorem getKeyFromID_inj {a b : UInt64} (h : getKeyFromID a = getKeyFromID b) : a = b := idKey_inj h

theorem getVoteKey_inj {a b : UInt64} {v w : Addr} (h : getVoteKey a v = getVoteKey b w) :
    a = b ∧ v = w := idKey_append_inj h

/-! ## What the operations change -/

namespace State

theorem get_foldl_deleteVote (l : List Vote) (s : State R) (k : Bytes) (v : Vote) :
    (l.foldl (fun s v => s.deleteVote v.proposalID v.voter) s).votes.get k = some v ↔
      s.votes.get k = some v ∧ ∀ w ∈ l, getVoteKey w.proposalID w.voter ≠ k := by
  induction l generalizing s with
  | nil => simp
  | cons w l ih =>
    rw [List.foldl_cons, ih, List.forall_mem_cons, deleteVote, KVStore.get_delete]
    by_cases hk : k = getVoteKey w.proposalID w.voter
    · simp [hk]
    · simp [hk, Ne.symm hk]

theorem foldl_deleteVote_frame (l : List Vote) (s : State R) :
    l.foldl (fun s v => s.deleteVote v.proposalID v.voter) s =
      { s with votes := (l.foldl (fun s v => s.deleteVote v.proposalID v.voter) s).votes } := by
  induction l generalizing s with
  | nil => rfl
  | cons w l ih => rw [List.foldl_cons, ih]; rfl

theorem deleteProposalAndVotes_frame (s : State R) (id : UInt64) :
    s.deleteProposalAndVotes id =
      { s with
        proposals := s.proposals.delete (getKeyFromID id)
        votes := (s.deleteProposalAndVotes id).votes } := by
  rw [deleteProposalAndVotes, foldl_deleteVote_frame]
  rfl

def VotesKeyed (s : State R) : Prop :=
  ∀ k v, s.votes.get k = some v → k = getVoteKey v.proposalID v.voter

def ProposalsKeyed (s : State R) : Prop := ∀ k p, s.proposals.get k = some p → k = getKeyFromID p.id

theorem VotesKeyed.mem_getVotesByProposal {s : State R} (h : s.VotesKeyed) (id : UInt64)
    (v : Vote) :
    v ∈ s.getVotesByProposal id ↔ s.votes.get (getVoteKey v.proposalID v.voter) = some v ∧
    v.proposalID = id :=
  mem_valuesWithId (f := Vote.proposalID) (g := Vote.voter) (fun k v hv => (h k v hv).symm) id v

theorem VotesKeyed.get_deleteProposalAndVotes {s : State R} (h : s.VotesKeyed) (id : UInt64)
    (k : Bytes) (v : Vote) :
    (s.deleteProposalAndVotes id).votes.get k = some v ↔ s.votes.get k = some v ∧
    v.proposalID ≠ id := by
  rw [deleteProposalAndVotes, get_foldl_deleteVote]
  constructor
  · intro ⟨hget, hne⟩
    refine ⟨hget, fun hid => ?_⟩
    have hk := h k v hget
    exact hne v ((h.mem_getVotesByProposal id v).mpr ⟨hk ▸ hget, hid⟩) hk.symm
  · intro ⟨hget, hid⟩
    refine ⟨hget, fun w hw hk => hid ?_⟩
    have hwid := ((h.mem_getVotesByProposal id w).mp hw).2
    rw [h k v hget] at hk
    rw [← hwid, (getVoteKey_inj hk).1]

theorem closeProposal_ok {env : Env R} {s s' : State R} {p : Proposal}
    (h : s.closeProposal env p = .ok s') :
    s' = s.deleteProposalAndVotes p.id := by
  unfold closeProposal at h
  simp only [bind_eq_ok, pure_eq_ok] at h
  obtain ⟨_, _, rfl⟩ := h
  rfl

end State

end ZgChain.Committees
