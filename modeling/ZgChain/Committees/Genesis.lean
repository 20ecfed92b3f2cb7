import ZgChain.Committees.Proposal

/-!
# Genesis of the committees
-/

namespace ZgChain.Committees

variable {R : Type} (env : Env R)

structure GenesisState where
  nextProposalID : UInt64
  committees : List Committee
  proposals : List Proposal
  votes : List Vote
  deriving DecidableEq

def Proposal.validateBasic (p : Proposal) : Except Failure Unit :=
  match p.content with
  | none => .ok ()
  | some c => c.validateBasic env

def invalidGenesis (text : String) : Failure := .error (.invalidGenesis text)

def validateCommittees : List UInt64 → List Committee → Except Failure Unit
  | _, [] => .ok ()
  | seen, c :: cs => do
    rejectIf (c.id ∈ seen) (invalidGenesis "duplicate committee ID found in genesis state")
    c.validate.mapError invalidGenesis
    validateCommittees (c.id :: seen) cs

def GenesisState.validateProposals (gs : GenesisState) :
    List UInt64 → List Proposal → Except Failure Unit
  | _, [] => .ok ()
  | seen, p :: ps => do
    rejectIf (p.id ∈ seen) (invalidGenesis "duplicate proposal ID found in genesis state")
    rejectIf (gs.nextProposalID ≤ p.id)
      (invalidGenesis "NextProposalID is not greater than all proposal IDs")
    rejectIf (p.committeeID ∉ gs.committees.map (·.id))
      (invalidGenesis "proposal refers to non existent committee")
    p.validateBasic env
    gs.validateProposals (p.id :: seen) ps

def GenesisState.validateVote (gs : GenesisState) (v : Vote) : Except Failure Unit := do
  v.validate.mapError invalidGenesis
  rejectIf (v.proposalID ∉ gs.proposals.map (·.id))
    (invalidGenesis "vote refers to non existent proposal")

def GenesisState.validate (gs : GenesisState) : Except Failure Unit := do
  validateCommittees [] gs.committees
  gs.validateProposals env [] gs.proposals
  gs.votes.forM gs.validateVote

def emptyState (r : R) : State R := ⟨KVStore.empty, KVStore.empty, KVStore.empty, none, r⟩

def initGenesis (r : R) (gs : GenesisState) : Except Failure (State R) := do
  gs.validate env
  let s := (emptyState r).setNextProposalID gs.nextProposalID
  let s := gs.committees.foldl State.setCommittee s
  let s := gs.proposals.foldl State.setProposal s
  return gs.votes.foldl State.setVote s

def exportGenesis (s : State R) : Except Panic GenesisState := do
  let nextID ← s.getNextProposalID.mapError fun _ => .other "next proposal ID not set at genesis"
  return ⟨nextID, s.getCommittees, s.getProposals, s.getVotes⟩

end ZgChain.Committees
