import ZgChain.Lib.IdKey
import ZgChain.Lib.Smallest
import ZgChain.Sdk.Types

/-!
# Council

Terms of the council follow one another. Validators vote on the next council until the
height at which it starts, and the begin blocker seats it when the current term ends.
Votes are kept in a store of their own; a council's record also has a list of votes.
-/

namespace ZgChain.Councils

structure Env where
  valAddressFromBech32 : String → Option Addr

inductive Error where
  | unknownCouncil (councilID : UInt64)
  | proposalExpired (height : Int) (startHeight : UInt64)
  | invalidGenesis (text : String)
  | invalidPublicKey
  | noValidatorFound
  | invalidAddress (text : String)
  deriving DecidableEq, Repr

inductive Panic where
  | indexOutOfRange (index length : Nat)
  | makesliceLenOutOfRange
  | genesis (err : Error)
  deriving DecidableEq, Repr

/-! ## Types -/

structure Params where
  councilSize : UInt64
  deriving DecidableEq, Repr

structure Ballot where
  id : UInt64
  content : Bytes
  deriving DecidableEq, Repr

structure Vote where
  councilID : UInt64
  voter : Addr
  ballots : List Ballot
  deriving DecidableEq, Repr

structure Council where
  id : UInt64
  votingStartHeight : UInt64
  startHeight : UInt64
  endHeight : UInt64
  votes : List Vote
  members : List Addr
  deriving DecidableEq, Repr

def signedHeight (height : UInt64) : Int := height.toInt64.toInt

def Council.hasVotingEndedBy (c : Council) (height : Int) : Bool :=
  decide (signedHeight c.startHeight ≤ height)

def getKeyFromID (id : UInt64) : Bytes := idKey id

def getVoteKey (councilID : UInt64) (voter : Addr) : Bytes := getKeyFromID councilID ++ voter

structure State where
  params : Params
  currentCouncilID : Option UInt64
  votingStartHeight : Option UInt64
  votingPeriod : Option UInt64
  councils : KVStore Bytes Council
  councils_keyed : ∀ k c, councils.get k = some c → getKeyFromID c.id = k
  votes : KVStore Bytes Vote
  votes_keyed : ∀ k v, votes.get k = some v → getVoteKey v.councilID v.voter = k
  voters : KVStore Bytes Bytes

namespace State

/-! ## Councils -/

def getCurrentCouncilID (s : State) : Except Error UInt64 :=
  orReject s.currentCouncilID (.invalidGenesis "current council ID not set at genesis")

def setCurrentCouncilID (s : State) (id : UInt64) : State := { s with currentCouncilID := some id }

def incrementCurrentCouncilID (s : State) : Except Error State := do
  let id ← s.getCurrentCouncilID
  return s.setCurrentCouncilID (id + 1)

def getVotingStartHeight (s : State) : Except Error UInt64 :=
  orReject s.votingStartHeight (.invalidGenesis "voting start height not set at genesis")

def getVotingPeriod (s : State) : Except Error UInt64 :=
  orReject s.votingPeriod (.invalidGenesis "voting period not set at genesis")

def getCouncil (s : State) (councilID : UInt64) : Option Council :=
  s.councils.get (getKeyFromID councilID)

def setCouncil (s : State) (c : Council) : State :=
  { s with councils := s.councils.set (getKeyFromID c.id) c
           councils_keyed := KVStore.keyed_set s.councils_keyed c }

def getCouncils (s : State) : List Council := s.councils.values

def storeNewCouncil (s : State) (votingStartHeight : UInt64) : Except Error State := do
  let currentCouncilID ← s.getCurrentCouncilID
  let votingPeriod ← s.getVotingPeriod
  return s.setCouncil
    { id := currentCouncilID + 1
      votingStartHeight
      startHeight := votingStartHeight + votingPeriod
      endHeight := votingStartHeight + votingPeriod * 2
      votes := []
      members := [] }

/-! ## Votes -/

def getVote (s : State) (councilID : UInt64) (voter : Addr) : Option Vote :=
  s.votes.get (getVoteKey councilID voter)

def setVote (s : State) (v : Vote) : State :=
  { s with votes := s.votes.set (getVoteKey v.councilID v.voter) v
           votes_keyed := KVStore.keyed_set s.votes_keyed v }

def getVotesByCouncil (s : State) (councilID : UInt64) : List Vote := valuesWithId s.votes councilID

def addVote (s : State) (height : Int) (councilID : UInt64) (voter : Addr) (ballots : List Ballot) :
    Except Error State := do
  let com ← orReject (s.getCouncil councilID) (.unknownCouncil councilID)
  rejectIf (com.hasVotingEndedBy height = true) (.proposalExpired height com.startHeight)
  return s.setVote ⟨councilID, voter, ballots⟩

/-! ## Voters -/

def setVoter (s : State) (voter : Addr) (pk : Bytes) : State :=
  { s with voters := s.voters.set voter pk }

end State

def publicKeySize : Nat := 32

def State.addVoter (s : State) (voter : Addr) (key : Bytes) : Except Error State := do
  rejectIf (key.length ≠ publicKeySize) .invalidPublicKey
  return s.setVoter voter key

/-! ## Messages -/

structure MsgRegister where
  voter : String
  key : Bytes

structure MsgVote where
  councilID : UInt64
  voter : String
  ballots : List Ballot

/-- `isValidator` tells the validators that the staking module has. -/
def register (env : Env) (isValidator : Addr → Bool) (s : State) (msg : MsgRegister) :
    Except Error State := do
  let valAddr ← orReject (env.valAddressFromBech32 msg.voter) (.invalidAddress msg.voter)
  rejectIf (isValidator valAddr = false) .noValidatorFound
  s.addVoter valAddr msg.key

def vote (env : Env) (height : Int) (s : State) (msg : MsgVote) : Except Error State := do
  let voter ← orReject (env.valAddressFromBech32 msg.voter) (.invalidAddress msg.voter)
  s.addVote height msg.councilID voter msg.ballots

/-! ## The begin blocker -/

structure CastBallot where
  voter : Addr
  content : Bytes
  deriving DecidableEq, Repr

def castBallots (votes : List Vote) : List CastBallot :=
  votes.flatMap fun vote => vote.ballots.map fun ballot => ⟨vote.voter, ballot.content⟩

/-- The first ballot of each content, in ascending order of the contents. -/
def sortedBallots (votes : List Vote) : List CastBallot :=
  ascendingBy CastBallot.content (firstOfEach CastBallot.content (castBallots votes))

/-- The longest slice of addresses, with 24 bytes for each in an address space of 48 bits. -/
def maxSliceLen : Nat := 2 ^ 48 / 24

def fillSeats (ballots : List CastBallot) : Nat → Except Panic (List Addr)
  | 0 => .ok []
  | i + 1 => do
    let members ← fillSeats ballots i
    let ballot ← orReject ballots[i]? (.indexOutOfRange i ballots.length)
    return members ++ [ballot.voter]

def electMembers (councilSize : UInt64) (votes : List Vote) : Except Panic (List Addr) := do
  rejectIf (maxSliceLen < councilSize.toNat) .makesliceLenOutOfRange
  fillSeats (sortedBallots votes) councilSize.toNat

def seatNext (s : State) (councilID : UInt64) : Except Panic State :=
  let s := orElseKeep s s.incrementCurrentCouncilID
  match s.getCouncil (councilID + 1) with
  | none => .ok s
  | some council => do
    let members ← electMembers s.params.councilSize council.votes
    return s.setCouncil { council with members }

def beginBlock (height : Int) (s : State) : Except Panic State :=
  match s.getCurrentCouncilID with
  | .error _ => .ok s
  | .ok councilID =>
    match s.getCouncil councilID with
    | none => .ok s
    | some council =>
      -- votes for the next council are accepted from the start of the current one
      match if signedHeight council.startHeight ≤ height then s.storeNewCouncil council.startHeight
        else .ok s with
      | .error _ => .ok s
      | .ok s => if height < signedHeight council.endHeight then .ok s else seatNext s councilID

/-! ## Genesis -/

structure GenesisState where
  params : Params
  votingStartHeight : UInt64
  votingPeriod : UInt64
  currentCouncilID : UInt64
  councils : List Council
  deriving DecidableEq, Repr

def defaultGenesisState : GenesisState where
  params := ⟨1⟩
  votingStartHeight := 1
  votingPeriod := 200
  currentCouncilID := 1
  councils := [⟨1, 1, 201, 401, [], []⟩]

def emptyState : State where
  params := ⟨0⟩
  currentCouncilID := none
  votingStartHeight := none
  votingPeriod := none
  councils := .empty
  councils_keyed := KVStore.keyed_empty
  votes := .empty
  votes_keyed := KVStore.keyed_empty
  voters := .empty

/-- The genesis state has no check, and its voting start height and period are not stored. -/
def initGenesis (gs : GenesisState) : State :=
  gs.councils.foldl State.setCouncil
    ({ emptyState with params := gs.params }.setCurrentCouncilID gs.currentCouncilID)

/-- A value that is read for the export and is not stored is a panic. -/
def required {α : Type} : Except Error α → Except Panic α
  | .ok a => .ok a
  | .error err => .error (.genesis err)

def exportGenesis (s : State) : Except Panic GenesisState := do
  let startHeight ← required s.getVotingStartHeight
  let period ← required s.getVotingPeriod
  let currentID ← required s.getCurrentCouncilID
  return ⟨s.params, startHeight, period, currentID, s.getCouncils⟩

/-! ## Runs -/

structure Chain where
  height : Int
  state : State

inductive Step where
  | register (isValidator : Addr → Bool) (msg : MsgRegister)
  | vote (msg : MsgVote)
  | beginBlock

def stepChain (env : Env) (c : Chain) : Step → Except Panic Chain
  -- a message that is rejected leaves the state
  | .register isValidator msg =>
    .ok { c with state := orElseKeep c.state (register env isValidator c.state msg) }
  | .vote msg => .ok { c with state := orElseKeep c.state (vote env c.height c.state msg) }
  | .beginBlock => do
    let s ← beginBlock (c.height + 1) c.state
    return ⟨c.height + 1, s⟩

def run (env : Env) (c : Chain) (steps : List Step) : Except Panic Chain :=
  steps.foldlM (stepChain env) c

end ZgChain.Councils
