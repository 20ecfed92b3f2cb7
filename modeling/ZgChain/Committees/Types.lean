import ZgChain.Lib.Json
import ZgChain.Sdk.Dec

/-!
# Committees: types

Committees with their permissions, the proposals made to them and the votes, with
their validation, and the state of the module. What the module reads of the rest
of the chain, and the contents of proposals that other modules define, are
parameters.
-/

namespace ZgChain.Committees

inductive Error where
  | unknownCommittee
  | invalidCommittee (text : String)
  | unknownProposal
  | proposalExpired
  | invalidPubProposal (text : String)
  | invalidGenesis (text : String)
  | noProposalHandlerExists
  | invalidVoteType
  | unauthorized (text : String)
  | unknownRequest
  | invalid (text : String)
  deriving DecidableEq, Repr

inductive Panic where
  | nilPointer
  | decode
  | handlerError
  | other (text : String)
  deriving DecidableEq, Repr

inductive Failure where
  | error (e : Error)
  | panic (p : Panic)
  deriving DecidableEq, Repr

/-! ## Permissions -/

abbrev SubparamChanges := KVStore String Json

abbrev MultiSubparamChanges := List SubparamChanges

structure SubparamRequirement where
  key : String
  val : String
  allowedSubparamAttrChanges : List String
  deriving DecidableEq, Repr

structure AllowedParamsChange where
  subspace : String
  key : String
  singleSubparamAllowedAttrs : List String
  multiSubparamsRequirements : List SubparamRequirement
  deriving DecidableEq, Repr

inductive Permission where
  | god
  | text
  | softwareUpgrade
  | paramsChange (allowedParamsChanges : List AllowedParamsChange)
  deriving DecidableEq, Repr

/-! ## Committees -/

inductive TallyOption where
  | unspecified
  | firstPastThePost
  | deadline
  deriving DecidableEq, Repr

inductive CommitteeKind where
  | base
  | member
  | token (quorum : Dec) (tallyDenom : Denom)
  deriving DecidableEq, Repr

structure Committee where
  id : UInt64
  description : String
  members : List Addr
  permissions : List Permission
  voteThreshold : Dec
  proposalDuration : Duration
  tallyOption : TallyOption
  kind : CommitteeKind
  deriving DecidableEq, Repr

def maxCommitteeDescriptionLength : Nat := 512

def bondDenom : Denom := "neuron"

def Committee.hasMember (c : Committee) (addr : Addr) : Bool := c.members.contains addr

def validateMembers : List Addr → List Addr → Except String Unit
  | _, [] => .ok ()
  | seen, m :: ms => do
    rejectIf (m ∈ seen) "committee cannot have duplicate members"
    rejectIf (m = []) "committee cannot have empty member address"
    validateMembers (m :: seen) ms

def Committee.validateBase (c : Committee) : Except String Unit := do
  rejectIf (maxCommitteeDescriptionLength < c.description.utf8ByteSize)
    "description longer than max allowed"
  rejectIf (c.members = []) "committee must have members"
  validateMembers [] c.members
  rejectIf (c.proposalDuration < 0) "invalid proposal duration"
  rejectIf (c.voteThreshold ≤ 0 ∨ decPrecision < c.voteThreshold) "invalid threshold"
  rejectIf (c.tallyOption = .unspecified) "invalid tally option"

def Committee.validate (c : Committee) : Except String Unit :=
  match c.kind with
  | .token quorum tallyDenom => do
    rejectIf (tallyDenom = bondDenom) "invalid tally denom"
    rejectIf (validateDenom tallyDenom = false) "invalid denom"
    rejectIf (quorum < 0 ∨ decPrecision < quorum) "invalid quorum"
    c.validateBase
  | _ => c.validateBase

/-! ## Proposals -/

/-- A change of a parameter. The value is what its text decodes to, if it decodes. -/
structure ParamChange where
  subspace : String
  key : String
  value : Option Json
  deriving DecidableEq

/-- The committee field of a proposal. Reading a malformed one, a field that is
absent or a committee without its base, dereferences a nil pointer. -/
inductive PackedCommittee where
  | malformed
  | unset
  | packed (c : Committee)
  deriving DecidableEq, Repr

/-- The content of a proposal, with its type. A type that the module does not
tell apart is kept as it is encoded. -/
inductive PubProposal where
  | text (title description : String)
  | softwareUpgrade (title description : String) (plan : Bytes)
  | parameterChange (title description : String) (changes : List ParamChange)
  | committeeChange (title description : String) (newCommittee : PackedCommittee)
  | committeeDelete (title description : String) (committeeID : UInt64)
  | other (typeURL : String) (value : Bytes)
  deriving DecidableEq

/-- A proposal without content is one whose content has no type. -/
structure Proposal where
  content : Option PubProposal
  id : UInt64
  committeeID : UInt64
  deadline : Time
  deriving DecidableEq

def Proposal.hasExpiredBy (p : Proposal) (time : Time) : Bool := !decide (time < p.deadline)

inductive ProposalOutcome where
  | passed
  | failed
  | invalid
  deriving DecidableEq, Repr

inductive VoteType where
  | unspecified
  | yes
  | no
  | abstain
  deriving DecidableEq, Repr

structure Vote where
  proposalID : UInt64
  voter : Addr
  voteType : VoteType
  deriving DecidableEq, Repr

def VoteType.validate (vt : VoteType) : Except String Unit :=
  rejectIf (vt = .unspecified) "invalid vote type"

def Vote.validate (v : Vote) : Except String Unit := do
  rejectIf (v.voter = []) "voter address cannot be empty"
  v.voteType.validate

/-! ## The state -/

def getKeyFromID (id : UInt64) : Bytes := beBytes 8 id.toNat

def getVoteKey (proposalID : UInt64) (voter : Addr) : Bytes := getKeyFromID proposalID ++ voter

/-- `rest` is the state of the other modules. -/
structure State (R : Type) where
  committees : KVStore Bytes Committee
  proposals : KVStore Bytes Proposal
  votes : KVStore Bytes Vote
  nextProposalID : Option UInt64
  rest : R

/-- What a handler does with a proposal: its result and the state it leaves,
whether it fails or not. -/
abbrev Handler (R : Type) := State R → PubProposal → Except Failure Unit × State R

abbrev Router (R : Type) := String → Option (Handler R)

/-- What the module reads of the others: the raw values of a subspace of
parameters, accounts, balances and supplies, and the methods of the contents that
other modules define. No balance is negative. -/
structure Env (R : Type) where
  getSubspace : String → Option (R → String → Option Json)
  getAccount : R → Addr → Option Addr
  getBalance : R → Addr → Denom → Int
  getSupply : R → Denom → Int
  balance_nonneg : ∀ r a d, 0 ≤ getBalance r a d
  validateBasic : PubProposal → Except Failure Unit
  proposalRoute : PubProposal → String

def routerKey : String := "committee"

def maxTitleLength : Nat := 140

def maxDescriptionLength : Nat := 10000

def validateAbstract (title description : String) : Except Failure Unit := do
  rejectIf (isBlank title) (.error (.invalid "proposal title cannot be blank"))
  rejectIf (maxTitleLength < title.utf8ByteSize)
    (.error (.invalid "proposal title is longer than max length"))
  rejectIf (isBlank description) (.error (.invalid "proposal description cannot be blank"))
  rejectIf (maxDescriptionLength < description.utf8ByteSize)
    (.error (.invalid "proposal description is longer than max length"))

section
variable {R : Type} (env : Env R)

def PubProposal.validateBasic (p : PubProposal) : Except Failure Unit :=
  match p with
  | .committeeChange title description newCommittee => do
    validateAbstract title description
    match newCommittee with
    | .malformed => .error (.panic .nilPointer)
    | .unset => .error (.error (.invalidCommittee "unexpected committee when unpacking"))
    | .packed c => c.validate.mapError fun text => .error (.invalidCommittee text)
  | .committeeDelete title description _ => validateAbstract title description
  | p => env.validateBasic p

def PubProposal.route (p : PubProposal) : String :=
  match p with
  | .committeeChange .. => routerKey
  | .committeeDelete .. => routerKey
  | p => env.proposalRoute p

end

end ZgChain.Committees
