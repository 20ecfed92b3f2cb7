import ZgChain.Sdk.Dec

/-!
# The tally of a governance proposal

Votes are counted in two passes. The first goes over the votes: each delegation of a
voter to a bonded validator is counted with the vote of the delegator and deducted from
the validator. The second counts for each validator that has voted the shares that are
left. A decimal that gets too large makes the tally panic.
-/

namespace ZgChain.Gov

inductive Panic where
  | intOverflow
  | divisionByZero
  deriving DecidableEq, Repr

inductive VoteOption where
  | yes
  | abstain
  | no
  | noWithVeto
  deriving DecidableEq, Repr

/-- The weight is the text of a decimal in the source. -/
structure WeightedVoteOption where
  option : VoteOption
  weight : StoredDec

structure Vote where
  proposalId : UInt64
  voter : Addr
  options : List WeightedVoteOption
  options_ne : options ≠ []

structure Votes where
  list : List Vote
  nodup : (list.map fun vote => (vote.proposalId, vote.voter)).Nodup

/-! ## Staking -/

structure BondedValidator where
  operator : Addr
  bondedTokens : Int
  delegatorShares : StoredDec

structure Delegation where
  delegatorAddress : Addr
  validatorAddress : Addr
  shares : StoredDec
  shares_nonneg : 0 ≤ shares.val

def sharesOf (delegations : List Delegation) (p : Delegation → Bool) : Dec :=
  (delegations.map fun d => if p d then d.shares.val else 0).sum

/-- Bonded validators have shares, and these are the shares of their delegations. -/
structure Staking where
  bonded : List BondedValidator
  delegations : List Delegation
  totalBondedTokens : Int
  operators_nodup : (bonded.map BondedValidator.operator).Nodup
  tokens_nonneg : ∀ v ∈ bonded, 0 ≤ v.bondedTokens
  shares_ne : ∀ v ∈ bonded, v.delegatorShares.val ≠ 0
  shares_sum : ∀ v ∈ bonded, v.delegatorShares.val = sharesOf delegations fun d =>
    d.validatorAddress = v.operator

def Staking.delegationsOf (staking : Staking) (delegator : Addr) : List Delegation :=
  staking.delegations.filter fun d => d.delegatorAddress = delegator

/-! ## Counting -/

structure ValidatorGovInfo where
  bondedTokens : Int
  delegatorShares : StoredDec
  delegatorDeductions : StoredDec
  vote : List WeightedVoteOption

structure Counts where
  results : VoteOption → StoredDec
  totalVotingPower : StoredDec

structure TallyState where
  currValidators : KVStore Addr ValidatorGovInfo
  counts : Counts
  votes : List Vote

def quoDec (a : StoredDec) (d : Dec) : Except Panic StoredDec :=
  if d = 0 then .error .divisionByZero else orReject (a.quo d) .intOverflow

def newValidatorGovInfo (v : BondedValidator) : ValidatorGovInfo :=
  ⟨v.bondedTokens, v.delegatorShares, .zero, []⟩

def initValidators (staking : Staking) : KVStore Addr ValidatorGovInfo :=
  staking.bonded.foldl (fun m v => m.set v.operator (newValidatorGovInfo v)) .empty

def votingPowerOf (val : ValidatorGovInfo) (shares : StoredDec) : Except Panic StoredDec := do
  let bonded ← orReject (shares.mulInt val.bondedTokens) .intOverflow
  quoDec bonded val.delegatorShares.val

def addOption (votingPower : StoredDec) (results : VoteOption → StoredDec)
    (option : WeightedVoteOption) :
    Except Panic (VoteOption → StoredDec) := do
  let subPower ← orReject (votingPower.mul option.weight) .intOverflow
  let sum ← orReject ((results option.option).add subPower) .intOverflow
  return Function.update results option.option sum

def addVotingPower (counts : Counts) (votingPower : StoredDec) (options : List WeightedVoteOption) :
    Except Panic Counts := do
  let results ← options.foldlM (addOption votingPower) counts.results
  let totalVotingPower ← orReject (counts.totalVotingPower.add votingPower) .intOverflow
  return ⟨results, totalVotingPower⟩

def countDelegation (vote : Vote) (t : TallyState) (delegation : Delegation) :
    Except Panic TallyState :=
  match t.currValidators.get delegation.validatorAddress with
  | none => .ok t
  | some val => do
    let deductions ← orReject (val.delegatorDeductions.add delegation.shares) .intOverflow
    let currValidators :=
      t.currValidators.set delegation.validatorAddress
        { val with delegatorDeductions := deductions }
    let votingPower ← votingPowerOf val delegation.shares
    let counts ← addVotingPower t.counts votingPower vote.options
    return { t with currValidators, counts }

def recordVote (t : TallyState) (vote : Vote) : TallyState :=
  match t.currValidators.get vote.voter with
  | none => t
  | some val =>
    { t with currValidators := t.currValidators.set vote.voter { val with vote := vote.options } }

def deleteVote (votes : List Vote) (proposalId : UInt64) (voter : Addr) : List Vote :=
  votes.filter fun vote => ¬ (vote.proposalId = proposalId ∧ vote.voter = voter)

def countVote (staking : Staking) (t : TallyState) (vote : Vote) : Except Panic TallyState := do
  let t ← (staking.delegationsOf vote.voter).foldlM (countDelegation vote) (recordVote t vote)
  return { t with votes := deleteVote t.votes vote.proposalId vote.voter }

def countValidator (t : TallyState) (operator : Addr) : Except Panic TallyState :=
  match t.currValidators.get operator with
  | none => .ok t
  | some val =>
    if val.vote.isEmpty then .ok t
    else do
      let sharesAfterDeductions ←
        orReject (val.delegatorShares.sub val.delegatorDeductions) .intOverflow
      let votingPower ← votingPowerOf val sharesAfterDeductions
      let counts ← addVotingPower t.counts votingPower val.vote
      return { t with counts }

def votesOf (votes : List Vote) (proposalId : UInt64) : List Vote :=
  votes.filter fun vote => vote.proposalId = proposalId

def noCounts : Counts := ⟨fun _ => .zero, .zero⟩

/-- The validators are visited in the second pass in the given order: that of a map is any. -/
def countVotes (staking : Staking) (order : List Addr) (votes : Votes) (proposalId : UInt64) :
    Except Panic TallyState := do
  let t ← (votesOf votes.list proposalId).foldlM (countVote staking)
      ⟨initValidators staking, noCounts, votes.list⟩
  order.foldlM countValidator t

/-! ## The outcome -/

structure TallyParams where
  quorum : Dec
  threshold : Dec
  vetoThreshold : Dec

structure TallyResult where
  yesCount : Int
  abstainCount : Int
  noCount : Int
  noWithVetoCount : Int
  deriving DecidableEq, Repr

def truncateInt (d : StoredDec) : Int := d.val.tdiv decPrecision

def newTallyResultFromMap (results : VoteOption → StoredDec) : TallyResult :=
  ⟨truncateInt (results .yes), truncateInt (results .abstain), truncateInt (results .no),
    truncateInt (results .noWithVeto)⟩

def decideProposal (params : TallyParams) (totalBondedTokens : Int) (counts : Counts) :
    Except Panic (Bool × Bool) := do
  let total := counts.totalVotingPower
  if totalBondedTokens = 0 then return (false, false)
  let percentVoting ← quoDec total (newDec totalBondedTokens)
  if percentVoting.val < params.quorum then return (false, true)
  let nonAbstaining ← orReject (total.sub (counts.results .abstain)) .intOverflow
  if nonAbstaining.val = 0 then return (false, false)
  let veto ← quoDec (counts.results .noWithVeto) total.val
  if params.vetoThreshold < veto.val then return (false, true)
  let approval ← quoDec (counts.results .yes) nonAbstaining.val
  if params.threshold < approval.val then return (true, false)
  return (false, false)

structure Tallied where
  passes : Bool
  burnDeposits : Bool
  tallyResults : TallyResult
  votes : List Vote

def tally (params : TallyParams) (staking : Staking) (order : List Addr) (votes : Votes)
    (proposalId : UInt64) :
    Except Panic Tallied := do
  let t ← countVotes staking order votes proposalId
  let (passes, burnDeposits) ← decideProposal params staking.totalBondedTokens t.counts
  return ⟨passes, burnDeposits, newTallyResultFromMap t.counts.results, t.votes⟩

end ZgChain.Gov
