import ZgChain.Committees.StoreSound

/-!
# The tally of a token committee

A vote counts as many tokens as its voter has. Abstentions count towards the quorum
but not towards the threshold, so a proposal passes if all tokens that are cast
abstain, and it passes without a vote if the quorum is zero. A vote for a proposal
never keeps it from passing, as long as the tokens cast fit in a decimal.
-/

namespace ZgChain.Committees

variable {R : Type} {env : Env R} {s : State R} {id : UInt64} {denom : Denom}

/-! ## What is counted -/

def VotersKnown (env : Env R) (s : State R) (id : UInt64) : Prop :=
  ∀ v ∈ s.getVotesByProposal id, ∃ acc, env.getAccount s.rest v.voter = some acc

def voterTokens (env : Env R) (r : R) (denom : Denom) (voter : Addr) : Int :=
  ((env.getAccount r voter).map fun acc => env.getBalance r acc denom).getD 0

def tokensIn (env : Env R) (r : R) (denom : Denom) (p : VoteType → Bool) (votes : List Vote) :
    Int :=
  (votes.map fun v => if p v.voteType then voterTokens env r denom v.voter else 0).sum

def tokensCast (env : Env R) (s : State R) (id : UInt64) (denom : Denom) (p : VoteType → Bool) :
    Int :=
  tokensIn env s.rest denom p (s.getVotesByProposal id)

def yesTokens (env : Env R) (s : State R) (id : UInt64) (denom : Denom) : Int :=
  tokensCast env s id denom (· = .yes)

def noTokens (env : Env R) (s : State R) (id : UInt64) (denom : Denom) : Int :=
  tokensCast env s id denom (· = .no)

def totalTokens (env : Env R) (s : State R) (id : UInt64) (denom : Denom) : Int :=
  tokensCast env s id denom fun _ => true

/-- A whole number of tokens as a decimal that no operation rejects. -/
def FitsDec (d : Dec) : Prop := d.natAbs < 2 ^ maxDecBitLen

theorem checkDec_eq_ok {d d' : Dec} : State.checkDec d = .ok d' ↔ FitsDec d ∧ d' = d := by
  simp only [State.checkDec, bind_eq_ok, rejectIf_eq_ok, pure_eq_ok, FitsDec, not_le]
  constructor
  · intro h
    obtain ⟨_, hd, he⟩ := h
    exact ⟨hd, he.symm⟩
  · intro h
    exact ⟨(), h.1, h.2.symm⟩

theorem FitsDec.mono {a b : Int} (hb : FitsDec b) (ha : 0 ≤ a) (hab : a ≤ b) : FitsDec a := by
  have hle : a.natAbs ≤ b.natAbs := by omega
  exact lt_of_le_of_lt hle hb

theorem newDec_nonneg {n : Int} (h : 0 ≤ n) : 0 ≤ newDec n := mul_nonneg h (by decide)

theorem newDec_add (n m : Int) : newDec (n + m) = newDec n + newDec m :=
  Int.add_mul n m decPrecision

theorem newDec_le_iff {n m : Int} : newDec n ≤ newDec m ↔ n ≤ m := mul_le_mul_iff_left₀ (by decide)

theorem voterTokens_nonneg (env : Env R) (r : R) (denom : Denom) (voter : Addr) :
    0 ≤ voterTokens env r denom voter := by
  unfold voterTokens
  cases env.getAccount r voter with
  | none => exact le_refl 0
  | some acc => exact env.balance_nonneg r acc denom

theorem tokensIn_nonneg (env : Env R) (r : R) (denom : Denom) (p : VoteType → Bool)
    (votes : List Vote) :
    0 ≤ tokensIn env r denom p votes := by
  apply List.sum_nonneg
  intro x hx
  obtain ⟨v, _, rfl⟩ := List.mem_map.mp hx
  split
  · exact voterTokens_nonneg env r denom v.voter
  · exact le_refl 0

@[simp] theorem tokensIn_nil (env : Env R) (r : R) (denom : Denom) (p : VoteType → Bool) :
    tokensIn env r denom p [] = 0 := rfl

theorem tokensIn_cons (env : Env R) (r : R) (denom : Denom) (p : VoteType → Bool) (v : Vote)
    (votes : List Vote) :
    tokensIn env r denom p (v :: votes) =
      (if p v.voteType then voterTokens env r denom v.voter else 0) +
        tokensIn env r denom p votes := List.sum_cons

theorem yes_add_no_le (env : Env R) (r : R) (denom : Denom) (votes : List Vote) :
    tokensIn env r denom (· = .yes) votes + tokensIn env r denom (· = .no) votes ≤
      tokensIn env r denom (fun _ => true) votes := by
  induction votes with
  | nil => exact le_refl 0
  | cons v votes ih =>
    simp only [tokensIn_cons]
    have hw := voterTokens_nonneg env r denom v.voter
    cases v.voteType <;> simp <;> omega

/-! ## The tally -/

def State.Tally.counted (env : Env R) (r : R) (denom : Denom) (t : State.Tally)
    (votes : List Vote) : State.Tally where
  yesVotes := t.yesVotes + newDec (tokensIn env r denom (· = .yes) votes)
  noVotes := t.noVotes + newDec (tokensIn env r denom (· = .no) votes)
  totalVotes := t.totalVotes + newDec (tokensIn env r denom (fun _ => true) votes)
  possibleVotes := t.possibleVotes

structure State.Tally.Ordered (t : State.Tally) : Prop where
  yes : 0 ≤ t.yesVotes
  no : 0 ≤ t.noVotes
  total : t.yesVotes + t.noVotes ≤ t.totalVotes

theorem State.Tally.Ordered.counted {t : State.Tally} (h : t.Ordered) (env : Env R) (r : R)
    (denom : Denom) (votes : List Vote) :
    (t.counted env r denom votes).Ordered where
  yes := add_nonneg h.yes (newDec_nonneg (tokensIn_nonneg env r denom _ votes))
  no := add_nonneg h.no (newDec_nonneg (tokensIn_nonneg env r denom _ votes))
  total := by
    have hle := newDec_le_iff.mpr (yes_add_no_le env r denom votes)
    rw [newDec_add] at hle
    have ht := h.total
    unfold State.Tally.counted
    dsimp only
    linarith

theorem counted_nil (env : Env R) (r : R) (denom : Denom) (t : State.Tally) :
    t.counted env r denom [] = t := by
  simp [State.Tally.counted, newDec]

theorem counted_cons (env : Env R) (r : R) (denom : Denom) (t : State.Tally) (v : Vote)
    (votes : List Vote) :
    (t.counted env r denom [v]).counted env r denom votes = t.counted env r denom (v :: votes) := by
  simp only [State.Tally.counted, tokensIn_cons, tokensIn_nil, add_zero, newDec_add, add_assoc]

theorem counted_one {r : R} {v : Vote} {acc : Addr} (hacc : env.getAccount r v.voter = some acc)
    (denom : Denom) (t : State.Tally) : t.counted env r denom [v] =
      let w := newDec (env.getBalance r acc denom)
      match v.voteType with
      | .yes => { t with yesVotes := t.yesVotes + w, totalVotes := t.totalVotes + w }
      | .no => { t with noVotes := t.noVotes + w, totalVotes := t.totalVotes + w }
      | _ => { t with totalVotes := t.totalVotes + w } := by
  have hw : voterTokens env r denom v.voter = env.getBalance r acc denom := by
    rw [voterTokens, hacc]
    rfl
  have hzero : newDec 0 = 0 := Int.zero_mul decPrecision
  unfold State.Tally.counted
  simp only [tokensIn_cons, tokensIn_nil, add_zero, hw]
  cases v.voteType <;> simp [hzero]

/-- One vote is counted unless its voter has no account or the total gets too large. -/
theorem addTokenVote_ok {t t' : State.Tally} (ht : t.Ordered) (v : Vote) :
    s.addTokenVote env denom t v = .ok t' ↔ (∃ acc, env.getAccount s.rest v.voter = some acc) ∧
      FitsDec (t.counted env s.rest denom [v]).totalVotes ∧
      t' = t.counted env s.rest denom [v] := by
  cases hacc : env.getAccount s.rest v.voter with
  | none => simp [State.addTokenVote, hacc, orReject]
  | some acc =>
    have hw := newDec_nonneg (env.balance_nonneg s.rest acc denom)
    have hyes := ht.yes
    have hno := ht.no
    have htotal := ht.total
    rw [counted_one hacc]
    simp only [State.addTokenVote, hacc, orReject, ok_bind, bind_eq_ok, checkDec_eq_ok]
    generalize newDec (env.getBalance s.rest acc denom) = w at hw
    -- the total is the largest of the sums
    have hfitYes : FitsDec (t.totalVotes + w) → FitsDec (t.yesVotes + w) :=
      fun h => h.mono (by linarith) (by linarith)
    have hfitNo : FitsDec (t.totalVotes + w) → FitsDec (t.noVotes + w) :=
      fun h => h.mono (by linarith) (by linarith)
    constructor
    · intro h
      obtain ⟨total, ⟨hfit, rfl⟩, h⟩ := h
      refine ⟨⟨acc, rfl⟩, ?_⟩
      cases hv : v.voteType with
      | yes | no =>
        simp only [hv, bind_eq_ok, checkDec_eq_ok, pure_eq_ok] at h
        obtain ⟨_, ⟨_, rfl⟩, rfl⟩ := h
        exact ⟨hfit, rfl⟩
      | unspecified | abstain =>
        simp only [hv, pure_eq_ok] at h
        exact ⟨hfit, h.symm⟩
    · intro h
      obtain ⟨_, hfit, rfl⟩ := h
      cases hv : v.voteType with
      | yes =>
        rw [hv] at hfit
        exact ⟨_, ⟨hfit, rfl⟩,
          (bind_eq_ok _ _ _).mpr ⟨_, checkDec_eq_ok.mpr ⟨hfitYes hfit, rfl⟩, rfl⟩⟩
      | no =>
        rw [hv] at hfit
        exact ⟨_, ⟨hfit, rfl⟩,
          (bind_eq_ok _ _ _).mpr ⟨_, checkDec_eq_ok.mpr ⟨hfitNo hfit, rfl⟩, rfl⟩⟩
      | unspecified | abstain =>
        rw [hv] at hfit
        exact ⟨_, ⟨hfit, rfl⟩, rfl⟩

theorem totalVotes_le_counted (env : Env R) (r : R) (denom : Denom) (t : State.Tally)
    (votes : List Vote) :
    t.totalVotes ≤ (t.counted env r denom votes).totalVotes :=
  le_add_of_nonneg_right (newDec_nonneg (tokensIn_nonneg env r denom _ votes))

theorem State.Tally.Ordered.total_nonneg {t : State.Tally} (h : t.Ordered) : 0 ≤ t.totalVotes :=
  le_trans (add_nonneg h.yes h.no) h.total

theorem foldlM_addTokenVote_ok {votes : List Vote} {t t' : State.Tally} (ht : t.Ordered)
    (hfit : FitsDec t.totalVotes) :
    votes.foldlM (s.addTokenVote env denom) t = .ok t' ↔
      (∀ v ∈ votes, ∃ acc, env.getAccount s.rest v.voter = some acc) ∧
      FitsDec (t.counted env s.rest denom votes).totalVotes ∧
      t' = t.counted env s.rest denom votes := by
  induction votes generalizing t with
  | nil => simp [counted_nil, hfit, pure, Except.pure, eq_comm]
  | cons v votes ih =>
    have ht₁ := ht.counted env s.rest denom [v]
    simp only [List.foldlM_cons, bind_eq_ok, addTokenVote_ok ht, List.forall_mem_cons]
    constructor
    · intro h
      obtain ⟨t₁, ⟨hv, hfit₁, rfl⟩, h⟩ := h
      rw [ih ht₁ hfit₁, counted_cons] at h
      exact ⟨⟨hv, h.1⟩, h.2⟩
    · intro h
      obtain ⟨⟨hv, hvotes⟩, hfit', rfl⟩ := h
      -- what is counted later only adds to the total
      have hfit₁ : FitsDec (t.counted env s.rest denom [v]).totalVotes := by
        refine hfit'.mono ht₁.total_nonneg ?_
        rw [← counted_cons env s.rest denom t v votes]
        exact totalVotes_le_counted env s.rest denom _ votes
      refine ⟨_, ⟨hv, hfit₁, rfl⟩, ?_⟩
      rw [ih ht₁ hfit₁, counted_cons]
      exact ⟨hvotes, hfit', rfl⟩

def tokenTally (env : Env R) (s : State R) (id : UInt64) (denom : Denom) : State.Tally where
  yesVotes := newDec (yesTokens env s id denom)
  noVotes := newDec (noTokens env s id denom)
  totalVotes := newDec (totalTokens env s id denom)
  possibleVotes := newDec (env.getSupply s.rest denom)

theorem tallyTokenCommitteeVotes_ok {t : State.Tally} :
    s.tallyTokenCommitteeVotes env id denom = .ok t ↔
    VotersKnown env s id ∧ FitsDec (newDec (totalTokens env s id denom)) ∧
    t = tokenTally env s id denom := by
  have hcounted : State.Tally.counted env s.rest denom
      ⟨0, 0, 0, newDec (env.getSupply s.rest denom)⟩
      (s.getVotesByProposal id) = tokenTally env s id denom := by
    simp only [State.Tally.counted, zero_add]
    rfl
  have hstart : State.Tally.Ordered ⟨0, 0, 0, newDec (env.getSupply s.rest denom)⟩ :=
    ⟨le_refl 0, le_refl 0, le_refl 0⟩
  have hzero : FitsDec 0 := zero_inRange
  rw [State.tallyTokenCommitteeVotes, foldlM_addTokenVote_ok hstart hzero, hcounted]
  rfl

theorem yesTokens_nonneg (env : Env R) (s : State R) (id : UInt64) (denom : Denom) :
    0 ≤ yesTokens env s id denom :=
  tokensIn_nonneg env s.rest denom (· = .yes) (s.getVotesByProposal id)

theorem noTokens_nonneg (env : Env R) (s : State R) (id : UInt64) (denom : Denom) :
    0 ≤ noTokens env s id denom :=
  tokensIn_nonneg env s.rest denom (· = .no) (s.getVotesByProposal id)

theorem yes_add_no_le_total (env : Env R) (s : State R) (id : UInt64) (denom : Denom) :
    yesTokens env s id denom + noTokens env s id denom ≤ totalTokens env s id denom :=
  yes_add_no_le env s.rest denom _

/-! ## The result -/

structure QuorumReached (env : Env R) (s : State R) (id : UInt64) (quorum : Dec) (denom : Denom) :
    Prop where
  known : VotersKnown env s id
  total : FitsDec (newDec (totalTokens env s id denom))
  possible : FitsDec (quorum * env.getSupply s.rest denom)
  reached : quorum * env.getSupply s.rest denom ≤ newDec (totalTokens env s id denom)

/-- The products are those of whole numbers of tokens, so that nothing is rounded. -/
theorem getTokenCommitteeProposalResult_ok {c : Committee} {quorum : Dec} {b : Bool} :
    s.getTokenCommitteeProposalResult env id c quorum denom = .ok b ↔
      VotersKnown env s id ∧ FitsDec (newDec (totalTokens env s id denom)) ∧
      FitsDec (quorum * env.getSupply s.rest denom) ∧
      if quorum * env.getSupply s.rest denom ≤ newDec (totalTokens env s id denom) then
        FitsDec ((yesTokens env s id denom + noTokens env s id denom) * c.voteThreshold) ∧
          b = decide ((yesTokens env s id denom + noTokens env s id denom) * c.voteThreshold ≤
            newDec (yesTokens env s id denom))
      else b = false := by
  have hsum := add_nonneg (yesTokens_nonneg env s id denom) (noTokens_nonneg env s id denom)
  -- the tokens for and against are among those cast, so their sum fits
  have hle := newDec_le_iff.mpr (yes_add_no_le_total env s id denom)
  simp only [State.getTokenCommitteeProposalResult, bind_eq_ok, tallyTokenCommitteeVotes_ok,
    checkDec_eq_ok]
  constructor
  · intro h
    obtain ⟨_, ⟨hknown, hfit, rfl⟩, _, ⟨hpossible, rfl⟩, h⟩ := h
    simp only [tokenTally, mul_newDec] at hpossible h
    refine ⟨hknown, hfit, hpossible, ?_⟩
    split at h
    · rename_i hq
      rw [if_pos hq]
      simp only [bind_eq_ok, checkDec_eq_ok, pure_eq_ok] at h
      obtain ⟨_, ⟨_, rfl⟩, _, ⟨hthr, rfl⟩, h⟩ := h
      rw [← newDec_add, newDec_mul] at hthr h
      exact ⟨hthr, h.symm⟩
    · rename_i hq
      rw [if_neg hq]
      exact ((pure_eq_ok _ _).mp h).symm
  · intro h
    obtain ⟨hknown, hfit, hpossible, h⟩ := h
    refine ⟨_, ⟨hknown, hfit, rfl⟩, _, ⟨?_, rfl⟩, ?_⟩
    · simpa only [tokenTally, mul_newDec] using hpossible
    · simp only [tokenTally, mul_newDec]
      split at h
      · rename_i hq
        rw [if_pos hq]
        simp only [bind_eq_ok, checkDec_eq_ok, pure_eq_ok, ← newDec_add]
        refine ⟨_, ⟨hfit.mono (newDec_nonneg hsum) hle, rfl⟩, _, ⟨?_, rfl⟩, ?_⟩
        · rw [newDec_mul]
          exact h.1
        · rw [newDec_mul]
          exact h.2.symm
      · rename_i hq
        rw [if_neg hq, h]
        rfl

theorem getTokenCommitteeProposalResult_returns_iff {c : Committee} {quorum : Dec} :
    (∃ b, s.getTokenCommitteeProposalResult env id c quorum denom = .ok b) ↔
      VotersKnown env s id ∧ FitsDec (newDec (totalTokens env s id denom)) ∧
      FitsDec (quorum * env.getSupply s.rest denom) ∧
      (quorum * env.getSupply s.rest denom ≤ newDec (totalTokens env s id denom) →
        FitsDec ((yesTokens env s id denom + noTokens env s id denom) * c.voteThreshold)) := by
  simp only [getTokenCommitteeProposalResult_ok]
  by_cases hq : quorum * env.getSupply s.rest denom ≤ newDec (totalTokens env s id denom)
  · simp [hq]
  · simp [hq]

theorem Committee.validate_token {c : Committee} {quorum : Dec} (hk : c.kind = .token quorum denom)
    (hv : c.validate = .ok ()) : 0 ≤ quorum ∧ quorum ≤ decPrecision ∧ 0 < c.voteThreshold ∧
    c.voteThreshold ≤ decPrecision := by
  simp only [Committee.validate, hk, Committee.validateBase, bind_eq_ok, rejectIf_eq_ok, not_or,
    not_lt, not_le] at hv
  obtain ⟨_, _, _, _, _, ⟨hq₀, hq₁⟩, _, _, _, _, _, _, _, _, _, ⟨ht₀, ht₁⟩, _⟩ := hv
  exact ⟨hq₀, hq₁, ht₀, ht₁⟩

section
variable {c : Committee} {quorum : Dec} (hk : c.kind = .token quorum denom)
  (hv : c.validate = .ok ())
include hk hv

theorem passes_iff : s.getTokenCommitteeProposalResult env id c quorum denom = .ok true ↔
    QuorumReached env s id quorum denom ∧ (yesTokens env s id denom + noTokens env s id denom) *
      c.voteThreshold ≤
      newDec (yesTokens env s id denom) := by
  obtain ⟨_, _, ht₀, ht₁⟩ := Committee.validate_token hk hv
  have hsum := add_nonneg (yesTokens_nonneg env s id denom) (noTokens_nonneg env s id denom)
  have hle := newDec_le_iff.mpr (yes_add_no_le_total env s id denom)
  rw [getTokenCommitteeProposalResult_ok]
  constructor
  · intro h
    obtain ⟨hknown, hfit, hpossible, h⟩ := h
    split at h
    · rename_i hq
      exact ⟨⟨hknown, hfit, hpossible, hq⟩, of_decide_eq_true h.2.symm⟩
    · cases h
  · intro h
    obtain ⟨hq, h⟩ := h
    refine ⟨hq.known, hq.total, hq.possible, ?_⟩
    rw [if_pos hq.reached]
    refine ⟨hq.total.mono (mul_nonneg hsum ht₀.le) ?_, (decide_eq_true h).symm⟩
    exact le_trans (mul_le_mul_of_nonneg_left ht₁ hsum) hle

end

/-- A proposal that passes has the approval of some tokens exactly if a token is cast
for or against it or the quorum is not reached. -/
theorem passed_with_approval_iff (env : Env R) (s : State R) (id : UInt64) (c : Committee)
    (quorum : Dec) (denom : Denom) (hk : c.kind = .token quorum denom) (hv : c.validate = .ok ()) :
    (s.getTokenCommitteeProposalResult env id c quorum denom = .ok true →
      0 < yesTokens env s id denom) ↔
      0 < yesTokens env s id denom + noTokens env s id denom ∨
      ¬ QuorumReached env s id quorum denom := by
  have hyes := yesTokens_nonneg env s id denom
  have hno := noTokens_nonneg env s id denom
  rw [passes_iff hk hv]
  constructor
  · intro h
    by_cases hq : QuorumReached env s id quorum denom
    · refine .inl ?_
      by_contra hnone
      have hyes₀ : yesTokens env s id denom = 0 := by omega
      have hno₀ : noTokens env s id denom = 0 := by omega
      have hpos := h ⟨hq, by rw [hyes₀, hno₀, add_zero, zero_mul]; exact newDec_nonneg (le_refl 0)⟩
      omega
    · exact .inr hq
  · intro h hpass
    rcases h with hcast | hq
    · have hthr := (Committee.validate_token hk hv).2.2.1
      have hneeded := mul_pos hcast hthr
      by_contra hnone
      have hyes₀ : yesTokens env s id denom = 0 := by omega
      have hle := hpass.2
      rw [hyes₀, show newDec 0 = 0 from Int.zero_mul decPrecision] at hle
      rw [hyes₀] at hneeded
      exact absurd hle (not_le.mpr hneeded)
    · exact absurd hpass.1 hq

def twoBalances (a b : Nat) (addr : Addr) : Int :=
  if addr = [1] then a else if addr = [2] then b else 0

theorem twoBalances_nonneg (a b : Nat) (addr : Addr) : 0 ≤ twoBalances a b addr := by
  unfold twoBalances
  split
  · exact Int.natCast_nonneg a
  · split
    · exact Int.natCast_nonneg b
    · exact le_refl 0

def twoHolders (a b : Nat) : Env Unit where
  getSubspace := fun _ => none
  getAccount := fun _ addr => some addr
  getBalance := fun _ addr _ => twoBalances a b addr
  getSupply := fun _ _ => a + b
  balance_nonneg := fun _ addr _ => twoBalances_nonneg a b addr
  validateBasic := fun _ => .ok ()
  proposalRoute := fun _ => "gov"

def hardCommittee (quorum : Dec) : Committee :=
  { sampleCommittee [[1]] with kind := .token quorum "hard" }

def votedState (votes : List Vote) : State Unit := votes.foldl State.setVote (emptyState ())

theorem passed_with_approval_half :
    (votedState [⟨1, [1], .yes⟩]).getTokenCommitteeProposalResult (twoHolders 10 10) 1
      (hardCommittee (decPrecision / 2))
      (decPrecision / 2) "hard" = .ok true ∧
    0 < yesTokens (twoHolders 10 10) (votedState [⟨1, [1], .yes⟩]) 1 "hard" := by
  have hpass : (votedState [⟨1, [1], .yes⟩]).getTokenCommitteeProposalResult (twoHolders 10 10) 1
      (hardCommittee (decPrecision / 2)) (decPrecision / 2) "hard" = .ok true := by decide +kernel
  exact ⟨hpass, (passed_with_approval_iff (twoHolders 10 10) (votedState [⟨1, [1], .yes⟩]) 1
    (hardCommittee (decPrecision / 2)) (decPrecision / 2) "hard" rfl (by decide +kernel)).mpr
      (.inl (by decide +kernel)) hpass⟩

/-- Half of the tokens abstain; and with a quorum of zero, nobody votes. -/
theorem passed_without_approval :
    ((hardCommittee (decPrecision / 2)).validate = .ok () ∧
      (votedState [⟨1, [1], .abstain⟩]).getTokenCommitteeProposalResult (twoHolders 10 10) 1
        (hardCommittee (decPrecision / 2)) (decPrecision / 2) "hard" = .ok true ∧
      yesTokens (twoHolders 10 10) (votedState [⟨1, [1], .abstain⟩]) 1 "hard" = 0) ∧
    (hardCommittee 0).validate = .ok () ∧
      (votedState []).getTokenCommitteeProposalResult (twoHolders 10 10) 1 (hardCommittee 0) 0
        "hard" = .ok true ∧
      (votedState []).getVotes = [] := by
  decide +kernel

/-! ## One more vote -/

/-- Each voter has one vote and an account, and the supply is the sum of the balances. -/
structure Accounted (env : Env R) (s : State R) (id : UInt64) (denom : Denom) : Prop where
  votesKeyed : s.VotesKeyed
  accounts : ∀ v ∈ s.getVotesByProposal id, env.getAccount s.rest v.voter = some v.voter
  supply : ∃ holders : Finset Addr, (∀ a, a ∉ holders → env.getBalance s.rest a denom = 0) ∧
    env.getSupply s.rest denom = ∑ a ∈ holders, env.getBalance s.rest a denom

theorem Accounted.known (h : Accounted env s id denom) : VotersKnown env s id :=
  fun v hv => ⟨_, h.accounts v hv⟩

theorem Accounted.total_le (h : Accounted env s id denom) :
    totalTokens env s id denom ≤ env.getSupply s.rest denom := by
  obtain ⟨holders, hzero, hsupply⟩ := h.supply
  have hnodup : ((s.getVotesByProposal id).map Vote.voter).Nodup :=
    nodup_valuesWithId (f := Vote.proposalID) (fun k v hv => (h.votesKeyed k v hv).symm) id
  let voters := ((s.getVotesByProposal id).map Vote.voter).toFinset
  have htotal : totalTokens env s id denom = ∑ a ∈ voters, env.getBalance s.rest a denom := by
    rw [List.sum_toFinset _ hnodup, List.map_map, totalTokens, tokensCast, tokensIn]
    refine congrArg List.sum (List.map_congr_left fun v hv => ?_)
    rw [if_pos rfl, voterTokens, h.accounts v hv]
    rfl
  calc totalTokens env s id denom = ∑ a ∈ voters, env.getBalance s.rest a denom := htotal
    _ ≤ ∑ a ∈ voters ∪ holders, env.getBalance s.rest a denom :=
      Finset.sum_le_sum_of_subset_of_nonneg Finset.subset_union_left
        fun a _ _ => env.balance_nonneg s.rest a denom
    _ = ∑ a ∈ holders, env.getBalance s.rest a denom :=
      (Finset.sum_subset Finset.subset_union_right fun a _ ha => hzero a ha).symm
    _ = env.getSupply s.rest denom := hsupply.symm

/-- A vote takes the place of the one its voter cast before. -/
theorem tokensCast_setVote (env : Env R) (s : State R) (id : UInt64) (denom : Denom)
    (p : VoteType → Bool) (voter : Addr) (vt : VoteType) :
    tokensCast env (s.setVote ⟨id, voter, vt⟩) id denom p = tokensCast env s id denom p -
      (s.votes.get (getVoteKey id voter)).elim 0
        (fun v => if p v.voteType then voterTokens env s.rest denom v.voter else 0) +
      if p vt then voterTokens env s.rest denom voter else 0 :=
  sum_valuesWithId_set (fun v : Vote => if p v.voteType then voterTokens env s.rest denom v.voter
    else 0) s.votes id voter
    ⟨id, voter, vt⟩

section
variable (hkeyed : s.VotesKeyed) (voter : Addr)
include hkeyed

theorem setVote_yes_counts (env : Env R) (id : UInt64) (denom : Denom) :
    yesTokens env s id denom ≤ yesTokens env (s.setVote ⟨id, voter, .yes⟩) id denom ∧
    noTokens env (s.setVote ⟨id, voter, .yes⟩) id denom ≤ noTokens env s id denom ∧
    totalTokens env s id denom ≤ totalTokens env (s.setVote ⟨id, voter, .yes⟩) id denom := by
  have hw := voterTokens_nonneg env s.rest denom voter
  simp only [yesTokens, noTokens, totalTokens, tokensCast_setVote]
  cases hold : s.votes.get (getVoteKey id voter) with
  | none =>
    simp
    omega
  | some v =>
    have hvoter : v.voter = voter := (getVoteKey_inj (hkeyed _ v hold)).2.symm
    simp only [Option.elim, hvoter]
    cases v.voteType <;> simp <;> omega

theorem votesKeyed_setVote (v : Vote) : (s.setVote v).VotesKeyed := by
  intro k v' hv
  rw [State.setVote, KVStore.get_set] at hv
  split at hv
  · rename_i e
    cases hv
    exact e
  · exact hkeyed k v' hv

theorem known_setVote (hknown : VotersKnown env s id) {acc : Addr}
    (hacc : env.getAccount s.rest voter = some acc) :
    VotersKnown env (s.setVote ⟨id, voter, .yes⟩) id := by
  intro v hv
  obtain ⟨hget, hid⟩ := ((votesKeyed_setVote hkeyed _).mem_getVotesByProposal id v).mp hv
  rw [State.setVote, KVStore.get_set] at hget
  split at hget
  · cases hget
    exact ⟨acc, hacc⟩
  · exact hknown v ((hkeyed.mem_getVotesByProposal id v).mpr ⟨hget, hid⟩)

end

theorem threshold_mono {y y' n n' thr : Int} (hy : y ≤ y') (hn : n' ≤ n) (h₀ : 0 ≤ thr)
    (h₁ : thr ≤ decPrecision) (h : (y + n) * thr ≤ newDec y) : (y' + n') * thr ≤ newDec y' := by
  have hadded : (y' - y) * thr ≤ newDec (y' - y) := mul_le_mul_of_nonneg_left h₁ (by omega)
  calc (y' + n') * thr ≤ (y' + n) * thr := mul_le_mul_of_nonneg_right (by omega) h₀
    _ = (y + n) * thr + (y' - y) * thr := by ring
    _ ≤ newDec y + newDec (y' - y) := add_le_add h hadded
    _ = newDec y' := by rw [← newDec_add]; congr 1; ring

/-- As long as the tokens cast fit in a decimal, the tally returns with at most as many
of them as there are, and a vote in favour does not keep a proposal from passing. -/
theorem tally_bounded_and_monotone (env : Env R) (s : State R) (id : UInt64) (c : Committee)
    (quorum : Dec) (denom : Denom)
    (hk : c.kind = .token quorum denom) (hv : c.validate = .ok ()) (h : Accounted env s id denom) :
    ((∃ t, s.tallyTokenCommitteeVotes env id denom = .ok t) ↔
      FitsDec (newDec (totalTokens env s id denom))) ∧
    (∀ t, s.tallyTokenCommitteeVotes env id denom = .ok t →
      t.yesVotes + t.noVotes ≤ t.totalVotes ∧ t.totalVotes ≤ t.possibleVotes) ∧
    ∀ voter, env.getAccount s.rest voter = some voter →
      FitsDec (newDec (totalTokens env (s.setVote ⟨id, voter, .yes⟩) id denom)) →
      s.getTokenCommitteeProposalResult env id c quorum denom = .ok true →
      (s.setVote ⟨id, voter, .yes⟩).getTokenCommitteeProposalResult env id c quorum denom =
        .ok true := by
  refine ⟨?_, ?_, ?_⟩
  · simp only [tallyTokenCommitteeVotes_ok]
    constructor
    · intro ht
      obtain ⟨_, _, hfit, _⟩ := ht
      exact hfit
    · intro hfit
      exact ⟨_, h.known, hfit, rfl⟩
  · intro t ht
    obtain ⟨_, _, rfl⟩ := tallyTokenCommitteeVotes_ok.mp ht
    refine ⟨?_, newDec_le_iff.mpr h.total_le⟩
    have hle := newDec_le_iff.mpr (yes_add_no_le_total env s id denom)
    rwa [newDec_add] at hle
  · intro voter hacc hfit hpass
    obtain ⟨hq, hthr⟩ := (passes_iff hk hv).mp hpass
    obtain ⟨_, _, ht₀, ht₁⟩ := Committee.validate_token hk hv
    obtain ⟨hyes, hno, htotal⟩ := setVote_yes_counts h.votesKeyed voter env id denom
    refine (passes_iff hk hv).mpr ⟨?_, threshold_mono hyes hno ht₀.le ht₁ hthr⟩
    exact ⟨known_setVote h.votesKeyed voter hq.known hacc, hfit, hq.possible,
      le_trans hq.reached (newDec_le_iff.mpr htotal)⟩

theorem votedState_keyed (votes : List Vote) : (votedState votes).VotesKeyed := by
  have hfold : ∀ s : State Unit, s.VotesKeyed → (votes.foldl State.setVote s).VotesKeyed := by
    induction votes with
    | nil => exact fun _ h => h
    | cons v votes ih => exact fun s h => ih (s.setVote v) (votesKeyed_setVote h v)
  refine hfold (emptyState ()) fun k v hv => ?_
  cases hv

theorem votedState_accounted (a b : Nat) (votes : List Vote) (id : UInt64) (denom : Denom) :
    Accounted (twoHolders a b) (votedState votes) id denom where
  votesKeyed := votedState_keyed votes
  accounts := fun _ _ => rfl
  supply := by
    refine ⟨{[1], [2]}, fun x hx => ?_, ?_⟩
    · simp only [Finset.mem_insert, Finset.mem_singleton, not_or] at hx
      simp [twoHolders, twoBalances, hx]
    · rw [Finset.sum_pair (by decide)]
      simp [twoHolders, twoBalances]

theorem tally_monotone_half :
    (votedState [⟨1, [1], .yes⟩, ⟨1, [2], .yes⟩]).getTokenCommitteeProposalResult
      (twoHolders 10 10) 1
      (hardCommittee (decPrecision / 2)) (decPrecision / 2) "hard" = .ok true :=
  (tally_bounded_and_monotone (twoHolders 10 10) (votedState [⟨1, [1], .yes⟩]) 1
    (hardCommittee (decPrecision / 2))
    (decPrecision / 2) "hard" rfl (by decide +kernel) (votedState_accounted 10 10 _ 1 "hard")).2.2
      [2] rfl
    (by unfold FitsDec; decide +kernel) (by decide +kernel)

/-- A proposal has passed with the vote of one token. When the account with all the
others votes for it as well, the tally panics. -/
theorem vote_in_favour_overflows :
    (hardCommittee 0).validate = .ok () ∧
    Accounted (twoHolders 1 (2 ^ 256 - 2)) (votedState [⟨1, [1], .yes⟩]) 1 "hard" ∧
    (votedState [⟨1, [1], .yes⟩]).getTokenCommitteeProposalResult (twoHolders 1 (2 ^ 256 - 2)) 1
      (hardCommittee 0) 0
      "hard" = .ok true ∧
    ((votedState [⟨1, [1], .yes⟩]).setVote ⟨1, [2], .yes⟩).getTokenCommitteeProposalResult
      (twoHolders 1 (2 ^ 256 - 2)) 1
      (hardCommittee 0) 0 "hard" = .error (.other "Int overflow") :=
  ⟨by decide +kernel,
    votedState_accounted 1 (2 ^ 256 - 2) _ 1 "hard", by decide +kernel, by decide +kernel⟩

end ZgChain.Committees
