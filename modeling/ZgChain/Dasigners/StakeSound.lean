import ZgChain.Dasigners.Abci
import ZgChain.Lib.Yields

/-!
# The stake of an account

The stake behind an account is what its first eleven delegations are worth, rounded. It is
computed as long as the products of shares and tokens and the sum of what they are worth have
at most 315 bits, and makes the code panic otherwise.
-/

namespace ZgChain.Dasigners

def maxDelegations : Nat := 11

/-- What a delegation is worth, of whatever size. -/
def delegationTokens (staking : Staking) (delegation : Delegation) : Dec :=
  ((staking.getValidator delegation.validatorAddress).map fun v =>
    v.worth delegation.shares.val.val).getD 0

def counted (staking : Staking) (delegator : Addr) : List Delegation :=
  (staking.delegations delegator).take maxDelegations

def stakeTokens (staking : Staking) (delegator : Addr) : Dec :=
  ((counted staking delegator).map (delegationTokens staking)).sum

def ProductInRange (staking : Staking) (delegation : Delegation) : Prop :=
  ∀ v ∈ staking.getValidator delegation.validatorAddress, delegation.shares.val.val * v.tokens <
    2 ^ maxDecBitLen

instance (staking : Staking) (delegation : Delegation) :
    Decidable (ProductInRange staking delegation) :=
  inferInstanceAs (Decidable (∀ v ∈ staking.getValidator delegation.validatorAddress,
    delegation.shares.val.val * v.tokens < 2 ^ maxDecBitLen))

/-- No decimal of the sum is too large. -/
def StakeInRange (staking : Staking) (delegator : Addr) : Prop :=
  (∀ delegation ∈ counted staking delegator, ProductInRange staking delegation) ∧
    stakeTokens staking delegator < 2 ^ maxDecBitLen

instance (staking : Staking) (delegator : Addr) : Decidable (StakeInRange staking delegator) :=
  inferInstanceAs (Decidable
    ((∀ delegation ∈ counted staking delegator, ProductInRange staking delegation) ∧
    stakeTokens staking delegator < 2 ^ maxDecBitLen))

section
variable {staking : Staking} {delegation : Delegation} {bonded bonded' : StoredDec}

theorem delegationTokens_nonneg (staking : Staking) (delegation : Delegation) :
    0 ≤ delegationTokens staking delegation := by
  unfold delegationTokens
  cases staking.getValidator delegation.validatorAddress with
  | none => exact le_rfl
  | some v => exact v.worth_nonneg delegation.shares.property

theorem sum_delegationTokens_nonneg (staking : Staking) (delegations : List Delegation) :
    0 ≤ (delegations.map (delegationTokens staking)).sum := by
  refine List.sum_nonneg fun n hn => ?_
  obtain ⟨delegation, _, rfl⟩ := List.mem_map.mp hn
  exact delegationTokens_nonneg staking delegation

theorem natAbs_lt_iff {n : Int} (h : 0 ≤ n) :
    n.natAbs < 2 ^ maxDecBitLen ↔ n < 2 ^ maxDecBitLen := by
  rw [← Int.ofNat_lt, Int.natAbs_of_nonneg h]
  norm_cast

theorem addDelegation_eq_ok (hb : 0 ≤ bonded.val) :
    addDelegation staking bonded delegation = .ok bonded' ↔
    ProductInRange staking delegation ∧
    bonded'.val = bonded.val + delegationTokens staking delegation := by
  unfold addDelegation ProductInRange delegationTokens
  cases staking.getValidator delegation.validatorAddress with
  | none => simp [Subtype.ext_iff, eq_comm]
  | some v =>
    have hshares := delegation.shares.property
    have hworth := v.worth_nonneg hshares
    have hproduct : (0 : Int) ≤ delegation.shares.val.val * v.tokens :=
      mul_nonneg hshares (Int.natCast_nonneg _)
    simp only [bind_eq_ok, orReject_eq_ok, Validator.tokensFromSharesTruncated_eq_some,
      StoredDec.add, storedDec_eq_some, natAbs_lt_iff hproduct, Option.mem_def, Option.some.injEq,
      forall_eq', Option.map_some, Option.getD_some]
    constructor
    · intro h
      obtain ⟨tokens, ⟨hlt, htokens⟩, hsum⟩ := h
      exact ⟨hlt, htokens ▸ hsum⟩
    · intro h
      -- what is added is at most the sum, so it is in the range too
      have hle : v.worth delegation.shares.val.val ≤ bonded'.val := h.2 ▸ le_add_of_nonneg_left hb
      have hrange := inRange_of_between (a := .zero) hworth hle
      exact ⟨⟨_, hrange⟩, ⟨h.1, rfl⟩, h.2⟩

theorem addDelegations_eq_ok {cnt : Nat} (hcnt : cnt ≤ 10) (hb : 0 ≤ bonded.val)
    {delegations : List Delegation} :
    addDelegations staking cnt bonded delegations = .ok bonded' ↔
      (∀ delegation ∈ delegations.take (maxDelegations - cnt), ProductInRange staking delegation) ∧
        bonded'.val =
          bonded.val + ((delegations.take (maxDelegations - cnt)).map
            (delegationTokens staking)).sum := by
  induction delegations generalizing cnt bonded with
  | nil => simp [addDelegations, Subtype.ext_iff, eq_comm]
  | cons delegation rest ih =>
    have hone : maxDelegations - cnt = maxDelegations - (cnt + 1) + 1 := by
      unfold maxDelegations
      omega
    rw [hone, List.take_succ_cons, List.map_cons, List.sum_cons, ← add_assoc, List.forall_mem_cons]
    simp only [addDelegations, bind_eq_ok, addDelegation_eq_ok hb]
    by_cases hlast : 10 < cnt + 1
    · have hnone : maxDelegations - (cnt + 1) = 0 := by
        unfold maxDelegations
        omega
      simp only [if_pos hlast, pure_eq_ok, hnone, List.take_zero, List.map_nil, List.sum_nil,
        add_zero]
      simp
    · have htokens := delegationTokens_nonneg staking delegation
      simp only [if_neg hlast]
      constructor
      · intro h
        obtain ⟨b₁, ⟨hproduct, hb₁⟩, h⟩ := h
        obtain ⟨hrest, hsum⟩ := (ih (by omega) (hb₁ ▸ add_nonneg hb htokens)).mp h
        exact ⟨⟨hproduct, hrest⟩, hb₁ ▸ hsum⟩
      · intro h
        obtain ⟨⟨hproduct, hrest⟩, hsum⟩ := h
        have hle : bonded.val + delegationTokens staking delegation ≤ bonded'.val :=
          hsum ▸ le_add_of_nonneg_right (sum_delegationTokens_nonneg staking _)
        have hrange := inRange_of_between (le_add_of_nonneg_right htokens) hle
        exact ⟨⟨_, hrange⟩, ⟨hproduct, rfl⟩, (ih (by omega) (add_nonneg hb htokens)).mpr
          ⟨hrest, hsum⟩⟩

end

theorem addDelegation_yields (staking : Staking) (bonded : StoredDec) (delegation : Delegation) :
    YieldsOr intOverflow (addDelegation staking bonded delegation) fun _ => True := by
  unfold addDelegation
  cases staking.getValidator delegation.validatorAddress with
  | none => exact .ok trivial
  | some v =>
    exact (yieldsOr_orReject _).bind fun tokens _ => (yieldsOr_orReject _).mono fun _ _ => trivial

theorem addDelegations_yields (staking : Staking) (cnt : Nat) (bonded : StoredDec)
    (delegations : List Delegation) :
    YieldsOr intOverflow (addDelegations staking cnt bonded delegations) fun _ => True := by
  induction delegations generalizing cnt bonded with
  | nil => exact .ok trivial
  | cons delegation rest ih =>
    refine (addDelegation_yields staking bonded delegation).bind fun bonded' _ => ?_
    split
    · exact .ok trivial
    · exact ih _ _

theorem stakeTokens_nonneg (staking : Staking) (delegator : Addr) :
    0 ≤ stakeTokens staking delegator :=
  sum_delegationTokens_nonneg staking _

/-- The stake is computed exactly if it is in the range. -/
theorem getDelegatorBonded_eq (staking : Staking) (delegator : Addr) :
    getDelegatorBonded staking delegator =
    if StakeInRange staking delegator then .ok (stakeTokens staking delegator).roundInt
      else .error intOverflow := by
  have hzero : (0 : Int) ≤ StoredDec.zero.val := le_rfl
  unfold getDelegatorBonded
  by_cases h : StakeInRange staking delegator
  · have hrange := (natAbs_lt_iff (stakeTokens_nonneg staking delegator)).mpr h.2
    have hok : addDelegations staking 0 .zero (staking.delegations delegator) = .ok ⟨_, hrange⟩ :=
      (addDelegations_eq_ok (Nat.zero_le _) hzero).mpr ⟨h.1, (zero_add _).symm⟩
    rw [if_pos h, hok, ok_bind]
    rfl
  · rw [if_neg h]
    rcases addDelegations_yields staking 0 .zero (staking.delegations delegator)
      with he | ⟨bonded, hok, _⟩
    · rw [he]
      rfl
    · obtain ⟨hproducts, hsum⟩ := (addDelegations_eq_ok (Nat.zero_le _) hzero).mp hok
      refine absurd ⟨hproducts, ?_⟩ h
      have hstake : bonded.val = stakeTokens staking delegator := hsum.trans (zero_add _)
      rw [← natAbs_lt_iff (stakeTokens_nonneg staking delegator), ← hstake]
      exact bonded.property

theorem getDelegatorBonded_ok {staking : Staking} {delegator : Addr} {n : Int} :
    getDelegatorBonded staking delegator = .ok n ↔
      StakeInRange staking delegator ∧ n = (stakeTokens staking delegator).roundInt := by
  rw [getDelegatorBonded_eq]
  split
  · rename_i h
    simp [h, eq_comm]
  · rename_i h
    simp [h]

/-! ## Registrations -/

/-- The stake of the account that has registered can be computed. -/
def RegistrationInRange (ctx : CallCtx) (registration : String × Bytes) : Prop :=
  ∀ addr, accAddressFromHexUnsafe registration.1 = .ok addr → StakeInRange ctx.staking addr

/-- So can that of every account that has registered for the next epoch. -/
def StakesInRange (ctx : CallCtx) (s : State) : Prop :=
  ∀ n, s.epochNumber = some n →
    ∀ registration ∈ iterateRegistrations s (n + 1), RegistrationInRange ctx registration

section
variable {env : Env} {ctx : CallCtx} {s : State}

theorem registrationBallots_returns_iff (env : Env) (hp : s.params.tokensPerVote ≠ 0)
    {registration : String × Bytes} :
    (∃ ballots, registrationBallots env ctx s registration = .ok ballots) ↔
    RegistrationInRange ctx registration := by
  unfold registrationBallots RegistrationInRange
  cases accAddressFromHexUnsafe registration.1 with
  | error e => simp
  | ok addr =>
    simp only [bind_eq_ok, getDelegatorBonded_ok, votes, rejectIf_eq_ok, pure_eq_ok,
      Except.ok.injEq, forall_eq']
    constructor
    · intro h
      obtain ⟨_, _, ⟨hrange, _⟩, _⟩ := h
      exact hrange
    · intro h
      exact ⟨_, _, ⟨h, rfl⟩, _, ⟨(), hp, rfl⟩, rfl⟩

theorem collectBallots_returns_iff (env : Env) (hp : s.params.tokensPerVote ≠ 0)
    {registrations : List (String × Bytes)} :
    (∃ ballots, collectBallots env ctx s registrations = .ok ballots) ↔
      ∀ registration ∈ registrations, RegistrationInRange ctx registration := by
  induction registrations with
  | nil => simp [collectBallots]
  | cons registration rest ih =>
    rw [List.forall_mem_cons, ← registrationBallots_returns_iff env hp, ← ih]
    simp only [collectBallots, bind_eq_ok, pure_eq_ok]
    constructor
    · intro h
      obtain ⟨_, ballots, hb, others, ho, _⟩ := h
      exact ⟨⟨ballots, hb⟩, others, ho⟩
    · intro h
      obtain ⟨⟨ballots, hb⟩, others, ho⟩ := h
      exact ⟨_, ballots, hb, others, ho, rfl⟩

theorem registrationBallots_yields (hp : s.params.tokensPerVote ≠ 0)
    (registration : String × Bytes) :
    YieldsOr intOverflow (registrationBallots env ctx s registration) fun _ => True := by
  unfold registrationBallots
  split
  · exact .ok trivial
  · rename_i addr _
    have hbonded : YieldsOr intOverflow (getDelegatorBonded ctx.staking addr) fun _ => True :=
      (addDelegations_yields _ _ _ _).bind fun _ _ => .ok trivial
    refine hbonded.bind fun bonded _ => ?_
    rw [votes, rejectIf_neg hp]
    exact .ok trivial

theorem collectBallots_yields (hp : s.params.tokensPerVote ≠ 0)
    (registrations : List (String × Bytes)) :
    YieldsOr intOverflow (collectBallots env ctx s registrations) fun _ => True := by
  induction registrations with
  | nil => exact .ok trivial
  | cons registration rest ih =>
    exact (registrationBallots_yields hp registration).bind fun _ _ =>
      ih.bind fun _ _ => .ok trivial

end

/-! ## How many ballots there are -/

/-- The votes of the stake of an account that has registered, up to the maximum. -/
def registrationVotes (ctx : CallCtx) (s : State) (registration : String × Bytes) : Nat :=
  match accAddressFromHexUnsafe registration.1 with
  | .error _ => 0
  | .ok addr =>
    let tokens := (stakeTokens ctx.staking addr).roundInt.tdiv bondedConversionRate
    ballotNum s.params |tokens.tdiv s.params.tokensPerVote.toNat|

def ballotCount (ctx : CallCtx) (s : State) (registrations : List (String × Bytes)) : Nat :=
  (registrations.map (registrationVotes ctx s)).sum

theorem length_castBallots (c : Bn254util.Curve) (account : String) (n : Nat) (content : Bytes) :
    (castBallots c account n content).length = n := by
  induction n generalizing content with
  | zero => rfl
  | succ n ih => rw [castBallots, List.length_cons, ih]

section
variable {env : Env} {ctx : CallCtx} {s : State}

theorem length_collectBallots {registrations : List (String × Bytes)} {ballots : List Ballot}
    (h : collectBallots env ctx s registrations = .ok ballots) {f : String × Bytes → Nat}
    (hf : ∀ r ∈ registrations, ∀ own, registrationBallots env ctx s r = .ok own →
      own.length = f r) :
    ballots.length = (registrations.map f).sum := by
  induction registrations generalizing ballots with
  | nil =>
    cases h
    rfl
  | cons r rest ih =>
    simp only [collectBallots, bind_eq_ok, pure_eq_ok] at h
    obtain ⟨own, hown, others, hothers, rfl⟩ := h
    rw [List.length_append, hf r List.mem_cons_self own hown,
      ih hothers fun r' hr' => hf r' (List.mem_cons_of_mem _ hr'), List.map_cons, List.sum_cons]

theorem length_registrationBallots {registration : String × Bytes} {ballots : List Ballot}
    (h : registrationBallots env ctx s registration = .ok ballots) :
    ballots.length = registrationVotes ctx s registration := by
  unfold registrationBallots at h
  unfold registrationVotes
  cases he : accAddressFromHexUnsafe registration.1 with
  | error e =>
    rw [he] at h
    cases h
    rfl
  | ok addr =>
    simp only [he, bind_eq_ok, getDelegatorBonded_ok, votes, pure_eq_ok] at h
    obtain ⟨_, ⟨_, rfl⟩, _, ⟨_, _, rfl⟩, rfl⟩ := h
    exact length_castBallots _ _ _ _

theorem length_ballots_eq_ballotCount {registrations : List (String × Bytes)}
    {ballots : List Ballot} (h : collectBallots env ctx s registrations = .ok ballots) :
    ballots.length = ballotCount ctx s registrations :=
  length_collectBallots h fun _ _ _ hown => length_registrationBallots hown

end

end ZgChain.Dasigners
