import ZgChain.Committees.EnactSound
import ZgChain.Committees.TallySound

/-!
# When the begin blocker completes

The begin blocker panics if it tallies, for a token committee, the vote of an
address without an account or more tokens than fit in a decimal, or if the
permission check of a proposal that passed comes to a rule with attribute lists for
a parameter that has no value, or none that decodes to records. Votes and proposals
of a genesis are not checked for either, and parameters change while proposals are
open.
-/

namespace ZgChain.Committees

variable {R : Type} (env : Env R)

/-! ## Tallies -/

def Talliable (s : State R) (id : UInt64) (denom : Denom) : Prop :=
  VotersKnown env s id ∧ FitsDec (newDec (totalTokens env s id denom))

/-- The votes on a proposal can be compared with what the committee asks for. Only a
token committee looks at accounts. -/
def Countable (s : State R) (id : UInt64) (c : Committee) : Prop :=
  ∀ quorum denom, c.kind = .token quorum denom →
    Talliable env s id denom ∧ FitsDec (quorum * env.getSupply s.rest denom) ∧
    (quorum * env.getSupply s.rest denom ≤ newDec (totalTokens env s id denom) →
      FitsDec ((yesTokens env s id denom + noTokens env s id denom) * c.voteThreshold))

def Closable (s : State R) (id : UInt64) : Prop :=
  ∀ p c, s.getProposal id = some p → s.getCommittee p.committeeID = some c →
    ∀ quorum denom, c.kind = .token quorum denom → Talliable env s p.id denom

section
variable {env} {s : State R} {id : UInt64}

theorem tallyTokenCommitteeVotes_returns_iff (env : Env R) (s : State R) (id : UInt64)
    (denom : Denom) :
    (∃ t, s.tallyTokenCommitteeVotes env id denom = .ok t) ↔ Talliable env s id denom := by
  simp only [tallyTokenCommitteeVotes_ok]
  constructor
  · intro h
    obtain ⟨_, hknown, hfit, _⟩ := h
    exact ⟨hknown, hfit⟩
  · intro h
    exact ⟨_, h.1, h.2, rfl⟩

theorem getProposalResult_returns_iff (env : Env R) (s : State R) (id : UInt64) (c : Committee) :
    (∃ b, s.getProposalResult env id c = .ok b) ↔ Countable env s id c := by
  unfold State.getProposalResult Countable
  cases hk : c.kind with
  | base => simp
  | member => simp
  | token quorum denom =>
    simp only [getTokenCommitteeProposalResult_returns_iff, CommitteeKind.token.injEq]
    constructor
    · intro h quorum' denom' hkind
      obtain ⟨rfl, rfl⟩ := hkind
      exact ⟨⟨h.1, h.2.1⟩, h.2.2⟩
    · intro h
      obtain ⟨ht, hrest⟩ := h quorum denom ⟨rfl, rfl⟩
      exact ⟨ht.1, ht.2, hrest⟩

theorem getProposalTallyResponse_returns_iff :
    (∃ t, s.getProposalTallyResponse env id = .ok t) ↔ Closable env s id := by
  unfold State.getProposalTallyResponse Closable
  cases hq : s.getProposal id with
  | none => simp
  | some q =>
    cases hc : s.getCommittee q.committeeID with
    | none =>
      simp only [hc]
      constructor
      · intro _ p c hp hpc
        cases hp
        cases hc.symm.trans hpc
      · intro _
        exact ⟨none, rfl⟩
    | some c =>
      -- the proposal and its committee are determined
      have hone : (∀ p c', some q = some p → s.getCommittee p.committeeID = some c' →
          ∀ quorum denom, c'.kind = .token quorum denom → Talliable env s p.id denom) ↔
          ∀ quorum denom, c.kind = .token quorum denom → Talliable env s q.id denom := by
        constructor
        · intro h
          exact h q c rfl hc
        · intro h p c' hp hc'
          cases hp
          cases hc.symm.trans hc'
          exact h
      rw [hone]
      cases hk : c.kind with
      | base => simp [hc, hk]
      | member => simp [hc, hk]
      | token quorum denom =>
        have ht := tallyTokenCommitteeVotes_returns_iff env s q.id denom
        simp only [hc, hk, CommitteeKind.token.injEq]
        cases hres : s.tallyTokenCommitteeVotes env q.id denom with
        | ok t => simpa [hres, Except.map] using ht
        | error e => simpa [hres, Except.map] using ht

theorem closeProposal_returns_iff (env : Env R) (s : State R) (p : Proposal) :
    (∃ s', s.closeProposal env p = .ok s') ↔ Closable env s p.id := by
  rw [← getProposalTallyResponse_returns_iff]
  simp only [State.closeProposal, bind_eq_ok, pure_eq_ok]
  constructor
  · intro h
    obtain ⟨_, t, ht, _⟩ := h
    exact ⟨t, ht⟩
  · intro h
    obtain ⟨t, ht⟩ := h
    exact ⟨_, t, ht, rfl⟩

end

/-! ## Permission checks -/

/-- The rule has attribute lists, and the value to be set decodes to what the
current value has the form of, but the current value does not. -/
def Undecodable (r : R) (rule : AllowedParamsChange) (change : ParamChange) : Prop :=
  ¬ (rule.singleSubparamAllowedAttrs = [] ∧ rule.multiSubparamsRequirements = []) ∧
  ∃ getRaw, env.getSubspace change.subspace = some getRaw ∧
    let raw := getRaw r change.key
    if (raw.map Json.isArray).getD false then
      (change.value.bind Json.toRecords?).isSome ∧ raw.bind Json.toRecords? = none
    else (change.value.bind Json.toRecord?).isSome ∧ raw.bind Json.toRecord? = none

/-- The check of a proposal with these permissions comes to the rule: no permission
before allows the proposal, every change before is allowed, and no rule before
allows this change. -/
def CheckReaches (r : R) (permissions : List Permission) (content : Option PubProposal)
    (rule : AllowedParamsChange) (change : ParamChange) : Prop :=
  ∃ before rules after title description changesBefore changesAfter rulesBefore rulesAfter,
    permissions = before ++ .paramsChange rules :: after ∧
    (∀ q ∈ before, q.allows env r content = .ok false) ∧
    content = some (.parameterChange title description (changesBefore ++ change :: changesAfter)) ∧
    (∀ ch ∈ changesBefore, (filterByParamChange rules ch).anyM
      (fun q => q.allowsParamChange env r ch) = .ok true) ∧
    filterByParamChange rules change = rulesBefore ++ rule :: rulesAfter ∧
    ∀ q ∈ rulesBefore, q.allowsParamChange env r change = .ok false

section
variable {env} {r : R}

theorem allowsParamChange_returns_iff {rule : AllowedParamsChange} {change : ParamChange}
    (h : change.subspace = rule.subspace) :
    (∃ b, rule.allowsParamChange env r change = .ok b) ↔ ¬ Undecodable env r rule change := by
  have hne : ¬ (rule.subspace ≠ change.subspace ∧ rule.key ≠ change.key) := fun hn => hn.1 h.symm
  unfold AllowedParamsChange.allowsParamChange Undecodable
  rw [if_neg hne]
  by_cases hlists : rule.singleSubparamAllowedAttrs = [] ∧ rule.multiSubparamsRequirements = []
  · simp [hlists]
  · rw [if_neg hlists]
    cases hsub : env.getSubspace change.subspace with
    | none => simp
    | some getRaw =>
      simp only [hlists, not_false_eq_true, true_and, Option.some.injEq, exists_eq_left']
      by_cases harr : ((getRaw r change.key).map Json.isArray).getD false
      · simp only [harr, ite_true]
        cases change.value.bind Json.toRecords? with
        | none => simp
        | some cv => cases (getRaw r change.key).bind Json.toRecords? <;> simp
      · simp only [harr]
        cases change.value.bind Json.toRecord? with
        | none => simp
        | some cv => cases (getRaw r change.key).bind Json.toRecord? <;> simp

theorem mem_filterByParamChange (rules : List AllowedParamsChange) {change : ParamChange}
    {rule : AllowedParamsChange}
    (h : rule ∈ filterByParamChange rules change) : change.subspace = rule.subspace := by
  have := (List.mem_filter.mp h).2
  simp only [decide_eq_true_eq] at this
  exact this.1

theorem hasPermissionsFor_returns_iff (env : Env R) (r : R) (c : Committee)
    (content : Option PubProposal) :
    (∃ b, c.hasPermissionsFor env r content = .ok b) ↔
      ∀ rule change, CheckReaches env r c.permissions content rule change →
        ¬ Undecodable env r rule change := by
  unfold Committee.hasPermissionsFor
  -- only the rules for parameters can panic; they are searched in two nested loops
  rw [anyM_returns_iff]
  constructor
  · intro h rule change hreach
    obtain ⟨before, rules, after, title, description, cb, ca, rb, ra, hperms, hbefore, hcontent,
      hcb, hrules, hrb⟩ := hreach
    obtain ⟨b, hb⟩ := h before _ after hperms hbefore
    rw [hcontent] at hb
    have hall := (allM_returns_iff _).mp ⟨b, hb⟩ cb change ca rfl hcb
    have hany := (anyM_returns_iff _).mp hall rb rule ra hrules hrb
    refine (allowsParamChange_returns_iff (mem_filterByParamChange rules ?_)).mp hany
    rw [hrules]
    simp
  · intro h before perm after hperms hbefore
    cases perm with
    | god => exact ⟨true, rfl⟩
    | text =>
      cases content with
      | none => exact ⟨false, rfl⟩
      | some p => cases p <;> exact ⟨_, rfl⟩
    | softwareUpgrade =>
      cases content with
      | none => exact ⟨false, rfl⟩
      | some p => cases p <;> exact ⟨_, rfl⟩
    | paramsChange rules =>
      cases content with
      | none => exact ⟨false, rfl⟩
      | some p =>
        cases p with
        | parameterChange title description changes =>
          unfold Permission.allows
          simp only
          rw [allM_returns_iff]
          intro cb change ca hchanges hcb
          rw [anyM_returns_iff]
          intro rb rule ra hrules hrb
          refine (allowsParamChange_returns_iff (mem_filterByParamChange rules ?_)).mpr ?_
          · rw [hrules]
            simp
          · refine h rule change ⟨before, rules, after, title, description, cb, ca, rb, ra, hperms,
              hbefore, ?_, hcb,
              hrules, hrb⟩
            rw [hchanges]
        | _ => exact ⟨false, rfl⟩

end

/-! ## Visits -/

structure EnactSafe (s : State R) (c : Committee) (p : Proposal) : Prop where
  rules : ∀ rule change, CheckReaches env s.rest c.permissions p.content rule change →
    ¬ Undecodable env s.rest rule change
  basic : c.hasPermissionsFor env s.rest p.content = .ok true →
    ∀ content e, p.content = some content → content.validateBasic env ≠ .error (.panic e)

/-- The visit of a proposal cannot panic. Votes are tallied if the committee decides
as soon as it can or the deadline has passed. -/
def VisitSafe (router : Router R) (time : Time) (s : State R) (p : Proposal) : Prop :=
  match s.getCommittee p.committeeID with
  | none => Closable env s p.id
  | some c => (p.hasExpiredBy time = true ∨ c.tallyOption = .firstPastThePost) →
    Countable env s p.id c ∧
    (s.getProposalResult env p.id c = .ok true →
      EnactSafe env s c p ∧ Closable env (s.attemptEnactProposal env router p).2 p.id) ∧
    (s.getProposalResult env p.id c = .ok false → p.hasExpiredBy time = true → Closable env s p.id)

section
variable {env} {router : Router R} {s : State R} {p : Proposal}

theorem enactAndClose_returns_iff (env : Env R) (router : Router R) {c : Committee}
    (hc : s.getCommittee p.committeeID = some c) :
    (∃ s', s.enactAndClose env router p = .ok s') ↔
      EnactSafe env s c p ∧ Closable env (s.attemptEnactProposal env router p).2 p.id := by
  have hsafe : EnactSafe env s c p ↔ ∀ e, ¬ State.EnactPanics env s p e := by
    have hret := hasPermissionsFor_returns_iff env s.rest c p.content
    constructor
    · intro h e ⟨com, hcom, he⟩
      cases hc.symm.trans hcom
      rcases he with he | ⟨hok, content, hcontent, he⟩
      · obtain ⟨b, hb⟩ := hret.mpr h.rules
        cases he.symm.trans hb
      · exact h.basic hok content e hcontent he
    · intro h
      refine ⟨hret.mp ?_,
        fun hok content e hcontent he => h e ⟨c, hc, Or.inr ⟨hok, content, hcontent, he⟩⟩⟩
      cases hp : c.hasPermissionsFor env s.rest p.content with
      | ok b => exact ⟨b, rfl⟩
      | error e => exact absurd ⟨c, hc, Or.inl hp⟩ (h e)
  -- an attempt that returned has not panicked
  have hnot : ∀ o s', s.attemptEnactProposal env router p = (.ok o, s') → EnactSafe env s c p := by
    intro o s' ha
    rw [hsafe]
    intro e he
    cases (he.attempt router).symm.trans ha
  unfold State.enactAndClose
  rcases State.attemptEnactProposal_cases env router s p with ⟨e, he, ha⟩ | ha | ⟨s', _, ha⟩
  · rw [ha, hsafe]
    constructor
    · intro ⟨_, h⟩
      cases h
    · intro ⟨h, _⟩
      exact absurd he (h e)
  · rw [ha]
    simp only
    rw [closeProposal_returns_iff]
    exact ⟨fun h => ⟨hnot _ _ ha, h⟩, fun h => h.2⟩
  · rw [ha]
    simp only
    rw [closeProposal_returns_iff]
    exact ⟨fun h => ⟨hnot _ _ ha, h⟩, fun h => h.2⟩

theorem processProposal_returns_iff (time : Time) :
    (∃ s', State.processProposal env router time s p = .ok s') ↔ VisitSafe env router time s p := by
  unfold State.processProposal VisitSafe
  cases hc : s.getCommittee p.committeeID with
  | none => exact closeProposal_returns_iff env s p
  | some c =>
    have hres := getProposalResult_returns_iff env s p.id c
    have henact := enactAndClose_returns_iff env router hc
    have hclose := closeProposal_returns_iff env s p
    simp only
    cases hr : s.getProposalResult env p.id c with
    | error e =>
      have hcount : ¬ Countable env s p.id c := by
        rw [← hres, hr]
        intro ⟨_, h⟩
        cases h
      simp only [error_bind]
      -- before the deadline the votes are tallied only if the committee decides as soon as it can
      cases p.hasExpiredBy time with
      | true => simp [hcount]
      | false =>
        by_cases hopt : c.tallyOption = .firstPastThePost
        · simp [hopt, hcount]
        · simp [hopt]
    | ok passed =>
      have hcount : Countable env s p.id c := hres.mp ⟨passed, hr⟩
      simp only [ok_bind]
      cases p.hasExpiredBy time with
      | true => cases passed <;> simp [hcount, henact, hclose]
      | false =>
        by_cases hopt : c.tallyOption = .firstPastThePost
        · cases passed <;> simp [hopt, hcount, henact, pure, Except.pure]
        · simp [hopt]

end

theorem begin_blocker_completes_iff (router : Router R) (s : State R) (time : Time) :
    (∃ s', s.processProposals env router time = .ok s') ↔
      ∀ before p after s₁, s.getProposals = before ++ p :: after →
        before.foldlM (State.processProposal env router time) s = .ok s₁ →
        VisitSafe env router time s₁ p := by
  unfold State.processProposals
  rw [foldlM_returns_iff]
  simp only [processProposal_returns_iff]

def paramEnv : Env (Option Json) where
  getSubspace := fun name => if name = "auth" then some fun r _ => r else none
  getAccount := fun _ a => if a = [1] then some a else none
  getBalance := fun _ _ _ => 10
  getSupply := fun _ _ => 20
  balance_nonneg := fun _ _ _ => Int.natCast_nonneg 10
  validateBasic := fun _ => .ok ()
  proposalRoute := fun _ => "gov"

def paramRouter : Router (Option Json) :=
  fun route => if route = "gov" then some fun s _ => (.ok (), s) else none

def unknownVoterGenesis : GenesisState where
  nextProposalID := 2
  committees := [{ sampleCommittee [[1]] with kind := .token (decPrecision / 2) "hard" }]
  proposals := [⟨some (.text "a" "b"), 1, 1, 100⟩]
  votes := [⟨1, [2], .yes⟩]

/-- A record is proposed for a parameter whose attribute "sig_limit" may change. -/
def limitGenesis : GenesisState where
  nextProposalID := 2
  committees := [{ sampleCommittee [[1]] with permissions :=
    [.paramsChange [⟨"auth", "Limits", ["sig_limit"], []⟩]] }]
  proposals := [⟨some
    (.parameterChange "a" "b" [⟨"auth", "Limits", some (.obj [("sig_limit", .num 7)])⟩]), 1, 1,
      100⟩]
  votes := [⟨1, [1], .yes⟩]

/-- The first block panics after an accepted genesis: by a vote, and by a parameter
with a scalar value or with none. -/
theorem begin_blocker_halts :
    (∃ s, initGenesis paramEnv none unknownVoterGenesis = .ok s ∧
      ¬ ∃ s', s.processProposals paramEnv paramRouter 0 = .ok s') ∧
    ∀ r ∈ [some (Json.num 256), none], ∃ s, initGenesis paramEnv r limitGenesis = .ok s ∧
      ¬ ∃ s', s.processProposals paramEnv paramRouter 0 = .ok s' := by
  constructor
  · exact ⟨_, eq_ok_orElseKeep (by decide +kernel) (emptyState none), by decide +kernel⟩
  · intro r hr
    rcases List.mem_pair.mp hr with rfl | rfl
    · exact ⟨_, eq_ok_orElseKeep (by decide +kernel) (emptyState none), by decide +kernel⟩
    · exact ⟨_, eq_ok_orElseKeep (by decide +kernel) (emptyState none), by decide +kernel⟩

end ZgChain.Committees
