import ZgChain.Committees.StoreSound

/-!
# A proposal is enacted as a whole or not at all

The trial run on a copy of the state decides: the run on the state itself ends the
same way. What is left outside of the trial is the permission check and the
content's own validation, so these can still panic, and so can the tallies around
an enactment.
-/

namespace ZgChain.Committees

variable {R : Type}

inductive Visit (env : Env R) (router : Router R) (s : State R) (p : Proposal) : State R → Prop
  | left : Visit env router s p s
  | closed : Visit env router s p (s.deleteProposalAndVotes p.id)
  | enacted (s' : State R) : State.Enacts env router s p s' →
  Visit env router s p (s'.deleteProposalAndVotes p.id)

inductive Visits (env : Env R) (router : Router R) : State R → List Proposal → State R → Prop
  | nil (s : State R) : Visits env router s [] s
  | cons {s s₁ s₂ : State R} {p : Proposal} {ps : List Proposal} :
      Visit env router s p s₁ → Visits env router s₁ ps s₂ → Visits env router s (p :: ps) s₂

/-- The places where a visit can panic: the tally that decides, the enactment, and
the tally when the proposal is closed. -/
def VisitPanics (env : Env R) (router : Router R) (s : State R) (p : Proposal) (e : Panic) : Prop :=
  (∃ com, s.getCommittee p.committeeID = some com ∧ s.getProposalResult env p.id com = .error e) ∨
  State.EnactPanics env s p e ∨
  ∃ s', (s' = s ∨ State.Enacts env router s p s') ∧ s'.getProposalTallyResponse env p.id = .error e

section
variable {env : Env R} {router : Router R} {s : State R}

theorem closeProposal_cases (env : Env R) (s : State R) (p : Proposal) :
    s.closeProposal env p = .ok (s.deleteProposalAndVotes p.id) ∨
      ∃ e, s.getProposalTallyResponse env p.id = .error e ∧ s.closeProposal env p = .error e := by
  unfold State.closeProposal
  cases s.getProposalTallyResponse env p.id with
  | ok t => exact Or.inl rfl
  | error e => exact Or.inr ⟨e, rfl, rfl⟩

theorem enactAndClose_cases (s : State R) (p : Proposal) :
    (∃ s', Visit env router s p s' ∧ s.enactAndClose env router p = .ok s') ∨
      ∃ e, VisitPanics env router s p e ∧ s.enactAndClose env router p = .error e := by
  unfold State.enactAndClose
  rcases State.attemptEnactProposal_cases env router s p with ⟨e, he, ha⟩ | ha | ⟨s', hs', ha⟩
  · rw [ha]
    exact Or.inr ⟨e, Or.inr (Or.inl he), rfl⟩
  · rw [ha]
    rcases closeProposal_cases env s p with hc | ⟨e, ht, hc⟩
    · exact Or.inl ⟨_, .closed, hc⟩
    · exact Or.inr ⟨e, Or.inr (Or.inr ⟨s, Or.inl rfl, ht⟩), hc⟩
  · rw [ha]
    rcases closeProposal_cases env s' p with hc | ⟨e, ht, hc⟩
    · exact Or.inl ⟨_, .enacted s' hs', hc⟩
    · exact Or.inr ⟨e, Or.inr (Or.inr ⟨s', Or.inr hs', ht⟩), hc⟩

theorem processProposal_cases (time : Time) (s : State R) (p : Proposal) :
    (∃ s', Visit env router s p s' ∧ State.processProposal env router time s p = .ok s') ∨
      ∃ e, VisitPanics env router s p e ∧ State.processProposal env router time s p = .error e := by
  have hclose : (∃ s', Visit env router s p s' ∧ s.closeProposal env p = .ok s') ∨
      ∃ e, VisitPanics env router s p e ∧ s.closeProposal env p = .error e := by
    rcases closeProposal_cases env s p with hc | ⟨e, ht, hc⟩
    · exact Or.inl ⟨_, .closed, hc⟩
    · exact Or.inr ⟨e, Or.inr (Or.inr ⟨s, Or.inl rfl, ht⟩), hc⟩
  unfold State.processProposal
  cases hcom : s.getCommittee p.committeeID with
  | none => exact hclose
  | some com =>
    cases hres : s.getProposalResult env p.id com with
    | error e =>
      simp only [hres, error_bind]
      split
      · split
        · exact Or.inr ⟨e, Or.inl ⟨com, hcom, hres⟩, rfl⟩
        · exact Or.inl ⟨s, .left, rfl⟩
      · exact Or.inr ⟨e, Or.inl ⟨com, hcom, hres⟩, rfl⟩
    | ok passed =>
      simp only [hres, ok_bind]
      split
      · split
        · split
          · exact enactAndClose_cases s p
          · exact Or.inl ⟨s, .left, rfl⟩
        · exact Or.inl ⟨s, .left, rfl⟩
      · split
        · exact enactAndClose_cases s p
        · exact hclose

theorem visits_of_foldlM {time : Time} {ps : List Proposal} {s' : State R}
    (h : ps.foldlM (State.processProposal env router time) s = .ok s') :
    Visits env router s ps s' := by
  induction ps generalizing s with
  | nil =>
    cases h
    exact .nil _
  | cons p ps ih =>
    rw [List.foldlM_cons] at h
    obtain ⟨s₁, hp, h⟩ := (bind_eq_ok _ _ _).mp h
    rcases processProposal_cases time s p with ⟨s₂, hv, he⟩ | ⟨e, _, he⟩
    · cases he.symm.trans hp
      exact .cons hv (ih h)
    · cases he.symm.trans hp

theorem processProposals_cases (time : Time) (s : State R) :
    (∃ s', s.processProposals env router time = .ok s' ∧ Visits env router s s.getProposals s') ∨
      ∃ e before p after s₁, s.processProposals env router time = .error e ∧
        s.getProposals = before ++ p :: after ∧ Visits env router s before s₁ ∧
        VisitPanics env router s₁ p e := by
  cases h : s.processProposals env router time with
  | ok s' => exact Or.inl ⟨s', rfl, visits_of_foldlM h⟩
  | error e =>
    obtain ⟨before, p, after, s₁, hps, hb, hp⟩ := (foldlM_eq_error _ s).mp h
    refine Or.inr ⟨e, before, p, after, s₁, rfl, hps, visits_of_foldlM hb, ?_⟩
    rcases processProposal_cases time s₁ p with ⟨s₂, _, he⟩ | ⟨e', hv, he⟩
    · cases he.symm.trans hp
    · cases he.symm.trans hp
      exact hv

end

theorem enactment_all_or_nothing (env : Env R) (router : Router R) (s : State R) (p : Proposal)
    (hperm : ∀ com, s.getCommittee p.committeeID = some com →
      ∃ b, com.hasPermissionsFor env s.rest p.content = .ok b)
    (hbasic : ∀ c e, p.content = some c → c.validateBasic env ≠ .error (.panic e)) :
    (s.attemptEnactProposal env router p = (.ok .invalid, s) ∨
      ∃ s', s.attemptEnactProposal env router p = (.ok .passed, s') ∧
        State.Enacts env router s p s') ∧
    ∀ time s₀, (∃ s', s₀.processProposals env router time = .ok s' ∧
      Visits env router s₀ s₀.getProposals s') ∨
      ∃ e before p after s₁, s₀.processProposals env router time = .error e ∧
        s₀.getProposals = before ++ p :: after ∧ Visits env router s₀ before s₁ ∧
        VisitPanics env router s₁ p e := by
  refine ⟨?_, processProposals_cases⟩
  rcases State.attemptEnactProposal_cases env router s p
    with ⟨e, ⟨com, hcom, he⟩, _⟩ | ha | ⟨s', hs', ha⟩
  · rcases he with he | ⟨_, c, hc, he⟩
    · obtain ⟨b, hb⟩ := hperm com hcom
      cases he.symm.trans hb
    · exact absurd he (hbasic c e hc)
  · exact Or.inl ha
  · exact Or.inr ⟨s', ha, hs'⟩

def sampleState : State Unit := (emptyState ()).setCommittee (sampleCommittee [[1], [2]])

def deletion : Proposal := ⟨some (.committeeDelete "a" "b" 1), 1, 1, 0⟩

theorem enactment_all_or_nothing_delete :
    ∃ s', sampleState.attemptEnactProposal sampleEnv sampleRouter deletion = (.ok .passed, s') ∧
      State.Enacts sampleEnv sampleRouter sampleState deletion s' := by
  have hpassed : (sampleState.attemptEnactProposal sampleEnv sampleRouter deletion).1 =
      .ok .passed := by
    decide +kernel
  have h := (enactment_all_or_nothing sampleEnv sampleRouter sampleState deletion ?_ ?_).1
  · refine h.resolve_left fun hinvalid => ?_
    rw [hinvalid] at hpassed
    cases hpassed
  · intro com hcom
    cases hcom
    exact ⟨true, rfl⟩
  · intro c e hc he
    cases hc
    have hok : (PubProposal.committeeDelete "a" "b" 1).validateBasic sampleEnv = .ok () := by
      decide +kernel
    cases hok.symm.trans he

/-- A change of a committee whose committee is absent is allowed, and panics. -/
theorem malformed_change_panics :
    let p : Proposal := ⟨some (.committeeChange "a" "b" .malformed), 1, 1, 0⟩
    (∃ com, sampleState.getCommittee p.committeeID = some com ∧
      com.hasPermissionsFor sampleEnv sampleState.rest p.content = .ok true) ∧
    (sampleState.attemptEnactProposal sampleEnv sampleRouter p).1 = .error .nilPointer := by
  exact ⟨⟨sampleCommittee [[1], [2]], by decide +kernel, by decide +kernel⟩, by decide +kernel⟩

end ZgChain.Committees
