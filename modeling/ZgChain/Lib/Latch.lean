import ZgChain.Lib.Result

/-!
# Checks that keep a bit

A check is evaluated on one state after another and keeps a bit between the evaluations: its
last verdict. A latched check never clears the bit, so its verdicts describe the states they
are made on only if no state in order is checked after one that was found broken.
-/

namespace ZgChain

variable {S ε : Type}

/-- The verdicts on some states in turn; an evaluation that fails leaves the bit as it was. -/
def verdicts (check : Bool → S → Except ε Bool) : Bool → List S → List (Except ε Bool)
  | _, [] => []
  | bit, s :: states => check bit s :: verdicts check (orElseKeep bit (check bit s)) states

def Describes (Broken : S → Prop) (states : List S) (vs : List (Except ε Bool)) : Prop :=
  List.Forall₂ (fun s v => ∀ b, v = .ok b → (b = true ↔ Broken s)) states vs

section
variable {check : Bool → S → Except ε Bool} {Broken : S → Prop}

theorem describes_of_fresh (h : ∀ bit s b, check bit s = .ok b → (b = true ↔ Broken s)) (bit : Bool)
    (states : List S) :
    Describes Broken states (verdicts check bit states) := by
  induction states generalizing bit with
  | nil => exact .nil
  | cons s states ih => exact .cons (h bit s) (ih _)

/-- A check that reports what it finds broken ever after. -/
def Latched (check : Bool → S → Except ε Bool) (Broken : S → Prop) : Prop :=
  ∀ bit s b, check bit s = .ok b → (b = true ↔ bit = true ∨ Broken s)

variable (h : Latched check Broken)
include h

theorem Latched.keeps (s : S) : orElseKeep true (check true s) = true := by
  cases hs : check true s with
  | error e => rfl
  | ok b => exact (h true s b hs).mpr (.inl rfl)

/-- A latched check describes its states exactly if every state it reports on after a broken
one is broken as well. -/
theorem Latched.describes_iff (bit : Bool) (states : List S) :
    Describes Broken states (verdicts check bit states) ↔
    (bit = true → ∀ t ∈ states, (∃ b, check true t = .ok b) → Broken t) ∧
      states.Pairwise fun s t => check false s = .ok true → (∃ b, check true t = .ok b) →
      Broken t := by
  induction states generalizing bit with
  | nil => simp [Describes, verdicts]
  | cons s states ih =>
    rw [Describes, verdicts, List.forall₂_cons, ← Describes, ih, List.pairwise_cons]
    cases bit with
    | true =>
      -- with the bit set every verdict is "broken"
      rw [h.keeps s, List.forall_mem_cons]
      constructor
      · rintro ⟨hs, hrest, hpairs⟩
        have hrest := hrest rfl
        refine ⟨fun _ => ⟨?_, hrest⟩, fun t ht _ => hrest t ht, hpairs⟩
        rintro ⟨b, hb⟩
        exact (hs b hb).mp ((h true s b hb).mpr (.inl rfl))
      · rintro ⟨hall, _, hpairs⟩
        obtain ⟨hs, hrest⟩ := hall rfl
        refine ⟨fun b hb => ?_, fun _ => hrest, hpairs⟩
        have hb' := (h true s b hb).mpr (.inl rfl)
        exact ⟨fun _ => hs ⟨b, hb⟩, fun _ => hb'⟩
    | false =>
      have hs : ∀ b, check false s = .ok b → (b = true ↔ Broken s) := by
        intro b hb
        rw [h false s b hb]
        simp
      have hbit : orElseKeep false (check false s) = true ↔ check false s = .ok true := by
        cases hcheck : check false s with
        | error e => simp [orElseKeep]
        | ok b => simp [orElseKeep]
      rw [hbit]
      constructor
      · rintro ⟨_, hrest, hpairs⟩
        exact ⟨fun hf => absurd hf (by decide), fun t ht hreport => hrest hreport t ht, hpairs⟩
      · rintro ⟨_, hrest, hpairs⟩
        exact ⟨hs, fun hreport t ht => hrest t ht hreport, hpairs⟩

end

end ZgChain
