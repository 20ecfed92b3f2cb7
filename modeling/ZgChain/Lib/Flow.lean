import Mathlib.Data.Int.Basic
import Mathlib.Tactic.Common

/-!
# Flows of money

A table gives every account a balance in every currency. A change of the table
flows from `P` to `Q` when only entries in `P` get smaller and only entries in `Q` get
larger. Flows compose, so that what a program may take from an account is known from its
parts.
-/

namespace ZgChain

/-- The change from `L` to `L'` takes only at `P` and gives only at `Q`. -/
structure Flow {α β : Type} (P Q : α → β → Prop) (L L' : α → β → Int) : Prop where
  loses : ∀ x d, L' x d < L x d → P x d
  gains : ∀ x d, L x d < L' x d → Q x d

namespace Flow

variable {α β : Type} {P P' Q Q' : α → β → Prop} {L L₁ L' : α → β → Int}

theorem refl (P Q : α → β → Prop) (L : α → β → Int) : Flow P Q L L where
  loses _ _ h := absurd h (Int.lt_irrefl _)
  gains _ _ h := absurd h (Int.lt_irrefl _)

theorem trans (h : Flow P Q L L₁) (h' : Flow P Q L₁ L') : Flow P Q L L' where
  loses x d hlt := by
    by_cases h₁ : L₁ x d < L x d
    · exact h.loses x d h₁
    · exact h'.loses x d (by omega)
  gains x d hlt := by
    by_cases h₁ : L x d < L₁ x d
    · exact h.gains x d h₁
    · exact h'.gains x d (by omega)

theorem mono (h : Flow P Q L L') (hP : ∀ x d, P x d → P' x d) (hQ : ∀ x d, Q x d → Q' x d) :
    Flow P' Q' L L' where
  loses x d hlt := hP x d (h.loses x d hlt)
  gains x d hlt := hQ x d (h.gains x d hlt)

theorem le (h : Flow P Q L L') {x : α} {d : β} (hx : ¬ P x d) : L x d ≤ L' x d :=
  Int.not_lt.mp fun hlt => hx (h.loses x d hlt)

theorem eq (h : Flow P Q L L') {x : α} {d : β} (hP : ¬ P x d) (hQ : ¬ Q x d) : L' x d = L x d := by
  have h₁ := h.le hP
  have h₂ : ¬ L x d < L' x d := fun hlt => hQ (h.gains x d hlt)
  omega

end Flow

end ZgChain
