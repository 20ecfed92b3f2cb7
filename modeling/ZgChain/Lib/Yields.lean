import ZgChain.Lib.Result

/-!
# Computations with one possible error

Rules for computations that may fail with one error only, such as the overflow of an
arithmetic operation, and for loops of them. A loop whose steps commute has the same
outcome in every order.
-/

namespace ZgChain

variable {ε α β : Type} {e : ε}

/-- The computation fails with the error `e`, or its result has the property `Q`. -/
def YieldsOr (e : ε) (x : Except ε α) (Q : α → Prop) : Prop := x = .error e ∨ ∃ a, x = .ok a ∧ Q a

theorem YieldsOr.ok {a : α} {Q : α → Prop} (h : Q a) : YieldsOr e (.ok a) Q := .inr ⟨a, rfl, h⟩

theorem YieldsOr.bind {x : Except ε α} {f : α → Except ε β} {Q : α → Prop} {R : β → Prop}
    (hx : YieldsOr e x Q) (hf : ∀ a, Q a → YieldsOr e (f a) R) : YieldsOr e (x >>= f) R := by
  rcases hx with rfl | ⟨a, rfl, ha⟩
  · exact .inl rfl
  · exact hf a ha

theorem YieldsOr.mono {x : Except ε α} {Q R : α → Prop} (hx : YieldsOr e x Q) (h : ∀ a, Q a → R a) :
    YieldsOr e x R := by
  rcases hx with rfl | ⟨a, rfl, ha⟩
  · exact .inl rfl
  · exact .ok (h a ha)

theorem YieldsOr.eqn {x : Except ε α} {Q : α → Prop} (hx : YieldsOr e x Q) :
    YieldsOr e x fun a => x = .ok a ∧ Q a := by
  rcases hx with h | ⟨a, h, ha⟩
  · exact .inl h
  · exact .inr ⟨a, h, h, ha⟩

theorem YieldsOr.result {x : Except ε α} {Q : α → Prop} (hx : YieldsOr e x Q) (hne : x ≠ .error e) :
    ∃ a, x = .ok a ∧ Q a := hx.resolve_left hne

theorem yieldsOr_orReject (o : Option α) : YieldsOr e (orReject o e) fun a => o = some a := by
  cases o with
  | none => exact .inl rfl
  | some a => exact .ok rfl

/-- With one possible error, the results say everything about a computation. -/
theorem YieldsOr.eq_of_iff {x y : Except ε α} {Q R : α → Prop} (hx : YieldsOr e x Q)
    (hy : YieldsOr e y R) (h : ∀ a, x = .ok a ↔ y = .ok a) : x = y := by
  rcases hx with hx | ⟨a, hx, _⟩
  · rcases hy with hy | ⟨b, hy, _⟩
    · rw [hx, hy]
    · rw [(h b).mpr hy, hy]
  · rw [hx, (h a).mp hx]

/-- An invariant of a loop speaks about the elements that have been visited. -/
theorem YieldsOr.foldlM (Inv : List β → α → Prop) {f : α → β → Except ε α}
    (hstep : ∀ visited x s, Inv visited s → YieldsOr e (f s x) (Inv (visited ++ [x]))) (xs : List β)
    {s : α} (hs : Inv [] s) :
    YieldsOr e (xs.foldlM f s) (Inv xs) := by
  suffices h : ∀ (xs visited : List β) (s : α), Inv visited s →
      YieldsOr e (xs.foldlM f s) (Inv (visited ++ xs)) by
    simpa using h xs [] s hs
  intro xs
  induction xs with
  | nil =>
    intro visited s hs
    rw [List.append_nil]
    exact .ok hs
  | cons x xs ih =>
    intro visited s hs
    rw [List.foldlM_cons]
    refine (hstep visited x s hs).bind fun s₁ h₁ => ?_
    simpa using ih (visited ++ [x]) s₁ h₁

/-- Two steps may be exchanged wherever an invariant of the loop holds. -/
theorem foldlM_perm {Inv : α → Prop} {f : α → β → Except ε α}
    (hinv : ∀ s x s', Inv s → f s x = .ok s' → Inv s')
    (hcomm : ∀ s x y, Inv s → (f s x >>= fun s' => f s' y) = (f s y >>= fun s' => f s' x))
    {xs ys : List β} (h : xs.Perm ys) {s : α} (hs : Inv s) : xs.foldlM f s = ys.foldlM f s := by
  induction h generalizing s with
  | nil => rfl
  | cons x _ ih =>
    rw [List.foldlM_cons, List.foldlM_cons]
    cases hx : f s x with
    | error e => rfl
    | ok s' => exact ih (hinv s x s' hs hx)
  | swap x y xs =>
    simp only [List.foldlM_cons, ← bind_assoc, hcomm s x y hs]
  | trans _ _ ih₁ ih₂ => exact (ih₁ hs).trans (ih₂ hs)

end ZgChain
