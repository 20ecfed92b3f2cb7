import Mathlib

/-!
# Fallible computations

`Except` is the result of code that returns an error. A chain of checks is
read back one check at a time: a bind succeeds when both parts do, and
`rejectIf` succeeds exactly when its condition is false.
-/

namespace ZgChain

section
variable {ε α β : Type}

def rejectIf (c : Prop) [Decidable c] (e : ε) : Except ε Unit := if c then .error e else .ok ()

def orReject (o : Option α) (e : ε) : Except ε α :=
  match o with
  | some a => .ok a
  | none => .error e

@[simp] theorem bind_eq_ok (x : Except ε α) (f : α → Except ε β) (b : β) :
    (x >>= f) = .ok b ↔ ∃ a, x = .ok a ∧ f a = .ok b := by
  cases x <;> simp [bind, Except.bind]

theorem map_eq_ok {f : α → β} {x : Except ε α} {y : β} :
    f <$> x = .ok y ↔ ∃ a, x = .ok a ∧ f a = y := by
  cases x with
  | ok a => simp [Functor.map, Except.map]
  | error e => simp [Functor.map, Except.map]

@[simp] theorem ok_bind (a : α) (f : α → Except ε β) : (Except.ok a >>= f) = f a := rfl

@[simp] theorem error_bind (e : ε) (f : α → Except ε β) : (Except.error e >>= f) = .error e := rfl

@[simp] theorem pure_eq_ok (a b : α) : (pure a : Except ε α) = .ok b ↔ a = b := by
  simp [pure, Except.pure]

@[simp] theorem throw_ne_ok (e : ε) (a : α) : (throw e : Except ε α) ≠ .ok a := by
  simp [throw, throwThe, MonadExceptOf.throw]

@[simp] theorem rejectIf_eq_ok (c : Prop) [Decidable c] (e : ε) (u : Unit) :
    rejectIf c e = .ok u ↔ ¬ c := by
  unfold rejectIf; split <;> simp [*]

theorem rejectIf_neg {c : Prop} [Decidable c] (h : ¬ c) (e : ε) : rejectIf c e = .ok () := by
  simp [rejectIf, h]

@[simp] theorem mapError_eq_ok {ε' : Type} (f : ε → ε') (x : Except ε α) (a : α) :
    x.mapError f = .ok a ↔ x = .ok a := by
  cases x <;> simp [Except.mapError]

@[simp] theorem orReject_eq_ok (o : Option α) (e : ε) (a : α) :
    orReject o e = .ok a ↔ o = some a := by
  cases o <;> simp [orReject]

instance decidableSucceeds (x : Except ε α) : Decidable (∃ a, x = .ok a) :=
  match x with
  | .ok a => isTrue ⟨a, rfl⟩
  | .error _ => isFalse fun ⟨_, h⟩ => nomatch h

/-- A computation is evaluated once for all that is asked of its result. -/
instance decidableYields {P : α → Prop} [DecidablePred P] (x : Except ε α) :
    Decidable (∃ a, x = .ok a ∧ P a) :=
  match x with
  | .ok a => decidable_of_iff (P a) ⟨fun h => ⟨a, rfl, h⟩, fun ⟨_, h, ha⟩ => Except.ok.inj h ▸ ha⟩
  | .error _ => isFalse fun ⟨_, h, _⟩ => nomatch h

instance decidableFailsWith [DecidableEq ε] (x : Except ε α) (e : ε) : Decidable (x = .error e) :=
  match x with
  | .ok _ => isFalse fun h => nomatch h
  | .error e' => decidable_of_iff (e' = e) (by rw [Except.error.injEq])

/-- The state after a call that may fail: a failed call leaves it as it was. -/
def orElseKeep (s : α) (x : Except ε α) : α :=
  match x with
  | .ok s' => s'
  | .error _ => s

theorem orElseKeep_cases (s : α) (x : Except ε α) :
    (∃ s', x = .ok s' ∧ orElseKeep s x = s') ∨ ((∃ e, x = .error e) ∧ orElseKeep s x = s) := by
  cases x with
  | ok s' => exact Or.inl ⟨s', rfl, rfl⟩
  | error e => exact Or.inr ⟨⟨e, rfl⟩, rfl⟩

theorem fails_iff {x : Except ε α} : (∃ e, x = .error e) ↔ ¬ ∃ a, x = .ok a := by
  cases x with
  | ok a => simp
  | error e => simp

theorem eq_ok_orElseKeep {x : Except ε α} (h : ∃ s', x = .ok s') (s : α) :
    x = .ok (orElseKeep s x) := by
  obtain ⟨s', rfl⟩ := h
  rfl

/-- What holds of the state and of every successful result holds after the call. -/
theorem orElseKeep_rule {P : α → Prop} {s : α} {x : Except ε α} (hs : P s)
    (hx : ∀ s', x = .ok s' → P s') :
    P (orElseKeep s x) := by
  cases x with
  | ok s' => exact hx s' rfl
  | error e => exact hs

theorem forM_eq_ok {f : α → Except ε Unit} {u : Unit} (xs : List α) :
    xs.forM f = .ok u ↔ ∀ x ∈ xs, f x = .ok () := by
  induction xs with
  | nil => simp
  | cons x xs ih =>
    have hc : (x :: xs).forM f = (f x >>= fun _ => xs.forM f) := rfl
    simp only [hc, bind_eq_ok, List.forall_mem_cons, ih]
    exact ⟨fun ⟨_, hx, h⟩ => ⟨hx, h⟩, fun ⟨hx, h⟩ => ⟨(), hx, h⟩⟩

theorem length_of_mapM {f : α → Except ε β} {xs : List α} {ys : List β} (h : xs.mapM f = .ok ys) :
    ys.length = xs.length := by
  induction xs generalizing ys with
  | nil =>
    rw [List.mapM_nil, pure_eq_ok] at h
    subst h
    rfl
  | cons x xs ih =>
    simp only [List.mapM_cons, bind_eq_ok, pure_eq_ok] at h
    obtain ⟨y, _, ys', hys, rfl⟩ := h
    rw [List.length_cons, List.length_cons, ih hys]

theorem mapM_eq_ok_of_map {f : α → Except ε β} {xs : List α} {ys : List β}
    (h : xs.map f = ys.map .ok) :
    xs.mapM f = .ok ys := by
  induction xs generalizing ys with
  | nil =>
    cases ys with
    | nil => rfl
    | cons y ys => cases h
  | cons x xs ih =>
    cases ys with
    | nil => cases h
    | cons y ys =>
      rw [List.map_cons, List.map_cons, List.cons.injEq] at h
      rw [List.mapM_cons, h.1, ih h.2]
      rfl

theorem nodup_fresh_cons {κ : Type} {key : α → κ} {x : α} {xs : List α} {seen : List κ} :
    ((x :: xs).map key).Nodup ∧ (∀ y ∈ x :: xs, key y ∉ seen) ↔
      key x ∉ seen ∧ (xs.map key).Nodup ∧ ∀ y ∈ xs, key y ∉ key x :: seen := by
  rw [List.map_cons, List.nodup_cons, List.forall_mem_cons]
  constructor
  · intro ⟨⟨hx, hn⟩, hs, hxs⟩
    refine ⟨hs, hn, fun y hy => List.not_mem_cons_of_ne_of_not_mem (fun e => ?_) (hxs y hy)⟩
    exact hx (e ▸ List.mem_map_of_mem hy)
  · intro ⟨hs, hn, hxs⟩
    refine ⟨⟨fun hx => ?_, hn⟩, hs, fun y hy => fun h => hxs y hy (List.mem_cons_of_mem _ h)⟩
    obtain ⟨y, hy, e⟩ := List.mem_map.mp hx
    exact hxs y hy (by rw [e]; exact List.mem_cons_self)

/-- A fold whose steps succeed under conditions that no step changes. -/
theorem foldlM_eq_ok {f : α → β → Except ε α} {g : α → β → α} {Ok : α → β → Prop}
    (hf : ∀ s x s', f s x = .ok s' ↔ Ok s x ∧ g s x = s') (hOk : ∀ s x y, Ok (g s x) y ↔ Ok s y)
    (xs : List β) (s s' : α) :
    xs.foldlM f s = .ok s' ↔ (∀ x ∈ xs, Ok s x) ∧ xs.foldl g s = s' := by
  induction xs generalizing s with
  | nil => simp
  | cons x xs ih =>
    simp only [List.foldlM_cons, bind_eq_ok, hf, ih, List.foldl_cons, List.forall_mem_cons]
    constructor
    · intro ⟨s₁, ⟨hx, e⟩, hxs, h⟩
      subst e
      exact ⟨⟨hx, fun y hy => (hOk s x y).mp (hxs y hy)⟩, h⟩
    · intro ⟨⟨hx, hxs⟩, h⟩
      exact ⟨_, ⟨hx, rfl⟩, fun y hy => (hOk s x y).mpr (hxs y hy), h⟩

/-- A fold whose steps return under conditions on the elements alone. -/
theorem foldlM_returns_iff_forall {f : α → β → Except ε α} {Ok : β → Prop}
    (hf : ∀ s x, (∃ s', f s x = .ok s') ↔ Ok x)
    (xs : List β) (s : α) : (∃ s', xs.foldlM f s = .ok s') ↔ ∀ x ∈ xs, Ok x := by
  induction xs generalizing s with
  | nil => simp [pure, Except.pure]
  | cons x xs ih =>
    simp only [List.foldlM_cons, bind_eq_ok, List.forall_mem_cons]
    constructor
    · intro ⟨s', s₁, hx, hxs⟩
      exact ⟨(hf s x).mp ⟨s₁, hx⟩, (ih s₁).mp ⟨s', hxs⟩⟩
    · intro ⟨hx, hxs⟩
      obtain ⟨s₁, hx⟩ := (hf s x).mpr hx
      obtain ⟨s', hxs⟩ := (ih s₁).mpr hxs
      exact ⟨s', s₁, hx, hxs⟩

/-- A fold fails at one element, in the state the elements before it lead to. -/
theorem foldlM_eq_error {f : α → β → Except ε α} {e : ε} (xs : List β) (s : α) :
    xs.foldlM f s = .error e ↔
      ∃ before x after s₁, xs = before ++ x :: after ∧ before.foldlM f s = .ok s₁ ∧
        f s₁ x = .error e := by
  constructor
  · intro h
    induction xs generalizing s with
    | nil => cases h
    | cons x xs ih =>
      rw [List.foldlM_cons] at h
      cases hx : f s x with
      | error e' =>
        rw [hx, error_bind] at h
        exact ⟨[], x, xs, s, rfl, rfl, hx.trans h⟩
      | ok s' =>
        rw [hx, ok_bind] at h
        obtain ⟨before, y, after, s₁, rfl, hb, hy⟩ := ih s' h
        refine ⟨x :: before, y, after, s₁, rfl, ?_, hy⟩
        rw [List.foldlM_cons, hx, ok_bind, hb]
  · intro ⟨before, x, after, s₁, hxs, hb, hx⟩
    rw [hxs, List.foldlM_append, hb, ok_bind, List.foldlM_cons, hx, error_bind]

theorem foldlM_returns_iff {f : α → β → Except ε α} (xs : List β) (s : α) :
    (∃ s', xs.foldlM f s = .ok s') ↔ ∀ before x after s₁, xs = before ++ x :: after →
      before.foldlM f s = .ok s₁ → ∃ s₂, f s₁ x = .ok s₂ := by
  constructor
  · intro ⟨s', h⟩ before x after s₁ hxs hb
    rw [hxs, List.foldlM_append, hb, ok_bind, List.foldlM_cons, bind_eq_ok] at h
    obtain ⟨s₂, hx, _⟩ := h
    exact ⟨s₂, hx⟩
  · intro h
    cases hs : xs.foldlM f s with
    | ok s' => exact ⟨s', rfl⟩
    | error e =>
      obtain ⟨before, x, after, s₁, hxs, hb, hx⟩ := (foldlM_eq_error xs s).mp hs
      obtain ⟨s₂, hx'⟩ := h before x after s₁ hxs hb
      rw [hx] at hx'
      cases hx'

/-- A search returns if each test it makes returns; it makes those that no test
before has settled. -/
theorem anyM_returns_iff {p : α → Except ε Bool} (xs : List α) :
    (∃ b, xs.anyM p = .ok b) ↔ ∀ before x after, xs = before ++ x :: after →
      (∀ y ∈ before, p y = .ok false) → ∃ b, p x = .ok b := by
  induction xs with
  | nil => simp [List.anyM, pure, Except.pure]
  | cons a xs ih =>
    have hstep : (a :: xs).anyM p = (p a >>= fun b => if b then pure true else xs.anyM p) := by
      rw [List.anyM_cons]
    constructor
    · intro ⟨b, h⟩ before x after hxs hb
      rw [hstep, bind_eq_ok] at h
      obtain ⟨b', ha, h⟩ := h
      cases before with
      | nil =>
        cases hxs
        exact ⟨b', ha⟩
      | cons y before =>
        cases hxs
        rw [hb a (by simp)] at ha
        cases ha
        exact ih.mp ⟨b, h⟩ before x after rfl fun y hy => hb y (by simp [hy])
    · intro h
      obtain ⟨b, ha⟩ := h [] a xs rfl (by simp)
      rw [hstep, ha, ok_bind]
      cases b with
      | true => exact ⟨true, rfl⟩
      | false =>
        refine ih.mpr fun before x after hxs hb => h (a :: before) x after (by rw [hxs]; rfl)
          fun y hy => ?_
        rcases List.mem_cons.mp hy with rfl | hy
        · exact ha
        · exact hb y hy

theorem map_not_eq_ok (x : Except ε Bool) (b : Bool) :
    ((fun b => !b) <$> x) = .ok b ↔ x = .ok (!b) := by
  cases x with
  | error e => simp [Functor.map, Except.map]
  | ok c => cases b <;> cases c <;> simp [Functor.map, Except.map]

theorem allM_returns_iff {p : α → Except ε Bool} (xs : List α) :
    (∃ b, xs.allM p = .ok b) ↔ ∀ before x after, xs = before ++ x :: after →
      (∀ y ∈ before, p y = .ok true) → ∃ b, p x = .ok b := by
  have hnot : ∀ x : Except ε Bool, (∃ b, ((fun b => !b) <$> x) = .ok b) ↔ ∃ b, x = .ok b := by
    intro x
    simp only [map_not_eq_ok]
    exact ⟨fun ⟨b, h⟩ => ⟨_, h⟩, fun ⟨b, h⟩ => ⟨!b, by rw [h, Bool.not_not]⟩⟩
  rw [List.allM_eq_not_anyM_not, hnot, anyM_returns_iff]
  simp only [hnot]
  simp only [map_not_eq_ok, Bool.not_false]

end

/-! ## Runs of a total step function -/

section
variable {S A : Type} (step : S → A → S)

def runSteps (s : S) (as : List A) : S := as.foldl step s

@[simp] theorem runSteps_nil (s : S) : runSteps step s [] = s := rfl

@[simp] theorem runSteps_cons (s : S) (a : A) (as : List A) :
    runSteps step s (a :: as) = runSteps step (step s a) as := rfl

theorem runSteps_append (s : S) (as bs : List A) :
    runSteps step s (as ++ bs) = runSteps step (runSteps step s as) bs := by
  simp [runSteps, List.foldl_append]

/-- What holds at first and is kept by every step of the run holds at its end. -/
theorem runSteps_inv {Inv : S → Prop} {P : A → Prop} (hstep : ∀ s a, P a → Inv s → Inv (step s a))
    {s : S} (h : Inv s) (as : List A) (hP : ∀ a ∈ as, P a) : Inv (runSteps step s as) := by
  induction as generalizing s with
  | nil => exact h
  | cons a as ih =>
    rw [runSteps_cons]
    exact ih (hstep s a (hP a (by simp)) h) fun b hb => hP b (by simp [hb])

end

end ZgChain
