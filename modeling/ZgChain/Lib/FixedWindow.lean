import Mathlib

/-!
# Fixed windows

A limiter counts what is spent since it last began a new window. What is spent may
not take the count above a limit, and a window begins at least a period after the
one before it. Within less than a period there is at most one new window, so at
most twice the limit is spent.
-/

namespace ZgChain.FixedWindow

inductive Tick where
  | reset (t : Int)
  | spend (t n : Int)
  deriving DecidableEq, Repr

def Tick.time : Tick → Int
  | .reset t => t
  | .spend t _ => t

def Tick.IsSpend : Tick → Prop
  | .reset _ => False
  | .spend _ _ => True

def spent : List Tick → Int
  | [] => 0
  | .reset _ :: l => spent l
  | .spend _ n :: l => n + spent l

def spentWithin (a b : Int) : List Tick → Int
  | [] => 0
  | .reset _ :: l => spentWithin a b l
  | .spend t n :: l => (if a ≤ t ∧ t ≤ b then n else 0) + spentWithin a b l

/-- The ticks of a limiter that has counted `w` in its window, begun at the time `r` if that
is known. -/
inductive Paced (limit period : Int) : Int → Option Int → List Tick → Prop where
  | nil (w : Int) (r : Option Int) : Paced limit period w r []
  | spend {w : Int} {r : Option Int} {t n : Int} {l : List Tick} (hn : 0 ≤ n)
      (hl : 0 < n → w + n ≤ limit)
      (h : Paced limit period (w + n) r l) : Paced limit period w r (.spend t n :: l)
  | reset {w : Int} {r : Option Int} {t : Int} {l : List Tick}
      (hr : ∀ r₀, r = some r₀ → r₀ + period ≤ t)
      (h : Paced limit period 0 (some t) l) : Paced limit period w r (.reset t :: l)

variable {limit period w a b : Int} {r : Option Int} {l : List Tick}

theorem Paced.after_reset {t : Int} (pre : List Tick)
    (h : Paced limit period w r (pre ++ .reset t :: l)) :
    Paced limit period 0 (some t) l := by
  induction pre generalizing w r with
  | nil =>
    cases h with
    | reset _ h => exact h
  | cons x pre ih =>
    cases h with
    | spend _ _ h => exact ih h
    | reset _ h => exact ih h

/-- Up to the next window, a period passes and no more than the limit is counted. -/
theorem Paced.next_reset {t₁ t₂ : Int} {mid post : List Tick}
    (h : Paced limit period w (some t₁) (mid ++ .reset t₂ :: post)) (hw : w ≤ limit)
    (hm : ∀ x ∈ mid, x.IsSpend) :
    t₁ + period ≤ t₂ ∧ w + spent mid ≤ limit := by
  induction mid generalizing w with
  | nil =>
    cases h with
    | reset hr _ => exact ⟨hr t₁ rfl, by simpa [spent] using hw⟩
  | cons x mid ih =>
    have hm' : ∀ y ∈ mid, y.IsSpend := fun y hy => hm y (List.mem_cons_of_mem _ hy)
    cases h with
    | reset _ _ => exact absurd (hm _ List.mem_cons_self) id
    | @spend _ _ t n _ hn hl h =>
      have hw' : w + n ≤ limit := by
        rcases lt_or_eq_of_le hn with hn | hn
        · exact hl hn
        · omega
      obtain ⟨hp, hs⟩ := ih h hw' hm'
      exact ⟨hp, by rw [spent]; omega⟩

theorem spentWithin_after (h : ∀ x ∈ l, b < x.time) : spentWithin a b l = 0 := by
  induction l with
  | nil => rfl
  | cons x l ih =>
    have hl := ih fun y hy => h y (List.mem_cons_of_mem _ hy)
    have hx := h x List.mem_cons_self
    cases x with
    | reset t => exact hl
    | spend t n =>
      change b < t at hx
      rw [spentWithin, hl, if_neg (by omega), add_zero]

theorem Paced.within_window {t₁ : Int} (h : Paced limit period w (some t₁) l) (hw : w ≤ limit)
    (hs : l.Pairwise fun x y => x.time ≤ y.time) (hb : b < t₁ + period) :
    w + spentWithin a b l ≤ limit := by
  induction l generalizing w with
  | nil => simpa [spentWithin] using hw
  | cons x l ih =>
    rw [List.pairwise_cons] at hs
    cases h with
    | @spend _ _ t n _ hn hl h =>
      have hw' : w + n ≤ limit := by
        rcases lt_or_eq_of_le hn with hn | hn
        · exact hl hn
        · omega
      have hr := ih h hw' hs.2
      rw [spentWithin]
      split <;> omega
    | @reset _ _ t _ hr h =>
      have ht := hr t₁ rfl
      have hz : spentWithin a b l = 0 := spentWithin_after fun y hy => by
        have := hs.1 y hy
        change t ≤ y.time at this
        omega
      rw [spentWithin, hz]
      omega

/-- From the time `a` on: what is left of the first window, and one more. -/
theorem Paced.within_from (h : Paced limit period w r l) (hl : 0 ≤ limit)
    (hs : l.Pairwise fun x y => x.time ≤ y.time) (ha : ∀ x ∈ l, a ≤ x.time) (hab : b - a < period) :
    spentWithin a b l ≤ max 0 (limit - w) + limit := by
  induction l generalizing w r with
  | nil =>
    rw [spentWithin]
    omega
  | cons x l ih =>
    have hx := ha x List.mem_cons_self
    have ha' : ∀ y ∈ l, a ≤ y.time := fun y hy => ha y (List.mem_cons_of_mem _ hy)
    rw [List.pairwise_cons] at hs
    cases h with
    | @spend _ _ t n _ hn hlim h =>
      have hr := ih h hs.2 ha'
      rw [spentWithin]
      rcases lt_or_eq_of_le hn with hn | hn
      · have := hlim hn
        split <;> omega
      · subst hn
        rw [ite_self, zero_add]
        rwa [add_zero] at hr
    | @reset _ _ t _ _ h =>
      change a ≤ t at hx
      have hr := h.within_window (a := a) (b := b) hl hs.2 (by omega)
      rw [spentWithin]
      omega

theorem Paced.within (h : Paced limit period w r l) (hl : 0 ≤ limit) (hw : 0 ≤ w)
    (hs : l.Pairwise fun x y => x.time ≤ y.time) (hab : b - a < period) :
    spentWithin a b l ≤ 2 * limit := by
  induction l generalizing w r with
  | nil =>
    rw [spentWithin]
    omega
  | cons x l ih =>
    have hs' := List.pairwise_cons.mp hs
    by_cases hx : a ≤ x.time
    · have ha : ∀ y ∈ x :: l, a ≤ y.time := by
        intro y hy
        rcases List.mem_cons.mp hy with rfl | hy
        · exact hx
        · exact le_trans hx (hs'.1 y hy)
      have hr := h.within_from hl hs ha hab
      omega
    · cases h with
      | @spend _ _ t n _ hn _ h =>
        have hr := ih h (by omega) hs'.2
        change ¬ a ≤ t at hx
        rw [spentWithin, if_neg (fun e => hx e.1), zero_add]
        exact hr
      | reset _ h => exact ih h le_rfl hs'.2

/-! ## Runs of a limiter -/

/-- A step of a limiter that has counted `w` before it and `w'` after it: it counts more, or
begins a window. `Inv` is what the steps after it rely on, given the time their window
began. -/
inductive Turn (limit period w w' : Int) (r : Option Int) (Inv : Option Int → Prop) :
    Tick → Prop where
  | spend {t n : Int} (hn : 0 ≤ n) (hl : 0 < n → w' ≤ limit) (hw : w' = w + n) (h : Inv r) :
    Turn limit period w w' r Inv (.spend t n)
  | reset {t : Int} (hr : ∀ r₀, r = some r₀ → r₀ + period ≤ t) (hw : w' = 0) (h : Inv (some t)) :
    Turn limit period w w' r Inv (.reset t)

section
variable {S O : Type} (step : S → O → S) (tick : S → O → Tick) (window : S → Int)
  (Inv : Option Int → S → List O → Prop)

/-- The run rule: if each step is one of a limiter and keeps the invariant, the ticks of a
run are paced. -/
theorem Paced.of_turns (ticks : S → List O → List Tick) (hnil : ∀ s, ticks s [] = [])
    (hcons : ∀ s op ops, ticks s (op :: ops) = tick s op :: ticks (step s op) ops)
    (hturn : ∀ (r : Option Int) (s : S) (op : O) (ops : List O), Inv r s (op :: ops) →
      Turn limit period (window s) (window (step s op)) r (fun r' => Inv r' (step s op) ops)
        (tick s op))
    {s : S} {ops : List O} (h : Inv r s ops) : Paced limit period (window s) r (ticks s ops) := by
  induction ops generalizing s r with
  | nil =>
    rw [hnil]
    exact .nil _ _
  | cons op ops ih =>
    have ht := hturn r s op ops h
    rw [hcons]
    generalize tick s op = x at ht ⊢
    cases ht with
    | spend hn hl hw h =>
      have hrest := ih h
      rw [hw] at hl hrest
      exact .spend hn hl hrest
    | reset hr hw h =>
      have hrest := ih h
      rw [hw] at hrest
      exact .reset hr hrest

end

end ZgChain.FixedWindow
