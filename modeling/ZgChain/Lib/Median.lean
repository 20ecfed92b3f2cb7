import ZgChain.Lib.Result

/-!
# Middle elements of a list

The two middle elements of a list in ascending order; they are one element if the
list has an odd length. They depend on the elements and not on their order, they grow
with the elements, and they are between any two bounds that most elements are between.
-/

namespace ZgChain

variable {α : Type} [LinearOrder α]

def ascending (l : List α) : List α := l.insertionSort (· ≤ ·)

theorem ascending_perm (l : List α) : (ascending l).Perm l := List.perm_insertionSort _ l

theorem length_ascending (l : List α) : (ascending l).length = l.length :=
  (ascending_perm l).length_eq

theorem ascending_of_perm {l l' : List α} (h : l.Perm l') : ascending l = ascending l' := by
  have hperm : (ascending l).Perm (ascending l') :=
    (ascending_perm l).trans (h.trans (ascending_perm l').symm)
  refine List.Perm.eq_of_pairwise ?_ (List.pairwise_insertionSort _ l)
    (List.pairwise_insertionSort _ l') hperm
  intro a b _ _ hab hba
  exact le_antisymm hab hba

def lowerMiddle (l : List α) : Option α := (ascending l)[(l.length - 1) / 2]?

def upperMiddle (l : List α) : Option α := (ascending l)[l.length / 2]?

section
variable {l l' : List α} (h : l.Perm l')
include h

theorem lowerMiddle_of_perm : lowerMiddle l = lowerMiddle l' := by
  rw [lowerMiddle, lowerMiddle, ascending_of_perm h, h.length_eq]

theorem upperMiddle_of_perm : upperMiddle l = upperMiddle l' := by
  rw [upperMiddle, upperMiddle, ascending_of_perm h, h.length_eq]

end

theorem exists_middles {l : List α} (h : l ≠ []) :
    ∃ a b, lowerMiddle l = some a ∧ upperMiddle l = some b := by
  have hpos := List.length_pos_iff.mpr h
  have hlow : (l.length - 1) / 2 < (ascending l).length := by
    rw [length_ascending]
    omega
  have hup : l.length / 2 < (ascending l).length := by
    rw [length_ascending]
    omega
  exact ⟨_, _, List.getElem?_eq_getElem hlow, List.getElem?_eq_getElem hup⟩

/-! ## Counting

How many elements have a property that passes to smaller elements says which places in
ascending order have it.
-/

section
variable {p : α → Bool}

theorem sorted_getElem?_iff (hp : ∀ a b, a ≤ b → p b = true → p a = true) {l : List α}
    (hl : l.Pairwise (· ≤ ·))
    {k : Nat} {y : α} (hy : l[k]? = some y) : p y = true ↔ k < l.countP p := by
  induction l generalizing k with
  | nil => simp at hy
  | cons a l ih =>
    obtain ⟨ha, hl⟩ := List.pairwise_cons.mp hl
    by_cases hpa : p a = true
    · rw [List.countP_cons_of_pos hpa]
      cases k with
      | zero =>
        rw [List.getElem?_cons_zero, Option.some.injEq] at hy
        simp [← hy, hpa]
      | succ k => rw [ih hl hy, Nat.succ_lt_succ_iff]
    · -- no element after `a` has the property either
      have hnone : ∀ b ∈ a :: l, ¬ p b = true := by
        intro b hb hpb
        rcases List.mem_cons.mp hb with rfl | hb
        · exact hpa hpb
        · exact hpa (hp a b (ha b hb) hpb)
      rw [List.countP_eq_zero.mpr hnone]
      simpa using hnone y (List.mem_of_getElem? hy)

theorem ascending_getElem?_iff (hp : ∀ a b, a ≤ b → p b = true → p a = true) {l : List α}
    {k : Nat} {y : α} (hy : (ascending l)[k]? = some y) : p y = true ↔ k < l.countP p := by
  rw [← (ascending_perm l).countP_eq]
  exact sorted_getElem?_iff hp (List.pairwise_insertionSort _ l) hy

end

/-- If every element grows, so does every place in ascending order. -/
theorem ascending_mono {l l' : List α} (h : List.Forall₂ (· ≤ ·) l l') {k : Nat} {y y' : α}
    (hy : (ascending l)[k]? = some y) (hy' : (ascending l')[k]? = some y') : y ≤ y' := by
  have hle : ∀ x a b : α, a ≤ b → decide (b ≤ x) = true → decide (a ≤ x) = true := by
    intro x a b hab hb
    rw [decide_eq_true_eq] at hb ⊢
    exact hab.trans hb
  have hcount : l'.countP (· ≤ y') ≤ l.countP (· ≤ y') := by
    clear hy hy'
    induction h with
    | nil => exact le_rfl
    | @cons a b l l' hab _ ih =>
      rw [List.countP_cons, List.countP_cons]
      refine Nat.add_le_add ih ?_
      by_cases hb : b ≤ y'
      · simp [hb, hab.trans hb]
      · simp [hb]
  have hk : k < l'.countP (· ≤ y') :=
    (ascending_getElem?_iff (hle y') hy').mp (decide_eq_true le_rfl)
  exact of_decide_eq_true ((ascending_getElem?_iff (hle y') hy).mpr (lt_of_lt_of_le hk hcount))

section
variable {p q : α → Bool} (hp : ∀ a b, a ≤ b → p a = true → p b = true)
  (hq : ∀ a b, a ≤ b → q b = true → q a = true)
  {l : List α} (h : l.length < 2 * l.countP fun x => p x && q x)
include hp hq h

/-- If most elements are in an interval, so are the places at and next to the middle. -/
theorem middle_of_majority {k : Nat} {y : α} (hy : (ascending l)[k]? = some y)
    (hlow : (l.length - 1) / 2 ≤ k) (hup : k ≤ l.length / 2) : p y = true ∧ q y = true := by
  have hnp : ∀ a b, a ≤ b → (! p b) = true → (! p a) = true := by
    intro a b hab hb
    rw [Bool.not_eq_true', Bool.eq_false_iff] at hb ⊢
    exact fun ha => hb (hp a b hab ha)
  have habove : (l.countP fun x => p x && q x) ≤ l.countP q :=
    List.countP_mono_left fun x _ hx => (Bool.and_eq_true_iff.mp hx).2
  have hbelow : (l.countP fun x => p x && q x) ≤ l.countP p :=
    List.countP_mono_left fun x _ hx => (Bool.and_eq_true_iff.mp hx).1
  have hall : l.length = l.countP p + l.countP fun x => ! p x := by
    simpa using List.length_eq_countP_add_countP p (l := l)
  have hnot : ¬ (! p y) = true := by
    rw [ascending_getElem?_iff hnp hy]
    omega
  refine ⟨by simpa using hnot, ?_⟩
  rw [ascending_getElem?_iff hq hy]
  omega

theorem lowerMiddle_of_majority {a : α} (ha : lowerMiddle l = some a) : p a = true ∧ q a = true :=
  middle_of_majority hp hq h ha le_rfl (by omega)

theorem upperMiddle_of_majority {b : α} (hb : upperMiddle l = some b) : p b = true ∧ q b = true :=
  middle_of_majority hp hq h hb (by omega) le_rfl

end

theorem middles_of_odd {l : List α} (h : l.length % 2 = 1) : lowerMiddle l = upperMiddle l := by
  have hi : (l.length - 1) / 2 = l.length / 2 := by omega
  rw [lowerMiddle, upperMiddle, hi]

end ZgChain
