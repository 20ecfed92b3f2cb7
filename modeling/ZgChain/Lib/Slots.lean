import Mathlib.Algebra.Order.Group.Unbundled.Int
import Mathlib.Data.Int.ModEq
import Mathlib.Data.List.ReduceOption

/-!
# Slots

A table of optional entries, addressed by numbers modulo its length. An entry belongs to
one of the numbers in a window that is no longer than the table: then a number of the window
finds its own entry or none, and the number after a window that is shorter finds a free slot.
-/

namespace ZgChain.Slots

variable {α : Type} {t : List (Option α)} {a a' : α} {n lo hi : Nat} {R : Nat → α → Prop}

def get (t : List (Option α)) (n : Nat) : Option α := t[n % t.length]?.join

def put (t : List (Option α)) (n : Nat) (v : Option α) : List (Option α) := t.set (n % t.length) v

@[simp] theorem length_put (t : List (Option α)) (n : Nat) (v : Option α) :
    (put t n v).length = t.length := by
  simp [put]

theorem get_put (h : 0 < t.length) (n m : Nat) (v : Option α) :
    get (put t n v) m = if m % t.length = n % t.length then v else get t m := by
  have hlt : n % t.length < t.length := Nat.mod_lt _ h
  unfold get
  rw [length_put, put]
  split
  · rename_i e
    rw [e, List.getElem?_set_self hlt]
    rfl
  · rename_i e
    rw [List.getElem?_set_ne (Ne.symm e)]

theorem set_perm (t : List (Option α)) {i : Nat} (hi : i < t.length) (v : Option α) :
    ((t.set i v).reduceOption ++ t[i]?.join.toList).Perm (v.toList ++ t.reduceOption) := by
  induction t generalizing i with
  | nil => cases hi
  | cons x t ih =>
    cases i with
    | zero =>
      have hx : ((x :: t).reduceOption).Perm (x.toList ++ t.reduceOption) := by
        cases x with
        | none => exact List.Perm.refl _
        | some x => exact List.Perm.refl _
      have hv : ((v :: t).reduceOption).Perm (v.toList ++ t.reduceOption) := by
        cases v with
        | none => exact List.Perm.refl _
        | some v => exact List.Perm.refl _
      calc ((x :: t).set 0 v).reduceOption ++ x.toList
        _ |>.Perm ((v.toList ++ t.reduceOption) ++ x.toList) := hv.append_right _
        _ |>.Perm (v.toList ++ (x.toList ++ t.reduceOption)) := by
          rw [List.append_assoc]
          exact List.perm_append_comm.append_left _
        _ |>.Perm (v.toList ++ (x :: t).reduceOption) := hx.symm.append_left _
    | succ i =>
      have ih := ih (Nat.lt_of_succ_lt_succ hi)
      cases x with
      | none => exact ih
      | some x => exact (ih.cons x).trans List.perm_middle.symm

/-- What a slot had and what it gets make up for each other. -/
theorem put_perm (h : 0 < t.length) (n : Nat) (v : Option α) :
    ((put t n v).reduceOption ++ (get t n).toList).Perm (v.toList ++ t.reduceOption) :=
  set_perm t (Nat.mod_lt _ h) v

theorem length_lt_of_free (h : 0 < t.length) (hn : get t n = none) :
    t.reduceOption.length < t.length := by
  have hlt := Nat.mod_lt n h
  rw [get, List.getElem?_eq_getElem hlt] at hn
  exact List.reduceOption_length_lt_iff.mpr (hn ▸ List.getElem_mem hlt)

/-! ## Windows -/

/-- Every entry belongs to a number from `lo` to `hi`. -/
def Window (R : Nat → α → Prop) (lo hi : Nat) (t : List (Option α)) : Prop :=
  ∀ n a, get t n = some a → ∃ q, lo ≤ q ∧ q < hi ∧ q % t.length = n % t.length ∧ R q a

theorem Window.empty (R : Nat → α → Prop) (lo hi L : Nat) :
    Window R lo hi (List.replicate L none) := by
  intro n a h
  rw [get, List.getElem?_replicate] at h
  split at h
  · cases h
  · cases h

theorem eq_of_mod_eq {L q r : Nat} (hq : lo ≤ q) (hr : lo ≤ r) (hq' : q < lo + L) (hr' : r < lo + L)
    (h : q % L = r % L) : q = r := by
  have hdvd : (L : Int) ∣ r - q := Nat.modEq_iff_dvd.mp h
  have hzero : (r : Int) - q = 0 := Int.eq_zero_of_abs_lt_dvd hdvd (abs_lt.mpr ⟨by omega, by omega⟩)
  omega

/-- The first number after a window that does not fill the table finds a free slot. -/
theorem Window.free (h : Window R lo hi t) (hlo : lo ≤ hi) (hlen : hi - lo < t.length) :
    get t hi = none := by
  cases hg : get t hi with
  | none => rfl
  | some a =>
    obtain ⟨q, hq, hlt, hmod, _⟩ := h hi a hg
    have := eq_of_mod_eq hq hlo (by omega) (by omega) hmod
    omega

theorem Window.eq_nil (h : Window R lo hi t) (hle : hi ≤ lo) : t.reduceOption = [] := by
  refine List.eq_nil_iff_forall_not_mem.mpr fun a ha => ?_
  obtain ⟨i, hi, he⟩ := List.getElem_of_mem (List.reduceOption_mem_iff.mp ha)
  have hg : get t i = some a := by
    rw [get, Nat.mod_eq_of_lt hi, List.getElem?_eq_getElem hi, he]
    rfl
  obtain ⟨q, hq, hlt, _⟩ := h i a hg
  omega

theorem Window.mono {lo' hi' : Nat} {R' : Nat → α → Prop} (h : Window R lo hi t) (hlo : lo' ≤ lo)
    (hhi : hi ≤ hi') (hR : ∀ q a, R q a → R' q a) : Window R' lo' hi' t := by
  intro n a hg
  obtain ⟨q, hq, hlt, hmod, hr⟩ := h n a hg
  exact ⟨q, hlo.trans hq, hlt.trans_le hhi, hmod, hR q a hr⟩

section
variable (hlen : 0 < t.length)
include hlen

theorem Window.clear (h : Window R lo hi t) (n : Nat) : Window R lo hi (put t n none) := by
  intro m a hg
  rw [get_put hlen] at hg
  split at hg
  · cases hg
  · rw [length_put]
    exact h m a hg

/-- An entry may be replaced by one of the same number. -/
theorem Window.replace (h : Window R lo hi t) (hn : get t n = some a) (ha : ∀ q, R q a → R q a') :
    Window R lo hi (put t n (some a')) := by
  intro m b hg
  rw [get_put hlen] at hg
  rw [length_put]
  split at hg
  · rename_i e
    cases hg
    obtain ⟨q, hq, hlt, hmod, hr⟩ := h n a hn
    exact ⟨q, hq, hlt, hmod.trans e.symm, ha q hr⟩
  · exact h m b hg

theorem Window.push (h : Window R lo hi t) (hlo : lo ≤ hi) (ha : R hi a) :
    Window R lo (hi + 1) (put t hi (some a)) := by
  intro m b hg
  rw [get_put hlen] at hg
  rw [length_put]
  split at hg
  · rename_i e
    cases hg
    exact ⟨hi, hlo, Nat.lt_succ_self hi, e.symm, ha⟩
  · obtain ⟨q, hq, hlt, hmod, hr⟩ := h m b hg
    exact ⟨q, hq, hlt.trans (Nat.lt_succ_self hi), hmod, hr⟩

/-- The window moves up as its first numbers are cleared. -/
theorem Window.shift (h : Window R lo hi t) : Window R (lo + 1) hi (put t lo none) := by
  intro m b hg
  rw [get_put hlen] at hg
  rw [length_put]
  split at hg
  · cases hg
  · rename_i hne
    obtain ⟨q, hq, hlt, hmod, hr⟩ := h m b hg
    refine ⟨q, lt_of_le_of_ne hq fun e => hne ?_, hlt, hmod, hr⟩
    rw [e, hmod]

end

end ZgChain.Slots
