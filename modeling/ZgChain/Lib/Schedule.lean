import ZgChain.Lib.Result

/-!
# Schedules

A schedule is a start and a list of periods with their lengths; each period ends its
length after the one before it. A schedule is started anew at another time by leaving
out the periods that have ended and giving the first one that is left the length that
is left of it. That leaves every end after the new start where it was.
-/

namespace ZgChain

variable {α : Type}

def timeline : Int → List (Int × α) → List (Int × α)
  | _, [] => []
  | start, p :: ps => (start + p.1, p.2) :: timeline (start + p.1) ps

def duration (ps : List (Int × α)) : Int := (ps.map Prod.fst).sum

/-- The periods of the schedule that is started anew at `s`. -/
def restart (s : Int) : Int → List (Int × α) → List (Int × α)
  | _, [] => []
  | start, p :: ps => if s < start + p.1 then (start + p.1 - s, p.2) :: ps
    else restart s (start + p.1) ps

def pendingAt (f : α → Int) (start : Int) (ps : List (Int × α)) (t : Int) : Int :=
  ((timeline start ps).map fun e => if t < e.1 then f e.2 else 0).sum

def endedAt (f : α → Int) (start : Int) (ps : List (Int × α)) (t : Int) : Int :=
  ((timeline start ps).map fun e => if e.1 ≤ t then f e.2 else 0).sum

section
variable {s start t : Int} {ps qs : List (Int × α)}

@[simp] theorem duration_nil : duration ([] : List (Int × α)) = 0 := rfl

@[simp] theorem duration_cons (p : Int × α) : duration (p :: ps) = p.1 + duration ps := by
  simp [duration]

theorem duration_append : duration (ps ++ qs) = duration ps + duration qs := by
  simp [duration]

theorem duration_nonneg (h : ∀ p ∈ ps, 0 < p.1) : 0 ≤ duration ps := by
  refine List.sum_nonneg fun n hn => ?_
  obtain ⟨p, hp, rfl⟩ := List.mem_map.mp hn
  exact (h p hp).le

theorem endedAt_add_pendingAt (f : α → Int) (start t : Int) (ps : List (Int × α)) :
    endedAt f start ps t + pendingAt f start ps t = (ps.map fun p => f p.2).sum := by
  unfold endedAt pendingAt
  induction ps generalizing start with
  | nil => rfl
  | cons p ps ih =>
    have hrest := ih (start + p.1)
    simp only [timeline, List.map_cons, List.sum_cons]
    by_cases h : t < start + p.1
    · rw [if_pos h, if_neg (not_le.mpr h)]
      omega
    · rw [if_neg h, if_pos (not_lt.mp h)]
      omega

theorem pendingAt_le (f : α → Int) (hf : ∀ a, 0 ≤ f a) :
    pendingAt f start ps t ≤ (ps.map fun p => f p.2).sum := by
  have hended : 0 ≤ endedAt f start ps t := by
    refine List.sum_nonneg fun n hn => ?_
    obtain ⟨e, _, rfl⟩ := List.mem_map.mp hn
    by_cases h : e.1 ≤ t
    · rw [if_pos h]
      exact hf e.2
    · rw [if_neg h]
  rw [← endedAt_add_pendingAt f start t]
  exact le_add_of_nonneg_left hended

theorem timeline_bounds (h : ∀ p ∈ ps, 0 < p.1) {e : Int × α} (he : e ∈ timeline start ps) :
    start < e.1 := by
  induction ps generalizing start with
  | nil => cases he
  | cons p ps ih =>
    obtain ⟨hp, hps⟩ := List.forall_mem_cons.mp h
    cases he with
    | head => exact lt_add_of_pos_right start hp
    | tail _ he => exact lt_trans (lt_add_of_pos_right start hp) (ih hps he)

/-- The schedule that is started anew has the ends after the new start. -/
theorem timeline_restart (h : ∀ p ∈ ps, 0 < p.1) :
    timeline s (restart s start ps) = (timeline start ps).filter fun e => s < e.1 := by
  induction ps generalizing start with
  | nil => rfl
  | cons p ps ih =>
    obtain ⟨_, hps⟩ := List.forall_mem_cons.mp h
    by_cases hlt : s < start + p.1
    · have hlater : ∀ e ∈ timeline (start + p.1) ps, decide (s < e.1) = true := by
        intro e he
        exact decide_eq_true (lt_trans hlt (timeline_bounds hps he))
      have hend : s + (start + p.1 - s) = start + p.1 := by omega
      simp only [restart, timeline, if_pos hlt, hend]
      rw [List.filter_cons_of_pos (by simpa using hlt), List.filter_eq_self.mpr hlater]
    · simp only [restart, timeline, if_neg hlt]
      rw [ih hps, List.filter_cons_of_neg (by simpa using hlt)]

theorem pendingAt_restart (f : α → Int) (h : ∀ p ∈ ps, 0 < p.1) (ht : s ≤ t) :
    pendingAt f s (restart s start ps) t = pendingAt f start ps t := by
  unfold pendingAt
  rw [timeline_restart h]
  induction timeline start ps with
  | nil => rfl
  | cons e es ih =>
    by_cases hlt : s < e.1
    · rw [List.filter_cons_of_pos (by simpa using hlt), List.map_cons, List.map_cons, List.sum_cons,
        List.sum_cons, ih]
    · have hpast : ¬ t < e.1 := by omega
      rw [List.filter_cons_of_neg (by simpa using hlt), List.map_cons, List.sum_cons, if_neg hpast,
        zero_add, ih]

/-- What is left of the schedule at the new start is all that is pending then. -/
theorem sum_restart (f : α → Int) (h : ∀ p ∈ ps, 0 < p.1) :
    ((restart s start ps).map fun p => f p.2).sum = pendingAt f start ps s := by
  rw [← pendingAt_restart f h le_rfl, ← endedAt_add_pendingAt f s s]
  have hnone : endedAt f s (restart s start ps) s = 0 := by
    refine List.sum_eq_zero fun n hn => ?_
    obtain ⟨e, he, rfl⟩ := List.mem_map.mp hn
    rw [timeline_restart h] at he
    have hlt : s < e.1 := by simpa using (List.mem_filter.mp he).2
    rw [if_neg (not_le.mpr hlt)]
  rw [hnone, zero_add]

theorem restart_append : restart s start (ps ++ qs) =
    if restart s start ps = [] then restart s (start + duration ps) qs
      else restart s start ps ++ qs := by
  induction ps generalizing start with
  | nil => simp [restart]
  | cons p ps ih =>
    rw [List.cons_append, restart, restart]
    by_cases hlt : s < start + p.1
    · simp [hlt]
    · rw [if_neg hlt, if_neg hlt, ih, duration_cons, add_assoc]

/-- A schedule with an end after the new start keeps its last end. -/
theorem duration_restart (h : restart s start ps ≠ []) :
    s + duration (restart s start ps) = start + duration ps := by
  induction ps generalizing start with
  | nil => exact absurd rfl h
  | cons p ps ih =>
    rw [restart] at h ⊢
    by_cases hlt : s < start + p.1
    · rw [if_pos hlt, duration_cons, duration_cons]
      simp only
      omega
    · rw [if_neg hlt] at h ⊢
      rw [ih h, duration_cons, add_assoc]

theorem restart_of_le (h : ∀ p ∈ ps, 0 < p.1) (hle : start + duration ps ≤ s) :
    restart s start ps = [] := by
  induction ps generalizing start with
  | nil => rfl
  | cons p ps ih =>
    obtain ⟨_, hps⟩ := List.forall_mem_cons.mp h
    have hrest := duration_nonneg hps
    rw [duration_cons] at hle
    rw [restart, if_neg (by omega)]
    exact ih hps (by omega)

theorem restart_ne_nil (hne : ps ≠ []) (hlt : s < start + duration ps) :
    restart s start ps ≠ [] := by
  induction ps generalizing start with
  | nil => exact absurd rfl hne
  | cons p ps ih =>
    rw [duration_cons, ← add_assoc] at hlt
    rw [restart]
    by_cases hp : s < start + p.1
    · simp [hp]
    · rw [if_neg hp]
      refine ih ?_ hlt
      rintro rfl
      rw [duration_nil, add_zero] at hlt
      exact hp hlt

theorem head_restart (s start : Int) (ps : List (Int × α)) : (restart s start ps).head? =
    ((timeline start ps).find? fun e => s < e.1).map fun e => (e.1 - s, e.2) := by
  induction ps generalizing start with
  | nil => rfl
  | cons p ps ih =>
    rw [restart, timeline]
    by_cases hlt : s < start + p.1
    · rw [if_pos hlt, List.find?_cons_of_pos (by simpa using hlt)]
      rfl
    · rw [if_neg hlt, List.find?_cons_of_neg (by simpa using hlt), ih]

end

end ZgChain
