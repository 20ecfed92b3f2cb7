import Mathlib

/-!
# Splitting texts

A text is split at a separator into the only nonempty list of pieces without the separator
that joins to the text.
-/

namespace ZgChain

namespace Split

variable {α : Type} [BEq α] [LawfulBEq α] {x : α}

theorem notMem_of_mem_splitOn (xs : List α) : ∀ l ∈ xs.splitOn x, x ∉ l := by
  induction xs with
  | nil => simp [List.splitOn]
  | cons y xs ih =>
    rw [List.splitOn, List.splitOnP_cons_eq_if_modifyHead, ← List.splitOn]
    split
    · intro l hl
      rcases List.mem_cons.mp hl with rfl | hl
      · exact List.not_mem_nil
      · exact ih l hl
    · rename_i hy
      obtain ⟨l₀, ls, hls⟩ := List.exists_cons_of_ne_nil (List.splitOn_ne_nil x xs)
      rw [hls, List.modifyHead_cons]
      rw [hls] at ih
      intro l hl
      rcases List.mem_cons.mp hl with rfl | hl
      · have hne : x ≠ y := fun e => hy (by simp [e])
        simpa [hne] using ih l₀ (by simp)
      · exact ih l (by simp [hl])

theorem splitOn_eq_iff {xs : List α} {ls : List (List α)} :
    xs.splitOn x = ls ↔ ls ≠ [] ∧ (∀ l ∈ ls, x ∉ l) ∧ [x].intercalate ls = xs := by
  constructor
  · intro h
    subst h
    exact ⟨List.splitOn_ne_nil x xs, notMem_of_mem_splitOn xs, List.intercalate_splitOn x⟩
  · intro h
    obtain ⟨hne, hfree, rfl⟩ := h
    exact List.splitOn_intercalate x hfree hne

end Split

def splitText (sep : Char) (s : String) : List String := (s.toList.splitOn sep).map String.ofList

def joinText (sep : Char) (ts : List String) : String :=
  String.ofList ([sep].intercalate (ts.map String.toList))

theorem splitText_eq_iff {sep : Char} {s : String} {ts : List String} :
    splitText sep s = ts ↔ ts ≠ [] ∧ (∀ t ∈ ts, sep ∉ t.toList) ∧ joinText sep ts = s := by
  have hmap : splitText sep s = ts ↔ s.toList.splitOn sep = ts.map String.toList := by
    constructor
    · intro h
      simp [← h, splitText, Function.comp_def]
    · intro h
      simp [splitText, h, Function.comp_def]
  have hjoin : joinText sep ts = s ↔ [sep].intercalate (ts.map String.toList) = s.toList := by
    constructor
    · intro h
      rw [← h, joinText, String.toList_ofList]
    · intro h
      rw [joinText, h, String.ofList_toList]
  rw [hmap, Split.splitOn_eq_iff, hjoin]
  simp

theorem mem_joinText {sep c : Char} {ts : List String} (hc : c ≠ sep) :
    c ∈ (joinText sep ts).toList ↔ ∃ t ∈ ts, c ∈ t.toList := by
  rw [joinText, String.toList_ofList]
  induction ts with
  | nil => simp [List.intercalate]
  | cons t ts ih =>
    cases ts with
    | nil => simp [List.intercalate]
    | cons t' ts =>
      rw [List.map_cons, List.map_cons, List.intercalate_cons_cons, ← List.map_cons,
        List.mem_append, List.mem_append, ih]
      simp [hc]

/-- Each piece but the last is followed by the separator. -/
theorem joinText_concat (sep : Char) (ts : List String) (t : String) :
    joinText sep (ts ++ [t]) = String.ofList (ts.flatMap fun u => u.toList ++ [sep]) ++ t := by
  have hlist : [sep].intercalate ((ts ++ [t]).map String.toList) =
      (ts.flatMap fun u => u.toList ++ [sep]) ++ t.toList := by
    induction ts with
    | nil => simp [List.intercalate]
    | cons u ts ih =>
      obtain ⟨v, vs, hv⟩ : ∃ v vs, (ts ++ [t]).map String.toList = v :: vs :=
        List.exists_cons_of_ne_nil (by simp)
      rw [List.cons_append, List.map_cons, hv, List.intercalate_cons_cons, ← hv, ih,
        List.flatMap_cons]
      simp
  rw [joinText, hlist, String.ofList_append, String.ofList_toList]

end ZgChain
