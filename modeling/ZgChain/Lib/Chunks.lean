import Mathlib.Data.List.Basic

/-!
# Chunks of a list

A list is cut into chunks of one size, from its front. A chunk of its last entries
takes in what the whole chunks leave over, and a list that is too short for one chunk
is repeated to fill it. Either way the entries are all there, in their order.
-/

namespace ZgChain

variable {α : Type} {size : Nat} {xs : List α}

def chunk (size : Nat) (xs : List α) (i : Nat) : List α := (xs.drop (i * size)).take size

def chunks (size count : Nat) (xs : List α) : List (List α) :=
  (List.range count).map (chunk size xs)

@[simp] theorem length_chunks (size count : Nat) (xs : List α) :
    (chunks size count xs).length = count := by
  rw [chunks, List.length_map, List.length_range]

theorem length_chunk {i : Nat} (h : (i + 1) * size ≤ xs.length) :
    (chunk size xs i).length = size := by
  rw [Nat.succ_mul] at h
  rw [chunk, List.length_take, List.length_drop]
  omega

theorem getElem?_chunk (xs : List α) (i : Nat) {j : Nat} (hj : j < size) :
    (chunk size xs i)[j]? = xs[i * size + j]? := by
  rw [chunk, List.getElem?_take_of_lt hj, List.getElem?_drop]

theorem getElem?_chunks {count i : Nat} (hi : i < count) (xs : List α) :
    (chunks size count xs)[i]? = some (chunk size xs i) := by
  rw [chunks, List.getElem?_map, List.getElem?_range hi]
  rfl

theorem chunk_drop (size : Nat) (xs : List α) (i : Nat) :
    chunk size (xs.drop size) i = chunk size xs (i + 1) := by
  rw [chunk, chunk, List.drop_drop, Nat.succ_mul, Nat.add_comm]

theorem chunks_succ (size count : Nat) (xs : List α) :
    chunks size (count + 1) xs = xs.take size :: chunks size count (xs.drop size) := by
  have hrest : chunk size (xs.drop size) = chunk size xs ∘ Nat.succ := funext (chunk_drop size xs)
  rw [chunks, List.range_succ_eq_map, List.map_cons, List.map_map, chunks, hrest, chunk,
    Nat.zero_mul, List.drop_zero]

theorem flatten_chunks (size count : Nat) (xs : List α) :
    (chunks size count xs).flatten = xs.take (count * size) := by
  induction count generalizing xs with
  | zero => rw [Nat.zero_mul, List.take_zero]; rfl
  | succ count ih =>
    rw [chunks_succ, List.flatten_cons, ih, Nat.succ_mul, Nat.add_comm, List.take_add]

theorem sublist_chunks_append_last {count : Nat} (h : xs.length ≤ (count + 1) * size) :
    xs.Sublist (chunks size count xs ++ [xs.drop (xs.length - size)]).flatten := by
  rw [Nat.succ_mul] at h
  rw [List.flatten_append, flatten_chunks, List.flatten_singleton]
  have hlast : (xs.drop (count * size)).Sublist (xs.drop (xs.length - size)) :=
    List.drop_sublist_drop_left xs (by omega)
  have happend := (List.Sublist.refl (xs.take (count * size))).append hlast
  rwa [List.take_append_drop] at happend

def cycled (size : Nat) (xs : List α) (default : α) : List α :=
  (List.range size).map fun i => xs.getD (i % xs.length) default

@[simp] theorem length_cycled (size : Nat) (xs : List α) (default : α) :
    (cycled size xs default).length = size := by
  rw [cycled, List.length_map, List.length_range]

theorem getElem?_cycled {i : Nat} (hi : i < size) (hpos : 0 < xs.length) (default : α) :
    (cycled size xs default)[i]? = xs[i % xs.length]? := by
  have hlt : i % xs.length < xs.length := Nat.mod_lt i hpos
  rw [cycled, List.getElem?_map, List.getElem?_range hi, Option.map_some,
    List.getD_eq_getElem?_getD, List.getElem?_eq_getElem hlt]
  rfl

theorem sublist_cycled (h : xs.length ≤ size) (hpos : 0 < xs.length) (default : α) :
    xs.Sublist (cycled size xs default) := by
  have hfront : (cycled size xs default).take xs.length = xs := by
    refine List.ext_getElem? fun i => ?_
    by_cases hi : i < xs.length
    · rw [List.getElem?_take_of_lt hi, getElem?_cycled (by omega) hpos, Nat.mod_eq_of_lt hi]
    · rw [List.getElem?_eq_none (by rw [List.length_take]; omega), List.getElem?_eq_none (by omega)]
  have hsub := List.take_sublist xs.length (cycled size xs default)
  rwa [hfront] at hsub

theorem cycled_length (hpos : 0 < xs.length) (default : α) : cycled xs.length xs default = xs :=
  ((sublist_cycled (Nat.le_refl _) hpos default).eq_of_length (length_cycled _ _ _).symm).symm

theorem cycled_add (hpos : 0 < xs.length) (size : Nat) (default : α) :
    cycled (xs.length + size) xs default = xs ++ cycled size xs default := by
  have hrest : ((fun i => xs.getD (i % xs.length) default) ∘ fun i => xs.length + i) =
      fun i => xs.getD (i % xs.length) default := by
    funext i
    simp only [Function.comp_apply, Nat.add_mod_left]
  rw [cycled, List.range_add, List.map_append, List.map_map, hrest, ← cycled, ← cycled,
    cycled_length hpos]

section
variable [BEq α] (a : α)

theorem count_cycled (hpos : 0 < xs.length) (q r : Nat) (default : α) :
    (cycled (q * xs.length + r) xs default).count a = q * xs.count a +
      (cycled r xs default).count a := by
  induction q with
  | zero => rw [Nat.zero_mul, Nat.zero_add, Nat.zero_mul, Nat.zero_add]
  | succ q ih =>
    have hsize : (q + 1) * xs.length + r = xs.length + (q * xs.length + r) := by
      rw [Nat.succ_mul]
      omega
    rw [hsize, cycled_add hpos, List.count_append, ih, Nat.succ_mul]
    omega

/-- Each entry is repeated as often as the list goes whole into the size, and at most once more. -/
theorem count_cycled_bounds (hpos : 0 < xs.length) (size : Nat) (default : α) :
    size / xs.length * xs.count a ≤ (cycled size xs default).count a ∧
      (cycled size xs default).count a ≤ (size / xs.length + 1) * xs.count a ∧
      (xs.length ∣ size → (cycled size xs default).count a = size / xs.length * xs.count a) := by
  have hsize : size / xs.length * xs.length + size % xs.length = size :=
    Nat.div_add_mod' size xs.length
  have hcount := count_cycled a hpos (size / xs.length) (size % xs.length) default
  rw [hsize] at hcount
  have hpart : (cycled (size % xs.length) xs default).Sublist xs := by
    have hle : (List.range (size % xs.length)).Sublist (List.range xs.length) :=
      List.range_sublist.mpr (Nat.le_of_lt (Nat.mod_lt size hpos))
    have hmap := hle.map fun i => xs.getD (i % xs.length) default
    rwa [← cycled, ← cycled, cycled_length hpos] at hmap
  rw [hcount]
  refine ⟨Nat.le_add_right _ _, ?_, fun hdvd => ?_⟩
  · rw [Nat.succ_mul]
    exact Nat.add_le_add_left (hpart.count_le a) _
  · rw [Nat.mod_eq_zero_of_dvd hdvd]
    rfl

end

end ZgChain
