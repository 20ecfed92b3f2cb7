import ZgChain.Lib.Result

/-!
# The elements with the smallest keys

The first element of each key is kept, and the elements that are left are taken in
ascending order of their keys.
-/

namespace ZgChain

variable {α κ : Type} [LinearOrder κ] {key : α → κ}

def firstOfEach (key : α → κ) (l : List α) : List α :=
  l.foldl (fun kept a => if key a ∈ kept.map key then kept else kept ++ [a]) []

def ascendingBy (key : α → κ) (l : List α) : List α := l.insertionSort fun a b => key a ≤ key b

/-- `r` has one element for each of the `n` smallest keys, in ascending order. -/
structure Smallest (key : α → κ) (l : List α) (n : Nat) (r : List α) : Prop where
  length : r.length = n
  ascending : (r.map key).Pairwise (· < ·)
  mem : ∀ a ∈ r, a ∈ l
  least : ∀ b ∈ l, key b ∉ r.map key → ∀ a ∈ r, key a < key b

/-- The first element of its key. -/
def IsFirst (key : α → κ) (l : List α) (a : α) : Prop := l.find? (fun b => key b = key a) = some a

structure Kept (key : α → κ) (visited kept : List α) : Prop where
  nodup : (kept.map key).Nodup
  mem : ∀ a ∈ kept, a ∈ visited
  keys : ∀ b ∈ visited, key b ∈ kept.map key
  first : ∀ a ∈ kept, IsFirst key visited a

theorem Kept.visit {visited kept : List α} (h : Kept key visited kept) (a : α) :
    Kept key (visited ++ [a]) (if key a ∈ kept.map key then kept else kept ++ [a]) := by
  have hfirst : ∀ b ∈ kept, IsFirst key (visited ++ [a]) b := by
    intro b hb
    have hb : visited.find? (fun c => key c = key b) = some b := h.first b hb
    rw [IsFirst, List.find?_append, hb]
    rfl
  by_cases ha : key a ∈ kept.map key
  · rw [if_pos ha]
    refine ⟨h.nodup, fun b hb => List.mem_append_left _ (h.mem b hb), fun b hb => ?_, hfirst⟩
    rcases List.mem_append.mp hb with hb | hb
    · exact h.keys b hb
    · rwa [List.mem_singleton.mp hb]
  · rw [if_neg ha]
    refine ⟨?_, fun b hb => ?_, fun b hb => ?_, fun b hb => ?_⟩
    · rw [List.map_append, List.map_singleton]
      exact List.nodup_append'.mpr ⟨h.nodup, List.nodup_singleton _, List.disjoint_singleton.mpr ha⟩
    · rcases List.mem_append.mp hb with hb | hb
      · exact List.mem_append_left _ (h.mem b hb)
      · exact List.mem_append_right _ hb
    · rw [List.map_append]
      rcases List.mem_append.mp hb with hb | hb
      · exact List.mem_append_left _ (h.keys b hb)
      · exact List.mem_append_right _ (List.mem_map_of_mem hb)
    · rcases List.mem_append.mp hb with hb | hb
      · exact hfirst b hb
      · have hnone : visited.find? (fun c => key c = key a) = none := by
          rw [List.find?_eq_none]
          intro c hc he
          exact ha (of_decide_eq_true he ▸ h.keys c hc)
        rw [List.mem_singleton.mp hb, IsFirst, List.find?_append, hnone]
        simp

theorem firstOfEach_kept (key : α → κ) (l : List α) : Kept key l (firstOfEach key l) := by
  suffices h : ∀ (l visited kept : List α), Kept key visited kept → Kept key (visited ++ l)
      (l.foldl (fun kept a => if key a ∈ kept.map key then kept else kept ++ [a]) kept) by
    exact h l [] [] ⟨List.nodup_nil, fun a ha => ha, fun b hb => absurd hb List.not_mem_nil,
      fun a ha => absurd ha List.not_mem_nil⟩
  intro l
  induction l with
  | nil =>
    intro visited kept h
    rwa [List.append_nil]
  | cons a l ih =>
    intro visited kept h
    rw [List.foldl_cons, List.append_cons]
    exact ih _ _ (h.visit a)

theorem length_firstOfEach [DecidableEq κ] (key : α → κ) (l : List α) :
    (firstOfEach key l).length = (l.map key).toFinset.card := by
  have hkept := firstOfEach_kept key l
  have hset : (l.map key).toFinset = ((firstOfEach key l).map key).toFinset := by
    ext k
    simp only [List.mem_toFinset, List.mem_map]
    constructor
    · rintro ⟨b, hb, rfl⟩
      exact List.mem_map.mp (hkept.keys b hb)
    · rintro ⟨a, ha, rfl⟩
      exact ⟨a, hkept.mem a ha, rfl⟩
  rw [hset, List.toFinset_card_of_nodup hkept.nodup, List.length_map]

theorem ascendingBy_perm (key : α → κ) (l : List α) : (ascendingBy key l).Perm l :=
  List.perm_insertionSort _ l

theorem ascendingBy_sorted {l : List α} (h : (l.map key).Nodup) :
    ((ascendingBy key l).map key).Pairwise (· < ·) := by
  have htotal : Std.Total fun a b : α => key a ≤ key b := ⟨fun a b => le_total (key a) (key b)⟩
  have htrans : IsTrans α fun a b => key a ≤ key b := ⟨fun _ _ _ => le_trans⟩
  have hle : ((ascendingBy key l).map key).Pairwise (· ≤ ·) :=
    List.pairwise_map.mpr (List.pairwise_insertionSort _ l)
  have hne : ((ascendingBy key l).map key).Nodup :=
    ((ascendingBy_perm key l).map key).nodup_iff.mpr h
  exact (hle.and hne).imp fun hab => lt_of_le_of_ne hab.1 hab.2

theorem smallest_take {l r : List α} (hr : (r.map key).Pairwise (· < ·)) (hmem : ∀ a ∈ r, a ∈ l)
    (hkeys : ∀ b ∈ l, key b ∈ r.map key) {n : Nat} (hn : n ≤ r.length) :
    Smallest key l n (r.take n) := by
  refine ⟨List.length_take_of_le hn, ?_, fun a ha => hmem a (List.mem_of_mem_take ha),
    fun b hb hout a ha => ?_⟩
  · rw [List.map_take]
    exact hr.sublist (List.take_sublist _ _)
  · obtain ⟨c, hc, hkey⟩ := List.mem_map.mp (hkeys b hb)
    rw [← List.take_append_drop n r, List.mem_append] at hc
    have hdrop : c ∈ r.drop n := hc.resolve_left fun h => hout (hkey ▸ List.mem_map_of_mem h)
    rw [← hkey]
    rw [← List.take_append_drop n r, List.map_append, List.pairwise_append] at hr
    exact hr.2.2 _ (List.mem_map_of_mem ha) _ (List.mem_map_of_mem hdrop)

theorem smallest_firstOfEach {l : List α} {n : Nat} (hn : n ≤ (firstOfEach key l).length) :
    Smallest key l n ((ascendingBy key (firstOfEach key l)).take n) := by
  have hkept := firstOfEach_kept key l
  have hperm := ascendingBy_perm key (firstOfEach key l)
  refine smallest_take (ascendingBy_sorted hkept.nodup)
    (fun a ha => hkept.mem a (hperm.mem_iff.mp ha)) (fun b hb => ?_) ?_
  · exact (hperm.map key).mem_iff.mpr (hkept.keys b hb)
  · rwa [hperm.length_eq]

theorem smallest_zero {l r : List α} : Smallest key l 0 r ↔ r = [] := by
  constructor
  · intro h
    exact List.length_eq_zero_iff.mp h.length
  · rintro rfl
    exact ⟨rfl, List.Pairwise.nil, fun a ha => absurd ha List.not_mem_nil,
      fun _ _ _ a ha => absurd ha List.not_mem_nil⟩

section
variable {l r r' : List α} {n : Nat} (h : Smallest key l n r) (h' : Smallest key l n r')
include h h'

theorem Smallest.keys_subset : r.map key ⊆ r'.map key := by
  intro k hk
  by_contra hout
  obtain ⟨a, ha, rfl⟩ := List.mem_map.mp hk
  have hbelow : ∀ b ∈ r', key b < key a := h'.least a (h.mem a ha) hout
  -- all keys of the other list are here too, and one more, in a list of the same length
  have hsub : key a :: r'.map key ⊆ r.map key := by
    refine List.cons_subset.mpr ⟨hk, fun k' hk' => ?_⟩
    obtain ⟨b, hb, rfl⟩ := List.mem_map.mp hk'
    by_contra hnot
    exact lt_asymm (hbelow b hb) (h.least b (h'.mem b hb) hnot a ha)
  have hnodup : (key a :: r'.map key).Nodup :=
    List.nodup_cons.mpr ⟨hout, h'.ascending.imp fun hlt => hlt.ne⟩
  have hle := (List.subperm_of_subset hnodup hsub).length_le
  rw [List.length_cons, List.length_map, List.length_map, h.length, h'.length] at hle
  omega

theorem Smallest.keys_eq : r.map key = r'.map key := by
  have hnodup : ∀ {r : List α}, Smallest key l n r → (r.map key).Nodup :=
    fun h => h.ascending.imp fun hlt => hlt.ne
  have hperm : (r.map key).Perm (r'.map key) :=
    (List.perm_ext_iff_of_nodup (hnodup h) (hnodup h')).mpr fun _ =>
      ⟨fun hk => h.keys_subset h' hk, fun hk => h'.keys_subset h hk⟩
  exact hperm.eq_of_pairwise (fun _ _ _ _ hab hba => absurd hab (lt_asymm hba)) h.ascending
    h'.ascending

/-- Which element stands for a key is settled if it is the first one. -/
theorem Smallest.eq_of_first (hr : ∀ a ∈ r, IsFirst key l a) (hr' : ∀ a ∈ r', IsFirst key l a) :
    r = r' := by
  have hfind : ∀ {r : List α}, (∀ a ∈ r, IsFirst key l a) →
      r.map some = (r.map key).map fun k => l.find? fun b => key b = k := by
    intro r hr
    rw [List.map_map]
    exact List.map_congr_left fun a ha => (hr a ha).symm
  refine List.map_injective_iff.mpr (Option.some_injective α) ?_
  rw [hfind hr, hfind hr', h.keys_eq h']

end

end ZgChain
