import Mathlib.Algebra.BigOperators.Group.Finset.Basic
import Mathlib.Algebra.Order.BigOperators.Group.Finset
import ZgChain.Lib.KVStore

/-!
# The first entries of a store

A sum that stops after some number of entries is not monotone in the store: a new
entry with a small key pushes out the last one that was counted. The sum of a larger store is
that of the smaller one, with what is gained from the entries it counts and without what is lost.
-/

namespace ZgChain.KVStore

variable {K V : Type} [LinearOrder K] {s t : KVStore K V} {f : K → V → Int} {n : Nat}

/-- Every entry is still there, and its value has not gone down. -/
def Grows [LE V] (s t : KVStore K V) : Prop :=
  ∀ k v, s.get k = some v → ∃ v', t.get k = some v' ∧ v ≤ v'

def firstKeys (n : Nat) (s : KVStore K V) : Finset K := ((s.entries.take n).map Prod.fst).toFinset

theorem mem_firstKeys {k : K} : k ∈ s.firstKeys n ↔ ∃ v, (k, v) ∈ s.entries.take n := by
  rw [firstKeys, List.mem_toFinset, List.mem_map]
  simp

theorem exists_get_of_mem_firstKeys {k : K} (h : k ∈ s.firstKeys n) : ∃ v, s.get k = some v := by
  obtain ⟨v, hv⟩ := mem_firstKeys.mp h
  exact ⟨v, (get_eq_some_iff s k v).mpr (List.mem_of_mem_take hv)⟩

theorem sum_firstKeys (f : K → V → Int) (n : Nat) (s : KVStore K V) :
    ∑ k ∈ s.firstKeys n, contrib f k (s.get k) =
      ((s.entries.take n).map fun e => f e.1 e.2).sum := by
  have hsorted : ((s.entries.take n).map Prod.fst).Nodup := by
    refine List.Pairwise.map Prod.fst (fun a b h => ?_) (s.sorted.sublist (List.take_sublist n _))
    exact ne_of_lt h
  rw [firstKeys, List.sum_toFinset _ hsorted, List.map_map]
  congr 1
  refine List.map_congr_left fun e he => ?_
  have hget := (get_eq_some_iff s e.1 e.2).mpr (List.mem_of_mem_take he)
  rw [Function.comp_apply, hget, contrib_some]

/-- What the first entries of the larger store have on top of those of the smaller one. -/
def gained (n : Nat) (f : K → V → Int) (s t : KVStore K V) : Int :=
  ∑ k ∈ t.firstKeys n,
    (contrib f k (t.get k) - if k ∈ s.firstKeys n then contrib f k (s.get k) else 0)

/-- The first entries of the smaller store that are not among the first of the larger one. -/
def lost (n : Nat) (f : K → V → Int) (s t : KVStore K V) : Int :=
  ∑ k ∈ s.firstKeys n \ t.firstKeys n, contrib f k (s.get k)

theorem sum_firstKeys_eq (f : K → V → Int) (n : Nat) (s t : KVStore K V) :
    ∑ k ∈ t.firstKeys n, contrib f k (t.get k) =
      ∑ k ∈ s.firstKeys n, contrib f k (s.get k) + gained n f s t - lost n f s t := by
  have hs := Finset.sum_inter_add_sum_sdiff (s.firstKeys n) (t.firstKeys n) fun k =>
    contrib f k (s.get k)
  have hkept : ∑ k ∈ t.firstKeys n, (if k ∈ s.firstKeys n then contrib f k (s.get k) else 0) =
      ∑ k ∈ s.firstKeys n ∩ t.firstKeys n, contrib f k (s.get k) := by
    rw [← Finset.sum_filter, Finset.filter_mem_eq_inter, Finset.inter_comm]
  rw [gained, lost, Finset.sum_sub_distrib, hkept]
  omega

section
variable [LE V] (h : s.Grows t)
include h

theorem Grows.gained_nonneg (hf : ∀ k v, 0 ≤ f k v) (hmono : ∀ k v v', v ≤ v' → f k v ≤ f k v') :
    0 ≤ gained n f s t := by
  refine Finset.sum_nonneg fun k hk => ?_
  obtain ⟨v, hv⟩ := exists_get_of_mem_firstKeys hk
  rw [hv, contrib_some, sub_nonneg]
  split
  · rename_i hs
    obtain ⟨v₀, hv₀⟩ := exists_get_of_mem_firstKeys hs
    obtain ⟨v', hv', hle⟩ := h k v₀ hv₀
    cases hv.symm.trans hv'
    rw [hv₀, contrib_some]
    exact hmono k v₀ v hle
  · exact hf k v

/-- As long as all entries are counted none of them is lost. -/
theorem Grows.lost_eq_zero (f : K → V → Int) (hn : t.entries.length ≤ n) : lost n f s t = 0 := by
  have hsub : s.firstKeys n ⊆ t.firstKeys n := by
    intro k hk
    obtain ⟨v, hv⟩ := exists_get_of_mem_firstKeys hk
    obtain ⟨v', hv', _⟩ := h k v hv
    rw [mem_firstKeys, List.take_of_length_le hn]
    exact ⟨v', (get_eq_some_iff t k v').mp hv'⟩
  rw [lost, Finset.sdiff_eq_empty_iff_subset.mpr hsub, Finset.sum_empty]

end

end ZgChain.KVStore
