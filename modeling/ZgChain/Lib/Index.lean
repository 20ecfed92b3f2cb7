import ZgChain.Lib.KVStore

/-!
# Secondary indexes

An index of a store holds, under a key computed from an entry, the entry's own
key. Entries may be left out of the index. As long as no two entries compute the
same index key, setting or deleting an entry needs one change of the index, which
depends on whether the old and the new entry are indexed.
-/

namespace ZgChain

variable {K V J : Type} [LinearOrder K] [LinearOrder J]

/-- `I` holds exactly the keys of the entries of `S` that `ix` gives an index key. -/
def Indexed (ix : K → V → Option J) (S : KVStore K V) (I : KVStore J K) : Prop :=
  ∀ j k, I.get j = some k ↔ ∃ v, S.get k = some v ∧ ix k v = some j

namespace Indexed

variable {ix : K → V → Option J} {S : KVStore K V} {I : KVStore J K}

theorem empty : Indexed ix (KVStore.empty : KVStore K V) KVStore.empty := by
  intro j k
  simp

theorem unique (h : Indexed ix S I) {j j' : J} {k : K} (hj : I.get j = some k)
    (hj' : I.get j' = some k) : j = j' := by
  obtain ⟨v, hv, hj⟩ := (h j k).mp hj
  obtain ⟨v', hv', hj'⟩ := (h j' k).mp hj'
  rw [hv] at hv'
  cases hv'
  rw [hj] at hj'
  exact Option.some.inj hj'

theorem eq_of_store {I' : KVStore J K} (h : Indexed ix S I) (h' : Indexed ix S I') : I = I' :=
  KVStore.ext_get fun j => Option.ext fun k => (h j k).trans (h' j k).symm

theorem nodup (h : Indexed ix S I) (e : Option J) : (I.valuesBelow e).Nodup :=
  KVStore.valuesBelow_nodup (fun _ _ _ hj hj' => h.unique hj hj') e

section
variable (hinj : ∀ {k k' v v' j}, ix k v = some j → ix k' v' = some j → k = k')
include hinj

/-- An entry changes, and the index drops the old entry's key and takes the new one's. -/
theorem update (h : Indexed ix S I) {S' : KVStore K V} {I' : KVStore J K} {k : K}
    (hS : ∀ k', k' ≠ k → S'.get k' = S.get k')
    (hI : ∀ j, I'.get j =
      if (S'.get k).bind (ix k) = some j then some k
      else if (S.get k).bind (ix k) = some j then none else I.get j) : Indexed ix S' I' := by
  intro j k'
  rw [hI]
  by_cases hk : k' = k
  · subst hk
    have hold := h j k'
    rw [← Option.bind_eq_some_iff] at hold ⊢
    split
    · rename_i hn
      simp [hn]
    · rename_i hn
      simp only [hn, iff_false]
      split
      · exact fun e => nomatch e
      · rename_i ho
        exact fun e => ho (hold.mp e)
  · rw [hS k' hk]
    split
    · rename_i hn
      obtain ⟨v, _, hv⟩ := Option.bind_eq_some_iff.mp hn
      refine ⟨fun e => absurd (Option.some.inj e).symm hk, fun ⟨w, _, hw⟩ => absurd (hinj hw hv) hk⟩
    · split
      · rename_i ho
        obtain ⟨v, _, hv⟩ := Option.bind_eq_some_iff.mp ho
        refine ⟨fun e => absurd e (by simp), fun ⟨w, _, hw⟩ => absurd (hinj hw hv) hk⟩
      · exact h j k'

theorem set_in (h : Indexed ix S I) {k : K} {v : V} {j : J} (hold : (S.get k).bind (ix k) = none)
    (hnew : ix k v = some j) : Indexed ix (S.set k v) (I.set j k) := by
  refine h.update hinj (fun k' hk => KVStore.get_set_ne _ hk _) fun j' => ?_
  simp [KVStore.get_set, hold, hnew, eq_comm]

theorem set_out (h : Indexed ix S I) {k : K} {v : V} {j : J} (hold : (S.get k).bind (ix k) = some j)
    (hnew : ix k v = none) : Indexed ix (S.set k v) (I.delete j) := by
  refine h.update hinj (fun k' hk => KVStore.get_set_ne _ hk _) fun j' => ?_
  simp [KVStore.get_delete, hold, hnew, eq_comm]

theorem set_none (h : Indexed ix S I) {k : K} {v : V} (hold : (S.get k).bind (ix k) = none)
    (hnew : ix k v = none) : Indexed ix (S.set k v) I := by
  refine h.update hinj (fun k' hk => KVStore.get_set_ne _ hk _) fun j' => ?_
  simp [hold, hnew]

theorem delete_in (h : Indexed ix S I) {k : K} {j : J} (hold : (S.get k).bind (ix k) = some j) :
    Indexed ix (S.delete k) (I.delete j) := by
  refine h.update hinj (fun k' hk => KVStore.get_delete_ne _ hk) fun j' => ?_
  simp [KVStore.get_delete, hold, eq_comm]

theorem delete_none (h : Indexed ix S I) {k : K} (hold : (S.get k).bind (ix k) = none) :
    Indexed ix (S.delete k) I := by
  refine h.update hinj (fun k' hk => KVStore.get_delete_ne _ hk) fun j' => ?_
  simp [hold]

end

end Indexed

end ZgChain
