import ZgChain.Lib.KVStore
import ZgChain.Lib.Bytes

/-!
# Keys that start with a number

A number of 64 bits is a key of 8 bytes, most significant byte first. Keys that start with
a number are kept apart by it.
-/

namespace ZgChain

def idKey (id : UInt64) : Bytes := beBytes 8 id.toNat

@[simp] theorem length_idKey (id : UInt64) : (idKey id).length = 8 := length_beBytes 8 _

theorem idKey_inj {a b : UInt64} (h : idKey a = idKey b) : a = b :=
  UInt64.toNat_inj.mp (beBytes_injective a.toNat_lt b.toNat_lt h)

theorem idKey_append_inj {a b : UInt64} {v w : Bytes} (h : idKey a ++ v = idKey b ++ w) :
    a = b ∧ v = w := by
  obtain ⟨h₁, h₂⟩ := List.append_inj h (by simp)
  exact ⟨idKey_inj h₁, h₂⟩

theorem isPrefixOf_idKey_append (a b : UInt64) (v : Bytes) :
    (idKey a).isPrefixOf (idKey b ++ v) = true ↔ a = b := by
  rw [List.isPrefixOf_iff_prefix]
  constructor
  · intro h
    have he := List.prefix_of_prefix_length_le h (List.prefix_append (idKey b) v) (by simp)
    exact idKey_inj (he.eq_of_length (by simp))
  · intro h
    rw [h]
    exact List.prefix_append _ _

section
variable {V : Type} {s : KVStore Bytes V} {f : V → UInt64} {g : V → Bytes}

def valuesWithId (s : KVStore Bytes V) (id : UInt64) : List V :=
  (s.entries.filter fun e => (idKey id).isPrefixOf e.1).map Prod.snd

theorem mem_valuesWithId (h : ∀ k v, s.get k = some v → idKey (f v) ++ g v = k)
    (id : UInt64) (v : V) :
    v ∈ valuesWithId s id ↔ s.get (idKey (f v) ++ g v) = some v ∧ f v = id := by
  rw [valuesWithId, List.mem_map]
  constructor
  · intro ⟨e, he, hv⟩
    obtain ⟨he, hp⟩ := List.mem_filter.mp he
    have hget := (KVStore.get_eq_some_iff s e.1 e.2).mpr he
    rw [hv] at hget
    have hk := h e.1 v hget
    rw [← hk] at hget hp
    exact ⟨hget, ((isPrefixOf_idKey_append _ _ _).mp hp).symm⟩
  · intro ⟨hget, hid⟩
    refine ⟨(idKey (f v) ++ g v, v), List.mem_filter.mpr ⟨?_, ?_⟩, rfl⟩
    · exact (KVStore.get_eq_some_iff s _ v).mp hget
    · exact (isPrefixOf_idKey_append _ _ _).mpr hid.symm

theorem nodup_valuesWithId (h : ∀ k v, s.get k = some v → idKey (f v) ++ g v = k) (id : UInt64) :
    ((valuesWithId s id).map g).Nodup := by
  rw [valuesWithId, List.map_map, List.nodup_iff_pairwise_ne, List.pairwise_map]
  refine (s.sorted.filter _).imp_of_mem fun {e₁ e₂} h₁ h₂ hlt heq => ?_
  have hkey : ∀ e ∈ s.entries.filter fun e => (idKey id).isPrefixOf e.1, e.1 =
      idKey id ++ g e.2 := by
    intro e he
    obtain ⟨he, hp⟩ := List.mem_filter.mp he
    have hk := h e.1 e.2 ((KVStore.get_eq_some_iff s e.1 e.2).mpr he)
    rw [← hk] at hp ⊢
    rw [(isPrefixOf_idKey_append _ _ _).mp hp]
  have he : e₁.1 = e₂.1 := by
    rw [hkey e₁ h₁, hkey e₂ h₂]
    exact congrArg (idKey id ++ ·) heq
  exact absurd he (ne_of_lt hlt)

theorem sum_valuesWithId (w : V → Int) (s : KVStore Bytes V) (id : UInt64) :
    ((valuesWithId s id).map w).sum =
    KVStore.sumOn (fun k v => if (idKey id).isPrefixOf k then w v else 0) s := by
  rw [valuesWithId, KVStore.sumOn]
  induction s.entries with
  | nil => rfl
  | cons e es ih =>
    rw [List.filter_cons]
    by_cases he : (idKey id).isPrefixOf e.1 = true
    · simp only [he, if_true, List.map_cons, List.sum_cons, ih]
    · simp only [he, List.map_cons, List.sum_cons, zero_add, ih, Bool.false_eq_true, if_false]

/-- Writing a value under a number adds it to the sum of a weight, in place of what was there. -/
theorem sum_valuesWithId_set (w : V → Int) (s : KVStore Bytes V) (id : UInt64) (b : Bytes) (v : V) :
    ((valuesWithId (s.set (idKey id ++ b) v) id).map w).sum =
      ((valuesWithId s id).map w).sum - (s.get (idKey id ++ b)).elim 0 w + w v := by
  have hp : (idKey id).isPrefixOf (idKey id ++ b) = true :=
    (isPrefixOf_idKey_append id id b).mpr rfl
  rw [sum_valuesWithId, sum_valuesWithId, KVStore.sumOn_set]
  cases s.get (idKey id ++ b) <;> simp [KVStore.contrib, hp]

end

end ZgChain
