import ZgChain.Lib.Result

/-!
# Ordered key-value stores

A store keeps its entries in ascending key order, each key once, and iteration
visits them in that order. Two stores with the same lookups are equal, and a sum
over a store changes by the entry that is written or deleted.
-/

namespace ZgChain

/-- A key-value store, as the list of its entries in ascending key order. -/
structure KVStore (K V : Type) [LinearOrder K] where
  entries : List (K × V)
  sorted : entries.Pairwise (fun a b => a.1 < b.1)

namespace KVStore

variable {K V : Type} [LinearOrder K]

/-! ## Sorted insertion -/

def insertEntry (k : K) (v : V) : List (K × V) → List (K × V)
  | [] => [(k, v)]
  | e :: l => if k < e.1 then (k, v) :: e :: l else if k = e.1 then (k, v) :: l
    else e :: insertEntry k v l

theorem mem_insertEntry {k : K} {v : V} {a : K × V} :
    ∀ {l : List (K × V)}, a ∈ insertEntry k v l → a = (k, v) ∨ a ∈ l
  | [], h => by simpa [insertEntry] using h
  | e :: l, h => by
    unfold insertEntry at h
    split at h
    · simpa using h
    · split at h
      · rcases List.mem_cons.mp h with h | h
        · exact Or.inl h
        · exact Or.inr (List.mem_cons_of_mem _ h)
      · rcases List.mem_cons.mp h with h | h
        · exact Or.inr (by simp [h])
        · rcases mem_insertEntry h with h | h
          · exact Or.inl h
          · exact Or.inr (List.mem_cons_of_mem _ h)

theorem insertEntry_sorted (k : K) (v : V) : ∀ {l : List (K × V)},
    l.Pairwise (fun a b => a.1 < b.1) → (insertEntry k v l).Pairwise (fun a b => a.1 < b.1)
  | [], _ => by simp [insertEntry]
  | e :: l, h => by
    obtain ⟨he, hl⟩ := List.pairwise_cons.mp h
    unfold insertEntry
    split
    · rename_i hlt
      refine List.pairwise_cons.mpr ⟨fun a ha => ?_, h⟩
      rcases List.mem_cons.mp ha with rfl | ha
      · exact hlt
      · exact lt_trans hlt (he a ha)
    · split
      · rename_i heq
        exact List.pairwise_cons.mpr ⟨fun a ha => heq ▸ he a ha, hl⟩
      · rename_i hlt hne
        refine List.pairwise_cons.mpr ⟨fun a ha => ?_, insertEntry_sorted k v hl⟩
        rcases mem_insertEntry ha with rfl | ha
        · exact lt_of_le_of_ne (not_lt.mp hlt) (Ne.symm hne)
        · exact he a ha

/-! ## Operations -/

def empty : KVStore K V := ⟨[], List.Pairwise.nil⟩

def get (s : KVStore K V) (k : K) : Option V := s.entries.lookup k

def has (s : KVStore K V) (k : K) : Bool := (s.get k).isSome

def set (s : KVStore K V) (k : K) (v : V) : KVStore K V :=
  ⟨insertEntry k v s.entries, insertEntry_sorted k v s.sorted⟩

def delete (s : KVStore K V) (k : K) : KVStore K V :=
  ⟨s.entries.filter (fun e => e.1 ≠ k), s.sorted.filter _⟩

def values (s : KVStore K V) : List V := s.entries.map Prod.snd

/-- The values under keys below the exclusive bound `e`, or all of them. -/
def valuesBelow (s : KVStore K V) (e : Option K) : List V :=
  (s.entries.filter fun x => match e with | some b => decide (x.1 < b) | none => true).map Prod.snd

/-! ## Lookups -/

theorem lookup_eq_some_iff : ∀ {l : List (K × V)}, l.Pairwise (fun a b => a.1 < b.1) →
    ∀ {k : K} {v : V}, l.lookup k = some v ↔ (k, v) ∈ l
  | [], _, k, v => by simp
  | e :: l, h, k, v => by
    obtain ⟨he, hl⟩ := List.pairwise_cons.mp h
    obtain ⟨k', v'⟩ := e
    by_cases hk : k = k'
    · subst hk
      simp only [List.lookup_cons_self, Option.some.injEq, List.mem_cons, Prod.mk.injEq, true_and]
      constructor
      · exact fun h => Or.inl h.symm
      · rintro (h | h)
        · exact h.symm
        · exact absurd (he _ h) (lt_irrefl _)
    · have : (k == k') = false := by simpa using hk
      simp only [List.lookup_cons, this, List.mem_cons, Prod.mk.injEq, hk, false_and, false_or]
      exact lookup_eq_some_iff hl

theorem get_eq_some_iff (s : KVStore K V) (k : K) (v : V) : s.get k = some v ↔ (k, v) ∈ s.entries :=
  lookup_eq_some_iff s.sorted

@[simp] theorem get_empty (k : K) : (empty : KVStore K V).get k = none := rfl

theorem lookup_insertEntry (k k' : K) (v : V) : ∀ (l : List (K × V)),
    (insertEntry k v l).lookup k' = if k' = k then some v else l.lookup k'
  | [] => by
    by_cases h : k' = k
    · simp [insertEntry, h]
    · have : (k' == k) = false := by simpa using h
      simp [insertEntry, h, List.lookup_cons, this]
  | (k₀, v₀) :: l => by
    have ih := lookup_insertEntry k k' v l
    unfold insertEntry
    by_cases h : k' = k
    · subst h
      by_cases h1 : k' < k₀
      · simp [h1]
      · by_cases h2 : k' = k₀
        · simp [h2]
        · have : (k' == k₀) = false := by simpa using h2
          simp [h1, h2, List.lookup_cons, this, ih]
    · have hb : (k' == k) = false := by simpa using h
      by_cases h1 : k < k₀
      · simp [h1, h, List.lookup_cons, hb]
      · by_cases h2 : k = k₀
        · subst h2; simp [h, List.lookup_cons, hb]
        · simp only [h1, h2, ite_false, List.lookup_cons, ih, h]

theorem get_set (s : KVStore K V) (k k' : K) (v : V) :
    (s.set k v).get k' = if k' = k then some v else s.get k' := lookup_insertEntry k k' v s.entries

@[simp] theorem get_set_self (s : KVStore K V) (k : K) (v : V) : (s.set k v).get k = some v := by
  simp [get_set]

@[simp] theorem get_set_ne (s : KVStore K V) {k k' : K} (h : k' ≠ k) (v : V) :
    (s.set k v).get k' = s.get k' := by simp [get_set, h]

theorem get_delete (s : KVStore K V) (k k' : K) :
    (s.delete k).get k' = if k' = k then none else s.get k' := by
  apply Option.ext
  intro v
  by_cases h : k' = k
  · simp [h, get_eq_some_iff, delete]
  · simp [h, get_eq_some_iff, delete]

@[simp] theorem get_delete_self (s : KVStore K V) (k : K) : (s.delete k).get k = none := by
  simp [get_delete]

@[simp] theorem get_delete_ne (s : KVStore K V) {k k' : K} (h : k' ≠ k) :
    (s.delete k).get k' = s.get k' := by simp [get_delete, h]

/-! ## A loop that updates one key for each element -/

section
variable {α : Type} {l : List α} (key : α → K) (new : α → Option V → V)

theorem get_foldl_set_of_notMem {k : K} (hk : k ∉ l.map key) (s : KVStore K V) :
    (l.foldl (fun s a => s.set (key a) (new a (s.get (key a)))) s).get k = s.get k := by
  induction l generalizing s with
  | nil => rfl
  | cons a l ih =>
    rw [List.map_cons, List.mem_cons, not_or] at hk
    rw [List.foldl_cons, ih hk.2, get_set_ne _ hk.1]

/-- With distinct keys, each update reads what was there before the loop. -/
theorem get_foldl_set (hn : (l.map key).Nodup) {a : α} (ha : a ∈ l) (s : KVStore K V) :
    (l.foldl (fun s a => s.set (key a) (new a (s.get (key a)))) s).get (key a) =
      some (new a (s.get (key a))) := by
  induction l generalizing s with
  | nil => cases ha
  | cons a' l ih =>
    rw [List.map_cons, List.nodup_cons] at hn
    rw [List.foldl_cons]
    cases ha with
    | head => rw [get_foldl_set_of_notMem key new hn.1, get_set_self]
    | tail _ ha =>
      have hne : key a ≠ key a' := fun e => hn.1 (e ▸ List.mem_map_of_mem ha)
      rw [ih hn.2 ha, get_set_ne _ hne]

end

theorem entries_nodup (s : KVStore K V) : s.entries.Nodup := by
  refine List.Pairwise.imp ?_ s.sorted
  intro a b hab e
  exact absurd hab (e ▸ lt_irrefl _)

theorem sorted_ext {l l' : List (K × V)} (hl : l.Pairwise (fun a b => a.1 < b.1))
    (hl' : l'.Pairwise (fun a b => a.1 < b.1)) (h : ∀ e, e ∈ l ↔ e ∈ l') : l = l' := by
  have hperm : l.Perm l' := by
    refine (List.perm_ext_iff_of_nodup ?_ ?_).mpr h
    · exact entries_nodup ⟨l, hl⟩
    · exact entries_nodup ⟨l', hl'⟩
  exact hperm.eq_of_pairwise (fun a b _ _ hab hba => absurd hab (not_lt.mpr hba.le)) hl hl'

/-- A store is determined by its lookups. -/
theorem ext_get {s t : KVStore K V} (h : ∀ k, s.get k = t.get k) : s = t := by
  have hs : s.entries = t.entries := by
    apply sorted_ext s.sorted t.sorted
    rintro ⟨k, v⟩
    rw [← get_eq_some_iff, ← get_eq_some_iff, h k]
  obtain ⟨_, _⟩ := s
  subst hs
  rfl

theorem set_eq_self_iff (s : KVStore K V) (k : K) (v : V) : s.set k v = s ↔ s.get k = some v := by
  constructor
  · intro h
    rw [← h, get_set_self]
  · intro h
    apply ext_get
    intro k'
    by_cases hk : k' = k
    · rw [hk, get_set_self, h]
    · rw [get_set_ne s hk]

theorem mem_values (s : KVStore K V) (v : V) : v ∈ s.values ↔ ∃ k, s.get k = some v := by
  simp only [values, List.mem_map, get_eq_some_iff]
  exact ⟨fun ⟨e, he, hv⟩ => ⟨e.1, hv ▸ he⟩, fun ⟨k, hk⟩ => ⟨(k, v), hk, rfl⟩⟩

def setAll (key : V → K) (s : KVStore K V) (vs : List V) : KVStore K V :=
  vs.foldl (fun s v => s.set (key v) v) s

theorem mem_of_get_setAll {key : V → K} {s : KVStore K V} {vs : List V} {k : K} {v : V}
    (h : (setAll key s vs).get k = some v) : (v ∈ vs ∧ key v = k) ∨ s.get k = some v := by
  induction vs generalizing s with
  | nil => exact Or.inr h
  | cons w vs ih =>
    rcases ih h with ⟨hv, hk⟩ | hv
    · exact Or.inl ⟨List.mem_cons_of_mem _ hv, hk⟩
    · rw [get_set] at hv
      split at hv
      · rename_i hk
        cases hv
        exact Or.inl ⟨List.mem_cons_self, hk.symm⟩
      · exact Or.inr hv

/-- Every key that was set is there, with the last of its values. -/
theorem exists_get_setAll {key : V → K} {s : KVStore K V} {vs : List V} {k : K}
    (h : (∃ v ∈ vs, key v = k) ∨ ∃ v, s.get k = some v) :
    ∃ v, (setAll key s vs).get k = some v := by
  induction vs generalizing s with
  | nil =>
    rcases h with ⟨v, hv, _⟩ | h
    · cases hv
    · exact h
  | cons w vs ih =>
    apply ih
    rw [get_set]
    split
    · exact Or.inr ⟨w, rfl⟩
    · rename_i hk
      rcases h with ⟨v, hv, e⟩ | h
      · rcases List.mem_cons.mp hv with rfl | hv
        · exact absurd e.symm hk
        · exact Or.inl ⟨v, hv, e⟩
      · exact Or.inr h

theorem get_setAll {key : V → K} {s : KVStore K V} {vs : List V} (hn : (vs.map key).Nodup)
    (k : K) (v : V) :
    (setAll key s vs).get k = some v ↔ (v ∈ vs ∧ key v = k) ∨
    ((∀ w ∈ vs, key w ≠ k) ∧ s.get k = some v) := by
  induction vs generalizing s with
  | nil => simp [setAll]
  | cons w vs ih =>
    rw [List.map_cons, List.nodup_cons] at hn
    have hs : setAll key s (w :: vs) = setAll key (s.set (key w) w) vs := rfl
    rw [hs, ih hn.2, get_set, List.forall_mem_cons, List.mem_cons]
    by_cases hk : k = key w
    · subst hk
      have hw : ∀ x ∈ vs, key x ≠ key w := fun x hx e => hn.1 (e ▸ List.mem_map_of_mem hx)
      simp only [ite_true, Option.some.injEq]
      constructor
      · rintro (⟨hv, e⟩ | ⟨_, e⟩)
        · exact absurd e (hw v hv)
        · exact Or.inl ⟨Or.inl e.symm, by rw [e]⟩
      · rintro (⟨e | hv, hk⟩ | ⟨⟨hne, _⟩, _⟩)
        · exact Or.inr ⟨hw, e.symm⟩
        · exact absurd hk (hw v hv)
        · exact absurd rfl hne
    · simp only [hk, ite_false]
      constructor
      · rintro (⟨hv, e⟩ | ⟨hne, e⟩)
        · exact Or.inl ⟨Or.inr hv, e⟩
        · exact Or.inr ⟨⟨fun e => hk e.symm, hne⟩, e⟩
      · rintro (⟨e | hv, hv'⟩ | ⟨⟨_, hne⟩, e⟩)
        · exact absurd (by rw [← hv', e]) hk
        · exact Or.inl ⟨hv, hv'⟩
        · exact Or.inr ⟨hne, e⟩

theorem keyed_empty {key : V → K} (k : K) (v : V) (h : (empty : KVStore K V).get k = some v) :
    key v = k := by
  cases h

section
variable {key : V → K} {s : KVStore K V} (h : ∀ k v, s.get k = some v → key v = k)
include h

theorem keyed_set (v : V) : ∀ k w, (s.set (key v) v).get k = some w → key w = k := by
  intro k w hw
  rw [get_set] at hw
  split at hw
  · rename_i hk
    cases hw
    exact hk.symm
  · exact h k w hw

theorem values_nodup : (s.values.map key).Nodup := by
  have he : s.values.map key = s.entries.map Prod.fst := by
    rw [values, List.map_map]
    exact List.map_congr_left fun e he => h e.1 e.2 ((get_eq_some_iff s _ _).mpr he)
  rw [he, List.nodup_iff_pairwise_ne, List.pairwise_map]
  exact s.sorted.imp fun hab => ne_of_lt hab

theorem setAll_values : setAll key empty s.values = s := by
  refine ext_get fun k => Option.ext fun v => ?_
  rw [get_setAll (values_nodup h), mem_values]
  constructor
  · rintro (⟨⟨k', hk'⟩, e⟩ | ⟨_, e⟩)
    · rwa [← e, h k' v hk']
    · cases e
  · intro hk
    exact Or.inl ⟨⟨k, hk⟩, h k v hk⟩

end

theorem mem_valuesBelow (s : KVStore K V) (e : Option K) (v : V) :
    v ∈ s.valuesBelow e ↔ ∃ k, s.get k = some v ∧ ∀ b, e = some b → k < b := by
  have hb (k : K) : (match e with | some b => decide (k < b) | none => true) = true ↔
      ∀ b, e = some b → k < b := by
    cases e <;> simp
  simp only [valuesBelow, List.mem_map, List.mem_filter, hb, get_eq_some_iff]
  refine ⟨fun ⟨x, hx, hv⟩ => ⟨x.1, hv ▸ hx.1, hx.2⟩, fun ⟨k, hk, h⟩ => ⟨(k, v), ⟨hk, h⟩, rfl⟩⟩

theorem valuesBelow_nodup {s : KVStore K V}
    (h : ∀ k k' v, s.get k = some v → s.get k' = some v → k = k')
    (e : Option K) : (s.valuesBelow e).Nodup := by
  refine List.Nodup.map_on (fun x hx y hy hxy => ?_) (s.entries_nodup.filter _)
  have hx := (get_eq_some_iff s x.1 x.2).mpr (List.mem_of_mem_filter hx)
  have hy := (get_eq_some_iff s y.1 y.2).mpr (List.mem_of_mem_filter hy)
  exact Prod.ext (h x.1 y.1 x.2 hx (hxy ▸ hy)) hxy

/-! ## Sums over the entries -/

def sumOn (f : K → V → Int) (s : KVStore K V) : Int := (s.entries.map fun e => f e.1 e.2).sum

/-- What a lookup contributes to a sum: nothing if the key is absent. -/
def contrib (f : K → V → Int) (k : K) (o : Option V) : Int := o.elim 0 (f k)

omit [LinearOrder K] in
@[simp] theorem contrib_none (f : K → V → Int) (k : K) : contrib f k none = 0 := rfl

omit [LinearOrder K] in
@[simp] theorem contrib_some (f : K → V → Int) (k : K) (v : V) : contrib f k (some v) = f k v := rfl

@[simp] theorem sumOn_empty (f : K → V → Int) : sumOn f (empty : KVStore K V) = 0 := rfl

/-- A sum over a store, taken over any finite set of keys that covers it. -/
theorem sumOn_eq_sum (f : K → V → Int) (s : KVStore K V) (S : Finset K)
    (hS : ∀ k v, s.get k = some v → k ∈ S) : sumOn f s = ∑ k ∈ S, contrib f k (s.get k) := by
  obtain ⟨l, hl⟩ := s
  simp only [get_eq_some_iff] at hS
  simp only [sumOn, get]
  induction l generalizing S with
  | nil => simp
  | cons e l ih =>
    obtain ⟨he, hl'⟩ := List.pairwise_cons.mp hl
    obtain ⟨k, v⟩ := e
    have hk : k ∈ S := hS k v (by simp)
    have hnone : l.lookup k = none := by
      rw [List.lookup_eq_none_iff]
      intro p hp
      simpa using (he p hp).ne
    rw [List.map_cons, List.sum_cons, ih S hl' fun k' v' h => hS k' v' (by simp [h]),
      ← Finset.add_sum_erase S _ hk, ← Finset.add_sum_erase S _ hk]
    simp only [List.lookup_cons_self, contrib_some, hnone, contrib_none, zero_add]
    congr 1
    apply Finset.sum_congr rfl
    intro k' hk'
    have : (k' == k) = false := by simpa using (Finset.mem_erase.mp hk').1
    simp [List.lookup_cons, this]

theorem sumOn_congr {V' : Type} {f : K → V → Int} {g : K → V' → Int} {s : KVStore K V}
    {t : KVStore K V'}
    (h : ∀ k, contrib f k (s.get k) = contrib g k (t.get k)) : sumOn f s = sumOn g t := by
  let S := (s.entries.map Prod.fst).toFinset ∪ (t.entries.map Prod.fst).toFinset
  rw [sumOn_eq_sum f s S, sumOn_eq_sum g t S]
  · exact Finset.sum_congr rfl fun k _ => h k
  · intro k v hk
    have := (get_eq_some_iff t k v).mp hk
    simp only [S, Finset.mem_union, List.mem_toFinset, List.mem_map]
    exact Or.inr ⟨_, this, rfl⟩
  · intro k v hk
    have := (get_eq_some_iff s k v).mp hk
    simp only [S, Finset.mem_union, List.mem_toFinset, List.mem_map]
    exact Or.inl ⟨_, this, rfl⟩

/-- Stores that agree off one key have sums that differ by that key's contributions. -/
theorem sumOn_update {f : K → V → Int} {s t : KVStore K V} (k : K)
    (h : ∀ k' ≠ k, t.get k' = s.get k') :
    sumOn f t = sumOn f s - contrib f k (s.get k) + contrib f k (t.get k) := by
  let S := insert k ((s.entries.map Prod.fst).toFinset)
  have hs : ∀ k' v, s.get k' = some v → k' ∈ S := by
    intro k' v hk
    simp only [S, Finset.mem_insert, List.mem_toFinset, List.mem_map]
    exact Or.inr ⟨_, (get_eq_some_iff s k' v).mp hk, rfl⟩
  have ht : ∀ k' v, t.get k' = some v → k' ∈ S := by
    intro k' v hk
    by_cases hkk : k' = k
    · simp [S, hkk]
    · exact hs k' v (h k' hkk ▸ hk)
  have hk : k ∈ S := by simp [S]
  rw [sumOn_eq_sum f s S hs, sumOn_eq_sum f t S ht, ← Finset.add_sum_erase S _ hk,
    ← Finset.add_sum_erase S _ hk]
  have : ∑ k' ∈ S.erase k, contrib f k' (t.get k') = ∑ k' ∈ S.erase k, contrib f k' (s.get k') :=
    Finset.sum_congr rfl fun k' hk' => by rw [h k' (Finset.mem_erase.mp hk').1]
  omega

theorem sumOn_set (f : K → V → Int) (s : KVStore K V) (k : K) (v : V) :
    sumOn f (s.set k v) = sumOn f s - contrib f k (s.get k) + f k v := by
  rw [sumOn_update k fun k' h => get_set_ne s h v, get_set_self, contrib_some]

theorem sumOn_delete (f : K → V → Int) (s : KVStore K V) (k : K) :
    sumOn f (s.delete k) = sumOn f s - contrib f k (s.get k) := by
  rw [sumOn_update k fun k' h => get_delete_ne s h, get_delete_self, contrib_none, add_zero]

theorem sumOn_nonneg {f : K → V → Int} {s : KVStore K V} (h : ∀ k v, s.get k = some v → 0 ≤ f k v) :
    0 ≤ sumOn f s := by
  apply List.sum_nonneg
  intro x hx
  obtain ⟨e, he, rfl⟩ := List.mem_map.mp hx
  exact h _ _ ((get_eq_some_iff s e.1 e.2).mpr he)

theorem le_sumOn {f : K → V → Int} {s : KVStore K V} (h : ∀ k v, s.get k = some v → 0 ≤ f k v)
    {k : K} {v : V} (hk : s.get k = some v) : f k v ≤ sumOn f s := by
  have hd : 0 ≤ sumOn f (s.delete k) := by
    apply sumOn_nonneg
    intro k' v' hk'
    rw [get_delete] at hk'
    split at hk'
    · cases hk'
    · exact h k' v' hk'
  rw [sumOn_delete, hk, contrib_some] at hd
  omega

/-- A store whose keys are keys of another one of its size has all of them. -/
theorem has_of_length {s t : KVStore K V} (h : ∀ k, s.has k = true → t.has k = true)
    (hl : s.entries.length = t.entries.length) {k : K} (hk : t.has k = true) : s.has k = true := by
  have hmem : ∀ (u : KVStore K V) (k : K), u.has k = true ↔ k ∈ u.entries.map Prod.fst := by
    intro u k
    rw [has, Option.isSome_iff_exists, List.mem_map]
    exact ⟨fun ⟨v, hv⟩ => ⟨(k, v), (get_eq_some_iff u k v).mp hv, rfl⟩,
      fun ⟨e, he, hk⟩ => ⟨e.2, (get_eq_some_iff u k e.2).mpr (hk ▸ he)⟩⟩
  have hsub : (s.entries.map Prod.fst).Subperm (t.entries.map Prod.fst) := by
    refine List.subperm_of_subset ?_ fun k hk => (hmem t k).mp (h k ((hmem s k).mpr hk))
    rw [List.nodup_iff_pairwise_ne, List.pairwise_map]
    exact s.sorted.imp fun hab => ne_of_lt hab
  have hperm := hsub.perm_of_length_le (by rw [List.length_map, List.length_map, hl])
  exact (hmem s k).mpr (hperm.mem_iff.mpr ((hmem t k).mp hk))

end KVStore

end ZgChain
