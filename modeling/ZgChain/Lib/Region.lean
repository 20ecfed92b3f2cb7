import ZgChain.Lib.KVStore

/-!
# Regions of a store

Records of several kinds share one store of encoded values, each kind under keys of
its own. A region is the part of the store under the keys of one kind, read as a store
of records. A write under another kind's key leaves a region as it was, and a scan of
keys of one kind decodes just the records of its region.
-/

namespace ZgChain.KVStore

variable {K V W ε : Type} [LinearOrder K]

/-- The store `b` holds the records of `t`, encoded, under the keys `p`. -/
structure Region (p : K → Prop) (decode : V → Except ε W) (b : KVStore K V) (t : KVStore K W) :
    Prop where
  own : ∀ k w, t.get k = some w → p k
  get : ∀ k, p k → (b.get k).map decode = (t.get k).map .ok

section
variable {p : K → Prop} {decode : V → Except ε W} {b : KVStore K V} {t : KVStore K W}

theorem region_empty : Region p decode empty empty := by
  constructor
  · intro k w h
    cases h
  · intro k _
    rfl

theorem Region.set (h : Region p decode b t) {k : K} (hk : p k) {v : V} {w : W}
    (hv : decode v = .ok w) :
    Region p decode (b.set k v) (t.set k w) := by
  constructor
  · intro k' w' hk'
    rw [get_set] at hk'
    split at hk'
    · rename_i e
      exact e ▸ hk
    · exact h.own k' w' hk'
  · intro k' hk'
    rw [get_set, get_set]
    by_cases e : k' = k
    · rw [if_pos e, if_pos e, Option.map_some, Option.map_some, hv]
    · rw [if_neg e, if_neg e, h.get k' hk']

theorem Region.frame (h : Region p decode b t) {k : K} (hk : ¬ p k) (v : V) :
    Region p decode (b.set k v) t := by
  refine ⟨h.own, ?_⟩
  intro k' hk'
  have hne : k' ≠ k := by
    intro e
    exact hk (e ▸ hk')
  rw [get_set_ne b hne, h.get k' hk']

theorem mem_scan {α : Type} {s : KVStore K V} {q : K → Bool} {f : V → α} {k : K} {a : α} :
    (k, a) ∈ (s.entries.filter fun e => q e.1).map (fun e => (e.1, f e.2)) ↔
      q k = true ∧ (s.get k).map f = some a := by
  simp only [List.mem_map, List.mem_filter, Prod.mk.injEq, Option.map_eq_some_iff, get_eq_some_iff]
  constructor
  · rintro ⟨e, ⟨he, hq⟩, rfl, ha⟩
    exact ⟨hq, e.2, he, ha⟩
  · rintro ⟨hq, v, hv, ha⟩
    exact ⟨(k, v), ⟨hv, hq⟩, rfl, ha⟩

theorem scan_sorted {α : Type} (s : KVStore K V) (q : K → Bool) (f : V → α) :
    ((s.entries.filter fun e => q e.1).map fun e => (e.1, f e.2)).Pairwise
      (fun a b => a.1 < b.1) := by
  rw [List.pairwise_map]
  exact s.sorted.filter _

/-- A scan of keys of the region, with each value decoded, finds the region's records. -/
theorem Region.scan (h : Region p decode b t) {q : K → Bool} (hq : ∀ k, q k = true → p k) :
    (b.entries.filter fun e => q e.1).mapM (fun e => decode e.2) =
      .ok ((t.entries.filter fun e => q e.1).map Prod.snd) := by
  have hscan : (b.entries.filter fun e => q e.1).map (fun e => (e.1, decode e.2)) =
      (t.entries.filter fun e => q e.1).map fun e => (e.1, .ok e.2) := by
    apply sorted_ext (scan_sorted b q decode) (scan_sorted t q .ok)
    rintro ⟨k, a⟩
    rw [mem_scan, mem_scan]
    constructor
    · rintro ⟨hk, ha⟩
      exact ⟨hk, h.get k (hq k hk) ▸ ha⟩
    · rintro ⟨hk, ha⟩
      exact ⟨hk, (h.get k (hq k hk)).symm ▸ ha⟩
  have hvalues := congrArg (List.map Prod.snd) hscan
  rw [List.map_map, List.map_map] at hvalues
  apply mapM_eq_ok_of_map
  rw [List.map_map]
  exact hvalues

end

end ZgChain.KVStore
