import ZgChain.Committees.Permissions

/-!
# Edits of a list of records

A permission for a list of records is meant to admit lists whose records are the
current ones up to listed attributes. The check searches one incoming record for
each current record and compares sizes, so a record that no search finds is not
looked at, and an attribute that may change may also be exchanged for one of
another name. An accepted list keeps to the restriction exactly if, for every set of
current records, enough incoming records are listed edits of them.
-/

namespace ZgChain.Committees

/-- The incoming record has the attributes of the current one, and only those the
requirement lists may have another value. -/
structure ListedEdit (req : SubparamRequirement) (current incoming : SubparamChanges) : Prop where
  names : ∀ n, current.has n = incoming.has n
  values : ∀ n, n ∉ req.allowedSubparamAttrChanges → current.get n = incoming.get n

/-- A listed edit for the requirement that is selected for the current record. -/
def AllowedParamsChange.Edit (allowed : AllowedParamsChange) (current incoming : SubparamChanges) :
    Prop :=
  ∃ req, allowed.requirementFor current = some req ∧ ListedEdit req current incoming

def PairedEdits (allowed : AllowedParamsChange) (cur inc : MultiSubparamChanges) : Prop :=
  ∃ σ : Fin cur.length ≃ Fin inc.length, ∀ i, allowed.Edit cur[i] inc[σ i]

/-! ## What the check compares -/

theorem validateParamChangesAreAllowed_iff (current incoming : SubparamChanges)
    (allowList : List String) :
    validateParamChangesAreAllowed current incoming allowList = true ↔
      current.entries.length = incoming.entries.length ∧
        ∀ n v, current.get n = some v → n ∈ allowList ∨ v = attr incoming n := by
  unfold validateParamChangesAreAllowed
  by_cases hl : current.entries.length = incoming.entries.length
  · simp [hl, Json.deepEqual_iff, KVStore.get_eq_some_iff]
  · simp [hl]

/-- The records have different sizes, or an attribute of the current one that is not
listed has another value in the incoming one, where a missing attribute counts as null. -/
def Differs (current incoming : SubparamChanges) (allowList : List String) : Prop :=
  current.entries.length ≠ incoming.entries.length ∨
    ∃ n v, current.get n = some v ∧ n ∉ allowList ∧ v ≠ attr incoming n

theorem validateParamChangesAreAllowed_eq_false_iff {current incoming : SubparamChanges}
    {allowList : List String} :
    validateParamChangesAreAllowed current incoming allowList = false ↔
    Differs current incoming allowList := by
  rw [Bool.eq_false_iff, ne_eq, validateParamChangesAreAllowed_iff]
  unfold Differs
  push Not
  rw [imp_iff_not_or]

/-- What a list of records is turned down for: its length, or a current record for
which no requirement is selected, no incoming record is found, or the first incoming
record found differs. -/
inductive Refused (allowed : AllowedParamsChange) (cur inc : MultiSubparamChanges) : Prop
  | length (h : cur.length ≠ inc.length)
  | noRequirement {current : SubparamChanges} (hc : current ∈ cur)
      (h : ∀ req ∈ allowed.multiSubparamsRequirements, current.get req.key ≠ some (.str req.val))
  | notFound {current : SubparamChanges} {req : SubparamRequirement} (hc : current ∈ cur)
      (hr : allowed.requirementFor current = some req)
      (h : ∀ incoming ∈ inc, incoming.get req.key ≠ some (.str req.val))
  | differs {current incoming : SubparamChanges} {req : SubparamRequirement} (hc : current ∈ cur)
      (hr : allowed.requirementFor current = some req) (hf : inc.find? req.selects = some incoming)
      (h : Differs current incoming req.allowedSubparamAttrChanges)

section
variable {allowed : AllowedParamsChange} {cur inc : MultiSubparamChanges}

theorem requirementFor_eq_none_iff {current : SubparamChanges} :
    allowed.requirementFor current = none ↔
    ∀ req ∈ allowed.multiSubparamsRequirements, current.get req.key ≠ some (.str req.val) := by
  simp [AllowedParamsChange.requirementFor, SubparamRequirement.selects]

theorem find?_selects_eq_none_iff {req : SubparamRequirement} : inc.find? req.selects = none ↔
    ∀ incoming ∈ inc, incoming.get req.key ≠ some (.str req.val) := by
  simp [SubparamRequirement.selects]

theorem Refused.rejected (h : Refused allowed cur inc) :
    allowed.allowsMultiParamsChange cur inc = false := by
  unfold AllowedParamsChange.allowsMultiParamsChange
  by_cases hl : cur.length = inc.length
  · rw [if_neg (not_not.mpr hl), List.all_eq_false]
    cases h with
    | length h => exact absurd hl h
    | noRequirement hc h => exact ⟨_, hc, by simp [requirementFor_eq_none_iff.mpr h]⟩
    | notFound hc hr h => exact ⟨_, hc, by simp [hr, find?_selects_eq_none_iff.mpr h]⟩
    | differs hc hr hf h =>
      exact ⟨_, hc, by simp [hr, hf, validateParamChangesAreAllowed_eq_false_iff.mpr h]⟩
  · rw [if_pos hl]

theorem refused_of_rejected (h : allowed.allowsMultiParamsChange cur inc = false) :
    Refused allowed cur inc := by
  unfold AllowedParamsChange.allowsMultiParamsChange at h
  by_cases hl : cur.length = inc.length
  · rw [if_neg (not_not.mpr hl), List.all_eq_false] at h
    obtain ⟨current, hc, h⟩ := h
    cases hr : allowed.requirementFor current with
    | none => exact .noRequirement hc (requirementFor_eq_none_iff.mp hr)
    | some req =>
      cases hf : inc.find? req.selects with
      | none => exact .notFound hc hr (find?_selects_eq_none_iff.mp hf)
      | some incoming =>
        simp only [hr, hf, Bool.not_eq_true] at h
        exact .differs hc hr hf (validateParamChangesAreAllowed_eq_false_iff.mp h)
  · exact .length hl

/-! ## Enough edits for a pairing -/

theorem has_eq_true_iff {r : SubparamChanges} {n : String} :
    r.has n = true ↔ ∃ v, (n, v) ∈ r.entries := by
  rw [KVStore.has, Option.isSome_iff_exists]
  exact exists_congr fun v => KVStore.get_eq_some_iff _ _ _

theorem listedEdit_iff {req : SubparamRequirement} {current incoming : SubparamChanges} :
    ListedEdit req current incoming ↔ (∀ e ∈ incoming.entries, current.has e.1 = true) ∧
      ∀ e ∈ current.entries, incoming.has e.1 = true ∧
        (e.1 ∉ req.allowedSubparamAttrChanges → incoming.get e.1 = some e.2) := by
  constructor
  · intro h
    refine ⟨fun e he => ?_, fun e he => ⟨?_, fun hn => ?_⟩⟩
    · rw [h.names]
      exact has_eq_true_iff.mpr ⟨e.2, he⟩
    · rw [← h.names]
      exact has_eq_true_iff.mpr ⟨e.2, he⟩
    · rw [← h.values e.1 hn]
      exact (KVStore.get_eq_some_iff _ _ _).mpr he
  · rintro ⟨hinc, hcur⟩
    have hnames : ∀ n, current.has n = incoming.has n := by
      intro n
      refine Bool.eq_iff_iff.mpr ⟨fun h => ?_, fun h => ?_⟩
      · obtain ⟨v, hv⟩ := has_eq_true_iff.mp h
        exact (hcur (n, v) hv).1
      · obtain ⟨v, hv⟩ := has_eq_true_iff.mp h
        exact hinc (n, v) hv
    refine ⟨hnames, fun n hn => ?_⟩
    cases hc : current.get n with
    | some v => exact ((hcur (n, v) ((KVStore.get_eq_some_iff _ _ _).mp hc)).2 hn).symm
    | none =>
      have hnone := hnames n
      rw [KVStore.has, hc, KVStore.has] at hnone
      exact (Option.not_isSome_iff_eq_none.mp (by simp [← hnone])).symm

instance (req : SubparamRequirement) (current incoming : SubparamChanges) :
    Decidable (ListedEdit req current incoming) := decidable_of_iff _ listedEdit_iff.symm

instance (allowed : AllowedParamsChange) (current incoming : SubparamChanges) :
    Decidable (allowed.Edit current incoming) :=
  inferInstanceAs (Decidable
    (∃ req ∈ allowed.requirementFor current, ListedEdit req current incoming))

/-- Every set of current records has at least as many incoming records that are
listed edits of one of them. -/
def EnoughEdits (allowed : AllowedParamsChange) (cur inc : MultiSubparamChanges) : Prop :=
  ∀ S : Finset (Fin cur.length),
    S.card ≤ (Finset.univ.filter fun j : Fin inc.length => ∃ i ∈ S, allowed.Edit cur[i] inc[j]).card

/-- A pairing is a choice of different incoming records, and there is one by the marriage
theorem. -/
theorem pairedEdits_iff (hl : cur.length = inc.length) :
    PairedEdits allowed cur inc ↔ EnoughEdits allowed cur inc := by
  have hhall : EnoughEdits allowed cur inc ↔
      ∃ f : Fin cur.length → Fin inc.length, Function.Injective f ∧
      ∀ i, allowed.Edit cur[i] inc[f i] := by
    unfold EnoughEdits
    convert Fintype.all_card_le_filter_rel_iff_exists_injective
      fun (i : Fin cur.length) (j : Fin inc.length) => allowed.Edit cur[i] inc[j]
  rw [hhall]
  constructor
  · intro ⟨σ, h⟩
    exact ⟨σ, σ.injective, h⟩
  · intro ⟨f, hf, h⟩
    have hb : Function.Bijective f :=
      (Fintype.bijective_iff_injective_and_card f).mpr ⟨hf, by simp [hl]⟩
    exact ⟨Equiv.ofBijective f hb, h⟩

/-! ## Counting edits -/

/-- No requirement lists an attribute that records are looked up by. -/
def AllowedParamsChange.LookupsFixed (allowed : AllowedParamsChange) : Prop :=
  ∀ req ∈ allowed.multiSubparamsRequirements, ∀ lookup ∈ allowed.multiSubparamsRequirements,
    lookup.key ∉ req.allowedSubparamAttrChanges

theorem requirementFor_mem {current : SubparamChanges} {req : SubparamRequirement}
    (h : allowed.requirementFor current = some req) : req ∈ allowed.multiSubparamsRequirements :=
  List.mem_of_find?_eq_some h

section
variable {a b c : SubparamChanges} (hf : allowed.LookupsFixed)
include hf

theorem AllowedParamsChange.LookupsFixed.requirementFor_eq (h : allowed.Edit a b) :
    allowed.requirementFor b = allowed.requirementFor a := by
  obtain ⟨req, hr, hedit⟩ := h
  unfold AllowedParamsChange.requirementFor
  refine List.find?_congr fun lookup hl => ?_
  rw [SubparamRequirement.selects, SubparamRequirement.selects,
    hedit.values _ (hf req (requirementFor_mem hr) lookup hl)]

theorem AllowedParamsChange.LookupsFixed.symm (h : allowed.Edit a b) : allowed.Edit b a := by
  have hb := hf.requirementFor_eq h
  obtain ⟨req, hr, hedit⟩ := h
  exact ⟨req, hb.trans hr, fun n => (hedit.names n).symm, fun n hn => (hedit.values n hn).symm⟩

theorem AllowedParamsChange.LookupsFixed.trans (h : allowed.Edit a b) (h' : allowed.Edit b c) :
    allowed.Edit a c := by
  have hb := hf.requirementFor_eq h
  obtain ⟨req, hr, hedit⟩ := h
  obtain ⟨req', hr', hedit'⟩ := h'
  rw [hb, hr] at hr'
  cases hr'
  exact ⟨req, hr, fun n => (hedit.names n).trans (hedit'.names n),
    fun n hn => (hedit.values n hn).trans (hedit'.values n hn)⟩

end

def editCount (allowed : AllowedParamsChange) (current : SubparamChanges)
    (records : MultiSubparamChanges) : Nat :=
  (Finset.univ.filter fun j : Fin records.length => allowed.Edit current records[j]).card

theorem editCount_le_of_enoughEdits (hf : allowed.LookupsFixed) (h : EnoughEdits allowed cur inc)
    (i : Fin cur.length) : editCount allowed cur[i] cur ≤ editCount allowed cur[i] inc := by
  refine (h _).trans (Finset.card_le_card fun j hj => ?_)
  simp only [Finset.mem_filter, Finset.mem_univ, true_and] at hj ⊢
  obtain ⟨k, hk, hj⟩ := hj
  exact hf.trans hk hj

theorem enoughEdits_of_editCount_le (hf : allowed.LookupsFixed)
    (hself : ∀ i : Fin cur.length, allowed.Edit cur[i] cur[i])
    (h : ∀ i : Fin cur.length, editCount allowed cur[i] cur ≤ editCount allowed cur[i] inc) :
    EnoughEdits allowed cur inc := by
  intro S
  induction S using Finset.strongInduction with
  | H S ih =>
    rcases S.eq_empty_or_nonempty with rfl | ⟨i, hi⟩
    · simp
    -- the edits of one record are counted, and the others have edits of their own
    let own := Finset.univ.filter fun j : Fin inc.length => allowed.Edit cur[i] inc[j]
    let rest := S.filter fun k => ¬ allowed.Edit cur[i] cur[k]
    have hrest : rest.card ≤
        (Finset.univ.filter fun j : Fin inc.length =>
          ∃ k ∈ rest, allowed.Edit cur[k] inc[j]).card :=
      ih rest (Finset.filter_ssubset.mpr ⟨i, hi, not_not.mpr (hself i)⟩)
    have hown : (S.filter fun k => allowed.Edit cur[i] cur[k]).card ≤ own.card :=
      (Finset.card_le_card (Finset.filter_subset_filter _ (Finset.subset_univ S))).trans (h i)
    have hdisjoint :
        Disjoint own (Finset.univ.filter fun j : Fin inc.length =>
          ∃ k ∈ rest, allowed.Edit cur[k] inc[j]) := by
      rw [Finset.disjoint_left]
      intro j hj hj'
      obtain ⟨k, hk, hkj⟩ := (Finset.mem_filter.mp hj').2
      exact (Finset.mem_filter.mp hk).2 (hf.trans (Finset.mem_filter.mp hj).2 (hf.symm hkj))
    calc S.card = (S.filter fun k => allowed.Edit cur[i] cur[k]).card + rest.card :=
          (Finset.card_filter_add_card_filter_not _).symm
      _ ≤ own.card + _ := Nat.add_le_add hown hrest
      _ = _ := (Finset.card_union_of_disjoint hdisjoint).symm
      _ ≤ _ := by
        refine Finset.card_le_card fun j hj => ?_
        rw [Finset.mem_filter]
        refine ⟨Finset.mem_univ j, ?_⟩
        rcases Finset.mem_union.mp hj with hj | hj
        · exact ⟨i, hi, (Finset.mem_filter.mp hj).2⟩
        · obtain ⟨k, hk, hkj⟩ := (Finset.mem_filter.mp hj).2
          exact ⟨k, (Finset.mem_filter.mp hk).1, hkj⟩

end

def record (fields : List (String × Json)) : SubparamChanges :=
  fields.foldl (fun r f => r.set f.1 f.2) KVStore.empty

def debtLimits : AllowedParamsChange where
  subspace := "cdp"
  key := "CollateralParams"
  singleSubparamAllowedAttrs := []
  multiSubparamsRequirements := [⟨"type", "bnb-a", ["debt_limit"]⟩]

def collateral (name : String) (n : Rat) : SubparamChanges :=
  record [("type", .str "bnb-a"), (name, .num n)]

example : debtLimits.allowsMultiParamsChange [collateral "debt_limit" 5]
      [collateral "debt_limit" 6] = true ∧
    editCount debtLimits (collateral "debt_limit" 5) [collateral "debt_limit" 5] = 1 ∧
    editCount debtLimits (collateral "debt_limit" 5) [collateral "debt_limit" 6] = 1 := by
      decide +kernel

def strayRecord : SubparamChanges := record [("type", .str "xrp-a"), ("denom", .num 1)]

theorem not_pairedEdits_of_stray {allowed : AllowedParamsChange} {cur inc : MultiSubparamChanges}
    {n : String}
    (hcur : ∀ i : Fin cur.length, cur[i].has n = false) {x : SubparamChanges} (hx : x ∈ inc)
    (hn : x.has n = true) :
    ¬ PairedEdits allowed cur inc := by
  intro ⟨σ, h⟩
  obtain ⟨j, hj, rfl⟩ := List.getElem_of_mem hx
  obtain ⟨i, hi⟩ := σ.surjective ⟨j, hj⟩
  obtain ⟨req, _, hedit⟩ := h i
  have hnames := hedit.names n
  rw [hcur i] at hnames
  simp only [hi, Fin.getElem_fin] at hnames
  rw [hn] at hnames
  cases hnames

end ZgChain.Committees
