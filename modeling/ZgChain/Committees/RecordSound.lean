import ZgChain.Committees.PermissionSound

/-!
# Edits of a single record

The check of a single record ranges over the attributes of the current record, in
no fixed order, after it compared the sizes of the two records. A listed attribute
is passed over and a missing one counts as null, so either may be exchanged for an
attribute of another name.
-/

namespace ZgChain.Committees

/-- The loop over the attributes of the current record, in the order they are ranged over. -/
def rangeAllowed (incoming : SubparamChanges) (allowList : List String) :
    List (String × Json) → Bool
  | [] => true
  | (k, v) :: rest =>
    if allowList.contains k = false ∧ v.deepEqual (attr incoming k) = false then false
    else rangeAllowed incoming allowList rest

def validateParamChangesInOrder (order : List (String × Json)) (current incoming : SubparamChanges)
    (allowList : List String) : Bool :=
  if current.entries.length ≠ incoming.entries.length then false
  else rangeAllowed incoming allowList order

section
variable {current incoming : SubparamChanges} {allowList : List String}

theorem rangeAllowed_eq_all (order : List (String × Json)) : rangeAllowed incoming allowList order =
    order.all fun e => allowList.contains e.1 || e.2.deepEqual (attr incoming e.1) := by
  induction order with
  | nil => rfl
  | cons e rest ih =>
    obtain ⟨k, v⟩ := e
    rw [rangeAllowed, List.all_cons, ih]
    generalize allowList.contains k = listed
    generalize v.deepEqual (attr incoming k) = equal
    cases listed <;> cases equal <;> rfl

/-- Ranging over the attributes in another order gives the same result. -/
theorem validateParamChangesInOrder_eq {order : List (String × Json)}
    (h : order.Perm current.entries) :
    validateParamChangesInOrder order current incoming allowList =
      validateParamChangesAreAllowed current incoming allowList := by
  unfold validateParamChangesInOrder validateParamChangesAreAllowed
  rw [rangeAllowed_eq_all, h.all_eq]

/-- Each listed attribute and each null one of the current record is an attribute of the
incoming one. -/
def KeepsNames (current incoming : SubparamChanges) (allowList : List String) : Prop :=
  ∀ n v, current.get n = some v → n ∈ allowList ∨ v = .null → incoming.has n = true

section
variable (hok : validateParamChangesAreAllowed current incoming allowList = true)
include hok

theorem has_of_keepsNames (hk : KeepsNames current incoming allowList) (n : String) :
    current.has n = incoming.has n := by
  obtain ⟨hlen, hval⟩ := (validateParamChangesAreAllowed_iff current incoming allowList).mp hok
  suffices hsub : ∀ n, current.has n = true → incoming.has n = true from
    Bool.eq_iff_iff.mpr ⟨hsub n, KVStore.has_of_length hsub hlen⟩
  intro n hn
  obtain ⟨v, hv⟩ := Option.isSome_iff_exists.mp hn
  rcases hval n v hv with hl | rfl
  · exact hk n v hv (.inl hl)
  · -- an attribute that is neither listed nor missing has its value in the incoming record
    by_cases hnull : attr incoming n = .null
    · exact hk n _ hv (.inr hnull)
    · unfold attr at hnull
      cases hi : incoming.get n with
      | none =>
        rw [hi] at hnull
        exact absurd rfl hnull
      | some w =>
        unfold KVStore.has
        rw [hi]
        rfl

theorem get_of_keepsNames (hk : KeepsNames current incoming allowList) {n : String}
    (hn : n ∉ allowList) :
    current.get n = incoming.get n := by
  have hhas := has_of_keepsNames hok hk n
  unfold KVStore.has at hhas
  cases hc : current.get n with
  | none =>
    rw [hc] at hhas
    exact (Option.not_isSome_iff_eq_none.mp (by simp [← hhas])).symm
  | some v =>
    rw [hc] at hhas
    obtain ⟨w, hw⟩ := Option.isSome_iff_exists.mp hhas.symm
    rcases ((validateParamChangesAreAllowed_iff current incoming allowList).mp hok).2 n v hc
      with hl | he
    · exact absurd hl hn
    · rw [he, attr, hw]
      rfl

end

end

/-- The check admits edits of listed attributes only, in whatever order it ranges over
the current record, exactly if the records differ in what it compares or the names it
does not look for are kept. -/
theorem record_edits_listed_iff (current incoming : SubparamChanges) (allowList : List String) :
    ((validateParamChangesAreAllowed current incoming allowList = true →
        (∀ n, current.has n = incoming.has n) ∧ ∀ n, n ∉ allowList →
        current.get n = incoming.get n) ∧
      ∀ order : List (String × Json), order.Perm current.entries →
        validateParamChangesInOrder order current incoming allowList =
          validateParamChangesAreAllowed current incoming allowList) ↔
    (Differs current incoming allowList ∨ KeepsNames current incoming allowList) := by
  constructor
  · intro h
    by_cases hok : validateParamChangesAreAllowed current incoming allowList = true
    · refine .inr fun n v hv _ => ?_
      rw [← (h.1 hok).1 n, KVStore.has, hv]
      rfl
    · exact .inl (validateParamChangesAreAllowed_eq_false_iff.mp (Bool.eq_false_iff.mpr hok))
  · intro h
    refine ⟨fun hok => ?_, fun order hp => validateParamChangesInOrder_eq hp⟩
    rcases h with hdiffers | hk
    · rw [validateParamChangesAreAllowed_eq_false_iff.mpr hdiffers] at hok
      cases hok
    · exact ⟨has_of_keepsNames hok hk, fun n hn => get_of_keepsNames hok hk hn⟩

/-- The debt limit may change; it is dropped for an attribute of another name. -/
theorem listed_attribute_exchanged :
    validateParamChangesAreAllowed (collateral "debt_limit" 5) (collateral "denom" 7)
      ["debt_limit"] = true ∧
      (collateral "debt_limit" 5).has "debt_limit" = true ∧
      (collateral "denom" 7).has "debt_limit" = false ∧
      (collateral "debt_limit" 5).get "denom" ≠ (collateral "denom" 7).get "denom" := by
  decide +kernel

end ZgChain.Committees
