import ZgChain.Committees.Types

/-!
# What a committee's permissions allow

A change of a parameter may be restricted to some attributes of its value: of the
single record, or of the records of a list, each of which is matched with a
requirement and with an incoming record by the value of one attribute.
-/

namespace ZgChain.Committees

/-! ## Records -/

/-- The value of an attribute; an absent attribute has the value nil. -/
def attr (r : SubparamChanges) (name : String) : Json := (r.get name).getD .null

def SubparamRequirement.selects (req : SubparamRequirement) (r : SubparamChanges) : Bool :=
  decide (r.get req.key = some (.str req.val))

def validateParamChangesAreAllowed (current incoming : SubparamChanges) (allowList : List String) :
    Bool :=
  if current.entries.length ≠ incoming.entries.length then false
  else current.entries.all fun e => allowList.contains e.1 || e.2.deepEqual (attr incoming e.1)

def AllowedParamsChange.requirementFor (allowed : AllowedParamsChange) (current : SubparamChanges) :
    Option SubparamRequirement :=
  allowed.multiSubparamsRequirements.find? fun req => req.selects current

def AllowedParamsChange.allowsMultiParamsChange (allowed : AllowedParamsChange)
    (currentRecords incomingRecords : MultiSubparamChanges) : Bool :=
  if currentRecords.length ≠ incomingRecords.length then false
  else currentRecords.all fun current =>
    match allowed.requirementFor current with
    | none => false
    | some req =>
      match incomingRecords.find? req.selects with
      | none => false
      | some incoming =>
        validateParamChangesAreAllowed current incoming req.allowedSubparamAttrChanges

def AllowedParamsChange.allowsSingleParamsChange (allowed : AllowedParamsChange)
    (current incoming : SubparamChanges) : Bool :=
  validateParamChangesAreAllowed current incoming allowed.singleSubparamAllowedAttrs

/-! ## Proposals -/

section
variable {R : Type} (env : Env R) (r : R)

def AllowedParamsChange.allowsParamChange (allowed : AllowedParamsChange) (change : ParamChange) :
    Except Panic Bool :=
  -- the source joins the two inequalities by "and", not by "or"
  if allowed.subspace ≠ change.subspace ∧ allowed.key ≠ change.key then .ok false
  else if allowed.singleSubparamAllowedAttrs = [] ∧ allowed.multiSubparamsRequirements =
    [] then .ok true
  else match env.getSubspace change.subspace with
    | none => .ok false
    | some getRaw =>
      let currentRaw := getRaw r change.key
      if (currentRaw.map Json.isArray).getD false then
        match change.value.bind Json.toRecords? with
        | none => .ok false
        | some changeValue =>
          -- the current value is decoded last, and a failure to decode it panics
          match currentRaw.bind Json.toRecords? with
          | none => .error .decode
          | some currentValue => .ok (allowed.allowsMultiParamsChange currentValue changeValue)
      else
        match change.value.bind Json.toRecord? with
        | none => .ok false
        | some changeValue =>
          match currentRaw.bind Json.toRecord? with
          | none => .error .decode
          | some currentValue => .ok (allowed.allowsSingleParamsChange currentValue changeValue)

def filterByParamChange (changes : List AllowedParamsChange) (change : ParamChange) :
    List AllowedParamsChange :=
  changes.filter fun p => decide (change.subspace = p.subspace ∧ change.key = p.key)

def Permission.allows (perm : Permission) (p : Option PubProposal) : Except Panic Bool :=
  match perm, p with
  | .god, _ => .ok true
  | .text, some (.text ..) => .ok true
  | .softwareUpgrade, some (.softwareUpgrade ..) => .ok true
  | .paramsChange allowedParamsChanges, some (.parameterChange _ _ changes) =>
    changes.allM fun change =>
      (filterByParamChange allowedParamsChanges change).anyM
        fun pc => pc.allowsParamChange env r change
  | _, _ => .ok false

def Committee.hasPermissionsFor (c : Committee) (p : Option PubProposal) : Except Panic Bool :=
  c.permissions.anyM fun perm => perm.allows env r p

end

end ZgChain.Committees
