import ZgChain.Lib.KVStore

/-!
# JSON values

A value as it is decoded without a schema. A number is the value of the float it
is rounded to, and the fields of an object are in ascending order of their names,
each name once, so that values are equal if they are deeply equal.
-/

namespace ZgChain

inductive Json where
  | null
  | bool (b : Bool)
  | num (q : Rat)
  | str (s : String)
  | arr (elems : List Json)
  | obj (fields : List (String × Json))

namespace Json

mutual
def deepEqual : Json → Json → Bool
  | .null, .null => true
  | .bool a, .bool b => a == b
  | .num a, .num b => decide (a = b)
  | .str a, .str b => a == b
  | .arr a, .arr b => deepEquals a b
  | .obj a, .obj b => deepEqualFields a b
  | _, _ => false
def deepEquals : List Json → List Json → Bool
  | [], [] => true
  | a :: as, b :: bs => deepEqual a b && deepEquals as bs
  | _, _ => false
def deepEqualFields : List (String × Json) → List (String × Json) → Bool
  | [], [] => true
  | (k, a) :: as, (l, b) :: bs => k == l && deepEqual a b && deepEqualFields as bs
  | _, _ => false
end

mutual
theorem deepEqual_iff : ∀ a b : Json, deepEqual a b = true ↔ a = b
  | .null, b => by cases b <;> simp [deepEqual]
  | .bool _, b => by cases b <;> simp [deepEqual]
  | .num _, b => by cases b <;> simp [deepEqual]
  | .str _, b => by cases b <;> simp [deepEqual]
  | .arr as, b => by
    cases b with
    | arr bs => simp [deepEqual, deepEquals_iff as bs]
    | _ => simp [deepEqual]
  | .obj as, b => by
    cases b with
    | obj bs => simp [deepEqual, deepEqualFields_iff as bs]
    | _ => simp [deepEqual]
theorem deepEquals_iff : ∀ as bs : List Json, deepEquals as bs = true ↔ as = bs
  | [], bs => by cases bs <;> simp [deepEquals]
  | a :: as, bs => by
    cases bs with
    | nil => simp [deepEquals]
    | cons b bs => simp [deepEquals, deepEqual_iff a b, deepEquals_iff as bs]
theorem deepEqualFields_iff : ∀ as bs : List (String × Json), deepEqualFields as bs = true ↔ as = bs
  | [], bs => by cases bs <;> simp [deepEqualFields]
  | (k, a) :: as, bs => by
    cases bs with
    | nil => simp [deepEqualFields]
    | cons b bs =>
      simp [deepEqualFields, Prod.ext_iff, deepEqual_iff a b.2, deepEqualFields_iff as bs]
end

instance : DecidableEq Json := fun a b => decidable_of_iff _ (deepEqual_iff a b)

/-- The record an object decodes to. A null decodes to a record without fields. -/
def toRecord? : Json → Option (KVStore String Json)
  | .null => some KVStore.empty
  | .obj fields => some (fields.foldl (fun r f => r.set f.1 f.2) KVStore.empty)
  | _ => none

def toRecords? : Json → Option (List (KVStore String Json))
  | .null => some []
  | .arr elems => elems.mapM toRecord?
  | _ => none

def isArray : Json → Bool
  | .arr _ => true
  | _ => false

end Json

end ZgChain
