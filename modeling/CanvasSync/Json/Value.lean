import CanvasSync.Number.Decimal

/-!
JSON values.

* `Number`: whole numbers of 64 bits, and doubles;
* `Value`: the values, objects keeping their members in order of key;
* `Fields`: members in strictly rising order of key, with look-up, insertion and removal.
-/

namespace CanvasSync.Json

/-- A JSON number: a whole number that fits 64 bits, signed or unsigned, or a double. -/
inductive Number where
  | whole (value : Int)
  | double (value : CanvasSync.Number.Binary)
  deriving DecidableEq, Repr, Inhabited

/-- A JSON value. -/
inductive Value where
  | null
  | bool (value : Bool)
  | number (value : Number)
  | string (value : String)
  | array (items : List Value)
  | object (members : List (String × Value))
  deriving Repr, Inhabited

/-- Members of an object, in strictly rising order of key when built by `Fields.insert`. -/
abbrev Fields := List (String × Value)

namespace Fields

/-- The value under a key. -/
def get? (key : String) : Fields → Option Value
  | [] => none
  | (k, v) :: rest => if k = key then some v else get? key rest

/-- The members with one value set, in its place by key. -/
def insert (key : String) (value : Value) : Fields → Fields
  | [] => [(key, value)]
  | (k, v) :: rest =>
    if k = key then (key, value) :: rest
    else if key < k then (key, value) :: (k, v) :: rest
    else (k, v) :: insert key value rest

/-- The members without a key. -/
def erase (key : String) (fields : Fields) : Fields := fields.filter fun (k, _) => k ≠ key

/-- Members in order of key; of several with one key the last one stays. -/
def ofList (members : List (String × Value)) : Fields :=
  members.foldl (fun fields (k, v) => insert k v fields) []

end Fields

namespace Value

mutual
/-- The value with the members of every object in order of key, the last of equal keys kept. -/
def sorted : Value → Value
  | .array items => .array (sortedItems items)
  | .object members => .object (Fields.ofList (sortedMembers members))
  | v => v

/-- `sorted` on each item. -/
def sortedItems : List Value → List Value
  | [] => []
  | v :: vs => sorted v :: sortedItems vs

/-- `sorted` on each member. -/
def sortedMembers : List (String × Value) → List (String × Value)
  | [] => []
  | (k, v) :: rest => (k, sorted v) :: sortedMembers rest
end

/-- A whole number. -/
def ofNat (n : Nat) : Value := .number (.whole n)

/-- An object from members in any order. -/
def ofMembers (members : List (String × Value)) : Value := .object (Fields.ofList members)

/-- The value under a key, for an object that has it. -/
def get? (key : String) : Value → Option Value
  | .object members => Fields.get? key members
  | _ => none

/-- Whether the value is `null`. -/
def isNull : Value → Bool
  | .null => true
  | _ => false

end Value

end CanvasSync.Json
