import CanvasSync.Json.Value

/-!
Records in JSON: an object whose members have known names, or an array with the fields in the order
of those names. Unknown members are passed over, and fields at the end of an array may be left out.

The readers of values that records are made of stand here too; each gives nothing for a value of
another shape.
-/

namespace CanvasSync.Json

namespace Value

/-- A string. -/
def string? : Value → Option String
  | .string s => some s
  | _ => none

/-- A truth value. -/
def bool? : Value → Option Bool
  | .bool b => some b
  | _ => none

/-- A natural below a bound. -/
def natBelow? (bound : Nat) : Value → Option Nat
  | .number (.whole i) => if 0 ≤ i ∧ i.toNat < bound then some i.toNat else none
  | _ => none

/-- A list whose items are of one shape. -/
def list? {α : Type} (item : Value → Option α) : Value → Option (List α)
  | .array items => items.mapM item
  | _ => none

/-- The members of an object. -/
def fields? : Value → Option Fields
  | .object members => some members
  | _ => none

/-- A value that may be `null`. -/
def optional? {α : Type} (item : Value → Option α) : Value → Option (Option α)
  | .null => some none
  | v => (item v).map some

/-- The fields of a record, in the order of their names. -/
def record? (names : List String) : Value → Option (List (Option Value))
  | .object members => some (names.map fun n => Fields.get? n members)
  | .array items =>
    if names.length < items.length then none
    else some (items.map some ++ List.replicate (names.length - items.length) none)
  | _ => none

end Value

/-- A field that must be there. -/
def required? {α : Type} (read : Value → Option α) : Option Value → Option α
  | some v => read v
  | none => none

/-- A field that has a value also when it is left out. -/
def defaulting? {α : Type} (fallback : α) (read : Value → Option α) : Option Value → Option α
  | some v => read v
  | none => some fallback

end CanvasSync.Json
