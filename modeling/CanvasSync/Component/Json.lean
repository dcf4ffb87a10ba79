import CanvasSync.Component.Update

/-!
Components, places and updates as JSON.

Reading takes a record and gives nothing if a field is missing that has no default or is of the
wrong shape. Writing leaves out an empty list of children.
-/

namespace CanvasSync

open Json (Value)

/-- A number of 32 bits. -/
def single? : Value → Option Number.Binary
  | .number (.whole i) => some (Number.Format.single.ofInt i)
  | .number (.double x) => some (Number.Format.single.ofBinary x)
  | _ => none

/-- A number of 32 bits as a double. -/
def ofSingle (x : Number.Binary) : Value := .number (.double (Number.Format.double.ofBinary x))

namespace Position

/-- A place from a record. -/
def ofJson? (v : Value) : Option Position := do
  match ← v.record? ["x", "y", "width", "height"] with
  | [x, y, width, height] =>
    let x ← Json.required? single? x
    let y ← Json.required? single? y
    let width ← Json.required? single? width
    let height ← Json.required? single? height
    some ⟨x, y, width, height⟩
  | _ => none

/-- A place as an object. -/
def toJson (p : Position) : Value :=
  .ofMembers
    [("x", ofSingle p.x), ("y", ofSingle p.y), ("width", ofSingle p.width),
     ("height", ofSingle p.height)]

end Position

namespace Component

/-- A component from a record, within `depth` levels of nesting. -/
def ofJsonWithin? : (depth : Nat) → Value → Option Component
  | 0, _ => none
  | depth + 1, v => do
    match ← v.record? ["id", "type", "name", "props", "children", "position"] with
    | [id, tag, name, props, children, position] =>
      let id ← Json.required? Value.string? id
      let tag ← Json.required? Value.string? tag
      let name ← Json.required? Value.string? name
      let props ← Json.defaulting? [] Value.fields? props
      let children ← Json.defaulting? [] (Value.list? (ofJsonWithin? depth)) children
      let position ← Json.defaulting? .origin Position.ofJson? position
      some ⟨id, tag, name, props, children, position⟩
    | _ => none

/-- A component from a record. JSON text nests less deep than the bound. -/
def ofJson? (v : Value) : Option Component := ofJsonWithin? 128 v

mutual
/-- A component as an object. -/
def toJson : Component → Value
  | ⟨id, tag, name, props, children, position⟩ =>
    .ofMembers
      ([("id", .string id), ("type", .string tag), ("name", .string name),
        ("props", .object props), ("position", position.toJson)]
        ++ (if children.isEmpty then [] else [("children", .array (toJsonAll children))]))

/-- Components as objects. -/
def toJsonAll : List Component → List Value
  | [] => []
  | c :: cs => toJson c :: toJsonAll cs
end

end Component

namespace Update

/-- An update from a record; all fields may be left out or `null`. -/
def ofJson? (v : Value) : Option Update := do
  match ← v.record? ["name", "props", "position", "children"] with
  | [name, props, position, children] =>
    let name ← Json.defaulting? none (Value.optional? Value.string?) name
    let props ← Json.defaulting? none (Value.optional? Value.fields?) props
    let position ← Json.defaulting? none (Value.optional? Position.ofJson?) position
    let children ←
      Json.defaulting? none (Value.optional? (Value.list? Component.ofJson?)) children
    some ⟨name, props, position, children⟩
  | _ => none

end Update

end CanvasSync
