import CanvasSync.Component.Basic

/-!
Partial updates of components.

An update leaves alone what it does not name. Its props are merged one by one, and `null` takes a
prop away. Only props reach the markup.
-/

namespace CanvasSync

/-- What is to change about a component. -/
structure Update where
  name : Option String
  props : Option Json.Fields
  position : Option Position
  children : Option (List Component)
  deriving Repr, Inhabited

namespace Update

/-- An update of props alone. -/
def ofProps (props : Json.Fields) : Update := ⟨none, some props, none, none⟩

/-- Whether the update changes what is written in the source. -/
def touchesSource (u : Update) : Bool := u.props.any fun p => !p.isEmpty

/-- The props with one prop set, or taken away by `null`. -/
def mergeProp (props : Json.Fields) (key : String) (value : Json.Value) : Json.Fields :=
  if value.isNull then Json.Fields.erase key props else Json.Fields.insert key value props

/-- The props with others merged into them. -/
def mergeProps (props changes : Json.Fields) : Json.Fields :=
  changes.foldl (fun props (key, value) => mergeProp props key value) props

/-- The component with the update applied. -/
def apply (u : Update) (c : Component) : Component :=
  { c with
    name := u.name.getD c.name
    props := match u.props with
      | some changes => mergeProps c.props changes
      | none => c.props
    position := u.position.getD c.position
    children := u.children.getD c.children }

end Update

end CanvasSync
