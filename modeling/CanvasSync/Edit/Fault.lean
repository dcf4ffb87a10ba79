/-!
Why an edit of a source fails.
-/

namespace CanvasSync.Edit

/-- Why an edit of a source fails. -/
inductive Fault where
  /-- The source is no module. -/
  | noModule
  /-- The module has no markup. -/
  | noMarkup
  /-- There is no node under child numbers. -/
  | noChild (path : List Nat)
  /-- No element matches a text. -/
  | noMatch (pattern : String)
  /-- No element is marked with an id. -/
  | noComponent (id : String)
  /-- Text cannot take the place of the elements within an element. -/
  | hasElements (tag : String)
  deriving DecidableEq, Repr

/-- Child numbers in brackets. -/
def pathText (path : List Nat) : String :=
  "[" ++ String.intercalate ", " (path.map toString) ++ "]"

/-- The wording of a fault; a source that is no module is described by whoever reads modules. -/
def Fault.message : Fault → String
  | .noModule => "parse error"
  | .noMarkup => "target not found: module contains no JSX"
  | .noChild path => "target not found: child path " ++ pathText path
  | .noMatch pattern => "target not found: " ++ pattern
  | .noComponent id => "component " ++ id ++ " not found in source"
  | .hasElements tag =>
    "unsupported edit: <" ++ tag ++ "> has element children; text content cannot replace them"

end CanvasSync.Edit
