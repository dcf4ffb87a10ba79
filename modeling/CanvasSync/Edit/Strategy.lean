import CanvasSync.Edit.Source
import CanvasSync.Line.Edit

/-!
Two ways to edit an element: by its line, or through the index of the markup.

The line is quick and works on broken files, but sees only what stands on it. The index sees tags
of several lines, but needs a module.
-/

namespace CanvasSync.Edit

open CanvasSync.Markup (Style)

/-- What to edit. -/
inductive Target where
  /-- The first element whose opening tag, or whose line, holds a text. -/
  | pattern (text : String)
  /-- The element marked with an id. -/
  | component (id : String)
  deriving DecidableEq, Repr

/-- How to edit. -/
inductive Strategy where
  | byLine
  | byIndex
  deriving DecidableEq, Repr

/-- The name of a strategy. -/
def Strategy.name : Strategy → String
  | .byLine => "line"
  | .byIndex => "ast"

/-- The text that a target is looked for by: for a component, its marker as it is written. -/
def Target.searchText (style : Style) : Target → String
  | .pattern text => text
  | .component id => style.marker ++ "=\"" ++ id ++ "\""

/-- The line of a target. A component is found by its marker alone. -/
def Target.line? (source : Text) (style : Style) (t : Target) : Option Line.Located :=
  match t with
  | .pattern text => Line.locate? source text.toList
  | .component _ => Line.locateExact? source (t.searchText style).toList

/-- The node of a target. -/
def Target.index? (d : Markup.Document) (source : Text) (style : Style) : Target → Option Nat
  | .pattern text => d.findByPattern? source text.toList
  | .component id => d.findByAttribute? style.marker id

/-- Updates of an element as props: classes and text stand for the props that hold them. -/
def propsOfUpdates (u : Line.Updates) : Json.Fields :=
  let props := match u.className with
    | some c =>
      Json.Fields.insert "className" (.string (String.ofList (Text.trim c.toList))) u.props
    | none => u.props
  match u.text with
  | some t => Json.Fields.insert "children" (.string t) props
  | none => props

/-- A source with an element edited. -/
def Strategy.apply (s : Strategy) (source : Text) (target : Target) (u : Line.Updates)
    (style : Style) : Except Fault Text :=
  let pattern := target.searchText style
  match s with
  | .byLine =>
    match target.line? source style with
    | none => .error (.noMatch pattern)
    | some _ => .ok (Line.updateFile source pattern.toList u)
  | .byIndex => do
    let d ← document source
    match target.index? d source style with
    | none => .error (.noMatch pattern)
    | some i => patch source d i (propsOfUpdates u) style

end CanvasSync.Edit
