import CanvasSync.Component.Basic
import CanvasSync.Json.Reader
import CanvasSync.Markup.Document
import CanvasSync.Markup.Printer

/-!
Components from markup.

An element counts as a component if it is marked. Its parent is the nearest marked element around
it, whatever stands between. Attributes that are strings, bare names or JSON become props, other
expressions are passed over; text content becomes the prop `children`.
-/

namespace CanvasSync.Markup

/-- The value of a prop from an attribute; nothing for an expression that is no JSON. -/
def propValue? : AttributeValue → Option Json.Value
  | .bare => some (.bool true)
  | .quoted s => some (.string s)
  | .expression e => Json.parse? e.toList

/-- The props of an element. Of attributes of one name the last one counts; text content counts
after all attributes. -/
def propsOf (marker : String) (n : Node) : Json.Fields :=
  let attributes := n.attributes.filter fun a => a.name ≠ marker
  let fields := attributes.filterMap fun a => (propValue? a.value).map fun v => (a.name, v)
  let content := n.text.toList.map fun t => ("children", Json.Value.string t)
  Json.Fields.ofList (fields ++ content)

namespace Document

/-- Whether an entry is marked as a component. -/
def isMarked (marker : String) (e : Entry) : Bool := (e.node.quoted? marker).isSome

/-- The marked entries in order, each with its nearest marked entry around. -/
def links (d : Document) (marker : String) : List (Nat × Option Nat) :=
  (d.indicesWhere (isMarked marker)).map fun i => (i, d.ancestorWhere? i (isMarked marker))

/-- The marked entries whose nearest marked entry around is `parent`. -/
def linkedTo (links : List (Nat × Option Nat)) (parent : Option Nat) : List Nat :=
  (links.filter fun (_, p) => p = parent).map (·.1)

/-- The component of a marked entry, with at most `depth` levels of components within. -/
def component (d : Document) (marker : String) (links : List (Nat × Option Nat)) :
    (depth : Nat) → Nat → Component
  | depth, i =>
    let node := ((d.entries[i]?).map Entry.node).getD default
    let base := Component.ofTag ((node.quoted? marker).getD "") node.tag
    { base with
      props := propsOf marker node
      children := match depth with
        | 0 => []
        | depth + 1 => (linkedTo links (some i)).map (component d marker links depth) }

/-- The components of a script, those within others left to them. -/
def components (d : Document) (marker : String) : List Component :=
  let links := d.links marker
  (linkedTo links none).map (d.component marker links d.entries.length)

end Document

end CanvasSync.Markup
