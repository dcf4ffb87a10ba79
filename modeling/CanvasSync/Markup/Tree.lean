import CanvasSync.Text.Basic

/-!
Markup as it stands in a script: trees of elements and fragments.

* `Node`: one element or fragment with its spans, its attributes and its text;
* `Place`: where a nested node stands in the one around it;
* `Tree`: a node with the nodes nested in it, in the order of the text.
-/

namespace CanvasSync.Markup

/-- The value of an attribute as written. -/
inductive AttributeValue where
  /-- The name alone. -/
  | bare
  /-- A string, without its quotes. -/
  | quoted (value : String)
  /-- An expression without its braces, or an element. -/
  | expression (source : String)
  deriving DecidableEq, Repr, Inhabited

/-- An attribute with its span, from its name to the end of its value. -/
structure Attribute where
  name : String
  span : Span
  value : AttributeValue
  deriving DecidableEq, Repr, Inhabited

/-- One element or fragment. -/
structure Node where
  /-- Whether it is a fragment, which has neither a tag nor attributes. -/
  isFragment : Bool
  /-- The tag as written. -/
  tag : String
  span : Span
  opening : Span
  /-- The closing tag, if there is one. -/
  closing : Option Span
  /-- The attributes with names, in order. -/
  attributes : List Attribute
  /-- The text of the content, if it is text alone and not blank. -/
  text : Option String
  deriving DecidableEq, Repr, Inhabited

/-- Where a nested node stands: right in the content, in an expression within the content, or in
the opening tag. -/
inductive Place where
  | content
  | expression
  | opening
  deriving DecidableEq, Repr

/-- A node with the nodes nested in it. -/
inductive Tree where
  | node (node : Node) (children : List (Place × Tree))
  deriving Repr, Inhabited

/-- What a script holds of markup: its outermost nodes in order, and the span of its first default
export. -/
structure Script where
  forest : List Tree
  defaultExport : Option Span
  deriving Repr, Inhabited

namespace Node

/-- The first attribute of a name. -/
def attribute? (n : Node) (name : String) : Option Attribute :=
  n.attributes.find? fun a => a.name = name

/-- The value of the first attribute of a name, if that is a string. -/
def quoted? (n : Node) (name : String) : Option String :=
  match n.attribute? name with
  | some ⟨_, _, .quoted s⟩ => some s
  | _ => none

/-- Whether the node has no closing tag. -/
def selfClosing (n : Node) : Bool := n.closing.isNone

end Node

end CanvasSync.Markup
