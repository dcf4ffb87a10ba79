import CanvasSync.Component.Basic
import CanvasSync.Json.Writer

/-!
Components as markup.

A component is written as an element whose first attribute marks it with its id; the marker is never
taken from the props. Text content is the prop `children` of a component without components within.

* `attributeText`: a prop as an attribute;
* `contentText`: a text between tags;
* `render`: a component at a depth of indentation;
* `renderAll`: several components, in a fragment if they are more than one.
-/

namespace CanvasSync.Markup

/-- How markup is laid out and how components are marked. -/
structure Style where
  indent : String
  marker : String
  deriving DecidableEq, Repr

/-- Two spaces, and a data attribute. -/
def Style.standard : Style := ⟨"  ", "data-component-id"⟩

/-- A prop as an attribute: a string without quotes within stands in quotes, `true` is the name
alone, and all else is JSON in braces. -/
def attributeText (key : String) (value : Json.Value) : Text :=
  let inBraces := key.toList ++ ['=', '\x7b'] ++ value.text ++ ['\x7d']
  match value with
  | .string s =>
    if s.toList.contains '"' then inBraces else key.toList ++ ['=', '"'] ++ s.toList ++ ['"']
  | .bool true => key.toList
  | _ => inBraces

/-- Whether a character cannot stand in text between tags. -/
def needsBraces (c : Char) : Bool := c = '\x7b' || c = '\x7d' || c = '<' || c = '>'

/-- A text between tags: as it is, or as a string in braces if a character of it needs them. -/
def contentText (t : Text) : Text :=
  if t.any needsBraces then '\x7b' :: Json.quote t ++ ['\x7d'] else t

/-- A text repeated. -/
def repeated (t : Text) : Nat → Text
  | 0 => []
  | n + 1 => t ++ repeated t n

/-- The attributes of a component, each with a space before it: the marker, then the props that are
neither the marker nor written as content. -/
def attributesText (style : Style) (id : String) (props : Json.Fields) (asContent : Bool) : Text :=
  [' '] ++ style.marker.toList ++ ['=', '"'] ++ id.toList ++ ['"']
    ++ (props.filter fun (key, _) => !(key = "children" && asContent) && key ≠ style.marker).flatMap
      fun (key, value) => ' ' :: attributeText key value

mutual
/-- A component as markup, its lines indented `depth` times. -/
def render (style : Style) (depth : Nat) : Component → Text
  | ⟨id, tag, name, props, children, position⟩ =>
    let pad := repeated style.indent.toList depth
    let text := Component.text? ⟨id, tag, name, props, children, position⟩
    let front := pad ++ '<' :: tag.toList
    let close := ['<', '/'] ++ tag.toList ++ ['>']
    match children with
    | [] =>
      front ++ attributesText style id props text.isSome
        ++ match text with
          | some t => '>' :: contentText t.toList ++ close
          | none => " />".toList
    | c :: cs =>
      front ++ attributesText style id props true
        ++ ['>', '\n'] ++ renderLines style (depth + 1) (c :: cs) ++ ['\n'] ++ pad ++ close

/-- Components as markup with line feeds between them. -/
def renderLines (style : Style) (depth : Nat) : List Component → Text
  | [] => []
  | [c] => render style depth c
  | c :: d :: cs => render style depth c ++ '\n' :: renderLines style depth (d :: cs)
end

/-- Components as markup; several stand in a fragment. -/
def renderAll (style : Style) : List Component → Text
  | [] => []
  | [c] => render style 0 c
  | cs => ['<', '>', '\n'] ++ renderLines style 1 cs ++ ['\n', '<', '/', '>']

end CanvasSync.Markup
