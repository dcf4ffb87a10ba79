import CanvasSync.Script.Grammar.Expressions
import CanvasSync.Text.Blank

/-!
Elements and fragments.

Text between tags, and attribute values in quotes, are taken as they stand. The nodes that a script
nests in a node are kept with the place where they stand: in its opening tag, right in its content,
or in an expression there.
-/

namespace CanvasSync.Script.Grammar

open Reader
open CanvasSync.Markup (Node Attribute AttributeValue Place Tree)

/-- A part of the content of a node, as far as its text goes. -/
inductive Piece where
  /-- Text, or a string literal in braces. -/
  | text (value : Text)
  /-- Anything else. -/
  | other

/-- The text of a content: its pieces together, trimmed, if all are text and not all is blank. -/
def contentText (pieces : List Piece) : Option String :=
  let texts := pieces.mapM fun p =>
    match p with
    | .text t => some t
    | .other => none
  match texts with
  | some ts =>
    let t := Text.trim ts.flatten
    if t = [] then none else some (String.ofList t)
  | none => none

/-- The text from the token at hand on. -/
def remaining : Reader Text := do return (← state).here.rest

/-- A name of an element or an attribute, which may hold hyphens. -/
def markupName : Reader Unit := do
  need (← token).isAnyWord
  change fun s =>
    let c := s.after.dropWhile fun x => Character.isNamePart x || x = '-'
    { s with token := { s.token with span := ⟨s.token.span.start, c.offset⟩ }, after := c }
  advance

/-- The text of the token at hand. -/
def tokenText : Reader Text := do
  let s ← state
  return Text.upTo (s.token.span.stop - s.token.span.start) s.here.rest

/-- A name of an element or an attribute, given back as written. -/
def namedMarkup : Reader Text := do
  let here := (← state).here
  markupName
  return Text.upTo ((← lastStop) - here.offset) here.rest

/-- The parts of a name behind its first one, each with the sign before it. -/
def nameParts : Nat → Reader (List Text)
  | 0 => fail
  | n + 1 => do
    if ← trySign "." then
      let part ← namedMarkup
      need (part.all (· ≠ '-'))
      return ['.'] :: part :: (← nameParts n)
    else return []

/-- The name of an element: its parts, and the name as written. -/
def elementName : Reader (List Text × Text) := do
  let s ← state
  let first ← namedMarkup
  let rest ← do
    if ← trySign ":" then
      let part ← namedMarkup
      pure [[':'], part]
    else nameParts s.bound
  let stop ← lastStop
  return (first :: rest, Text.upTo (stop - s.here.offset) s.here.rest)

/-- An expression in braces, from behind its opening brace to before its closing one. A list with
commas is refused. -/
def braced (rules : Rules) : Reader Shape := do
  let s ← within
    (fun ctx => { ctx with
      allowIn := true, generator := false, conditionalTypes := true, decorator := false })
    (rules .expression)
  need (!s.isSequence)
  return s

/-- Takes a closing sign, after which text follows if it stands in the content of a node. -/
def closeWith (s : String) (inMarkup : Bool) : Reader Unit := do
  need (← onSign s)
  if inMarkup then advanceInMarkup else advance

/-- The value of an attribute in braces; the braces may be empty. -/
def bracedValue (rules : Rules) : Reader Unit := do
  sign "\x7b"
  if !(← onSign "\x7d") then
    let _ ← braced rules
  sign "\x7d"

/-- Takes off one pair of braces, and the blanks around what is left. -/
def withoutBraces (t : Text) : Text :=
  let inner? := (Text.strip? ['\x7b'] t).bind (Text.stripEnd? ['\x7d'])
  Text.trim (inner?.getD t)

/-- The value of an attribute, from behind its equals sign. -/
def attributeValue (rules : Rules) : Reader AttributeValue := do
  let s ← state
  let t := s.token
  match t.kind with
  | .string value =>
    advance
    return .quoted (String.ofList value)
  | .sign "\x7b" | .sign "<" =>
    if t.isSign "<" then
      let _ ← rules (.markup false)
    else bracedValue rules
    let written := Text.upTo ((← lastStop) - t.span.start) s.here.rest
    return .expression (String.ofList (withoutBraces written))
  | _ => fail

/-- An attribute with a name. -/
def namedAttribute (rules : Rules) : Reader Attribute := do
  let s ← state
  let _ ← namedMarkup
  if ← trySign ":" then
    let _ ← namedMarkup
  let name := Text.upTo ((← lastStop) - s.here.offset) s.here.rest
  let value ← do
    if ← onSign "=" then
      advanceToValue
      attributeValue rules
    else pure .bare
  let stop ← lastStop
  return ⟨String.ofList name, ⟨s.here.offset, stop⟩, value⟩

/-- The attributes of an opening tag; those without a name are passed over. -/
def attributes (rules : Rules) : Nat → Reader (List Attribute)
  | 0 => fail
  | n + 1 => do
    let t ← token
    if t.kind = .finish || [">", "/", "<"].any t.isSign then return []
    else if t.isSign "\x7b" then
      advance
      sign "..."
      let _ ← braced rules
      sign "\x7d"
      attributes rules n
    else
      let a ← namedAttribute rules
      return a :: (← attributes rules n)

/-- The content of a node: its pieces and the nodes in it, up to a closing tag. -/
def content (rules : Rules) : Nat → Reader (List Piece × List (Place × Tree))
  | 0 => fail
  | n + 1 => do
    let t ← token
    if t.kind = .markupText then
      let text ← tokenText
      advanceInMarkup
      let (pieces, nodes) ← content rules n
      return (.text text :: pieces, nodes)
    else if t.isSign "\x7b" then
      advance
      let (piece, found) ← gathered do
        if ← trySign "..." then
          let _ ← braced rules
          pure Piece.other
        else if ← onSign "\x7d" then pure Piece.other
        else
          let s ← braced rules
          pure (match s.string with
            | some v => Piece.text v
            | none => Piece.other)
      closeWith "\x7d" true
      let (pieces, nodes) ← content rules n
      return (piece :: pieces, found.map (fun t => (Place.expression, t)) ++ nodes)
    else if t.isSign "<" then
      if (← following).isSign "/" then return ([], [])
      else
        let (_, found) ← gathered (rules (.markup true))
        let (pieces, nodes) ← content rules n
        return (.other :: pieces, found.map (fun t => (Place.content, t)) ++ nodes)
    else fail

/-- Adds a node to the markup read so far. -/
def record (tree : Tree) : Reader Unit := change fun s => { s with trees := tree :: s.trees }

/-- A closing tag; gives its name and its span. -/
def closingTag (named inMarkup : Bool) : Reader (List Text × Span) := do
  let start ← start
  sign "<"
  sign "/"
  let name ← if named then (do pure (← elementName).1) else pure []
  closeWith ">" inMarkup
  return (name, ⟨start, ← lastStop⟩)

/-- A fragment, from its opening tag on. -/
def fragment (rules : Rules) (inMarkup : Bool) : Reader Unit := do
  let s ← state
  sign "<"
  closeWith ">" true
  let opening : Span := ⟨s.here.offset, ← lastStop⟩
  let (pieces, nodes) ← content rules s.bound
  let (_, closing) ← closingTag false inMarkup
  record (.node
    { isFragment := true, tag := "", span := ⟨opening.start, closing.stop⟩, opening := opening,
      closing := some closing, attributes := [], text := contentText pieces } nodes)

/-- An element, from its opening tag on. -/
def elementFrom (rules : Rules) (inMarkup : Bool) : Reader Unit := do
  let s ← state
  sign "<"
  let (name, tag) ← elementName
  let (attributes, found) ← gathered do
    if ← onAngle then
      let _ ← attempt? (within (fun _ => Context.module) (typeArguments rules))
    attributes rules s.bound
  let inOpening := found.map fun t => (Place.opening, t)
  let selfClosing ← trySign "/"
  closeWith ">" (!selfClosing || inMarkup)
  let opening : Span := ⟨s.here.offset, ← lastStop⟩
  if selfClosing then
    record (.node
      { isFragment := false, tag := String.ofList tag, span := opening, opening := opening,
        closing := none, attributes := attributes, text := none } inOpening)
  else
    let (pieces, nodes) ← content rules s.bound
    let (closingName, closing) ← closingTag true inMarkup
    complainIf (name ≠ closingName)
    record (.node
      { isFragment := false, tag := String.ofList tag, span := ⟨opening.start, closing.stop⟩,
        opening := opening, closing := some closing, attributes := attributes,
        text := contentText pieces } (inOpening ++ nodes))

/-- An element or a fragment. -/
def markup (rules : Rules) (inMarkup : Bool) : Reader Shape := do
  need (← onSign "<")
  if (← following).isSign ">" then fragment rules inMarkup
  else elementFrom rules inMarkup
  return .plain

end CanvasSync.Script.Grammar
