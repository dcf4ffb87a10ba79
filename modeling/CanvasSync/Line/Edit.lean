import CanvasSync.Json.Record
import CanvasSync.Line.Locate
import CanvasSync.Line.Tag

/-!
Edits of the element on one line.

The line is not read as markup, so that it can be edited while the file around it is broken.

* `setClassName`, `setTextContent`, `setProp`: one edit of a line;
* `Updates.apply`: several edits of a line;
* `updateFile?`: the same on the line found by a text, all other lines kept as they are.
-/

namespace CanvasSync.Line

/-- What is to change about an element. -/
structure Updates where
  className : Option String
  text : Option String
  props : Json.Fields
  deriving Repr, Inhabited

/-- The beginning of a class attribute in double quotes. -/
def classStart : Text := "className=\"".toList

/-- The line with the value of its first class attribute in double quotes set. A line without any
class attribute gets one on its first opening tag; a class attribute of another form stays as it
is. -/
def setClassName (line className : Text) : Text :=
  let className := Text.trim className
  let replaced? : Option Text := do
    let (before, rest) ← Text.cut? classStart line
    let (_, after) ← Text.cut? ['"'] rest
    return before ++ classStart ++ className ++ '"' :: after
  match replaced? with
  | some line => line
  | none =>
    if Text.contains line classMark then line
    else Tag.inject line (classStart ++ className ++ ['"'])

/-- The line with the text between its first opening tag and the closing tag right behind set; other
lines stay as they are. -/
def setTextContent (line text : Text) : Text :=
  match Tag.split? line with
  | none => line
  | some t =>
    if t.closesItself then line
    else
      match (t.after.drop 1).dropWhile (· ≠ '<') with
      | '<' :: '/' :: rest =>
        t.head ++ '>' :: Markup.contentText text ++ '<' :: '/' :: rest
      | _ => line

/-- The line with one attribute of its first opening tag set, or taken away by `null` together with
the blanks before it; nothing if the search for the attribute does not end. -/
def setProp? (line : Text) (name : String) (value : Json.Value) : Option Text :=
  match Tag.split? line with
  | none => some line
  | some t =>
    (t.findAttribute? name.toList).map fun
      | some (before, after) =>
        if value.isNull then Text.trimEnd before ++ after
        else before ++ Markup.attributeText name value ++ after
      | none => if value.isNull then line else Tag.inject line (Markup.attributeText name value)

/-- The line with one attribute of its first opening tag set, where that comes to an end. -/
def setProp (line : Text) (name : String) (value : Json.Value) : Text :=
  (setProp? line name value).getD line

namespace Updates

/-- Whether nothing is to change. -/
def isEmpty (u : Updates) : Bool := u.className.isNone && u.text.isNone && u.props.isEmpty

/-- The line with all edits made: classes, text, then props in order of name. -/
def apply (u : Updates) (line : Text) : Text :=
  let line := match u.className with
    | some c => setClassName line c.toList
    | none => line
  let line := match u.text with
    | some t => setTextContent line t.toList
    | none => line
  u.props.foldl (fun line (name, value) => setProp line name value) line

end Updates

/-- The pieces of a file with one of them changed before its line end. -/
def replaceBody (f : Text → Text) (piece : Text) : Text :=
  let body := Text.withoutLineEnd piece
  f body ++ piece.drop body.length

/-- A file with the line found by a text edited; nothing if no line is found or the line stays the
same. -/
def updateFile? (source pattern : Text) (u : Updates) : Option Text :=
  match locate? source pattern with
  | none => none
  | some found =>
    if u.apply found.text = found.text then none
    else some ((Text.pieces source).modify found.index (replaceBody u.apply)).flatten

/-- A file with the line found by a text edited, if there is anything to edit. -/
def updateFile (source pattern : Text) (u : Updates) : Text :=
  (updateFile? source pattern u).getD source

end CanvasSync.Line
