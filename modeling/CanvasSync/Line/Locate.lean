import CanvasSync.Text.Lines

/-!
Lines to edit, found by a text on them.

Only lines with a class attribute count. Where no line holds the text looked for, the first list item
with a class attribute is taken instead.
-/

namespace CanvasSync.Line

/-- A line and its number, counted from zero. -/
structure Located where
  index : Nat
  text : Text
  deriving DecidableEq, Repr

/-- The name of the class attribute with its equals sign. -/
def classMark : Text := "className=".toList

/-- The first line of a list with a property, counted from `i` on. -/
def firstFrom? (p : Text → Bool) : Nat → List Text → Option Located
  | _, [] => none
  | i, l :: ls => if p l then some ⟨i, l⟩ else firstFrom? p (i + 1) ls

/-- The first line with a class attribute that holds a text. -/
def locateExact? (source pattern : Text) : Option Located :=
  firstFrom? (fun l => Text.contains l classMark && Text.contains l pattern) 0 (Text.lines source)

/-- The first line with a class attribute that holds a text, or else the first list item with a
class attribute. -/
def locate? (source pattern : Text) : Option Located :=
  match locateExact? source pattern with
  | some l => some l
  | none => locateExact? source "<li".toList

end CanvasSync.Line
