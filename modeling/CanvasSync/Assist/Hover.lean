import CanvasSync.Assist.Literal
import CanvasSync.Assist.Position
import CanvasSync.Utility.Catalog

/-!
What is shown about the class under the cursor: its CSS and its category.
-/

namespace CanvasSync.Assist

open CanvasSync.Utility

/-- A text to show, and the stretch that it is about. -/
structure Hover where
  text : String
  range : Range
  deriving DecidableEq, Repr

/-- The entry of a class: that of what stands behind its variants and its mark of importance. -/
def entryOf? (c : Catalog) (name : Text) : Option Entry :=
  let (_, base) := Token.splitVariants name
  c.get? (String.ofList ((Text.strip? ['!'] base).getD base))

/-- What is shown about a class; nothing if it has neither CSS nor an entry. -/
def describe? (table : Table) (c : Catalog) (name : Text) : Option String :=
  let css := String.ofList (StyleSheet.parse table (String.ofList name)).css
  let entry := entryOf? c name
  if css.isEmpty && entry.isNone then none
  else
    let title := "**\x60" ++ String.ofList name ++ "\x60**"
    let block := if css.isEmpty then "" else "\n\n\x60\x60\x60css\n" ++ css ++ "\n\x60\x60\x60"
    let category := match entry with
      | some e => "\n\n*" ++ e.category ++ "*"
      | none => ""
    some (title ++ block ++ category)

/-- What is shown at a position. -/
def hover? (table : Table) (c : Catalog) (t : Text) (p : Position) : Option Hover :=
  match wordAt? t (p.offset t) with
  | none => none
  | some w =>
    (describe? table c w.text).map fun text =>
      ⟨text, Range.ofStretch t w.start (Text.size w.text)⟩

end CanvasSync.Assist
