import CanvasSync.Assist.Literal
import CanvasSync.Assist.Position
import CanvasSync.Json.Value
import CanvasSync.Utility.Validation

/-!
Warnings about classes that are not valid, and the fixes that replace them.

* `diagnostics`: one warning for each such class in a literal;
* `quickFixes`: the replacements that warnings carry.
-/

namespace CanvasSync.Assist

open CanvasSync.Utility

/-- A remark on a stretch of a text. -/
structure Diagnostic where
  range : Range
  severity : Option Int
  source : Option String
  message : String
  /-- What whoever made the remark needs to fix it. -/
  data : Option Json.Value
  /-- All else that came with the remark. -/
  details : Json.Fields
  deriving Repr

/-- The source of the remarks made here. -/
def sourceName : String := "nb-lsp"

/-- The severity of a warning. -/
def warning : Int := 2

/-- The warning about a class that is not valid. -/
def Diagnostic.ofFault (range : Range) (fault : Fault) (suggestion : Option String) :
    Diagnostic :=
  { range
    severity := some warning
    source := some sourceName
    message := match suggestion with
      | some s => fault.message ++ " (did you mean \x60" ++ s ++ "\x60?)"
      | none => fault.message
    data := suggestion.map fun s => .object [("suggestion", .string s)]
    details := [] }

/-- The warnings about the classes of a literal. -/
def Literal.diagnostics (c : Catalog) (t : Text) (l : Literal) : List Diagnostic :=
  l.words.filterMap fun w =>
    match c.check w.text with
    | .valid => none
    | .invalid fault suggestion =>
      some (.ofFault (Range.ofStretch t w.start (Text.size w.text)) fault suggestion)

/-- The warnings about the classes of a text, in order. -/
def diagnostics (c : Catalog) (t : Text) : List Diagnostic :=
  (literals t).flatMap (Literal.diagnostics c t)

/-- A text that replaces a stretch. -/
structure Replacement where
  range : Range
  text : String
  deriving DecidableEq, Repr

/-- A fix for a remark. -/
structure QuickFix where
  remark : Diagnostic
  edit : Replacement
  deriving Repr

/-- The title of a fix. -/
def QuickFix.title (f : QuickFix) : String := "Replace with \x60" ++ f.edit.text ++ "\x60"

/-- The fix of a remark made here that carries a suggestion. -/
def Diagnostic.quickFix? (d : Diagnostic) : Option QuickFix :=
  if d.source = some sourceName then do
    let data ← d.data
    match data.get? "suggestion" with
    | some (.string s) => some ⟨d, ⟨d.range, s⟩⟩
    | _ => none
  else none

/-- The fixes for remarks, in order. -/
def quickFixes (remarks : List Diagnostic) : List QuickFix :=
  remarks.filterMap Diagnostic.quickFix?

end CanvasSync.Assist
