import CanvasSync.Assist.Completion
import CanvasSync.Assist.Diagnostic
import CanvasSync.Assist.Hover
import CanvasSync.Assist.Uri
import CanvasSync.Json.Record
import CanvasSync.Number.Decimal

/-!
Positions, remarks, proposals and fixes as the JSON of the Language Server Protocol.
-/

namespace CanvasSync.Assist

open CanvasSync.Json (Value Fields)

/-- A member of an object that is left out if there is no value. -/
def member (name : String) (v : Option Value) : List (String × Value) :=
  (v.map fun v => (name, v)).toList

/-- A natural of 32 bits. -/
def word? : Value → Option Nat := Value.natBelow? 0x100000000

/-- A whole number of 32 bits with a sign. -/
def signedWord? : Value → Option Int
  | .number (.whole i) => if -0x80000000 ≤ i ∧ i < 0x80000000 then some i else none
  | _ => none

/-- A URI in its normal form. -/
def uri? : Value → Option String
  | .string s => (Uri.normalize? s.toList).map String.ofList
  | _ => none

namespace Position

/-- A position from a record. -/
def ofJson? (v : Value) : Option Position := do
  match ← v.record? ["line", "character"] with
  | [line, column] =>
    some ⟨← Json.required? word? line, ← Json.required? word? column⟩
  | _ => none

/-- A position as an object. -/
def toJson (p : Position) : Value :=
  .ofMembers [("line", .ofNat p.line), ("character", .ofNat p.column)]

end Position

namespace Range

/-- A range from a record. -/
def ofJson? (v : Value) : Option Range := do
  match ← v.record? ["start", "end"] with
  | [start, stop] =>
    some ⟨← Json.required? Position.ofJson? start, ← Json.required? Position.ofJson? stop⟩
  | _ => none

/-- A range as an object. -/
def toJson (r : Range) : Value :=
  .ofMembers [("start", r.start.toJson), ("end", r.stop.toJson)]

end Range

/-- A number with three digits or more. -/
def threeDigits (n : Nat) : String :=
  let digits := Number.digitsOf n
  String.ofList (List.replicate (3 - digits.length) '0' ++ digits)

/-- A proposal as an item of a list. -/
def Completion.toJson (c : Completion) : Value :=
  .ofMembers
    ([("label", .string c.label), ("kind", .ofNat 21), ("filterText", .string c.label),
      ("labelDetails", .ofMembers [("description", .string c.category)]),
      ("sortText", .string (threeDigits c.rank)),
      ("textEdit", .ofMembers [("range", c.range.toJson), ("newText", .string c.label)])]
      ++ member "detail" (c.description.map .string))

/-- What is shown, as an object. -/
def Hover.toJson (h : Hover) : Value :=
  .ofMembers
    [("contents", .ofMembers [("kind", .string "markdown"), ("value", .string h.text)]),
     ("range", h.range.toJson)]

namespace Diagnostic

/-- The code of a remark: a number or a string. -/
def code? : Value → Option Value
  | .string s => some (.string s)
  | v => (signedWord? v).map fun i => .number (.whole i)

/-- The page that describes a code. -/
def page? (v : Value) : Option Value := do
  match ← v.record? ["href"] with
  | [href] => some (.ofMembers [("href", .string (← Json.required? uri? href))])
  | _ => none

/-- A place in a document. -/
def place? (v : Value) : Option Value := do
  match ← v.record? ["uri", "range"] with
  | [uri, range] =>
    let uri ← Json.required? uri? uri
    let range ← Json.required? Range.ofJson? range
    some (.ofMembers [("uri", .string uri), ("range", range.toJson)])
  | _ => none

/-- A remark that another one refers to. -/
def related? (v : Value) : Option Value := do
  match ← v.record? ["location", "message"] with
  | [place, message] =>
    let place ← Json.required? place? place
    let message ← Json.required? Value.string? message
    some (.ofMembers [("location", place), ("message", .string message)])
  | _ => none

/-- An optional member of an object: nothing if it is there in the wrong shape. -/
def detail? {α : Type} (v : Value) (name : String) (read : Value → Option α) :
    Option (Option α) :=
  Json.defaulting? none (Value.optional? read) (v.get? name)

/-- A remark from an object. -/
def ofJson? (v : Value) : Option Diagnostic := do
  let range ← Json.required? Range.ofJson? (v.get? "range")
  let severity ← detail? v "severity" signedWord?
  let code ← detail? v "code" code?
  let page ← detail? v "codeDescription" page?
  let source ← detail? v "source" Value.string?
  let message ← Json.required? Value.string? (v.get? "message")
  let related ← detail? v "relatedInformation" (Value.list? related?)
  let tags ← detail? v "tags" (Value.list? signedWord?)
  let data ← detail? v "data" some
  let details := Fields.ofList
    (member "code" code ++ member "codeDescription" page
      ++ member "relatedInformation" (related.map .array)
      ++ member "tags" (tags.map fun is => .array (is.map fun i => .number (.whole i))))
  some { range, severity, source, message, data, details }

/-- A remark as an object. -/
def toJson (d : Diagnostic) : Value :=
  .ofMembers
    ([("range", d.range.toJson), ("message", .string d.message)]
      ++ member "severity" (d.severity.map fun i => .number (.whole i))
      ++ member "source" (d.source.map .string) ++ member "data" d.data ++ d.details)

end Diagnostic

/-- A fix as a code action on a document. -/
def QuickFix.toJson (uri : String) (f : QuickFix) : Value :=
  let edit := Value.ofMembers
    [("range", f.edit.range.toJson), ("newText", .string f.edit.text)]
  .ofMembers
    [("title", .string f.title), ("kind", .string "quickfix"),
     ("diagnostics", .array [f.remark.toJson]),
     ("edit", .ofMembers [("changes", .ofMembers [(uri, .array [edit])])]),
     ("isPreferred", .bool true)]

end CanvasSync.Assist
