import CanvasSync.Json.Reader
import CanvasSync.Json.Record
import CanvasSync.Markup.Printer
import CanvasSync.Storage.Path

/-!
The settings of a project.

They stand in an optional file at its root. A setting left out has a default, an unknown one is
passed over, and one given twice is an error.
-/

namespace CanvasSync.Project

open CanvasSync.Json (Value)
open CanvasSync.Storage (Path)

/-- The settings of a project. -/
structure Config where
  /-- Where components are added unless told otherwise, seen from the root. -/
  defaultTarget : Path
  marker : String
  indent : String
  /-- The extensions of the files that are watched. -/
  extensions : List String
  /-- How many events are kept for a subscriber. -/
  capacity : Nat
  deriving DecidableEq, Repr

namespace Config

/-- The name of the file with the settings. -/
def fileName : Path := ⟨"nextbuilder.json"⟩

/-- Folders in which nothing is watched. -/
def ignoredFolders : List String := ["node_modules", ".next", ".git", "dist"]

/-- The settings of a project without a file of settings. -/
def standard : Config :=
  ⟨⟨"src/app/page.tsx"⟩, Markup.Style.standard.marker, Markup.Style.standard.indent,
    ["tsx", "jsx", "ts", "js"], 256⟩

/-- The names of the settings. -/
def settingNames : List String :=
  ["defaultTarget", "markerAttribute", "indent", "watchExtensions", "eventCapacity"]

/-- Whether no setting is given twice in an object as it was written. -/
def isUnambiguous : Value → Bool
  | .object members =>
    settingNames.all fun n => (members.filter fun (k, _) => k = n).length ≤ 1
  | _ => true

/-- Settings from a record. -/
def ofJson? (v : Value) : Option Config := do
  if !isUnambiguous v then none
  else
    match ← v.record? settingNames with
    | [target, marker, indent, extensions, capacity] =>
      let target ← Json.defaulting? standard.defaultTarget.text Value.string? target
      let marker ← Json.defaulting? standard.marker Value.string? marker
      let indent ← Json.defaulting? standard.indent Value.string? indent
      let extensions ←
        Json.defaulting? standard.extensions (Value.list? Value.string?) extensions
      let capacity ← Json.defaulting? standard.capacity (Value.natBelow? 0x10000000000000000) capacity
      some ⟨⟨target⟩, marker, indent, extensions, capacity⟩
    | _ => none

/-- Settings from the text of a file. -/
def ofText? (t : Text) : Option Config := (Json.read? t).bind ofJson?

/-- How markup is laid out and marked. -/
def style (c : Config) : Markup.Style := ⟨c.indent, c.marker⟩

/-- Whether a change of a file matters: its extension is watched, and no folder of its path is
ignored. -/
def watches (c : Config) (p : Path) : Bool :=
  let ignored := p.parts.any fun
    | .name t => String.ofList t ∈ ignoredFolders
    | _ => false
  (p.extension?.any fun e => String.ofList e ∈ c.extensions) && !ignored

end Config

end CanvasSync.Project
