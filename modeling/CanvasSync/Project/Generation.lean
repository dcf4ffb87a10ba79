import CanvasSync.Edit.Source
import CanvasSync.Project.Fault

/-!
New texts for files: sources are read from the disk and edited, but not written.

`createFile` is the only one that writes.
-/

namespace CanvasSync.Project

open CanvasSync.Markup (Document Style)
open CanvasSync.Storage (Disk Path)

/-- The outcome of an edit. -/
def ofEdit {α : Type} : Except Edit.Fault α → Except Fault α
  | .ok a => .ok a
  | .error f => .error (.source f)

/-- The outcome of an access to the disk. -/
def ofDisk {α : Type} (access : Access) (p : Path) : Except Storage.Fault α → Except Fault α
  | .ok a => .ok a
  | .error f => .error (.disk access p f)

/-- The source in a file. -/
def readSource (d : Disk) (p : Path) : Except Fault Text := ofDisk .read p (d.read p)

/-- Writes a text to a file. -/
def writeSource (d : Disk) (p : Path) (t : Text) : Except Fault Disk :=
  ofDisk .write p (d.write p t)

/-- The source in a file with its index. -/
def parsedSource (d : Disk) (p : Path) : Except Fault (Text × Document) := do
  let source ← readSource d p
  return (source, ← ofEdit (Edit.document source))

/-- The source in a file with a component inserted. -/
def inserted (d : Disk) (style : Style) (p : Path) (c : Component) (target : Option (List Nat)) :
    Except Fault Text := do
  ofEdit (Edit.insert (← readSource d p) c target style)

/-- The source in a file with the props of a component set. -/
def withProps (d : Disk) (style : Style) (p : Path) (id : String) (props : Json.Fields) :
    Except Fault Text := do
  ofEdit (Edit.setProps (← readSource d p) id props style)

/-- The source in a file without a component. -/
def withoutComponent (d : Disk) (style : Style) (p : Path) (id : String) :
    Except Fault Text := do
  ofEdit (Edit.remove (← readSource d p) id style)

/-- The source in a file with the components in it. -/
def withComponents (d : Disk) (style : Style) (p : Path) :
    Except Fault (Text × List Component) := do
  let source ← readSource d p
  return (source, ← ofEdit (Edit.extract source style))

/-- Writes a file of a name in a folder, which is created if it is not there; gives the path of the
file. The folder stays created if the file cannot be written. -/
def createFile (d : Disk) (name : String) (t : Text) (folder : Path) : Except Fault Path × Disk :=
  match ofDisk .createFolder folder (d.createFolders folder) with
  | .error f => (.error f, d)
  | .ok d =>
    let p := folder.join ⟨name ++ ".tsx"⟩
    match writeSource d p t with
    | .error f => (.error f, d)
    | .ok d => (.ok p, d)

end CanvasSync.Project
