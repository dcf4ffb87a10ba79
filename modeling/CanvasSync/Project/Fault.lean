import CanvasSync.Edit.Fault
import CanvasSync.Storage.Disk

/-!
Why an operation on a project fails.
-/

namespace CanvasSync.Project

open CanvasSync.Storage (Path)

/-- What was tried with the disk. -/
inductive Access where
  | read
  | write
  | createFolder
  deriving DecidableEq, Repr

/-- The wording of an access. -/
def Access.wording : Access → String
  | read => "read"
  | write => "write"
  | createFolder => "create directory"

/-- Why an operation on a project fails. -/
inductive Fault where
  /-- A source cannot be edited or read as a module. -/
  | source (cause : Edit.Fault)
  /-- There is no component of an id. -/
  | notRegistered (id : String)
  /-- There is a component of an id already, or another call is about to add it. -/
  | alreadyRegistered (id : String)
  /-- No file is known to hold a component. -/
  | noOwner (id : String)
  | disk (access : Access) (path : Path) (cause : Storage.Fault)
  /-- The file with the settings is not well formed. -/
  | settings (path : Path)
  deriving DecidableEq, Repr

/-- The wording of a fault. -/
def Fault.message : Fault → String
  | source cause => cause.message
  | notRegistered id => "component " ++ id ++ " is not registered"
  | alreadyRegistered id => "component " ++ id ++ " is already registered"
  | noOwner id => "no source file contains component " ++ id
  | disk access path cause =>
    "failed to " ++ access.wording ++ " " ++ path.text ++ ": " ++ cause.message
  | settings path => "invalid config " ++ path.text

end CanvasSync.Project
