import CanvasSync.Storage.Path

/-!
Files by path, in order of path. The path of a file stays as it was written first.
-/

namespace CanvasSync.Storage

/-- The contents of files, in order of path when built by `Files.insert`. -/
abbrev Files := List (Path × Text)

namespace Files

/-- The contents of a file. -/
def get? (p : Path) : Files → Option Text
  | [] => none
  | (q, t) :: rest => if q.same p then some t else get? p rest

/-- The files with the contents of one set. -/
def insert (p : Path) (t : Text) : Files → Files
  | [] => [(p, t)]
  | (q, u) :: rest =>
    if q.same p then (q, t) :: rest
    else if p.precedes q then (p, t) :: (q, u) :: rest
    else (q, u) :: insert p t rest

/-- The files without one. -/
def erase (p : Path) (files : Files) : Files := files.filter fun (q, _) => !q.same p

/-- Whether there is a file. -/
def has (p : Path) (files : Files) : Bool := (files.get? p).isSome

/-- Files from paths and contents; of several with the same path the last one stays. -/
def ofList (files : List (Path × Text)) : Files :=
  files.foldl (fun files (p, t) => insert p t files) []

end Files

end CanvasSync.Storage
