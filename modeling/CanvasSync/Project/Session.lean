import CanvasSync.Project.Config
import CanvasSync.Project.Event
import CanvasSync.Project.Generation
import CanvasSync.Project.State

/-!
An open project: its settings, what is known about it, its disk, and what calls in progress hold.

* `claim`, `release`: ids claimed by calls that are about to add components;
* `lock`, `unlock`: files held by calls that read and write them;
* `Commit`: a change of what is known, made once the files are written.
-/

namespace CanvasSync.Project

open CanvasSync.Storage (Disk Path)

/-- An open project. -/
structure Session where
  config : Config
  state : State
  /-- The ids claimed by calls in progress. -/
  claims : List String
  /-- The files held by calls in progress. -/
  locks : List Path
  disk : Disk
  /-- The number of the watch on the root, if it is watched. -/
  watch : Option Nat
  deriving Repr

namespace Session

/-- A project of which nothing is known yet. -/
def start (config : Config) (root : Path) (disk : Disk) : Session :=
  ⟨config, .ofRoot root, [], [], disk, none⟩

/-- A path seen from the root. -/
def resolve (s : Session) (p : Path) : Path := s.state.root.join p

/-- The file that components are added to unless told otherwise. -/
def defaultTarget (s : Session) : Path := s.resolve s.config.defaultTarget

/-- The file that a component stands in. -/
def ownerOf? (s : Session) (id : String) : Option Path := s.state.ownerOf? s.config.marker id

/-- Whether an id is in use: by a component, or by a call that is about to add one. -/
def isTaken (s : Session) (id : String) : Bool := s.state.has id || id ∈ s.claims

/-- The first id of a list that is in use, or that the list has seen before. -/
def firstTaken? (s : Session) : (seen : List String) → List String → Option String
  | _, [] => none
  | seen, id :: ids =>
    if s.isTaken id || id ∈ seen then some id else firstTaken? s (id :: seen) ids

/-- Claims ids, all or none. -/
def claim (s : Session) (ids : List String) : Except Fault Session :=
  match s.firstTaken? [] ids with
  | some id => .error (.alreadyRegistered id)
  | none => .ok { s with claims := s.claims ++ ids }

/-- Gives up claims. -/
def release (s : Session) (ids : List String) : Session :=
  { s with claims := s.claims.filter fun id => id ∉ ids }

/-- Whether a file is held. -/
def isLocked (s : Session) (p : Path) : Bool := s.locks.any fun q => q.same p

/-- Holds a file. -/
def lock (s : Session) (p : Path) : Session := { s with locks := p :: s.locks }

/-- Lets go of a file. -/
def unlock (s : Session) (p : Path) : Session :=
  { s with locks := s.locks.filter fun q => !q.same p }

/-- Writes a text to a file. -/
def write (s : Session) (p : Path) (t : Text) : Except Fault Session := do
  return { s with disk := ← writeSource s.disk p t }

end Session

/-- A change of what is known about a project that is due. -/
inductive Commit where
  /-- A component was added to a file. -/
  | add (component : Component) (file : Path) (code : Text)
  /-- A component is updated; its file may have been written. -/
  | update (id : String) (update : Update) (written : Option (Path × Text))
  /-- A component was removed from a file. -/
  | remove (id : String) (file : Path) (code : Text)
  /-- A file was read. -/
  | resync (file : Path) (source : Text) (found : List Component)
  /-- A file is gone. -/
  | forget (file : Path)
  deriving Repr

namespace State

/-- The text of a file recorded. -/
def record (s : State) (p : Path) (t : Text) : State := { s with files := s.files.insert p t }

/-- A component added to a file. -/
def add (s : State) (c : Component) (p : Path) (code : Text) : State :=
  { s.record p code with
    owners := s.owners.setAll c.ids p
    components := place c s.components }

/-- A component updated; nothing if it is not there. -/
def update? (s : State) (id : String) (u : Update) (written : Option (Path × Text)) :
    Option State := do
  let cs ← Component.modifyAll? id u.apply s.components
  let s := { s with components := cs }
  return match written with
    | some (p, code) => { s.record p code with owners := s.owners.set id p }
    | none => s

/-- A component removed from a file, with those within it. -/
def removeFrom (s : State) (id : String) (p : Path) (code : Text) : State :=
  match s.remove? id with
  | some (gone, t) => { t.record p code with owners := t.owners.eraseAll gone.ids }
  | none => s.record p code

end State

/-- Makes a change that is due; gives the event that tells of it. -/
def Commit.apply (s : State) : Commit → Except Fault (State × Event)
  | .add c p code => .ok (s.add c p code, .added c p)
  | .update id u written =>
    match s.update? id u written with
    | some t => .ok (t, .updated ((t.find? id).getD default) (written.map (·.1)))
    | none => .error (.notRegistered id)
  | .remove id p code => .ok (s.removeFrom id p code, .removed id p)
  | .resync p source found =>
    let (s, cs) := s.resync p source found
    .ok (s, .fileChanged p cs)
  | .forget p => .ok (s.forgetFile p, .fileChanged p [])

end CanvasSync.Project
