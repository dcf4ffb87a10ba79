import CanvasSync.Project.Call

/-!
A project from its opening to its end, and changes of its files that other programs make.

* `Session.openAt`: settings read, and the components of the default file taken over if it is there;
* `Session.startWatching`, `Session.stopWatching`, `Session.close`;
* `Session.catchUp`: the changes that wait taken note of.
-/

namespace CanvasSync.Project

open CanvasSync.Storage (Disk Path)

/-- The settings on a disk; those of every project if there is no file of settings. -/
def Config.load (d : Disk) (root : Path) : Except Fault Config :=
  let p := root.join Config.fileName
  if d.has p then do
    match Config.ofText? (← readSource d p) with
    | some c => return c
    | none => throw (.settings p)
  else .ok .standard

namespace Session

/-- The outcome of a call that is over. -/
def outcome (r : Phase × Session) : Except Fault Session :=
  match r with
  | (.finished (.error f), _) => .error f
  | (_, s) => .ok s

/-- Opens a project. -/
def openAt (root : Path) (disk : Disk) : Except Fault Session := do
  let s := start (← Config.load disk root) root disk
  let target := s.defaultTarget
  if s.disk.has target then outcome (s.perform (.resync target .changed)) else return s

/-- Whether the root is watched. -/
def isWatching (s : Session) : Bool := s.watch.isSome

/-- Begins to watch the root. -/
def startWatching (s : Session) : Session :=
  match s.watch with
  | some _ => s
  | none =>
    let (number, disk) := s.disk.watch s.state.root
    { s with disk, watch := some number }

/-- Gives up the watch. -/
def stopWatching (s : Session) : Session :=
  match s.watch with
  | some number => { s with disk := s.disk.unwatch number, watch := none }
  | none => s

/-- Forgets all but the root. -/
def close (s : Session) : Session :=
  { s.stopWatching with state := .ofRoot s.state.root }

/-- Takes note of a change; failures are passed over. -/
def noteChange (r : Session × List Event) (c : Storage.Change) : Session × List Event :=
  let (phase, s) := r.1.perform (.resync c.path c.kind)
  (s, r.2 ++ phase.event?.toList)

/-- Takes note of the changes that wait, as far as they matter; gives the events that tell of
them. -/
def catchUp (s : Session) : Session × List Event :=
  match s.watch with
  | none => (s, [])
  | some number =>
    let (changes, disk) := s.disk.take number
    (changes.filter fun c => s.config.watches c.path).foldl noteChange ({ s with disk }, [])

end Session

end CanvasSync.Project
