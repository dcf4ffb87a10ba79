import CanvasSync.Project.Session

/-!
Calls on a project, step by step.

A call claims what it needs, waits for its file, reads and edits it, writes it, records what it did
and lets go again. Several calls may be in progress at once, each step of one standing between any
two steps of another.

* `Call.step`: the next step of a call;
* `Call.run`: the steps of a call until it is done or has to wait;
* `Session.perform`: a call with no other one in progress;
* `Overlap.play`: calls in progress at once, by turns.
-/

namespace CanvasSync.Project

open CanvasSync.Storage (ChangeKind Path)

/-- A call on a project. -/
inductive Call where
  /-- Adds a component to a file, within the root element or the one under child numbers. -/
  | add (component : Component) (file : Option Path) (target : Option (List Nat))
  /-- Updates a component. -/
  | update (id : String) (update : Update)
  /-- Removes a component, with those within it. -/
  | remove (id : String)
  /-- Takes note of a change of a file. -/
  | resync (path : Path) (kind : ChangeKind)
  deriving Repr

/-- How far a call is. -/
inductive Phase where
  /-- Nothing is done. -/
  | fresh
  /-- The file is known and claims are made; the file is to be held. -/
  | waiting (file : Path)
  /-- The file is held; it is to be read. -/
  | holding (file : Path)
  /-- A new text is to be written. -/
  | writing (file : Path) (code : Text) (due : Commit)
  /-- The change is to be recorded. -/
  | settling (file : Option Path) (due : Commit)
  /-- All is done; what is held is to be let go of. -/
  | leaving (file : Option Path) (event : Event)
  /-- The call is over. -/
  | finished (result : Except Fault Event)

namespace Phase

/-- The outcome of a call that is over. -/
def result? : Phase → Option (Except Fault Event)
  | .finished r => some r
  | _ => none

/-- The event that a call tells of, if it succeeded. -/
def event? : Phase → Option Event
  | .finished (.ok e) => some e
  | _ => none

end Phase

namespace Call

/-- The ids that a call claims. -/
def claimed : Call → List String
  | .add c _ _ => c.ids
  | _ => []

/-- A component that must be registered, with the file that holds it. -/
def owned (s : Session) (id : String) : Except Fault Path :=
  if s.state.has id then
    match s.ownerOf? id with
    | some p => .ok p
    | none => .error (.noOwner id)
  else .error (.notRegistered id)

/-- The first step: claims are made, and the file is found if one is needed. -/
def begin (s : Session) : Call → Except Fault (Option Path × Session)
  | .add c file _ => do
    let p := match file with
      | some p => s.resolve p
      | none => s.defaultTarget
    return (some p, ← s.claim c.ids)
  | .update id u =>
    if u.touchesSource then do return (some (← owned s id), s)
    else if s.state.has id then .ok (none, s)
    else .error (.notRegistered id)
  | .remove id => do return (some (← owned s id), s)
  | .resync p _ => .ok (some (s.resolve p), s)

/-- What a call does with its file: the new text if it is to be written, and the change that is
due. -/
def draft (s : Session) (p : Path) : Call → Except Fault (Option Text × Commit)
  | .add c _ target => do
    let code ← inserted s.disk s.config.style p c target
    return (some code, .add c p code)
  | .update id u => do
    let code ← withProps s.disk s.config.style p id (u.props.getD [])
    return (some code, .update id u (some (p, code)))
  | .remove id => do
    let code ← withoutComponent s.disk s.config.style p id
    return (some code, .remove id p code)
  | .resync _ .removed => .ok (none, .forget p)
  | .resync _ _ => do
    let (source, found) ← withComponents s.disk s.config.style p
    return (none, .resync p source found)

/-- The change that is due for a call that needs no file. -/
def commitWithoutFile : Call → Option Commit
  | .update id u => some (.update id u none)
  | _ => none

/-- Lets go of what a call holds. -/
def leave (call : Call) (s : Session) (file : Option Path) : Session :=
  let s := match file with
    | some p => s.unlock p
    | none => s
  s.release call.claimed

/-- The next step of a call; nothing if it is over or has to wait. -/
def step (call : Call) (s : Session) : Phase → Option (Phase × Session)
  | .fresh =>
    match call.begin s with
    | .ok (some p, s) => some (.waiting p, s)
    | .ok (none, s) => call.commitWithoutFile.map fun due => (.settling none due, s)
    | .error f => some (.finished (.error f), s)
  | .waiting p => if s.isLocked p then none else some (.holding p, s.lock p)
  | .holding p =>
    match call.draft s p with
    | .ok (some code, due) => some (.writing p code due, s)
    | .ok (none, due) => some (.settling (some p) due, s)
    | .error f => some (.finished (.error f), call.leave s (some p))
  | .writing p code due =>
    match s.write p code with
    | .ok s => some (.settling (some p) due, s)
    | .error f => some (.finished (.error f), call.leave s (some p))
  | .settling file due =>
    match due.apply s.state with
    | .ok (state, event) => some (.leaving file event, { s with state })
    | .error f => some (.finished (.error f), call.leave s file)
  | .leaving file event => some (.finished (.ok event), call.leave s file)
  | .finished _ => none

/-- At most `count` steps of a call, until it is over or has to wait. -/
def run (call : Call) : (count : Nat) → Phase → Session → Phase × Session
  | 0, phase, s => (phase, s)
  | count + 1, phase, s =>
    match call.step s phase with
    | some (phase, s) => run call count phase s
    | none => (phase, s)

/-- The most steps that a call takes. -/
def stepCount : Nat := 6

end Call

/-- A call with no other one in progress. -/
def Session.perform (s : Session) (call : Call) : Phase × Session :=
  call.run Call.stepCount .fresh s

/-- Calls in progress at once. -/
structure Overlap where
  calls : List (Call × Phase)
  session : Session

namespace Overlap

/-- Calls of which none has begun. -/
def ofCalls (s : Session) (calls : List Call) : Overlap :=
  ⟨calls.map fun c => (c, .fresh), s⟩

/-- One turn of the call of a number: a step, unless it is over or has to wait. -/
def turn (o : Overlap) (i : Nat) : Overlap :=
  match o.calls[i]? with
  | none => o
  | some (call, phase) =>
    match call.step o.session phase with
    | some (phase, s) => ⟨o.calls.set i (call, phase), s⟩
    | none => o

/-- Several turns in order. -/
def play (o : Overlap) (turns : List Nat) : Overlap := turns.foldl turn o

/-- Turns in which every one of `count` calls begins before any goes on, and then one after the
other ends. -/
def beginTogether (count : Nat) : List Nat :=
  List.range count ++ (List.range count).flatMap fun i => List.replicate (Call.stepCount - 1) i

end Overlap

end CanvasSync.Project
