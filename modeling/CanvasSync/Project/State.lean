import CanvasSync.Component.Update
import CanvasSync.Storage.Files

/-!
What is known about a project: its components, the texts of its files as last read or written, and
the file that each component stands in.

* `State.find?`, `State.remove?`, `State.ownerOf?`: look-up and removal of a component;
* `State.dropOwned`: the components of a file forgotten, except some;
* `State.resync`: the components of a file replaced by those found in it.
-/

namespace CanvasSync.Project

open CanvasSync.Storage (Path Files)

/-- The files that components stand in, by id. -/
abbrev Owners := List (String × Path)

namespace Owners

/-- The owners with the file of one component set. -/
def set (id : String) (p : Path) : Owners → Owners
  | [] => [(id, p)]
  | (i, q) :: rest => if i = id then (id, p) :: rest else (i, q) :: set id p rest

/-- The owners with the file of several components set. -/
def setAll (ids : List String) (p : Path) (owners : Owners) : Owners :=
  ids.foldl (fun owners id => set id p owners) owners

/-- The owners without some components. -/
def eraseAll (ids : List String) (owners : Owners) : Owners :=
  owners.filter fun (i, _) => i ∉ ids

end Owners

/-- What is known about a project. Components within others are found in their parents only. -/
structure State where
  root : Path
  components : List Component
  files : Files
  owners : Owners
  deriving Repr

namespace State

/-- A project of which only the root is known. -/
def ofRoot (root : Path) : State := ⟨root, [], [], []⟩

/-- The component of an id. -/
def find? (s : State) (id : String) : Option Component := Component.findAll? id s.components

/-- Whether there is a component of an id. -/
def has (s : State) (id : String) : Bool := (s.find? id).isSome

/-- A list of components with one put in the place of its id, or at the end if the id is new. -/
def place (c : Component) : List Component → List Component
  | [] => [c]
  | d :: ds => if d.id = c.id then c :: ds else d :: place c ds

/-- Takes out the component of an id: an outermost one, or else one within another. -/
def remove? (s : State) (id : String) : Option (Component × State) :=
  match Component.takeOut? id s.components with
  | some (c, cs) => some (c, { s with components := cs })
  | none =>
    (Component.removeWithin? id s.components).map fun (c, cs) => (c, { s with components := cs })

/-- The project without the component of an id. -/
def without (s : State) (id : String) : State := ((s.remove? id).map (·.2)).getD s

/-- The marker of a component as it is written in a file. -/
def markerText (marker id : String) : Text := (marker ++ "=\"" ++ id ++ "\"").toList

/-- The file that a component stands in: the recorded one, or else the first file that holds its
marker. -/
def ownerOf? (s : State) (marker id : String) : Option Path :=
  match s.owners.lookup id with
  | some p => some p
  | none => (s.files.find? fun (_, t) => Text.contains t (markerText marker id)).map (·.1)

/-- Forgets a component and its owner. -/
def forget (s : State) (id : String) : State :=
  { s.without id with owners := s.owners.eraseAll [id] }

/-- The components recorded for a file, except some. -/
def stale (s : State) (p : Path) (keep : List String) : List String :=
  (s.owners.filter fun (id, q) => q.same p && id ∉ keep).map (·.1)

/-- Forgets the components recorded for a file, except some. -/
def dropOwned (s : State) (p : Path) (keep : List String) : State :=
  (s.stale p keep).foldl forget s

mutual
/-- A component with the names and the places that are known for it and those within it. -/
def carryOver (s : State) : Component → Component
  | ⟨id, tag, name, props, children, position⟩ =>
    let known := s.find? id
    ⟨id, tag, (known.map Component.name).getD name, props, carryOverAll s children,
      (known.map Component.position).getD position⟩

/-- The same for several components. -/
def carryOverAll (s : State) : List Component → List Component
  | [] => []
  | c :: cs => carryOver s c :: carryOverAll s cs
end

/-- Takes over a component found in a file: as an outermost one, wherever it was before. -/
def adopt (p : Path) (s : State) (c : Component) : State :=
  let s := s.without c.id
  { s with owners := s.owners.setAll c.ids p, components := place c s.components }

/-- Takes over the text of a file and the components found in it; gives these with what was known
about them. -/
def resync (s : State) (p : Path) (source : Text) (found : List Component) :
    State × List Component :=
  let cs := carryOverAll s found
  let s := s.dropOwned p (Component.idsAll cs)
  let s := cs.foldl (adopt p) s
  ({ s with files := s.files.insert p source }, cs)

/-- Forgets a file and the components recorded for it. -/
def forgetFile (s : State) (p : Path) : State :=
  { s with files := s.files.erase p }.dropOwned p []

end State

end CanvasSync.Project
