import CanvasSync.Json.Record

/-!
Components on the canvas.

A component is a tree: it has an id, a tag, a name for display, props, components within it and a
place on the canvas.

* `Component.ids`: all ids of a tree, each before those within;
* `Component.find?`, `Component.modify?`: the component of an id, and the tree with it changed;
* `Component.removeDescendant?`: a component taken out from within a tree.
-/

namespace CanvasSync

/-- A place on the canvas, in numbers of 32 bits. It never reaches the markup. -/
structure Position where
  x : Number.Binary
  y : Number.Binary
  width : Number.Binary
  height : Number.Binary
  deriving DecidableEq, Repr, Inhabited

/-- Zero as a number of 32 bits. -/
def Position.zero : Number.Binary := Number.Format.single.ofNat 0

/-- The place of a new component. -/
def Position.origin : Position := ⟨zero, zero, zero, zero⟩

/-- A component with those within it. -/
structure Component where
  id : String
  tag : String
  name : String
  props : Json.Fields
  children : List Component
  position : Position
  deriving Repr, Inhabited

namespace Component

/-- A component with nothing but its id and its tag, which is also its name. -/
def ofTag (id tag : String) : Component := ⟨id, tag, tag, [], [], .origin⟩

mutual
/-- The ids of a tree, each before those within. -/
def ids : Component → List String
  | ⟨id, _, _, _, children, _⟩ => id :: idsAll children

/-- The ids of several trees in order. -/
def idsAll : List Component → List String
  | [] => []
  | c :: cs => ids c ++ idsAll cs
end

mutual
/-- The first component of an id in a tree. -/
def find? (id : String) : Component → Option Component
  | ⟨i, tag, name, props, children, position⟩ =>
    if i = id then some ⟨i, tag, name, props, children, position⟩ else findAll? id children

/-- The first component of an id in several trees. -/
def findAll? (id : String) : List Component → Option Component
  | [] => none
  | c :: cs =>
    match find? id c with
    | some found => some found
    | none => findAll? id cs
end

mutual
/-- The tree with its first component of an id changed; nothing if it has none. -/
def modify? (id : String) (f : Component → Component) : Component → Option Component
  | ⟨i, tag, name, props, children, position⟩ =>
    if i = id then some (f ⟨i, tag, name, props, children, position⟩)
    else (modifyAll? id f children).map fun cs => ⟨i, tag, name, props, cs, position⟩

/-- The same in several trees. -/
def modifyAll? (id : String) (f : Component → Component) :
    List Component → Option (List Component)
  | [] => none
  | c :: cs =>
    match modify? id f c with
    | some c => some (c :: cs)
    | none => (modifyAll? id f cs).map (c :: ·)
end

/-- Takes the first component of an id out of a list, not looking within its members. -/
def takeOut? (id : String) : List Component → Option (Component × List Component)
  | [] => none
  | c :: cs =>
    if c.id = id then some (c, cs) else (takeOut? id cs).map fun (found, cs) => (found, c :: cs)

mutual
/-- Takes a component out from within a tree: one right in it if there is one, else the first that
any of those has within. Gives the component and the tree without it. -/
def removeDescendant? (id : String) : Component → Option (Component × Component)
  | ⟨i, tag, name, props, children, position⟩ =>
    match takeOut? id children with
    | some (found, cs) => some (found, ⟨i, tag, name, props, cs, position⟩)
    | none =>
      (removeWithin? id children).map fun (found, cs) =>
        (found, ⟨i, tag, name, props, cs, position⟩)

/-- Takes a component out from within the first of several trees that has it within. -/
def removeWithin? (id : String) : List Component → Option (Component × List Component)
  | [] => none
  | c :: cs =>
    match removeDescendant? id c with
    | some (found, c) => some (found, c :: cs)
    | none => (removeWithin? id cs).map fun (found, cs) => (found, c :: cs)
end

/-- The text of a component: its prop `children`, if that is a string. -/
def text? (c : Component) : Option String := (Json.Fields.get? "children" c.props).bind Json.Value.string?

end Component

end CanvasSync
