import CanvasSync.Script.Parse

/-!
The index of the markup in a script.

A `Document` lists all nodes in the order in which they begin, each with the number of the node
around it and the numbers of the nodes nested right in it. It is gathered on a walk over the trees:
entering a node appends it and makes it the innermost open node, leaving it closes it.

* `Document.ofForest`: the index of trees;
* `Document.parse?`: the index of a script, nothing if the script is no module;
* `Document.root?`, `resolvePath?`, `findByAttribute?`, `findByPattern?`, `ancestorWhere?`: queries.
-/

namespace CanvasSync.Markup

/-- A node with its place in the index. -/
structure Entry where
  node : Node
  parent : Option Nat
  children : List Nat
  deriving DecidableEq, Repr, Inhabited

/-- All nodes in the order in which they begin. -/
structure Document where
  entries : List Entry
  defaultExport : Option Span
  deriving Repr, Inhabited

/-- The index as far as it is gathered, and the numbers of the open nodes, innermost first. -/
structure Collector where
  entries : List Entry
  stack : List Nat
  deriving Repr

namespace Collector

/-- Nothing gathered. -/
def empty : Collector := ⟨[], []⟩

/-- Enters a node: it is appended as a child of the innermost open node. -/
def enter (c : Collector) (node : Node) : Collector :=
  let here := c.entries.length
  let entries :=
    match c.stack.head? with
    | some p => c.entries.modify p fun e => { e with children := e.children ++ [here] }
    | none => c.entries
  { entries := entries ++ [⟨node, c.stack.head?, []⟩], stack := here :: c.stack }

/-- Leaves the innermost open node. -/
def leave (c : Collector) : Collector := { c with stack := c.stack.tail }

mutual
/-- Enters a tree, walks the nodes nested in it and leaves it. -/
def walk (c : Collector) : Tree → Collector
  | .node n children => (walkChildren (c.enter n) children).leave

/-- Walks nested nodes in order. -/
def walkChildren (c : Collector) : List (Place × Tree) → Collector
  | [] => c
  | (_, t) :: rest => walkChildren (walk c t) rest
end

/-- Walks trees in order. -/
def walkForest (c : Collector) (forest : List Tree) : Collector := forest.foldl walk c

end Collector

namespace Document

/-- The index of the markup of a script. -/
def ofScript (s : Script) : Document :=
  ⟨(Collector.empty.walkForest s.forest).entries, s.defaultExport⟩

/-- The index of a script; nothing if the text is no module. -/
def parse? (source : Text) : Option Document := (Script.parse? source).map ofScript

/-- The numbers of the nodes with a property, in order. -/
def indicesWhere (d : Document) (p : Entry → Bool) : List Nat :=
  (d.entries.zipIdx.filter fun (e, _) => p e).map (·.2)

/-- The number of the first node with a property. -/
def firstWhere? (d : Document) (p : Entry → Bool) : Option Nat := d.entries.findIdx? p

/-- The outermost nodes, in order. -/
def roots (d : Document) : List Nat := d.indicesWhere fun e => e.parent.isNone

/-- The node that everything is placed in: the first outermost node within the default export, or
the first outermost node if there is none. -/
def root? (d : Document) : Option Nat :=
  let inExport :=
    match d.defaultExport with
    | some span => d.roots.find? fun i => (d.entries[i]?).any fun e => e.node.span.within span
    | none => none
  match inExport with
  | some i => some i
  | none => d.roots.head?

/-- The node reached from another one by child numbers. -/
def resolvePath? (d : Document) (start : Nat) : List Nat → Option Nat
  | [] => some start
  | k :: path =>
    match d.entries[start]? with
    | some e =>
      match e.children[k]? with
      | some i => d.resolvePath? i path
      | none => none
    | none => none

/-- The first node on which the first attribute of a name is a given string. -/
def findByAttribute? (d : Document) (name value : String) : Option Nat :=
  d.firstWhere? fun e => e.node.quoted? name = some value

/-- The first element whose opening tag holds a text. -/
def findByPattern? (d : Document) (source pattern : Text) : Option Nat :=
  d.firstWhere? fun e =>
    !e.node.isFragment && Text.contains (Text.covered source e.node.opening) pattern

/-- The nearest node around node `i` with a property, looking at most `fuel` nodes up. -/
def ancestorWithin? (d : Document) (p : Entry → Bool) : Nat → Nat → Option Nat
  | 0, _ => none
  | fuel + 1, i =>
    match (d.entries[i]?).bind Entry.parent with
    | some j => if (d.entries[j]?).any p then some j else d.ancestorWithin? p fuel j
    | none => none

/-- The nearest node around a node with a property. -/
def ancestorWhere? (d : Document) (i : Nat) (p : Entry → Bool) : Option Nat :=
  d.ancestorWithin? p d.entries.length i

end Document

end CanvasSync.Markup
