import CanvasSync.Utility.StyleSheet

/-!
The catalogue of known classes.

* `Entry`: a class with its category, a description and the variants it supports;
* `Catalog`: entries by name in the order in which their names were first registered, and the
  categories met so far;
* `Catalog.ofTable`: the catalogue of the fixed classes and of the offered part of the scale.
-/

namespace CanvasSync.Utility

/-- A known class. -/
structure Entry where
  name : String
  category : String
  description : Option String
  /-- Whether it may stand behind a breakpoint. -/
  responsive : Bool
  hover : Bool
  focus : Bool
  dark : Bool
  deriving DecidableEq, Repr, Inhabited

namespace Entry

/-- Whether the class may stand behind a variant; nothing for an unknown variant. -/
def supports? (e : Entry) (variant : String) : Option Bool :=
  if (Breakpoint.ofName? variant).isSome then some e.responsive
  else if variant = "hover" then some e.hover
  else if variant = "focus" then some e.focus
  else if variant = "dark" then some e.dark
  else none

/-- The entry of a class that sets a declaration. Classes that set colours, effects, transforms
and transitions react to the pointer; colours and effects also to the dark theme. -/
def ofDeclaration (name : String) (d : Declaration) : Entry :=
  let category := Category.ofProperty d.property
  let interactive :=
    category ∈ [Category.colors, Category.effects, Category.transforms, Category.transitions]
  { name
    category := category.name
    description := some (d.property ++ ": " ++ d.value)
    responsive := true
    hover := interactive
    focus := interactive
    dark := category ∈ [Category.colors, Category.effects] }

end Entry

/-- Known classes by name, in the order in which the names were first registered, and the
categories in the order in which they were first met. -/
structure Catalog where
  entries : List Entry
  categories : List String
  deriving Repr

namespace Catalog

/-- The catalogue without classes. -/
def empty : Catalog := ⟨[], []⟩

/-- The entries with one put in the place of its name, or at the end if the name is new. -/
def place (e : Entry) : List Entry → List Entry
  | [] => [e]
  | d :: ds => if d.name = e.name then e :: ds else d :: place e ds

/-- Adds an entry, or puts it in the place of the one with its name. -/
def register (c : Catalog) (e : Entry) : Catalog :=
  { entries := place e c.entries
    categories := if e.category ∈ c.categories then c.categories else c.categories ++ [e.category] }

/-- The entry of a name. -/
def get? (c : Catalog) (name : String) : Option Entry := c.entries.find? fun e => e.name = name

/-- The entries of a category, in order. -/
def inCategory (c : Catalog) (category : String) : List Entry :=
  c.entries.filter fun e => e.category = category

/-- The number of classes. -/
def size (c : Catalog) : Nat := c.entries.length

/-- The catalogue of a table: its fixed classes, then the offered part of the spacing scale. -/
def ofTable (table : Table) : Catalog :=
  (table ++ table.scaleEntries).foldl (fun c (name, d) => c.register (Entry.ofDeclaration name d))
    empty

/-- The catalogue of the standard table. -/
def standard : Catalog := ofTable Table.standard

end Catalog

end CanvasSync.Utility
