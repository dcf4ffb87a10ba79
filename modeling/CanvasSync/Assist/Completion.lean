import CanvasSync.Assist.Literal
import CanvasSync.Assist.Position
import CanvasSync.Utility.Search

/-!
Completions of the class under the cursor.

Only the part of a class up to the cursor counts. Variants already typed stay in front of every
proposal, and what stands behind them is searched for.
-/

namespace CanvasSync.Assist

open CanvasSync.Utility

/-- A proposal: what replaces the class under the cursor, and its rank among the proposals. -/
structure Completion where
  label : String
  category : String
  description : Option String
  rank : Nat
  range : Range
  deriving DecidableEq, Repr

/-- The variants at the start of a class, with their colons, and what stands behind them. -/
def splitTyped (typed : Text) : Text × Text :=
  match Token.cutLast? ':' typed with
  | some (variants, query) => (variants ++ [':'], query)
  | none => ([], typed)

/-- The proposals for a position: none outside a literal, and none where nothing is typed. -/
def completions (c : Catalog) (t : Text) (p : Position) : List Completion :=
  let offset := p.offset t
  match wordAt? t offset with
  | none => []
  | some w =>
    let (variants, query) := splitTyped (Text.upTo (offset - w.start) w.text)
    let range := Range.ofStretch t w.start (Text.size w.text)
    (c.search query Catalog.defaultLimit).zipIdx.map fun (hit, rank) =>
      { label := String.ofList (variants ++ hit.name.toList)
        category := hit.category
        description := hit.description
        rank
        range }

end CanvasSync.Assist
