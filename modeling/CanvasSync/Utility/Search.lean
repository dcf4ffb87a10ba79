import CanvasSync.Text.Distance
import CanvasSync.Text.LowerCase
import CanvasSync.Utility.Catalog

/-!
Search in the catalogue.

A class scores by the best of six relations to the query; the highest scores come first, and
classes of one score keep the order of the catalogue.
-/

namespace CanvasSync.Utility

/-- A class found by a search. -/
structure Suggestion where
  name : String
  category : String
  description : Option String
  score : Nat
  deriving DecidableEq, Repr

namespace Catalog

/-- The number of classes that a search gives unless told otherwise. -/
def defaultLimit : Nat := 20

/-- The score of a class for a query: the name is the query, begins with it or holds it, the
description holds it in lower case, the query holds the name, or at most two edits lead from one to
the other. Names and queries shorter than three bytes do not score by the last two. -/
def score (e : Entry) (query lowered : Text) : Nat :=
  let name := e.name.toList
  if name = query then 100
  else if Text.startsWith name query then 80
  else if Text.contains name query then 60
  else if (e.description.any fun d => Text.contains (Text.toLower d.toList) lowered) then 40
  else if 3 ≤ Text.size name && Text.contains query name then 30
  else if 3 ≤ Text.size query && Text.distance name query ≤ 2 then 20
  else 0

/-- The classes with a score, in the order of the catalogue. -/
def hits (c : Catalog) (query : Text) : List Suggestion :=
  let lowered := Text.toLower query
  c.entries.filterMap fun e =>
    let s := score e query lowered
    if s = 0 then none else some ⟨e.name, e.category, e.description, s⟩

/-- The best `limit` classes for a query, by falling score; an empty query has none. -/
def search (c : Catalog) (query : Text) (limit : Nat) : List Suggestion :=
  let query := Text.trim query
  if query = [] then []
  else ((hits c query).mergeSort fun a b => b.score ≤ a.score).take limit

end Catalog

end CanvasSync.Utility
