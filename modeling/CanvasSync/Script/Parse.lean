import CanvasSync.Script.Grammar.Markup
import CanvasSync.Script.Grammar.Statements

/-!
Whole scripts: modules with type annotations and markup.

* `Grammar.step`: every part of the grammar by the parts it contains;
* `Grammar.rules`: the same with a bound on how deep parts nest;
* `parse?`: the markup of a script and its default export, or nothing if the script is no module.
-/

namespace CanvasSync.Script

namespace Grammar

/-- Every part of the grammar, by readers of the parts that it contains. -/
def step (rules : Rules) : Rules
  | .statement alone => statement rules alone
  | .expression => expression rules
  | .assignment => assignment rules
  | .binary level => binary rules level
  | .unary => unary rules
  | .call => call rules
  | .type => conditionalType rules
  | .binding => binding rules
  | .parameters => parameters rules
  | .block => block rules
  | .classTail named => classFrom rules named
  | .functionTail named async => functionFrom rules named async
  | .markup inMarkup => markup rules inMarkup

/-- Every part of the grammar, nested at most `depth` deep. -/
def rules : (depth : Nat) → Rules
  | 0, _ => Reader.fail
  | depth + 1, r => step (rules depth) r

end Grammar

/-- The text behind a first line that names an interpreter. -/
def afterInterpreter (t : Text) : Cursor :=
  match t with
  | '#' :: '!' :: rest => Cursor.dropFrom (fun c => !Character.isLineEnd c) 2 rest
  | _ => ⟨0, t⟩

/-- Where the reading of a script begins. -/
def start (t : Text) : State :=
  let (token, here, after) := Lexer.next (afterInterpreter t)
  { token := token, here := here, after := after, lastStop := 0, trees := [],
    defaultExport := none, defaults := [], refused := false, bound := t.length + 2 }

/-- More than the number of parts that can nest in a script of a given length. -/
def depthBound (length : Nat) : Nat := 12 * length + 24

/-- The markup of a script and its default export; nothing if the text is no module. -/
def parse? (t : Text) : Option Markup.Script :=
  let s := start t
  match Grammar.module (Grammar.rules (depthBound t.length)) Context.module s with
  | some (_, s) =>
    if s.refused ∨ s.defaults ≠ [] then none
    else some ⟨s.trees.reverse, s.defaultExport⟩
  | none => none

end CanvasSync.Script
