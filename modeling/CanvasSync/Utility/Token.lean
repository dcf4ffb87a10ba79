import CanvasSync.Text.Basic

/-!
The parts of a class token.

A token may carry, outside in, an opacity (`/50`), variants (`md:`), a mark of importance (`!`) and
an arbitrary value (`-[320px]`). Each splitter takes off one of these and says nothing about the
others.
-/

namespace CanvasSync.Utility.Token

/-- The text before and after the last occurrence of a character. -/
def cutLast? (c : Char) (t : Text) : Option (Text × Text) :=
  (Text.cut? [c] t.reverse).map fun (after, before) => (before.reverse, after.reverse)

/-- Splits `base/digits`: the slash is the last one, and both parts are not empty. -/
def splitOpacity? (t : Text) : Option (Text × Text) :=
  match cutLast? '/' t with
  | some (base, digits) =>
    if base ≠ [] ∧ digits ≠ [] ∧ digits.all Char.isDigit then some (base, digits) else none
  | none => none

/-- Splits at the colons that stand outside brackets, `depth` brackets being open. A closing
bracket without an opening one changes nothing. -/
def splitColons : Nat → Text → List Text
  | _, [] => [[]]
  | depth, c :: t =>
    if c = ':' ∧ depth = 0 then [] :: splitColons depth t
    else
      let depth := if c = '[' then depth + 1 else if c = ']' then depth - 1 else depth
      match splitColons depth t with
      | [] => [[c]]
      | part :: parts => (c :: part) :: parts

/-- The variants in front of a token, and the token without them. -/
def splitVariants (t : Text) : List Text × Text :=
  let parts := splitColons 0 t
  (parts.dropLast, parts.getLastD [])

/-- Splits `name-[value]`, at the first `-[`; both parts are not empty. -/
def splitArbitrary? (t : Text) : Option (Text × Text) := do
  let inner ← Text.stripEnd? [']'] t
  let (name, value) ← Text.cut? ['-', '['] inner
  if name ≠ [] ∧ value ≠ [] then some (name, value) else none

end CanvasSync.Utility.Token
