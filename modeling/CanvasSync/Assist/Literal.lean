import CanvasSync.Text.Blank

/-!
Class literals in a text.

The text is not read as markup, so that literals are found while it is being typed. A literal is
what stands in quotes right behind `className=`, or behind `className=` and an opening brace.

* `literals`: all literals of a text, in order;
* `Literal.words`: the classes of a literal with their offsets;
* `literalAt?`, `Literal.wordAt?`: what the cursor touches, both edges counted.
-/

namespace CanvasSync.Assist

/-- A word and the offset at which it starts. -/
structure Word where
  start : Nat
  text : Text
  deriving DecidableEq, Repr

/-- Whether an offset lies on a stretch or at one of its edges. -/
def touches (start : Nat) (t : Text) (offset : Nat) : Bool :=
  start ≤ offset && offset ≤ start + Text.size t

/-- The maximal runs of characters that are not blank, in a text that starts at offset `n`. -/
def wordsFrom : (n : Nat) → Text → List Word
  | _, [] => []
  | n, c :: t =>
    let rest := wordsFrom (n + c.utf8Size) t
    if isBlank c then rest
    else
      match rest with
      | [] => [⟨n, [c]⟩]
      | w :: ws =>
        if w.start = n + c.utf8Size then ⟨n, c :: w.text⟩ :: ws else ⟨n, [c]⟩ :: w :: ws

/-- What stands in the quotes of a class attribute, and the offset at which it starts. -/
structure Literal where
  start : Nat
  value : Text
  deriving DecidableEq, Repr

namespace Literal

/-- Where the literal ends. -/
def stop (l : Literal) : Nat := l.start + Text.size l.value

/-- The classes of the literal. -/
def words (l : Literal) : List Word := wordsFrom l.start l.value

/-- The class that an offset touches. -/
def wordAt? (l : Literal) (offset : Nat) : Option Word :=
  l.words.find? fun w => touches w.start w.text offset

end Literal

/-- The name of the class attribute with its equals sign. -/
def attributeMark : Text := "className=".toList

/-- The quotes that a literal may stand in. -/
def isQuote (c : Char) : Bool := c = '"' || c = '\'' || c = '\x60'

/-- A text in quotes at the start of another: the text, and what follows the closing quote. -/
def quoted? : Text → Option (Text × Text)
  | q :: t => if isQuote q then Text.cut? [q] t else none
  | [] => none

/-- A value in quotes, behind a brace or not: where it starts, the value, and what follows it. -/
def value? (offset : Nat) : Text → Option (Literal × Text)
  | '\x7b' :: t => (quoted? t).map fun (v, rest) => (⟨offset + 2, v⟩, rest)
  | t => (quoted? t).map fun (v, rest) => (⟨offset + 1, v⟩, rest)

/-- The literals of a text that starts at an offset, of at most `fuel` class attributes. After a
literal the search goes on behind its closing quote, after an attribute without one right behind
the equals sign. -/
def literalsFrom : (fuel : Nat) → (offset : Nat) → Text → List Literal
  | 0, _, _ => []
  | fuel + 1, offset, t =>
    match Text.cut? attributeMark t with
    | none => []
    | some (before, rest) =>
      let offset := offset + Text.size before + Text.size attributeMark
      match value? offset rest with
      | some (l, rest) => l :: literalsFrom fuel (l.stop + 1) rest
      | none => literalsFrom fuel offset rest

/-- The literals of a text. -/
def literals (t : Text) : List Literal := literalsFrom (t.length + 1) 0 t

/-- The literal that an offset touches. -/
def literalAt? (t : Text) (offset : Nat) : Option Literal :=
  (literals t).find? fun l => touches l.start l.value offset

/-- The class that an offset touches. -/
def wordAt? (t : Text) (offset : Nat) : Option Word :=
  (literalAt? t offset).bind fun l => l.wordAt? offset

end CanvasSync.Assist
