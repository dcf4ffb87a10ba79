import CanvasSync.Text.Blank
import CanvasSync.Text.Lines

/-!
Edits of a text by offset.

* `Splice`: a stretch of a text and what takes its place;
* `Splice.applyAll`: several edits, applied from the back to the front so that offsets stay true;
* `lineStart`, `lineStop`, `indentationAt`, `indentBlock`: lines around an offset.
-/

namespace CanvasSync.Edit

/-- A stretch of a text, between two offsets, and what takes its place. -/
structure Splice where
  start : Nat
  stop : Nat
  text : Text
  deriving DecidableEq, Repr, Inhabited

namespace Splice

/-- An insertion. -/
def insertion (offset : Nat) (text : Text) : Splice := ⟨offset, offset, text⟩

/-- A deletion. -/
def deletion (start stop : Nat) : Splice := ⟨start, stop, []⟩

/-- One edit applied. -/
def apply (source : Text) (e : Splice) : Text :=
  Text.upTo e.start source ++ e.text ++ Text.fromOffset e.stop source

/-- Whether an edit is applied before another one: it starts later, or at the same offset and ends
later, or at the same two offsets. -/
def before (a b : Splice) : Bool := b.start < a.start || (a.start = b.start && b.stop ≤ a.stop)

/-- Several edits applied one by one, later ones in the text first; edits of the same two offsets
keep their order. -/
def applyAll (source : Text) (edits : List Splice) : Text :=
  (edits.mergeSort before).foldl apply source

end Splice

/-- What follows the last line feed of a text. -/
def lastLine (t : Text) : Text := (t.reverse.takeWhile (· ≠ '\n')).reverse

/-- What stands before the first line feed of a text. -/
def firstLine (t : Text) : Text := t.takeWhile (· ≠ '\n')

/-- Where the line around an offset starts. -/
def lineStart (source : Text) (offset : Nat) : Nat :=
  offset - Text.size (lastLine (Text.upTo offset source))

/-- Where the line around an offset ends, its line feed left out. -/
def lineStop (source : Text) (offset : Nat) : Nat :=
  offset + Text.size (firstLine (Text.fromOffset offset source))

/-- The spaces and tabs at the start of the line around an offset. -/
def indentationAt (source : Text) (offset : Nat) : Text :=
  (Text.fromOffset (lineStart source offset) source).takeWhile fun c => c = ' ' || c = '\t'

/-- A line with an indent before it; an empty line stays empty. -/
def indentLine (indent line : Text) : Text := if line = [] then [] else indent ++ line

/-- The lines of a text, each indented, with line feeds between them. -/
def indentBlock (indent block : Text) : Text :=
  Text.join ['\n'] ((Text.lines block).map (indentLine indent))

end CanvasSync.Edit
