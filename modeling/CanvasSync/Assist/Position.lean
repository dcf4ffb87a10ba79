import CanvasSync.Text.Basic

/-!
Positions by line and column.

Editors count lines and columns from zero, a column being one character; the library counts bytes.

* `Position.ofOffset`: the position of an offset;
* `Position.offset`: the offset of a position, taken back to the end of its line or of the text if
  that is not there.
-/

namespace CanvasSync.Assist

/-- A line and a column, both counted from zero. -/
structure Position where
  line : Nat
  column : Nat
  deriving DecidableEq, Repr, Inhabited

/-- The stretch between two positions. -/
structure Range where
  start : Position
  stop : Position
  deriving DecidableEq, Repr, Inhabited

namespace Position

/-- The start of a text. -/
def origin : Position := ⟨0, 0⟩

/-- The position behind a character. -/
def after (p : Position) (c : Char) : Position :=
  if c = '\n' then ⟨p.line + 1, 0⟩ else ⟨p.line, p.column + 1⟩

/-- The position behind all characters that begin within the first `n` bytes. -/
def advance (p : Position) : Nat → Text → Position
  | 0, _ => p
  | _ + 1, [] => p
  | n + 1, c :: t => advance (p.after c) (n + 1 - c.utf8Size) t

/-- The position of an offset. -/
def ofOffset (t : Text) (offset : Nat) : Position := advance origin offset t

/-- Whether a position is reached before a character: on its line, at its column or at the line
feed. -/
def reachedBy (target here : Position) (c : Char) : Bool :=
  here.line = target.line && (here.column = target.column || c = '\n')

/-- The offset of a position in a text that starts at position `here` and offset `i`. -/
def offsetFrom (target : Position) : (here : Position) → (i : Nat) → Text → Nat
  | _, i, [] => i
  | here, i, c :: t =>
    if target.reachedBy here c then i else offsetFrom target (here.after c) (i + c.utf8Size) t

/-- The offset of a position: the end of the line if the column is too large, and the end of the
text if there is no such line. -/
def offset (t : Text) (p : Position) : Nat := offsetFrom p origin 0 t

end Position

/-- The range of a stretch of a text given by an offset and a size. -/
def Range.ofStretch (t : Text) (start size : Nat) : Range :=
  ⟨.ofOffset t start, .ofOffset t (start + size)⟩

end CanvasSync.Assist
