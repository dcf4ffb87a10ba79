import CanvasSync.Text.Basic

/-!
Lines of a text.

A line ends with a line feed; a carriage return right before it belongs to the line end too. A
carriage return alone ends no line.

* `pieces`: the lines with their ends, which concatenate to the text;
* `lines`: the lines without their ends.
-/

namespace CanvasSync.Text

/-- The lines of a text, each with its line end; a last line without one counts if it is not
empty. -/
def pieces : Text → List Text
  | [] => []
  | c :: t =>
    if c = '\n' then ['\n'] :: pieces t
    else
      match pieces t with
      | [] => [[c]]
      | p :: ps => (c :: p) :: ps

/-- A line without its line end. -/
def withoutLineEnd (p : Text) : Text :=
  match stripEnd? ['\n'] p with
  | none => p
  | some body => (stripEnd? ['\r'] body).getD body

/-- The lines of a text without their line ends. -/
def lines (t : Text) : List Text := (pieces t).map withoutLineEnd

/-- The pieces of a text make it up. -/
@[simp] theorem flatten_pieces (t : Text) : (pieces t).flatten = t := by
  induction t with
  | nil => rfl
  | cons c t ih =>
    by_cases h : c = '\n'
    · simp [pieces, h, ih]
    · simp only [pieces, h, if_false]
      cases hp : pieces t with
      | nil => simp [hp] at ih; simp [ih]
      | cons p ps => simp [hp] at ih; simp [ih]

end CanvasSync.Text
