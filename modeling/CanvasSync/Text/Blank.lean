import CanvasSync.Text.Basic

/-!
Blank characters and words.

A character is blank when it has the Unicode property White_Space; trimming, words and blank
texts all go by that one property.
-/

namespace CanvasSync

/-- Unicode White_Space. -/
def isBlank (c : Char) : Bool :=
  let n := c.toNat
  (9 ≤ n && n ≤ 13) || n = 0x20 || n = 0x85 || n = 0xA0 || n = 0x1680
    || (0x2000 ≤ n && n ≤ 0x200A) || n = 0x2028 || n = 0x2029 || n = 0x202F || n = 0x205F
    || n = 0x3000

/-- White_Space of ASCII: tab, line feed, form feed, carriage return and space. -/
def isAsciiBlank (c : Char) : Bool :=
  c = ' ' || c = '\t' || c = '\n' || c = '\r' || c = '\x0c'

namespace Text

/-- The text without the blanks before it. -/
def trimStart (t : Text) : Text := t.dropWhile isBlank

/-- The text without the blanks after it. -/
def trimEnd (t : Text) : Text := (t.reverse.dropWhile isBlank).reverse

/-- The text without the blanks at its ends. -/
def trim (t : Text) : Text := trimEnd (trimStart t)

/-- Whether a text has blanks only. -/
def allBlank (t : Text) : Bool := t.all isBlank

/-- The maximal runs of characters that are not blank. -/
def words (t : Text) : List Text := (splitAt isBlank t).filter (· ≠ [])

end Text

end CanvasSync
