import CanvasSync.Text.Basic
import CanvasSync.Text.LowerCase.Table

/-!
Lower case of a text, by the full mappings of Unicode.

Every character is mapped alone but for the capital sigma, which turns into a final sigma at the
end of a word.
-/

namespace CanvasSync.Text

namespace LowerCase

/-- Whether a code point lies in one of the ranges. -/
def inRanges (ranges : List (Nat × Nat)) (n : Nat) : Bool :=
  ranges.any fun (first, last) => first ≤ n && n ≤ last

/-- Whether a character is a letter with a case. -/
def isCased (c : Char) : Bool := inRanges casedRanges c.toNat

/-- Whether a character is passed over when the neighbours of a letter are looked at. -/
def isIgnorable (c : Char) : Bool := inRanges ignorableRanges c.toNat

/-- Whether a letter with a case comes first after characters that are passed over. -/
def meetsLetter (t : Text) : Bool :=
  match t.dropWhile isIgnorable with
  | [] => false
  | c :: _ => isCased c

/-- The lower case of a character on its own. -/
def ofChar (c : Char) : Text :=
  let n := c.toNat
  if n < 0x80 then [c.toLower]
  else if n = 0x130 then ['i', '\u0307']
  else
    match runs.find? fun r => r.first ≤ n && n ≤ r.last && (n - r.first) % r.step = 0 with
    | some r => [Char.ofNat (n + r.shift).toNat]
    | none => [c]

/-- The lower case of a text, given what stands before it, last character first. -/
def following (before : Text) : Text → Text
  | [] => []
  | c :: t =>
    (if c = 'Σ' then
      if meetsLetter before && !meetsLetter t then ['ς'] else ['σ']
    else ofChar c) ++ following (c :: before) t

end LowerCase

/-- The lower case of a text. -/
def toLower (t : Text) : Text := LowerCase.following [] t

end CanvasSync.Text
