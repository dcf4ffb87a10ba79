import CanvasSync.Text.Basic
import CanvasSync.Json.Value

/-!
Compact JSON text.

No blanks between tokens. A string escapes the quote, the backslash and the characters below
U+0020, five of those by a letter; all else stands for itself. A double that is not finite is
written `null`.
-/

namespace CanvasSync.Json

/-- A hexadecimal digit in lower case. -/
def hexDigit (n : Nat) : Char := (Nat.toDigits 16 (n % 16)).headD '0'

/-- The characters that stand for one character of a string. -/
def escape (c : Char) : Text :=
  if c = '"' then ['\\', '"']
  else if c = '\\' then ['\\', '\\']
  else if c = '\x08' then ['\\', 'b']
  else if c = '\x0c' then ['\\', 'f']
  else if c = '\n' then ['\\', 'n']
  else if c = '\r' then ['\\', 'r']
  else if c = '\t' then ['\\', 't']
  else if c.toNat < 0x20 then ['\\', 'u', '0', '0', hexDigit (c.toNat / 16), hexDigit c.toNat]
  else [c]

/-- A quoted string. -/
def quote (s : Text) : Text := '"' :: (s.flatMap escape ++ ['"'])

/-- The text of a number. -/
def Number.text : Number → Text
  | .whole i => if i < 0 then '-' :: CanvasSync.Number.digitsOf i.natAbs
    else CanvasSync.Number.digitsOf i.natAbs
  | .double x => (CanvasSync.Number.doubleText x).getD "null".toList

mutual
/-- The compact text of a value. -/
def Value.text : Value → Text
  | .null => "null".toList
  | .bool true => "true".toList
  | .bool false => "false".toList
  | .number n => n.text
  | .string s => quote s.toList
  | .array items => '[' :: (itemsText items ++ [']'])
  | .object members => '{' :: (membersText members ++ ['}'])

/-- Items with commas between them. -/
def itemsText : List Value → Text
  | [] => []
  | [v] => v.text
  | v :: w :: vs => v.text ++ ',' :: itemsText (w :: vs)

/-- Members with commas between them. -/
def membersText : List (String × Value) → Text
  | [] => []
  | [(k, v)] => quote k.toList ++ ':' :: v.text
  | (k, v) :: m :: ms => quote k.toList ++ ':' :: (v.text ++ ',' :: membersText (m :: ms))
end

end CanvasSync.Json
