import CanvasSync.Script.Character
import CanvasSync.Text.Basic

/-!
Escapes in string literals.

`Escape.decode?` gives the text that the characters between two quotes stand for, or nothing when
an escape is malformed. `Escape.isCooked` says the same of the parts of a template, which take no
octal escapes. Half of a surrogate pair on its own stands for its escape in small letters.
-/

namespace CanvasSync.Script.Escape

/-- A run of hexadecimal digits as a number. -/
def ofHex (ds : Text) : Nat := ds.foldl (fun n c => 16 * n + Character.hexValue c) 0

/-- Four hexadecimal digits. -/
def hex4? (t : Text) : Option (Nat × Text) :=
  let ds := t.take 4
  if ds.length = 4 ∧ ds.all Character.isHexDigit then some (ofHex ds, t.drop 4) else none

/-- The escape that half of a surrogate pair stands for. -/
def half (n : Nat) : Text := '\\' :: 'u' :: Nat.toDigits 16 n

/-- Whether a number is a code point of a character. -/
def isScalar (n : Nat) : Bool := n < 0xD800 || (0xE000 ≤ n && n < 0x110000)

/-- The text for what follows `\u`: digits in braces, four digits, or two groups of four. -/
def unicode? (t : Text) : Option (Text × Text) :=
  match t with
  | '\x7b' :: rest =>
    let ds := rest.takeWhile Character.isHexDigit
    match rest.dropWhile Character.isHexDigit with
    | '\x7d' :: rest =>
      let n := ofHex ds
      if ds ≠ [] ∧ n < 0x110000 then some (if isScalar n then [Char.ofNat n] else half n, rest)
      else none
    | _ => none
  | _ => do
    let (hi, rest) ← hex4? t
    if 0xD800 ≤ hi ∧ hi ≤ 0xDBFF then
      match rest with
      | '\\' :: 'u' :: more => do
        let (lo, more) ← hex4? more
        if 0xDC00 ≤ lo ∧ lo ≤ 0xDFFF then
          some ([Char.ofNat (0x10000 + (hi - 0xD800) * 0x400 + (lo - 0xDC00))], more)
        else some (half hi ++ half lo, more)
      | _ => some (half hi, rest)
    else some (if isScalar hi then [Char.ofNat hi] else half hi, rest)

/-- The text for an octal escape of at most three digits below 256, first digit included. -/
def octal (t : Text) : Text × Text :=
  let room := match t with
    | c :: _ => if c ≤ '3' then 3 else 2
    | [] => 0
  let ds := (t.take room).takeWhile Character.isOctalDigit
  ([Char.ofNat (ds.foldl (fun n c => 8 * n + Character.hexValue c) 0)], t.drop ds.length)

/-- The text for what follows a backslash, and what follows that. Octal escapes are refused in
templates. -/
def one? (template : Bool) (t : Text) : Option (Text × Text) :=
  match t with
  | [] => none
  | '\r' :: '\n' :: rest => some ([], rest)
  | 'b' :: rest => some (['\x08'], rest)
  | 'f' :: rest => some (['\x0c'], rest)
  | 'n' :: rest => some (['\n'], rest)
  | 'r' :: rest => some (['\r'], rest)
  | 't' :: rest => some (['\t'], rest)
  | 'v' :: rest => some (['\x0b'], rest)
  | 'x' :: rest =>
    let ds := rest.take 2
    if ds.length = 2 ∧ ds.all Character.isHexDigit then
      some ([Char.ofNat (ofHex ds)], rest.drop 2)
    else none
  | 'u' :: rest => unicode? rest
  | c :: rest =>
    if Character.isLineEnd c then some ([], rest)
    else if c = '0' ∧ !(rest.head?.any Char.isDigit) then some ([Char.ofNat 0], rest)
    else if template ∧ c.isDigit then none
    else if Character.isOctalDigit c then some (octal t)
    else some ([c], rest)

/-- `decode?` with a bound on the number of characters. -/
def decodeWithin? (template : Bool) : Nat → Text → Option Text
  | _, [] => some []
  | 0, _ => none
  | fuel + 1, '\\' :: rest =>
    match one? template rest with
    | some (t, rest) => (decodeWithin? template fuel rest).map (t ++ ·)
    | none => none
  | fuel + 1, c :: rest => (decodeWithin? template fuel rest).map (c :: ·)

/-- The text that the characters between two quotes stand for. -/
def decode? (t : Text) : Option Text := decodeWithin? false t.length t

/-- Whether all escapes of a part of a template are well formed. -/
def isCooked (t : Text) : Bool := (decodeWithin? true t.length t).isSome

end CanvasSync.Script.Escape
