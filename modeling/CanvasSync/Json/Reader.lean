import CanvasSync.Text.Basic
import CanvasSync.Json.Value

/-!
A strict reader of JSON text.

Blanks are space, tab, line feed and carriage return. Arrays and objects nest at most 127 deep. A
number with a fraction or an exponent is a double, and so is a whole number that fits no 64 bits
and minus zero; a number beyond the doubles is refused.

* `readValue?`: one value and the text after it, members in the order of the text;
* `read?`: a whole text as one value;
* `parse?`: the same with members in order of key.
-/

namespace CanvasSync.Json

/-- The deepest nesting of arrays and objects that is read. -/
def depthLimit : Nat := 127

/-- The blanks between tokens. -/
def isSpace (c : Char) : Bool := c = ' ' || c = '\t' || c = '\n' || c = '\r'

/-- The text after leading blanks. -/
def skipSpace (t : Text) : Text := t.dropWhile isSpace

/-- The value of a hexadecimal digit. -/
def hexValue? (c : Char) : Option Nat :=
  if '0' ≤ c ∧ c ≤ '9' then some (c.toNat - '0'.toNat)
  else if 'a' ≤ c ∧ c ≤ 'f' then some (c.toNat - 'a'.toNat + 10)
  else if 'A' ≤ c ∧ c ≤ 'F' then some (c.toNat - 'A'.toNat + 10)
  else none

/-- Four hexadecimal digits. -/
def readHex4? : Text → Option (Nat × Text)
  | a :: b :: c :: d :: rest => do
    let a ← hexValue? a
    let b ← hexValue? b
    let c ← hexValue? c
    let d ← hexValue? d
    return (((a * 16 + b) * 16 + c) * 16 + d, rest)
  | _ => none

/-- The character that follows `\u`: four hexadecimal digits, or two such groups for a character
beyond U+FFFF. Halves of such a pair are refused. -/
def readUnicode? (t : Text) : Option (Char × Text) := do
  let (hi, rest) ← readHex4? t
  if 0xDC00 ≤ hi ∧ hi ≤ 0xDFFF then none
  else if 0xD800 ≤ hi ∧ hi ≤ 0xDBFF then
    match rest with
    | '\\' :: 'u' :: rest =>
      let (lo, rest) ← readHex4? rest
      if 0xDC00 ≤ lo ∧ lo ≤ 0xDFFF then
        some (Char.ofNat (0x10000 + (hi - 0xD800) * 0x400 + (lo - 0xDC00)), rest)
      else none
    | _ => none
  else some (Char.ofNat hi, rest)

/-- The characters of a string up to its closing quote, and the text after that. -/
def readStringBody? : Nat → Text → Option (Text × Text)
  | 0, _ => none
  | _ + 1, [] => none
  | fuel + 1, c :: rest =>
    if c = '"' then some ([], rest)
    else if c = '\\' then
      match rest with
      | 'u' :: rest =>
        match readUnicode? rest with
        | some (u, rest) => (readStringBody? fuel rest).map fun (s, r) => (u :: s, r)
        | none => none
      | e :: rest =>
        let plain : Option Char :=
          match e with
          | '"' => some '"'
          | '\\' => some '\\'
          | '/' => some '/'
          | 'b' => some '\x08'
          | 'f' => some '\x0c'
          | 'n' => some '\n'
          | 'r' => some '\r'
          | 't' => some '\t'
          | _ => none
        match plain with
        | some u => (readStringBody? fuel rest).map fun (s, r) => (u :: s, r)
        | none => none
      | [] => none
    else if c.toNat < 0x20 then none
    else (readStringBody? fuel rest).map fun (s, r) => (c :: s, r)

/-- The greatest natural of 64 bits. -/
def maxWord : Nat := 0xFFFFFFFFFFFFFFFF

/-- Takes digits into a significand while it fits 64 bits. Gives the significand, how many digits
were taken, and the text after them. -/
def takeDigits (significand : Nat) : Text → Nat × Nat × Text
  | [] => (significand, 0, [])
  | c :: rest =>
    if c.isDigit ∧ significand * 10 + Number.digitValue c ≤ maxWord then
      let (s, n, r) := takeDigits (significand * 10 + Number.digitValue c) rest
      (s, n + 1, r)
    else (significand, 0, c :: rest)

/-- The exponent of a number: a sign and at least one digit. An exponent that fits no 31 bits is
given as beyond every limit. -/
def readExponent? (t : Text) : Option (Bool × Nat × Text) :=
  let (negative, t) := match t with
    | '+' :: r => (false, r)
    | '-' :: r => (true, r)
    | r => (false, r)
  let ds := t.takeWhile Char.isDigit
  if ds = [] then none else some (negative, Number.ofDigits ds, t.dropWhile Char.isDigit)

/-- The greatest exponent that is counted; beyond it a number is zero or out of range. -/
def maxExponent : Nat := 0x7FFFFFFF

/-- A double from its significand, the power of ten it has so far, and the text after the digits,
which may be an exponent. -/
def finishDouble? (negative : Bool) (significand : Nat) (power : Int) (t : Text) :
    Option (Number × Text) :=
  match t with
  | e :: t' =>
    if e = 'e' ∨ e = 'E' then do
      let (down, exponent, rest) ← readExponent? t'
      if maxExponent < exponent then
        if significand ≠ 0 ∧ !down then none
        else
          let zero := CanvasSync.Number.Format.double.ofNat 0
          some (.double (if negative then zero.neg else zero), rest)
      else
        let power := if down then power - exponent else power + exponent
        let x ← CanvasSync.Number.scaled negative significand power
        return (.double x, rest)
    else (CanvasSync.Number.scaled negative significand power).map fun x => (.double x, e :: t')
  | [] => (CanvasSync.Number.scaled negative significand power).map fun x => (.double x, [])

/-- A fraction, from the text after its point: at least one digit; digits that no longer fit the
significand are passed over. -/
def readFraction? (negative : Bool) (significand : Nat) (power : Int) (t : Text) :
    Option (Number × Text) :=
  let (s, n, rest) := takeDigits significand t
  match rest with
  | c :: _ =>
    if c.isDigit then finishDouble? negative s (power - n) (rest.dropWhile Char.isDigit)
    else if n = 0 then none
    else finishDouble? negative s (power - n) rest
  | [] => if n = 0 then none else finishDouble? negative s (power - n) rest

/-- A number, from the text after its sign. -/
def readNumber? (negative : Bool) (t : Text) : Option (Number × Text) :=
  match t with
  | [] => none
  | c :: rest =>
    if !c.isDigit then none
    else
      let (s, n, after) := if c = '0' then (0, 1, rest) else takeDigits 0 t
      match after with
      | [] => some (wholeNumber s, [])
      | d :: after' =>
        if d.isDigit then
          if c = '0' then none
          else
            let extra := after.takeWhile Char.isDigit
            let tail := after.dropWhile Char.isDigit
            match tail with
            | '.' :: tail' => readFraction? negative s extra.length tail'
            | _ => finishDouble? negative s extra.length tail
        else if d = '.' then readFraction? negative s 0 after'
        else if d = 'e' ∨ d = 'E' then finishDouble? negative s 0 after
        else if n = 0 then none
        else some (wholeNumber s, after)
where
  /-- A whole number with its sign, a double where no 64 bits hold it. -/
  wholeNumber (s : Nat) : Number :=
    if !negative then .whole s
    else if s = 0 ∨ 0x8000000000000000 < s then .double (CanvasSync.Number.Format.double.ofNat s).neg
    else .whole (-(s : Int))

mutual
/-- One value, from a text whose leading blanks are passed over, at most `depth` levels deep. -/
def readValue? (fuel depth : Nat) (t : Text) : Option (Value × Text) :=
  match fuel with
  | 0 => none
  | fuel + 1 =>
    match skipSpace t with
    | [] => none
    | '"' :: rest => (readStringBody? (rest.length + 1) rest).map fun (s, r) =>
        (.string (String.ofList s), r)
    | '[' :: rest =>
      if depth = 0 then none
      else
        match skipSpace rest with
        | ']' :: r => some (.array [], r)
        | r => (readItems? fuel (depth - 1) r).map fun (vs, r) => (.array vs, r)
    | '{' :: rest =>
      if depth = 0 then none
      else
        match skipSpace rest with
        | '}' :: r => some (.object [], r)
        | r => (readMembers? fuel (depth - 1) r).map fun (ms, r) => (.object ms, r)
    | '-' :: rest => (readNumber? true rest).map fun (n, r) => (.number n, r)
    | 'n' :: 'u' :: 'l' :: 'l' :: rest => some (.null, rest)
    | 't' :: 'r' :: 'u' :: 'e' :: rest => some (.bool true, rest)
    | 'f' :: 'a' :: 'l' :: 's' :: 'e' :: rest => some (.bool false, rest)
    | t => (readNumber? false t).map fun (n, r) => (.number n, r)

/-- The items of an array up to its closing bracket; there is at least one. -/
def readItems? (fuel depth : Nat) (t : Text) : Option (List Value × Text) :=
  match fuel with
  | 0 => none
  | fuel + 1 =>
    match readValue? fuel depth t with
    | none => none
    | some (v, rest) =>
      match skipSpace rest with
      | ']' :: r => some ([v], r)
      | ',' :: r => (readItems? fuel depth r).map fun (vs, r) => (v :: vs, r)
      | _ => none

/-- The members of an object up to its closing brace; there is at least one. -/
def readMembers? (fuel depth : Nat) (t : Text) : Option (List (String × Value) × Text) :=
  match fuel with
  | 0 => none
  | fuel + 1 =>
    match skipSpace t with
    | '"' :: rest =>
      match readStringBody? (rest.length + 1) rest with
      | none => none
      | some (key, rest) =>
        match skipSpace rest with
        | ':' :: rest =>
          match readValue? fuel depth rest with
          | none => none
          | some (v, rest) =>
            match skipSpace rest with
            | '}' :: r => some ([(String.ofList key, v)], r)
            | ',' :: r =>
              (readMembers? fuel depth r).map fun (ms, r) => ((String.ofList key, v) :: ms, r)
            | _ => none
        | _ => none
    | _ => none
end

/-- A whole text as one value, members in the order of the text. -/
def read? (t : Text) : Option Value :=
  match readValue? (t.length + 1) depthLimit t with
  | some (v, rest) => if skipSpace rest = [] then some v else none
  | none => none

/-- A whole text as one value, members in order of key, the last of equal keys kept. -/
def parse? (t : Text) : Option Value := (read? t).map Value.sorted

end CanvasSync.Json
