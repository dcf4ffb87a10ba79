import CanvasSync.Script.Escape
import CanvasSync.Script.Token

/-!
The next token of a script.

* `Cursor`: a place in a text;
* `Lexer.next`: the token at a place, blanks and comments passed over;
* `Lexer.nextMarkup`: the token between tags, where blanks count;
* `Lexer.nextValue`: the token after the equals sign of an attribute, whose quotes take no escapes;
* `Lexer.patternFrom`, `Lexer.templateFrom`, `Lexer.joined`: tokens that only the reader can tell
  from shorter ones.
-/

namespace CanvasSync.Script

/-- A place in a text: its offset and the text from there on. -/
structure Cursor where
  offset : Nat
  rest : Text
  deriving Repr, Inhabited

namespace Cursor

/-- Passes over the characters with a property, from an offset on. -/
def dropFrom (p : Char → Bool) : Nat → Text → Cursor
  | o, [] => ⟨o, []⟩
  | o, c :: t => if p c then dropFrom p (o + c.utf8Size) t else ⟨o, c :: t⟩

/-- The place after the characters with a property. -/
def dropWhile (p : Char → Bool) (c : Cursor) : Cursor := dropFrom p c.offset c.rest

/-- The place after one character. -/
def step (c : Cursor) : Cursor :=
  match c.rest with
  | [] => c
  | x :: t => ⟨c.offset + x.utf8Size, t⟩

/-- The place after a given text, if that stands here. -/
def strip? (p : Text) (c : Cursor) : Option Cursor :=
  (Text.strip? p c.rest).map fun t => ⟨c.offset + Text.size p, t⟩

/-- The character here. -/
def head? (c : Cursor) : Option Char := c.rest.head?

end Cursor

namespace Lexer

/-- Where the reader of blanks stands. -/
inductive Trivia where
  | between
  | lineComment
  | blockComment
  deriving DecidableEq

/-- The place of the next token, and whether a line ends before it. A block comment that does not
end has none. -/
def skipTrivia : Trivia → Bool → Nat → Text → Option (Bool × Cursor)
  | .blockComment, _, _, [] => none
  | _, ended, o, [] => some (ended, ⟨o, []⟩)
  | .between, ended, o, '/' :: '/' :: t => skipTrivia .lineComment ended (o + 2) t
  | .between, ended, o, '/' :: '*' :: t => skipTrivia .blockComment ended (o + 2) t
  | .blockComment, ended, o, '*' :: '/' :: t => skipTrivia .between ended (o + 2) t
  | mode, ended, o, c :: t =>
    if Character.isLineEnd c then
      skipTrivia (if mode = .blockComment then .blockComment else .between) true
        (o + c.utf8Size) t
    else if mode = .between && !Character.isSpace c then some (ended, ⟨o, c :: t⟩)
    else skipTrivia mode ended (o + c.utf8Size) t

/-- The characters of a word, escapes decoded, and whether there was an escape. -/
def wordParts : Nat → Cursor → Option (Text × Bool × Cursor)
  | 0, _ => none
  | fuel + 1, c =>
    match c.rest with
    | '\\' :: 'u' :: t =>
      match Escape.unicode? t with
      | some ([x], rest) =>
        if Character.isNamePart x then
          let used := Text.size t - Text.size rest
          (wordParts fuel ⟨c.offset + 2 + used, rest⟩).map fun (w, _, c) => (x :: w, true, c)
        else none
      | _ => none
    | '\\' :: _ => none
    | x :: t =>
      if Character.isNamePart x then
        (wordParts fuel ⟨c.offset + x.utf8Size, t⟩).map fun (w, escaped, c) => (x :: w, escaped, c)
      else some ([], false, c)
    | [] => some ([], false, c)

/-- A word that begins here. -/
def word? (c : Cursor) : Option (Text × Bool × Cursor) :=
  let after := c.dropWhile Character.isNamePart
  let read :=
    if after.head? = some '\\' then wordParts (c.rest.length + 1) c
    else some (c.rest.takeWhile Character.isNamePart, false, after)
  match read with
  | some (x :: w, escaped, c) =>
    if Character.isNameStart x then some (x :: w, escaped, c) else none
  | _ => none

/-- Digits with single underscores between them, from after a digit on. -/
def digitsFrom (isDigit : Char → Bool) : Nat → Text → Option Cursor
  | o, [] => some ⟨o, []⟩
  | o, '_' :: d :: t => if isDigit d then digitsFrom isDigit (o + 2) t else none
  | o, c :: t =>
    if isDigit c then digitsFrom isDigit (o + 1) t
    else if c = '_' then none
    else some ⟨o, c :: t⟩

/-- At least one digit, with single underscores between digits. -/
def digits? (isDigit : Char → Bool) (c : Cursor) : Option Cursor :=
  match c.rest with
  | d :: _ => if isDigit d then digitsFrom isDigit c.step.offset c.step.rest else none
  | [] => none

/-- An exponent, if there is one. -/
def exponent? (c : Cursor) : Option Cursor :=
  match c.rest with
  | e :: _ =>
    if e = 'e' ∨ e = 'E' then
      let c := c.step
      let c := if c.head? = some '+' ∨ c.head? = some '-' then c.step else c
      digits? Char.isDigit c
    else some c
  | [] => some c

/-- The digits after a point, if any, and an exponent. -/
def fraction? (c : Cursor) : Option Cursor := do
  let c ← if c.head?.any Char.isDigit then digits? Char.isDigit c else some c
  exponent? c

/-- A number that begins here, and whether it is a big integer. -/
def numberBody? (c : Cursor) : Option (Kind × Cursor) :=
  let radix (isDigit : Char → Bool) (c : Cursor) : Option (Kind × Cursor) := do
    let c ← digits? isDigit c
    return if c.head? = some 'n' then (.bigInteger, c.step) else (.number, c)
  match c.rest with
  | '0' :: x :: _ =>
    if x = 'x' ∨ x = 'X' then radix Character.isHexDigit c.step.step
    else if x = 'b' ∨ x = 'B' then radix Character.isBinaryDigit c.step.step
    else if x = 'o' ∨ x = 'O' then radix Character.isOctalDigit c.step.step
    else if x.isDigit then do
      let whole := c.dropWhile Char.isDigit
      let octal := (c.rest.takeWhile Char.isDigit).all Character.isOctalDigit
      if octal then return (.number, whole)
      else
        let c ← if whole.head? = some '.' then fraction? whole.step else exponent? whole
        return (.number, c)
    else if x = 'n' then some (.bigInteger, c.step.step)
    else if x = '_' then none
    else if x = '.' then (fraction? c.step.step).map fun c => (.number, c)
    else (exponent? c.step).map fun c => (.number, c)
  | '.' :: _ => (fraction? c.step).map fun c => (.number, c)
  | _ => do
    let c ← digits? Char.isDigit c
    if c.head? = some 'n' then return (.bigInteger, c.step)
    else if c.head? = some '.' then return (.number, ← fraction? c.step)
    else return (.number, ← exponent? c)

/-- A number that begins here and is not followed by a name or a digit. -/
def number? (c : Cursor) : Option (Kind × Cursor) := do
  let (kind, c) ← numberBody? c
  if c.head?.any fun x => Character.isNameStart x || x.isDigit || x = '\\' then none
  else return (kind, c)

/-- The characters up to a quote on the same line, escapes left as they are. -/
def quotedRaw (quote : Char) : Nat → Text → Option (Text × Cursor)
  | _, [] => none
  | o, '\\' :: '\r' :: '\n' :: t =>
    (quotedRaw quote (o + 3) t).map fun (s, c) => ('\\' :: '\r' :: '\n' :: s, c)
  | o, '\\' :: x :: t =>
    (quotedRaw quote (o + 1 + x.utf8Size) t).map fun (s, c) => ('\\' :: x :: s, c)
  | o, x :: t =>
    if x = quote then some ([], ⟨o + 1, t⟩)
    else if x = '\n' ∨ x = '\r' then none
    else (quotedRaw quote (o + x.utf8Size) t).map fun (s, c) => (x :: s, c)

/-- A string, from after its opening quote. -/
def string? (quote : Char) (c : Cursor) : Option (Kind × Cursor) := do
  let (raw, c) ← quotedRaw quote c.offset c.rest
  let value ← Escape.decode? raw
  return (.string value, c)

/-- The value of an attribute, from after its opening quote: all characters up to the next one. -/
def plainString? (quote : Char) : Nat → Text → Option (Text × Cursor)
  | _, [] => none
  | o, x :: t =>
    if x = quote then some ([], ⟨o + 1, t⟩)
    else (plainString? quote (o + x.utf8Size) t).map fun (s, c) => (x :: s, c)

/-- A part of a template up to a substitution or to the end of the template; the flag tells that
the template ends. -/
def templateRaw : Nat → Text → Option (Text × Bool × Cursor)
  | _, [] => none
  | o, '\\' :: x :: t =>
    (templateRaw (o + 1 + x.utf8Size) t).map fun (s, done, c) => ('\\' :: x :: s, done, c)
  | o, '$' :: '\x7b' :: t => some ([], false, ⟨o + 2, t⟩)
  | o, x :: t =>
    if x = '\x60' then some ([], true, ⟨o + 1, t⟩)
    else (templateRaw (o + x.utf8Size) t).map fun (s, done, c) => (x :: s, done, c)

/-- A part of a template, from after its opening sign. -/
def template? (c : Cursor) : Option (Kind × Cursor) :=
  (templateRaw c.offset c.rest).map fun (raw, done, c) =>
    (if done then .templateEnd (Escape.isCooked raw) else .templatePart (Escape.isCooked raw), c)

/-- The body of a regular expression up to its closing slash; `inClass` within brackets. -/
def patternBody (inClass : Bool) : Nat → Text → Option Cursor
  | _, [] => none
  | o, '\\' :: x :: t =>
    if Character.isLineEnd x then none else patternBody inClass (o + 1 + x.utf8Size) t
  | o, x :: t =>
    if Character.isLineEnd x then none
    else if x = '/' ∧ !inClass then some ⟨o + 1, t⟩
    else if x = '[' then patternBody true (o + 1) t
    else if x = ']' then patternBody false (o + 1) t
    else patternBody inClass (o + x.utf8Size) t

/-- A regular expression, from after its opening slash: known flags, each at most once. -/
def pattern? (c : Cursor) : Option (Kind × Cursor) := do
  let c ← patternBody false c.offset c.rest
  let isFlag (x : Char) : Bool := x.isAlphanum || x = '$' || x = '_'
  let flags := c.rest.takeWhile isFlag
  if flags.all (fun x => "dgimsuvy".toList.contains x) ∧ flags.eraseDups = flags then
    return (.pattern, c.dropWhile isFlag)
  else none

/-- The signs, longer ones before their beginnings. -/
def signs : List String :=
  ["...", "===", "!==", "**=", "<<=", "&&=", "||=", "??=", "=>", "==", "!=", "++", "--", "+=",
   "-=", "**", "*=", "/=", "%=", "&&", "&=", "||", "|=", "^=", "<<", "<=", "??", "?.", "\x7b",
   "\x7d", "(", ")", "[", "]", ";", ",", "<", ">", "?", ":", ".", "~", "!", "=", "+", "-", "*",
   "/", "%", "&", "|", "^", "@"]

/-- The longest sign that stands here. A question mark before a fraction is no optional chain. -/
def sign? (c : Cursor) : Option (Kind × Cursor) :=
  signs.findSome? fun s =>
    match c.strip? s.toList with
    | some c' => if s = "?." ∧ c'.head?.any Char.isDigit then none else some (.sign s, c')
    | none => none

/-- The token at a place where one begins. -/
def bare (c : Cursor) : Option (Kind × Cursor) :=
  match c.rest with
  | [] => some (.finish, c)
  | x :: t =>
    if x = '"' ∨ x = '\'' then string? x c.step
    else if x = '\x60' then template? c.step
    else if x.isDigit ∨ (x = '.' ∧ t.head?.any Char.isDigit) then number? c
    else if x = '#' then (word? c.step).map fun (_, _, c) => (.privateName, c)
    else if Character.isNameStart x ∨ x = '\\' then
      (word? c).map fun (w, escaped, c) => (.word (String.ofList w) escaped, c)
    else sign? c

/-- A kind of token between two places. -/
def tokenAt (ended : Bool) (start : Cursor) : Option (Kind × Cursor) → Token × Cursor
  | some (kind, c) => (⟨kind, ⟨start.offset, c.offset⟩, ended⟩, c)
  | none => (⟨.broken, ⟨start.offset, start.offset⟩, ended⟩, start)

/-- The next token with the place where it begins and the place after it. -/
def nextBy (read : Cursor → Option (Kind × Cursor)) (c : Cursor) : Token × Cursor × Cursor :=
  match skipTrivia .between false c.offset c.rest with
  | none =>
    let (t, c') := tokenAt false c none
    (t, c, c')
  | some (ended, start) =>
    let (t, c') := tokenAt ended start (read start)
    (t, start, c')

/-- The next token, blanks and comments passed over. -/
def next (c : Cursor) : Token × Cursor × Cursor := nextBy bare c

/-- The next token after the equals sign of an attribute. -/
def nextValue (c : Cursor) : Token × Cursor × Cursor :=
  nextBy
    (fun c =>
      match c.rest with
      | x :: _ =>
        if x = '"' ∨ x = '\'' then
          (plainString? x c.step.offset c.step.rest).map fun (s, c) => (.string s, c)
        else bare c
      | [] => bare c)
    c

/-- The next token between tags: a tag or a brace begins one, all else is text. -/
def nextMarkup (c : Cursor) : Token × Cursor × Cursor :=
  let read : Option (Kind × Cursor) :=
    match c.rest with
    | [] => some (.finish, c)
    | '<' :: _ => some (.sign "<", c.step)
    | '\x7b' :: _ => some (.sign "\x7b", c.step)
    | _ => some (.markupText, c.dropWhile fun x => x ≠ '<' && x ≠ '\x7b')
  let (t, c') := tokenAt false c read
  (t, c, c')

/-- The operators that begin with a greater-than sign, longer ones first. -/
def joinedSigns : List String := [">>>=", ">>>", ">>=", ">=", ">>", ">"]

/-- The longest operator that begins with the greater-than sign here. -/
def joined (c : Cursor) : Option (Kind × Cursor) :=
  joinedSigns.findSome? fun s => (c.strip? s.toList).map fun c' => (.sign s, c')

end Lexer

end CanvasSync.Script
