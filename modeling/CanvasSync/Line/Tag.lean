import CanvasSync.Markup.Printer
import CanvasSync.Text.Blank

/-!
The first opening tag of a line, found without reading the line as markup.

* `Tag.split?`: the line around its first opening tag;
* `Tag.inject`: an attribute added to that tag;
* `Tag.findAttribute?`: the line around an attribute of that tag.
-/

namespace CanvasSync.Line

/-- A line around its first opening tag: what stands before it, the tag without its last sign, and
the rest from that sign on. -/
structure Tag where
  before : Text
  body : Text
  after : Text
  deriving DecidableEq, Repr

namespace Tag

/-- Splits a text at the greater-than sign that ends a tag: one outside quotes and braces. -/
def splitEnd? : (quote : Option Char) → (depth : Nat) → Text → Option (Text × Text)
  | _, _, [] => none
  | some q, depth, c :: t =>
    (splitEnd? (if c = q then none else some q) depth t).map fun (b, a) => (c :: b, a)
  | none, depth, c :: t =>
    if c = '>' ∧ depth = 0 then some ([], c :: t)
    else
      let next :=
        if c = '"' ∨ c = '\'' ∨ c = '\x60' then splitEnd? (some c) depth t
        else if c = '\x7b' then splitEnd? none (depth + 1) t
        else if c = '\x7d' then splitEnd? none (depth - 1) t
        else splitEnd? none depth t
      next.map fun (b, a) => (c :: b, a)

/-- Splits a line at the first less-than sign with a letter of ASCII behind it. -/
def splitStart? : Text → Option (Text × Text)
  | '<' :: c :: t =>
    if c.isAlpha then some ([], '<' :: c :: t)
    else (splitStart? (c :: t)).map fun (b, a) => ('<' :: b, a)
  | c :: t => (splitStart? t).map fun (b, a) => (c :: b, a)
  | [] => none

/-- The line around its first opening tag, if that ends on the line. -/
def split? (line : Text) : Option Tag := do
  let (before, rest) ← splitStart? line
  let (body, after) ← splitEnd? none 0 (rest.drop 1)
  return ⟨before, '<' :: body, after⟩

/-- What stands before the end of the tag. -/
def head (t : Tag) : Text := t.before ++ t.body

/-- Whether the tag closes itself. -/
def closesItself (t : Tag) : Bool := t.head.getLast? = some '/'

/-- The line with an attribute added behind the last one of its first opening tag; a line without
such a tag stays as it is. -/
def inject (line added : Text) : Text :=
  match split? line with
  | none => line
  | some t =>
    let head := Text.trimEnd (if t.closesItself then t.head.dropLast else t.head)
    head ++ ' ' :: added ++ line.drop head.length

/-- What follows a value in braces, `depth` of them being open. -/
def afterBraces? : Nat → Text → Option Text
  | _, [] => none
  | depth, c :: t =>
    if c = '\x7b' then afterBraces? (depth + 1) t
    else if c = '\x7d' then if depth ≤ 1 then some t else afterBraces? (depth - 1) t
    else afterBraces? depth t

/-- What follows a character. -/
def afterChar? (q : Char) : Text → Option Text
  | [] => none
  | c :: t => if c = q then some t else afterChar? q t

/-- What follows the value of an attribute: a string in quotes or an expression in braces. -/
def afterValue? : Text → Option Text
  | [] => none
  | c :: t =>
    if c = '"' ∨ c = '\'' then afterChar? c t
    else if c = '\x7b' then afterBraces? 0 (c :: t)
    else none

/-- How the search for an attribute goes on at an occurrence of its name. -/
inductive Found where
  /-- The attribute stands here; its value may not end on the line. -/
  | here (around : Option (Text × Text))
  /-- The name is part of something else: the search goes on behind it. -/
  | further
  deriving DecidableEq, Repr

/-- What an occurrence of a name is, by what stands before and behind it: an attribute has a blank
before it, and an equals sign, a blank or the end of the tag behind it. -/
def judge (head tail : Text) : Found :=
  if (head.getLast?).any isBlank then
    match tail with
    | '=' :: value => .here ((afterValue? value).map fun rest => (head, rest))
    | c :: _ => if isBlank c || c = '/' || c = '>' then .here (some (head, tail)) else .further
    | [] => .further
  else .further

/-- One step of the search for an attribute in a tag: the result, or what of the tag is left behind
an occurrence of the name that is not the attribute. -/
def searchStep (t : Tag) (name : Text) : Sum (Option (Text × Text)) Tag :=
  match Text.cut? name t.body with
  | none => .inl none
  | some (skipped, rest) =>
    let head := t.before ++ skipped
    match judge head (rest ++ t.after) with
    | .here around => .inl around
    | .further => .inr { t with before := head ++ name, body := rest }

/-- The line around an attribute of its first opening tag, if it is found: the result of the first
step of the search that has one; nothing if no step ever has one. -/
def findAttribute? (t : Tag) (name : Text) : Option (Option (Text × Text)) :=
  match t.searchStep name with
  | .inl result => some result
  | .inr rest => rest |>.findAttribute? name
partial_fixpoint

end Tag

end CanvasSync.Line
