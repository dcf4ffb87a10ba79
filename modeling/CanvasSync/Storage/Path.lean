import CanvasSync.Text.Basic

/-!
Paths of files.

A path is written as it was given, but means its parts: doubled slashes, slashes at the end and dots
in the middle do not count, and `..` is kept. Two paths are the same file if their parts agree.

* `Path.parts`: the parts of a path;
* `Path.same`, `Path.precedes`, `Path.isWithin`: relations between paths, all by parts;
* `Path.join`, `Path.parent?`, `Path.ancestors`: paths from paths;
* `Path.extension?`: what stands behind the last dot of the name.
-/

namespace CanvasSync.Storage

/-- A path as it is written. -/
structure Path where
  text : String
  deriving DecidableEq, Repr, Inhabited

/-- A part of a path. -/
inductive Part where
  /-- The slash at the start. -/
  | root
  /-- The dot at the start of a relative path. -/
  | here
  /-- Two dots. -/
  | up
  | name (text : Text)
  deriving DecidableEq, Repr

namespace Part

/-- The place of a kind of part in the order of paths. -/
def rank : Part → Nat
  | root => 0
  | here => 1
  | up => 2
  | name _ => 3

/-- Whether a text comes before another, by code points. -/
def textPrecedes : Text → Text → Bool
  | [], [] => false
  | [], _ :: _ => true
  | _ :: _, [] => false
  | a :: as, b :: bs => if a = b then textPrecedes as bs else a.toNat < b.toNat

/-- Whether a part comes before another: by kind, then by name. -/
def precedes : Part → Part → Bool
  | name a, name b => textPrecedes a b
  | a, b => a.rank < b.rank

/-- The part of a text between slashes; nothing if it is empty or a dot. -/
def ofText? (t : Text) : Option Part :=
  if t = [] ∨ t = ['.'] then none else if t = ['.', '.'] then some up else some (name t)

end Part

/-- Whether a list of parts comes before another, part by part. -/
def partsPrecede : List Part → List Part → Bool
  | [], [] => false
  | [], _ :: _ => true
  | _ :: _, [] => false
  | a :: as, b :: bs => if a = b then partsPrecede as bs else a.precedes b

namespace Path

/-- The texts between the slashes of a path. -/
def segments (p : Path) : List Text := Text.splitAt (· = '/') p.text.toList

/-- The parts of a path. -/
def parts (p : Path) : List Part :=
  match p.segments with
  | [] :: s :: rest => .root :: (s :: rest).filterMap Part.ofText?
  | ['.'] :: rest => .here :: rest.filterMap Part.ofText?
  | all => all.filterMap Part.ofText?

/-- Whether two paths mean the same file. -/
def same (a b : Path) : Bool := a.parts = b.parts

/-- Whether a path comes before another. -/
def precedes (a b : Path) : Bool := partsPrecede a.parts b.parts

/-- Whether a path is a folder itself or lies within it. -/
def isWithin (p folder : Path) : Bool := folder.parts.isPrefixOf p.parts

/-- Whether a path starts at the root. -/
def isAbsolute (p : Path) : Bool := Text.startsWith p.text.toList ['/']

/-- Whether nothing is written. -/
def isEmpty (p : Path) : Bool := p.text = ""

/-- A path seen from a folder; an absolute one stays as it is. -/
def join (folder p : Path) : Path :=
  if p.isAbsolute then p
  else
    let slash := if folder.isEmpty || Text.endsWith folder.text.toList ['/'] then "" else "/"
    ⟨folder.text ++ slash ++ p.text⟩

/-- Texts without those at the end that are no part. -/
def dropIdle (segments : List Text) : List Text :=
  (segments.reverse.dropWhile fun s => (Part.ofText? s).isNone).reverse

/-- Texts with slashes between them behind a start. -/
def ofSegments (start : Text) (segments : List Text) : Path :=
  ⟨String.ofList (start ++ Text.join ['/'] segments)⟩

/-- The path without its last part, behind a start that counts by itself. -/
def parentBehind (start : Text) (segments : List Text) : Option Path :=
  match dropIdle segments with
  | [] => none
  | kept => some (ofSegments start (dropIdle kept.dropLast))

/-- The path without its last part. -/
def parent? (p : Path) : Option Path :=
  match p.segments with
  | [] :: s :: rest => parentBehind ['/'] (s :: rest)
  | ['.'] :: rest =>
    match dropIdle rest with
    | [] => some ⟨""⟩
    | kept =>
      match dropIdle kept.dropLast with
      | [] => some ⟨"."⟩
      | above => some (ofSegments ['.', '/'] above)
  | all => parentBehind [] all

/-- The path and what is left of it without its last parts, `count` times at most. -/
def ancestorsWithin : (count : Nat) → Path → List Path
  | 0, _ => []
  | count + 1, p =>
    p :: match p.parent? with
      | some parent => ancestorsWithin count parent
      | none => []

/-- The path, its parent, the parent of that and so on. -/
def ancestors (p : Path) : List Path := ancestorsWithin (p.parts.length + 1) p

/-- The name that a path ends in. -/
def name? (p : Path) : Option Text :=
  match p.parts.getLast? with
  | some (.name t) => some t
  | _ => none

/-- What stands behind the last dot of the name, unless that is its first character. -/
def extension? (p : Path) : Option Text := do
  let name ← p.name?
  let (after, before) ← Text.cut? ['.'] name.reverse
  if before = [] then none else some after.reverse

end Path

end CanvasSync.Storage
