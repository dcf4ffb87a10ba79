/-!
Texts and byte offsets into them.

A `Text` is its list of characters; an offset into it counts bytes of its UTF-8 form, so that
spans mean the same to every reader of the file.

* `size`: bytes of a text;
* `upTo`, `fromOffset`, `slice`: the parts of a text at an offset;
* `IsBoundary`: offsets between two characters;
* `cut?`: the text around the first occurrence of another text.
-/

namespace CanvasSync

/-- A text: its characters in order. -/
abbrev Text := List Char

/-- A stretch of a text, by the offsets of its two ends. -/
structure Span where
  start : Nat
  stop : Nat
  deriving DecidableEq, Repr, Inhabited

namespace Span

/-- Whether the first span lies within the second. -/
def within (inner outer : Span) : Bool :=
  outer.start ≤ inner.start && inner.stop ≤ outer.stop

end Span

namespace Text

/-- The bytes that a text takes in UTF-8. -/
def size : Text → Nat
  | [] => 0
  | c :: t => c.utf8Size + size t

/-- The longest beginning of a text that ends at or before an offset. -/
def upTo : Nat → Text → Text
  | _, [] => []
  | n, c :: t => if c.utf8Size ≤ n then c :: upTo (n - c.utf8Size) t else []

/-- What follows `upTo`. -/
def fromOffset : Nat → Text → Text
  | _, [] => []
  | n, c :: t => if c.utf8Size ≤ n then fromOffset (n - c.utf8Size) t else c :: t

/-- The part of a text between two offsets. -/
def slice (start stop : Nat) (t : Text) : Text := upTo (stop - start) (fromOffset start t)

/-- The part of a text that a span covers. -/
def covered (t : Text) (s : Span) : Text := slice s.start s.stop t

/-- Whether an offset lies at an end of a character of the text or at its start. -/
def IsBoundary (n : Nat) (t : Text) : Prop := size (upTo n t) = n

instance (n : Nat) (t : Text) : Decidable (IsBoundary n t) := inferInstanceAs (Decidable (_ = _))

/-- What is left of a text after a beginning. -/
def strip? : Text → Text → Option Text
  | [], t => some t
  | _ :: _, [] => none
  | p :: ps, c :: t => if p = c then strip? ps t else none

/-- Whether a text begins with another. -/
def startsWith (t p : Text) : Bool := (strip? p t).isSome

/-- Whether a text ends with another. -/
def endsWith (t p : Text) : Bool := startsWith t.reverse p.reverse

/-- What is left of a text before an end. -/
def stripEnd? (p t : Text) : Option Text := (strip? p.reverse t.reverse).map List.reverse

/-- The text before and the text after the first occurrence of `p`. -/
def cut? (p : Text) : Text → Option (Text × Text)
  | [] => if p = [] then some ([], []) else none
  | c :: t =>
    match strip? p (c :: t) with
    | some rest => some ([], rest)
    | none => (cut? p t).map fun (before, rest) => (c :: before, rest)

/-- Whether `p` occurs in the text. -/
def contains (t p : Text) : Bool := (cut? p t).isSome

/-- The texts between the occurrences of a character. -/
def splitAt (sep : Char → Bool) : Text → List Text
  | [] => [[]]
  | c :: t =>
    if sep c then [] :: splitAt sep t
    else
      match splitAt sep t with
      | [] => [[c]]
      | part :: parts => (c :: part) :: parts

/-- The texts joined by another. -/
def join (sep : Text) : List Text → Text
  | [] => []
  | [t] => t
  | t :: ts => t ++ sep ++ join sep ts

@[simp] theorem size_nil : size [] = 0 := rfl

@[simp] theorem size_cons (c : Char) (t : Text) : size (c :: t) = c.utf8Size + size t := rfl

@[simp] theorem size_append (a b : Text) : size (a ++ b) = size a + size b := by
  induction a with
  | nil => simp
  | cons c a ih => simp [ih, Nat.add_assoc]

/-- The beginning of a text up to the size of its first part is that part. -/
@[simp] theorem upTo_size_append (a b : Text) : upTo (size a) (a ++ b) = a := by
  induction a with
  | nil =>
    cases b with
    | nil => rfl
    | cons c b =>
      have : 0 < c.utf8Size := Char.utf8Size_pos c
      simp [upTo]
      omega
  | cons c a ih => simp [upTo, ih]

/-- What follows the first part of a text is its second part. -/
@[simp] theorem fromOffset_size_append (a b : Text) : fromOffset (size a) (a ++ b) = b := by
  induction a with
  | nil =>
    cases b with
    | nil => rfl
    | cons c b =>
      have : 0 < c.utf8Size := Char.utf8Size_pos c
      simp [fromOffset]
      omega
  | cons c a ih => simp [fromOffset, ih]

/-- Nothing is lost between the two parts of a text at an offset. -/
theorem upTo_append_fromOffset (n : Nat) (t : Text) : upTo n t ++ fromOffset n t = t := by
  induction t generalizing n with
  | nil => rfl
  | cons c t ih =>
    by_cases h : c.utf8Size ≤ n
    · simp [upTo, fromOffset, h, ih]
    · simp [upTo, fromOffset, h]

/-- The middle of three parts is the slice between the sizes of what stands before its ends. -/
theorem slice_append (a b c : Text) : slice (size a) (size a + size b) (a ++ b ++ c) = b := by
  simp [slice, List.append_assoc]

end Text

end CanvasSync
