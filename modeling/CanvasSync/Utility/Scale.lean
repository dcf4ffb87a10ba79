import CanvasSync.Number.Decimal
import CanvasSync.Utility.Style

/-!
The spacing scale: classes such as `p-4` and `-mt-2`, whose last part counts quarters of a rem.

* `fractionText`: hundredths as a decimal without zeros at its end;
* `Scale.split?`: sign, name and step of a token;
* `Scale.declaration?`: the declaration of a token.
-/

namespace CanvasSync.Utility

/-- `n` hundredths as a decimal, without zeros at its end and without a bare point. -/
def fractionText (n : Nat) : Text :=
  let whole := Number.digitsOf (n / 100)
  let r := n % 100
  if r = 0 then whole
  else whole ++ '.' :: Number.dropTrailingZeros [Nat.digitChar (r / 10), Nat.digitChar (r % 10)]

namespace Scale

/-- The names of the scale with the property that each sets. A name for two sides stands for the
first of them. -/
def names : List (String × String) :=
  [("w", "width"), ("h", "height"), ("p", "padding"), ("px", "padding-left"),
   ("py", "padding-top"), ("pt", "padding-top"), ("pr", "padding-right"),
   ("pb", "padding-bottom"), ("pl", "padding-left"), ("m", "margin"), ("mx", "margin-left"),
   ("my", "margin-top"), ("mt", "margin-top"), ("mr", "margin-right"), ("mb", "margin-bottom"),
   ("ml", "margin-left"), ("gap", "gap")]

/-- The steps that completion offers. -/
def offeredSteps : List Nat := [0, 1, 2, 3, 4, 5, 6, 8, 10, 12, 16, 20, 24, 32, 40, 48, 64]

/-- The greatest step. -/
def maxStep : Nat := 0xFFFFFFFF

/-- The length of a step: a quarter of a rem each, `0px` for none. -/
def length (step : Nat) (negative : Bool) : Text :=
  if step = 0 then "0px".toList
  else (if negative then ['-'] else []) ++ fractionText (25 * step) ++ "rem".toList

/-- Whether a character is a small letter of ASCII. -/
def isSmallLetter (c : Char) : Bool := 'a' ≤ c && c ≤ 'z'

/-- A name of small letters, a hyphen and digits, with the sign in front of them. -/
def split? (t : Text) : Option (Bool × Text × Nat) :=
  let (negative, t) := match t with
    | '-' :: r => (true, r)
    | r => (false, r)
  let name := t.takeWhile isSmallLetter
  match t.dropWhile isSmallLetter with
  | '-' :: digits =>
    if name ≠ [] ∧ digits ≠ [] ∧ digits.all Char.isDigit
        ∧ Number.ofDigits digits ≤ maxStep then
      some (negative, name, Number.ofDigits digits)
    else none
  | _ => none

/-- Whether a property is a margin, which alone may be negative. -/
def isMargin (property : String) : Bool := Text.startsWith property.toList "margin".toList

/-- The declaration of a token of the scale. -/
def declaration? (t : Text) : Option Declaration := do
  let (negative, name, step) ← split? t
  let property ← names.lookup (String.ofList name)
  if negative ∧ !isMargin property then none
  else some ⟨property, String.ofList (length step negative)⟩

end Scale

end CanvasSync.Utility
