import CanvasSync.Number.Binary

/-!
Decimal text of binary numbers.

* `Decimal`: digits and a power of ten, `digits · 10 ^ exponent`;
* `shortest`: the decimal with the fewest digits that reads back as the number, and of those the
  nearest one;
* `scaled`: the double that a decimal reads as, digits first and the power of ten second;
* `Layout.text`: where the point stands and when an exponent is written.
-/

namespace CanvasSync.Number

/-- The decimal number `digits · 10 ^ exponent`. -/
structure Decimal where
  digits : Nat
  exponent : Int
  deriving DecidableEq, Repr

/-- The digits of a natural, most significant first; zero has one digit. -/
def digitsOf (n : Nat) : List Char := Nat.toDigits 10 n

/-- The value of a digit character. -/
def digitValue (c : Char) : Nat := c.toNat - '0'.toNat

/-- The natural that a run of digits denotes. -/
def ofDigits (ds : List Char) : Nat := ds.foldl (fun n c => 10 * n + digitValue c) 0

namespace Decimal

/-- The decimal as a quotient of naturals. -/
def quotient (d : Decimal) : Nat × Nat :=
  if 0 ≤ d.exponent then (d.digits * Nat.pow 10 d.exponent.toNat, 1)
  else (d.digits, Nat.pow 10 (-d.exponent).toNat)

/-- The number of format `f` nearest to the decimal. -/
def round (f : Format) (negative : Bool) (d : Decimal) : Binary :=
  let (a, b) := d.quotient
  f.round negative a b

end Decimal

/-- The least `k ≤ fuel` with `den ≤ num · 10 ^ k`. -/
def leadingZeros (num den : Nat) : Nat → Nat
  | 0 => 0
  | fuel + 1 => if den ≤ num then 0 else leadingZeros (10 * num) den fuel + 1

/-- The power of ten of the leading digit of `num / den`, for `num / den` not zero and at least
`10 ^ (-400)`. -/
def leadingPower (num den : Nat) : Int :=
  if den ≤ num then (digitsOf (num / den)).length - 1
  else -(leadingZeros num den 400 : Nat)

/-- The neighbour of `num / den` on the grid of multiples of `10 ^ k` that reads back as the
number `x`: of two the nearer one, of two equally near ones the even one. -/
def gridHit (f : Format) (x : Binary) (num den : Nat) (k : Int) : Option Decimal :=
  let (a, b) := if 0 ≤ k then (num, den * Nat.pow 10 k.toNat)
    else (num * Nat.pow 10 (-k).toNat, den)
  let below : Decimal := ⟨a / b, k⟩
  let above : Decimal := ⟨a / b + 1, k⟩
  let reads (d : Decimal) : Bool := d.round f x.isNegative == x
  match reads below, reads above with
  | true, true => some (if roundHalfEven a b = below.digits then below else above)
  | true, false => some below
  | false, true => some above
  | false, false => none

/-- The first grid, counted from `n` digits on, that has a point which reads back as `x`. -/
def shortestFrom (f : Format) (x : Binary) (num den : Nat) (lead : Int) :
    Nat → Nat → Option Decimal
  | 0, _ => none
  | fuel + 1, n =>
    match gridHit f x num den (lead - n + 1) with
    | some d => some d
    | none => shortestFrom f x num den lead fuel (n + 1)

/-- All digits of `num / den`, where `den` is a power of two. -/
def exactDecimal (num den : Nat) : Decimal :=
  ⟨num * Nat.pow 5 den.log2, -(den.log2 : Nat)⟩

/-- The decimal with the fewest digits that reads back as a finite number of format `f`, and of
those the nearest one. -/
def shortest (f : Format) (x : Binary) : Option Decimal :=
  match x.magnitude? with
  | none => none
  | some (num, den) =>
    if num = 0 then some ⟨0, 0⟩
    else
      match shortestFrom f x num den (leadingPower num den) 17 1 with
      | some d => some d
      | none => some (exactDecimal num den)

/-- How decimals are written: positional while the power of ten of the leading digit lies between
`least` and `greatest`, otherwise with an exponent. -/
structure Layout where
  least : Int
  greatest : Int
  deriving DecidableEq, Repr

/-- The layout of JSON numbers: positional from `10 ^ -5` to below `10 ^ 16`. -/
def Layout.json : Layout := ⟨-5, 15⟩

/-- Drops zeros at the end of a run of digits. -/
def dropTrailingZeros (ds : List Char) : List Char :=
  (ds.reverse.dropWhile (· == '0')).reverse

/-- The text of a decimal. Positional text always has a fraction; an exponent always has a sign. -/
def Layout.text (l : Layout) (d : Decimal) : List Char :=
  let all := digitsOf d.digits
  let lead : Int := all.length - 1 + d.exponent
  let ds := match dropTrailingZeros all with
    | [] => ['0']
    | ds => ds
  if d.digits = 0 then ['0', '.', '0']
  else if l.least ≤ lead ∧ lead ≤ l.greatest then
    if lead < 0 then
      ['0', '.'] ++ List.replicate ((-lead).toNat - 1) '0' ++ ds
    else
      let whole := lead.toNat + 1
      let front := ds.take whole ++ List.replicate (whole - ds.length) '0'
      let back := ds.drop whole
      front ++ ['.'] ++ (if back.isEmpty then ['0'] else back)
  else
    let front := ds.take 1
    let back := ds.drop 1
    front ++ (if back.isEmpty then [] else '.' :: back) ++ ['e']
      ++ (if lead < 0 then '-' :: digitsOf (-lead).toNat else '+' :: digitsOf lead.toNat)

/-- The text of a finite double: its shortest decimal, with the sign kept for zero too. -/
def doubleText (x : Binary) : Option (List Char) :=
  (shortest .double x).map fun d =>
    (if x.isNegative then ['-'] else []) ++ Layout.json.text d

/-- Powers of ten up to `10 ^ 308` as doubles. -/
def tenPower (k : Nat) : Binary := (Decimal.mk 1 k).round .double false

/-- The steps that take a double down by `10 ^ 308` until the power of ten left is in range. -/
def scaleSmall (x : Binary) (k : Nat) : Nat → Binary
  | 0 => x
  | fuel + 1 =>
    if k ≤ 308 then x.div .double (tenPower k)
    else if x.isZero then x
    else scaleSmall (x.div .double (tenPower 308)) (k - 308) fuel

/-- The double that `digits · 10 ^ exponent` reads as: the digits are rounded to a double, which is
then multiplied or divided by a power of ten that is itself rounded to a double. A result beyond
the finite doubles is refused. -/
def scaled (negative : Bool) (digits : Nat) (exponent : Int) : Option Binary :=
  let x := Format.double.ofNat digits
  let sign (y : Binary) : Binary := if negative then y.neg else y
  if 0 ≤ exponent then
    if exponent ≤ 308 then
      match x.mul .double (tenPower exponent.toNat) with
      | .infinite _ => none
      | y => some (sign y)
    else if x.isZero then some (sign x)
    else none
  else
    let k := (-exponent).toNat
    some (sign (scaleSmall x k (k / 308 + 1)))

end CanvasSync.Number
