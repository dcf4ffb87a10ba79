/-!
Binary floating-point numbers as a sign, a whole mantissa and a power of two.

* `Format`: how many bits a mantissa has and how far exponents reach;
* `Binary`: a number of some format, finite or infinite;
* `Format.round`: the number of a format nearest to a quotient of two naturals, ties to the even
  mantissa.

All arithmetic is exact on naturals and rounds once, in `Format.round`. A finite number is
*normal for* a format when its mantissa fills the precision or its exponent is the least one;
`Format.round` only gives such numbers, so equality of numbers is equality of their parts.
-/

namespace CanvasSync.Number

/-- The shape of a binary format: mantissas lie below `2 ^ precision`, exponents between
`leastExponent` and `greatestExponent`. -/
structure Format where
  /-- Bits of a full mantissa. -/
  precision : Nat
  /-- The exponent of the smallest spacing. -/
  leastExponent : Int
  /-- The exponent beyond which a full mantissa is infinite. -/
  greatestExponent : Int
  deriving DecidableEq, Repr

/-- Numbers of 64 bits. -/
def Format.double : Format := ⟨53, -1074, 971⟩

/-- Numbers of 32 bits. -/
def Format.single : Format := ⟨24, -149, 104⟩

/-- A binary number: `± mantissa · 2 ^ exponent`, or an infinity. -/
inductive Binary where
  /-- The number `mantissa · 2 ^ exponent` with a sign; zero keeps its sign. -/
  | finite (negative : Bool) (mantissa : Nat) (exponent : Int)
  /-- Beyond every finite number. -/
  | infinite (negative : Bool)
  deriving DecidableEq, Repr, Inhabited

/-- `a / b` rounded to the nearest natural, a half to the even neighbour. -/
def roundHalfEven (a b : Nat) : Nat :=
  let q := a / b
  let r := a % b
  if 2 * r < b then q
  else if b < 2 * r then q + 1
  else if q % 2 = 0 then q
  else q + 1

/-- `num / den · 2 ^ (-e)` as a pair of naturals. -/
def scaleDown (num den : Nat) (e : Int) : Nat × Nat :=
  if 0 ≤ e then (num, den * Nat.pow 2 e.toNat) else (num * Nat.pow 2 (-e).toNat, den)

namespace Format

/-- The exponent at which `num / den` has a mantissa of full precision, or the least exponent of
the format if that is greater. -/
def exponentOf (f : Format) (num den : Nat) : Int :=
  let guess : Int := (num.log2 : Int) - den.log2 - f.precision
  let fits (e : Int) : Bool :=
    let (a, b) := scaleDown num den e
    a < b * Nat.pow 2 f.precision
  let e := if fits guess then guess else if fits (guess + 1) then guess + 1 else guess + 2
  max e f.leastExponent

/-- The number of format `f` nearest to `num / den`, ties to the even mantissa; beyond the
greatest exponent it is infinite. A zero denominator counts as one. -/
def round (f : Format) (negative : Bool) (num den : Nat) : Binary :=
  if num = 0 then .finite negative 0 f.leastExponent
  else
    let den := max den 1
    let e := f.exponentOf num den
    let (a, b) := scaleDown num den e
    let m := roundHalfEven a b
    let (m, e) := if m = Nat.pow 2 f.precision then (m / 2, e + 1) else (m, e)
    if f.greatestExponent < e then .infinite negative else .finite negative m e

/-- The number of format `f` nearest to a natural. -/
def ofNat (f : Format) (n : Nat) : Binary := f.round false n 1

/-- The number of format `f` nearest to an integer. -/
def ofInt (f : Format) (i : Int) : Binary := f.round (i < 0) i.natAbs 1

/-- The number of format `f` nearest to another binary number. -/
def ofBinary (f : Format) : Binary → Binary
  | .infinite negative => .infinite negative
  | .finite negative m e =>
    if 0 ≤ e then f.round negative (m * Nat.pow 2 e.toNat) 1
    else f.round negative m (Nat.pow 2 (-e).toNat)

end Format

namespace Binary

/-- Whether the number is a zero of either sign. -/
def isZero : Binary → Bool
  | .finite _ m _ => m == 0
  | .infinite _ => false

/-- The number with the other sign. -/
def neg : Binary → Binary
  | .finite negative m e => .finite (!negative) m e
  | .infinite negative => .infinite (!negative)

/-- The magnitude as a quotient of naturals; an infinity has none. -/
def magnitude? : Binary → Option (Nat × Nat)
  | .finite _ m e =>
    some (if 0 ≤ e then (m * Nat.pow 2 e.toNat, 1) else (m, Nat.pow 2 (-e).toNat))
  | .infinite _ => none

/-- Whether the sign is minus. -/
def isNegative : Binary → Bool
  | .finite negative _ _ => negative
  | .infinite negative => negative

/-- The product, rounded once to format `f`; an infinite factor makes it infinite. -/
def mul (f : Format) (x y : Binary) : Binary :=
  let negative := x.isNegative != y.isNegative
  match x.magnitude?, y.magnitude? with
  | some (a, b), some (c, d) => f.round negative (a * c) (b * d)
  | _, _ => .infinite negative

/-- The quotient by a finite number other than zero, rounded once to format `f`. -/
def div (f : Format) (x y : Binary) : Binary :=
  let negative := x.isNegative != y.isNegative
  match x.magnitude?, y.magnitude? with
  | some (a, b), some (c, d) => f.round negative (a * d) (b * c)
  | _, _ => .infinite negative

end Binary

end CanvasSync.Number
