/-! # Binary floating point with 64 bits

The numbers of the IEEE 754 format with a 53-bit significand, as exact values. Rounding takes an
exact quotient to the nearest number of the format, a tie to the even significand, and what lies
beyond the largest number to infinity. -/

namespace AsmScope

/-- A number of the format. A finite one has the value `significand * 2 ^ exponent`, up to its sign;
zeros keep theirs. -/
inductive Binary64
  | nan
  | infinity (negative : Bool)
  | finite (negative : Bool) (significand : Nat) (exponent : Int)
  deriving DecidableEq, Repr

namespace Binary64

/-- The zero with this sign. -/
def zero (negative : Bool) : Binary64 := .finite negative 0 0

/-- Whether a number is one of the two zeros. -/
def isZero : Binary64 → Bool
  | .finite _ significand _ => significand == 0
  | _ => false

/-- The quotient to the nearest integer, a tie to the even one. -/
def roundQuotient (numerator denominator : Nat) : Nat :=
  let quotient := numerator / denominator
  let twice := 2 * (numerator % denominator)
  if twice < denominator then quotient
  else if denominator < twice then quotient + 1
  else if quotient % 2 = 0 then quotient else quotient + 1

/-- The quotient `numerator / (denominator * 2 ^ exponent)` as a fraction of naturals. -/
def scale (numerator denominator : Nat) (exponent : Int) : Nat × Nat :=
  (numerator * Nat.pow 2 (-exponent).toNat, denominator * Nat.pow 2 exponent.toNat)

/-- The exponent of the greatest power of two that is at most `numerator / denominator`, for
positive numbers. -/
def floorLog2 (numerator denominator : Nat) : Int :=
  let guess : Int := (numerator.log2 : Int) - denominator.log2
  let (n, d) := scale numerator denominator guess
  if d ≤ n then guess else guess - 1

/-- The number of the format nearest to `numerator / denominator`. -/
def ofQuotient (negative : Bool) (numerator denominator : Nat) : Binary64 :=
  if numerator = 0 ∨ denominator = 0 then zero negative
  else
    let exponent := max (floorLog2 numerator denominator - 52) (-1074)
    let (n, d) := scale numerator denominator exponent
    let significand := roundQuotient n d
    let (significand, exponent) :=
      if significand = Nat.pow 2 53 then (Nat.pow 2 52, exponent + 1) else (significand, exponent)
    if significand = 0 then zero negative
    else if 971 < exponent then .infinity negative
    else .finite negative significand exponent

/-- The number of decimal digits, at least one. -/
def decimalLength (n : Nat) : Nat := (Nat.toDigits 10 n).length

/-- The number of the format nearest to `digits * 10 ^ exponent`. Powers far outside the range are
settled without being computed. -/
def ofDecimal (negative : Bool) (digits : Nat) (exponent : Int) : Binary64 :=
  if digits = 0 then zero negative
  else if exponent + decimalLength digits > 400 then .infinity negative
  else if exponent + decimalLength digits < -400 then zero negative
  else ofQuotient negative (digits * Nat.pow 10 exponent.toNat) (Nat.pow 10 (-exponent).toNat)

/-- The exact value of a finite number; infinities and the non-number have none. -/
def toRat? : Binary64 → Option Rat
  | .finite negative significand exponent =>
    let (n, d) := scale significand 1 (-exponent)
    some (mkRat (if negative then -(n : Int) else n) d)
  | _ => none

/-- The number of the format nearest to a rational number. -/
def ofRat (q : Rat) : Binary64 := ofQuotient (q.num < 0) q.num.natAbs q.den

/-- The number with the opposite sign. -/
def neg : Binary64 → Binary64
  | .nan => .nan
  | .infinity negative => .infinity (!negative)
  | .finite negative significand exponent => .finite (!negative) significand exponent

/-- The difference, rounded. A difference of zero is positive, unless a positive zero is taken from
a negative one. -/
def sub : Binary64 → Binary64 → Binary64
  | .infinity a, .infinity b => if a = b then .nan else .infinity a
  | .infinity a, .finite .. => .infinity a
  | .finite .., .infinity b => .infinity (!b)
  | .finite a m e, .finite b n f =>
    match (finite a m e).toRat?, (finite b n f).toRat? with
    | some x, some y => if x = y then zero (a && !b) else ofRat (x - y)
    | _, _ => .nan
  | _, _ => .nan

/-- The sum, rounded. -/
def add (x y : Binary64) : Binary64 := x.sub y.neg

/-- A thousandth of a number, rounded. -/
def thousandth : Binary64 → Binary64
  | .finite negative significand exponent =>
    let (n, d) := scale significand 1 (-exponent)
    ofQuotient negative n (1000 * d)
  | x => x

end Binary64

end AsmScope
