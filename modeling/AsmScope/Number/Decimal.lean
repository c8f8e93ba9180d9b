import AsmScope.Number.Binary64
/-! # Decimal text

A number is written with the fewest digits that read back as it, or with a fixed number of decimal
places. -/

namespace AsmScope.Binary64

/-! ### Shortest text

Among equally short digits that read back as the number the nearest are taken. For each number of
digits the two neighbours of the value on that decimal grid are tried; if any point of the grid
reads back, one of the two does. -/

/-- A positive decimal number `digits * 10 ^ exponent`. -/
structure Decimal where
  /-- The digits, as one number. -/
  digits : Nat
  /-- The power of ten. -/
  exponent : Int
  deriving DecidableEq, Repr

/-- The exponent of the greatest power of ten that is at most the fraction, found by search from a
first guess. -/
def floorLog10 (numerator denominator : Nat) : Nat → Int → Int
  | 0, guess => guess
  | fuel + 1, guess =>
    let n := numerator * Nat.pow 10 (-guess).toNat
    let d := denominator * Nat.pow 10 guess.toNat
    if n < d then floorLog10 numerator denominator fuel (guess - 1)
    else if 10 * d ≤ n then floorLog10 numerator denominator fuel (guess + 1)
    else guess

/-- The nearest decimal with `count` digits that reads back as `x`, if one of the two neighbours of
its value does. -/
def decimalWith? (x : Binary64) (numerator denominator : Nat) (leading : Int) (count : Nat) :
    Option Decimal :=
  let exponent := leading - (count - 1)
  let n := numerator * Nat.pow 10 (-exponent).toNat
  let d := denominator * Nat.pow 10 exponent.toNat
  let below := n / d
  let reads (digits : Nat) : Bool := ofDecimal false digits exponent == x
  let aboveIsNearer := d < 2 * (n % d) || (d == 2 * (n % d) && below % 2 == 1)
  match reads below, reads (below + 1) with
  | true, true => some ⟨if aboveIsNearer then below + 1 else below, exponent⟩
  | true, false => some ⟨below, exponent⟩
  | false, true => some ⟨below + 1, exponent⟩
  | false, false => none

/-- The shortest decimal of a positive number; seventeen digits always suffice. -/
def shortest (significand : Nat) (exponent : Int) : Decimal :=
  let (n, d) := scale significand 1 (-exponent)
  let x := Binary64.finite false significand exponent
  let leading := floorLog10 n d 700 (((n.log2 : Int) - d.log2) * 3 / 10)
  let found := (List.range 17).findSome? fun i => decimalWith? x n d leading (i + 1)
  found.getD ⟨significand, exponent⟩

/-- How a number is laid out as text. -/
structure Layout where
  /-- The least decimal exponent that is written positionally. -/
  leastPositional : Int
  /-- The least decimal exponent above it that is not. -/
  leastScientific : Int
  /-- The number of exponent digits at least written. -/
  exponentWidth : Nat
  /-- The text of the non-number. -/
  nan : String
  /-- The text of positive infinity. -/
  infinity : String
  deriving Repr

/-- Numbers in text are positional from four decimal places up to sixteen digits. -/
def Layout.plain : Layout := ⟨-4, 16, 2, "nan", "inf"⟩

/-- The digits without the zeros at their end. -/
def stripZeros (digits : List Char) : List Char := (digits.reverse.dropWhile (· == '0')).reverse

/-- A positive decimal as text. -/
def Layout.write (layout : Layout) (decimal : Decimal) : List Char :=
  let all := Nat.toDigits 10 decimal.digits
  let leading : Int := decimal.exponent + (all.length - 1 : Nat)
  let digits := stripZeros all
  if layout.leastPositional ≤ leading ∧ leading < layout.leastScientific then
    if leading < 0 then
      '0' :: '.' :: List.replicate ((-leading).toNat - 1) '0' ++ digits
    else
      let whole := leading.toNat + 1
      let padded := digits ++ List.replicate (whole - digits.length) '0'
      padded.take whole ++ '.' :: (if padded.length ≤ whole then ['0'] else padded.drop whole)
  else
    let power := Nat.toDigits 10 leading.natAbs
    let exponent := List.replicate (layout.exponentWidth - power.length) '0' ++ power
    let significand := match digits with
      | [] => ['0']
      | [d] => [d]
      | d :: rest => d :: '.' :: rest
    significand ++ 'e' :: (if leading < 0 then '-' else '+') :: exponent

/-- A number as text. -/
def Layout.text (layout : Layout) : Binary64 → String
  | .nan => layout.nan
  | .infinity negative => if negative then "-" ++ layout.infinity else layout.infinity
  | .finite negative significand exponent =>
    let positive :=
      if significand = 0 then "0.0"
      else String.ofList (layout.write (shortest significand exponent))
    if negative then "-" ++ positive else positive

/-! ### Text with a fixed number of places

The exact value of a number is rounded to the decimal grid with the wanted number of places, a tie
to the even neighbour. The sign is kept even where nothing but zeros is left. -/

/-- The digits of a fraction with this many decimal places. -/
def fixedDigits (places numerator denominator : Nat) : String :=
  let units := roundQuotient (numerator * Nat.pow 10 places) denominator
  let decimals := Nat.toDigits 10 (units % Nat.pow 10 places)
  toString (units / Nat.pow 10 places) ++ "." ++
    String.ofList (List.replicate (places - decimals.length) '0' ++ decimals)

/-- A number with this many decimal places. -/
def fixedText (places : Nat) : Binary64 → String
  | .nan => "nan"
  | .infinity negative => if negative then "-inf" else "inf"
  | .finite negative significand exponent =>
    let (n, d) := scale significand 1 (-exponent)
    (if negative then "-" else "") ++ fixedDigits places n d

end AsmScope.Binary64
