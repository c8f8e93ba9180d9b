import AsmScope.Number.Binary64
/-! # Numbers of two kinds

A clock shows, and a data file holds, either an integer without bound or a number of the binary
format. Integers are added and subtracted exactly; as soon as one of two numbers is of the binary
format the other one is rounded to it, which fails for an integer beyond its range. Numbers are
compared by their exact values, whatever their kinds. -/

namespace AsmScope

/-- A number of one of two kinds. -/
inductive Number
  | integer (value : Int)
  | binary (value : Binary64)
  deriving DecidableEq, Repr

namespace Number

instance : Inhabited Number := ⟨.integer 0⟩

/-- The nearest number of the binary format; none for an integer beyond its range. -/
def toBinary? : Number → Option Binary64
  | .binary x => some x
  | .integer n =>
    match Binary64.ofRat n with
    | .infinity _ => none
    | x => some x

/-- Joins two numbers: exactly if both are integers, else in the binary format. -/
def combine? (exact : Int → Int → Int) (rounded : Binary64 → Binary64 → Binary64) :
    Number → Number → Option Number
  | .integer a, .integer b => some (.integer (exact a b))
  | x, y => do return .binary (rounded (← x.toBinary?) (← y.toBinary?))

/-- The sum. -/
def add? : Number → Number → Option Number := combine? (· + ·) Binary64.add

/-- The difference. -/
def sub? : Number → Number → Option Number := combine? (· - ·) Binary64.sub

/-- A thousandth in the binary format; none if it is beyond the range. -/
def thousandth? : Number → Option Binary64
  | .binary x => some x.thousandth
  | .integer n =>
    match Binary64.ofRat (mkRat n 1000) with
    | .infinity _ => none
    | x => some x

/-- Where a number stands: at an exact value, or beyond all of them. -/
inductive Place
  | belowAll
  | at (value : Rat)
  | aboveAll
  deriving DecidableEq, Repr

/-- Whether one place is not to the right of another. -/
def Place.le : Place → Place → Bool
  | .belowAll, _ => true
  | _, .aboveAll => true
  | .at a, .at b => a ≤ b
  | _, _ => false

/-- Where a number stands; the non-number stands nowhere. -/
def place? : Number → Option Place
  | .integer n => some (.at n)
  | .binary (.infinity negative) => some (if negative then .belowAll else .aboveAll)
  | .binary x => x.toRat?.map .at

/-- Whether the first of two numbers is at most the second; false for the non-number. -/
def le (x y : Number) : Bool :=
  match x.place?, y.place? with
  | some a, some b => a.le b
  | _, _ => false

/-- Integers are subtracted without rounding, however large they are. -/
@[simp] theorem sub?_integer (a b : Int) :
    sub? (.integer a) (.integer b) = some (.integer (a - b)) := rfl

/-- Integers are compared as such. -/
@[simp] theorem le_integer (a b : Int) : le (.integer a) (.integer b) = decide (a ≤ b) := by
  simp only [le, place?, Place.le, Rat.intCast_le_intCast]

end Number

end AsmScope
