import MiniLex.Number.Binary64

/-!
# The shortest decimal that reads back

Among the decimals that read back as a given floating-point number (`Binary64.ofRatio`), the one written has the fewest
digits, and among those it is the nearest one. On the grid of the decimals with a given number of digits only the two
neighbours of the number can be that one. Should no grid of up to seventeen digits hold a decimal that reads back, the
number is written exactly.
-/

namespace MiniLex

/-- A positive decimal number: `0.` and the digits, times ten to the power `point`. -/
structure Decimal where
  digits : List Char
  point : Int
  deriving DecidableEq

namespace Decimal

/-- The decimal `m * 10 ^ exponent`, without the zeros at the end. -/
def ofScaled (m : Nat) (exponent : Int) : Decimal :=
  let digits := Nat.toDigits 10 m
  ⟨(digits.reverse.dropWhile (· == '0')).reverse, digits.length + exponent⟩

end Decimal

namespace Binary64

/-- The finest decimal grid that is tried: the smallest number with seventeen digits needs no finer one. -/
def gridDigits : Nat := 341

/-- The magnitude in steps of the finest grid, times 2 ^ 1074. -/
def gridUnits (x : Binary64) : Nat := x.units * Nat.pow 10 gridDigits

/-- Whether `m * 10 ^ exponent` steps of the finest grid read back as the number. -/
def readsBack (x : Binary64) (m exponent : Nat) : Bool :=
  (ofRatio (m * Nat.pow 10 exponent) (Nat.pow 10 gridDigits)).magnitude == x.magnitude

/-- The nearest decimal with so many digits, if a decimal with so many digits reads back. Half way between two it is the
upper one. -/
def nearestDecimal? (x : Binary64) (count : Nat) : Option Decimal :=
  let whole := x.gridUnits / Nat.pow 2 1074
  let exponent := (Nat.toDigits 10 whole).length - count
  let low := whole / Nat.pow 10 exponent
  let write (m : Nat) : Decimal := .ofScaled m (exponent - gridDigits : Int)
  let isNearerLow : Bool := 2 * x.gridUnits < (2 * low + 1) * Nat.pow 10 exponent * Nat.pow 2 1074
  if x.readsBack low exponent && (isNearerLow || !x.readsBack (low + 1) exponent) then some (write low)
  else if x.readsBack (low + 1) exponent then some (write (low + 1))
  else none

/-- The magnitude written out to its last digit. -/
def exactDecimal (x : Binary64) : Decimal := .ofScaled (x.units * Nat.pow 5 1074) (-1074)

/-- The shortest decimal that reads back as the magnitude of a finite number other than zero. -/
def shortestDecimal (x : Binary64) : Decimal :=
  ((List.range' 1 17).findSome? x.nearestDecimal?).getD x.exactDecimal

end Binary64

end MiniLex
