import MiniLex.Number.Rounding

/-!
# Floating-point numbers of 64 bits

A number is known by its bits: the sign, eleven bits of exponent and 52 bits of fraction. Every finite magnitude is a whole
multiple of the smallest one, 2 ^ -1074 (`units`), and magnitudes are ordered as their bits are.

A quotient of whole numbers is converted by rounding it once, to the nearest number, and half way between two to the one
whose last bit is zero (`ofRatio`). Past the largest number the result is infinite.
-/

namespace MiniLex

/-- A floating-point number, by its bits. -/
structure Binary64 where
  bits : UInt64
  deriving DecidableEq

namespace Binary64

/-- The bits without the sign. -/
def magnitude (x : Binary64) : Nat := x.bits.toNat % Nat.pow 2 63

def isNegative (x : Binary64) : Bool := Nat.pow 2 63 ≤ x.bits.toNat

/-- The bits of the positive infinity. -/
def infinityBits : Nat := 0x7FF0000000000000

def isInfinite (x : Binary64) : Bool := x.magnitude == infinityBits

/-- Whether the bits stand for no number. -/
def isNaN (x : Binary64) : Bool := infinityBits < x.magnitude

/-- A finite magnitude as a multiple of 2 ^ -1074. An exponent of zero has no hidden bit. -/
def units (x : Binary64) : Nat :=
  let exponent := x.magnitude / Nat.pow 2 52
  let fraction := x.magnitude % Nat.pow 2 52
  if exponent = 0 then fraction else (Nat.pow 2 52 + fraction) * Nat.pow 2 (exponent - 1)

/-- The number nearest to `num / den`. In units of 2 ^ -1074 the quotient keeps its 53 leading binary digits, or all that are
above the smallest unit; the digits cut off are counted in the exponent. A rounding that carries into a further digit
carries into the exponent. -/
def ofRatio (num den : Nat) : Binary64 :=
  let scaled := num * Nat.pow 2 1074
  let cut := Nat.log2 (scaled / den) - 52
  ⟨UInt64.ofNat (min (cut * Nat.pow 2 52 + roundHalfEven scaled (den * Nat.pow 2 cut)) infinityBits)⟩

end Binary64

end MiniLex
