import MiniLex.Number.Shortest

/-!
# How a floating-point number is written

A decimal is written out in full where its leading digit stands at a moderate power of ten, with at least one digit on each
side of the point; elsewhere it is written with one digit before the point and a power of ten behind it, without padding.
-/

namespace MiniLex

/-- The powers of ten of the leading digit for which a decimal is written out in full. -/
structure DecimalLayout where
  /-- The lowest of these powers. -/
  lowest : Int
  /-- The power above the highest of them. -/
  limit : Int

/-- Numbers from 0.0001 up to but not including ten quadrillion are written out in full. -/
def Binary64.layout : DecimalLayout := ⟨-4, 16⟩

namespace Decimal

/-- The decimal written out in full. -/
def plain (d : Decimal) : String :=
  let n := d.digits.length
  let point := d.point.toNat
  if d.point ≤ 0 then
    "0." ++ String.ofList (List.replicate (-d.point).toNat '0' ++ d.digits)
  else if point < n then
    String.ofList (d.digits.take point) ++ "." ++ String.ofList (d.digits.drop point)
  else
    String.ofList (d.digits ++ List.replicate (point - n) '0') ++ ".0"

/-- The decimal with one digit before the point and a power of ten behind it. -/
def scientific (d : Decimal) : String :=
  let rest := d.digits.drop 1
  String.ofList (d.digits.take 1) ++ (if rest.isEmpty then "" else "." ++ String.ofList rest) ++
    "e" ++ toString (d.point - 1)

/-- The decimal as a layout has it written. -/
def render (layout : DecimalLayout) (d : Decimal) : String :=
  if layout.lowest ≤ d.point - 1 ∧ d.point - 1 < layout.limit then d.plain else d.scientific

end Decimal

namespace Binary64

/-- The magnitude of a number as text. -/
def renderMagnitude (x : Binary64) : String :=
  if x.isInfinite then "inf"
  else if x.units = 0 then "0.0"
  else x.shortestDecimal.render layout

/-- A number as text: a sign where it is set, and the magnitude; bits that stand for no number have no sign. -/
def render (x : Binary64) : String :=
  if x.isNaN then "NaN"
  else if x.isNegative then "-" ++ x.renderMagnitude
  else x.renderMagnitude

end Binary64

end MiniLex
