/-!
# Decimals as floats

A number with a point or an exponent is read as a whole significand below `2^64`
and a power of ten. The significand is rounded to a float first, and then
multiplied or divided by the float nearest to the power of ten, so a result can
be one unit in its last place away from the float nearest to the number.
-/

namespace DialogueTree.Decimal

/-- The greatest power of ten that is a finite float. -/
def greatestPower : Nat := 308

/-- The float nearest to `10^k`. -/
def powerOfTen (k : Nat) : Float := Float.ofScientific 1 false k

/-- Divides by `10^k`, in steps of the greatest power. -/
def divideByPower (x : Float) (k : Nat) : Float :=
  if k ≤ greatestPower then x / powerOfTen k
  else if x == 0 then x
  else divideByPower (x / powerOfTen greatestPower) (k - greatestPower)
termination_by k
decreasing_by
  simp only [greatestPower] at *
  omega

/-- The float for `significand · 10^exponent`, if it is finite. -/
def ofParts? (significand : Nat) (exponent : Int) : Option Float :=
  let x := significand.toUInt64.toFloat
  if exponent < 0 then some (divideByPower x exponent.natAbs)
  else if greatestPower < exponent.toNat then
    if x == 0 then some x else none
  else
    let y := x * powerOfTen exponent.toNat
    if y.isInf then none else some y

end DialogueTree.Decimal
