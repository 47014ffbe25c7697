/-!
# The shortest decimal of a float

A finite float other than zero is `m · 2^q`, and an interval of reals around it
rounds to it: from halfway below to halfway above, with both ends if `m` is even.
Of the decimals in that interval those with the fewest digits are looked for, and
of these the one nearest to the float.

A grid of decimals with a given number of digits has a point in the interval only
if one of the two points next to the float is in it, so two candidates to a grid
are enough. Everything is compared over a common denominator in natural numbers.
-/

namespace DialogueTree.Decimal

/-- The decimal `digits · 10^exponent`. -/
structure Scaled where
  digits : Nat
  exponent : Int
  deriving Repr, DecidableEq

/-- A positive float and the ends of the interval that rounds to it, as
numerators over one denominator. -/
structure Rounding where
  low : Nat
  value : Nat
  high : Nat
  denominator : Nat
  closed : Bool

/-- The rounding interval of the float whose magnitude has these bits. Below a
power of two the next float is half as far away as above it. -/
def Rounding.ofBits (bits : Nat) : Rounding :=
  let fraction := bits % Nat.pow 2 52
  let field := bits / Nat.pow 2 52 % Nat.pow 2 11
  let m := if field = 0 then fraction else fraction + Nat.pow 2 52
  let below := if fraction = 0 ∧ 1 < field then 1 else 2
  let up := Nat.pow 2 (field - 1077)
  { low := (4 * m - below) * up
    value := 4 * m * up
    high := (4 * m + 2) * up
    denominator := Nat.pow 2 (1077 - max field 1)
    closed := m % 2 == 0 }

/-- How `digits · 10^exponent` compares with `n / d`. -/
def compare (x : Scaled) (n d : Nat) : Ordering :=
  Ord.compare (x.digits * Nat.pow 10 x.exponent.toNat * d) (n * Nat.pow 10 (-x.exponent).toNat)

/-- Whether a decimal rounds to the float. -/
def Rounding.holds (r : Rounding) (x : Scaled) : Bool :=
  match compare x r.low r.denominator, compare x r.high r.denominator with
  | .gt, .lt => true
  | .eq, _ => r.closed
  | _, .eq => r.closed
  | _, _ => false

/-- The least number of zeros behind the point of a fraction below one: the least
`j` with `d ≤ n · 10^j`, if it is at most the fuel away. -/
def leadingZeros (d : Nat) : Nat → Nat → Nat
  | 0, _ => 0
  | fuel + 1, n => if d ≤ n then 0 else leadingZeros d fuel (n * 10) + 1

/-- The exponent of the first digit: the greatest `e` with `10^e ≤ value`. -/
def Rounding.decade (r : Rounding) : Int :=
  if r.denominator ≤ r.value then
    ((Nat.toDigits 10 (r.value / r.denominator)).length : Int) - 1
  else
    -(leadingZeros r.denominator 400 r.value : Int)

/-- The best decimal with `count` digits that rounds to the float, if there is
one. Of two that are equally near the one with an even last digit is taken. -/
def Rounding.onGrid? (r : Rounding) (count : Nat) : Option Scaled :=
  let exponent := r.decade + 1 - count
  let n := r.value * Nat.pow 10 (-exponent).toNat
  let d := r.denominator * Nat.pow 10 exponent.toNat
  let floor : Scaled := ⟨n / d, exponent⟩
  let ceiling : Scaled := ⟨n / d + 1, exponent⟩
  match r.holds floor, r.holds ceiling with
  | true, true =>
    match Ord.compare (2 * (n % d)) d with
    | .lt => some floor
    | .gt => some ceiling
    | .eq => some (if n / d % 2 = 0 then floor else ceiling)
  | true, false => some floor
  | false, true => some ceiling
  | false, false => none

/-- The decimal with the fewest digits that rounds to the float. Seventeen digits
always do. -/
def Rounding.shortest (r : Rounding) : Scaled :=
  ((List.range 17).findSome? (fun i => r.onGrid? (i + 1))).getD ⟨0, 0⟩

/-! ## Text -/

/-- How a decimal is written: with a point in place when its first digit stands
for `10^e` and `lowest ≤ e ≤ highest`, and with a signed exponent otherwise. -/
structure Layout where
  lowest : Int
  highest : Int

/-- Drops zeros at the end, moving the exponent. -/
def stripZeros : List Char → Int → List Char × Int
  | ds, e =>
    let kept := (ds.reverse.dropWhile (· == '0')).reverse
    (kept, e + (ds.length - kept.length : Nat))

/-- A positive decimal as text. It always shows a point or an exponent. -/
def Layout.write (l : Layout) (x : Scaled) : List Char :=
  let (ds, exponent) := stripZeros (Nat.toDigits 10 x.digits) x.exponent
  let e := exponent + ds.length - 1
  if l.lowest ≤ e ∧ e ≤ l.highest then
    if 0 ≤ exponent then
      ds ++ List.replicate exponent.toNat '0' ++ ['.', '0']
    else if 0 ≤ e then
      ds.take (e.toNat + 1) ++ '.' :: ds.drop (e.toNat + 1)
    else
      '0' :: '.' :: List.replicate (-e - 1).toNat '0' ++ ds
  else
    let tail := if ds.length ≤ 1 then [] else '.' :: ds.drop 1
    let sign := if e < 0 then '-' else '+'
    ds.take 1 ++ tail ++ 'e' :: sign :: Nat.toDigits 10 e.natAbs

/-- The text of a finite float. -/
def Layout.writeFloat (l : Layout) (x : Float) : List Char :=
  let bits := x.toBits.toNat
  let magnitude := bits % Nat.pow 2 63
  let sign := if bits = magnitude then [] else ['-']
  if magnitude = 0 then sign ++ ['0', '.', '0']
  else sign ++ l.write (Rounding.ofBits magnitude).shortest

end DialogueTree.Decimal
