import DialogueTree.Json
import DialogueTree.Decimal.Reading

/-!
# JSON numbers, read byte by byte

A numeral is read into a significand below `2^64` and a power of ten. Digits for
which the significand has no room left only move the power of ten, and behind the
point they count for nothing.
-/

namespace DialogueTree.Json

/-- Where in a numeral the reader stands: named for what it has just read. -/
inductive Numeral.Stage where
  | sign
  | zero
  | whole
  | longWhole
  | point
  | fraction
  | longFraction
  | mark
  | markSign
  | power
  | vanished
  deriving Repr, DecidableEq

/-- The part of a numeral that has been read. -/
structure Numeral where
  stage : Numeral.Stage
  negative : Bool
  significand : Nat
  exponent : Int
  power : Nat
  powerNegative : Bool

namespace Numeral

/-- The numeral that begins with a minus sign or a digit, given by that byte. -/
def start? (b : UInt8) : Option Numeral :=
  let n : Numeral := ⟨.sign, false, 0, 0, 0, false⟩
  if b = 0x2D then some { n with negative := true }
  else if b = 0x30 then some { n with stage := .zero }
  else if 0x31 ≤ b ∧ b ≤ 0x39 then
    some { n with stage := .whole, significand := b.toNat - 0x30 }
  else none

/-- Whether a value can end here. -/
def isComplete (n : Numeral) : Bool :=
  match n.stage with
  | .sign | .point | .mark | .markSign => false
  | _ => true

/-- Significands stay below this. -/
def room : Nat := Nat.pow 2 64

/-- Written powers of ten stay below this. -/
def powerRoom : Nat := Nat.pow 2 31

/-- Reads one more digit. -/
def digit (n : Numeral) (d : Nat) : Option Numeral :=
  let longer := n.significand * 10 + d
  match n.stage with
  | .sign =>
    some { n with stage := if d = 0 then .zero else .whole, significand := d }
  | .zero => none
  | .whole =>
    if longer < room then some { n with significand := longer }
    else some { n with stage := .longWhole, exponent := n.exponent + 1 }
  | .longWhole => some { n with exponent := n.exponent + 1 }
  | .point | .fraction =>
    if longer < room then
      some { n with stage := .fraction, significand := longer, exponent := n.exponent - 1 }
    else some { n with stage := .longFraction }
  | .longFraction => some n
  | .mark | .markSign | .power =>
    let power := n.power * 10 + d
    if power < powerRoom then some { n with stage := .power, power := power }
    else if n.significand = 0 ∨ n.powerNegative then some { n with stage := .vanished }
    else none
  | .vanished => some n

/-- What a byte does to a numeral: it may belong to it, stand behind it, or be
out of place. -/
inductive Next where
  | more (n : Numeral)
  | ended
  | wrong

/-- Reads one more byte. -/
def next (n : Numeral) (b : UInt8) : Next :=
  let stop : Next := if n.isComplete then .ended else .wrong
  if 0x30 ≤ b ∧ b ≤ 0x39 then
    match n.digit (b.toNat - 0x30) with
    | some n' => .more n'
    | none => .wrong
  else if b = 0x2E then
    match n.stage with
    | .zero | .whole | .longWhole => .more { n with stage := .point }
    | _ => stop
  else if b = 0x65 ∨ b = 0x45 then
    match n.stage with
    | .zero | .whole | .longWhole | .fraction | .longFraction => .more { n with stage := .mark }
    | _ => stop
  else if b = 0x2B ∨ b = 0x2D then
    match n.stage with
    | .mark => .more { n with stage := .markSign, powerNegative := b = 0x2D }
    | _ => stop
  else stop

/-- A magnitude with its sign. -/
def signed (negative : Bool) (x : Float) : Json := .float (if negative then -x else x)

/-- The value of a complete numeral, unless it is too great for a float. Minus
zero, and what is below the least signed 64-bit number, are floats. -/
def value? (n : Numeral) : Option Json :=
  match n.stage with
  | .zero | .whole =>
    if !n.negative then some (.int n.significand)
    else if 0 < n.significand ∧ n.significand ≤ Nat.pow 2 63 then some (.int (-n.significand))
    else some (signed true n.significand.toUInt64.toFloat)
  | .vanished => some (signed n.negative 0.0)
  | _ =>
    let power : Int := if n.powerNegative then -n.power else n.power
    (Decimal.ofParts? n.significand (n.exponent + power)).map (signed n.negative)

end Numeral

end DialogueTree.Json
