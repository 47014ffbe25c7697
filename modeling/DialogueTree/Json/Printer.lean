import DialogueTree.Json
import DialogueTree.Decimal.Shortest

/-!
# JSON text of a value

The text has no blanks. In a string only the quote, the backslash and the control
characters below the space are escaped.
-/

namespace DialogueTree.Json

/-- Floats from `0.00001` up to below `10^16` are written without an exponent. -/
def floatLayout : Decimal.Layout := ⟨-5, 15⟩

/-- A character as it stands in a string. -/
def escapeChar : Char → List Char
  | '"' => ['\\', '"']
  | '\\' => ['\\', '\\']
  | '\x08' => ['\\', 'b']
  | '\x0c' => ['\\', 'f']
  | '\n' => ['\\', 'n']
  | '\r' => ['\\', 'r']
  | '\t' => ['\\', 't']
  | c =>
    if c.toNat < 0x20 then
      ['\\', 'u', '0', '0', Nat.digitChar (c.toNat / 16), Nat.digitChar (c.toNat % 16)]
    else [c]

/-- A string with its quotes. -/
def stringChars (s : String) : List Char :=
  '"' :: s.toList.flatMap escapeChar ++ ['"']

/-- A whole number. -/
def intChars (i : Int) : List Char :=
  (if i < 0 then ['-'] else []) ++ Nat.toDigits 10 i.natAbs

mutual

/-- The characters of a value. -/
def chars : Json → List Char
  | .null => "null".toList
  | .bool true => "true".toList
  | .bool false => "false".toList
  | .int i => intChars i
  | .float x => floatLayout.writeFloat x
  | .string s => stringChars s
  | .array items => '[' :: itemChars items
  | .object members => '\x7b' :: memberChars members

/-- The characters of an array behind its opening bracket. -/
def itemChars : List Json → List Char
  | [] => [']']
  | [v] => chars v ++ [']']
  | v :: vs => chars v ++ ',' :: itemChars vs

/-- The characters of an object behind its opening brace. -/
def memberChars : List (String × Json) → List Char
  | [] => ['\x7d']
  | [(k, v)] => stringChars k ++ ':' :: chars v ++ ['\x7d']
  | (k, v) :: ms => stringChars k ++ ':' :: chars v ++ ',' :: memberChars ms

end

/-- The text of a value. -/
def render (v : Json) : String := String.ofList (chars v)

end DialogueTree.Json
