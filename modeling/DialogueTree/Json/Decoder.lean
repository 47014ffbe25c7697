import DialogueTree.Json.Numeral
import DialogueTree.Text.Utf8

/-!
# Decoding JSON

The decoder takes its text one byte at a time, so that it can be told apart
whether a text is wrong at some byte or only stops too early. What it has read of
the containers that are still open is a stack of frames; what it is in the middle
of is a mode. The text is strict: four blanks, no control characters in strings,
no unpaired surrogates, no leading zeros, nothing behind the value, and a limit
on nested containers.
-/

namespace DialogueTree.Json

/-- A container that is still open, the latest of its parts first. -/
inductive Frame where
  | items (done : List Json)
  | members (done : List (String × Json))
  | member (done : List (String × Json)) (key : String)

/-- Where in a string the decoder stands. A leading surrogate is kept until its
trailing one has been read. -/
inductive TextMode where
  | plain
  | escape
  | hex (lead : Option Nat) (digits : List UInt8)
  | trailBackslash (lead : Nat)
  | trailU (lead : Nat)

/-- What the decoder is in the middle of. -/
inductive Mode where
  | value (closable : Bool)
  | literal (left : Bytes) (v : Json)
  | number (n : Numeral)
  | text (isKey : Bool) (read : Bytes) (mode : TextMode)
  | key (closable : Bool)
  | colon
  | after
  | done (v : Json)

/-- The state of the decoder. -/
structure Decoder where
  mode : Mode
  stack : List Frame

namespace Decoder

/-- Nothing has been read. -/
def start : Decoder := ⟨.value false, []⟩

/-- The blanks that may stand between the parts of a text. -/
def isBlank (b : UInt8) : Bool := b == 0x20 || b == 0x09 || b == 0x0A || b == 0x0D

/-- Goes on after a whole value has been read. -/
def complete (v : Json) : List Frame → Decoder
  | .items done :: rest => ⟨.after, .items (v :: done) :: rest⟩
  | .member done key :: rest => ⟨.after, .members ((key, v) :: done) :: rest⟩
  | stack => ⟨.done v, stack⟩

/-- Closes an array. -/
def closeArray : List Frame → Option Decoder
  | .items done :: rest => some (complete (.array done.reverse) rest)
  | _ => none

/-- Closes an object. Of several members with one key the last counts. -/
def closeObject : List Frame → Option Decoder
  | .members done :: rest => some (complete (.ofTable (.ofList done.reverse)) rest)
  | _ => none

/-- Reads a byte where a value is due. -/
def value (limit : Nat) (closable : Bool) (stack : List Frame) (b : UInt8) : Option Decoder :=
  if isBlank b then some ⟨.value closable, stack⟩
  else if b = 0x22 then some ⟨.text false [] .plain, stack⟩
  else if b = 0x7B then
    if stack.length < limit then some ⟨.key true, .members [] :: stack⟩ else none
  else if b = 0x5B then
    if stack.length < limit then some ⟨.value true, .items [] :: stack⟩ else none
  else if b = 0x5D then
    if closable then closeArray stack else none
  else if b = 0x74 then some ⟨.literal [0x72, 0x75, 0x65] (.bool true), stack⟩
  else if b = 0x66 then some ⟨.literal [0x61, 0x6C, 0x73, 0x65] (.bool false), stack⟩
  else if b = 0x6E then some ⟨.literal [0x75, 0x6C, 0x6C] .null, stack⟩
  else (Numeral.start? b).map fun n => ⟨.number n, stack⟩

/-- Reads a byte behind a value in a container. -/
def after (stack : List Frame) (b : UInt8) : Option Decoder :=
  if isBlank b then some ⟨.after, stack⟩
  else if b = 0x2C then
    match stack with
    | .items _ :: _ => some ⟨.value false, stack⟩
    | .members _ :: _ => some ⟨.key false, stack⟩
    | _ => none
  else if b = 0x5D then closeArray stack
  else if b = 0x7D then closeObject stack
  else none

/-- Reads a byte behind the outermost value. -/
def ending (v : Json) (stack : List Frame) (b : UInt8) : Option Decoder :=
  if isBlank b then some ⟨.done v, stack⟩ else none

/-- The byte that an escape of one letter stands for. -/
def escaped? (b : UInt8) : Option UInt8 :=
  if b = 0x22 ∨ b = 0x5C ∨ b = 0x2F then some b
  else if b = 0x62 then some 0x08
  else if b = 0x66 then some 0x0C
  else if b = 0x6E then some 0x0A
  else if b = 0x72 then some 0x0D
  else if b = 0x74 then some 0x09
  else none

/-- The value of a hexadecimal digit. -/
def hexDigit? (b : UInt8) : Option Nat :=
  if 0x30 ≤ b ∧ b ≤ 0x39 then some (b.toNat - 0x30)
  else if 0x41 ≤ b ∧ b ≤ 0x46 then some (b.toNat - 0x41 + 10)
  else if 0x61 ≤ b ∧ b ≤ 0x66 then some (b.toNat - 0x61 + 10)
  else none

/-- The number that hexadecimal digits write, the last digit first. -/
def hexValue? : List UInt8 → Option Nat
  | [] => some 0
  | b :: rest => do return (← hexValue? rest) * 16 + (← hexDigit? b)

/-- Puts a character behind the bytes read, the last byte first. -/
def pushChar (read : Bytes) (n : Nat) : Bytes :=
  (Text.encode (String.singleton (Char.ofNat n))).reverse ++ read

/-- Goes on in a string after the four digits of an escape. -/
def unit (lead : Option Nat) (n : Nat) (read : Bytes) : Option (Bytes × TextMode) :=
  match lead with
  | none =>
    if 0xDC00 ≤ n ∧ n ≤ 0xDFFF then none
    else if 0xD800 ≤ n ∧ n ≤ 0xDBFF then some (read, .trailBackslash n)
    else some (pushChar read n, .plain)
  | some h =>
    if 0xDC00 ≤ n ∧ n ≤ 0xDFFF then
      some (pushChar read ((h - 0xD800) * 0x400 + (n - 0xDC00) + 0x10000), .plain)
    else none

/-- Goes on after the closing quote of a string, which must be UTF-8. -/
def closeText (isKey : Bool) (read : Bytes) (stack : List Frame) : Option Decoder :=
  match Text.decode? read.reverse, isKey, stack with
  | some s, false, _ => some (complete (.string s) stack)
  | some s, true, .members done :: rest => some ⟨.colon, .member done s :: rest⟩
  | _, _, _ => none

/-- Reads a byte of a string. -/
def text (isKey : Bool) (read : Bytes) (stack : List Frame) (b : UInt8) :
    TextMode → Option Decoder
  | .plain =>
    if b = 0x22 then closeText isKey read stack
    else if b = 0x5C then some ⟨.text isKey read .escape, stack⟩
    else if b < 0x20 then none
    else some ⟨.text isKey (b :: read) .plain, stack⟩
  | .escape =>
    if b = 0x75 then some ⟨.text isKey read (.hex none []), stack⟩
    else (escaped? b).map fun c => ⟨.text isKey (c :: read) .plain, stack⟩
  | .hex lead digits =>
    if digits.length < 3 then some ⟨.text isKey read (.hex lead (b :: digits)), stack⟩
    else do
      let n ← hexValue? (b :: digits)
      let (read', mode) ← unit lead n read
      return ⟨.text isKey read' mode, stack⟩
  | .trailBackslash lead =>
    if b = 0x5C then some ⟨.text isKey read (.trailU lead), stack⟩ else none
  | .trailU lead =>
    if b = 0x75 then some ⟨.text isKey read (.hex (some lead) []), stack⟩ else none

/-- Reads one byte. There is no next state if the byte is out of place. At most
`limit` containers may be open at once. -/
def step (limit : Nat) (d : Decoder) (b : UInt8) : Option Decoder :=
  match d.mode with
  | .value closable => value limit closable d.stack b
  | .literal left v =>
    match left with
    | [] => none
    | [c] => if b = c then some (complete v d.stack) else none
    | c :: rest => if b = c then some ⟨.literal rest v, d.stack⟩ else none
  | .number n =>
    match n.next b with
    | .more n' => some ⟨.number n', d.stack⟩
    | .wrong => none
    | .ended => do
      let v ← n.value?
      match complete v d.stack with
      | ⟨.after, stack⟩ => after stack b
      | ⟨_, stack⟩ => ending v stack b
  | .text isKey read mode => text isKey read d.stack b mode
  | .key closable =>
    if isBlank b then some d
    else if b = 0x22 then some ⟨.text true [] .plain, d.stack⟩
    else if b = 0x7D ∧ closable then closeObject d.stack
    else none
  | .colon =>
    if isBlank b then some d
    else if b = 0x3A then some ⟨.value false, d.stack⟩
    else none
  | .after => after d.stack b
  | .done v => ending v d.stack b

/-- Reads bytes until they end or one is out of place. -/
def feed (limit : Nat) (d : Decoder) (bs : Bytes) : Option Decoder := bs.foldlM (step limit) d

/-- The value read, if the text may end here. A number ends only with its text. -/
def value? (d : Decoder) : Option Json :=
  match d.mode, d.stack with
  | .done v, _ => some v
  | .number n, [] => if n.isComplete then n.value? else none
  | _, _ => none

end Decoder

/-- How many containers a document may nest. -/
def depthLimit : Nat := 127

/-- Whether a text that is cut off behind these bytes is at fault itself: a byte is
out of place, or an array or object is left open. -/
def isBroken (bs : Bytes) : Bool :=
  match Decoder.start.feed depthLimit bs with
  | none => true
  | some d => !d.stack.isEmpty

/-- The value of a text that nests at most `limit` containers. -/
def decodeWithin? (limit : Nat) (bs : Bytes) : Option Json :=
  (Decoder.start.feed limit bs).bind Decoder.value?

/-- The value of a text. -/
def decode? (bs : Bytes) : Option Json := decodeWithin? depthLimit bs

end DialogueTree.Json
