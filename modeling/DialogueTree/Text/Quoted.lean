import DialogueTree.Text.Unprintable

/-!
# Quoted text

A message that names a text which may hold anything puts it in double quotes,
with a backslash before a quote and before a backslash, and with an escape for
every character that would not be seen.
-/

namespace DialogueTree.Text

/-- A character as it stands between double quotes. -/
def quoteChar : Char → List Char
  | '"' => ['\\', '"']
  | '\\' => ['\\', '\\']
  | '\n' => ['\\', 'n']
  | '\r' => ['\\', 'r']
  | '\t' => ['\\', 't']
  | '\x00' => ['\\', '0']
  | c => if isUnprintable c then ['\\', 'u', '\x7b'] ++ Nat.toDigits 16 c.toNat ++ ['\x7d'] else [c]

/-- A text in double quotes. -/
def quote (s : String) : String :=
  String.ofList ('"' :: s.toList.flatMap quoteChar ++ ['"'])

end DialogueTree.Text
