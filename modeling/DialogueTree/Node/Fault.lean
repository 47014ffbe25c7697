import DialogueTree.Json.Printer
import DialogueTree.Text.Quoted

/-!
# What can be wrong with a node

The reasons for which an entry of a document is not a node, and for which its
list of includes is not a list of paths.
-/

namespace DialogueTree

/-- The kinds of nodes. -/
inductive NodeKind where
  | directive
  | dialogue
  | message
  deriving Repr, DecidableEq

namespace NodeKind

/-- The tag by which a node says its kind. -/
def tag : NodeKind → String
  | .directive => "directive"
  | .dialogue => "dialogue"
  | .message => "msg"

/-- The kind with a tag. Case matters. -/
def ofTag? (s : String) : Option NodeKind :=
  if s = "directive" then some .directive
  else if s = "dialogue" then some .dialogue
  else if s = "msg" then some .message
  else none

/-- How many fields a node of the kind can have. -/
def fieldCount : NodeKind → Nat
  | .directive => 1
  | .dialogue => 1
  | .message => 2

/-- The name of the kind in reasons. -/
def variantName : NodeKind → String
  | .directive => "RawNode::Directive"
  | .dialogue => "RawNode::Dialogue"
  | .message => "RawNode::Msg"

end NodeKind

/-- What a value was expected to be. -/
inductive Expected where
  | node
  | tag
  | text
  | list
  | map
  deriving Repr, DecidableEq

/-- The words for what was expected. -/
def Expected.words : Expected → String
  | .node => "internally tagged enum RawNode"
  | .tag => "variant identifier"
  | .text => "a string"
  | .list => "a sequence"
  | .map => "a map"

/-- A value as a reason names it: scalars with their value, containers without. -/
def Json.describe : Json → String
  | .null => "null"
  | .bool b => "boolean `" ++ (if b then "true" else "false") ++ "`"
  | .int i => "integer `" ++ Json.render (.int i) ++ "`"
  | .float x => "floating point `" ++ Json.render (.float x) ++ "`"
  | .string s => "string " ++ Text.quote s
  | .array _ => "sequence"
  | .object _ => "map"

/-- Why an entry of a document is not a node, or not a list of includes. -/
inductive NodeFault where
  /-- A value is of another type than its place asks for. -/
  | wrongType (found : Json) (expected : Expected)
  /-- A field that must be there is not. -/
  | missingField (name : String)
  /-- The tag names no kind of node. -/
  | unknownTag (tag : String)
  /-- A node written as a list has nothing behind its tag. -/
  | noFields (kind : NodeKind)
  /-- A node written as a list has `count` items behind its tag, which is too many. -/
  | tooManyFields (kind : NodeKind) (count : Nat)
  /-- The text of a directive node is not a directive. -/
  | notDirective (text : String)
  /-- An option maps an input to a text that is not a directive. -/
  | optionNotDirective (input text : String)
  /-- The includes of a document are not a list. -/
  | includesNotList
  /-- An item in the list of includes is not a string. -/
  | includeNotPath (item : Json)

/-- A number of elements, in words. -/
def elements (n : Nat) : String :=
  toString n ++ (if n = 1 then " element" else " elements")

/-- The reason in words. -/
def NodeFault.reason : NodeFault → String
  | .wrongType found expected =>
    "invalid type: " ++ found.describe ++ ", expected " ++ expected.words
  | .missingField name => "missing field `" ++ name ++ "`"
  | .unknownTag tag =>
    "unknown variant `" ++ tag ++ "`, expected one of `directive`, `dialogue`, `msg`"
  | .noFields kind =>
    "invalid length 0, expected struct variant " ++ kind.variantName ++ " with "
      ++ elements kind.fieldCount
  | .tooManyFields kind count =>
    "invalid length " ++ toString count ++ ", expected " ++ elements kind.fieldCount
      ++ " in sequence"
  | .notDirective text => Text.quote text ++ " is not a directive"
  | .optionNotDirective input text =>
    "option " ++ Text.quote input ++ " maps to " ++ Text.quote text
      ++ ", which is not a directive"
  | .includesNotList => "expected a list of paths"
  | .includeNotPath item => "not a path: " ++ item.render

end DialogueTree
