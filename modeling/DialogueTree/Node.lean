import DialogueTree.Directive

/-!
# Nodes

A node is authored as a JSON value in one of two forms: an object with a tag and
named fields, or an array with the tag first and the fields in order behind it.
Both forms are first turned into `NodeFields`, and from there on they are read
alike. Whatever else an object holds is not looked at.

The fields are read before it is checked that directives are directives, so a
field of the wrong type is reported first.
-/

namespace DialogueTree

/-- An entry of a dialogue. -/
inductive Entry where
  /-- A line to show. -/
  | text (line : String)
  /-- A directive, with which the visit of the node ends. -/
  | directive (raw : String)
  deriving Repr, DecidableEq

/-- A line is a directive or text by its first characters. -/
def Entry.ofLine (line : String) : Entry :=
  if isDirective line then .directive line else .text line

/-- A node. -/
inductive Node where
  /-- Runs one directive. -/
  | directive (raw : String)
  /-- Shows lines up to the first directive among them, and runs that. -/
  | dialogue (entries : List Entry)
  /-- Shows a line, reads an input and runs the directive that it selects. -/
  | message (prompt : String) (options : Table String)

namespace Json

/-- The text of a string. -/
def readText : Json → Except NodeFault String
  | .string s => .ok s
  | v => .error (.wrongType v .text)

/-- The texts of a list of strings. The first item that is none is reported. -/
def readTexts : Json → Except NodeFault (List String)
  | .array items => items.mapM readText
  | v => .error (.wrongType v .list)

/-- Reads the values of members, in order. -/
def readMembers : List (String × Json) → Except NodeFault (List (String × String))
  | [] => .ok []
  | (key, v) :: rest => do
    let s ← v.readText
    let ms ← readMembers rest
    return (key, s) :: ms

/-- The bindings of an object whose values are strings. They are read in the order
of their keys, and the first value that is no string is reported. -/
def readTextTable : Json → Except NodeFault (Table String)
  | .object members => (readMembers (Table.ofList members).entries).map .ofList
  | v => .error (.wrongType v .map)

end Json

/-- The fields of an authored node: by name, or in order. -/
inductive NodeFields where
  | named (members : Table Json)
  | listed (items : List Json)

namespace NodeFields

/-- Reads the one field of a node. -/
def single {α : Type} (kind : NodeKind) (name : String) (read : Json → Except NodeFault α) :
    NodeFields → Except NodeFault α
  | .named members =>
    match members.get? name with
    | some v => read v
    | none => .error (.missingField name)
  | .listed [] => .error (.noFields kind)
  | .listed (v :: rest) => do
    let a ← read v
    if rest.isEmpty then .ok a
    else .error (.tooManyFields kind (rest.length + 1))

/-- Reads a field that need not be there. -/
def optional {α : Type} (read : Json → Except NodeFault α) :
    Option Json → Except NodeFault (Option α)
  | some v => (read v).map some
  | none => .ok none

/-- Reads the prompt and the options of a message. There may be no options; the
options of a named form are read before it is missed that the prompt is absent. -/
def message : NodeFields → Except NodeFault (String × Table String)
  | .named members => do
    let prompt ← optional Json.readText (members.get? "msg")
    let options ← optional Json.readTextTable (members.get? "opt")
    match prompt with
    | some p => .ok (p, options.getD .empty)
    | none => .error (.missingField "msg")
  | .listed [] => .error (.noFields .message)
  | .listed [v] => do
    let prompt ← v.readText
    return (prompt, .empty)
  | .listed (v :: w :: rest) => do
    let prompt ← v.readText
    let options ← w.readTextTable
    if rest.isEmpty then .ok (prompt, options)
    else .error (.tooManyFields .message (rest.length + 2))

end NodeFields

namespace Node

/-- The kind that a tag names. -/
def kindOf (tag : Json) : Except NodeFault NodeKind :=
  match tag with
  | .string s =>
    match NodeKind.ofTag? s with
    | some kind => .ok kind
    | none => .error (.unknownTag s)
  | v => .error (.wrongType v .tag)

/-- The kind and the fields of an authored node. -/
def split : Json → Except NodeFault (NodeKind × NodeFields)
  | .object members =>
    let table := Table.ofList members
    match table.get? "type" with
    | some tag => (kindOf tag).map fun kind => (kind, .named table)
    | none => .error (.missingField "type")
  | .array (tag :: items) => (kindOf tag).map fun kind => (kind, .listed items)
  | .array [] => .error (.missingField "type")
  | v => .error (.wrongType v .node)

/-- The first option, in the order of the inputs, whose text is not a directive. -/
def badOption? (options : Table String) : Option (String × String) :=
  options.entries.find? (fun o => !isDirective o.2)

/-- The node of a kind with the given fields. -/
def ofFields (fields : NodeFields) : NodeKind → Except NodeFault Node
  | .directive => do
    let raw ← fields.single .directive "directive" Json.readText
    if isDirective raw then .ok (.directive raw) else .error (.notDirective raw)
  | .dialogue => do
    let lines ← fields.single .dialogue "dialogue" Json.readTexts
    return .dialogue (lines.map Entry.ofLine)
  | .message => do
    let (prompt, options) ← fields.message
    match badOption? options with
    | none => .ok (.message prompt options)
    | some (input, text) => .error (.optionNotDirective input text)

/-- The node that a value is. -/
def read (raw : Json) : Except NodeFault Node := do
  let (kind, fields) ← split raw
  ofFields fields kind

/-- The node that the entry `id` of a document is. -/
def classify (id : String) (raw : Json) : Except Error Node :=
  (read raw).mapError (.malformedNode id)

end Node

end DialogueTree
