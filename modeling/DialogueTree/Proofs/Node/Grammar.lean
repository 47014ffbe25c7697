import DialogueTree.Proofs.Node.Reading
import Mathlib.Data.List.Forall2

/-!
# The grammar of nodes

Which values are nodes is said here without the functions that read them. There are eight
forms: a node is authored as an object or as an array, and a message with or without options.
An object may hold anything else besides, an array may not.

The grammar also says which node an authored value is. It has the content that was authored and
nothing more: as many entries as there are lines, in the same order, and the same options. A
value without a form is malformed, and is reported by the name of its entry.
-/

namespace DialogueTree

/-! ## Lines -/

/-- A line that begins with the mark. -/
def Marked (line : String) : Prop := ∃ rest, line = Reserved.mark ++ rest

theorem isDirective_iff {line : String} : isDirective line = true ↔ Marked line := by
  unfold isDirective
  rw [List.isPrefixOf_iff_prefix]
  constructor
  · intro h
    obtain ⟨rest, hrest⟩ := h
    refine ⟨String.ofList rest, String.ext ?_⟩
    rw [String.toList_append, String.toList_ofList, hrest]
  · intro h
    obtain ⟨rest, rfl⟩ := h
    exact ⟨rest.toList, String.toList_append.symm⟩

/-- The entry that an authored line is. -/
inductive Entry.Authored : String → Entry → Prop where
  | directive {line : String} : Marked line → Authored line (.directive line)
  | text {line : String} : ¬ Marked line → Authored line (.text line)

theorem Entry.authored_iff {line : String} {entry : Entry} :
    Authored line entry ↔ entry = ofLine line := by
  unfold ofLine
  by_cases hmark : isDirective line = true
  · rw [if_pos hmark]
    have hmarked := isDirective_iff.mp hmark
    constructor
    · intro h
      cases h with
      | directive _ => rfl
      | text hunmarked => exact absurd hmarked hunmarked
    · intro h
      rw [h]
      exact .directive hmarked
  · rw [if_neg hmark]
    have hunmarked := mt isDirective_iff.mpr hmark
    constructor
    · intro h
      cases h with
      | directive hmarked => exact absurd hmarked hunmarked
      | text _ => rfl
    · intro h
      rw [h]
      exact .text hunmarked

theorem forall₂_authored_iff {lines : List String} {entries : List Entry} :
    List.Forall₂ Entry.Authored lines entries ↔ entries = lines.map Entry.ofLine := by
  constructor
  · intro h
    induction h with
    | nil => rfl
    | cons hentry _ ih => rw [List.map_cons, ← ih, Entry.authored_iff.mp hentry]
  · intro h
    rw [h, List.forall₂_map_right_iff]
    exact List.forall₂_same.mpr fun line _ => Entry.authored_iff.mpr rfl

/-! ## The grammar -/

/-- The options that a value offers. It is an object of which all members are directives, and
the options are its members. -/
inductive Json.Offers : Json → Table String → Prop where
  | members {members : List (String × Json)} {options : Table String} :
      (∀ input v, Member members input v ↔ ∃ raw, v = .string raw ∧ options.get? input = some raw) →
      (∀ input raw, options.get? input = some raw → Marked raw) →
      Offers (.object members) options

namespace Node

/-- The node that an authored value is. -/
inductive Authored : Json → Node → Prop where
  | directive {members : List (String × Json)} {raw : String} :
      Json.Member members "type" (.string "directive") →
      Json.Member members "directive" (.string raw) → Marked raw →
      Authored (.object members) (.directive raw)
  | dialogue {members : List (String × Json)} {lines : List String} {entries : List Entry} :
      Json.Member members "type" (.string "dialogue") →
      Json.Member members "dialogue" (.array (lines.map .string)) →
      List.Forall₂ Entry.Authored lines entries →
      Authored (.object members) (.dialogue entries)
  | message {members : List (String × Json)} {prompt : String} :
      Json.Member members "type" (.string "msg") →
      Json.Member members "msg" (.string prompt) → (∀ v, ¬ Json.Member members "opt" v) →
      Authored (.object members) (.message prompt .empty)
  | messageWith {members : List (String × Json)} {prompt : String} {offer : Json}
      {options : Table String} :
      Json.Member members "type" (.string "msg") →
      Json.Member members "msg" (.string prompt) → Json.Member members "opt" offer →
      offer.Offers options → Authored (.object members) (.message prompt options)
  | directiveArray {raw : String} : Marked raw →
      Authored (.array [.string "directive", .string raw]) (.directive raw)
  | dialogueArray {lines : List String} {entries : List Entry} :
      List.Forall₂ Entry.Authored lines entries →
      Authored (.array [.string "dialogue", .array (lines.map .string)]) (.dialogue entries)
  | messageArray (prompt : String) :
      Authored (.array [.string "msg", .string prompt]) (.message prompt .empty)
  | messageArrayWith {prompt : String} {offer : Json} {options : Table String} :
      offer.Offers options →
      Authored (.array [.string "msg", .string prompt, offer]) (.message prompt options)

end Node

/-! ## What the fields are -/

theorem Node.badOption?_eq_none_iff {options : Table String} :
    badOption? options = none ↔ ∀ input raw, options.get? input = some raw → Marked raw := by
  unfold badOption?
  rw [List.find?_eq_none]
  constructor
  · intro h input raw hoption
    have hmark := h (input, raw) (Table.get?_eq_some_iff.mp hoption)
    exact isDirective_iff.mp (by simpa using hmark)
  · intro h option hoption
    have hmark := isDirective_iff.mpr (h option.1 option.2 (Table.get?_eq_some_iff.mpr hoption))
    simp [hmark]

/-- Options are offered exactly if they can be read and none of them is bad. -/
theorem Json.offers_iff {v : Json} {options : Table String} :
    v.Offers options ↔ v.readTextTable = .ok options ∧ Node.badOption? options = none := by
  have hbindings (members : List (String × Json)) :
      Table.ofList members = options.map .string ↔
        ∀ input v, Member members input v ↔
          ∃ raw, v = .string raw ∧ options.get? input = some raw := by
    simp only [member_iff]
    constructor
    · intro h input v
      rw [h, Table.get?_map, Option.map_eq_some_iff]
      exact exists_congr fun raw => and_comm.trans (and_congr_left' eq_comm)
    · intro h
      refine Table.ext_get? fun input => Option.ext fun v => ?_
      rw [h input v, Table.get?_map, Option.map_eq_some_iff]
      exact exists_congr fun raw => and_comm.trans (and_congr_right' eq_comm)
  rw [readTextTable_eq_ok_iff, Node.badOption?_eq_none_iff]
  constructor
  · intro h
    cases h with
    | @members members _ hmembers hmarked =>
      exact ⟨⟨members, rfl, (hbindings members).mpr hmembers⟩, hmarked⟩
  · intro h
    obtain ⟨⟨members, rfl, htable⟩, hmarked⟩ := h
    exact .members ((hbindings members).mp htable) hmarked

namespace NodeFields

variable {α : Type} {kind : NodeKind} {name : String} {read : Json → Except NodeFault α}

theorem single_named_eq_ok_iff {table : Table Json} {a : α} :
    single kind name read (.named table) = .ok a ↔
      ∃ v, table.get? name = some v ∧ read v = .ok a := by
  unfold single
  dsimp only
  cases table.get? name <;> simp

theorem single_listed_eq_ok_iff {items : List Json} {a : α} :
    single kind name read (.listed items) = .ok a ↔ ∃ v, items = [v] ∧ read v = .ok a := by
  rcases items with _ | ⟨v, _ | ⟨w, rest⟩⟩
  · exact ⟨nofun, nofun⟩
  · unfold single
    rw [bind_eq_ok_iff]
    simp
  · unfold single
    rw [bind_eq_ok_iff]
    simp

theorem optional_eq_ok_iff {v? : Option Json} {a? : Option α} :
    optional read v? = .ok a? ↔
      (v? = none ∧ a? = none) ∨ ∃ v a, v? = some v ∧ a? = some a ∧ read v = .ok a := by
  cases v? with
  | none => simp [optional, eq_comm]
  | some v => cases hread : read v <;> simp [optional, hread, Except.map, eq_comm]

theorem message_named_eq_ok_iff {table : Table Json} {prompt : String} {options : Table String} :
    message (.named table) = .ok (prompt, options) ↔
      table.get? "msg" = some (.string prompt)
        ∧ (table.get? "opt" = none ∧ options = .empty
          ∨ ∃ v, table.get? "opt" = some v ∧ v.readTextTable = .ok options) := by
  unfold message
  dsimp only
  rw [bind_eq_ok_iff]
  constructor
  · intro h
    obtain ⟨prompt?, hprompt, hrest⟩ := h
    obtain ⟨options?, hoptions, heq⟩ := bind_eq_ok_iff.mp hrest
    rcases optional_eq_ok_iff.mp hprompt with ⟨-, rfl⟩ | ⟨v, text, hmsg, rfl, htext⟩
    · cases heq
    · cases heq
      rw [Json.readText_eq_ok_iff] at htext
      refine ⟨by rw [hmsg, htext], ?_⟩
      rcases optional_eq_ok_iff.mp hoptions with ⟨hopt, rfl⟩ | ⟨w, found, hopt, rfl, hread⟩
      · exact .inl ⟨hopt, rfl⟩
      · exact .inr ⟨w, hopt, hread⟩
  · intro h
    obtain ⟨hmsg, hopt⟩ := h
    have hprompt : optional Json.readText (table.get? "msg") = .ok (some prompt) := by
      rw [hmsg]
      rfl
    refine ⟨some prompt, hprompt, bind_eq_ok_iff.mpr ?_⟩
    rcases hopt with ⟨hnone, rfl⟩ | ⟨v, hsome, hread⟩
    · exact ⟨none, optional_eq_ok_iff.mpr (.inl ⟨hnone, rfl⟩), rfl⟩
    · exact ⟨some options, optional_eq_ok_iff.mpr (.inr ⟨v, options, hsome, rfl, hread⟩), rfl⟩

theorem message_listed_eq_ok_iff {items : List Json} {prompt : String} {options : Table String} :
    message (.listed items) = .ok (prompt, options) ↔
      items = [.string prompt] ∧ options = .empty
        ∨ ∃ v, items = [.string prompt, v] ∧ v.readTextTable = .ok options := by
  rcases items with _ | ⟨v, _ | ⟨w, rest⟩⟩
  · simp [message]
  · unfold message
    simp [bind_eq_ok_iff, Json.readText_eq_ok_iff, pure, Except.pure, eq_comm (a := options)]
  · unfold message
    dsimp only
    cases rest with
    | nil => simp [bind_eq_ok_iff, Json.readText_eq_ok_iff, and_comm]
    | cons x rest => simp [bind_eq_ok_iff]

end NodeFields

/-! ## The kind and the form -/

theorem NodeKind.ofTag?_eq_some_iff {s : String} {kind : NodeKind} :
    ofTag? s = some kind ↔ s = kind.tag := by
  constructor
  · intro h
    unfold ofTag? at h
    split at h
    · cases h
      assumption
    · split at h
      · cases h
        assumption
      · split at h
        · cases h
          assumption
        · cases h
  · intro h
    subst h
    cases kind <;> rfl

namespace Node

theorem kindOf_eq_ok_iff {tag : Json} {kind : NodeKind} :
    kindOf tag = .ok kind ↔ tag = .string kind.tag := by
  cases tag with
  | string s =>
    rw [Json.string.injEq, ← NodeKind.ofTag?_eq_some_iff]
    unfold kindOf
    dsimp only
    cases NodeKind.ofTag? s <;> simp
  | _ => exact ⟨nofun, nofun⟩

/-- A value has a kind if its tag names one. The fields of an object are its members, those of
an array the items behind the tag. -/
theorem split_eq_ok_iff {raw : Json} {kind : NodeKind} {fields : NodeFields} :
    split raw = .ok (kind, fields) ↔
      (∃ members, raw = .object members ∧ Json.Member members "type" (.string kind.tag)
          ∧ fields = .named (.ofList members))
        ∨ ∃ items, raw = .array (.string kind.tag :: items) ∧ fields = .listed items := by
  have hmap {tag : Json} {given : NodeFields} :
      (kindOf tag).map (fun kind => (kind, given)) = .ok (kind, fields)
        ↔ tag = .string kind.tag ∧ fields = given := by
    rw [← kindOf_eq_ok_iff]
    cases kindOf tag <;> simp [Except.map, eq_comm]
  cases raw with
  | object members =>
    simp only [Json.member_iff]
    unfold split
    dsimp only
    cases htag : (Table.ofList members).get? "type" with
    | none => simp [htag]
    | some tag => simp [hmap, htag]
  | array items =>
    cases items with
    | nil => simp [split]
    | cons tag items => simp [split, hmap]
  | _ => simp [split]

/-- A value is read in two parts. -/
theorem read_eq_ok_iff {raw : Json} {node : Node} :
    read raw = .ok node ↔
      ∃ kind fields, split raw = .ok (kind, fields) ∧ ofFields fields kind = .ok node := by
  unfold read
  rw [bind_eq_ok_iff, Prod.exists]

theorem ofFields_directive_iff {fields : NodeFields} {node : Node} :
    ofFields fields .directive = .ok node ↔
      ∃ raw, fields.single .directive "directive" Json.readText = .ok raw ∧ Marked raw
        ∧ node = .directive raw := by
  unfold ofFields
  rw [bind_eq_ok_iff]
  refine exists_congr fun raw => and_congr_right fun _ => ?_
  rw [← isDirective_iff]
  by_cases hmark : isDirective raw = true <;> simp [hmark, eq_comm]

theorem ofFields_dialogue_iff {fields : NodeFields} {node : Node} :
    ofFields fields .dialogue = .ok node ↔
      ∃ lines, fields.single .dialogue "dialogue" Json.readTexts = .ok lines
        ∧ node = .dialogue (lines.map Entry.ofLine) := by
  unfold ofFields
  rw [bind_eq_ok_iff]
  refine exists_congr fun lines => and_congr_right fun _ => ?_
  simp [pure, Except.pure, eq_comm]

theorem ofFields_message_iff {fields : NodeFields} {node : Node} :
    ofFields fields .message = .ok node ↔
      ∃ prompt options, fields.message = .ok (prompt, options) ∧ badOption? options = none
        ∧ node = .message prompt options := by
  unfold ofFields
  rw [bind_eq_ok_iff, Prod.exists]
  refine exists_congr fun prompt => exists_congr fun options => and_congr_right fun _ => ?_
  dsimp only
  cases badOption? options <;> simp [eq_comm]

/-! ## What is read is what was authored -/

theorem authored_of_read {raw : Json} {node : Node} (h : read raw = .ok node) :
    Authored raw node := by
  obtain ⟨kind, fields, hsplit, hfields⟩ := read_eq_ok_iff.mp h
  rcases split_eq_ok_iff.mp hsplit with ⟨members, rfl, htype, rfl⟩ | ⟨items, rfl, rfl⟩
  · -- the fields of an object are found by name, whatever else it holds
    cases kind with
    | directive =>
      obtain ⟨text, hsingle, hmarked, rfl⟩ := ofFields_directive_iff.mp hfields
      obtain ⟨v, hmember, hread⟩ := NodeFields.single_named_eq_ok_iff.mp hsingle
      rw [Json.readText_eq_ok_iff.mp hread] at hmember
      exact .directive htype (Json.member_iff.mpr hmember) hmarked
    | dialogue =>
      obtain ⟨lines, hsingle, rfl⟩ := ofFields_dialogue_iff.mp hfields
      obtain ⟨v, hmember, hread⟩ := NodeFields.single_named_eq_ok_iff.mp hsingle
      rw [Json.readTexts_eq_ok_iff.mp hread] at hmember
      exact .dialogue htype (Json.member_iff.mpr hmember) (forall₂_authored_iff.mpr rfl)
    | message =>
      obtain ⟨prompt, options, hmessage, hgood, rfl⟩ := ofFields_message_iff.mp hfields
      obtain ⟨hprompt, hopt⟩ := NodeFields.message_named_eq_ok_iff.mp hmessage
      rcases hopt with ⟨hnone, rfl⟩ | ⟨offer, hoffer, hread⟩
      · exact .message htype (Json.member_iff.mpr hprompt) (Json.forall_not_member_iff.mpr hnone)
      · exact .messageWith htype (Json.member_iff.mpr hprompt) (Json.member_iff.mpr hoffer)
          (Json.offers_iff.mpr ⟨hread, hgood⟩)
  · -- those of an array are all that stands behind the tag
    cases kind with
    | directive =>
      obtain ⟨text, hsingle, hmarked, rfl⟩ := ofFields_directive_iff.mp hfields
      obtain ⟨v, rfl, hread⟩ := NodeFields.single_listed_eq_ok_iff.mp hsingle
      rw [Json.readText_eq_ok_iff.mp hread]
      exact .directiveArray hmarked
    | dialogue =>
      obtain ⟨lines, hsingle, rfl⟩ := ofFields_dialogue_iff.mp hfields
      obtain ⟨v, rfl, hread⟩ := NodeFields.single_listed_eq_ok_iff.mp hsingle
      rw [Json.readTexts_eq_ok_iff.mp hread]
      exact .dialogueArray (forall₂_authored_iff.mpr rfl)
    | message =>
      obtain ⟨prompt, options, hmessage, hgood, rfl⟩ := ofFields_message_iff.mp hfields
      rcases NodeFields.message_listed_eq_ok_iff.mp hmessage with ⟨rfl, rfl⟩ | ⟨offer, rfl, hread⟩
      · exact .messageArray prompt
      · exact .messageArrayWith (Json.offers_iff.mpr ⟨hread, hgood⟩)

theorem read_of_authored {raw : Json} {node : Node} (h : Authored raw node) :
    read raw = .ok node := by
  refine read_eq_ok_iff.mpr ?_
  cases h with
  | @directive members text htype hmember hmarked =>
    refine ⟨.directive, _, split_eq_ok_iff.mpr (.inl ⟨members, rfl, htype, rfl⟩), ?_⟩
    refine ofFields_directive_iff.mpr ⟨text, ?_, hmarked, rfl⟩
    exact NodeFields.single_named_eq_ok_iff.mpr ⟨_, Json.member_iff.mp hmember, rfl⟩
  | @dialogue members lines entries htype hmember hentries =>
    refine ⟨.dialogue, _, split_eq_ok_iff.mpr (.inl ⟨members, rfl, htype, rfl⟩), ?_⟩
    refine ofFields_dialogue_iff.mpr ⟨lines, ?_, by rw [forall₂_authored_iff.mp hentries]⟩
    exact NodeFields.single_named_eq_ok_iff.mpr
      ⟨_, Json.member_iff.mp hmember, Json.readTexts_eq_ok_iff.mpr rfl⟩
  | @message members prompt htype hmember hnone =>
    refine ⟨.message, _, split_eq_ok_iff.mpr (.inl ⟨members, rfl, htype, rfl⟩), ?_⟩
    refine ofFields_message_iff.mpr ⟨prompt, .empty, ?_, rfl, rfl⟩
    exact NodeFields.message_named_eq_ok_iff.mpr
      ⟨Json.member_iff.mp hmember, .inl ⟨Json.forall_not_member_iff.mp hnone, rfl⟩⟩
  | @messageWith members prompt offer options htype hmember hopt hoffers =>
    obtain ⟨hread, hgood⟩ := Json.offers_iff.mp hoffers
    refine ⟨.message, _, split_eq_ok_iff.mpr (.inl ⟨members, rfl, htype, rfl⟩), ?_⟩
    refine ofFields_message_iff.mpr ⟨prompt, options, ?_, hgood, rfl⟩
    exact NodeFields.message_named_eq_ok_iff.mpr
      ⟨Json.member_iff.mp hmember, .inr ⟨offer, Json.member_iff.mp hopt, hread⟩⟩
  | @directiveArray text hmarked =>
    refine ⟨.directive, _, split_eq_ok_iff.mpr (.inr ⟨_, rfl, rfl⟩), ?_⟩
    refine ofFields_directive_iff.mpr ⟨text, ?_, hmarked, rfl⟩
    exact NodeFields.single_listed_eq_ok_iff.mpr ⟨_, rfl, rfl⟩
  | @dialogueArray lines entries hentries =>
    refine ⟨.dialogue, _, split_eq_ok_iff.mpr (.inr ⟨_, rfl, rfl⟩), ?_⟩
    refine ofFields_dialogue_iff.mpr ⟨lines, ?_, by rw [forall₂_authored_iff.mp hentries]⟩
    exact NodeFields.single_listed_eq_ok_iff.mpr ⟨_, rfl, Json.readTexts_eq_ok_iff.mpr rfl⟩
  | messageArray prompt =>
    refine ⟨.message, _, split_eq_ok_iff.mpr (.inr ⟨_, rfl, rfl⟩), ?_⟩
    refine ofFields_message_iff.mpr ⟨prompt, .empty, ?_, rfl, rfl⟩
    exact NodeFields.message_listed_eq_ok_iff.mpr (.inl ⟨rfl, rfl⟩)
  | @messageArrayWith prompt offer options hoffers =>
    obtain ⟨hread, hgood⟩ := Json.offers_iff.mp hoffers
    refine ⟨.message, _, split_eq_ok_iff.mpr (.inr ⟨_, rfl, rfl⟩), ?_⟩
    refine ofFields_message_iff.mpr ⟨prompt, options, ?_, hgood, rfl⟩
    exact NodeFields.message_listed_eq_ok_iff.mpr (.inr ⟨offer, rfl, hread⟩)

/-- **A value is a node exactly if it has one of the forms.** It is then the node that was
authored, whatever its name. All other values are malformed, and are reported by the name. -/
theorem classify_authored (id : String) (raw : Json) :
    (∀ node, classify id raw = .ok node ↔ Authored raw node)
      ∧ ((∃ fault, classify id raw = .error (.malformedNode id fault)) ↔
        ∀ node, ¬ Authored raw node) := by
  have hread (node : Node) : Authored raw node ↔ read raw = .ok node :=
    ⟨read_of_authored, authored_of_read⟩
  simp only [hread]
  unfold classify
  cases read raw <;> simp [Except.mapError]

/-- Options may be left out of an array, but nothing else may stand in their place. -/
example : classify "gate" (.array [.string "msg", .string "Where to?", .null])
    = .error (.malformedNode "gate" (.wrongType .null .map)) := by
  rfl

end Node

end DialogueTree
