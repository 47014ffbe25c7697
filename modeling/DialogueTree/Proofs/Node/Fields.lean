import DialogueTree.Proofs.Node.Grammar

/-!
# What a node is read from

Reading looks at the tag and at the fields of the kind that the tag names, and at nothing else
that an object holds. So whatever else is put into an object, it remains the same node, or fails
for the same reason. If the tag names no kind, it is the tag alone that is reported.

An array holds the tag and the fields and has no room for anything else. It is read like the
object with these fields, faults included, because from the fields on both forms are read alike.

The options of a message are checked in the order of their keys. Of several that are no
directives the one with the least key is therefore reported.
-/

namespace DialogueTree

/-- The names of the fields of a kind, in order. -/
def NodeKind.fields : NodeKind → List String
  | .directive => ["directive"]
  | .dialogue => ["dialogue"]
  | .message => ["msg", "opt"]

/-- Two objects have the same member of a name, or neither of them has one. -/
def Json.Agree (members others : List (String × Json)) (name : String) : Prop :=
  ∀ v, Member members name v ↔ Member others name v

theorem Json.agree_iff {members others : List (String × Json)} {name : String} :
    Agree members others name ↔
      (Table.ofList members).get? name = (Table.ofList others).get? name := by
  unfold Agree
  simp only [member_iff]
  exact (Option.ext_iff).symm

/-- Where no key is bound twice, a table has the bindings of its list. -/
theorem Table.get?_ofList_of_nodup {α : Type} {es : List (String × α)}
    (h : (es.map Prod.fst).Nodup) (k : String) : (ofList es).get? k = es.lookup k := by
  rw [get?_ofList]
  induction es with
  | nil => rfl
  | cons e es ih =>
    obtain ⟨hfresh, hrest⟩ := List.nodup_cons.mp h
    rw [List.reverse_cons, List.lookup_append, ih hrest, lookup_cons_eq, lookup_cons_eq]
    by_cases hk : k = e.1
    · have hnone : es.lookup k = none := by
        rw [List.lookup_eq_none_iff]
        intro d hd
        rw [hk, bne_iff_ne]
        exact fun heq => hfresh (heq ▸ List.mem_map_of_mem hd)
      rw [hnone, if_pos hk, if_pos hk]
      rfl
    · rw [if_neg hk, if_neg hk, List.lookup_nil, Option.or_none]

/-! ## The fields of a kind -/

namespace NodeFields

variable {α : Type} {kind : NodeKind} {name : String} {read : Json → Except NodeFault α}

theorem single_named {table : Table Json} {v : Json} (h : table.get? name = some v) :
    single kind name read (.named table) = read v := by
  unfold single
  dsimp only
  rw [h]

theorem single_listed (v : Json) : single kind name read (.listed [v]) = read v := by
  simp only [single]
  cases read v <;> rfl

end NodeFields

namespace Node

open Json (Member Agree)

/-- Fields that are given by name are all that a kind is read from. -/
theorem ofFields_named_congr {kind : NodeKind} {table other : Table Json}
    (h : ∀ name ∈ kind.fields, table.get? name = other.get? name) :
    ofFields (.named table) kind = ofFields (.named other) kind := by
  cases kind with
  | directive =>
    have hfield := h "directive" (by decide)
    simp only [ofFields, NodeFields.single, hfield]
  | dialogue =>
    have hfield := h "dialogue" (by decide)
    simp only [ofFields, NodeFields.single, hfield]
  | message =>
    have hprompt := h "msg" (by decide)
    have hoptions := h "opt" (by decide)
    simp only [ofFields, NodeFields.message, hprompt, hoptions]

/-- Fields that are given in order are read like the same fields under their names. -/
theorem ofFields_listed {kind : NodeKind} {values : List Json} (hne : values ≠ [])
    (hlength : values.length ≤ kind.fields.length) {table : Table Json}
    (htable : ∀ name ∈ kind.fields, table.get? name = (kind.fields.zip values).lookup name) :
    ofFields (.listed values) kind = ofFields (.named table) kind := by
  cases kind with
  | directive =>
    obtain ⟨v, rfl⟩ : ∃ v, values = [v] :=
      List.length_eq_one_iff.mp (Nat.le_antisymm hlength (List.length_pos_iff.mpr hne))
    have hfield : table.get? "directive" = some v := htable "directive" (by decide)
    simp only [ofFields, NodeFields.single_listed, NodeFields.single_named hfield]
  | dialogue =>
    obtain ⟨v, rfl⟩ : ∃ v, values = [v] :=
      List.length_eq_one_iff.mp (Nat.le_antisymm hlength (List.length_pos_iff.mpr hne))
    have hfield : table.get? "dialogue" = some v := htable "dialogue" (by decide)
    simp only [ofFields, NodeFields.single_listed, NodeFields.single_named hfield]
  | message =>
    rcases values with _ | ⟨v, _ | ⟨w, _ | ⟨x, rest⟩⟩⟩
    · exact absurd rfl hne
    · have hprompt : table.get? "msg" = some v := htable "msg" (by decide)
      have hoptions : table.get? "opt" = none := htable "opt" (by decide)
      simp only [ofFields, NodeFields.message, hprompt, hoptions, NodeFields.optional]
      cases v.readText <;> rfl
    · have hprompt : table.get? "msg" = some v := htable "msg" (by decide)
      have hoptions : table.get? "opt" = some w := htable "opt" (by decide)
      simp only [ofFields, NodeFields.message, hprompt, hoptions, NodeFields.optional]
      cases v.readText with
      | error fault => rfl
      | ok prompt => cases w.readTextTable <;> rfl
    · simp [NodeKind.fields] at hlength

/-! ## The tag and the fields -/

/-- An object whose tag names a kind is read from its members as the fields of the kind. -/
theorem read_object {members : List (String × Json)} {kind : NodeKind}
    (htype : Member members "type" (.string kind.tag)) :
    read (.object members) = ofFields (.named (.ofList members)) kind := by
  have hsplit := split_eq_ok_iff.mpr (.inl ⟨members, rfl, htype, rfl⟩)
  unfold read
  rw [hsplit]
  rfl

/-- An array whose tag names a kind is read from the items behind it. -/
theorem read_array (kind : NodeKind) (values : List Json) :
    read (.array (.string kind.tag :: values)) = ofFields (.listed values) kind := by
  have hsplit : split (.array (.string kind.tag :: values)) = .ok (kind, .listed values) :=
    split_eq_ok_iff.mpr (.inr ⟨values, rfl, rfl⟩)
  unfold read
  rw [hsplit]
  rfl

/-- **Objects that agree on the tag and on the fields of its kind are read alike.** -/
theorem read_object_congr {members others : List (String × Json)}
    (htype : Agree members others "type")
    (hfields : ∀ kind : NodeKind, Member members "type" (.string kind.tag) →
      ∀ name ∈ kind.fields, Agree members others name) :
    read (.object members) = read (.object others) := by
  by_cases hkind : ∃ kind : NodeKind, Member members "type" (.string kind.tag)
  · obtain ⟨kind, hmember⟩ := hkind
    rw [read_object hmember, read_object ((htype _).mp hmember)]
    refine ofFields_named_congr fun name hname => ?_
    exact Json.agree_iff.mp (hfields kind hmember name hname)
  · -- the tag names no kind, and is all that is looked at
    have hget := Json.agree_iff.mp htype
    unfold read split
    dsimp only
    rw [← hget]
    cases htag : (Table.ofList members).get? "type" with
    | none => rfl
    | some tag =>
      cases hkindOf : kindOf tag with
      | error fault =>
        simp only [hkindOf]
        rfl
      | ok kind =>
        have hmember := Json.member_iff.mpr htag
        rw [kindOf_eq_ok_iff.mp hkindOf] at hmember
        exact absurd ⟨kind, hmember⟩ hkind

/-- **An array is read like the object with the same fields.** -/
theorem read_array_eq_object {kind : NodeKind} {values : List Json} (hne : values ≠ [])
    (hlength : values.length ≤ kind.fields.length) :
    read (.array (.string kind.tag :: values))
      = read (.object (("type", .string kind.tag) :: kind.fields.zip values)) := by
  have hnames : ("type" :: kind.fields).Nodup := by cases kind <;> decide
  have hkeys : (kind.fields.zip values).map Prod.fst = kind.fields.take values.length := by
    rw [List.zip_eq_zip_take_min, List.map_fst_zip] <;> simp [hlength]
  have hnodup : ((("type", Json.string kind.tag) :: kind.fields.zip values).map Prod.fst).Nodup := by
    rw [List.map_cons, hkeys]
    exact hnames.sublist ((List.take_sublist _ _).cons_cons _)
  have hget := Table.get?_ofList_of_nodup hnodup
  have htype : Member (("type", .string kind.tag) :: kind.fields.zip values) "type"
      (.string kind.tag) := by
    rw [Json.member_iff, hget, Table.lookup_cons_eq, if_pos rfl]
  rw [read_array, read_object htype]
  refine ofFields_listed hne hlength fun name hname => ?_
  have hother : name ≠ "type" := by
    rintro rfl
    exact (List.nodup_cons.mp hnames).1 hname
  rw [hget, Table.lookup_cons_eq, if_neg hother]

/-! ## The option that is reported -/

/-- A message offers the members of an object as its options. It is authored as an object or as
an array, and its prompt is a text. -/
inductive Asks : Json → List (String × Json) → Prop where
  | object {members options : List (String × Json)} {prompt : String} :
      Member members "type" (.string "msg") → Member members "msg" (.string prompt) →
      Member members "opt" (.object options) → Asks (.object members) options
  | array (prompt : String) (options : List (String × Json)) :
      Asks (.array [.string "msg", .string prompt, .object options]) options

/-- An option is the first one that is no directive: all options with a lesser key are
directives. -/
structure FirstUnmarked (options : List (String × Json)) (input text : String) : Prop where
  member : Member options input (.string text)
  unmarked : ¬ Marked text
  first : ∀ other text', Member options other (.string text') → ¬ Marked text' →
    other ≠ input → input < other

/-- Options all of which are texts can be read. -/
theorem exists_readTextTable {options : List (String × Json)}
    (htexts : ∀ input v, Member options input v → ∃ text, v = .string text) :
    ∃ table : Table String, (Json.object options).readTextTable = .ok table
      ∧ ∀ input text, table.get? input = some text ↔ Member options input (.string text) := by
  let textOf : Json → String := fun v => v.readText.toOption.getD ""
  have hstring : ∀ input v, (Table.ofList options).get? input = some v →
      v = .string (textOf v) := by
    intro input v hv
    obtain ⟨text, rfl⟩ := htexts input v (Json.member_iff.mpr hv)
    rfl
  have htable : Table.ofList options = ((Table.ofList options).map textOf).map .string := by
    refine Table.ext_get? fun input => ?_
    rw [Table.get?_map, Table.get?_map]
    cases hv : (Table.ofList options).get? input with
    | none => rfl
    | some v => exact congrArg some (hstring input v hv)
  refine ⟨_, Json.readTextTable_eq_ok_iff.mpr ⟨options, rfl, htable⟩, fun input text => ?_⟩
  rw [Json.member_iff]
  conv_rhs => rw [htable, Table.get?_map]
  simp

/-- Of some options the first bad one is the one with the least key. -/
theorem badOption?_first {table : Table String} {input text : String}
    (h : badOption? table = some (input, text)) :
    table.get? input = some text ∧ ¬ Marked text
      ∧ ∀ other text', table.get? other = some text' → ¬ Marked text' → other ≠ input →
        input < other := by
  obtain ⟨hbad, before, behind, hentries, hgood⟩ := List.find?_eq_some_iff_append.mp h
  have hunmarked : ∀ {text : String}, ¬ Marked text ↔ (!isDirective text) = true := by
    intro text
    rw [← isDirective_iff]
    simp
  refine ⟨Table.get?_eq_some_iff.mpr (by simp [hentries]), hunmarked.mpr hbad, ?_⟩
  intro other text' hother hunmarked' hne
  have hmem := Table.get?_eq_some_iff.mp hother
  have hsorted := table.sorted
  rw [hentries] at hmem hsorted
  rcases List.mem_append.mp hmem with hbefore | hbehind
  · have hmark := hgood _ hbefore
    rw [hunmarked.mp hunmarked'] at hmark
    cases hmark
  · rcases List.mem_cons.mp hbehind with heq | hbehind
    · cases heq
      exact absurd rfl hne
    · exact (List.pairwise_cons.mp (List.pairwise_append.mp hsorted).2.1).1 _ hbehind

theorem ofFields_message_of_bad {fields : NodeFields} {prompt input text : String}
    {options : Table String} (hfields : fields.message = .ok (prompt, options))
    (hbad : badOption? options = some (input, text)) :
    ofFields fields .message = .error (.optionNotDirective input text) := by
  unfold ofFields
  simp only [hfields, bind, Except.bind, hbad]

/-- **Of several options that are no directives, the first one is reported.** -/
theorem read_of_unmarked {raw : Json} {options : List (String × Json)} (hasks : Asks raw options)
    (htexts : ∀ input v, Member options input v → ∃ text, v = .string text)
    (hbad : ∃ input text, Member options input (.string text) ∧ ¬ Marked text) :
    ∃ input text, FirstUnmarked options input text
      ∧ read raw = .error (.optionNotDirective input text) := by
  obtain ⟨table, hread, htable⟩ := exists_readTextTable htexts
  cases hfirst : badOption? table with
  | none =>
    obtain ⟨input, text, hmember, hunmarked⟩ := hbad
    have hmarked := badOption?_eq_none_iff.mp hfirst input text ((htable input text).mpr hmember)
    exact absurd hmarked hunmarked
  | some option =>
    obtain ⟨input, text⟩ := option
    obtain ⟨hget, hunmarked, hless⟩ := badOption?_first hfirst
    have hunmarked' : FirstUnmarked options input text := {
      member := (htable input text).mp hget
      unmarked := hunmarked
      first := fun other text' hother => hless other text' ((htable other text').mpr hother) }
    refine ⟨input, text, hunmarked', ?_⟩
    cases hasks with
    | @object members _ prompt htype hprompt hopt =>
      have hkind : Member members "type" (.string NodeKind.message.tag) := htype
      have hfields : NodeFields.message (.named (.ofList members)) = .ok (prompt, table) :=
        NodeFields.message_named_eq_ok_iff.mpr
          ⟨Json.member_iff.mp hprompt, .inr ⟨_, Json.member_iff.mp hopt, hread⟩⟩
      rw [read_object hkind]
      exact ofFields_message_of_bad hfields hfirst
    | array prompt _ =>
      have hfields : NodeFields.message (.listed [.string prompt, .object options])
          = .ok (prompt, table) :=
        NodeFields.message_listed_eq_ok_iff.mpr (.inr ⟨_, rfl, hread⟩)
      exact (read_array .message _).trans (ofFields_message_of_bad hfields hfirst)

/-- **A node is read from its tag and from the fields of its kind.** Objects that agree on
these are classified alike, whatever else they hold; an array is classified like the object with
the same fields; and of several options that are no directives the one with the least key is
reported. All this goes for faults as it goes for nodes. -/
theorem classify_reads (id : String) :
    (∀ members others, Agree members others "type" →
        (∀ kind : NodeKind, Member members "type" (.string kind.tag) →
          ∀ name ∈ kind.fields, Agree members others name) →
        classify id (.object members) = classify id (.object others))
      ∧ (∀ (kind : NodeKind) (values : List Json), values ≠ [] →
        values.length ≤ kind.fields.length →
        classify id (.array (.string kind.tag :: values))
          = classify id (.object (("type", .string kind.tag) :: kind.fields.zip values)))
      ∧ ∀ raw options, Asks raw options →
        (∀ input v, Member options input v → ∃ text, v = .string text) →
        (∃ input text, Member options input (.string text) ∧ ¬ Marked text) →
        ∃ input text, FirstUnmarked options input text
          ∧ classify id raw = .error (.malformedNode id (.optionNotDirective input text)) := by
  refine ⟨fun members others htype hfields => ?_, fun kind values hne hlength => ?_,
    fun raw options hasks htexts hbad => ?_⟩
  · unfold classify
    rw [read_object_congr htype hfields]
  · unfold classify
    rw [read_array_eq_object hne hlength]
  · obtain ⟨input, text, hfirst, hread⟩ := read_of_unmarked hasks htexts hbad
    refine ⟨input, text, hfirst, ?_⟩
    unfold classify
    rw [hread]
    rfl

/-- The options at a gate. Neither of them is a directive. -/
def ways : List (String × Json) := [("w", .string "west"), ("e", .string "east")]

/-- A gate, and the same gate with moss on it. -/
def gate (moss : List (String × Json)) : List (String × Json) :=
  moss ++ [("type", .string "msg"), ("msg", .string "Where to?"), ("opt", .object ways)]

/-- Moss does not change a gate, even if it has the name of a field of another kind, and the gate
is the same as an array. Of its two options the one for the east is reported. -/
theorem classify_reads_gate :
    classify "gate" (.object (gate []))
        = classify "gate" (.object (gate [("moss", .int 3), ("dialogue", .null)]))
      ∧ classify "gate" (.array [.string "msg", .string "Where to?", .object ways])
        = classify "gate" (.object (gate []))
      ∧ FirstUnmarked ways "e" "east"
      ∧ classify "gate" (.object (gate []))
        = .error (.malformedNode "gate" (.optionNotDirective "e" "east")) := by
  obtain ⟨hobject, harray, hoption⟩ := classify_reads "gate"
  have hagree : ∀ name, name ≠ "moss" → name ≠ "dialogue" →
      Agree (gate []) (gate [("moss", .int 3), ("dialogue", .null)]) name := by
    intro name hmoss hdialogue
    rw [Json.agree_iff, Table.get?_ofList, Table.get?_ofList]
    simp [gate, Table.lookup_cons_eq, hmoss, hdialogue]
  have hways : ∀ input v, Member ways input v →
      input = "e" ∧ v = .string "east" ∨ input = "w" ∧ v = .string "west" := by
    intro input v hmember
    rw [Json.member_iff, Table.get?_ofList] at hmember
    have hget : (if input = "e" then some (.string "east")
        else if input = "w" then some (.string "west") else none) = some v := by
      simpa [ways, Table.lookup_cons_eq] using hmember
    by_cases heast : input = "e"
    · rw [if_pos heast] at hget
      exact .inl ⟨heast, (Option.some.inj hget).symm⟩
    · rw [if_neg heast] at hget
      by_cases hwest : input = "w"
      · rw [if_pos hwest] at hget
        exact .inr ⟨hwest, (Option.some.inj hget).symm⟩
      · rw [if_neg hwest] at hget
        cases hget
  have hunmarked : ¬ Marked "east" := by
    rw [← isDirective_iff]
    decide
  have hgate : ∀ name v, (gate []).reverse.lookup name = some v → Member (gate []) name v := by
    intro name v hget
    rwa [Json.member_iff, Table.get?_ofList]
  have hasks : Asks (.object (gate [])) ways :=
    .object (hgate _ _ rfl) (hgate _ _ rfl) (hgate _ _ rfl)
  have htexts : ∀ input v, Member ways input v → ∃ text, v = .string text := by
    intro input v hmember
    rcases hways input v hmember with ⟨-, rfl⟩ | ⟨-, rfl⟩ <;> exact ⟨_, rfl⟩
  have heast : Member ways "e" (.string "east") := by
    rw [Json.member_iff, Table.get?_ofList]
    rfl
  obtain ⟨input, text, hfirst, hclassify⟩ :=
    hoption _ ways hasks htexts ⟨"e", "east", heast, hunmarked⟩
  have hleast : input = "e" ∧ text = "east" := by
    rcases hways input _ hfirst.member with ⟨hinput, htext⟩ | ⟨hinput, htext⟩
    · exact ⟨hinput, Json.string.inj htext⟩
    · -- the west would have to come before the east
      have hless := hfirst.first "e" "east" heast hunmarked (by rw [hinput]; decide)
      rw [hinput] at hless
      exact absurd hless (by decide)
  obtain ⟨rfl, rfl⟩ := hleast
  refine ⟨hobject _ _ (hagree "type" (by decide) (by decide)) ?_,
    harray .message _ (by simp) (by decide), hfirst, hclassify⟩
  intro kind hkind name hname
  have htag : some (Json.string kind.tag) = some (.string "msg") := by
    rw [← Json.member_iff.mp hkind, Json.member_iff.mp (hgate "type" _ rfl)]
  cases kind with
  | message =>
    have hother : ∀ other ∈ NodeKind.message.fields, other ≠ "moss" ∧ other ≠ "dialogue" := by
      decide
    exact hagree name (hother name hname).1 (hother name hname).2
  | directive => simp [NodeKind.tag] at htag
  | dialogue => simp [NodeKind.tag] at htag

end Node

end DialogueTree
