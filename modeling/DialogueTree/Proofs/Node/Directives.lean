import DialogueTree.Document

/-!
# The directives of a node can be run

Running a directive fails only if it is blank, and a blank directive is never run. A node
is made out of an entry of a document only if each directive it holds begins with the
mark, and a line that begins with the mark has a first word. The two tokens that are
there at every message begin with it as well.

A visit can therefore only fail before its directive is run. In particular nothing can
fail any more once an input has been read.
-/

namespace DialogueTree

/-! ## Lines with a first word -/

namespace Text

/-- A character that is not blank belongs to a word. -/
theorem words_cons_ne_nil {c : Char} (h : isBlank c = false) (cs : List Char) :
    words (c :: cs) ≠ [] := by
  obtain ⟨piece, pieces, hsplit⟩ :=
    List.exists_cons_of_ne_nil (List.splitOnP_ne_nil isBlank cs)
  unfold words
  rw [List.splitOnP_cons_eq_if_modifyHead, if_neg (by simp [h]), hsplit]
  simp

end Text

/-- Parsing fails on blank lines only. -/
theorem Directive.exists_parse_eq_ok {line : String} (h : Text.words line.toList ≠ []) :
    ∃ d, parse line = .ok d := by
  unfold parse
  split
  · next hnil => exact absurd (List.map_eq_nil_iff.mp hnil) h
  · split
    · exact ⟨_, rfl⟩
    · split <;> exact ⟨_, rfl⟩
  · split <;> exact ⟨_, rfl⟩
  · exact ⟨_, rfl⟩

theorem words_ne_nil_of_isDirective {line : String} (h : isDirective line = true) :
    Text.words line.toList ≠ [] := by
  obtain ⟨rest, hrest⟩ := List.isPrefixOf_iff_prefix.mp h
  rw [← hrest]
  exact Text.words_cons_ne_nil (by decide) _

/-- **A line that begins with the mark can be run.** -/
theorem exists_parse_of_isDirective {line : String} (h : isDirective line = true) :
    ∃ d, Directive.parse line = .ok d :=
  Directive.exists_parse_eq_ok (words_ne_nil_of_isDirective h)

/-! ## What a node holds -/

/-- The directive that an entry is, if it is one. -/
def Entry.directive? : Entry → Option String
  | .text _ => none
  | .directive raw => some raw

/-- The directives that a node holds: its own, those among its entries, or those that its
options stand for. -/
def Node.directives : Node → List String
  | .directive raw => [raw]
  | .dialogue entries => entries.filterMap Entry.directive?
  | .message _ options => options.entries.map Prod.snd

/-- Both parts of something that succeeds succeed. -/
theorem exists_ok_of_bind {ε α β : Type} {x : Except ε α} {f : α → Except ε β} {b : β}
    (h : (x >>= f) = .ok b) : ∃ a, x = .ok a ∧ f a = .ok b := by
  cases x with
  | error e => cases h
  | ok a => exact ⟨a, rfl, h⟩

theorem Entry.isDirective_of_ofLine {line raw : String}
    (h : (Entry.ofLine line).directive? = some raw) : isDirective raw = true := by
  unfold Entry.ofLine at h
  split at h
  · next hmark =>
    cases h
    exact hmark
  · cases h

namespace Node

theorem isDirective_of_ofFields {fields : NodeFields} {kind : NodeKind} {node : Node}
    (h : ofFields fields kind = .ok node) :
    ∀ line ∈ node.directives, isDirective line = true := by
  intro line hline
  cases kind with
  | directive =>
    obtain ⟨raw, -, hchecked⟩ := exists_ok_of_bind h
    split at hchecked
    · next hmark =>
      cases hchecked
      rw [List.mem_singleton.mp hline]
      exact hmark
    · cases hchecked
  | dialogue =>
    obtain ⟨lines, -, hnode⟩ := exists_ok_of_bind h
    cases hnode
    obtain ⟨entry, hentry, hraw⟩ := List.mem_filterMap.mp hline
    obtain ⟨authored, -, rfl⟩ := List.mem_map.mp hentry
    exact Entry.isDirective_of_ofLine hraw
  | message =>
    obtain ⟨⟨prompt, options⟩, -, hchecked⟩ := exists_ok_of_bind h
    dsimp only at hchecked
    split at hchecked
    · next hgood =>
      cases hchecked
      obtain ⟨option, hoption, rfl⟩ := List.mem_map.mp hline
      have hmark := List.find?_eq_none.mp hgood option hoption
      simpa using hmark
    · cases hchecked

theorem exists_ofFields_of_classify {id : String} {raw : Json} {node : Node}
    (h : classify id raw = .ok node) : ∃ fields kind, ofFields fields kind = .ok node := by
  unfold classify at h
  cases hread : read raw with
  | error fault =>
    rw [hread] at h
    cases h
  | ok found =>
    rw [hread] at h
    cases h
    obtain ⟨⟨kind, fields⟩, -, hfields⟩ := exists_ok_of_bind hread
    exact ⟨fields, kind, hfields⟩

end Node

/-- **A node of a document holds only lines that begin with the mark.** -/
theorem Document.isDirective_of_node {doc : Document} {id : String} {node : Node}
    (h : doc.node id = .ok node) : ∀ line ∈ node.directives, isDirective line = true := by
  unfold Document.node at h
  split at h
  · obtain ⟨fields, kind, hfields⟩ := Node.exists_ofFields_of_classify h
    exact Node.isDirective_of_ofFields hfields
  · cases h

end DialogueTree
