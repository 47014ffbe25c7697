import DialogueTree.Proofs.Include.Settling
import DialogueTree.Proofs.Node.Grammar
import DialogueTree.Proofs.Walk.Failure

/-!
# Entries that are no objects

A node is authored as an object. But its fields may also be given by position, in an array behind
the tag, and then it does not matter whether anybody meant the array to be a node. A walk that
comes to such an array visits it. All other entries that are no objects are refused.

The list of includes can be such an array. It has a name like every entry of a document, and it is
still there when the document has been put together, so that a walk can be sent to it. It is a list
of strings, and two strings are enough for a node if the first one is a tag (`Node.OfStrings`).
In that case what names a file is run as a directive, or is shown as a prompt. The lists at the
`signpost` are of this kind.
-/

namespace DialogueTree

/-! ## Nodes by position -/

/-- An array that gives the fields of a node by position: the tag comes first, and then come
the fields of its kind, with nothing behind them. -/
inductive Json.Positional : Json → Prop where
  | directive {raw : String} : Marked raw → Positional (.array [.string "directive", .string raw])
  | dialogue (lines : List String) :
      Positional (.array [.string "dialogue", .array (lines.map .string)])
  | message (prompt : String) : Positional (.array [.string "msg", .string prompt])
  | messageWith (prompt : String) {offer : Json} {options : Table String} :
      offer.Offers options → Positional (.array [.string "msg", .string prompt, offer])

/-- The node that a list of strings gives by position. The lines of a dialogue and the options
of a message are no strings, so such a list is a directive, or a message without options. -/
inductive Node.OfStrings : List String → Node → Prop where
  | directive {raw : String} : Marked raw → OfStrings ["directive", raw] (.directive raw)
  | message (prompt : String) : OfStrings ["msg", prompt] (.message prompt .empty)

theorem Node.OfStrings.length_eq {entries : List String} {node : Node}
    (h : OfStrings entries node) : entries.length = 2 := by
  cases h <;> rfl

namespace Node

/-- **What is no object is a node only by position.** -/
theorem exists_authored_iff {raw : Json} (h : ∀ members, raw ≠ .object members) :
    (∃ node, Authored raw node) ↔ raw.Positional := by
  constructor
  · intro hnode
    obtain ⟨node, hauthored⟩ := hnode
    cases hauthored with
    | directive _ _ _ | dialogue _ _ _ | message _ _ _ | messageWith _ _ _ _ =>
      exact absurd rfl (h _)
    | directiveArray hmarked => exact .directive hmarked
    | dialogueArray _ => exact .dialogue _
    | messageArray prompt => exact .message prompt
    | messageArrayWith hoffers => exact .messageWith _ hoffers
  · intro hpositional
    cases hpositional with
    | directive hmarked => exact ⟨_, .directiveArray hmarked⟩
    | dialogue lines => exact ⟨_, .dialogueArray (forall₂_authored_iff.mpr rfl)⟩
    | message prompt => exact ⟨_, .messageArray prompt⟩
    | messageWith prompt hoffers => exact ⟨_, .messageArrayWith hoffers⟩

/-- **A list of strings is a node only if it has two of them**, of which the first is a tag. -/
theorem authored_strings_iff {entries : List String} {node : Node} :
    Authored (.array (entries.map .string)) node ↔ OfStrings entries node := by
  constructor
  · intro h
    generalize hraw : Json.array (entries.map .string) = raw at h
    cases h with
    | directive _ _ _ | dialogue _ _ _ | message _ _ _ | messageWith _ _ _ _ => cases hraw
    | @directiveArray line hmarked =>
      have hentries : entries = ["directive", line] := by
        simpa [List.map_eq_cons_iff] using hraw
      rw [hentries]
      exact .directive hmarked
    | messageArray prompt =>
      have hentries : entries = ["msg", prompt] := by simpa [List.map_eq_cons_iff] using hraw
      rw [hentries]
      exact .message prompt
    -- the lines and the options stand where there is only a string
    | dialogueArray _ => simp [List.map_eq_cons_iff] at hraw
    | messageArrayWith hoffers =>
      cases hoffers
      simp [List.map_eq_cons_iff] at hraw
  · intro h
    cases h with
    | directive hmarked => exact .directiveArray hmarked
    | message prompt => exact .messageArray prompt

end Node

/-- An entry of a document is looked up before it is read. -/
theorem Document.node_of_get? {doc : Document} {id : String} {raw : Json}
    (h : doc.get? id = some raw) : doc.node id = Node.classify id raw := by
  unfold Document.node
  rw [h]

namespace Walker

variable {σ : Type} [Channel σ] {w : Walker σ} {raw : Json}

/-! ## The node under the cursor -/

omit [Channel σ] in
/-- A walk visits the node that the entry under its cursor was authored as. -/
theorem next?_eq_some_iff_authored (hrunning : w.phase = .running)
    (hentry : w.document.get? w.cursor = some raw) (node : Node) :
    w.next? = some node ↔ Node.Authored raw node := by
  rw [next?_eq_some_iff, and_iff_right hrunning, Document.node_of_get? hentry]
  unfold Node.classify
  constructor
  · intro h
    cases hread : Node.read raw with
    | error fault =>
      rw [hread] at h
      cases h
    | ok found =>
      rw [hread] at h
      cases h
      exact Node.authored_of_read hread
  · intro h
    rw [Node.read_of_authored h]
    rfl

/-- A walk refuses the entry under its cursor: this step and every later one fails because the
entry is malformed, tells nothing, and leaves the walker as it is, its channel included. -/
def Refuses (w : Walker σ) : Prop :=
  ∃ fault, ∀ n, (w.after n).step = ⟨.error (.malformedNode w.cursor fault), w, []⟩

/-- **A walk refuses exactly the entries that are no nodes.** -/
theorem refuses_iff (hrunning : w.phase = .running)
    (hentry : w.document.get? w.cursor = some raw) :
    w.Refuses ↔ ∀ node, ¬ Node.Authored raw node := by
  constructor
  · intro h node hauthored
    obtain ⟨fault, hfails⟩ := h
    have hresult : w.step.result = .error (.malformedNode w.cursor fault) :=
      congrArg Step.result (hfails 0)
    have hnext := (next?_eq_some_iff_authored hrunning hentry node).mpr hauthored
    -- where there is a node a step can only fail for the output
    rcases (step_error_cases hresult).2 with ⟨herror, -⟩ | ⟨-, output, houtput, -, -⟩
    · rw [next?_eq_none herror] at hnext
      cases hnext
    · cases houtput
  · intro h
    cases hread : Node.read raw with
    | ok node => exact absurd (Node.authored_of_read hread) (h node)
    | error fault =>
      have hstep : w.step = ⟨.error (.malformedNode w.cursor fault), w, []⟩ := by
        rw [step_running hrunning, Document.node_of_get? hentry, Node.classify, hread]
        rfl
      have hstays : w.step.walker = w := by rw [hstep]
      refine ⟨fault, fun n => ?_⟩
      rw [after_of_step_eq hstays, hstep]

/-- **What is no object is walked only by position.** A walk that has come to an entry of another
shape refuses it, unless the entry is an array that gives a node by position.

So it is with the list of includes. If a document that has been put together still has one, it is
a list of strings. A walk can come to it as to any other entry, at its start or later. It then
visits the node that the list gives by position, and refuses the list if there is none. There is
one only if the list has two entries, the first of which is a tag. -/
theorem walked_only_by_position (w : Walker σ) (n : Nat) (hrunning : (w.after n).phase = .running) :
    (∀ raw, w.document.get? (w.after n).cursor = some raw → (∀ members, raw ≠ .object members) →
      ((w.after n).Refuses ↔ ¬ raw.Positional))
    ∧ ∀ (s : Shelf) (t : FileTree) (origin : Option String) (doc : Document) (list : Json),
      (s.resolve t origin doc).result = .ok w.document →
      w.document.get? Reserved.includes = some list → (w.after n).cursor = Reserved.includes →
      ∃ entries : List String, list = .array (entries.map .string)
        ∧ (∀ node, (w.after n).next? = some node ↔ Node.OfStrings entries node)
        ∧ ((w.after n).Refuses ↔ ∀ node, ¬ Node.OfStrings entries node) := by
  refine ⟨?_, ?_⟩
  · intro raw hentry hraw
    rw [← after_document w n] at hentry
    rw [refuses_iff hrunning hentry, ← Node.exists_authored_iff hraw, not_exists]
  · intro s t origin doc list hmerged hlist hcursor
    obtain ⟨entries, hlists⟩ := Shelf.exists_lists_of_resolveOn hmerged
    cases hlists with
    | nothing hnone => cases hlist.symm.trans hnone
    | items hstrings =>
      cases hlist.symm.trans hstrings
      have hentry : (w.after n).document.get? (w.after n).cursor
          = some (.array (entries.map .string)) := by
        rw [hcursor, after_document, hlist]
      refine ⟨entries, rfl, fun node => ?_, ?_⟩
      · rw [next?_eq_some_iff_authored hrunning hentry, Node.authored_strings_iff]
      · simp only [refuses_iff hrunning hentry, Node.authored_strings_iff]

/-- A hut with three empty files. The names of two of them are tags, and that of the third one
is a directive. -/
def hut : FileTree where
  items := ["directive", "msg", Reserved.quit].map fun name =>
    ([name ++ ".json"], .file (Text.encode (Json.object []).render))
  base := []
  distinct := by decide
  named := by decide

/-- A document that lists some entries, and sends every walk to its list. -/
def signpost (entries : List String) : Document := .ofList [
  (Reserved.includes, .array (entries.map .string)),
  (Reserved.start, .object [
    ("type", .string "directive"), ("directive", .string "::GOTO ::INCLUDE")])]

theorem includes_signpost (entries : List String) :
    (signpost entries).get? Reserved.includes = some (.array (entries.map .string)) := by
  have hne : Reserved.includes ≠ Reserved.start := by decide
  simp [signpost, Table.get?_ofList, Table.lookup_cons_eq, hne]

/-- The files of the hut add nothing to the signpost. -/
theorem resolve_signpost {entries : List String}
    (h : ∀ entry ∈ entries, entry ∈ ["directive", "msg", Reserved.quit]) :
    (Shelf.resolve {} hut none (signpost entries)).result = .ok (signpost entries) := by
  have hfile : ∀ name ∈ ["directive", "msg", Reserved.quit],
      Shelf.targets {} hut name = [.file ("./" ++ name ++ ".json")]
        ∧ hut.Leads ("./" ++ name ++ ".json") [name ++ ".json"]
        ∧ hut.Holds [name ++ ".json"] .empty := by
    simp only [List.forall_mem_cons]
    refine ⟨?_, ?_, ?_, List.forall_mem_nil _⟩
    all_goals exact ⟨rfl, ⟨rfl, rfl⟩, ⟨_, [], rfl, rfl, rfl⟩⟩
  let leaves : List Visit :=
    entries.map fun name => ⟨"./" ++ name ++ ".json", [name ++ ".json"], .empty⟩
  have hleaves : Shelf.Shallow {} hut [] (signpost entries) leaves := by
    refine ⟨⟨entries, .items (includes_signpost entries), Shelf.expands_iff.mpr ?_⟩, ?_, ?_, ?_, ?_⟩
    · rw [List.flatMap_congr fun name hname => (hfile name (h name hname)).1, List.map_map,
        List.map_eq_flatMap]
      rfl
    all_goals
      intro leaf hleaf
      obtain ⟨name, hname, rfl⟩ := List.mem_map.mp hleaf
    · exact (hfile name (h name hname)).2.1
    · exact List.not_mem_nil
    · exact (hfile name (h name hname)).2.2
    · rfl
  have hempty : (signpost entries).layer (Shelf.documents leaves) = signpost entries := by
    refine Table.layer_eq_self fun other hother k v hv => ?_
    obtain ⟨leaf, hleaf, rfl⟩ := List.mem_map.mp hother
    obtain ⟨name, -, rfl⟩ := List.mem_map.mp hleaf
    cases hv
  exact hleaves.resolveOn.trans (congrArg _ hempty)

/-- A walk over what has been put together from a list of the hut, which has come to that list. -/
def atList (entries : List String) : Walker Script :=
  (scripted (signpost entries) Reserved.start ["in"]).after 1

/-- **Lists that are walked.** If the names of two files are a directive, the walk that comes to
their list runs it. If they are a prompt, the walk shows it and reads what is answered. -/
theorem walked_atList :
    ((Shelf.resolve {} hut none (signpost ["directive", Reserved.quit])).result
          = .ok (signpost ["directive", Reserved.quit])
        ∧ (signpost ["directive", Reserved.quit]).get? Reserved.includes
          = some (.array [.string "directive", .string Reserved.quit])
        ∧ (atList ["directive", Reserved.quit]).phase = .running
        ∧ (atList ["directive", Reserved.quit]).cursor = Reserved.includes
        ∧ (atList ["directive", Reserved.quit]).step.result = .ok .terminated)
      ∧ (Shelf.resolve {} hut none (signpost ["msg", "directive"])).result
          = .ok (signpost ["msg", "directive"])
        ∧ (atList ["msg", "directive"]).phase = .running
        ∧ (atList ["msg", "directive"]).cursor = Reserved.includes
        ∧ (atList ["msg", "directive"]).step.result = .ok .running
        ∧ (atList ["msg", "directive"]).step.walker.channel.written = ["directive"]
        ∧ (atList ["msg", "directive"]).step.walker.channel.reads = 1 := by
  exact ⟨⟨resolve_signpost (by decide), includes_signpost _, by rfl, by rfl, by rfl⟩,
    resolve_signpost (by decide), by rfl, by rfl, by rfl, by rfl, by rfl⟩

/-- A list of three entries is refused although the first two are a prompt, since the third one is
no table of options. So is a text that stands in the place of a node, even one that is a
directive. -/
theorem walked_only_by_position_hut :
    (atList ["msg", "directive", Reserved.quit]).Refuses
      ∧ (scripted (.ofList [("door", .string Reserved.quit)]) "door" []).Refuses := by
  refine ⟨?_, ?_⟩
  · have hresolve : (Shelf.resolve {} hut none
        (signpost ["msg", "directive", Reserved.quit])).result
        = .ok (signpost ["msg", "directive", Reserved.quit]) := resolve_signpost (by decide)
    obtain ⟨-, hlists⟩ := walked_only_by_position
      (scripted (signpost ["msg", "directive", Reserved.quit]) Reserved.start ["in"]) 1 (by rfl)
    obtain ⟨entries, hentries, -, hrefuses⟩ :=
      hlists _ _ _ _ _ hresolve (includes_signpost _) (by rfl)
    have hsame : entries = ["msg", "directive", Reserved.quit] := by
      simpa [List.map_eq_cons_iff] using hentries.symm
    refine hrefuses.mpr fun node hnode => ?_
    have hlength := hnode.length_eq
    rw [hsame] at hlength
    cases hlength
  · obtain ⟨hevery, -⟩ :=
      walked_only_by_position (scripted (.ofList [("door", .string Reserved.quit)]) "door" []) 0 rfl
    refine (hevery (.string Reserved.quit) rfl (fun _ => nofun)).mpr fun hpositional => ?_
    cases hpositional

end Walker

end DialogueTree
