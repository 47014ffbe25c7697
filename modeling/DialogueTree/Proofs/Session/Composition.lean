import DialogueTree.Proofs.Channel.Input
import DialogueTree.Proofs.Include.Resolving
import DialogueTree.Proofs.Session.Arguments
import DialogueTree.Proofs.Walk.Bounded
import DialogueTree.Proofs.Walk.Reads
import DialogueTree.Session

/-!
# A session is what the library makes of it

Whoever plays a document at a terminal gets what the parts of the library come to when they are
put together by hand: look for the file, read its document with all that it includes, set a walker
on the start, and let it walk with nothing to stop it (`Session.Plays`). The session itself reads
arguments, and it walks with a bound. The first is settled where arguments are, the second by the
fact that the bound decides every walk at a console.

A terminal takes whatever is put out. So a step fails there only before it shows anything, and a
message at the end of the input ends the walk.
-/

namespace DialogueTree

/-! ## Terminals -/

/-- A terminal at which nothing has been printed yet, and at which bytes will be typed. -/
def Console.terminal (input : Bytes) : Console := { input, sink := {} }

theorem Console.writeAll_unbounded {c : Console} (hroom : c.sink.room = none)
    (hflushes : c.sink.flushes = none) (lines : List String) :
    (Channel.writeAll c lines).1 = .ok () ∧ (Channel.writeAll c lines).2.sink.room = none
      ∧ (Channel.writeAll c lines).2.sink.flushes = none
      ∧ (Channel.writeAll c lines).2.input = c.input := by
  induction lines generalizing c with
  | nil => exact ⟨rfl, hroom, hflushes, rfl⟩
  | cons line rest ih =>
    obtain ⟨hanswer, hroom', hflushes', hinput, -⟩ := write_unbounded hroom hflushes line
    obtain ⟨hanswers, hroom'', hflushes'', hinput'⟩ := ih hroom' hflushes'
    rw [Channel.writeAll_cons_of_ok (c := c) hanswer]
    exact ⟨hanswers, hroom'', hflushes'', hinput'.trans hinput⟩

theorem Console.read_at_end {c : Console} (hroom : c.sink.room = none)
    (hflushes : c.sink.flushes = none) (hinput : c.input = []) : c.read.1 = Reserved.quit := by
  obtain ⟨sink, hemit, -⟩ := Sink.takes.emit ⟨hroom, hflushes⟩ (Text.encode c.prompt)
  have hprompts : c.prompts = true := by
    unfold prompts
    rw [hemit]
    rfl
  rw [(read_of_prompts hprompts).1, hinput]
  rfl

namespace Walker

/-- The walker of a document, which is read with all that it includes, on the node to start on. -/
def ofSource {σ : Type} (settings : Settings) (t : FileTree) (source : Source) (channel : σ) :
    Except Error (Walker σ) :=
  (Document.load settings t source).result.map fun document =>
    { document, cursor := settings.start, channel }

theorem ofSource_eq_ok_iff {σ : Type} {settings : Settings} {t : FileTree} {source : Source}
    {channel : σ} {w : Walker σ} :
    ofSource settings t source channel = .ok w ↔
      ∃ document, (Document.load settings t source).result = .ok document
        ∧ w = { document, cursor := settings.start, channel } := by
  unfold ofSource
  cases (Document.load settings t source).result <;> simp [Except.map, eq_comm (a := w)]

/-- **A walk that ends well ends with the first step that quits.** -/
theorem walks_terminated_iff {σ : Type} [Channel σ] {w v : Walker σ}
    (hrunning : w.phase = .running) :
    w.Walks (.ok .terminated) v ↔
      ∃ n, (∀ k < n, w.GoesOn k) ∧ (w.after n).Quits ∧ w.after (n + 1) = v := by
  rw [walks_iff]
  constructor
  · intro h
    obtain ⟨n, hends, hresult, rfl⟩ := h
    -- the step is made by a walk that runs, because the one before went on
    have hphase : (w.after n).phase = .running := by
      cases n with
      | zero => exact hrunning
      | succ n => exact (hends.1 n (Nat.lt_succ_self n)).visits.2.1
    refine ⟨n, hends.1, quits_of_step hphase ?_, rfl⟩
    obtain ⟨node, d, -, -, hfollows⟩ := step_follows hphase hresult
    exact (Except.ok.inj (hresult.symm.trans hfollows.answers)).symm
  · intro h
    obtain ⟨n, hgoes, hquits, rfl⟩ := h
    refine ⟨n, ⟨hgoes, ?_⟩, hquits.2.1, rfl⟩
    intro hgoesOn
    have hresult := hquits.2.1
    rw [hgoesOn] at hresult
    cases hresult

section Terminal

variable {w : Walker Console}

theorem unbounded_after (hroom : w.channel.sink.room = none)
    (hflushes : w.channel.sink.flushes = none) (n : Nat) :
    (w.after n).channel.sink.room = none ∧ (w.after n).channel.sink.flushes = none := by
  have hemit : ∀ (bytes : Bytes) (s : Sink), s.room = none ∧ s.flushes = none →
      (Writer.emit s bytes).2.room = none ∧ (Writer.emit s bytes).2.flushes = none := by
    intro bytes s hs
    obtain ⟨s', hemit, hkept, -⟩ := Sink.takes.emit hs bytes
    rw [hemit]
    exact hkept
  exact sink_keeps (Q := fun s : Sink => s.room = none ∧ s.flushes = none)
    (hemit _) (fun line _ => hemit _) ⟨hroom, hflushes⟩ n

/-- **A step that fails at a terminal has shown nothing.** -/
theorem walker_of_error (hroom : w.channel.sink.room = none)
    (hflushes : w.channel.sink.flushes = none) {e : Error} (h : w.step.result = .error e) :
    w.step.walker = w := by
  obtain ⟨-, ⟨-, hstep⟩ | ⟨node, fault, -, hfault, -⟩⟩ := step_error_cases h
  · rw [hstep]
  · rw [(Console.writeAll_unbounded hroom hflushes _).1] at hfault
    cases hfault

/-- **A message at the end of the input ends the walk**, whatever its options. -/
theorem quits_of_input (hroom : w.channel.sink.room = none)
    (hflushes : w.channel.sink.flushes = none) {prompt : String} {options : Table String}
    (hnext : w.next? = some (.message prompt options)) (hinput : w.channel.input = []) :
    w.Quits := by
  obtain ⟨hshown, hroom', hflushes', hinput'⟩ :=
    Console.writeAll_unbounded hroom hflushes (Node.message prompt options).visibleLines
  have hread : w.inputsRead = [Reserved.quit] := by
    rw [inputsRead_of_shown hnext hshown]
    exact congrArg (fun input => [input])
      (Console.read_at_end hroom' hflushes' (hinput'.trans hinput))
  exact quits_of_step (next?_eq_some_iff.mp hnext).1 (terminated_of_quit hread)

/-- How a walk at a terminal comes to its end. -/
structure Concludes (w : Walker Console) : Prop where
  /-- It ends well with the first step that quits. -/
  quits : ∀ v, w.Walks (.ok .terminated) v ↔
    ∃ n, (∀ k < n, w.GoesOn k) ∧ (w.after n).Quits ∧ w.after (n + 1) = v
  /-- A message that is reached at the end of the input is such a step. -/
  input : ∀ n prompt options, (∀ k < n, w.GoesOn k) →
    (w.after n).next? = some (.message prompt options) → (w.after n).channel.input = [] →
    w.Walks (.ok .terminated) (w.after (n + 1))
  /-- If it fails, what was printed in the steps before the one that fails is all that is. -/
  fails : ∀ e v, w.Walks (.error e) v →
    ∃ n, (∀ k < n, w.GoesOn k) ∧ (w.after n).step.result = .error e ∧ v = w.after n

theorem concludes (hrunning : w.phase = .running) (hroom : w.channel.sink.room = none)
    (hflushes : w.channel.sink.flushes = none) : w.Concludes where
  quits _ := walks_terminated_iff hrunning
  input := by
    intro n prompt options hgoes hnext hinput
    obtain ⟨hroom', hflushes'⟩ := unbounded_after hroom hflushes n
    exact (walks_terminated_iff hrunning).mpr
      ⟨n, hgoes, quits_of_input hroom' hflushes' hnext hinput, rfl⟩
  fails := by
    intro e v h
    obtain ⟨n, hends, hresult, rfl⟩ := walks_iff.mp h
    obtain ⟨hroom', hflushes'⟩ := unbounded_after hroom hflushes n
    exact ⟨n, hends.1, hresult, walker_of_error hroom' hflushes' hresult⟩

end Terminal

end Walker

/-! ## Sessions -/

namespace Session

/-- What comes of a file that is played at a terminal: the exit code, and what is printed. -/
inductive Plays (t : FileTree) (file : String) (settings : Settings) (input : Bytes) :
    Nat → Bytes → Prop where
  | missing : t.isFile file = false → Plays t file settings input 1 []
  | unloadable {e : Error} : t.isFile file = true →
      Walker.ofSource settings t (.path file) (Console.terminal input) = .error e →
      Plays t file settings input 1 []
  | ends {w v : Walker Console} : t.isFile file = true →
      Walker.ofSource settings t (.path file) (Console.terminal input) = .ok w →
      w.Walks (.ok .terminated) v → Plays t file settings input 0 v.channel.sink.output
  | fails {w v : Walker Console} {e : Error} : t.isFile file = true →
      Walker.ofSource settings t (.path file) (Console.terminal input) = .ok w →
      w.Walks (.error e) v → Plays t file settings input 1 v.channel.sink.output

variable {t : FileTree} {file : String} {settings : Settings} {input output : Bytes} {code : Nat}

theorem prepare_of_missing (h : t.isFile file = false) :
    (prepare t file settings input).1 = .error (.noFile file) := by
  unfold prepare
  rw [if_neg (ne_true_of_eq_false h)]

/-- **A walker is set up from the source that the file is.** -/
theorem prepare_of_isFile (h : t.isFile file = true) :
    (prepare t file settings input).1
      = (Walker.ofSource settings t (.path file) (Console.terminal input)).mapError .failed := by
  unfold prepare Walker.ofSource
  rw [if_pos h]
  dsimp only
  cases (Document.load settings t (.path file)).result <;> rfl

theorem play_of_error {ending : Ending}
    (h : (prepare t file settings input).1 = .error ending) :
    (play t file settings input none).ending = ending
      ∧ (play t file settings input none).output = [] := by
  unfold play
  generalize prepare t file settings input = prepared at h ⊢
  obtain ⟨result, events⟩ := prepared
  cases h
  exact ⟨rfl, rfl⟩

theorem play_of_ok {w : Walker Console} (h : (prepare t file settings input).1 = .ok w) :
    (play t file settings input none).ending = (converse w none).ending
      ∧ (play t file settings input none).output = (converse w none).output := by
  unfold play
  generalize prepare t file settings input = prepared at h ⊢
  obtain ⟨result, events⟩ := prepared
  cases h
  exact ⟨rfl, rfl⟩

/-- How a session ends when the walk comes to such a result. -/
def endingOf : Except Error Phase → Ending
  | .ok _ => .finished
  | .error e => .failed e

/-- **The walk of a session is the walk of the library**, which has no bound. -/
theorem converse_of_walks {w v : Walker Console} {result : Except Error Phase}
    (h : w.Walks result v) :
    (converse w none).ending = endingOf result
      ∧ (converse w none).output = v.channel.sink.output := by
  obtain ⟨hresult, -, hwalker⟩ := (Walker.console_walk_decided w).mp h
  unfold converse
  dsimp only
  rw [hresult, hwalker]
  cases result <;> exact ⟨rfl, rfl⟩

theorem play_of_walks {w v : Walker Console} {result : Except Error Phase}
    (hfile : t.isFile file = true)
    (hsource : Walker.ofSource settings t (.path file) (Console.terminal input) = .ok w)
    (hwalks : w.Walks result v) :
    (play t file settings input none).ending = endingOf result
      ∧ (play t file settings input none).output = v.channel.sink.output := by
  obtain ⟨hending, houtput⟩ := play_of_ok ((prepare_of_isFile hfile).trans (congrArg _ hsource))
  obtain ⟨hwalked, hprinted⟩ := converse_of_walks hwalks
  exact ⟨hending.trans hwalked, houtput.trans hprinted⟩

/-- **A session plays the document as the library does.** -/
theorem play_of_plays (h : Plays t file settings input code output) :
    (play t file settings input none).ending.code = code
      ∧ (play t file settings input none).output = output := by
  cases h with
  | missing hmissing =>
    obtain ⟨hending, houtput⟩ := play_of_error (prepare_of_missing hmissing)
    exact ⟨congrArg Ending.code hending, houtput⟩
  | unloadable hfile hsource =>
    obtain ⟨hending, houtput⟩ :=
      play_of_error ((prepare_of_isFile hfile).trans (congrArg _ hsource))
    exact ⟨congrArg Ending.code hending, houtput⟩
  | ends hfile hsource hwalks =>
    obtain ⟨hending, houtput⟩ := play_of_walks hfile hsource hwalks
    exact ⟨congrArg Ending.code hending, houtput⟩
  | fails hfile hsource hwalks =>
    obtain ⟨hending, houtput⟩ := play_of_walks hfile hsource hwalks
    exact ⟨congrArg Ending.code hending, houtput⟩

/-- Unless the walk is endless, something comes of the file. -/
theorem exists_plays
    (hends : ∀ w, Walker.ofSource settings t (.path file) (Console.terminal input) = .ok w →
      ∃ result v, w.Walks result v) :
    ∃ code output, Plays t file settings input code output := by
  cases hfile : t.isFile file with
  | false => exact ⟨1, [], .missing hfile⟩
  | true =>
    cases hsource : Walker.ofSource settings t (.path file) (Console.terminal input) with
    | error e => exact ⟨1, [], .unloadable hfile hsource⟩
    | ok w =>
      obtain ⟨result, v, hwalks⟩ := hends w hsource
      cases result with
      | error e => exact ⟨1, _, .fails hfile hsource hwalks⟩
      | ok phase =>
        cases phase with
        | terminated => exact ⟨0, _, .ends hfile hsource hwalks⟩
        | running => exact absurd rfl ((Walker.console_walk_decided w).mp hwalks).2.1

/-- What is played is what the arguments ask for. -/
theorem run_of_play {arguments : List String} {verbose : Bool}
    (h : Request.ofArguments arguments = .ok (.play file settings verbose)) (t : FileTree)
    (input : Bytes) :
    (run t arguments input none).ending = (play t file settings input none).ending
      ∧ (run t arguments input none).output = (play t file settings input none).output := by
  unfold run
  rw [h]
  exact ⟨rfl, rfl⟩

/-- **A session is the composition of the library.** Arguments that are taken to ask for a walk
do ask for it. What then comes of the session is what comes of the file when the parts of the
library are put together, unless the walk is endless: nothing is printed if there is no such file
or its document cannot be read, and otherwise what the walk prints. The exit code tells a walk
that ends well from all else. Neither depends on how the same is asked for, and whether with a log
or without. -/
theorem run_composes (t : FileTree) (input : Bytes) {arguments : List String} {file : String}
    {settings : Settings} {verbose : Bool}
    (h : Request.ofArguments arguments = .ok (.play file settings verbose))
    (hends : ∀ w, Walker.ofSource settings t (.path file) (Console.terminal input) = .ok w →
      ∃ result v, w.Walks result v) :
    Asks arguments file settings verbose
      ∧ (∀ code output, (run t arguments input none).ending.code = code
        ∧ (run t arguments input none).output = output ↔ Plays t file settings input code output)
      ∧ (∀ w, Walker.ofSource settings t (.path file) (Console.terminal input) = .ok w →
        w.Concludes)
      ∧ ∀ arguments' verbose', Asks arguments' file settings verbose' →
        (run t arguments' input none).ending.code = (run t arguments input none).ending.code
          ∧ (run t arguments' input none).output = (run t arguments input none).output := by
  obtain ⟨hending, houtput⟩ := run_of_play h t input
  refine ⟨ofArguments_eq_play_iff.mp h, ?_, ?_, ?_⟩
  · intro code output
    rw [hending, houtput]
    constructor
    · rintro ⟨rfl, rfl⟩
      obtain ⟨code, output, hplays⟩ := exists_plays hends
      obtain ⟨rfl, rfl⟩ := play_of_plays hplays
      exact hplays
    · exact play_of_plays
  · intro w hw
    obtain ⟨document, -, rfl⟩ := Walker.ofSource_eq_ok_iff.mp hw
    exact Walker.concludes rfl rfl rfl
  · intro arguments' verbose' h'
    obtain ⟨hending', houtput'⟩ := run_of_play (ofArguments_eq_play_iff.mpr h') t input
    rw [hending, houtput, hending', houtput']
    exact ⟨rfl, rfl⟩

/-- A story that includes a cellar from a library. The red door of the cellar leads to an attic
that is nowhere. -/
def house : FileTree :=
  let story := Json.object [
    (Reserved.includes, .array [.string "cellar"]),
    (Reserved.start, .array [.string "dialogue",
      .array [.string "Down.", .string "::GOTO cellar"]])]
  let cellar := Json.object [
    ("cellar", .array [.string "msg", .string "Which door?", .object [
      ("red", .string "::GOTO attic")]])]
  ((FileTree.empty.write ["story.json"] (Text.encode story.render)).put ["lib"] .directory).write
    ["lib", "cellar.json"] (Text.encode cellar.render)

/-- The settings with which the story is played. -/
def housed : Settings := { shelf := { root := "lib" } }

/-- The node that a walk does not find in the end, if that is how it fails, and what it prints. -/
def strayed? : Except Error (Walker Console) → Option (String × Bytes)
  | .ok w =>
    match w.walk.result with
    | some (.error (.unknownNode id)) => some (id, w.walk.walker.channel.sink.output)
    | _ => none
  | .error _ => none

theorem exists_walks_of_strayed {source : Except Error (Walker Console)} {id : String}
    {output : Bytes} (h : strayed? source = some (id, output)) :
    ∃ w v, source = .ok w ∧ w.Walks (.error (.unknownNode id)) v
      ∧ v.channel.sink.output = output := by
  unfold strayed? at h
  split at h
  · next w =>
    split at h
    · next id' hresult =>
      obtain ⟨rfl, rfl⟩ := Prod.mk.inj (Option.some.inj h)
      exact ⟨w, w.walk.walker, rfl,
        (Walker.console_walk_decided w).mpr ⟨hresult, nofun, rfl⟩, rfl⟩
    · cases h
  · cases h

/-- Who takes the red door is told that there is no attic, and has seen all that came before,
whether or not a log was wished for. -/
theorem run_composes_house :
    (Request.ofArguments ["-vs::START", "--include-root=lib", "--", "story.json"]
        = .ok (.play "story.json" housed true)
      ∧ ∀ w, Walker.ofSource housed house (.path "story.json")
          (Console.terminal (Text.encode "red\n")) = .ok w → ∃ result v, w.Walks result v)
    ∧ ((run house ["-vs::START", "--include-root=lib", "--", "story.json"]
          (Text.encode "red\n") none).ending.code = 1
      ∧ (run house ["-vs::START", "--include-root=lib", "--", "story.json"]
          (Text.encode "red\n") none).output = Text.encode "Down.\nWhich door?\n>> ")
    ∧ (run house ["story.json", "--include-root", "lib"] (Text.encode "red\n") none).output
      = Text.encode "Down.\nWhich door?\n>> " := by
  have hverbose : Request.ofArguments ["-vs::START", "--include-root=lib", "--", "story.json"]
      = .ok (.play "story.json" housed true) := by rfl
  have hquiet : Asks ["story.json", "--include-root", "lib"] "story.json" housed false :=
    ofArguments_eq_play_iff.mp rfl
  have hfile : house.isFile "story.json" = true := by rfl
  have hstrayed : strayed? (Walker.ofSource housed house (.path "story.json")
      (Console.terminal (Text.encode "red\n")))
        = some ("attic", Text.encode "Down.\nWhich door?\n>> ") := by
    decide +kernel
  obtain ⟨w, v, hsource, hwalks, houtput⟩ := exists_walks_of_strayed hstrayed
  have hends : ∀ w, Walker.ofSource housed house (.path "story.json")
      (Console.terminal (Text.encode "red\n")) = .ok w → ∃ result v, w.Walks result v := by
    intro w' hw'
    obtain rfl : w = w' := Except.ok.inj (hsource.symm.trans hw')
    exact ⟨_, v, hwalks⟩
  obtain ⟨-, hplays, -, hsame⟩ := run_composes house (Text.encode "red\n") hverbose hends
  have hfails := (hplays 1 _).mpr (.fails hfile hsource hwalks)
  rw [houtput] at hfails
  exact ⟨⟨hverbose, hends⟩, hfails, (hsame _ _ hquiet).2.trans hfails.2⟩

end Session

end DialogueTree
