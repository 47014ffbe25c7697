import DialogueTree.Directive
import DialogueTree.Proofs.Text.Words

/-!
# The grammar of directives

Three forms of lines are known: the token that ends the walk, the token that does nothing, and
the token that moves the cursor with a target behind it. Blanks may stand around and between
the tokens. Which lines have a form is said here character by character, without the words into
which a line is split.

Every other line that is not blank is kept as it is. So a lookalike of a blank, which is part of
the word that it stands in, makes a token unknown; and so does anything behind a complete form.
-/

namespace DialogueTree

open Text (Blank IsWord Respaced tokens)

namespace Directive

/-- The lines that are a directive of a known form. -/
inductive Written : Directive → String → Prop where
  | quit {before after : String} :
      Blank before → Blank after → Written .quit (before ++ Reserved.quit ++ after)
  | stay {before after : String} :
      Blank before → Blank after → Written .stay (before ++ Reserved.stay ++ after)
  | goto {before between target after : String} :
      Blank before → Blank between → between ≠ "" → IsWord target → Blank after →
      Written (.goto target) (before ++ Reserved.goto ++ between ++ target ++ after)

/-- A directive of a known form as one writes it, with no blanks but the one that it needs. -/
inductive Canonical : Directive → String → Prop where
  | quit : Canonical .quit Reserved.quit
  | stay : Canonical .stay Reserved.stay
  | goto {target : String} : IsWord target →
      Canonical (.goto target) (Reserved.goto ++ " " ++ target)

/-- What two lines are parsed to has the same form, and the same target if it has one. A line of
no known form is kept, so there the two may differ. -/
inductive Alike (line other : String) :
    Except Error Directive → Except Error Directive → Prop where
  | quit : Alike line other (.ok .quit) (.ok .quit)
  | stay : Alike line other (.ok .stay) (.ok .stay)
  | goto (target : String) : Alike line other (.ok (.goto target)) (.ok (.goto target))
  | ignored : Alike line other (.ok (.ignored line)) (.ok (.ignored other))
  | blank : Alike line other (.error (.emptyDirective line)) (.error (.emptyDirective other))

/-! ## By the words of a line -/

/-- What the words of a line are parsed to. -/
inductive Parses (line : String) : List String → Except Error Directive → Prop where
  | blank : Parses line [] (.error (.emptyDirective line))
  | quit : Parses line [Reserved.quit] (.ok .quit)
  | stay : Parses line [Reserved.stay] (.ok .stay)
  | goto (target : String) : Parses line [Reserved.goto, target] (.ok (.goto target))
  | ignored {words : List String} :
      words ≠ [] → words ≠ [Reserved.quit] → words ≠ [Reserved.stay] →
      (∀ target, words ≠ [Reserved.goto, target]) → Parses line words (.ok (.ignored line))

/-- **All that parsing can do.** -/
theorem parse_eq_iff {line : String} {x : Except Error Directive} :
    parse line = x ↔ Parses line (tokens line) x := by
  unfold parse tokens
  generalize (Text.words line.toList).map String.ofList = words
  refine ⟨fun h => ?_, fun h => ?_⟩
  · subst h
    rcases words with _ | ⟨v, _ | ⟨w, _ | ⟨_, _⟩⟩⟩
    · exact .blank
    · by_cases hquit : v = Reserved.quit
      · rw [hquit]
        exact .quit
      · by_cases hstay : v = Reserved.stay
        · rw [hstay]
          exact .stay
        · simp only [if_neg hquit, if_neg hstay]
          exact .ignored nofun (by simpa) (by simpa) nofun
    · by_cases hgoto : v = Reserved.goto
      · simp only [hgoto]
        exact .goto w
      · simp only [if_neg hgoto]
        exact .ignored nofun nofun nofun (by simp [hgoto])
    · exact .ignored nofun nofun nofun nofun
  · cases h with
    | blank => rfl
    | quit => rfl
    | stay => rfl
    | goto _ => rfl
    | ignored hblank hquit hstay hgoto =>
      rcases words with _ | ⟨v, _ | ⟨w, _ | ⟨_, _⟩⟩⟩
      · exact absurd rfl hblank
      · have hv : v ≠ Reserved.quit ∧ v ≠ Reserved.stay :=
          ⟨fun heq => hquit (by rw [heq]), fun heq => hstay (by rw [heq])⟩
        simp only [if_neg hv.1, if_neg hv.2]
      · have hv : v ≠ Reserved.goto := fun heq => hgoto w (by rw [heq])
        simp only [if_neg hv]
      · rfl

theorem parse_quit : parse Reserved.quit = .ok .quit := rfl

theorem parse_stay : parse Reserved.stay = .ok .stay := rfl

/-- **The target of a directive is a word.** -/
theorem isWord_of_parse {line target : String} (h : parse line = .ok (.goto target)) :
    IsWord target := by
  have hparses := parse_eq_iff.mp h
  generalize hwords : tokens line = words at hparses
  cases hparses with
  | goto _ => exact Text.isWord_of_mem_tokens (by rw [hwords]; simp)

/-- A line that is kept is kept as it is. -/
theorem eq_of_parse_ignored {raw line : String} (h : parse raw = .ok (.ignored line)) :
    line = raw := by
  have hparses := parse_eq_iff.mp h
  generalize tokens raw = words at hparses
  cases hparses
  rfl

/-! ## Character by character -/

theorem isWord_quit : IsWord Reserved.quit := by decide +kernel

theorem isWord_stay : IsWord Reserved.stay := by decide +kernel

theorem isWord_goto : IsWord Reserved.goto := by decide +kernel

theorem Written.parses {d : Directive} {line : String} (h : d.Written line) :
    Parses line (tokens line) (.ok d) := by
  cases h with
  | quit hbefore hafter =>
    rw [(Text.tokens_eq_singleton_iff isWord_quit).mpr ⟨_, _, hbefore, hafter, rfl⟩]
    exact .quit
  | stay hbefore hafter =>
    rw [(Text.tokens_eq_singleton_iff isWord_stay).mpr ⟨_, _, hbefore, hafter, rfl⟩]
    exact .stay
  | goto hbefore hbetween hne hword hafter =>
    rw [(Text.tokens_eq_pair_iff isWord_goto hword).mpr
      ⟨_, _, _, hbefore, hbetween, hne, hafter, rfl⟩]
    exact .goto _

/-- A line with a directive has one of the three forms, or it is kept. -/
theorem written_of_parses {d : Directive} {line : String}
    (h : Parses line (tokens line) (.ok d)) : d.Written line ∨ d = .ignored line := by
  generalize hwords : tokens line = words at h
  cases h with
  | quit =>
    obtain ⟨before, after, hbefore, hafter, rfl⟩ :=
      (Text.tokens_eq_singleton_iff isWord_quit).mp hwords
    exact .inl (.quit hbefore hafter)
  | stay =>
    obtain ⟨before, after, hbefore, hafter, rfl⟩ :=
      (Text.tokens_eq_singleton_iff isWord_stay).mp hwords
    exact .inl (.stay hbefore hafter)
  | goto target =>
    have hword : IsWord target := Text.isWord_of_mem_tokens (by rw [hwords]; simp)
    obtain ⟨before, between, after, hbefore, hbetween, hne, hafter, rfl⟩ :=
      (Text.tokens_eq_pair_iff isWord_goto hword).mp hwords
    exact .inl (.goto hbefore hbetween hne hword hafter)
  | ignored _ _ _ _ => exact .inr rfl

theorem Canonical.written {d : Directive} {line : String} (h : d.Canonical line) :
    d.Written line := by
  have hnone : Blank "" := nofun
  have hspace : Blank " " := by simp [Text.Blank, Text.isBlank]
  cases h with
  | quit => simpa using Written.quit hnone hnone
  | stay => simpa using Written.stay hnone hnone
  | goto hword => simpa using Written.goto hnone hspace (by decide) hword hnone

theorem parse_eq_error_iff {line : String} {e : Error} :
    parse line = .error e ↔ Blank line ∧ e = .emptyDirective line := by
  rw [parse_eq_iff, ← Text.tokens_eq_nil_iff]
  refine ⟨fun h => ?_, fun h => ?_⟩
  · generalize tokens line = words at h
    cases h
    exact ⟨rfl, rfl⟩
  · rw [h.1, h.2]
    exact .blank

theorem parse_eq_ok_iff {line : String} {d : Directive} :
    parse line = .ok d ↔
      d.Written line ∨ d = .ignored line ∧ ¬ Blank line ∧ ∀ other : Directive, ¬ other.Written line := by
  refine ⟨fun h => ?_, fun h => ?_⟩
  · rcases written_of_parses (parse_eq_iff.mp h) with hwritten | rfl
    · exact .inl hwritten
    · refine .inr ⟨rfl, fun hblank => ?_, fun other hother => ?_⟩
      · rw [parse_eq_error_iff.mpr ⟨hblank, rfl⟩] at h
        cases h
      · rw [parse_eq_iff.mpr hother.parses] at h
        cases h
        cases hother
  · rcases h with hwritten | ⟨rfl, hblank, hno⟩
    · exact parse_eq_iff.mpr hwritten.parses
    · cases hparse : parse line with
      | error e => exact absurd (parse_eq_error_iff.mp hparse).1 hblank
      | ok d =>
        rcases written_of_parses (parse_eq_iff.mp hparse) with hwritten | rfl
        · exact absurd hwritten (hno d)
        · rfl

/-- Parsing does not look at blanks, but a line that is kept is kept with them. -/
theorem alike_of_respaced {line other : String} (h : Respaced line other) :
    Alike line other (parse line) (parse other) := by
  have hline := parse_eq_iff.mp (rfl : parse line = _)
  have hother : ∀ {x}, Parses other (tokens line) x → parse other = x := by
    intro x hx
    rw [h.tokens_eq] at hx
    exact parse_eq_iff.mpr hx
  generalize tokens line = words at hline hother
  generalize parse line = x at hline
  cases hline with
  | blank =>
    rw [hother .blank]
    exact .blank
  | quit =>
    rw [hother .quit]
    exact .quit
  | stay =>
    rw [hother .stay]
    exact .stay
  | goto target =>
    rw [hother (.goto target)]
    exact .goto target
  | ignored hblank hquit hstay hgoto =>
    rw [hother (.ignored hblank hquit hstay hgoto)]
    exact .ignored

/-- **Parsing accepts exactly the grammar.** A line is blank if it has nothing but characters
with the property White_Space, and is no directive then. It is a directive of a known form if it
is written as one. All other lines are kept as they are. So parsing undoes writing; a target is
always a word; and more or other blanks where there are some, or around the line, change neither
the form nor the target. -/
theorem parse_grammar (line : String) :
    (∀ c, Text.isBlank c = true ↔ c.toNat ∈ Text.whiteSpace)
      ∧ (∀ e, parse line = .error e ↔ Blank line ∧ e = .emptyDirective line)
      ∧ (∀ d : Directive, parse line = .ok d ↔ d.Written line
          ∨ d = .ignored line ∧ ¬ Blank line ∧ ∀ other : Directive, ¬ other.Written line)
      ∧ (∀ d : Directive, d.Canonical line → parse line = .ok d)
      ∧ (∀ target, parse line = .ok (.goto target) → IsWord target)
      ∧ ∀ other, Respaced line other → Alike line other (parse line) (parse other) := by
  refine ⟨fun c => Text.isBlank_iff, fun e => parse_eq_error_iff, fun d => parse_eq_ok_iff,
    fun d hcanonical => ?_, fun target => isWord_of_parse, fun other => alike_of_respaced⟩
  exact parse_eq_ok_iff.mpr (.inl hcanonical.written)

/-- An ideographic space before the line, an em space and a tab in it and a line feed at its end
are blanks like any others. -/
theorem parse_grammar_wideSpaces :
    Canonical (.goto "hall") "::GOTO hall"
      ∧ Respaced "::GOTO hall" "\u3000::GOTO\u2003\thall\n"
      ∧ parse "::GOTO hall" = .ok (.goto "hall")
      ∧ Alike "::GOTO hall" "\u3000::GOTO\u2003\thall\n" (parse "::GOTO hall")
        (parse "\u3000::GOTO\u2003\thall\n")
      ∧ parse "\u3000::GOTO\u2003\thall\n" = .ok (.goto "hall")
      ∧ IsWord "hall" := by
  have hword : IsWord "hall" := by decide +kernel
  have hcanonical : Canonical (.goto "hall") "::GOTO hall" := .goto hword
  have hrespaced : Respaced "::GOTO hall" "\u3000::GOTO\u2003\thall\n" :=
    ⟨_, Text.spaced_iff.mpr rfl, Text.spaced_iff.mpr (by decide +kernel)⟩
  obtain ⟨-, -, -, hparse, htarget, halike⟩ := parse_grammar "::GOTO hall"
  have hline := hparse _ hcanonical
  have hboth := halike _ hrespaced
  refine ⟨hcanonical, hrespaced, hline, hboth, ?_, htarget _ hline⟩
  rw [hline] at hboth
  generalize parse "\u3000::GOTO\u2003\thall\n" = x at hboth
  cases hboth
  rfl

/-- The zero-width space is no blank, so this is one word. -/
example : parse "::GOTO\u200bhall" = .ok (.ignored "::GOTO\u200bhall") := by rfl

end Directive

end DialogueTree
