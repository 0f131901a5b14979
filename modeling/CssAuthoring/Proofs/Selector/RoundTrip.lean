import CssAuthoring.Proofs.Selector.InPlace
import CssAuthoring.Proofs.Selector.Spelling
import CssAuthoring.Selector.Render

/-!
# Scanning what was written

Writing tokens changes the white space around separators and nothing else.  Spellings leave that
white space free, so the written form of a spelled list spells it again; the ends of the written
form, which reading trims, only hold the white space of an outermost combinator or comma.
-/

namespace CssAuthoring.Selector

/-! ## Tokens as they are written -/

theorem render_cons (token : SelectorToken) (tokens : List SelectorToken) :
    render (token :: tokens) = spaced token ++ render tokens := by
  simp [render]

theorem spaced_simple {part : Part} {source : Text} (simple : Simple part source) :
    spaced ⟨part, source⟩ = source := by
  cases simple <;> rfl

/-- A separator with a sign is written with a space behind it, and perhaps one before it. -/
theorem exists_spaced_mark {sign : Char} {token : SelectorToken} (isMark : IsMark sign token) :
    ∃ before, White before ∧ spaced token = before ++ [sign, ' '] := by
  cases isMark with
  | comma => exact ⟨[], white_nil, rfl⟩
  | combinator isSymbol =>
      refine ⟨[' '], white_space, ?_⟩
      simp only [isCombinatorSymbol, Bool.or_eq_true, decide_eq_true_eq] at isSymbol
      rcases isSymbol with (rfl | rfl) | rfl <;> rfl

theorem spaced_descendant : spaced (.combinator ' ') = [' '] := rfl

/-- No simple selector goes on with a character that starts a separator. -/
theorem extendsPart_of_startsSeparator {character : Char}
    (separates : startsSeparator character = true) (part : Part) :
    extendsPart part character = false := by
  rw [Bool.eq_false_iff]
  intro goesOn
  rcases of_extendsPart goesOn with isName | rfl | rfl
  · rw [not_startsSeparator_of_extendsName isName] at separates
    contradiction
  · exact absurd separates (by decide)
  · exact absurd separates (by decide)

/-! ## Spelling the written form -/

/-- Where a text begins with no combinator of white space, nor do its tokens. -/
theorem Spells.notDescendant {tokens : List SelectorToken} {text : Text}
    (spells : Spells tokens text) (stops : Text.Stops isSpace text) :
    tokens.head? ≠ some (.combinator ' ') := by
  cases spells with
  | nil => simp
  | simple simple => cases simple <;> simp [SelectorToken.combinator]
  | mark isMark =>
      cases isMark with
      | comma => simp [SelectorToken.combinator, SelectorToken.comma, SelectorToken.canonical]
      | combinator isSymbol =>
          intro same
          cases same
          exact absurd isSymbol (by decide)
  | @descendant space text tokens nonempty white =>
      rcases List.exists_cons_of_ne_nil nonempty with ⟨first, more, rfl⟩
      rw [List.cons_append, Text.stops_cons, white first List.mem_cons_self] at stops
      contradiction

/-- What a simple selector does not go on with, it does not go on with in the written form. -/
theorem Spells.stops_render {part : Part} {tokens : List SelectorToken} {text : Text}
    (spells : Spells tokens text) (stops : Text.Stops (extendsPart part) text) :
    Text.Stops (extendsPart part) (render tokens) := by
  have outside (character : Char) (separates : startsSeparator character = true) :=
    extendsPart_of_startsSeparator separates part
  cases spells with
  | nil => exact Text.stops_nil _
  | simple simple settled =>
      rw [render_cons, spaced_simple simple, Text.stops_append (simple.ne_nil settled)]
      exact (Text.stops_append (simple.ne_nil settled) _).1 stops
  | mark isMark =>
      rcases exists_spaced_mark isMark with ⟨before, white, shape⟩
      rcases isMark.head white (' ' :: Selector.render _) with ⟨character, rest, written, separates⟩
      rw [render_cons, shape, List.append_assoc, List.cons_append, List.singleton_append, written,
        Text.stops_cons]
      exact outside character separates
  | descendant => exact (Text.stops_cons _ _ _).2 (outside ' ' (by decide))

/-- Where no separator begins a text, none begins the written form of its tokens. -/
theorem Spells.noSeparator_render {tokens : List SelectorToken} {text : Text}
    (spells : Spells tokens text) (stops : Text.Stops startsSeparator text) :
    Text.Stops startsSeparator (render tokens) := by
  by_cases empty : text = []
  · subst empty
    cases tokens with
    | nil => exact Text.stops_nil _
    | cons token tokens => exact absurd rfl spells.ne_nil
  · rcases spells.exists_simple stops empty with
      ⟨part, source, rest, behind, simple, settled, _, _, rfl, rfl⟩
    rw [render_cons, spaced_simple simple, Text.stops_append (simple.ne_nil settled)]
    exact simple.stops settled

/-- A separator with a sign can be written in front of what spells its tokens as it is written. -/
theorem Spells.mark_render {sign : Char} {token : SelectorToken} {tokens : List SelectorToken}
    (isMark : IsMark sign token) (spells : Spells tokens (render tokens))
    (notDescendant : tokens.head? ≠ some (.combinator ' ')) :
    Spells (token :: tokens) (render (token :: tokens)) := by
  -- The space behind the sign and one in front of a combinator there both go to the sign.
  rcases exists_spaced_mark isMark with ⟨space, whiteSpace, shape⟩
  rcases exists_white_append (render tokens) with ⟨gap, whiteGap, split⟩
  have whole : render (token :: tokens) =
      space ++ sign :: ((' ' :: gap) ++ skipSpace (render tokens)) := by
    calc render (token :: tokens) = space ++ [sign, ' '] ++ render tokens := by
          rw [render_cons, shape]
      _ = space ++ sign :: ((' ' :: gap) ++ skipSpace (render tokens)) := by
          conv => lhs; rw [split]
          simp
  have whiteAll : White (' ' :: gap) := white_space.append whiteGap
  rw [whole]
  rcases spells.behind_space with skipped | ⟨behind, rfl, _⟩
  · exact .mark isMark whiteSpace whiteAll (stops_skipSpace _) skipped
  · exact absurd rfl notDescendant

/-- The written form of tokens that can be spelled spells them. -/
theorem Spells.render {tokens : List SelectorToken} {text : Text} (spells : Spells tokens text) :
    Spells tokens (render tokens) := by
  induction spells with
  | nil => exact .nil
  | simple simple settled stops spells hypothesis =>
      rw [render_cons, spaced_simple simple]
      exact .simple simple settled (spells.stops_render stops) hypothesis
  | mark isMark _ _ stops spells hypothesis =>
      exact hypothesis.mark_render isMark (spells.notDescendant stops)
  | descendant nonempty white stops spells hypothesis =>
      rw [render_cons, spaced_descendant]
      exact .descendant (by simp) white_space (spells.noSeparator_render stops)
        hypothesis

/-! ## The ends of the written form -/

/-- Neither the first nor the last token has blank space at its outer side. -/
structure Trimmed (tokens : List SelectorToken) : Prop where
  first : ∀ token ∈ tokens.head?, Text.Stops Text.isBlank token.content
  last : ∀ token ∈ tokens.getLast?, Text.EndsSolid token.content

theorem IsMark.content_eq {sign : Char} {token : SelectorToken} (isMark : IsMark sign token) :
    token.content = [sign] := by
  cases isMark <;> rfl

theorem IsMark.not_isBlank {sign : Char} {token : SelectorToken} (isMark : IsMark sign token) :
    Text.isBlank sign = false := by
  cases isMark with
  | comma => decide
  | combinator isSymbol =>
      simp only [isCombinatorSymbol, Bool.or_eq_true, decide_eq_true_eq] at isSymbol
      rcases isSymbol with (rfl | rfl) | rfl <;> decide

/-- Where a text begins without blank space, so does its first token. -/
theorem Spells.trimmed_first {tokens : List SelectorToken} {text : Text}
    (spells : Spells tokens text) (stops : Text.Stops Text.isBlank text) :
    ∀ token ∈ tokens.head?, Text.Stops Text.isBlank token.content := by
  intro token member
  cases spells with
  | nil => cases member
  | simple simple settled =>
      cases member
      exact (Text.stops_append (simple.ne_nil settled) _).1 stops
  | mark isMark =>
      cases member
      rw [isMark.content_eq, Text.stops_cons]
      exact isMark.not_isBlank
  | descendant nonempty white =>
      rcases List.exists_cons_of_ne_nil nonempty with ⟨first, more, rfl⟩
      rw [List.cons_append, Text.stops_cons,
        isBlank_of_isSpace (white first List.mem_cons_self)] at stops
      contradiction

/-- The last token behind another one, or that one if there is none behind it. -/
theorem Spells.last_cons {front text : Text} {token : SelectorToken} {tokens : List SelectorToken}
    (spells : Spells tokens text) (solid : Text.EndsSolid (front ++ text))
    (alone : Text.EndsSolid front → Text.EndsSolid token.content)
    (behind : Text.EndsSolid text → ∀ last ∈ tokens.getLast?, Text.EndsSolid last.content) :
    ∀ last ∈ (token :: tokens).getLast?, Text.EndsSolid last.content := by
  intro last member
  cases tokens with
  | nil =>
      cases spells
      cases member
      exact alone (by simpa using solid)
  | cons next more =>
      rw [List.getLast?_cons_cons] at member
      exact behind (solid.of_append spells.ne_nil) last member

/-- Where a text ends without blank space, so does its last token. -/
theorem Spells.trimmed_last {tokens : List SelectorToken} {text : Text}
    (spells : Spells tokens text) (solid : Text.EndsSolid text) :
    ∀ token ∈ tokens.getLast?, Text.EndsSolid token.content := by
  induction spells with
  | nil => simp
  | simple simple settled stops spells hypothesis => exact spells.last_cons solid id hypothesis
  | @mark sign token before after text tokens isMark _ _ _ spells hypothesis =>
      have shape : before ++ sign :: (after ++ text) = (before ++ sign :: after) ++ text := by simp
      rw [shape] at solid
      apply spells.last_cons solid _ hypothesis
      intro _
      exact ⟨[], sign, isMark.content_eq, isMark.not_isBlank⟩
  | descendant nonempty white _ spells hypothesis =>
      apply spells.last_cons solid _ hypothesis
      intro solidSpace
      exact absurd (fun character member => isBlank_of_isSpace (white character member))
        solidSpace.not_blank

/-- A spelling can be trimmed at its start if its first token allows it. -/
theorem Spells.trimStart {tokens : List SelectorToken} {text : Text} (spells : Spells tokens text)
    (first : ∀ token ∈ tokens.head?, Text.Stops Text.isBlank token.content) :
    Spells tokens (Text.trimStart text) := by
  cases spells with
  | nil => exact .nil
  | simple simple settled stops spells =>
      have stopsBlank := first _ rfl
      rw [Text.trimStart_of_stops ((Text.stops_append (simple.ne_nil settled) _).2 stopsBlank)]
      exact .simple simple settled stops spells
  | mark isMark whiteBefore whiteAfter stops spells =>
      have blank : Text.Blank _ := fun character member =>
        isBlank_of_isSpace (whiteBefore character member)
      rw [Text.trimStart, Text.dropWhile_run blank ((Text.stops_cons _ _ _).2 isMark.not_isBlank)]
      exact .mark isMark white_nil whiteAfter stops spells
  | descendant =>
      have stopsBlank := first _ rfl
      exact absurd ((Text.stops_cons _ _ _).1 stopsBlank) (by decide)

/-- The end of a text is trimmed behind its first lexeme, unless that is the only one. -/
theorem Spells.trimEnd_append {front text : Text} {tokens : List SelectorToken}
    (spells : Spells tokens text) (trimmed : Spells tokens (Text.trimEnd text))
    (alone : tokens = [] → Text.EndsSolid front) :
    Text.trimEnd (front ++ text) = front ++ Text.trimEnd text := by
  cases tokens with
  | nil =>
      cases spells
      rw [List.append_nil, Text.trimEnd_of_solid (alone rfl)]
      exact (List.append_nil front).symm
  | cons token tokens => exact Text.trimEnd_append trimmed.ne_nil

/-- A spelling can be trimmed at its end if its last token allows it. -/
theorem Spells.trimEnd {tokens : List SelectorToken} {text : Text} (spells : Spells tokens text)
    (last : ∀ token ∈ tokens.getLast?, Text.EndsSolid token.content) :
    Spells tokens (Text.trimEnd text) := by
  have behind {token : SelectorToken} {tokens : List SelectorToken}
      (last : ∀ other ∈ (token :: tokens).getLast?, Text.EndsSolid other.content) :
      ∀ other ∈ tokens.getLast?, Text.EndsSolid other.content := by
    intro other member
    apply last
    rw [List.getLast?_cons, Option.mem_def.1 member]
    rfl
  induction spells with
  | nil => exact .nil
  | simple simple settled stops spells hypothesis =>
      have trimmed := hypothesis (behind last)
      rw [spells.trimEnd_append trimmed (by rintro rfl; exact last _ rfl)]
      exact .simple simple settled stops.trimEnd trimmed
  | @mark sign token before after text tokens isMark whiteBefore whiteAfter stops spells
      hypothesis =>
      have trimmed := hypothesis (behind last)
      cases tokens with
      | nil =>
          -- White space behind a last sign is trimmed with what follows it, which is nothing.
          cases spells
          have blank : Text.Blank after := fun character member =>
            isBlank_of_isSpace (whiteAfter character member)
          have solid : Text.EndsSolid (before ++ [sign]) := ⟨before, sign, rfl, isMark.not_isBlank⟩
          rw [List.append_nil, List.append_cons, Text.trimEnd_append_blank _ blank,
            Text.trimEnd_of_solid solid]
          exact .mark isMark whiteBefore white_nil stops .nil
      | cons next more =>
          have shape : before ++ sign :: (after ++ text) = (before ++ sign :: after) ++ text := by
            simp
          rw [shape, spells.trimEnd_append trimmed (by simp), List.append_assoc, List.cons_append]
          exact .mark isMark whiteBefore whiteAfter stops.trimEnd trimmed
  | descendant nonempty white stops spells hypothesis =>
      have trimmed := hypothesis (behind last)
      rw [spells.trimEnd_append trimmed]
      · exact .descendant nonempty white stops.trimEnd trimmed
      · -- A combinator of white space is never the last token.
        rintro rfl
        have solid : Text.EndsSolid [' '] := last _ rfl
        exact absurd (by simp [Text.Blank, Text.isBlank]) solid.not_blank

/-- A spelling can be trimmed at both ends if its outermost tokens allow it. -/
theorem Spells.trim {tokens : List SelectorToken} {text : Text} (spells : Spells tokens text)
    (trimmed : Trimmed tokens) : Spells tokens (Text.trim text) :=
  (spells.trimStart trimmed.first).trimEnd trimmed.last

/-! ## Reading the written form -/

theorem tokenize_eq_ok_iff {selector : Text} {tokens : List SelectorToken} :
    tokenize selector = .ok tokens ↔ Spells tokens (Text.trim selector) := by
  rw [← scan_eq_ok_iff, tokenize_eq_scan]
  exact mapError_eq_ok_iff

/-- The tokens of a trimmed text have no blank space at their outer sides. -/
theorem Spells.trimmed {selector : Text} {tokens : List SelectorToken}
    (spells : Spells tokens (Text.trim selector)) : Trimmed tokens := by
  constructor
  · exact spells.trimmed_first (Text.stops_trimStart selector).trimEnd
  · cases tokens with
    | nil => simp
    | cons token tokens => exact spells.trimmed_last (Text.trimEnd_solid spells.ne_nil)

/--
Every selector that can be read is read again from its written form, as the same tokens.  Writing it
a second time therefore changes nothing.
-/
theorem tokenize_render {selector : Text} {tokens : List SelectorToken}
    (accepted : tokenize selector = .ok tokens) :
    tokenize (render tokens) = .ok tokens ∧
      normalize selector = .ok (render tokens) ∧
        normalize (render tokens) = .ok (render tokens) := by
  have spells := tokenize_eq_ok_iff.1 accepted
  have again : tokenize (render tokens) = .ok tokens :=
    tokenize_eq_ok_iff.2 (spells.render.trim spells.trimmed)
  refine ⟨again, ?_, ?_⟩
  · rw [normalize, accepted]
    rfl
  · rw [normalize, again]
    rfl

/-- A selector with a namespace, an escaped name and separators written in several ways. -/
theorem tokenize_render_namespaced :
    ∃ tokens, tokenize " svg|a\n>  \\31 .b,*::before\t".toList = .ok tokens ∧ tokens.length = 8 ∧
      tokenize (render tokens) = .ok tokens ∧
        normalize " svg|a\n>  \\31 .b,*::before\t".toList = .ok (render tokens) ∧
          normalize (render tokens) = .ok (render tokens) := by
  have accepted : tokenize " svg|a\n>  \\31 .b,*::before\t".toList =
      .ok [.canonical (.element "a".toList (some "svg".toList)), .combinator '>',
        .canonical (.element "\\31".toList none), .combinator ' ',
        .canonical (.className "b".toList), .comma, .canonical (.universal none),
        .canonical (.pseudoElement "before".toList none)] := by
    with_unfolding_all rfl
  exact ⟨_, accepted, rfl, tokenize_render accepted⟩

end CssAuthoring.Selector
