import CssAuthoring.Proofs.Selector.InPlace
import CssAuthoring.Proofs.Selector.Spelling

/-!
# The texts that the scanner accepts

The scanner takes as much as it can for every token, which the grammar does not ask for.  It still
accepts every sequence of lexemes: where a lexeme goes on in the text behind it, the two are joined
to one, and what that leaves of the next lexeme is a lexeme as well.  So the spelled texts are
closed under putting a lexeme in front.
-/

namespace CssAuthoring.Selector

/-- Some list of tokens is spelled by the text. -/
def Spelled (text : Text) : Prop :=
  ∃ tokens, Spells tokens text

/-! ## What is left of a lexeme -/

/-- White space in front of a spelled text can be left out. -/
theorem Spelled.behind_space {text : Text} (spelled : Spelled text) : Spelled (skipSpace text) := by
  rcases spelled with ⟨tokens, spells⟩
  rcases spells.behind_space with skipped | ⟨behind, _, skipped⟩
  · exact ⟨tokens, skipped⟩
  · exact ⟨behind, skipped⟩

theorem splitName_namespace {name : Text} (isName : IsName name) (tail : Text) :
    splitName (name ++ '|' :: tail) = (name, '|' :: tail) :=
  splitName_name isName.units ((Text.stops_cons _ _ _).2 (by decide))

/-- Of a simple selector, reading a name leaves nothing, or a selector that goes on alike. -/
theorem Simple.behind_name {part : Part} {source text : Text} (simple : Simple part source)
    (settled : Settled part) (stops : Text.Stops (extendsPart part) text) :
    (splitName (source ++ text)).2 = text ∨
      ∃ part' source', Simple part' source' ∧ Settled part' ∧
        Text.Stops (extendsPart part') text ∧ (splitName (source ++ text)).2 = source' ++ text := by
  have whole (noName : Text.Stops extendsName (source ++ text)) :
      ∃ part' source', Simple part' source' ∧ Settled part' ∧
        Text.Stops (extendsPart part') text ∧ (splitName (source ++ text)).2 = source' ++ text := by
    rw [splitName_of_stops noName]
    exact ⟨part, source, simple, settled, stops, rfl⟩
  cases simple with
  | @element name space isName isNamespace =>
      cases isNamespace with
      | absent =>
          have stopsName : Text.Stops extendsName text := stops.of_imp fun character extend => by
            simp [extendsPart, extend]
          rw [Part.qualified, splitName_name isName.units stopsName]
          exact .inl rfl
      | empty => exact .inr (whole ((Text.stops_cons _ _ _).2 (by decide)))
      | any => exact .inr (whole ((Text.stops_cons _ _ _).2 (by decide)))
      | @named outer isOuter =>
          rw [Part.qualified, List.append_assoc, List.cons_append, splitName_namespace isOuter]
          exact .inr ⟨_, _, .element isName .empty, trivial, stops, rfl⟩
  | @universal space isNamespace =>
      cases isNamespace with
      | absent => exact .inr (whole ((Text.stops_cons _ _ _).2 (by decide)))
      | empty => exact .inr (whole ((Text.stops_cons _ _ _).2 (by decide)))
      | any => exact .inr (whole ((Text.stops_cons _ _ _).2 (by decide)))
      | @named outer isOuter =>
          rw [Part.qualified, List.append_assoc, List.cons_append, splitName_namespace isOuter]
          exact .inr ⟨_, _, .universal .empty, trivial, stops, rfl⟩
  | _ => exact .inr (whole ((Text.stops_cons _ _ _).2 (by decide)))

/-- A name in front of a spelled text can be left out. -/
theorem Spelled.behind_name {text : Text} (spelled : Spelled text) :
    Spelled (splitName text).2 := by
  by_cases noName : Text.Stops extendsName text
  · rw [splitName_of_stops noName]
    exact spelled
  · rcases spelled with ⟨tokens, spells⟩
    cases text with
    | nil => exact absurd (Text.stops_nil _) noName
    | cons character rest =>
        rw [Text.stops_cons, Bool.not_eq_false] at noName
        have noSeparator : Text.Stops startsSeparator (character :: rest) :=
          (Text.stops_cons _ _ _).2 (not_startsSeparator_of_extendsName noName)
        rcases spells.exists_simple noSeparator (List.cons_ne_nil _ _) with
          ⟨part, source, text, behind, simple, settled, stops, spells, _, shape⟩
        rw [shape]
        rcases simple.behind_name settled stops with
          left | ⟨part', source', simple', settled', stops', left⟩
        · rw [left]
          exact ⟨_, spells⟩
        · rw [left]
          exact ⟨_, .simple simple' settled' stops' spells⟩

/-- A simple selector that begins with a bar has an empty namespace. -/
theorem Simple.of_bar {part : Part} {source text rest : Text} (simple : Simple part source)
    (shape : source ++ text = '|' :: rest) :
    ∃ name, rest = name ++ text ∧
      (part = .universal (some []) ∧ name = ['*'] ∨
        part = .element name (some []) ∧ IsName name) := by
  have noName {name : Text} (isName : IsName name) (text : Text) : name ++ text ≠ '|' :: rest := by
    rcases isName.head with ⟨character, more, rfl, extend⟩
    intro same
    exact absurd (List.cons.inj same).1 (ne_of_extendsName extend (by decide))
  cases simple with
  | @element name space isName isNamespace =>
      cases isNamespace with
      | absent => exact absurd shape (noName isName text)
      | empty =>
          refine ⟨name, ?_, .inr ⟨rfl, isName⟩⟩
          exact (List.cons.inj shape).2.symm
      | any => cases shape
      | @named outer isOuter =>
          rw [Part.qualified, List.append_assoc] at shape
          exact absurd shape (noName isOuter _)
  | @universal space isNamespace =>
      cases isNamespace with
      | absent => cases shape
      | empty =>
          refine ⟨['*'], ?_, .inl ⟨rfl, rfl⟩⟩
          exact (List.cons.inj shape).2.symm
      | any => cases shape
      | @named outer isOuter =>
          rw [Part.qualified, List.append_assoc] at shape
          exact absurd shape (noName isOuter _)
  | _ => cases shape

/-- A namespace can be put in front of a bar. -/
theorem Spelled.namespace_append {space rest : Text} (isNamespace : IsNamespace (some space))
    (spelled : Spelled ('|' :: rest)) : Spelled (space ++ '|' :: rest) := by
  rcases spelled with ⟨tokens, whole⟩
  rcases whole.exists_simple ((Text.stops_cons _ _ _).2 (by decide)) (List.cons_ne_nil _ _) with
    ⟨part, source, text, behind, simple, settled, stops, spells, _, shape⟩
  rcases simple.of_bar shape.symm with ⟨name, rfl, ⟨rfl, rfl⟩ | ⟨rfl, isName⟩⟩
  · rw [← List.cons_append, ← List.append_assoc]
    exact ⟨_, .simple (.universal isNamespace) trivial stops spells⟩
  · rw [← List.cons_append, ← List.append_assoc]
    exact ⟨_, .simple (.element isName isNamespace) trivial stops spells⟩

/-- No spelled text begins with an argument. -/
theorem Spelled.stops_opening {text : Text} (spelled : Spelled text) :
    Text.Stops (fun character => character = '(') text := by
  intro character member
  rw [decide_eq_false_iff_not]
  rintro rfl
  cases text with
  | nil => cases member
  | cons first rest =>
      cases member
      rcases spelled with ⟨tokens, spells⟩
      rcases exists_of_scan spells.scan_eq with ⟨token, after, more, read, _⟩
      cases read

/-! ## Putting a lexeme in front -/

/-- A name in front of a spelled text takes the name there along. -/
theorem Spelled.exists_longest_name {name text : Text} (isName : IsName name)
    (spelled : Spelled text) :
    ∃ longest rest, name ++ text = longest ++ rest ∧ IsName longest ∧
      Text.Stops extendsName rest ∧ Spelled rest := by
  have behind := spelled.behind_name
  rcases behind with ⟨tokens, spells⟩
  refine ⟨name ++ (splitName text).1, (splitName text).2, by simp, ?_,
    stops_splitName spells.continues, tokens, spells⟩
  constructor
  · simp [isName.nonempty]
  · exact isName.units.append (units_splitName text)

/-- A name or star in front of a spelled text becomes a namespace if there is a bar behind it. -/
theorem Spelled.bar_append {part : Part} {front text : Text} (simple : Simple part front)
    (settled : Settled part) (isNamespace : IsNamespace (some front))
    (alone : Text.Stops (fun character => character = '|') text →
      Text.Stops (extendsPart part) text)
    (spelled : Spelled text) : Spelled (front ++ text) := by
  -- Behind a bar the name stands for the namespace, else it is a selector by itself.
  by_cases bar : Text.Stops (fun character => character = '|') text
  · rcases spelled with ⟨tokens, spells⟩
    exact ⟨_, .simple simple settled (alone bar) spells⟩
  · cases text with
    | nil => exact absurd (Text.stops_nil _) bar
    | cons character rest =>
        rw [Text.stops_cons, decide_eq_false_iff_not, Decidable.not_not] at bar
        subst bar
        exact spelled.namespace_append isNamespace

/-- A name behind a sign in front of a spelled text. -/
theorem Spelled.named_append {sign : Char} (part : Text → Part) {name text : Text}
    (isName : IsName name)
    (simple : ∀ longest, IsName longest → Simple (part longest) (sign :: longest))
    (settled : ∀ longest, Settled (part longest))
    (extends_eq : ∀ longest, extendsPart (part longest) = extendsName)
    (spelled : Spelled text) : Spelled (sign :: name ++ text) := by
  rcases spelled.exists_longest_name isName with
    ⟨longest, rest, join, isLongest, stops, tokens, spells⟩
  rw [List.cons_append, join]
  refine ⟨_, .simple (simple longest isLongest) (settled longest) ?_ spells⟩
  rw [extends_eq]
  exact stops

/-- A name behind colons, without an argument, in front of a spelled text. -/
theorem Spelled.pseudo_append (colons : Text) (part : Text → Option Text → Part)
    {name text : Text} (isName : IsName name)
    (simple : ∀ longest, IsName longest → Simple (part longest none) (colons ++ longest))
    (settled : ∀ longest, Settled (part longest none))
    (extends_eq : ∀ longest,
      extendsPart (part longest none) = fun character => extendsName character || character = '(')
    (spelled : Spelled text) : Spelled (colons ++ name ++ text) := by
  rcases spelled.exists_longest_name isName with ⟨longest, rest, join, isLongest, stops, behind⟩
  have notOpening := behind.stops_opening
  rcases behind with ⟨tokens, spells⟩
  rw [List.append_assoc, join, ← List.append_assoc]
  refine ⟨_, .simple (simple longest isLongest) (settled longest) ?_ spells⟩
  rw [extends_eq]
  intro character member
  exact Bool.or_eq_false_iff.2 ⟨stops character member, notOpening character member⟩

/-- A simple selector in front of a spelled text. -/
theorem Spelled.simple_append {part : Part} {source text : Text} (simple : Simple part source)
    (settled : Settled part) (spelled : Spelled text) : Spelled (source ++ text) := by
  have whole (stops : Text.Stops (extendsPart part) text) : Spelled (source ++ text) := by
    rcases spelled with ⟨tokens, spells⟩
    exact ⟨_, .simple simple settled stops spells⟩
  cases simple with
  | @element name space isName isNamespace =>
      rcases spelled.exists_longest_name isName with ⟨longest, rest, join, isLongest, stops, behind⟩
      rw [← qualified_append, join, qualified_append]
      cases space with
      | none =>
          refine behind.bar_append (.element isLongest .absent) trivial (.named isLongest) ?_
          intro notBar character member
          exact Bool.or_eq_false_iff.2 ⟨stops character member, notBar character member⟩
      | some outer =>
          rcases behind with ⟨tokens, spells⟩
          exact ⟨_, .simple (.element isLongest isNamespace) trivial stops spells⟩
  | @universal space isNamespace =>
      cases space with
      | none => exact spelled.bar_append (.universal .absent) trivial .any id
      | some outer => exact whole fun _ _ => rfl
  | id isName =>
      apply spelled.named_append .id isName
      · intro longest isLongest
        exact .id isLongest
      · intro longest
        trivial
      · intro longest
        rfl
  | className isName =>
      apply spelled.named_append .className isName
      · intro longest isLongest
        exact .className isLongest
      · intro longest
        trivial
      · intro longest
        rfl
  | @pseudoClass name argument isName balanced =>
      cases argument with
      | some inner => exact whole fun _ _ => rfl
      | none =>
          apply spelled.pseudo_append [':'] .pseudoClass isName
          · intro longest isLongest
            exact .pseudoClass isLongest (by simp)
          · intro longest
            trivial
          · intro longest
            rfl
  | @pseudoElement name argument isName balanced =>
      cases argument with
      | some inner => exact whole fun _ _ => rfl
      | none =>
          apply spelled.pseudo_append [':', ':'] .pseudoElement isName
          · intro longest isLongest
            exact .pseudoElement isLongest (by simp)
          · intro longest
            trivial
          · intro longest
            rfl
  | «attribute» => exact whole fun _ _ => rfl

/-- White space in front of a spelled text goes to the separator there, or becomes one. -/
theorem Spelled.white_append {space text : Text} (nonempty : space ≠ []) (white : White space)
    (spelled : Spelled text) : Spelled (space ++ text) := by
  rcases spelled with ⟨tokens, spells⟩
  cases spells with
  | nil => exact ⟨_, .descendant nonempty white (Text.stops_nil _) .nil⟩
  | @simple part source text tokens simple settled stops spells =>
      have noSeparator : Text.Stops startsSeparator (source ++ text) :=
        (Text.stops_append (simple.ne_nil settled) text).2 (simple.stops settled)
      exact ⟨_, .descendant nonempty white noSeparator (.simple simple settled stops spells)⟩
  | mark isMark whiteBefore whiteAfter stops spells =>
      rw [← List.append_assoc]
      exact ⟨_, .mark isMark (white.append whiteBefore) whiteAfter stops spells⟩
  | descendant _ whiteMore stops spells =>
      rw [← List.append_assoc]
      exact ⟨_, .descendant (by simp [nonempty]) (white.append whiteMore) stops spells⟩

/-- Every lexeme can be put in front of a spelled text. -/
theorem Spelled.lexeme_append {token : SelectorToken} {source text : Text}
    (lexeme : Lexeme token source) (spelled : Spelled text) : Spelled (source ++ text) := by
  cases lexeme with
  | simple simple =>
      rcases simple.exists_settled with ⟨part, settledSimple, settled⟩
      exact spelled.simple_append settledSimple settled
  | @mark sign token before after isMark whiteBefore whiteAfter =>
      -- The sign takes along the white space that stands behind its own.
      rcases exists_white_append text with ⟨gap, whiteGap, split⟩
      rcases spelled.behind_space with ⟨tokens, spells⟩
      have shape : before ++ sign :: after ++ text =
          before ++ sign :: ((after ++ gap) ++ skipSpace text) := by
        conv => lhs; rw [split]
        simp
      rw [shape]
      exact ⟨_, .mark isMark whiteBefore (whiteAfter.append whiteGap) (stops_skipSpace text) spells⟩
  | descendant nonempty white => exact spelled.white_append nonempty white

theorem Lexemes.spelled {tokens : List SelectorToken} {text : Text}
    (lexemes : Lexemes tokens text) : Spelled text := by
  induction lexemes with
  | nil => exact ⟨_, .nil⟩
  | cons lexeme _ hypothesis => exact hypothesis.lexeme_append lexeme

/-! ## Acceptance -/

/-- What is spelled consists of lexemes of the same tokens. -/
theorem Spells.lexemes {tokens : List SelectorToken} {text : Text} (spells : Spells tokens text) :
    Lexemes tokens text := by
  induction spells with
  | nil => exact .nil
  | simple simple settled stops _ hypothesis => exact .cons (.simple simple) hypothesis
  | @mark sign token before after text tokens isMark whiteBefore whiteAfter _ _ hypothesis =>
      have shape : before ++ sign :: (after ++ text) = (before ++ sign :: after) ++ text := by simp
      rw [shape]
      exact .cons (.mark isMark whiteBefore whiteAfter) hypothesis
  | descendant nonempty white _ _ hypothesis => exact .cons (.descendant nonempty white) hypothesis

theorem tokenizeExact_eq_ok_iff {text : Text} {tokens : List SelectorToken} :
    tokenizeExact text = .ok tokens ↔ Spells tokens text := by
  rw [← scan_eq_ok_iff, tokenizeExact_eq_scan]
  exact mapError_eq_ok_iff

/--
The scanner accepts exactly the sequences of lexemes, and the tokens that it finds have lexemes that
make up the text, without anything left out between them.
-/
theorem tokenizeExact_accepts_iff (text : Text) :
    ((∃ tokens, tokenizeExact text = .ok tokens) ↔ ∃ tokens, Lexemes tokens text) ∧
      ∀ tokens, tokenizeExact text = .ok tokens → Lexemes tokens text := by
  have sound (tokens : List SelectorToken) (accepted : tokenizeExact text = .ok tokens) :
      Lexemes tokens text := (tokenizeExact_eq_ok_iff.1 accepted).lexemes
  refine ⟨⟨?_, ?_⟩, sound⟩
  · rintro ⟨tokens, accepted⟩
    exact ⟨tokens, sound tokens accepted⟩
  · rintro ⟨tokens, lexemes⟩
    rcases lexemes.spelled with ⟨found, spells⟩
    exact ⟨found, tokenizeExact_eq_ok_iff.2 spells⟩

end CssAuthoring.Selector
