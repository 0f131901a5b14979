import CssAuthoring.Proofs.Selector.Attribute

/-!
# Spellings of selectors

A text spells a list of tokens if it is made of lexemes of these tokens, each of which takes as much
as it can: no simple selector goes on in the text behind it, and no white space is left behind the
sign of a separator or next to a descendant combinator.  Spelling is the relation that the scanner
computes, and it says how tokens may be put next to each other, without mentioning the scanner.

The main statement is `scan_eq_ok_iff`.  A spelling leaves the white space around signs free, which
is what writing a selector in another way makes use of.
-/

namespace CssAuthoring.Selector

/-! ## One token -/

/-- A settled simple selector is read as it is where it cannot go on. -/
theorem Simple.readsAs {part : Part} {source text : Text} (simple : Simple part source)
    (settled : Settled part) (stops : Text.Stops (extendsPart part) text) :
    ReadsAs source ⟨part, source⟩ text := by
  cases simple with
  | element isName isNamespace => exact readsAs_element isName isNamespace stops
  | universal isNamespace => exact readsAs_universal isNamespace stops
  | @id name isName =>
      refine ⟨'#', name, rfl, by decide, ?_⟩
      exact readNamed_name (fun _ => rfl) isName stops
  | @className name isName =>
      refine ⟨'.', name, rfl, by decide, ?_⟩
      exact readNamed_name (fun _ => rfl) isName stops
  | @pseudoClass name argument isName balanced =>
      have colon : readToken ':' (Part.called name argument ++ text) =
          readPseudo [':'] .pseudoClass .expectedPseudoClassName
            (Part.called name argument ++ text) := by
        rcases isName.head with ⟨character, rest, rfl, extend⟩
        have single : character ≠ ':' := ne_of_extendsName extend (by decide)
        cases argument <;> exact readToken_colon (by simp [Part.called, single])
      refine ⟨':', Part.called name argument, rfl, by decide, colon.trans ?_⟩
      exact readPseudo_called (fun _ _ => rfl) isName balanced (by rintro rfl; exact stops)
  | @pseudoElement name argument isName balanced =>
      refine ⟨':', ':' :: Part.called name argument, rfl, by decide, ?_⟩
      exact readPseudo_called (fun _ _ => rfl) isName balanced (by rintro rfl; exact stops)
  | «attribute» whiteBefore isNamespace isName whiteAfter isCondition longest =>
      exact readsAs_attribute whiteBefore isNamespace isName whiteAfter isCondition longest settled

/-- A settled simple selector begins with a character that starts no separator. -/
theorem Simple.head {part : Part} {source : Text} (simple : Simple part source)
    (settled : Settled part) :
    ∃ character rest, source = character :: rest ∧ startsSeparator character = false := by
  rcases simple.readsAs settled (Text.stops_nil _) with ⟨character, rest, shape, noSeparator, _⟩
  exact ⟨character, rest, shape, noSeparator⟩

theorem Simple.stops {part : Part} {source : Text} (simple : Simple part source)
    (settled : Settled part) : Text.Stops startsSeparator source := by
  rcases simple.head settled with ⟨character, rest, rfl, noSeparator⟩
  exact (Text.stops_cons _ _ _).2 noSeparator

theorem Simple.ne_nil {part : Part} {source : Text} (simple : Simple part source)
    (settled : Settled part) : source ≠ [] := by
  rcases simple.head settled with ⟨character, rest, rfl, _⟩
  exact List.cons_ne_nil _ _

/-- Whatever is read is a settled simple selector, or begins with a separator. -/
theorem wasRead_of_readToken {character : Char} {rest after : Text} {token : SelectorToken}
    (simple : startsSeparator character = false)
    (read : readToken character rest = .ok (token, after)) :
    WasRead token (character :: rest) after := by
  unfold readToken at read
  rw [if_neg (by simp [simple])] at read
  split at read
  · exact wasRead_of_readNamed read (fun _ => rfl) (fun _ => .id) (fun _ => trivial) (fun _ => rfl)
  · exact wasRead_of_readNamed read (fun _ => rfl) (fun _ => .className) (fun _ => trivial)
      (fun _ => rfl)
  · exact wasRead_of_readAttribute read
  · split at read
    · exact wasRead_of_readPseudo read (fun _ _ => rfl) (fun _ _ => .pseudoElement)
        (fun _ _ => trivial) (fun _ => rfl) (fun _ _ => rfl)
    · exact wasRead_of_readPseudo read (fun _ _ => rfl) (fun _ _ => .pseudoClass)
        (fun _ _ => trivial) (fun _ => rfl) (fun _ _ => rfl)
  · exact wasRead_of_readElement read

theorem readToken_separator {character : Char} (separates : startsSeparator character = true)
    (rest : Text) : readToken character rest = .ok (readSeparator (character :: rest)) := by
  simp only [readToken]
  rw [if_pos separates]

/-- The sign of a separator is read with the white space around it. -/
theorem readSeparator_mark {sign : Char} {token : SelectorToken} {before after text : Text}
    (isMark : IsMark sign token) (whiteBefore : White before) (whiteAfter : White after)
    (stops : Text.Stops isSpace text) :
    readSeparator (before ++ sign :: (after ++ text)) = (token, text) := by
  have signStops : Text.Stops isSpace (sign :: (after ++ text)) := by
    rw [Text.stops_cons]
    exact isMark.not_isSpace
  rw [readSeparator]
  rw [skipSpace_run whiteBefore signStops]
  dsimp only
  rw [skipSpace_run whiteAfter stops]
  cases isMark with
  | comma => rfl
  | combinator isSymbol =>
      have notComma : sign ≠ ',' := by
        rintro rfl
        exact absurd isSymbol (by decide)
      rw [if_neg notComma, if_pos isSymbol]

/-- White space alone is read as the descendant combinator. -/
theorem readSeparator_descendant {space text : Text} (white : White space)
    (stops : Text.Stops startsSeparator text) :
    readSeparator (space ++ text) = (.combinator ' ', text) := by
  cases text with
  | nil =>
      rw [readSeparator]
      rw [skipSpace_run white (Text.stops_nil _)]
  | cons character rest =>
      rw [Text.stops_cons] at stops
      simp only [startsSeparator, Bool.or_eq_false_iff, decide_eq_false_iff_not] at stops
      rw [readSeparator]
      rw [skipSpace_run white ((Text.stops_cons _ _ _).2 stops.1.1)]
      dsimp only
      rw [if_neg stops.2, if_neg (by simp [stops.1.2])]

/-! ## Whole texts -/

/-- A text is made of lexemes of the given tokens, each of which takes all that it can. -/
inductive Spells : List SelectorToken → Text → Prop where
  | nil : Spells [] []
  | simple {part : Part} {source text : Text} {tokens : List SelectorToken}
      (simple : Simple part source) (settled : Settled part)
      (stops : Text.Stops (extendsPart part) text) (spells : Spells tokens text) :
      Spells (⟨part, source⟩ :: tokens) (source ++ text)
  | mark {sign : Char} {token : SelectorToken} {before after text : Text}
      {tokens : List SelectorToken}
      (isMark : IsMark sign token) (whiteBefore : White before) (whiteAfter : White after)
      (stops : Text.Stops isSpace text) (spells : Spells tokens text) :
      Spells (token :: tokens) (before ++ sign :: (after ++ text))
  | descendant {space text : Text} {tokens : List SelectorToken}
      (nonempty : space ≠ []) (white : White space)
      (stops : Text.Stops startsSeparator text) (spells : Spells tokens text) :
      Spells (.combinator ' ' :: tokens) (space ++ text)

theorem scan_cons {character : Char} {rest after : Text} {token : SelectorToken}
    (read : readToken character rest = .ok (token, after)) :
    scan (character :: rest) = (scan after).map (token :: ·) := by
  rw [scan]
  split
  · rename_i failed
    rw [read] at failed
    cases failed
  · rename_i found
    rw [read] at found
    cases found
    rfl

/-- A scan that succeeds has read a token and goes on with what follows it. -/
theorem exists_of_scan {character : Char} {rest : Text} {tokens : List SelectorToken}
    (scanned : scan (character :: rest) = .ok tokens) :
    ∃ token after more, readToken character rest = .ok (token, after) ∧ scan after = .ok more ∧
      tokens = token :: more := by
  cases read : readToken character rest with
  | error culprit =>
      rw [scan] at scanned
      split at scanned
      · contradiction
      · rename_i found
        rw [read] at found
        cases found
  | ok reading =>
      rcases reading with ⟨token, after⟩
      rw [scan_cons read] at scanned
      cases tail : scan after with
      | error culprit =>
          rw [tail] at scanned
          cases scanned
      | ok more =>
          rw [tail] at scanned
          cases scanned
          exact ⟨token, after, more, rfl, tail, rfl⟩

theorem startsSeparator_of_isSpace {character : Char} (white : isSpace character = true) :
    startsSeparator character = true := by
  simp [startsSeparator, white]

theorem IsMark.separates {sign : Char} {token : SelectorToken} (isMark : IsMark sign token) :
    startsSeparator sign = true := by
  cases isMark with
  | comma => decide
  | combinator isSymbol => simp [startsSeparator, isSymbol]

/-- A sign with white space in front of it begins with a character that starts a separator. -/
theorem IsMark.head {sign : Char} {token : SelectorToken} {before : Text}
    (isMark : IsMark sign token) (white : White before) (text : Text) :
    ∃ character rest, before ++ sign :: text = character :: rest ∧
      startsSeparator character = true := by
  cases before with
  | nil => exact ⟨sign, text, rfl, isMark.separates⟩
  | cons first more =>
      exact ⟨first, _, rfl, startsSeparator_of_isSpace (white first List.mem_cons_self)⟩

theorem White.head {space : Text} (white : White space) (nonempty : space ≠ []) (text : Text) :
    ∃ character rest, space ++ text = character :: rest ∧ startsSeparator character = true := by
  rcases List.exists_cons_of_ne_nil nonempty with ⟨first, more, rfl⟩
  exact ⟨first, more ++ text, rfl, startsSeparator_of_isSpace (white first List.mem_cons_self)⟩

/-- A separator is scanned as one token. -/
theorem scan_separator {character : Char} {rest after : Text} {token : SelectorToken}
    (separates : startsSeparator character = true)
    (read : readSeparator (character :: rest) = (token, after)) :
    scan (character :: rest) = (scan after).map (token :: ·) := by
  apply scan_cons
  rw [readToken_separator separates, read]

/-- A spelling that begins with no separator begins with a simple selector. -/
theorem Spells.exists_simple {tokens : List SelectorToken} {text : Text}
    (spells : Spells tokens text) (stops : Text.Stops startsSeparator text) (nonempty : text ≠ []) :
    ∃ part source rest behind, Simple part source ∧ Settled part ∧
      Text.Stops (extendsPart part) rest ∧ Spells behind rest ∧
        tokens = ⟨part, source⟩ :: behind ∧ text = source ++ rest := by
  cases spells with
  | nil => exact absurd rfl nonempty
  | simple simple settled stopsPart spells =>
      exact ⟨_, _, _, _, simple, settled, stopsPart, spells, rfl, rfl⟩
  | @mark sign token before after text tokens isMark white =>
      rcases isMark.head white (after ++ text) with ⟨character, rest, shape, separates⟩
      rw [shape, Text.stops_cons, separates] at stops
      contradiction
  | @descendant space text tokens filled white =>
      rcases white.head filled text with ⟨character, rest, shape, separates⟩
      rw [shape, Text.stops_cons, separates] at stops
      contradiction

/--
White space in front of a spelling can be left out, and with it the combinator that it may be.
-/
theorem Spells.behind_space {tokens : List SelectorToken} {text : Text}
    (spells : Spells tokens text) :
    Spells tokens (skipSpace text) ∨
      ∃ behind, tokens = .combinator ' ' :: behind ∧ Spells behind (skipSpace text) := by
  cases spells with
  | nil => exact .inl .nil
  | @simple part source text tokens simple settled stops spells =>
      have stopsSpace : Text.Stops isSpace (source ++ text) := by
        rw [Text.stops_append (simple.ne_nil settled)]
        exact (simple.stops settled).of_imp fun _ => startsSeparator_of_isSpace
      rw [skipSpace, Text.dropWhile_of_stops stopsSpace]
      exact .inl (.simple simple settled stops spells)
  | mark isMark whiteBefore whiteAfter stops spells =>
      rw [skipSpace_run whiteBefore ((Text.stops_cons _ _ _).2 isMark.not_isSpace)]
      exact .inl (.mark isMark white_nil whiteAfter stops spells)
  | descendant nonempty white stops spells =>
      rw [skipSpace_run white (stops.of_imp fun _ => startsSeparator_of_isSpace)]
      exact .inr ⟨_, rfl, spells⟩

/-- What is spelled is scanned. -/
theorem Spells.scan_eq {tokens : List SelectorToken} {text : Text} (spells : Spells tokens text) :
    scan text = .ok tokens := by
  induction spells with
  | nil => rw [scan]
  | simple simple settled stops _ hypothesis =>
      rcases simple.readsAs settled stops with ⟨character, rest, rfl, _, read⟩
      rw [List.cons_append, scan_cons read, hypothesis]
      rfl
  | @mark sign token before after text tokens isMark whiteBefore whiteAfter stops _ hypothesis =>
      have read := readSeparator_mark isMark whiteBefore whiteAfter stops
      rcases isMark.head whiteBefore (after ++ text) with ⟨character, rest, shape, separates⟩
      rw [shape] at read ⊢
      rw [scan_separator separates read, hypothesis]
      rfl
  | @descendant space text tokens nonempty white stops _ hypothesis =>
      have read := readSeparator_descendant white stops
      rcases white.head nonempty text with ⟨character, rest, shape, separates⟩
      rw [shape] at read ⊢
      rw [scan_separator separates read, hypothesis]
      rfl

theorem Spells.ne_nil {token : SelectorToken} {tokens : List SelectorToken} {text : Text}
    (spells : Spells (token :: tokens) text) : text ≠ [] := by
  rintro rfl
  have scanned := spells.scan_eq
  rw [scan] at scanned
  cases scanned

/-- What can be spelled can go on behind a simple selector. -/
theorem Spells.continues {tokens : List SelectorToken} {text : Text}
    (spells : Spells tokens text) : Continues text := by
  have scanned := spells.scan_eq
  constructor
  · rintro rfl
    rcases exists_of_scan scanned with ⟨token, after, more, read, _⟩
    cases read
  · rintro rest rfl
    rcases exists_of_scan scanned with ⟨token, after, more, read, _⟩
    rw [readToken_bar] at read
    by_cases starts : startsLocalName rest = true
    · exact starts
    · simp [readElement, starts] at read

/-- What a separator leaves is spelled together with the separator. -/
theorem Spells.of_readSeparator {character : Char} {rest : Text} {tokens : List SelectorToken}
    (separates : startsSeparator character = true)
    (spells : Spells tokens (readSeparator (character :: rest)).2) :
    Spells ((readSeparator (character :: rest)).1 :: tokens) (character :: rest) := by
  rcases exists_white_append (character :: rest) with ⟨space, white, append⟩
  have spaceStops := stops_skipSpace (character :: rest)
  have markSpells {sign : Char} {token : SelectorToken} {more : Text} (isMark : IsMark sign token)
      (shape : skipSpace (character :: rest) = sign :: more)
      (spells : Spells tokens (skipSpace more)) : Spells (token :: tokens) (character :: rest) := by
    rcases exists_white_append more with ⟨after, whiteAfter, afterAppend⟩
    rw [append, shape, afterAppend]
    exact .mark isMark white whiteAfter (stops_skipSpace more) spells
  rw [readSeparator] at spells ⊢
  split at spells
  · rename_i shape
    rw [shape] at append
    have nonempty : space ≠ [] := by
      rintro rfl
      cases append
    rw [append]
    exact .descendant nonempty white (Text.stops_nil _) spells
  · rename_i sign more shape
    rw [shape] at append spaceStops
    split at spells
    · rename_i comma
      rw [if_pos comma]
      subst comma
      exact markSpells .comma shape spells
    · rename_i notComma
      rw [if_neg notComma]
      split at spells
      · rename_i isSymbol
        rw [if_pos isSymbol]
        exact markSpells (.combinator isSymbol) shape spells
      · rename_i notSymbol
        rw [if_neg notSymbol]
        have signStops : startsSeparator sign = false := by
          rw [Text.stops_cons] at spaceStops
          simp [startsSeparator, spaceStops, notSymbol, notComma]
        have nonempty : space ≠ [] := by
          rintro rfl
          cases append
          rw [separates] at signStops
          contradiction
        rw [append]
        exact .descendant nonempty white ((Text.stops_cons _ _ _).2 signStops) spells

/-- What is scanned is spelled. -/
theorem spells_of_scan {text : Text} {tokens : List SelectorToken}
    (scanned : scan text = .ok tokens) : Spells tokens text := by
  -- Along the tokens, since one token may take many characters of the text.
  induction tokens generalizing text with
  | nil =>
      cases text with
      | nil => exact .nil
      | cons character rest =>
          rcases exists_of_scan scanned with ⟨token, after, more, _, _, shape⟩
          cases shape
  | cons token tokens hypothesis =>
      cases text with
      | nil =>
          rw [scan] at scanned
          cases scanned
      | cons character rest =>
          rcases exists_of_scan scanned with ⟨token, after, more, read, tail, shape⟩
          cases shape
          have spells := hypothesis tail
          by_cases separates : startsSeparator character = true
          · rw [readToken_separator separates] at read
            have reading := Except.ok.inj read
            have whole : Spells tokens (readSeparator (character :: rest)).2 → _ :=
              Spells.of_readSeparator separates
            rw [reading] at whole
            exact whole spells
          · have wasRead := wasRead_of_readToken (by simpa using separates) read
            rw [← wasRead.source]
            exact .simple wasRead.simple wasRead.settled (wasRead.stops spells.continues) spells

/-- The scanner finds the tokens that a text spells. -/
theorem scan_eq_ok_iff {text : Text} {tokens : List SelectorToken} :
    scan text = .ok tokens ↔ Spells tokens text :=
  ⟨spells_of_scan, Spells.scan_eq⟩

/-- Placing the fault of a scan does not change what the scan finds. -/
theorem mapError_eq_ok_iff {place : Culprit → Error}
    {scanned : Except Culprit (List SelectorToken)} {tokens : List SelectorToken} :
    scanned.mapError place = .ok tokens ↔ scanned = .ok tokens := by
  cases scanned with
  | error culprit => exact ⟨nofun, nofun⟩
  | ok found =>
      constructor
      · intro equal
        cases equal
        rfl
      · intro equal
        cases equal
        rfl

end CssAuthoring.Selector
