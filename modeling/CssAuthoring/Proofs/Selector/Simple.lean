import CssAuthoring.Proofs.Selector.Piece

/-!
# Reading simple selectors

A simple selector is read as a whole if the character behind it cannot go on with it, and whatever
is read as a simple selector is one.  The two statements are not quite converse to each other: a
lexeme of the grammar may stand for several attribute selectors, of which the reader finds the one
that is settled.

The selectors that begin with a name or a star share one reader, as do those that consist of a name
behind a sign.  Attribute selectors follow in a module of their own.
-/

namespace CssAuthoring.Selector

/-! ## What may follow a simple selector -/

/-- Whether a character directly behind a simple selector would belong to it. -/
def extendsPart : Part → Char → Bool
  | .element _ none, character => extendsName character || character = '|'
  | .element _ (some _), character => extendsName character
  | .universal none, character => character = '|'
  | .id _, character => extendsName character
  | .className _, character => extendsName character
  | .pseudoClass _ none, character => extendsName character || character = '('
  | .pseudoElement _ none, character => extendsName character || character = '('
  | _, _ => false

/-- A character that a simple selector goes on with is one of a name, or a bar or parenthesis. -/
theorem of_extendsPart {part : Part} {character : Char}
    (goesOn : extendsPart part character = true) :
    extendsName character = true ∨ character = '|' ∨ character = '(' := by
  unfold extendsPart at goesOn
  split at goesOn <;> grind

/--
The white space around an operator belongs neither to it nor to the value, and the operator is the
shortest one.
-/
def SettledCondition : Option Text → Option Text → Prop
  | some operator, some value =>
    Text.Stops isSpace operator ∧ operator ≠ ['=', '='] ∧ Text.Stops isSpace value
  | _, _ => True

/-- The operator and value of an attribute selector are settled. -/
def Settled : Part → Prop
  | .attribute _ _ operator value _ => SettledCondition operator value
  | _ => True

/-- Text that begins neither with a backslash alone nor with a bar that is part of no selector. -/
structure Continues (text : Text) : Prop where
  escape : text ≠ ['\\']
  bar : ∀ rest, text = '|' :: rest → startsLocalName rest = true

theorem stops_of_not_startsName {text : Text} (stops : startsName text = false)
    (escape : text ≠ ['\\']) : Text.Stops extendsName text := by
  cases text with
  | nil => exact Text.stops_nil _
  | cons character rest =>
      rw [Text.stops_cons]
      by_cases backslash : character = '\\'
      · subst backslash
        cases rest with
        | nil => exact absurd rfl escape
        | cons next more => simp [startsName] at stops
      · unfold startsName at stops
        split at stops <;> simp_all [extendsName]

/-- What follows a name does not go on with it. -/
theorem stops_splitName {text : Text} (continues : Continues (splitName text).2) :
    Text.Stops extendsName (splitName text).2 :=
  stops_of_not_startsName (not_startsName_splitName text) continues.escape

/-! ## First characters -/

theorem not_startsSeparator_of_extendsName {character : Char}
    (extend : extendsName character = true) : startsSeparator character = false := by
  rw [Bool.eq_false_iff]
  intro separates
  simp only [startsSeparator, isSpace, isCombinatorSymbol, Bool.or_eq_true,
    decide_eq_true_eq] at separates
  rcases separates with
    (((((rfl | rfl) | rfl) | rfl) | rfl) | ((rfl | rfl) | rfl)) | rfl <;>
    exact absurd extend (by decide)

theorem ne_of_extendsName {character other : Char} (extend : extendsName character = true)
    (noName : extendsName other = false) : character ≠ other := by
  rintro rfl
  rw [extend] at noName
  contradiction

/-- A token that begins with a name is a type or universal selector. -/
theorem readToken_of_extendsName {character : Char} (extend : extendsName character = true)
    (rest : Text) : readToken character rest = readElement character rest := by
  simp only [readToken]
  rw [if_neg (by simp [not_startsSeparator_of_extendsName extend])]
  split
  · exact absurd rfl (ne_of_extendsName extend (by decide))
  · exact absurd rfl (ne_of_extendsName extend (by decide))
  · exact absurd rfl (ne_of_extendsName extend (by decide))
  · exact absurd rfl (ne_of_extendsName extend (by decide))
  · rfl

theorem readToken_star (rest : Text) : readToken '*' rest = readElement '*' rest := rfl

theorem readToken_bar (rest : Text) : readToken '|' rest = readElement '|' rest := rfl

/-! ## Type and universal selectors -/

theorem startsLocalName_of_isName {name : Text} (isName : IsName name) (text : Text) :
    startsLocalName (name ++ text) = true := by
  simp [startsLocalName, startsName_append isName text]

/-- The local name behind a bar, if it is a star. -/
theorem readLocalName_star (space text : Text) :
    readLocalName (space ++ '|' :: '*' :: text) space ('*' :: text) =
      (.canonical (.universal (some space)), text) :=
  readLocalName_eq space ('*' :: text)

/-- The local name behind a bar, if it is a name. -/
theorem readLocalName_name {name : Text} (isName : IsName name) (space : Text) {text : Text}
    (stops : Text.Stops extendsName text) :
    readLocalName (space ++ '|' :: (name ++ text)) space (name ++ text) =
      (.canonical (.element name (some space)), text) := by
  rw [readLocalName_eq]
  split
  · rename_i rest shape
    rcases isName.head with ⟨character, more, rfl, extend⟩
    exact absurd (List.cons.inj shape).1 (ne_of_extendsName extend (by decide))
  · rw [splitName_name isName.units stops]

/-- A bar with a local name behind it. -/
theorem readElement_bar {text : Text} (starts : startsLocalName text = true) :
    readElement '|' text = .ok (readLocalName ([] ++ '|' :: text) [] text) := by
  simp [readElement_eq, starts]

/-- A star and a bar with a local name behind it. -/
theorem readElement_star_bar {text : Text} (starts : startsLocalName text = true) :
    readElement '*' ('|' :: text) = .ok (readLocalName (['*'] ++ '|' :: text) ['*'] text) := by
  simp [readElement_eq, starts]

/-- A star alone. -/
theorem readElement_star {text : Text}
    (stops : ∀ rest, text = '|' :: rest → startsLocalName rest = false) :
    readElement '*' text = .ok (.canonical (.universal none), text) := by
  rw [readElement_eq]
  split
  · rename_i rest _
    rw [if_neg (by simp [stops rest rfl])]
  · rfl
  · rename_i noBar star
    exact absurd star (by decide)
  · rename_i star _ _
    exact absurd rfl (star)

/-- A name with a bar and a local name behind it. -/
theorem readElement_name_bar {character : Char} {rest more : Text}
    (extend : extendsName character = true)
    (nonempty : (splitName (character :: rest)).1 ≠ [])
    (shape : (splitName (character :: rest)).2 = '|' :: more)
    (starts : startsLocalName more = true) :
    readElement character rest =
      .ok (readLocalName ((splitName (character :: rest)).1 ++ '|' :: more)
        (splitName (character :: rest)).1 more) := by
  rw [readElement_eq]
  split
  · exact absurd rfl (ne_of_extendsName extend (by decide))
  · exact absurd rfl (ne_of_extendsName extend (by decide))
  · exact absurd rfl (ne_of_extendsName extend (by decide))
  · simp [nonempty, shape, starts]

/-- A name alone. -/
theorem readElement_name {character : Char} {rest : Text}
    (extend : extendsName character = true)
    (nonempty : (splitName (character :: rest)).1 ≠ [])
    (stops : ∀ more, (splitName (character :: rest)).2 = '|' :: more →
      startsLocalName more = false) :
    readElement character rest =
      .ok (.canonical (.element (splitName (character :: rest)).1 none),
        (splitName (character :: rest)).2) := by
  rw [readElement_eq]
  split
  · exact absurd rfl (ne_of_extendsName extend (by decide))
  · exact absurd rfl (ne_of_extendsName extend (by decide))
  · exact absurd rfl (ne_of_extendsName extend (by decide))
  · rw [if_neg (by simp [nonempty])]
    split
    · rename_i more shape
      rw [if_neg (by simp [stops more shape]), shape]
    · rfl

/-! ## Whole simple selectors -/

/-- A text is read as a token, no separator, when it stands in front of another text. -/
def ReadsAs (source : Text) (token : SelectorToken) (text : Text) : Prop :=
  ∃ character rest, source = character :: rest ∧ startsSeparator character = false ∧
    readToken character (rest ++ text) = .ok (token, text)

/-- A type or universal selector that begins with a name, by what follows the name. -/
theorem readsAs_of_isName {name tail text : Text} {token : SelectorToken} (isName : IsName name)
    (read : ∀ character rest, name = character :: rest → extendsName character = true →
      readElement character (rest ++ (tail ++ text)) = .ok (token, text)) :
    ReadsAs (name ++ tail) token text := by
  rcases isName.head with ⟨character, rest, rfl, extend⟩
  refine ⟨character, rest ++ tail, rfl, not_startsSeparator_of_extendsName extend, ?_⟩
  rw [readToken_of_extendsName extend, List.append_assoc]
  exact read character rest rfl extend

/-- A name with the bar of a namespace and a local name behind it. -/
theorem readsAs_of_namespace {name tail text : Text} {token : SelectorToken}
    (isName : IsName name) (starts : startsLocalName (tail ++ text) = true)
    (localName :
      readLocalName (name ++ '|' :: (tail ++ text)) name (tail ++ text) = (token, text)) :
    ReadsAs (name ++ '|' :: tail) token text := by
  apply readsAs_of_isName isName
  intro character rest shape extend
  have split : splitName (character :: (rest ++ ('|' :: tail ++ text))) =
      (name, '|' :: tail ++ text) := by
    rw [← List.cons_append, ← shape]
    exact splitName_name isName.units (by simp [extendsName, isNameCharacter, isWordCharacter])
  have nonempty := isName.nonempty
  rw [readElement_name_bar extend (by rwa [split]) (by rw [split]; rfl) starts, split, localName]

/-- A type selector is read up to where it cannot go on. -/
theorem readsAs_element {name text : Text} {space : Option Text} (isName : IsName name)
    (isNamespace : IsNamespace space)
    (stops : Text.Stops (extendsPart (.element name space)) text) :
    ReadsAs (Part.qualified space name) ⟨.element name space, Part.qualified space name⟩ text := by
  cases isNamespace with
  | absent =>
      have stopsName : Text.Stops extendsName text := by
        intro character member
        exact (Bool.or_eq_false_iff.1 (stops character member)).1
      have notBar : ∀ more, text = '|' :: more → startsLocalName more = false := by
        rintro more rfl
        simp [extendsPart] at stops
      rw [← List.append_nil (Part.qualified none name)]
      apply readsAs_of_isName isName
      intro character rest shape extend
      have split : splitName (character :: (rest ++ ([] ++ text))) = (name, text) := by
        rw [← List.cons_append, ← shape]
        exact splitName_name isName.units stopsName
      have nonempty := isName.nonempty
      rw [readElement_name extend (by rwa [split]) (by rwa [split]), split]
      simp [SelectorToken.canonical, Part.text, Part.qualified]
  | empty =>
      refine ⟨'|', name, rfl, by decide, ?_⟩
      rw [readToken_bar, readElement_bar (startsLocalName_of_isName isName text),
        readLocalName_name isName [] stops]
      rfl
  | any =>
      refine ⟨'*', '|' :: name, rfl, by decide, ?_⟩
      rw [readToken_star, List.cons_append,
        readElement_star_bar (startsLocalName_of_isName isName text),
        readLocalName_name isName ['*'] stops]
      rfl
  | @named outer isOuter =>
      exact readsAs_of_namespace isOuter (startsLocalName_of_isName isName text)
        (readLocalName_name isName outer stops)

/-- A universal selector is read up to where it cannot go on. -/
theorem readsAs_universal {text : Text} {space : Option Text} (isNamespace : IsNamespace space)
    (stops : Text.Stops (extendsPart (.universal space)) text) :
    ReadsAs (Part.qualified space ['*']) ⟨.universal space, Part.qualified space ['*']⟩ text := by
  cases isNamespace with
  | absent =>
      have notBar : ∀ more, text = '|' :: more → startsLocalName more = false := by
        rintro more rfl
        simp [extendsPart] at stops
      refine ⟨'*', [], rfl, by decide, ?_⟩
      rw [readToken_star, List.nil_append, readElement_star notBar]
      rfl
  | empty =>
      refine ⟨'|', ['*'], rfl, by decide, ?_⟩
      rw [readToken_bar, readElement_bar rfl]
      exact congrArg Except.ok (readLocalName_star [] text)
  | any =>
      refine ⟨'*', ['|', '*'], rfl, by decide, ?_⟩
      rw [readToken_star, List.cons_append, readElement_star_bar rfl]
      exact congrArg Except.ok (readLocalName_star ['*'] text)
  | @named outer isOuter =>
      exact readsAs_of_namespace isOuter rfl (readLocalName_star outer text)

/-- A name behind a sign is read up to where it cannot go on. -/
theorem readNamed_name {sign : Char} {part : Text → Part} {fault : Fault} {name text : Text}
    (written : ∀ name, (part name).text = sign :: name) (isName : IsName name)
    (stops : Text.Stops extendsName text) :
    readNamed sign part fault (name ++ text) = .ok (.canonical (part name), text) := by
  simp [readNamed_eq written, splitName_name isName.units stops, isName.nonempty]

/-- A name behind colons is read with the argument that may stand directly behind it. -/
theorem readPseudo_called {colons : Text} {part : Text → Option Text → Part} {fault : Fault}
    {name text : Text} {argument : Option Text}
    (written : ∀ name argument, (part name argument).text = colons ++ Part.called name argument)
    (isName : IsName name) (balanced : ∀ inner ∈ argument, Balanced 0 inner)
    (stops : argument = none →
      Text.Stops (fun character => extendsName character || character = '(') text) :
    readPseudo colons part fault (Part.called name argument ++ text) =
      .ok (.canonical (part name argument), text) := by
  cases argument with
  | none =>
      have stopsName : Text.Stops extendsName text := by
        intro character member
        exact (Bool.or_eq_false_iff.1 (stops rfl character member)).1
      simp only [readPseudo_eq written, Part.called, splitName_name isName.units stopsName]
      rw [if_neg (by simp [isName.nonempty])]
      split
      · simp at stops
      · rfl
  | some inner =>
      have shape : Part.called name (some inner) ++ text =
          name ++ '(' :: (inner ++ ')' :: text) := by
        simp [Part.called]
      have stopsName : Text.Stops extendsName ('(' :: (inner ++ ')' :: text)) := by
        simp [extendsName, isNameCharacter, isWordCharacter]
      rw [shape]
      simp only [readPseudo_eq written, splitName_name isName.units stopsName]
      rw [if_neg (by simp [isName.nonempty]), closeArgument_balanced (balanced inner rfl)]

/-! ## What was read -/

/--
A token was read at the start of a text as a simple selector, its content being what was read.  It
takes all that can go on with it, provided that what follows can be read at all.
-/
structure WasRead (token : SelectorToken) (text after : Text) : Prop where
  source : token.content ++ after = text
  simple : Simple token.part token.content
  settled : Settled token.part
  stops : Continues after → Text.Stops (extendsPart token.part) after

theorem wasRead_of_readNamed {sign : Char} {part : Text → Part} {fault : Fault}
    {text after : Text} {token : SelectorToken}
    (read : readNamed sign part fault text = .ok (token, after))
    (written : ∀ name, (part name).text = sign :: name)
    (simple : ∀ name, IsName name → Simple (part name) (sign :: name))
    (settled : ∀ name, Settled (part name))
    (extends_eq : ∀ name, extendsPart (part name) = extendsName) :
    WasRead token (sign :: text) after := by
  rw [readNamed_eq written] at read
  split at read
  · contradiction
  · rename_i filled
    cases read
    have nonempty : (splitName text).1 ≠ [] := by simpa using filled
    constructor
    · simp [SelectorToken.canonical, written]
    · simpa [SelectorToken.canonical, written] using simple _ (isName_splitName nonempty)
    · exact settled _
    · intro continues
      rw [SelectorToken.canonical_part, extends_eq]
      exact stops_splitName continues

theorem wasRead_of_readPseudo {colons : Text} {part : Text → Option Text → Part} {fault : Fault}
    {text after : Text} {token : SelectorToken}
    (read : readPseudo colons part fault text = .ok (token, after))
    (written : ∀ name argument, (part name argument).text = colons ++ Part.called name argument)
    (simple : ∀ name argument, IsName name → (∀ inner ∈ argument, Balanced 0 inner) →
      Simple (part name argument) (colons ++ Part.called name argument))
    (settled : ∀ name argument, Settled (part name argument))
    (extends_none : ∀ name,
      extendsPart (part name none) = fun character => extendsName character || character = '(')
    (extends_some : ∀ name inner, extendsPart (part name (some inner)) = fun _ => false) :
    WasRead token (colons ++ text) after := by
  rw [readPseudo_eq written] at read
  split at read
  · contradiction
  · rename_i filled
    have nonempty : (splitName text).1 ≠ [] := by simpa using filled
    have isName := isName_splitName nonempty
    have append := splitName_append text
    split at read
    · rename_i inner shape
      split at read
      · contradiction
      · contradiction
      · rename_i argument behind closed
        cases read
        have balanced := balanced_of_closeArgument closed
        have argumentAppend := closeArgument_append closed
        constructor
        · rw [shape, ← argumentAppend] at append
          simpa [SelectorToken.canonical, written, Part.called] using append
        · simp only [SelectorToken.canonical, written]
          exact simple _ _ isName (by simpa using balanced)
        · exact settled _ _
        · intro _
          rw [SelectorToken.canonical_part, extends_some]
          intro character member
          rfl
    · rename_i notOpening
      cases read
      constructor
      · simp [SelectorToken.canonical, written, Part.called]
      · simp only [SelectorToken.canonical, written]
        exact simple _ _ isName (by simp)
      · exact settled _ _
      · intro continues
        rw [SelectorToken.canonical_part, extends_none]
        intro character member
        rw [Bool.or_eq_false_iff]
        refine ⟨stops_splitName continues character member, ?_⟩
        cases shape : (splitName text).2 with
        | nil =>
            rw [shape] at member
            cases member
        | cons next more =>
            rw [shape] at member
            cases member
            rw [decide_eq_false_iff_not]
            rintro rfl
            exact notOpening more shape

/-- What is read behind a bar, with the namespace in front of it. -/
theorem wasRead_of_readLocalName {space text after : Text} {token : SelectorToken}
    (isNamespace : IsNamespace (some space)) (starts : startsLocalName text = true)
    (read : readLocalName (space ++ '|' :: text) space text = (token, after)) :
    WasRead token (space ++ '|' :: text) after := by
  rw [readLocalName_eq] at read
  split at read
  · cases read
    constructor
    · simp [SelectorToken.canonical, Part.text, Part.qualified]
    · exact .universal isNamespace
    · trivial
    · intro _ character member
      rfl
  · rename_i notStar
    cases read
    have nonempty : (splitName text).1 ≠ [] := by
      rw [← startsName_iff]
      cases text with
      | nil => simp [startsLocalName, startsName] at starts
      | cons character rest =>
          have notFirst : character ≠ '*' := by
            rintro rfl
            exact notStar rest rfl
          simpa [startsLocalName, notFirst] using starts
    constructor
    · simp [SelectorToken.canonical, Part.text, Part.qualified]
    · exact .element (isName_splitName nonempty) isNamespace
    · trivial
    · intro continues
      exact stops_splitName continues

/-- What does not go on with a bar is not followed by one. -/
theorem ne_bar {text : Text} {character : Char} (continues : Continues text)
    (stops : ∀ rest, text = '|' :: rest → startsLocalName rest = false)
    (member : character ∈ text.head?) : decide (character = '|') = false := by
  cases text with
  | nil => cases member
  | cons first rest =>
      cases member
      rw [decide_eq_false_iff_not]
      rintro rfl
      have starts := continues.bar rest rfl
      rw [stops rest rfl] at starts
      contradiction

/-- A name that does not go on with a bar is a type selector without a namespace. -/
theorem wasRead_of_splitName {text : Text} (isName : IsName (splitName text).1)
    (stops : ∀ more, (splitName text).2 = '|' :: more → startsLocalName more = false) :
    WasRead (.canonical (.element (splitName text).1 none)) text (splitName text).2 := by
  constructor
  · exact splitName_append text
  · exact .element isName .absent
  · trivial
  · intro continues next member
    rw [SelectorToken.canonical_part, extendsPart, Bool.or_eq_false_iff]
    exact ⟨stops_splitName continues next member, ne_bar continues stops member⟩

/-- Whatever is read as a type or universal selector is one. -/
theorem wasRead_of_readElement {character : Char} {rest after : Text} {token : SelectorToken}
    (read : readElement character rest = .ok (token, after)) :
    WasRead token (character :: rest) after := by
  rw [readElement_eq] at read
  split at read
  · split at read
    · rename_i starts
      exact wasRead_of_readLocalName .any starts (Except.ok.inj read)
    · rename_i noLocalName
      cases read
      constructor
      · rfl
      · exact .universal .absent
      · trivial
      · intro continues
        exact absurd (continues.bar _ rfl) noLocalName
  · rename_i noBar
    cases read
    constructor
    · rfl
    · exact .universal .absent
    · trivial
    · intro continues next member
      refine ne_bar continues ?_ member
      intro more shape
      exact absurd shape (noBar more)
  · split at read
    · rename_i starts
      exact wasRead_of_readLocalName .empty starts (Except.ok.inj read)
    · contradiction
  · split at read
    · contradiction
    · rename_i filled
      have nonempty : (splitName (character :: rest)).1 ≠ [] := by simpa using filled
      have append := splitName_append (character :: rest)
      have isName := isName_splitName nonempty
      split at read
      · rename_i more shape
        split at read
        · rename_i starts
          rw [← append, shape]
          exact wasRead_of_readLocalName (.named isName) starts (Except.ok.inj read)
        · rename_i noLocalName
          cases read
          rw [← shape]
          apply wasRead_of_splitName isName
          intro other otherShape
          rw [shape] at otherShape
          cases otherShape
          simpa using noLocalName
      · rename_i noBar
        cases read
        apply wasRead_of_splitName isName
        intro more shape
        exact absurd shape (noBar more)

end CssAuthoring.Selector
