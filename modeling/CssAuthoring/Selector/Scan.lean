import CssAuthoring.Selector.Attribute

/-!
# Scanning selectors

A text is scanned from left to right, one token at a time, by what is left of it.  White space
around a combinator or a comma belongs to it, and white space alone is the descendant combinator.
The content of a token is what was read of the text.

Main statements: `readNamed_eq`, `readPseudo_eq`, `readLocalName_eq` and `readElement_eq`, what was
read of the text is the canonical text of the part; `readToken_suffix` and `readToken_shorter`,
every token takes some of the text and leaves a suffix.
-/

namespace CssAuthoring.Selector

/-- Whether a character is a combinator that is written out. -/
def isCombinatorSymbol (character : Char) : Bool :=
  character = '>' || character = '+' || character = '~'

/-- Whether a character starts a separator: white space, a combinator or a comma. -/
def startsSeparator (character : Char) : Bool :=
  isSpace character || isCombinatorSymbol character || character = ','

/-- The separator at the start of a text, together with the white space around it. -/
def readSeparator (text : Text) : SelectorToken × Text :=
  match skipSpace text with
  | [] => (.combinator ' ', [])
  | character :: rest =>
    if character = ',' then (.comma, skipSpace rest)
    else if isCombinatorSymbol character then (.combinator character, skipSpace rest)
    else (.combinator ' ', character :: rest)

/-- A part that is a name behind its sign, and what follows it. -/
def readNamed (sign : Char) (part : Text → Part) (fault : Fault) (text : Text) :
    Except Culprit (SelectorToken × Text) :=
  let (name, rest) := splitName text
  if name.isEmpty then .error ⟨fault, text⟩
  else .ok (⟨part name, sign :: Text.before text rest⟩, rest)

/--
The name of a pseudo-class or pseudo-element, the argument directly after it, and what follows.
The colons before the name are given for the message about an argument that is not closed.
-/
def readPseudo (colons : Text) (part : Text → Option Text → Part) (fault : Fault) (text : Text) :
    Except Culprit (SelectorToken × Text) :=
  let (name, rest) := splitName text
  if name.isEmpty then .error ⟨fault, text⟩
  else
    match rest with
    | '(' :: inner =>
      match closeArgument 0 inner with
      | .error (.string here) => .error ⟨.unterminatedString, here⟩
      | .error .parenthesis => .error ⟨.unclosedParenthesis (colons ++ name), rest⟩
      | .ok (argument, after) =>
        .ok (⟨part name (some argument), colons ++ Text.before text after⟩, after)
    | _ => .ok (⟨part name none, colons ++ Text.before text rest⟩, rest)

/-- Whether a text starts with a name or with a star. -/
def startsLocalName (text : Text) : Bool :=
  startsName text || text.head? = some '*'

/--
The name or star behind a namespace bar, and what follows it.  The content of the token is what was
read from `start` on, where the namespace begins.
-/
def readLocalName (start space text : Text) : SelectorToken × Text :=
  match text with
  | '*' :: rest => (⟨.universal (some space), Text.before start rest⟩, rest)
  | _ =>
    let (name, rest) := splitName text
    (⟨.element name (some space), Text.before start rest⟩, rest)

/-- A type or universal selector, perhaps with a namespace, and what follows it. -/
def readElement (character : Char) (rest : Text) : Except Culprit (SelectorToken × Text) :=
  let start := character :: rest
  match character, rest with
  | '*', '|' :: more =>
    if startsLocalName more then .ok (readLocalName start ['*'] more)
    else .ok (⟨.universal none, Text.before start rest⟩, rest)
  | '*', _ => .ok (⟨.universal none, Text.before start rest⟩, rest)
  | '|', _ =>
    if startsLocalName rest then .ok (readLocalName start [] rest)
    else .error ⟨.unexpectedCharacter '|', start⟩
  | _, _ =>
    let (name, afterName) := splitName start
    if name.isEmpty then .error ⟨.unexpectedCharacter character, start⟩
    else
      match afterName with
      | '|' :: more =>
        if startsLocalName more then .ok (readLocalName start name more)
        else .ok (⟨.element name none, Text.before start afterName⟩, afterName)
      | _ => .ok (⟨.element name none, Text.before start afterName⟩, afterName)

/-- The token at the start of a text, and what follows it. -/
def readToken (character : Char) (rest : Text) : Except Culprit (SelectorToken × Text) :=
  if startsSeparator character then .ok (readSeparator (character :: rest))
  else
    match character with
    | '#' => readNamed '#' .id .expectedIdName rest
    | '.' => readNamed '.' .className .expectedClassName rest
    | '[' => readAttribute rest
    | ':' =>
      match rest with
      | ':' :: more => readPseudo [':', ':'] .pseudoElement .expectedPseudoElementName more
      | _ => readPseudo [':'] .pseudoClass .expectedPseudoClassName rest
    | _ => readElement character rest

/-! ## Contents -/

/-- A name behind its sign is a token with its canonical text. -/
theorem readNamed_eq {sign : Char} {part : Text → Part}
    (written : ∀ name, (part name).text = sign :: name) (fault : Fault) (text : Text) :
    readNamed sign part fault text =
      if (splitName text).1.isEmpty then .error ⟨fault, text⟩
      else .ok (.canonical (part (splitName text).1), (splitName text).2) := by
  simp [readNamed, SelectorToken.canonical, written]

/-- A name behind its colons is a token with its canonical text, argument included. -/
theorem readPseudo_eq {colons : Text} {part : Text → Option Text → Part}
    (written : ∀ name argument, (part name argument).text = colons ++ Part.called name argument)
    (fault : Fault) (text : Text) :
    readPseudo colons part fault text =
      if (splitName text).1.isEmpty then .error ⟨fault, text⟩
      else
        match (splitName text).2 with
        | '(' :: inner =>
          match closeArgument 0 inner with
          | .error (.string here) => .error ⟨.unterminatedString, here⟩
          | .error .parenthesis =>
            .error ⟨.unclosedParenthesis (colons ++ (splitName text).1), '(' :: inner⟩
          | .ok (argument, after) =>
            .ok (.canonical (part (splitName text).1 (some argument)), after)
        | rest => .ok (.canonical (part (splitName text).1 none), rest) := by
  have whole := splitName_append text
  unfold readPseudo
  dsimp only
  split
  · rfl
  · split
    · rename_i inner opening
      rw [opening] at whole ⊢
      split
      · rfl
      · rfl
      · rename_i argument after closed
        have inside : text = ((splitName text).1 ++ '(' :: argument ++ [')']) ++ after := by
          simp [closeArgument_append closed, whole]
        have content : Text.before text after = Part.called (splitName text).1 (some argument) := by
          rw [Part.called, ← Text.before_left (_ ++ '(' :: argument ++ [')']) after, ← inside]
        simp [SelectorToken.canonical, written, content]
    · simp [SelectorToken.canonical, written, Part.called]

/-- A name or star behind a bar is a token with its canonical text, namespace included. -/
theorem readLocalName_eq (space text : Text) :
    readLocalName (space ++ '|' :: text) space text =
      match text with
      | '*' :: rest => (.canonical (.universal (some space)), rest)
      | _ => (.canonical (.element (splitName text).1 (some space)), (splitName text).2) := by
  have front {rest : Text} (left : rest <:+ text) :
      Text.before (space ++ '|' :: text) rest = space ++ '|' :: Text.before text rest := by
    rw [Text.before_front (left.trans (List.suffix_cons _ _)), ← List.singleton_append,
      Text.before_front left, List.singleton_append]
  unfold readLocalName
  split
  · rename_i rest
    rw [front (List.suffix_cons _ _), show Text.before ('*' :: rest) rest = ['*'] from
      Text.before_left ['*'] rest]
    rfl
  · simp [SelectorToken.canonical, Part.text, Part.qualified, front (splitName_suffix text)]

/-- A type or universal selector is read with its canonical text, the namespace with its bar. -/
theorem readElement_eq (character : Char) (rest : Text) :
    readElement character rest =
      match character, rest with
      | '*', '|' :: more =>
        if startsLocalName more then .ok (readLocalName (['*'] ++ '|' :: more) ['*'] more)
        else .ok (.canonical (.universal none), '|' :: more)
      | '*', rest => .ok (.canonical (.universal none), rest)
      | '|', rest =>
        if startsLocalName rest then .ok (readLocalName ([] ++ '|' :: rest) [] rest)
        else .error ⟨.unexpectedCharacter '|', '|' :: rest⟩
      | character, rest =>
        if (splitName (character :: rest)).1.isEmpty then
          .error ⟨.unexpectedCharacter character, character :: rest⟩
        else
          match (splitName (character :: rest)).2 with
          | '|' :: more =>
            if startsLocalName more then
              .ok (readLocalName ((splitName (character :: rest)).1 ++ '|' :: more)
                (splitName (character :: rest)).1 more)
            else .ok (.canonical (.element (splitName (character :: rest)).1 none), '|' :: more)
          | after => .ok (.canonical (.element (splitName (character :: rest)).1 none), after) := by
  have star (rest : Text) : Text.before ('*' :: rest) rest = ['*'] := Text.before_left ['*'] rest
  have canonical (name : Text) :
      ⟨.element name none, name⟩ = SelectorToken.canonical (.element name none) := rfl
  simp only [readElement]
  split
  · rw [star]
    rfl
  · rw [star]
    rfl
  · rfl
  · have whole := splitName_append (character :: rest)
    have content := before_splitName (character :: rest)
    split
    · rfl
    · split
      · rename_i more shape
        rw [shape] at whole content
        rw [whole, shape, content, canonical]
      · rw [content, canonical]

/-- A colon without a second one behind it is that of a pseudo-class. -/
theorem readToken_colon {rest : Text} (single : rest.head? ≠ some ':') :
    readToken ':' rest = readPseudo [':'] .pseudoClass .expectedPseudoClassName rest := by
  simp only [readToken, if_neg (show ¬ startsSeparator ':' = true by decide)]
  split
  · exact absurd rfl single
  · rfl

/-! ## What is left -/

/-- A reading that succeeds leaves what it says is left. -/
private theorem left_of_ok {reading : SelectorToken × Text} {token : SelectorToken} {after : Text}
    (read : (Except.ok reading : Except Culprit (SelectorToken × Text)) = .ok (token, after)) :
    reading.2 = after :=
  congrArg Prod.snd (Except.ok.inj read)

theorem readSeparator_suffix (text : Text) : (readSeparator text).2 <:+ text := by
  unfold readSeparator
  have space := skipSpace_suffix text
  split
  · exact List.nil_suffix
  · rename_i character rest shape
    rw [shape] at space
    have behind : skipSpace rest <:+ text :=
      (skipSpace_suffix rest).trans ((List.suffix_cons _ _).trans space)
    split
    · exact behind
    · split
      · exact behind
      · exact space

theorem readSeparator_shorter (character : Char) (rest : Text)
    (starts : startsSeparator character = true) :
    (readSeparator (character :: rest)).2.length < (character :: rest).length := by
  have shrink (text : Text) : (skipSpace text).length ≤ text.length :=
    (skipSpace_suffix text).length_le
  unfold readSeparator skipSpace
  rw [List.dropWhile_cons]
  by_cases space : isSpace character = true
  · simp only [space, if_true]
    have here := shrink rest
    unfold skipSpace at here
    split
    · simp
    · rename_i other more shape
      rw [shape] at here
      have behind := shrink more
      unfold skipSpace at behind
      simp only [List.length_cons] at here ⊢
      split
      · simp only; omega
      · split <;> simp only [List.length_cons] <;> omega
  · simp only [space, Bool.false_eq_true, if_false]
    have behind := shrink rest
    unfold skipSpace at behind
    simp only [List.length_cons]
    split
    · simp only; omega
    · rename_i notComma
      split
      · simp only; omega
      · rename_i notSymbol
        simp [startsSeparator, space, notComma, notSymbol] at starts

theorem readNamed_suffix {sign : Char} {part : Text → Part} {fault : Fault} {text after : Text}
    {token : SelectorToken} (read : readNamed sign part fault text = .ok (token, after)) :
    after <:+ text := by
  unfold readNamed at read
  simp only at read
  split at read
  · contradiction
  · cases read
    exact splitName_suffix text

theorem readPseudo_suffix {colons : Text} {part : Text → Option Text → Part} {fault : Fault}
    {text after : Text} {token : SelectorToken}
    (read : readPseudo colons part fault text = .ok (token, after)) : after <:+ text := by
  unfold readPseudo at read
  simp only at read
  have name := splitName_suffix text
  split at read
  · contradiction
  · split at read
    · rename_i inner shape
      rw [shape] at name
      split at read
      · contradiction
      · contradiction
      · rename_i argument behind closed
        cases read
        have argumentSuffix : after <:+ inner :=
          ⟨argument ++ [')'], by simpa using closeArgument_append closed⟩
        exact argumentSuffix.trans ((List.suffix_cons _ _).trans name)
    · cases read
      exact name

theorem readLocalName_suffix (start space text : Text) :
    (readLocalName start space text).2 <:+ text := by
  unfold readLocalName
  split
  · exact List.suffix_cons _ _
  · exact splitName_suffix text

/-- What follows a type or universal selector is a proper suffix of the text. -/
theorem readElement_suffix {character : Char} {rest after : Text} {token : SelectorToken}
    (read : readElement character rest = .ok (token, after)) :
    after <:+ character :: rest ∧ after.length < (character :: rest).length := by
  have behind (character : Char) {rest front : Text} (suffix : rest <:+ front) :
      rest <:+ character :: front ∧ rest.length < (character :: front).length :=
    ⟨suffix.trans (List.suffix_cons _ _), Nat.lt_succ_of_le suffix.length_le⟩
  unfold readElement at read
  split at read
  · split at read
    · rw [← left_of_ok read]
      exact behind '*' ((readLocalName_suffix _ _ _).trans (List.suffix_cons _ _))
    · cases read
      exact behind '*' (List.suffix_refl _)
  · cases read
    exact behind '*' (List.suffix_refl _)
  · split at read
    · rw [← left_of_ok read]
      exact behind '|' (readLocalName_suffix _ _ _)
    · contradiction
  · have name := splitName_suffix (character :: rest)
    have lengths := splitName_length (character :: rest)
    simp only at read
    split at read
    · contradiction
    · rename_i filled
      have positive : 0 < (splitName (character :: rest)).1.length := by
        cases shape : (splitName (character :: rest)).1 <;> simp_all
      have shorter : (splitName (character :: rest)).2.length < (character :: rest).length := by
        omega
      split at read
      · rename_i more shape
        split at read
        · rw [← left_of_ok read]
          rw [shape] at name shorter
          have inner :=
            readLocalName_suffix (character :: rest) (splitName (character :: rest)).1 more
          exact ⟨inner.trans ((List.suffix_cons _ _).trans name),
            Nat.lt_of_le_of_lt (Nat.le_succ_of_le inner.length_le) shorter⟩
        · cases read
          exact ⟨name, shorter⟩
      · cases read
        exact ⟨name, shorter⟩

/-- What follows a token is a proper suffix of the text. -/
theorem readToken_suffix {character : Char} {rest after : Text} {token : SelectorToken}
    (read : readToken character rest = .ok (token, after)) :
    after <:+ character :: rest ∧ after.length < (character :: rest).length := by
  have behind {tail front : Text} (suffix : tail <:+ front) :
      tail <:+ character :: front ∧ tail.length < (character :: front).length :=
    ⟨suffix.trans (List.suffix_cons _ _), Nat.lt_succ_of_le suffix.length_le⟩
  unfold readToken at read
  split at read
  · rename_i starts
    rw [← left_of_ok read]
    exact ⟨readSeparator_suffix _, readSeparator_shorter _ _ starts⟩
  · split at read
    · exact behind (readNamed_suffix read)
    · exact behind (readNamed_suffix read)
    · exact behind (readAttribute_suffix read)
    · split at read
      · exact behind ((readPseudo_suffix read).trans (List.suffix_cons _ _))
      · exact behind (readPseudo_suffix read)
    · exact readElement_suffix read

theorem readToken_shorter {character : Char} {rest after : Text} {token : SelectorToken}
    (read : readToken character rest = .ok (token, after)) : after.length ≤ rest.length :=
  Nat.le_of_lt_succ (readToken_suffix read).2

/-- The tokens of a text, or the first culprit. -/
def scan (text : Text) : Except Culprit (List SelectorToken) :=
  match text with
  | [] => .ok []
  | character :: rest =>
    match read : readToken character rest with
    | .error culprit => .error culprit
    | .ok (token, after) =>
      have := readToken_shorter read
      (scan after).map (token :: ·)
termination_by text.length

end CssAuthoring.Selector
