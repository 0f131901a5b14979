import CssAuthoring.Selector.Cursor

/-!
# Reading tokens at a cursor

One reader for each kind of token.  A reader is given the position at which the token begins, and
returns the token with the position behind it; its content is the slice between the two.  An error
names a position too: the one of the cursor, or the one of the bracket, quote or parenthesis that is
still open.

As for names and strings, reading at the place of a suffix is scanning the suffix.  The equations of
the single readers are put together in `readToken_place`, of which `lt_of_readToken` is a
consequence: a token takes some of the text.
-/

namespace CssAuthoring.Selector

namespace Window

variable (window : Window)

/-! ## Separators and names behind a sign -/

/-- The separator at a position, together with the white space around it, and where it ends. -/
def readSeparator (start : Nat) : SelectorToken × Nat :=
  let position := window.skipSpace start
  match window.peek position with
  | none => (.combinator ' ', position)
  | some character =>
    if character = ',' then (.comma, window.skipSpace (position + 1))
    else if isCombinatorSymbol character then
      (.combinator character, window.skipSpace (position + 1))
    else (.combinator ' ', position)

/-- A part that is a name behind the sign at a position, and where it ends. -/
def readNamed (part : Text → Part) (fault : Fault) (start : Nat) :
    Except Error (SelectorToken × Nat) :=
  let after := window.nameEnd (start + 1)
  let name := window.slice (start + 1) after
  if name.isEmpty then .error (window.error fault after)
  else .ok (⟨part name, window.slice start after⟩, after)

/-- The argument that may stand at a position, and where it ends. -/
def readArgument (owner : Text) (opening : Nat) : Except Error (Option Text × Nat) :=
  if window.peek opening = some '(' then
    match window.argumentEnd owner opening 1 (opening + 1) with
    | .error error => .error error
    | .ok closing => .ok (some (window.slice (opening + 1) closing), closing + 1)
  else .ok (none, opening)

/-- A part that is a name behind the colons between two positions, and where it ends. -/
def readCalled (part : Text → Option Text → Part) (fault : Fault) (start atName : Nat) :
    Except Error (SelectorToken × Nat) :=
  let afterName := window.nameEnd atName
  let name := window.slice atName afterName
  if name.isEmpty then .error (window.error fault afterName)
  else
    match window.readArgument (window.slice start afterName) afterName with
    | .error error => .error error
    | .ok (argument, after) => .ok (⟨part name argument, window.slice start after⟩, after)

/-- The pseudo-class or pseudo-element at a position, and where it ends. -/
def readPseudo (start : Nat) : Except Error (SelectorToken × Nat) :=
  if window.peek (start + 1) = some ':' then
    window.readCalled .pseudoElement .expectedPseudoElementName start (start + 2)
  else window.readCalled .pseudoClass .expectedPseudoClassName start (start + 1)

/-! ## Type and universal selectors -/

/-- Whether a name or a star stands at a position. -/
def startsLocalName (position : Nat) : Bool :=
  window.startsName position || window.peek position = some '*'

/-- The bar at a position with a local name behind it, alone or after a star, and where it ends. -/
def readNamespacePrefix (position : Nat) : Option Text × Nat :=
  if window.peek position = some '*' ∧ window.peek (position + 1) = some '|' ∧
      window.startsLocalName (position + 2) then (some ['*'], position + 2)
  else if window.peek position = some '|' ∧ window.startsLocalName (position + 1) then
    (some [], position + 1)
  else (none, position)

/-- The star or name at a position, with the namespace read before it, and where it ends. -/
def readLocalName (start : Nat) (space : Option Text) (position : Nat) : SelectorToken × Nat :=
  if window.peek position = some '*' then
    (⟨.universal space, window.slice start (position + 1)⟩, position + 1)
  else
    let after := window.nameEnd position
    (⟨.element (window.slice position after) space, window.slice start after⟩, after)

/-- The type or universal selector at a position, perhaps with a namespace, and where it ends. -/
def readTypeOrUniversal (start : Nat) : SelectorToken × Nat :=
  let (space, position) := window.readNamespacePrefix start
  if space = none ∧ window.startsName position then
    let afterName := window.nameEnd position
    let name := window.slice position afterName
    if window.peek afterName = some '|' ∧ window.startsLocalName (afterName + 1) then
      window.readLocalName start (some name) (afterName + 1)
    else (⟨.element name none, window.slice start afterName⟩, afterName)
  else window.readLocalName start space position

/-- The type or universal selector that has to stand at a position with a character. -/
def readElement (character : Char) (start : Nat) : Except Error (SelectorToken × Nat) :=
  if character = '*' ∨ character = '|' ∨ window.startsName start then
    let (token, after) := window.readTypeOrUniversal start
    if after = start then .error (window.error (.unexpectedCharacter character) start)
    else .ok (token, after)
  else .error (window.error (.unexpectedCharacter character) start)

/-! ## Attribute selectors -/

/-- The bar at a position with a name behind it, alone or after a star, and where that begins. -/
def readAttributePrefix (position : Nat) : Option Text × Nat :=
  if window.peek position = some '*' ∧ window.peek (position + 1) = some '|' ∧
      window.startsName (position + 2) then (some ['*'], position + 2)
  else if window.peek position = some '|' ∧ window.startsName (position + 1) then
    (some [], position + 1)
  else (none, position)

/-- The name of an attribute with its namespace, and where it ends. -/
def readAttributeName (position : Nat) : Except Error ((Option Text × Text) × Nat) :=
  let (space, atName) := window.readAttributePrefix position
  let afterName := window.nameEnd atName
  let name := window.slice atName afterName
  if name.isEmpty then .error (window.error .expectedAttributeName afterName)
  else if space = none ∧ window.peek afterName = some '|' ∧
      window.startsName (afterName + 1) then
    let after := window.nameEnd (afterName + 1)
    .ok ((some name, window.slice (afterName + 1) after), after)
  else .ok ((space, name), afterName)

/-- The operator at a position of the attribute selector that begins at `start`. -/
def readOperator (start position : Nat) : Except Error (Text × Nat) :=
  match window.peek position with
  | none => .error (window.error .unterminatedAttribute start)
  | some character =>
    if character = '=' then .ok (['='], position + 1)
    else if !isWordCharacter character ∧ window.peek (position + 1) = some '=' then
      .ok ([character, '='], position + 2)
    else if isWordCharacter character then
      .error (window.error (.unexpectedCharacter character) position)
    else .error (window.error (.invalidAttributeOperator character) position)

/--
The operator, value and case letter of the attribute selector that begins at `start`, read on from a
position, and where the selector ends behind its closing bracket.
-/
def readCondition (start position : Nat) :
    Except Error ((Option Text × Option Text × Option Text) × Nat) :=
  if window.peek position = some ']' then .ok ((none, none, none), position + 1)
  else
    match window.readOperator start position with
    | .error error => .error error
    | .ok (operator, afterOperator) =>
      let atValue := window.skipSpace afterOperator
      match window.valueEnd atValue with
      | .error error => .error error
      | .ok bracket =>
        if window.length ≤ bracket then .error (window.error .unterminatedAttribute start)
        else
          let (value, caseFlag) := splitCaseFlag (window.slice atValue bracket)
          if value.isEmpty then .error (window.error .expectedAttributeValue atValue)
          else .ok ((some operator, some value, caseFlag), bracket + 1)

/-- The attribute selector at a position, and where it ends. -/
def readAttribute (start : Nat) : Except Error (SelectorToken × Nat) :=
  match window.readAttributeName (window.skipSpace (start + 1)) with
  | .error error => .error error
  | .ok ((space, name), afterName) =>
    match window.readCondition start (window.skipSpace afterName) with
    | .error error => .error error
    | .ok ((operator, value, caseFlag), after) =>
      .ok (⟨.attribute name space operator value caseFlag, window.slice start after⟩, after)

/-! ## Whole selectors -/

/-- The token at a position with a character, and where it ends. -/
def readToken (character : Char) (start : Nat) : Except Error (SelectorToken × Nat) :=
  if startsSeparator character then .ok (window.readSeparator start)
  else
    match character with
    | '#' => window.readNamed .id .expectedIdName start
    | '.' => window.readNamed .className .expectedClassName start
    | '[' => window.readAttribute start
    | ':' => window.readPseudo start
    | _ => window.readElement character start

/-! ## Reading at the place of a suffix -/

variable {window}

theorem slice_nameEnd {here : Text} (left : here <:+ window.text) :
    window.slice (window.place here) (window.place (splitName here).2) = (splitName here).1 := by
  rw [slice_place left (splitName_suffix here), before_splitName]

theorem splitName_eq_nil {text : Text} (nothing : (splitName text).1 = []) :
    (splitName text).2 = text := by
  have whole := splitName_append text
  rwa [nothing] at whole

theorem readSeparator_place {here : Text} (left : here <:+ window.text) :
    window.readSeparator (window.place here) =
      ((Selector.readSeparator here).1, window.place (Selector.readSeparator here).2) := by
  have space := skipSpace_suffix here
  rw [readSeparator, Selector.readSeparator, skipSpace_place left, peek_place (space.trans left)]
  cases shape : Selector.skipSpace here with
  | nil => rfl
  | cons character rest =>
    rw [shape] at space
    have behind := space.trans left
    simp only [List.head?_cons, place_cons behind, skipSpace_place (suffix_tail behind)]
    split
    · rfl
    · split <;> rfl

theorem readNamed_place (sign : Char) (part : Text → Part) (fault : Fault) {rest : Text}
    (left : sign :: rest <:+ window.text) :
    window.readNamed part fault (window.place (sign :: rest)) =
      window.located (Selector.readNamed sign part fault rest) := by
  have behind := suffix_tail left
  have name := splitName_suffix rest
  have content : window.slice (window.place (sign :: rest)) (window.place (splitName rest).2) =
      sign :: Text.before rest (splitName rest).2 := by
    rw [slice_place left (name.trans (List.suffix_cons _ _))]
    exact Text.before_front name [sign]
  simp only [readNamed, Selector.readNamed, place_cons left, nameEnd_place behind,
    slice_nameEnd behind, content]
  split
  · rename_i empty
    rw [splitName_eq_nil (List.isEmpty_iff.1 empty)]
    rfl
  · rfl

theorem readArgument_opening (owner : Text) {inner : Text} (left : '(' :: inner <:+ window.text) :
    window.readArgument owner (window.place ('(' :: inner)) =
      window.located (match closeArgument 0 inner with
        | .error (.string here) => .error ⟨.unterminatedString, here⟩
        | .error .parenthesis => .error ⟨.unclosedParenthesis owner, '(' :: inner⟩
        | .ok (argument, after) => .ok (some argument, after)) := by
  have behind := suffix_tail left
  rw [readArgument, peek_place left, List.head?_cons, if_pos rfl, place_cons left,
    argumentEnd_place _ _ 0 behind]
  cases closed : closeArgument 0 inner with
  | error cause => cases cause <;> rfl
  | ok reading =>
    rcases reading with ⟨argument, after⟩
    have whole := closeArgument_append closed
    have closing : ')' :: after <:+ inner := ⟨argument, whole⟩
    have content : window.slice (window.place inner) (window.place (')' :: after)) = argument := by
      rw [slice_place behind closing, ← whole, Text.before_left]
    simp only [closedArgument, content, place_cons (closing.trans behind), located]

theorem readArgument_absent (owner : Text) {here : Text} (left : here <:+ window.text)
    (noOpening : ∀ inner, here = '(' :: inner → False) :
    window.readArgument owner (window.place here) = .ok (none, window.place here) := by
  have notThere : here.head? ≠ some '(' := by
    intro opening
    rcases List.head?_eq_some_iff.1 opening with ⟨inner, shape⟩
    exact noOpening inner shape
  rw [readArgument, peek_place left, if_neg notThere]

theorem readCalled_place (colons : Text) (part : Text → Option Text → Part) (fault : Fault)
    {text : Text} (left : colons ++ text <:+ window.text) :
    window.readCalled part fault (window.place (colons ++ text)) (window.place text) =
      window.located (Selector.readPseudo colons part fault text) := by
  have behind : text <:+ window.text := (List.suffix_append _ _).trans left
  have name := splitName_suffix text
  have content {after : Text} (suffix : after <:+ text) :
      window.slice (window.place (colons ++ text)) (window.place after) =
        colons ++ Text.before text after := by
    rw [slice_place left (suffix.trans (List.suffix_append _ _)), Text.before_front suffix]
  unfold readCalled Selector.readPseudo
  simp only [nameEnd_place behind, slice_nameEnd behind, content name, before_splitName]
  split
  · rename_i empty
    rw [splitName_eq_nil (List.isEmpty_iff.1 empty)]
    rfl
  · by_cases opens : ∃ inner, (splitName text).2 = '(' :: inner
    · rcases opens with ⟨inner, opening⟩
      rw [opening] at name
      rw [opening, readArgument_opening _ (name.trans behind)]
      cases closed : closeArgument 0 inner with
      | error cause => cases cause <;> simp [closed, located]
      | ok reading =>
        rcases reading with ⟨argument, after⟩
        have whole := closeArgument_append closed
        have suffix : after <:+ inner := ⟨argument ++ [')'], by simpa using whole⟩
        simp [closed, located, content ((suffix.trans (List.suffix_cons _ _)).trans name)]
    · have noOpening (inner : Text) (opening : (splitName text).2 = '(' :: inner) : False :=
        opens ⟨inner, opening⟩
      simp only [readArgument_absent _ (name.trans behind) noOpening, content name,
        before_splitName, located]

theorem readPseudo_place {rest : Text} (left : ':' :: rest <:+ window.text) :
    window.readPseudo (window.place (':' :: rest)) =
      window.located (Selector.readToken ':' rest) := by
  have behind := suffix_tail left
  rw [readPseudo, place_cons left, peek_place behind]
  split
  · rename_i double
    rcases List.head?_eq_some_iff.1 double with ⟨more, rfl⟩
    rw [← Nat.add_assoc _ 1 1, place_cons left, place_cons behind]
    exact readCalled_place [':', ':'] _ _ left
  · rename_i single
    rw [Selector.readToken_colon single]
    exact readCalled_place [':'] _ _ left

theorem startsLocalName_place {here : Text} (left : here <:+ window.text) :
    window.startsLocalName (window.place here) = Selector.startsLocalName here := by
  rw [startsLocalName, startsName_place left, peek_place left, Selector.startsLocalName]

/-- A reading that takes some of the text ends behind where it began. -/
theorem place_ne {here after : Text} (left : here <:+ window.text)
    (shorter : after.length < here.length) : window.place after ≠ window.place here := by
  have bound := left.length_le
  rw [length_text] at bound
  unfold place
  omega

theorem readLocalName_place (space : Text) {start here : Text} (left : start <:+ window.text)
    (suffix : here <:+ start) :
    window.readLocalName (window.place start) (some space) (window.place here) =
      ((Selector.readLocalName start space here).1,
        window.place (Selector.readLocalName start space here).2) := by
  have behind := suffix.trans left
  unfold readLocalName
  rw [peek_place behind]
  split
  · rename_i star
    rcases List.head?_eq_some_iff.1 star with ⟨rest, rfl⟩
    rw [place_cons behind, slice_place left ((List.suffix_cons _ _).trans suffix)]
    rfl
  · rename_i noStar
    have plain : Selector.readLocalName start space here =
        (⟨.element (splitName here).1 (some space), Text.before start (splitName here).2⟩,
          (splitName here).2) := by
      unfold Selector.readLocalName
      split
      · exact absurd rfl noStar
      · rfl
    simp only [plain, nameEnd_place behind, slice_nameEnd behind,
      slice_place left ((splitName_suffix here).trans suffix)]

/-- A bar with a local name behind it comes after the star or the nothing in front of it. -/
theorem readTypeOrUniversal_bar {front more : Text} (isFront : front = ['*'] ∨ front = [])
    (left : front ++ '|' :: more <:+ window.text)
    (starts : Selector.startsLocalName more = true) :
    window.readTypeOrUniversal (window.place (front ++ '|' :: more)) =
      ((Selector.readLocalName (front ++ '|' :: more) front more).1,
        window.place (Selector.readLocalName (front ++ '|' :: more) front more).2) := by
  have atBar : '|' :: more <:+ window.text := (List.suffix_append _ _).trans left
  have local_ := startsLocalName_place (suffix_tail atBar)
  have isPrefix : window.readNamespacePrefix (window.place (front ++ '|' :: more)) =
      (some front, window.place more) := by
    rw [readNamespacePrefix, peek_place left]
    rcases isFront with rfl | rfl
    · rw [List.singleton_append] at left ⊢
      rw [← Nat.add_assoc _ 1 1, place_cons left, place_cons atBar, peek_place atBar, local_]
      simp [starts]
    · rw [List.nil_append, place_cons atBar, local_]
      simp [starts]
  rw [readTypeOrUniversal, isPrefix]
  simp only [reduceCtorEq, false_and, if_false]
  exact readLocalName_place front left ((List.suffix_cons _ _).trans (List.suffix_append _ _))

/-- A star without a bar and local name behind it is read alone. -/
theorem readTypeOrUniversal_star {rest : Text} (left : '*' :: rest <:+ window.text)
    (alone : ∀ more, rest = '|' :: more → Selector.startsLocalName more = false) :
    window.readTypeOrUniversal (window.place ('*' :: rest)) =
      (⟨.universal none, Text.before ('*' :: rest) rest⟩, window.place rest) := by
  have behind := suffix_tail left
  have head := peek_place left
  have noPrefix : window.readNamespacePrefix (window.place ('*' :: rest)) =
      (none, window.place ('*' :: rest)) := by
    rw [readNamespacePrefix, head, place_cons left, peek_place behind, if_neg, if_neg (by simp)]
    rintro ⟨_, bar, starts⟩
    rcases List.head?_eq_some_iff.1 bar with ⟨more, rfl⟩
    rw [← Nat.add_assoc _ 1 1, place_cons left, place_cons behind,
      startsLocalName_place (suffix_tail behind), alone more rfl] at starts
    contradiction
  have noName : window.startsName (window.place ('*' :: rest)) = false := by
    rw [startsName_place left]
    rfl
  simp [readTypeOrUniversal, noPrefix, noName, readLocalName, head, place_cons left,
    slice_place left (List.suffix_cons _ _)]

section

variable {character : Char} {rest : Text} (left : character :: rest <:+ window.text)

include left in
/-- Only a star or a bar begins a namespace that is no name. -/
theorem readNamespacePrefix_absent (noStar : character ≠ '*')
    (noBar : character = '|' → Selector.startsLocalName rest = false) :
    window.readNamespacePrefix (window.place (character :: rest)) =
      (none, window.place (character :: rest)) := by
  rw [readNamespacePrefix, peek_place left, place_cons left,
    startsLocalName_place (suffix_tail left), if_neg (by simp [noStar]), if_neg]
  rintro ⟨bar, starts⟩
  rw [noBar (Option.some.inj bar)] at starts
  contradiction

include left in
/-- A name with a bar and a local name behind it is the namespace of what is read there. -/
theorem readTypeOrUniversal_namespace (noStar : character ≠ '*') (noBar : character ≠ '|')
    (named : Selector.startsName (character :: rest) = true) {more : Text}
    (shape : (splitName (character :: rest)).2 = '|' :: more)
    (starts : Selector.startsLocalName more = true) :
    window.readTypeOrUniversal (window.place (character :: rest)) =
      let reading :=
        Selector.readLocalName (character :: rest) (splitName (character :: rest)).1 more
      (reading.1, window.place reading.2) := by
  have name := splitName_suffix (character :: rest)
  rw [shape] at name
  have atBar := name.trans left
  have noPrefix := readNamespacePrefix_absent left noStar fun bar => absurd bar noBar
  rw [readTypeOrUniversal, noPrefix]
  simp only [startsName_place left, named, and_self, if_true, nameEnd_place left,
    slice_nameEnd left]
  rw [shape, peek_place atBar, place_cons atBar, startsLocalName_place (suffix_tail atBar), starts]
  simp only [List.head?_cons, and_self, if_true]
  exact readLocalName_place _ left ((List.suffix_cons _ _).trans name)

include left in
/-- A name without a bar and local name behind it is a type selector. -/
theorem readTypeOrUniversal_name (noStar : character ≠ '*') (noBar : character ≠ '|')
    (named : Selector.startsName (character :: rest) = true)
    (alone : ∀ more, (splitName (character :: rest)).2 = '|' :: more →
      Selector.startsLocalName more = false) :
    window.readTypeOrUniversal (window.place (character :: rest)) =
      (⟨.element (splitName (character :: rest)).1 none,
        Text.before (character :: rest) (splitName (character :: rest)).2⟩,
        window.place (splitName (character :: rest)).2) := by
  have name := splitName_suffix (character :: rest)
  have noPrefix := readNamespacePrefix_absent left noStar fun bar => absurd bar noBar
  rw [readTypeOrUniversal, noPrefix]
  simp only [startsName_place left, named, and_self, if_true, nameEnd_place left,
    slice_nameEnd left, peek_place (name.trans left)]
  rw [if_neg, before_splitName]
  rintro ⟨bar, starts⟩
  rcases List.head?_eq_some_iff.1 bar with ⟨more, shape⟩
  rw [shape] at name starts
  have atBar := name.trans left
  rw [place_cons atBar, startsLocalName_place (suffix_tail atBar), alone more shape] at starts
  contradiction

end

theorem readElement_place {character : Char} {rest : Text}
    (left : character :: rest <:+ window.text) :
    window.readElement character (window.place (character :: rest)) =
      window.located (Selector.readElement character rest) := by
  have checked {token : SelectorToken} {after : Text}
      (starts : character = '*' ∨ character = '|' ∨
        window.startsName (window.place (character :: rest)) = true)
      (read : window.readTypeOrUniversal (window.place (character :: rest)) =
        (token, window.place after))
      (shorter : after.length < (character :: rest).length) :
      window.readElement character (window.place (character :: rest)) =
        .ok (token, window.place after) := by
    rw [readElement, if_pos starts, read]
    exact if_neg (place_ne left shorter)
  simp only [Selector.readElement]
  split
  · rename_i more
    have suffix {after : Text} (suffix : after <:+ more) :
        after.length < ('*' :: '|' :: more).length := by
      have := suffix.length_le
      simp only [List.length_cons]
      omega
    split
    · rename_i starts
      exact checked (.inl rfl) (readTypeOrUniversal_bar (.inl rfl) left starts)
        (suffix (readLocalName_suffix _ _ _))
    · rename_i noLocalName
      refine checked (.inl rfl) (readTypeOrUniversal_star left ?_) (Nat.lt_succ_self _)
      rintro other ⟨⟩
      simpa using noLocalName
  · rename_i noBar
    refine checked (.inl rfl) (readTypeOrUniversal_star left ?_) (Nat.lt_succ_self _)
    intro more shape
    exact (noBar more shape).elim
  · split
    · rename_i starts
      exact checked (.inr (.inl rfl)) (readTypeOrUniversal_bar (.inr rfl) left starts)
        (Nat.lt_succ_of_le (readLocalName_suffix _ _ _).length_le)
    · rename_i noLocalName
      have noPrefix := readNamespacePrefix_absent left (by decide) fun _ => by
        simpa using noLocalName
      have noName : window.startsName (window.place ('|' :: rest)) = false := by
        rw [startsName_place left]
        rfl
      have nothing : window.nameEnd (window.place ('|' :: rest)) = window.place ('|' :: rest) := by
        rw [nameEnd_place left]
        rfl
      simp [readElement, readTypeOrUniversal, noPrefix, noName, readLocalName, peek_place left,
        nothing, located]
  · rename_i noStar noBar _
    have noStar : character ≠ '*' := noStar
    have noBar : character ≠ '|' := noBar
    split
    · rename_i empty
      have noName : window.startsName (window.place (character :: rest)) = false := by
        rw [startsName_place left, Bool.eq_false_iff, Ne, startsName_iff]
        exact fun filled => filled (List.isEmpty_iff.1 empty)
      rw [readElement, if_neg (by simp [noStar, noBar, noName])]
      rfl
    · rename_i filled
      have named : Selector.startsName (character :: rest) = true :=
        (startsName_iff _).2 fun nothing => filled (List.isEmpty_iff.2 nothing)
      have starts : window.startsName (window.place (character :: rest)) = true :=
        (startsName_place left).trans named
      have lengths := splitName_length (character :: rest)
      have positive : 0 < (splitName (character :: rest)).1.length :=
        List.length_pos_iff.2 ((startsName_iff _).1 named)
      have shorter : (splitName (character :: rest)).2.length < (character :: rest).length := by
        omega
      split
      · rename_i more shape
        split
        · rename_i startsLocal
          refine checked (.inr (.inr starts))
            (readTypeOrUniversal_namespace left noStar noBar named shape startsLocal) ?_
          rw [shape] at shorter
          exact Nat.lt_of_le_of_lt (readLocalName_suffix _ _ more).length_le
            (Nat.lt_of_succ_lt shorter)
        · rename_i noLocalName
          refine checked (.inr (.inr starts))
            (readTypeOrUniversal_name left noStar noBar named ?_) shorter
          intro other otherShape
          rw [shape] at otherShape
          cases otherShape
          simpa using noLocalName
      · rename_i alone
        refine checked (.inr (.inr starts))
          (readTypeOrUniversal_name left noStar noBar named ?_) shorter
        intro more shape
        exact (alone more shape).elim

theorem readAttributePrefix_place {here : Text} (left : here <:+ window.text) :
    window.readAttributePrefix (window.place here) =
      ((splitBar here).1, window.place (splitBar here).2) := by
  rw [readAttributePrefix, peek_place left]
  fun_cases splitBar here with
  | case1 rest starts =>
    have atBar := suffix_tail left
    have behind := suffix_tail atBar
    rw [← Nat.add_assoc _ 1 1, place_cons left, place_cons atBar, peek_place atBar,
      startsName_place behind, starts]
    rfl
  | case2 rest noName =>
    have atBar := suffix_tail left
    have behind := suffix_tail atBar
    rw [← Nat.add_assoc _ 1 1, place_cons left, place_cons atBar, peek_place atBar,
      startsName_place behind]
    simp [noName]
  | case3 rest starts =>
    rw [place_cons left, startsName_place (suffix_tail left), starts]
    rfl
  | case4 rest noName =>
    rw [place_cons left, startsName_place (suffix_tail left)]
    simp [noName]
  | case5 _ noStarBar noBar =>
    rw [if_neg, if_neg]
    · rintro ⟨bar, _⟩
      rcases List.head?_eq_some_iff.1 bar with ⟨rest, shape⟩
      exact noBar rest shape
    · rintro ⟨star, bar, _⟩
      rcases List.head?_eq_some_iff.1 star with ⟨more, rfl⟩
      rw [place_cons left, peek_place (suffix_tail left)] at bar
      rcases List.head?_eq_some_iff.1 bar with ⟨rest, rfl⟩
      exact noStarBar rest rfl

/-- Where the name of an attribute is missing, nothing of it was read. -/
theorem splitQualifiedName_of_isEmpty {text : Text}
    (empty : (splitName (splitBar text).2).1.isEmpty = true) :
    splitBar text = (none, text) ∧ splitQualifiedName text = ((none, []), text) := by
  have noName := mt (startsName_iff (splitBar text).2).1 (not_not_intro (List.isEmpty_iff.1 empty))
  have noBar : splitBar text = (none, text) := by
    fun_cases splitBar text <;> simp_all [splitBar]
  rw [noBar] at empty
  have nothing : splitName text = ([], text) :=
    Prod.ext (List.isEmpty_iff.1 empty) (splitName_eq_nil (List.isEmpty_iff.1 empty))
  refine ⟨noBar, ?_⟩
  simp only [splitQualifiedName, noBar, nothing]
  split
  · rename_i rest _
    have noSecond : Selector.startsName rest ≠ true := by
      intro starts
      simp [splitBar, starts] at noBar
    rw [if_neg noSecond]
  · rfl

/-- The name of an attribute is one behind a namespace that is a name, or the one read first. -/
theorem splitQualifiedName_eq (text : Text) :
    splitQualifiedName text =
      if (splitBar text).1 = none ∧ (splitName (splitBar text).2).2.head? = some '|' ∧
          Selector.startsName (splitName (splitBar text).2).2.tail then
        ((some (splitName (splitBar text).2).1,
          (splitName (splitName (splitBar text).2).2.tail).1),
          (splitName (splitName (splitBar text).2).2.tail).2)
      else (((splitBar text).1, (splitName (splitBar text).2).1),
        (splitName (splitBar text).2).2) := by
  unfold splitQualifiedName
  dsimp only
  split
  · rename_i rest absent shape
    simp [absent, shape]
  · rename_i noBar
    rw [if_neg]
    rintro ⟨absent, bar, _⟩
    rcases List.head?_eq_some_iff.1 bar with ⟨rest, shape⟩
    exact noBar rest absent shape

theorem readAttributeName_place {here : Text} (left : here <:+ window.text) :
    window.readAttributeName (window.place here) =
      if (splitQualifiedName here).1.2.isEmpty then
        .error (window.error .expectedAttributeName (window.place here))
      else .ok ((splitQualifiedName here).1, window.place (splitQualifiedName here).2) := by
  have atName : (splitBar here).2 <:+ window.text := (splitBar_suffix here).trans left
  have afterName := (splitName_suffix (splitBar here).2).trans atName
  simp only [readAttributeName, readAttributePrefix_place left, nameEnd_place atName,
    slice_nameEnd atName, peek_place afterName]
  by_cases empty : (splitName (splitBar here).2).1.isEmpty = true
  · rcases splitQualifiedName_of_isEmpty empty with ⟨noBar, qualified⟩
    rw [noBar] at empty
    have whole := splitName_eq_nil (List.isEmpty_iff.1 empty)
    simp [noBar, empty, whole, qualified]
  · rw [if_neg empty, splitQualifiedName_eq]
    by_cases bar : (splitName (splitBar here).2).2.head? = some '|'
    · rcases List.head?_eq_some_iff.1 bar with ⟨rest, shape⟩
      rw [shape] at afterName
      have behind := suffix_tail afterName
      simp only [shape, List.head?_cons, List.tail_cons, place_cons afterName,
        startsName_place behind, nameEnd_place behind, slice_nameEnd behind, true_and]
      split
      · rename_i second
        have filled := (startsName_iff rest).1 second.2
        rw [if_neg (by simpa using filled)]
      · rfl
    · simp only [bar, false_and, and_false, if_false]
      exact (if_neg empty).symm

theorem readOperator_place (start : Nat) {here : Text} (left : here <:+ window.text) :
    window.readOperator start (window.place here) =
      match splitOperator here with
      | .error .unterminatedAttribute => .error (window.error .unterminatedAttribute start)
      | .error fault => .error (window.error fault (window.place here))
      | .ok (operator, after) => .ok (operator, window.place after) := by
  rw [readOperator, peek_place left]
  fun_cases splitOperator here with
  | case1 => rfl
  | case2 rest => simp [place_cons left]
  | case3 character rest notEqual isWord =>
    have notEqual : character ≠ '=' := notEqual
    simp [notEqual, isWord]
  | case4 character notEqual notWord after =>
    have notEqual : character ≠ '=' := notEqual
    have atEqual := suffix_tail left
    rw [← Nat.add_assoc _ 1 1, place_cons left, place_cons atEqual, peek_place atEqual]
    simp [notEqual, notWord]
  | case5 character rest notEqual notWord noEqual =>
    have notEqual : character ≠ '=' := notEqual
    have notThere : rest.head? ≠ some '=' := by
      intro equal
      rcases List.head?_eq_some_iff.1 equal with ⟨after, shape⟩
      exact noEqual after shape
    rw [place_cons left, peek_place (suffix_tail left)]
    simp [notEqual, notWord, notThere]

/-- What is left of a value begins with its bracket. -/
theorem exists_bracket_of_splitValue {text value after : Text}
    (split : splitValue text = .ok (value, after)) : ∃ rest, after = ']' :: rest := by
  fun_induction splitValue text generalizing value after with
  | case1 => contradiction
  | case2 rest =>
    cases split
    exact ⟨rest, rfl⟩
  | case3 => contradiction
  | case4 _ _ _ _ _ _ _ _ hypothesis =>
    rcases of_map_prepend split with ⟨back, found, rfl⟩
    exact hypothesis found
  | case5 _ _ _ _ hypothesis =>
    rcases of_map_prepend split with ⟨back, found, rfl⟩
    exact hypothesis found

theorem readCondition_place (start : Text) {here : Text} (left : here <:+ window.text) :
    window.readCondition (window.place start) (window.place here) =
      window.located (Selector.readCondition start here) := by
  by_cases bracket : here.head? = some ']'
  · rcases List.head?_eq_some_iff.1 bracket with ⟨rest, rfl⟩
    rw [readCondition, peek_place left, if_pos bracket, place_cons left]
    rfl
  · have conditional : Selector.readCondition start here =
        match splitOperator here with
        | .error .unterminatedAttribute => .error ⟨.unterminatedAttribute, start⟩
        | .error fault => .error ⟨fault, here⟩
        | .ok (operator, afterOperator) =>
          match splitValue (Selector.skipSpace afterOperator) with
          | .error (.string here) => .error ⟨.unterminatedString, here⟩
          | .error .parenthesis => .error ⟨.unterminatedAttribute, start⟩
          | .ok (written, atBracket) =>
            if (splitCaseFlag written).1.isEmpty then
              .error ⟨.expectedAttributeValue, Selector.skipSpace afterOperator⟩
            else .ok ((some operator, some (splitCaseFlag written).1, (splitCaseFlag written).2),
              atBracket.drop 1) := by
      unfold Selector.readCondition
      split
      · exact absurd rfl bracket
      · rfl
    rw [readCondition, peek_place left, if_neg bracket, readOperator_place _ left, conditional]
    cases operation : splitOperator here with
    | error fault => cases fault <;> rfl
    | ok reading =>
      rcases reading with ⟨operator, afterOperator⟩
      have behind := (splitOperator_suffix operation).trans left
      have atValue := (skipSpace_suffix afterOperator).trans behind
      simp only [skipSpace_place behind, valueEnd_place atValue]
      cases valued : splitValue (Selector.skipSpace afterOperator) with
      | error cause =>
        cases cause with
        | string here => rfl
        | parenthesis => simp [closedValue, located]
      | ok reading =>
        rcases reading with ⟨written, atBracket⟩
        rcases exists_bracket_of_splitValue valued with ⟨rest, rfl⟩
        have whole := splitValue_append valued
        have suffix : ']' :: rest <:+ Selector.skipSpace afterOperator := ⟨written, whole⟩
        have inside := lt_length_of_peek (peek_place (suffix.trans atValue))
        have content : window.slice (window.place (Selector.skipSpace afterOperator))
            (window.place (']' :: rest)) = written := by
          rw [slice_place atValue suffix, ← whole, Text.before_left]
        simp only [closedValue, Nat.not_le_of_lt inside, if_false, content,
          place_cons (suffix.trans atValue)]
        split <;> rfl

theorem readAttribute_place {rest : Text} (left : '[' :: rest <:+ window.text) :
    window.readAttribute (window.place ('[' :: rest)) =
      window.located (Selector.readAttribute rest) := by
  have behind := suffix_tail left
  have atName := (skipSpace_suffix rest).trans behind
  have afterName := (splitQualifiedName_suffix (Selector.skipSpace rest)).trans atName
  have atCondition := (skipSpace_suffix _).trans afterName
  simp only [readAttribute, Selector.readAttribute, place_cons left, skipSpace_place behind,
    readAttributeName_place atName]
  by_cases empty : (splitQualifiedName (Selector.skipSpace rest)).1.2.isEmpty = true
  · rw [if_pos empty, if_pos empty]
    rfl
  · rw [if_neg empty, if_neg empty]
    simp only [skipSpace_place afterName, readCondition_place ('[' :: rest) atCondition]
    cases conditional : Selector.readCondition ('[' :: rest)
        (Selector.skipSpace (splitQualifiedName (Selector.skipSpace rest)).2) with
    | error culprit => rfl
    | ok reading =>
      rcases reading with ⟨⟨operator, value, caseFlag⟩, after⟩
      have suffix : after <:+ rest := (readCondition_suffix conditional).trans
        ((skipSpace_suffix _).trans ((splitQualifiedName_suffix _).trans (skipSpace_suffix rest)))
      have content : window.slice (window.place ('[' :: rest)) (window.place after) =
          '[' :: Text.before rest after := by
        rw [slice_place left (suffix.trans (List.suffix_cons _ _))]
        exact Text.before_front suffix ['[']
      simp only [located, content]

/-- Reading a token in place is reading it at the start of what is left. -/
theorem readToken_place {character : Char} {rest : Text}
    (left : character :: rest <:+ window.text) :
    window.readToken character (window.place (character :: rest)) =
      window.located (Selector.readToken character rest) := by
  unfold readToken
  split
  · rename_i separates
    unfold Selector.readToken
    rw [if_pos separates, readSeparator_place left]
    rfl
  · rename_i noSeparator
    split
    · exact readNamed_place '#' _ _ left
    · exact readNamed_place '.' _ _ left
    · exact readAttribute_place left
    · exact readPseudo_place left
    · rename_i notId notClass notBracket notColon
      rw [readElement_place left]
      unfold Selector.readToken
      rw [if_neg noSeparator]
      split <;> first | contradiction | rfl

/-- A token that is read takes some of the text. -/
theorem lt_of_readToken {character : Char} {start after : Nat} {token : SelectorToken}
    (found : window.peek start = some character)
    (read : window.readToken character start = .ok (token, after)) :
    start < after ∧ start < window.length := by
  rcases exists_place found with ⟨rest, left, rfl⟩
  have bound := left.length_le
  rw [readToken_place left] at read
  cases scanned : Selector.readToken character rest with
  | error culprit => simp [scanned, located] at read
  | ok reading =>
    rcases reading with ⟨other, behind⟩
    simp only [scanned, located, Except.ok.injEq, Prod.mk.injEq] at read
    rcases read with ⟨rfl, rfl⟩
    have shorter := (readToken_suffix scanned).2
    rw [length_text] at bound
    simp only [place, List.length_cons] at *
    omega

end Window

end CssAuthoring.Selector
