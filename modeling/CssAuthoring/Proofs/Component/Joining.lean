import CssAuthoring.Proofs.Component.Append

/-!
# Style values in front of another text

A lexeme that is not open is read in front of inert text as it is read alone, unless it makes one
lexeme with what stands behind it: white space goes on in white space, two hyphens in front of an
angle bracket are the end of a comment in markup, and the letter u in front of a plus sign may start
a range of character codes.  Whether a lexeme is open shows in front of a probe, which an open one
would take in.

Main statement: `Probe.exists_readsApart`, a text that takes no probe in is read in front of other
text as it is read alone.
-/

namespace CssAuthoring.Component

/-! ## Lexemes -/

/-- Errors and comments, which may stand for something that is open at the end of a text. -/
def Lexeme.isOpen : Lexeme → Bool
  | .atom (.flaw _) => true
  | .atom (.comment _) => true
  | _ => false

/-- A reader takes all of a text in, and what it finds last may be open. -/
def TakesAll (reader : Text → Reading) (text : Text) : Prop :=
  (reader text).2 = [] ∧ ∃ last ∈ (reader text).1.getLast?, last.isOpen = true

section

variable {probe tail : Text}

theorem Probe.lexString_append (isProbe : Probe probe) {quote : Char}
    (isQuote : Text.isQuote quote = true) {text : Text} (whole : Whole text) :
    (∀ tail, lexString quote (text ++ tail) =
      ((lexString quote text).1, (lexString quote text).2 ++ tail)) ∨
      TakesAll (lexString quote) (text ++ probe) := by
  rcases read : readString quote text with ⟨value, ending, rest⟩
  cases ending with
  | unclosed =>
      right
      have taken := isProbe.readString_open isQuote whole (by rw [read])
      rcases again : readString quote (text ++ probe) with ⟨value, ending⟩
      rw [again] at taken
      cases taken
      simp [TakesAll, lexString, again, Lexeme.isOpen]
  | closed =>
      left
      intro tail
      simp only [lexString, readString_append read (by simp) tail, read]
      rfl
  | broken =>
      left
      intro tail
      simp only [lexString, readString_append read (by simp) tail, read]
      rfl

theorem takesAll_lexAddress {text : Text}
    (notClosed : (readAddress (text.dropWhile isSpace)).2.1 ≠ .closed)
    (none : (readAddress (text.dropWhile isSpace)).2.2 = []) : TakesAll lexAddress text := by
  rcases read : readAddress (text.dropWhile isSpace) with ⟨value, ending, rest⟩
  rw [read] at notClosed none
  cases none
  cases ending with
  | closed => exact absurd rfl notClosed
  | unclosed => simp [TakesAll, lexAddress, read, Lexeme.isOpen]
  | broken => simp [TakesAll, lexAddress, read, single, Lexeme.isOpen]

theorem Probe.lexAddress_append (isProbe : Probe probe) {text : Text} (whole : Whole text) :
    (∀ tail, lexAddress (text ++ tail) = ((lexAddress text).1, (lexAddress text).2 ++ tail)) ∨
      TakesAll lexAddress (text ++ probe) := by
  have leftOf : LeftOf (text.dropWhile isSpace) text := .dropWhile (by decide) text
  have wholeAddress := leftOf.whole whole
  cases stopped : text.dropWhile isSpace with
  | nil =>
      have behind : (text ++ probe).dropWhile isSpace = probe := by
        simp [List.dropWhile_append, stopped, Text.dropWhile_of_stops isProbe.noSpace]
      right
      apply takesAll_lexAddress
      · rw [behind]
        exact isProbe.address.1
      · rw [behind]
        exact isProbe.address.2
  | cons next more =>
      have behind (tail : Text) : (text ++ tail).dropWhile isSpace = next :: more ++ tail :=
        dropWhile_append_of_cons stopped tail
      rw [stopped] at wholeAddress
      rcases isProbe.readAddress_append wholeAddress with ends | ⟨notClosed, none⟩
      · left
        intro tail
        rcases read : readAddress (next :: more) with ⟨value, ending, rest⟩
        simp only [lexAddress, behind, ends, stopped, read]
        cases ending <;> rfl
      · right
        exact takesAll_lexAddress (by rwa [behind]) (by rwa [behind])

theorem holdsAddress_append (inert : Inert tail) (text : Text) :
    holdsAddress (text ++ tail) = holdsAddress text := by
  cases stopped : text.dropWhile isSpace with
  | nil =>
      have quotes := inert.unquoted
      simp only [holdsAddress, List.dropWhile_append, stopped, List.isEmpty_nil, if_true]
      cases behind : tail.dropWhile isSpace with
      | nil => rfl
      | cons next more =>
          rw [behind, Text.stops_cons] at quotes
          simp [quotes]
  | cons next more =>
      simp only [holdsAddress, dropWhile_append_of_cons stopped, stopped]
      rfl

/-- The reading of a word whose name has been read, with the parenthesis that may follow it. -/
def wordOf (named : Text × Text) : Reading :=
  match named.2 with
  | '(' :: inner =>
    if Text.asciiLower named.1 = "url".toList && holdsAddress inner then lexAddress inner
    else ([.enter (.function named.1)], inner)
  | rest => single (.identifier named.1) rest

theorem lexWord_eq (text : Text) : lexWord text = wordOf (readName text) := rfl

theorem wordOf_of_stops (name : Text) {rest : Text} (noArgument : Text.Stops (· = '(') rest) :
    wordOf (name, rest) = single (.identifier name) rest := by
  unfold wordOf
  dsimp only
  split
  · simp at noArgument
  · rfl

/-- What stands behind a name is read alike in front of other text, unless it is open. -/
theorem Probe.wordOf_readsOn (isProbe : Probe probe) (name : Text) {rest : Text}
    (whole : Whole rest) : ReadsOn (fun rest => wordOf (name, rest)) rest ∨
      TakesAll (fun rest => wordOf (name, rest)) (rest ++ probe) := by
  by_cases noArgument : Text.Stops (· = '(') rest
  · left
    refine .apart fun tail inert => ?_
    have noArgumentBehind : Text.Stops (· = '(') (rest ++ tail) := by
      by_cases empty : rest = []
      · subst empty
        exact inert.stops (by decide)
      · exact (Text.stops_append empty tail).2 noArgument
    rw [wordOf_of_stops name noArgument, wordOf_of_stops name noArgumentBehind]
    rfl
  rcases rest with _ | ⟨next, inner⟩
  · exact absurd (Text.stops_nil _) noArgument
  have isOpening : next = '(' := by simpa using noArgument
  subst isOpening
  have inFront (tail : Text) (inert : Inert tail) : wordOf (name, '(' :: inner ++ tail) =
      if Text.asciiLower name = "url".toList && holdsAddress inner then lexAddress (inner ++ tail)
      else ([.enter (.function name)], inner ++ tail) := by
    rw [← holdsAddress_append inert inner]
    rfl
  have alone : wordOf (name, '(' :: inner) =
      if Text.asciiLower name = "url".toList && holdsAddress inner then lexAddress inner
      else ([.enter (.function name)], inner) := rfl
  by_cases isAddress : (Text.asciiLower name = "url".toList && holdsAddress inner) = true
  · rw [if_pos isAddress] at alone
    rcases isProbe.lexAddress_append ((LeftOf.cons (by decide) inner).whole whole) with ends | takes
    · left
      refine .apart fun tail inert => ?_
      rw [alone, inFront tail inert, if_pos isAddress, ends]
    · right
      rwa [TakesAll, inFront probe isProbe.inert, if_pos isAddress]
  · left
    refine .apart fun tail inert => ?_
    rw [alone, inFront tail inert, if_neg isAddress, if_neg isAddress]

/-- A word is read alike in front of other text, unless it is an address that is open. -/
theorem Probe.lexWord_readsOn (isProbe : Probe probe) {text : Text} (whole : Whole text) :
    ReadsOn lexWord text ∨ TakesAll lexWord (text ++ probe) := by
  cases readName_readsOn whole with
  | apart same =>
      have leftOf := LeftOf.readName text
      have inFront (tail : Text) (inert : Inert tail) : lexWord (text ++ tail) =
          wordOf ((readName text).1, (readName text).2 ++ tail) := by
        rw [lexWord_eq, same tail inert]
      rcases isProbe.wordOf_readsOn (readName text).1 (leftOf.whole whole) with readsOn | takes
      · exact .inl (readsOn.of_left leftOf id (lexWord_eq text) inFront)
      · right
        rwa [TakesAll, inFront probe isProbe.inert]
  | swallowing none code beyond same stops =>
      have alone : lexWord text = single (.identifier (readName text).1) [] := by
        rw [lexWord_eq, ← wordOf_of_stops (readName text).1 (Text.stops_nil _), ← none]
      left
      refine .swallowing (by rw [alone]; rfl) code (fun tail => wordOf (beyond tail)) ?_ ?_
      · intro tail inert
        rw [lexWord_eq, same tail inert]
      · intro tail inert
        rw [stops tail inert, wordOf_of_stops _ (inert.stops (by decide)), alone]
        rfl

/-- Characters that go on with lexemes stand in front of inert text if they start the whole. -/
theorem Inert.exists_prefix (inert : Inert tail) (front : Text)
    (outside : front.any inertCharacters.contains = false) {rest after : Text}
    (shape : rest ++ tail = front ++ after) : ∃ more, rest = front ++ more := by
  induction front generalizing rest with
  | nil => exact ⟨rest, rfl⟩
  | cons character front hypothesis =>
      rw [List.any_cons, Bool.or_eq_false_iff] at outside
      cases rest with
      | nil =>
          have member : character ∈ inertCharacters := by
            apply inert.starts
            rw [← List.nil_append tail, shape]
            rfl
          rw [List.contains_iff_mem.2 member] at outside
          cases outside.1
      | cons next rest =>
          rcases List.cons.inj shape with ⟨rfl, behind⟩
          rcases hypothesis outside.2 behind with ⟨more, rfl⟩
          exact ⟨more, rfl⟩

theorem lexSign_append (inert : Inert tail) (character : Char) (rest : Text) :
    lexSign character (rest ++ tail) =
      ((lexSign character rest).1, (lexSign character rest).2 ++ tail) := by
  fun_cases lexSign character rest with
  | case1 after => rfl
  | case2 after => rfl
  | case3 character after joins => simp [lexSign, joins, single]
  | case4 character after apart => simp [lexSign, apart, single]
  | case5 character rest noEquals noArrow noBars =>
      rw [lexSign]
      · rfl
      · intro after shape
        rcases inert.exists_prefix ['='] (by decide) shape with ⟨more, rfl⟩
        exact noEquals more rfl
      · rintro after rfl shape
        rcases inert.exists_prefix ['!', '-', '-'] (by decide) shape with ⟨more, rfl⟩
        exact noArrow more rfl rfl
      · rintro after rfl shape
        rcases inert.exists_prefix ['|'] (by decide) shape with ⟨more, rfl⟩
        exact noBars more rfl rfl

/-- Text that starts no comment starts none in front of inert text. -/
theorem Inert.noComment (inert : Inert tail) {character : Char} {rest : Text}
    (noComment : ∀ inner, character = '/' → rest = '*' :: inner → False) :
    ∀ inner, character = '/' → rest ++ tail = '*' :: inner → False := by
  rintro inner rfl shape
  rcases inert.exists_prefix ['*'] (by decide) shape with ⟨more, rfl⟩
  exact noComment more rfl rfl

theorem lexMark_other {character : Char} {rest : Text} (notAt : character ≠ '@')
    (notHash : character ≠ '#')
    (noComment : ∀ inner, character = '/' → rest = '*' :: inner → False) :
    lexMark character rest =
      if Text.isQuote character then lexString character rest
      else
        match Bracket.ofOpening? character, Bracket.ofClosing? character with
        | some bracket, _ => ([.enter (.block bracket)], rest)
        | none, some bracket => ([.leave bracket], rest)
        | none, none => lexSign character rest := by
  unfold lexMark
  split
  · exact absurd rfl notAt
  · exact absurd rfl notHash
  · exact (noComment _ rfl rfl).elim
  · rfl

/-- What starts with a mark of its own is read alike in front of other text, if it is not open. -/
theorem Probe.lexMark_readsOn (isProbe : Probe probe) (character : Char) {rest : Text}
    (whole : Whole rest) :
    ReadsOn (lexMark character) rest ∨ TakesAll (lexMark character) (rest ++ probe) := by
  have starts {tail : Text} (inert : Inert tail) := startsIdentifier_append whole inert
  have hashes {tail : Text} (inert : Inert tail) := startsHash_append whole inert
  by_cases isAt : character = '@'
  · left
    subst isAt
    by_cases identifier : startsIdentifier rest = true
    · exact (named_readsOn whole .atKeyword).congr (if_pos identifier) fun tail inert =>
        if_pos ((starts inert).trans identifier)
    · exact (single_readsOn (.literal ['@']) rest).congr (if_neg identifier) fun tail inert =>
        if_neg (by rwa [starts inert])
  by_cases isHash : character = '#'
  · left
    subst isHash
    by_cases hash : startsHash rest = true
    · apply (named_readsOn whole (.hash · (startsIdentifier rest))).congr (if_pos hash)
      intro tail inert
      rw [← starts inert]
      exact if_pos ((hashes inert).trans hash)
    · exact (single_readsOn (.literal ['#']) rest).congr (if_neg hash) fun tail inert =>
        if_neg (by rwa [hashes inert])
  by_cases isComment : ∃ inner, character = '/' ∧ rest = '*' :: inner
  · rcases isComment with ⟨inner, rfl, rfl⟩
    have alone (inner : Text) : lexMark '/' ('*' :: inner) =
        single (.comment (readComment inner).1) (readComment inner).2 := rfl
    rcases isProbe.readComment_append inner with ends | takes
    · left
      refine .apart fun tail _ => ?_
      rw [List.cons_append, alone, alone, ends]
      rfl
    · right
      rw [TakesAll, List.cons_append, alone]
      exact ⟨takes, _, rfl, rfl⟩
  have noComment : ∀ inner, character = '/' → rest = '*' :: inner → False :=
    fun inner isSlash isStar => isComment ⟨inner, isSlash, isStar⟩
  have alone := lexMark_other isAt isHash noComment
  have inFront {tail : Text} (inert : Inert tail) :=
    lexMark_other isAt isHash (inert.noComment noComment)
  by_cases isQuote : Text.isQuote character = true
  · rw [if_pos isQuote] at alone
    rcases isProbe.lexString_append isQuote whole with ends | takes
    · left
      refine .apart fun tail inert => ?_
      rw [alone, inFront inert, if_pos isQuote, ends]
    · right
      rwa [TakesAll, inFront isProbe.inert, if_pos isQuote]
  · left
    refine .apart fun tail inert => ?_
    rw [alone, inFront inert, if_neg isQuote, if_neg isQuote]
    split
    · rfl
    · rfl
    · exact lexSign_append inert character rest

/-! ## Words that a sign goes on with -/

theorem startsRange_of_mark {mark : Char} (lower : mark ≠ 'u') (upper : mark ≠ 'U') (rest : Text) :
    startsRange (mark :: rest) = false := by
  unfold startsRange
  split
  · rename_i shape
    cases shape
    simp [lower, upper]
  · rfl

/--
Whether a word makes one lexeme with the sign at the start of what follows it: two hyphens with an
angle bracket, and the letter u with a plus sign that starts a range of character codes.
-/
def joins (word tail : Text) : Bool :=
  (word = ['-', '-'] && tail.head? = some '>') ||
    ((word = ['u'] || word = ['U']) && startsRange (word ++ tail))

theorem startsRange_of_ne {mark plus : Char} (noPlus : plus ≠ '+') (rest : Text) :
    startsRange (mark :: plus :: rest) = false := by
  unfold startsRange
  split
  · rename_i shape
    cases shape
    exact absurd rfl noPlus
  · rfl

theorem startsRange_append (inert : Inert tail) {text : Text} (nonempty : text ≠ [])
    (apart : joins text tail = false) : startsRange (text ++ tail) = startsRange text := by
  have noDigit : Text.Stops (fun next => Text.isHexDigit next || next = '?') tail :=
    inert.stops (by decide)
  rcases text with _ | ⟨mark, _ | ⟨plus, _ | ⟨next, rest⟩⟩⟩
  · exact absurd rfl nonempty
  · have none : startsRange [mark] = false := rfl
    rw [none]
    by_cases isMark : mark = 'u' ∨ mark = 'U'
    · have letter : (([mark] : Text) = ['u'] || ([mark] : Text) = ['U']) = true := by
        simpa using isMark
      rw [joins, letter, Bool.true_and, Bool.or_eq_false_iff] at apart
      exact apart.2
    · rw [not_or] at isMark
      exact startsRange_of_mark isMark.1 isMark.2 tail
  · by_cases isPlus : plus = '+'
    · subst isPlus
      cases tail with
      | nil => rfl
      | cons next rest =>
          rw [Text.stops_cons] at noDigit
          simp [startsRange, noDigit]
    · rw [List.cons_append, List.cons_append, startsRange_of_ne isPlus, startsRange_of_ne isPlus]
  · by_cases isPlus : plus = '+'
    · subst isPlus
      rfl
    · rw [List.cons_append, List.cons_append, startsRange_of_ne isPlus, startsRange_of_ne isPlus]

theorem startsArrow_append (inert : Inert tail) {text : Text} (nonempty : text ≠ [])
    (apart : joins text tail = false) :
    "-->".toList.isPrefixOf (text ++ tail) = "-->".toList.isPrefixOf text := by
  have noHyphen : Text.Stops (· = '-') tail := inert.stops (by decide)
  rcases text with _ | ⟨first, _ | ⟨second, _ | ⟨third, rest⟩⟩⟩
  · exact absurd rfl nonempty
  · cases tail with
    | nil => rfl
    | cons next more =>
        rw [Text.stops_cons, decide_eq_false_iff_not] at noHyphen
        simp [List.isPrefixOf, Ne.symm noHyphen]
  · cases tail with
    | nil => rfl
    | cons next more =>
        by_cases hyphens : first = '-' ∧ second = '-'
        · rcases hyphens with ⟨rfl, rfl⟩
          have notBracket : next ≠ '>' := by
            rintro rfl
            cases apart
          simp [List.isPrefixOf, Ne.symm notBracket]
        · simp [List.isPrefixOf]
          grind
  · simp [List.isPrefixOf]

/-- A word makes no lexeme with anything but an angle bracket or a plus sign. -/
theorem joins_of_plain {tail : Text}
    (plain : ∀ character ∈ tail.head?, character ≠ '>' ∧ character ≠ '+') (word : Text) :
    joins word tail = false := by
  have noArrow : tail.head? ≠ some '>' := fun starts => (plain _ starts).1 rfl
  have noRange (mark : Char) : startsRange (mark :: tail) = false := by
    cases tail with
    | nil => rfl
    | cons next rest => exact startsRange_of_ne (plain next rfl).2 rest
  rw [joins, Bool.or_eq_false_iff, Bool.and_eq_false_imp, Bool.and_eq_false_imp]
  refine ⟨fun _ => decide_eq_false noArrow, fun isLetter => ?_⟩
  simp only [Bool.or_eq_true, decide_eq_true_eq] at isLetter
  rcases isLetter with rfl | rfl
  · exact noRange 'u'
  · exact noRange 'U'

/-- A word that ends in a code makes no lexeme with anything. -/
theorem joins_of_endsInCode {word : Text} (code : endsInCode word = true) (tail : Text) :
    joins word tail = false := by
  rw [Bool.eq_false_iff]
  intro isJoined
  simp only [joins, Bool.or_eq_true, Bool.and_eq_true, decide_eq_true_eq] at isJoined
  rcases isJoined with ⟨rfl, _⟩ | ⟨rfl | rfl, _⟩ <;> cases code

/-! ## Lexemes in front of other text -/

/-- The atom that lexemes end in, if they do. -/
def lastLeaf (found : List Lexeme) : Option Atom :=
  match found.getLast? with
  | some (.atom leaf) => some leaf
  | _ => none

/--
The first lexemes of a text are read alike in front of inert text that does not join them; at the
end of the text white space must not go on.  Or else they take all of the text, which ends in a
code, and go on behind the white space that the code takes along.
-/
inductive LexesOn (character : Char) (rest : Text) (found : List Lexeme) (after : Text) : Prop where
  | apart (same : ∀ tail, Inert tail → joins (character :: rest) tail = false →
      (after = [] → ∀ run, lastLeaf found = some (.whitespace run) → Text.Stops isSpace tail) →
      readLexeme character (rest ++ tail) = .ok (found, after ++ tail))
  | swallowing (none : after = []) (code : endsInCode (character :: rest) = true)
      (beyond : Text → Reading)
      (same : ∀ tail, Inert tail →
        readLexeme character (rest ++ tail) = .ok (beyond (dropSpace tail)))
      (stops : ∀ tail, Inert tail → beyond tail = (found, tail))

/-- The first lexemes of a text take all of it in, and the last of them may be open. -/
def Swallows (character : Char) (rest : Text) : Prop :=
  ∃ found, readLexeme character rest = .ok (found, []) ∧ ∃ last ∈ found.getLast?, last.isOpen = true

/-- Lexemes that are read on are read alike in front of a probe. -/
theorem Probe.lexesOn_eq (isProbe : Probe probe) {character : Char} {rest after : Text}
    {found : List Lexeme} (lexesOn : LexesOn character rest found after) :
    readLexeme character (rest ++ probe) = .ok (found, after ++ probe) := by
  cases lexesOn with
  | apart same =>
      exact same probe isProbe.inert (joins_of_plain isProbe.plain _) fun _ _ _ => isProbe.noSpace
  | swallowing none code beyond same stops =>
      rw [same probe isProbe.inert, isProbe.dropSpace, stops probe isProbe.inert, none,
        List.nil_append]

/-- What the reader of one kind of lexeme does, the reader of lexemes does. -/
theorem Probe.lexesOn_of_readsOn (isProbe : Probe probe) {character : Char} {rest after : Text}
    {found : List Lexeme} {reader : Text → Reading} {text : Text}
    (leftOf : LeftOf text (character :: rest))
    (readsOn : ReadsOn reader text ∨ TakesAll reader (text ++ probe))
    (inFront : ∀ tail, Inert tail → joins (character :: rest) tail = false →
      readLexeme character (rest ++ tail) = .ok (reader (text ++ tail)))
    (isReading : reader text = (found, after)) :
    LexesOn character rest found after ∨ Swallows character (rest ++ probe) := by
  rcases readsOn with readsOn | ⟨none, isOpen⟩
  · left
    cases readsOn with
    | apart same =>
        rw [isReading] at same
        refine .apart fun tail inert apart _ => ?_
        rw [inFront tail inert apart, same tail inert]
    | swallowing none code beyond same stops =>
        rw [isReading] at none stops
        have code := leftOf.endsInCode code
        refine .swallowing none code beyond (fun tail inert => ?_) stops
        rw [inFront tail inert (joins_of_endsInCode code tail), same tail inert]
  · right
    refine ⟨_, ?_, isOpen⟩
    rw [inFront probe isProbe.inert (joins_of_plain isProbe.plain _), ← none]

/-- A character that starts no white space, range, arrow or name may start a number. -/
theorem readLexeme_numeral {character : Char} {rest : Text} (noSpace : isSpace character = false)
    (noRange : startsRange (character :: rest) = false)
    (noArrow : "-->".toList.isPrefixOf (character :: rest) = false)
    (noWord : startsIdentifier (character :: rest) = false) :
    readLexeme character rest =
      (splitNumeral (character :: rest)).map fun number =>
        match number with
        | some (written, after) => lexMeasure written after
        | none => lexMark character rest := by
  unfold readLexeme
  rw [noSpace, noRange, noArrow, noWord]
  rfl

/-- A run of white space is read alike in front of text that does not go on with it. -/
theorem lexesOn_space {character : Char} {rest after : Text} {found : List Lexeme}
    (white : isSpace character = true) (read : readLexeme character rest = .ok (found, after)) :
    LexesOn character rest found after := by
  rw [readLexeme, if_pos white] at read
  cases read
  refine .apart fun tail _ _ noSpace => ?_
  rw [readLexeme, if_pos white]
  cases stopped : rest.dropWhile isSpace with
  | nil =>
      have stops := noSpace stopped _ rfl
      rw [takeWhile_append_of_stops stops, dropWhile_append_of_stops stops, stopped]
      rfl
  | cons next more =>
      rw [takeWhile_append_of_cons stopped, dropWhile_append_of_cons stopped]
      rfl

/-- What starts no space, range, arrow or name is a number or a mark in front of other text too. -/
theorem readLexeme_numeral_append {character : Char} {rest : Text}
    (whole : Whole (character :: rest)) (noSpace : isSpace character = false)
    (noRange : startsRange (character :: rest) = false)
    (noArrow : "-->".toList.isPrefixOf (character :: rest) = false)
    (noWord : startsIdentifier (character :: rest) = false) (inert : Inert tail)
    (apart : joins (character :: rest) tail = false) :
    readLexeme character (rest ++ tail) =
      (splitNumeral (character :: rest)).map fun number =>
        match number with
        | some (written, after) => lexMeasure written (after ++ tail)
        | none => lexMark character (rest ++ tail) := by
  have nonempty : character :: rest ≠ [] := List.cons_ne_nil _ _
  have isNumeral := @readLexeme_numeral character (rest ++ tail) noSpace
    ((startsRange_append inert nonempty apart).trans noRange)
    ((startsArrow_append inert nonempty apart).trans noArrow)
    ((startsIdentifier_append whole inert).trans noWord)
  rw [isNumeral, ← List.cons_append, splitNumeral_append inert nonempty]
  rcases splitNumeral (character :: rest) with failure | _ | pair <;> rfl

/-- A number or mark that is not open is read alike in front of other text. -/
theorem Probe.lexesOn_numeral (isProbe : Probe probe) {character : Char} {rest after : Text}
    {found : List Lexeme} (whole : Whole (character :: rest)) (noSpace : isSpace character = false)
    (noRange : startsRange (character :: rest) = false)
    (noArrow : "-->".toList.isPrefixOf (character :: rest) = false)
    (noWord : startsIdentifier (character :: rest) = false)
    (read : readLexeme character rest = .ok (found, after)) :
    LexesOn character rest found after ∨ Swallows character (rest ++ probe) := by
  have inFront {tail : Text} :=
    @readLexeme_numeral_append tail _ _ whole noSpace noRange noArrow noWord
  rw [readLexeme_numeral noSpace noRange noArrow noWord] at read
  cases number : splitNumeral (character :: rest) with
  | error failure =>
      rw [number] at read
      cases read
  | ok found? =>
      rw [number] at inFront read
      cases found? with
      | none =>
          have leftOf : LeftOf rest (character :: rest) := by
            apply LeftOf.plain
            rintro rfl
            simpa [startsIdentifier] using noWord
          exact isProbe.lexesOn_of_readsOn leftOf
            (isProbe.lexMark_readsOn character (leftOf.whole whole))
            (fun _ inert apart => inFront inert apart) (Except.ok.inj read)
      | some pair =>
          have leftOf := LeftOf.splitNumeral number
          exact isProbe.lexesOn_of_readsOn leftOf
            (.inl (lexMeasure_readsOn pair.1 (leftOf.whole whole)))
            (fun _ inert apart => inFront inert apart) (Except.ok.inj read)

/-- A lexeme that is not open is read alike in front of other text that it does not join. -/
theorem Probe.readLexeme_lexesOn (isProbe : Probe probe) {character : Char} {rest after : Text}
    {found : List Lexeme} (whole : Whole (character :: rest))
    (read : readLexeme character rest = .ok (found, after)) :
    LexesOn character rest found after ∨ Swallows character (rest ++ probe) := by
  have nonempty : character :: rest ≠ [] := List.cons_ne_nil _ _
  cases white : isSpace character with
  | true => exact .inl (lexesOn_space white read)
  | false =>
  have range {tail : Text} (inert : Inert tail) (apart : joins (character :: rest) tail = false) :=
    startsRange_append inert nonempty apart
  have arrow {tail : Text} (inert : Inert tail) (apart : joins (character :: rest) tail = false) :=
    startsArrow_append inert nonempty apart
  have starts {tail : Text} (inert : Inert tail) := startsIdentifier_append whole inert
  have isReading := read
  rw [readLexeme, white, if_neg Bool.false_ne_true] at isReading
  by_cases isRange : startsRange (character :: rest) = true
  · rw [if_pos isRange] at isReading
    rcases exists_plus_of_startsRange isRange with ⟨more, rfl⟩
    have leftOf : LeftOf more (character :: '+' :: more) := .behind [character] (by decide) more
    refine isProbe.lexesOn_of_readsOn leftOf ?_ ?_ (Except.ok.inj isReading)
    · exact .inl (.apart fun tail inert => lexRange_append inert more)
    · intro tail inert apart
      rw [readLexeme, white, if_neg Bool.false_ne_true]
      exact if_pos ((range inert apart).trans isRange)
  rw [if_neg isRange] at isReading
  by_cases isArrow : "-->".toList.isPrefixOf (character :: rest) = true
  · rw [if_pos isArrow] at isReading
    rcases List.isPrefixOf_iff_prefix.1 isArrow with ⟨more, shape⟩
    cases shape
    exact isProbe.lexesOn_of_readsOn (LeftOf.behind ['-', '-'] (by decide) more)
      (.inl (single_readsOn _ more)) (fun _ _ _ => rfl) (Except.ok.inj isReading)
  rw [if_neg isArrow] at isReading
  by_cases isWord : startsIdentifier (character :: rest) = true
  · rw [if_pos isWord] at isReading
    refine isProbe.lexesOn_of_readsOn (LeftOf.refl _) (isProbe.lexWord_readsOn whole) ?_
      (Except.ok.inj isReading)
    intro tail inert apart
    rw [readLexeme, white, if_neg Bool.false_ne_true, ← List.cons_append,
      range inert apart, if_neg isRange, arrow inert apart, if_neg isArrow, starts inert,
      if_pos isWord]
  exact isProbe.lexesOn_numeral whole white (Bool.eq_false_iff.2 isRange)
    (Bool.eq_false_iff.2 isArrow) (Bool.eq_false_iff.2 isWord) read

/-- A number with too many digits is one in front of a probe. -/
theorem Probe.readLexeme_error (isProbe : Probe probe) {character : Char} {rest : Text}
    {failure : Numeric.NumeralTooLong} (whole : Whole (character :: rest))
    (read : readLexeme character rest = .error failure) :
    readLexeme character (rest ++ probe) = .error failure := by
  unfold readLexeme at read
  split at read
  · cases read
  rename_i noSpace
  split at read
  · cases read
  rename_i noRange
  split at read
  · cases read
  rename_i noArrow
  split at read
  · cases read
  rename_i noWord
  rw [Bool.not_eq_true] at noSpace noRange noArrow noWord
  rw [readLexeme_numeral_append whole noSpace noRange noArrow noWord isProbe.inert
    (joins_of_plain isProbe.plain _)]
  cases number : splitNumeral (character :: rest) with
  | error again =>
      rw [number] at read
      cases read
      rfl
  | ok found =>
      rw [number] at read
      cases read

/-- Lexemes are read one after the other. -/
theorem lexemes_cons {character : Char} {rest after : Text} {first : List Lexeme}
    (read : readLexeme character rest = .ok (first, after)) :
    lexemes (character :: rest) = (lexemes after).map (first ++ ·) := by
  rw [lexemes]
  split
  · rename_i failed
    rw [read] at failed
    cases failed
  · rename_i found
    rw [read] at found
    cases found
    rfl

end

/-! ## Lexemes of whole texts -/

theorem lexemes_error {character : Char} {rest : Text} {failure : Numeric.NumeralTooLong}
    (read : readLexeme character rest = .error failure) :
    lexemes (character :: rest) = .error failure := by
  rw [lexemes]
  split
  · rename_i failed
    rw [read] at failed
    cases failed
    rfl
  · rename_i found
    rw [read] at found
    cases found

/--
Whether the last lexeme of a text, if it is an atom, is a word that makes one lexeme with the sign
behind the text.  A word that begins with an escape does not, whatever name it stands for.
-/
def joined (text : Text) (last : Option Atom) (tail : Text) : Bool :=
  match last with
  | some (.identifier name) =>
    name.isSuffixOf text && lastEscape text ≠ some name && joins name tail
  | _ => false

theorem joined_of_joins {text tail : Text} {found : List Lexeme} (read : lexemes text = .ok found)
    (joins_tail : joins text tail = true) : joined text (lastLeaf found) tail = true := by
  have word (word : Text) (isWord : lexemes word = .ok [.atom (.identifier word)])
      (noEscape : lastEscape word = none) (same : text = word) :
      joined text (lastLeaf found) tail = true := by
    subst same
    rw [isWord] at read
    cases read
    simp [joined, lastLeaf, noEscape, joins_tail]
  have isWord := joins_tail
  simp only [joins, Bool.or_eq_true, Bool.and_eq_true, decide_eq_true_eq] at isWord
  rcases isWord with ⟨hyphens, _⟩ | ⟨lower | upper, _⟩
  · exact word _ (by with_unfolding_all rfl) (by decide) hyphens
  · exact word _ (by with_unfolding_all rfl) (by decide) lower
  · exact word _ (by with_unfolding_all rfl) (by decide) upper

theorem joined_of_plain {text tail : Text} {last : Option Atom}
    (plain : ∀ character ∈ tail.head?, character ≠ '>' ∧ character ≠ '+') :
    joined text last tail = false := by
  unfold joined
  split
  · rw [joins_of_plain plain, Bool.and_false]
  · rfl

/-- What joins what is left of a text joins the text. -/
theorem joined_of_left {text rest tail : Text} {last : Option Atom} (left : LeftOf rest text)
    (isJoined : joined rest last tail = true) : joined text last tail = true := by
  unfold joined at isJoined ⊢
  split at isJoined
  · rename_i name
    simp only [Bool.and_eq_true, decide_eq_true_eq, List.isSuffixOf_iff_suffix] at isJoined
    rcases isJoined with ⟨⟨suffix, noEscape⟩, joins_tail⟩
    have nonempty : rest ≠ [] := by
      rintro rfl
      rw [List.suffix_nil.1 suffix] at joins_tail
      cases joins_tail
    simp [suffix.trans left.suffix, left.lastEscape_ne suffix nonempty noEscape, joins_tail]
  · cases isJoined

/-- Inert text that may stand behind another one: it makes no lexeme with the last of it. -/
structure Parted (text : Text) (last : Option Atom) (tail : Text) : Prop where
  inert : Inert tail
  noWord : joined text last tail = false
  noSpace : ∀ run, last = some (.whitespace run) → Text.Stops isSpace tail

theorem Parted.of_left {text rest tail : Text} {last : Option Atom} (parted : Parted text last tail)
    (left : LeftOf rest text) : Parted rest last tail := by
  refine ⟨parted.inert, ?_, parted.noSpace⟩
  rw [Bool.eq_false_iff]
  intro isJoined
  have again := parted.noWord
  rw [joined_of_left left isJoined] at again
  cases again

theorem parted_none {text tail : Text} (inert : Inert tail) : Parted text none tail :=
  ⟨inert, rfl, fun _ => by simp⟩

theorem Probe.parted {probe : Text} (isProbe : Probe probe) (text : Text) (last : Option Atom) :
    Parted text last probe :=
  ⟨isProbe.inert, joined_of_plain isProbe.plain, fun _ _ => isProbe.noSpace⟩

theorem lastLeaf_append (first : List Lexeme) {more : List Lexeme} (nonempty : more ≠ []) :
    lastLeaf (first ++ more) = lastLeaf more := by
  rw [lastLeaf, lastLeaf, List.getLast?_append, List.getLast?_eq_some_getLast nonempty]
  rfl

/--
A text with the given lexemes has them also in front of any other text that is parted from it.  Or
else it ends in a code, and what is read goes on behind the white space that the code takes along.
-/
inductive AllReadOn (text : Text) (found : List Lexeme) : Prop where
  | apart (same : ∀ tail, Parted text (lastLeaf found) tail →
      lexemes (text ++ tail) = (lexemes tail).map (found ++ ·))
  | swallowing (code : endsInCode text = true)
      (beyond : Text → Except Numeric.NumeralTooLong (List Lexeme))
      (same : ∀ tail, Inert tail → lexemes (text ++ tail) = beyond (dropSpace tail))
      (stops : ∀ tail, Inert tail → beyond tail = (lexemes tail).map (found ++ ·))

/-- A text has the given lexemes, alone and in front of other text. -/
structure ReadsApart (text : Text) (found : List Lexeme) : Prop where
  read : lexemes text = .ok found
  readsOn : AllReadOn text found

theorem readsApart_nil : ReadsApart [] [] := by
  refine ⟨by rw [lexemes], .apart fun tail _ => ?_⟩
  rw [List.nil_append]
  cases lexemes tail <;> rfl

theorem map_map_append (reading : Except Numeric.NumeralTooLong (List Lexeme))
    (first more : List Lexeme) :
    (reading.map (more ++ ·)).map (first ++ ·) = reading.map (first ++ more ++ ·) := by
  cases reading <;> simp [Except.map]

/-- The first lexemes of a text do not join what is parted from the text. -/
theorem Parted.joins_eq {character : Char} {rest tail : Text} {found : List Lexeme}
    (read : lexemes (character :: rest) = .ok found)
    (parted : Parted (character :: rest) (lastLeaf found) tail) :
    joins (character :: rest) tail = false := by
  rw [Bool.eq_false_iff]
  intro isJoined
  have noWord := parted.noWord
  rw [joined_of_joins read isJoined] at noWord
  cases noWord

/-- What is read apart lexeme by lexeme is read apart as a whole. -/
theorem LexesOn.readsApart {character : Char} {rest after : Text} {first more : List Lexeme}
    (lexesOn : LexesOn character rest first after)
    (readFirst : readLexeme character rest = .ok (first, after)) (behind : ReadsApart after more) :
    ReadsApart (character :: rest) (first ++ more) := by
  have leftOf := LeftOf.readLexeme readFirst
  have read : lexemes (character :: rest) = .ok (first ++ more) := by
    rw [lexemes_cons readFirst, behind.read]
    rfl
  refine ⟨read, ?_⟩
  cases lexesOn with
  | swallowing none code beyond same stops =>
      subst none
      have nothing := behind.read
      rw [lexemes] at nothing
      cases nothing
      rw [List.append_nil]
      refine .swallowing code
        (fun tail => (lexemes (beyond tail).2).map ((beyond tail).1 ++ ·)) ?_ ?_
      · exact fun tail inert => lexemes_cons (same tail inert)
      · intro tail inert
        rw [stops tail inert]
  | apart same =>
      by_cases empty : after = []
      · subst empty
        have nothing := behind.read
        rw [lexemes] at nothing
        cases nothing
        rw [List.append_nil] at read ⊢
        refine .apart fun tail parted => ?_
        exact lexemes_cons (same tail parted.inert (parted.joins_eq read) fun _ => parted.noSpace)
      · cases behind.readsOn with
        | swallowing code beyond sameMore stops =>
            have code := leftOf.endsInCode code
            refine .swallowing code (fun tail => (beyond tail).map (first ++ ·)) ?_ ?_
            · intro tail inert
              have readOn := same tail inert (joins_of_endsInCode code tail) (absurd · empty)
              rw [List.cons_append, lexemes_cons readOn, sameMore tail inert]
            · intro tail inert
              rw [stops tail inert, map_map_append]
        | apart sameMore =>
            refine .apart fun tail parted => ?_
            have partedMore : Parted after (lastLeaf more) tail := by
              by_cases none : more = []
              · subst none
                exact parted_none parted.inert
              · rw [lastLeaf_append first none] at parted
                exact parted.of_left leftOf
            have readOn := same tail parted.inert (parted.joins_eq read) (absurd · empty)
            rw [List.cons_append, lexemes_cons readOn, sameMore tail partedMore, map_map_append]

/--
A text is read in front of other text as it is read alone, if nothing in it is open: what is read
last in it with a probe behind it is not open.
-/
theorem Probe.exists_readsApart {probe : Text} (isProbe : Probe probe) {text : Text}
    (whole : Whole text) {all : List Lexeme} (read : lexemes (text ++ probe) = .ok all)
    (closed : ∀ last ∈ all.getLast?, last.isOpen = false) : ∃ found, ReadsApart text found := by
  fun_induction lexemes text generalizing all with
  | case1 => exact ⟨[], readsApart_nil⟩
  | case2 character rest failure readFirst =>
      rw [List.cons_append, lexemes_error (isProbe.readLexeme_error whole readFirst)] at read
      cases read
  | case3 character rest first after readFirst shorter hypothesis =>
      rcases isProbe.readLexeme_lexesOn whole readFirst with lexesOn | ⟨found, readAll, last⟩
      · rw [List.cons_append, lexemes_cons (isProbe.lexesOn_eq lexesOn)] at read
        cases behind : lexemes (after ++ probe) with
        | error failure =>
            rw [behind] at read
            cases read
        | ok others =>
            rw [behind] at read
            cases read
            have wholeAfter := (LeftOf.readLexeme readFirst).whole whole
            rcases hypothesis wholeAfter behind fun last member =>
              closed last (by simp [List.getLast?_append, Option.mem_def.1 member])
              with ⟨more, readsApart⟩
            exact ⟨first ++ more, lexesOn.readsApart readFirst readsApart⟩
      · rcases last with ⟨last, member, isOpen⟩
        rw [List.cons_append, lexemes_cons readAll, lexemes] at read
        cases read
        rw [closed last (by simpa using member)] at isOpen
        cases isOpen

end CssAuthoring.Component
