import CssAuthoring.Proofs.Component.Joining
import CssAuthoring.Proofs.Component.Number
import CssAuthoring.Proofs.Text.Squeeze

/-!
# Style values of squeezed text

The readers of names, addresses, numbers and ranges stop at the same place in a text and in its
squeezed form, with the same value; so do those of strings and comments, but these may hold runs of
white space, which are single spaces then.

A backslash needs care.  It takes the character behind it, also a space, and one character of white
space behind the digits of a code.  In a longer run it would take another character than in the
squeezed text, and one at the end of a text is dropped there.  A text is calm if this does not
happen: what an escape can take is a single space with something else behind it.

Main statements: `Calm.exists_escapeTaken`, escapes; `readName_squeeze`, names;
`exists_stringKept`, strings; `readAddress_squeeze` and `readComment_squeeze`, addresses and
comments; `splitNumeral_squeeze`, numbers; `lexWord_squeeze`, identifiers and functions.
-/

namespace CssAuthoring.Component

open CssAuthoring.Numeric

/-! ## White space behind escapes -/

/-- Whether a text begins with no white space, or with a single space in front of other text. -/
def settles : Text → Bool
  | [] => true
  | [character] => !isSpace character
  | character :: next :: _ => !isSpace character || (character = ' ' && !isSpace next)

/-- Whether what stands behind the digits of every escape, or behind its backslash, settles. -/
def isCalm : Text → Bool
  | [] => true
  | character :: rest =>
    (character ≠ '\\' || settles (rest.drop (escapeDigits rest).length)) && isCalm rest

/-- A text in which a single space at most stands where an escape may take white space. -/
def Calm (text : Text) : Prop :=
  isCalm text = true

instance : DecidablePred Calm := fun text => inferInstanceAs (Decidable (isCalm text = true))

theorem Calm.tail {character : Char} {rest : Text} (calm : Calm (character :: rest)) :
    Calm rest := by
  rw [Calm, isCalm, Bool.and_eq_true] at calm
  exact calm.2

theorem Calm.suffix {front back : Text} (calm : Calm (front ++ back)) : Calm back := by
  induction front with
  | nil => exact calm
  | cons character rest hypothesis => exact hypothesis calm.tail

theorem Calm.of_suffix {text back : Text} (calm : Calm text) (suffix : back <:+ text) :
    Calm back := by
  rcases suffix with ⟨front, rfl⟩
  exact calm.suffix

theorem Calm.settles {rest : Text} (calm : Calm ('\\' :: rest)) :
    settles (rest.drop (escapeDigits rest).length) = true := by
  rw [Calm, isCalm, Bool.and_eq_true] at calm
  simpa using calm.1

/-- What settles begins with no white space, or with a single space in front of other text. -/
theorem exists_of_settles {text : Text} (settled : Component.settles text = true) :
    Text.Stops isSpace text ∨
      ∃ next more, text = ' ' :: next :: more ∧ isSpace next = false := by
  rcases text with _ | ⟨character, _ | ⟨next, more⟩⟩
  · exact .inl (Text.stops_nil _)
  · exact .inl ((Text.stops_cons _ _ _).2 (by simpa [Component.settles] using settled))
  · simp only [Component.settles, Bool.or_eq_true, Bool.not_eq_true', Bool.and_eq_true,
      decide_eq_true_eq] at settled
    rcases settled with solid | ⟨rfl, solid⟩
    · exact .inl ((Text.stops_cons _ _ _).2 solid)
    · exact .inr ⟨next, more, rfl, solid⟩

theorem isSpace_space : isSpace ' ' = true := by
  decide

/-- Characters of a kind that white space is not of are no white space. -/
theorem not_isSpace_of_outside {isKind : Char → Bool}
    (outside : [' ', '\n', '\t'].any isKind = false) (character : Char)
    (inKind : isKind character = true) : isSpace character = false := by
  rw [Bool.eq_false_iff]
  intro white
  rw [List.any_eq_false] at outside
  apply outside character _ inKind
  simpa [isSpace, or_assoc] using white

theorem not_isSpace_of_isHexDigit (character : Char)
    (isDigit : Text.isHexDigit character = true) : isSpace character = false :=
  not_isSpace_of_outside (by decide) character isDigit

theorem escapeDigits_squeeze (rest : Text) :
    escapeDigits (Text.squeeze isSpace rest) = escapeDigits rest :=
  Text.takeWhile_take_squeeze isSpace_space not_isSpace_of_isHexDigit 6 rest

/--
An escape takes the same characters of a squeezed text.  They stay as they are in front of any part
of what is left of the text.
-/
structure EscapeTaken (rest source : Text) : Prop where
  isSource : rest = source ++ (readEscape rest).2
  read : readEscape (Text.squeeze isSpace rest) =
    ((readEscape rest).1, Text.squeeze isSpace (readEscape rest).2)
  stays : ∀ front, front ≠ [] → front <+: (readEscape rest).2 →
    Text.squeeze isSpace (source ++ front) = source ++ Text.squeeze isSpace front

/-- A single space in front of other text stays in front of any part of that. -/
theorem squeeze_space_append {next : Char} (solid : isSpace next = false) {more front : Text}
    (filled : front ≠ []) (isFront : front <+: next :: more) :
    Text.squeeze isSpace (' ' :: front) = ' ' :: Text.squeeze isSpace front := by
  cases front with
  | nil => exact absurd rfl filled
  | cons first others =>
      rw [List.cons_prefix_cons] at isFront
      rw [isFront.1]
      exact Text.squeeze_gap_solid isSpace_space solid others

theorem escapeTaken_literal {rest : Text} (digits : escapeDigits rest = [])
    (settled : settles rest = true) : ∃ source, EscapeTaken rest source := by
  have digitsAgain := escapeDigits_squeeze rest
  rw [digits] at digitsAgain
  rcases exists_of_settles settled with stops | ⟨next, more, rfl, solid⟩
  · cases rest with
    | nil =>
        exact ⟨[], rfl, rfl, fun front filled isFront =>
          absurd (List.prefix_nil.1 isFront) filled⟩
    | cons character more =>
        rw [Text.stops_cons] at stops
        rw [Text.squeeze_solid stops] at digitsAgain
        refine ⟨[character], ?_, ?_, ?_⟩
        · rw [readEscape_plain digits, List.singleton_append]
        · rw [Text.squeeze_solid stops, readEscape_plain digitsAgain, readEscape_plain digits]
        · intro front _ _
          exact Text.squeeze_solid stops front
  · have squeezed := Text.squeeze_gap_solid isSpace_space solid more
    rw [squeezed] at digitsAgain
    refine ⟨[' '], ?_, ?_, ?_⟩
    · rw [readEscape_plain digits, List.singleton_append]
    · rw [squeezed, readEscape_plain digitsAgain, readEscape_plain digits]
    · rw [readEscape_plain digits]
      intro front filled isFront
      exact squeeze_space_append solid filled isFront

theorem escapeTaken_code {digits after : Text} (found : escapeDigits (digits ++ after) = digits)
    (filled : digits ≠ []) (settled : settles after = true) :
    ∃ source, EscapeTaken (digits ++ after) source := by
  have isDigits : ∀ digit ∈ digits, isSpace digit = false := by
    rw [← found]
    exact fun digit member => not_isSpace_of_isHexDigit digit (Text.mem_takeWhile digit member)
  have foundAgain : escapeDigits (digits ++ Text.squeeze isSpace after) = digits := by
    rw [← Text.squeeze_append isDigits, escapeDigits_squeeze, found]
  have read (tail : Text) (found : escapeDigits (digits ++ tail) = digits) :
      readEscape (digits ++ tail) = (ofCode (Text.ofDigits 16 digits), dropSpace tail) := by
    rw [readEscape_code (by rwa [found]), found, List.drop_left]
  rcases exists_of_settles settled with stops | ⟨next, more, rfl, solid⟩
  · refine ⟨digits, ?_, ?_, ?_⟩
    · rw [read after found, dropSpace_of_stops stops]
    · rw [Text.squeeze_append isDigits, read _ foundAgain, dropSpace_of_stops stops.squeeze,
        read after found, dropSpace_of_stops stops]
    · intro front _ _
      exact Text.squeeze_append isDigits front
  · refine ⟨digits ++ [' '], ?_, ?_, ?_⟩
    · rw [read _ found, List.append_assoc]
      rfl
    · rw [Text.squeeze_append isDigits, read _ foundAgain, read _ found,
        Text.squeeze_gap_solid isSpace_space solid]
      rfl
    · rw [read _ found]
      intro front filled isFront
      rw [List.append_assoc, Text.squeeze_append isDigits, List.singleton_append,
        squeeze_space_append solid filled isFront, List.append_assoc, List.singleton_append]

/-- Every escape in a calm text is taken like that from the squeezed text. -/
theorem Calm.exists_escapeTaken {rest : Text} (calm : Calm ('\\' :: rest)) :
    ∃ source, EscapeTaken rest source := by
  by_cases digits : escapeDigits rest = []
  · have settled := calm.settles
    rw [digits, List.length_nil, List.drop_zero] at settled
    exact escapeTaken_literal digits settled
  · have isPrefix : escapeDigits rest <+: rest :=
      (List.takeWhile_prefix _).trans (List.take_prefix 6 rest)
    have settled := calm.settles
    rcases isPrefix with ⟨after, shape⟩
    generalize found : escapeDigits rest = taken at digits settled shape
    subst shape
    rw [List.drop_left] at settled
    exact escapeTaken_code found digits settled

/-- Behind a backslash in a calm text stands no line feed. -/
theorem Calm.escapes {rest : Text} (calm : Calm ('\\' :: rest)) : escapes rest = true := by
  have settled := calm.settles
  rw [Component.escapes, decide_eq_true_eq]
  intro starts
  cases rest with
  | nil => cases starts
  | cons next more =>
      cases starts
      rcases exists_of_settles settled with stops | ⟨_, _, shape, _⟩
      · cases stops '\n' rfl
      · cases shape

/-- Squeezed text begins with no line feed. -/
theorem escapes_squeeze (rest : Text) : escapes (Text.squeeze isSpace rest) = true := by
  rw [escapes, decide_eq_true_eq]
  intro starts
  rcases Text.mem_squeeze (List.mem_of_mem_head? starts) with ⟨_, solid⟩ | space
  · cases solid
  · cases space

/-! ## Names -/

theorem not_isSpace_of_isNameCharacter (character : Char)
    (inName : isNameCharacter character = true) : isSpace character = false :=
  not_isSpace_of_outside (by decide) character inName

/-- A name is read alike from a squeezed text. -/
theorem readName_squeeze {text : Text} (calm : Calm text) :
    readName (Text.squeeze isSpace text) =
      ((readName text).1, Text.squeeze isSpace (readName text).2) := by
  fun_induction readName text with
  | case1 => exact readName_stops (Text.stops_nil _) (Text.stops_nil _)
  | case2 character rest stays hypothesis =>
      rw [Text.squeeze_solid (not_isSpace_of_isNameCharacter character stays),
        readName_plain stays, hypothesis calm.tail]
  | case3 character rest stays escape shorter hypothesis =>
      simp only [Bool.and_eq_true, decide_eq_true_eq] at escape
      rcases escape with ⟨rfl, escape⟩
      rcases calm.exists_escapeTaken with ⟨source, taken⟩
      have left := calm.tail.of_suffix (readEscape_suffix rest)
      rw [Text.squeeze_solid (by decide), readName_escape (escapes_squeeze rest), taken.read,
        hypothesis left]
  | case4 character rest stays noEscape =>
      have noName : Text.Stops isNameCharacter (Text.squeeze isSpace (character :: rest)) := by
        rw [Text.stops_squeeze isSpace_space not_isSpace_of_isNameCharacter, Text.stops_cons]
        simpa using stays
      refine readName_stops noName ?_
      rw [Text.stops_squeeze isSpace_space (not_isSpace_of_outside (by decide)), Text.stops_cons,
        decide_eq_false_iff_not]
      rintro rfl
      simp [calm.escapes] at noEscape

/-- White space begins no name, neither in a text nor in its squeezed form. -/
theorem startsIdentifier_white {character : Char} (white : isSpace character = true) (rest : Text) :
    startsIdentifier (Text.squeeze isSpace (character :: rest)) =
        startsIdentifier (character :: rest) ∧
      startsIdentifier ('-' :: Text.squeeze isSpace (character :: rest)) =
        startsIdentifier ('-' :: character :: rest) ∧
      startsHash (Text.squeeze isSpace (character :: rest)) = startsHash (character :: rest) := by
  have none : startsIdentifier (character :: rest) = false ∧
      startsIdentifier ('-' :: character :: rest) = false ∧
      startsHash (character :: rest) = false := by
    simp only [isSpace, Bool.or_eq_true, decide_eq_true_eq] at white
    rcases white with (rfl | rfl) | rfl <;> exact ⟨rfl, rfl, rfl⟩
  rw [none.1, none.2.1, none.2.2]
  rcases Text.squeeze_gap_cases isSpace_space white rest with shape | ⟨more, shape⟩ <;>
  · rw [shape]
    exact ⟨rfl, rfl, rfl⟩

/-- Squeezed text begins with a name where the text does. -/
theorem startsIdentifier_squeeze {text : Text} (calm : Calm text) :
    startsIdentifier (Text.squeeze isSpace text) = startsIdentifier text := by
  rcases text with _ | ⟨character, rest⟩
  · rfl
  cases gap : isSpace character with
  | true => exact (startsIdentifier_white gap rest).1
  | false =>
      rw [Text.squeeze_solid gap]
      by_cases isEscape : character = '\\'
      · subst isEscape
        rw [startsIdentifier, startsIdentifier, calm.escapes, escapes_squeeze]
      by_cases isHyphen : character = '-'
      · subst isHyphen
        rcases rest with _ | ⟨next, more⟩
        · rfl
        cases gapNext : isSpace next with
        | true => exact (startsIdentifier_white gapNext more).2.1
        | false =>
            rw [Text.squeeze_solid gapNext]
            by_cases isEscapeNext : next = '\\'
            · subst isEscapeNext
              rw [startsIdentifier, startsIdentifier, calm.tail.escapes, escapes_squeeze]
            · simp [startsIdentifier]
      · simp [startsIdentifier]

theorem startsHash_squeeze {text : Text} (calm : Calm text) :
    startsHash (Text.squeeze isSpace text) = startsHash text := by
  rcases text with _ | ⟨character, rest⟩
  · rfl
  cases gap : isSpace character with
  | true => exact (startsIdentifier_white gap rest).2.2
  | false =>
      rw [Text.squeeze_solid gap]
      by_cases isEscape : character = '\\'
      · subst isEscape
        rw [startsHash, startsHash, calm.escapes, escapes_squeeze]
      · simp [startsHash]

/-! ## Strings, addresses and comments -/

/--
A string is read from a squeezed text up to the same place.  Its value is the same exactly if its
source, which ends with the closing quote, is squeezed already.
-/
structure StringKept (quote : Char) (text value rest source : Text) : Prop where
  filled : source ≠ []
  isSource : text = source ++ rest
  kept : ∃ again, readString quote (Text.squeeze isSpace text) =
      (again, .closed, Text.squeeze isSpace rest) ∧ again.length ≤ value.length ∧
    (again = value ↔ Text.squeeze isSpace source = source)

theorem stringKept_quote {quote : Char} (solid : isSpace quote = false) (rest : Text) :
    StringKept quote (quote :: rest) [] rest [quote] := by
  refine ⟨List.cons_ne_nil _ _, rfl, [], ?_, Nat.le_refl 0, ?_⟩
  · rw [Text.squeeze_solid solid, readString_quote]
  · rw [Text.squeeze_solid solid]
    simp [Text.squeeze]

theorem StringKept.solid {quote character : Char} {text value rest source : Text}
    (kept : StringKept quote text value rest source) (gap : isSpace character = false)
    (notQuote : character ≠ quote) (notEscape : character ≠ '\\') :
    StringKept quote (character :: text) (character :: value) rest (character :: source) := by
  rcases kept.kept with ⟨again, read, short, same⟩
  have notBreak : character ≠ '\n' := by
    rintro rfl
    cases gap
  refine ⟨List.cons_ne_nil _ _, by rw [kept.isSource, List.cons_append], character :: again, ?_,
    Nat.succ_le_succ short, ?_⟩
  · rw [Text.squeeze_solid gap, readString_plain notQuote notBreak notEscape, read]
  · rw [Text.squeeze_solid gap, List.cons.injEq, List.cons.injEq, same]

theorem StringKept.white {quote character : Char} {text value rest source : Text}
    (kept : StringKept quote text value rest source) (gap : isSpace character = true)
    (isQuote : Text.isQuote quote = true) :
    StringKept quote (character :: text) (character :: value) rest (character :: source) := by
  rcases kept.kept with ⟨again, read, short, same⟩
  rcases List.exists_cons_of_ne_nil kept.filled with ⟨next, more, rfl⟩
  have isSource := kept.isSource
  rw [List.cons_append] at isSource
  subst isSource
  have shorter : (Text.squeeze isSpace (next :: more)).length ≤ (next :: more).length :=
    Text.length_squeeze_le (next :: more)
  cases gapNext : isSpace next with
  | true =>
      -- The run of white space goes on: its first character is left out.
      refine ⟨List.cons_ne_nil _ _, rfl, again, ?_, ?_, ?_⟩
      · rw [Text.squeeze_gap_gap isSpace_space gap gapNext, read]
      · exact Nat.le_succ_of_le short
      · rw [Text.squeeze_gap_gap isSpace_space gap gapNext]
        constructor
        · rintro rfl
          exact absurd short (Nat.not_succ_le_self _)
        · intro whole
          rw [whole] at shorter
          exact absurd shorter (Nat.not_succ_le_self _)
  | false =>
      have notQuote : ' ' ≠ quote := by
        rintro rfl
        cases isQuote
      refine ⟨List.cons_ne_nil _ _, rfl, ' ' :: again, ?_, Nat.succ_le_succ short, ?_⟩
      · rw [Text.squeeze_gap_solid gap gapNext, readString_plain notQuote (by decide) (by decide),
          read]
      · rw [Text.squeeze_gap_solid gap gapNext, List.cons.injEq, List.cons.injEq, same]

theorem StringKept.escape {quote escaped : Char} {more value rest source : Text}
    (calm : Calm ('\\' :: escaped :: more)) (notQuote : '\\' ≠ quote)
    (kept : StringKept quote (readEscape (escaped :: more)).2 value rest source) :
    ∃ front, StringKept quote ('\\' :: escaped :: more)
      ((readEscape (escaped :: more)).1 :: value) rest front := by
  rcases calm.exists_escapeTaken with ⟨taken, isTaken⟩
  rcases kept.kept with ⟨again, read, short, same⟩
  have squeezed := isTaken.stays source kept.filled ⟨rest, kept.isSource.symm⟩
  have behind : (readEscape (escaped :: more)).2 ≠ [] := by
    rw [kept.isSource]
    exact List.append_ne_nil_of_left_ne_nil kept.filled rest
  have whole := isTaken.stays _ behind (List.prefix_refl _)
  rw [← isTaken.isSource] at whole
  -- The string is closed, so that something follows the escape.
  have filled : Text.squeeze isSpace (escaped :: more) ≠ [] := by
    intro empty
    rw [whole, List.append_eq_nil_iff] at empty
    rw [empty.2, readString.eq_def] at read
    cases read
  rcases List.exists_cons_of_ne_nil filled with ⟨next, others, shape⟩
  have notBreak : next ≠ '\n' := by
    have escape := escapes_squeeze (escaped :: more)
    rw [shape] at escape
    simpa [escapes] using escape
  refine ⟨'\\' :: (taken ++ source), List.cons_ne_nil _ _, ?_,
    (readEscape (escaped :: more)).1 :: again, ?_, Nat.succ_le_succ short, ?_⟩
  · rw [List.cons_append, List.append_assoc, ← kept.isSource, ← isTaken.isSource]
  · rw [Text.squeeze_solid (by decide), shape, readString_escape notQuote notBreak, ← shape,
      isTaken.read, read]
  · rw [Text.squeeze_solid (by decide), squeezed, List.cons.injEq, List.cons.injEq,
      List.append_cancel_left_eq, same]
    simp

/-- Every string that is closed in a calm text is kept like that. -/
theorem exists_stringKept {quote : Char} {text value rest : Text}
    (isQuote : Text.isQuote quote = true) (calm : Calm text)
    (closed : readString quote text = (value, .closed, rest)) :
    ∃ source, StringKept quote text value rest source := by
  have solid : isSpace quote = false := not_isSpace_of_outside (by decide) quote isQuote
  fun_induction readString quote text generalizing value with
  | case1 => cases closed
  | case2 more =>
      cases closed
      exact ⟨_, stringKept_quote solid _⟩
  | case3 => cases closed
  | case4 => cases closed
  | case5 more notQuote notBreak hypothesis => cases calm.escapes
  | case6 escaped more notJoined shorter left notQuote notBreak =>
      rename_i hypothesis
      rcases Prod.mk.inj closed with ⟨rfl, ending⟩
      have leftCalm : Calm left := calm.tail.of_suffix (readEscape_suffix _)
      rcases hypothesis leftCalm (Prod.ext rfl ending) with ⟨source, kept⟩
      exact kept.escape calm notQuote
  | case7 character more notQuote notBreak notEscape hypothesis =>
      rcases Prod.mk.inj closed with ⟨rfl, ending⟩
      rcases hypothesis calm.tail (Prod.ext rfl ending) with ⟨source, kept⟩
      cases gap : isSpace character with
      | true => exact ⟨_, kept.white gap isQuote⟩
      | false => exact ⟨_, kept.solid gap notQuote notEscape⟩

/-- An address that is closed in a calm text has the same value in the squeezed text. -/
theorem readAddress_squeeze {text value rest : Text} (calm : Calm text)
    (closed : readAddress text = (value, .closed, rest)) :
    readAddress (Text.squeeze isSpace text) = (value, .closed, Text.squeeze isSpace rest) := by
  fun_induction readAddress text generalizing value with
  | case1 => cases closed
  | case2 more =>
      cases closed
      rw [Text.squeeze_solid (by decide)]
      exact readAddress_closed _
  | case3 => cases closed
  | case4 character more notClosing white after closes =>
      cases closed
      have closing : isSpace ')' = false := by decide
      have behind := Text.dropWhile_gap_squeeze isSpace_space (character :: more)
      rw [List.dropWhile_cons_of_pos white, closes, Text.squeeze_solid closing] at behind
      rcases Text.squeeze_gap_cases isSpace_space white more with shape | ⟨others, shape⟩
      · rw [shape] at behind
        cases behind
      · rw [shape, List.dropWhile_cons_of_pos isSpace_space] at behind
        rw [shape, readAddress_space isSpace_space behind]
  | case5 => cases closed
  | case6 character more notClosing noSpace escape shorter hypothesis =>
      rcases Prod.mk.inj closed with ⟨rfl, ending⟩
      simp only [Bool.and_eq_true, decide_eq_true_eq] at escape
      rcases escape with ⟨rfl, escape⟩
      rcases calm.exists_escapeTaken with ⟨source, taken⟩
      have leftCalm := calm.tail.of_suffix (readEscape_suffix more)
      rw [Text.squeeze_solid (by decide), readAddress_escape (escapes_squeeze more), taken.read,
        hypothesis leftCalm (Prod.ext rfl ending)]
  | case7 => cases closed
  | case8 character more notClosing noSpace noEscape noBreak hypothesis =>
      rcases Prod.mk.inj closed with ⟨rfl, ending⟩
      have notEscape : character ≠ '\\' := by
        rintro rfl
        simp [calm.escapes] at noEscape
      rw [Text.squeeze_solid (Bool.eq_false_iff.2 noSpace),
        readAddress_plain notClosing noSpace (by simp [notEscape]) noBreak,
        hypothesis calm.tail (Prod.ext rfl ending)]

theorem readComment_open {character : Char} {rest : Text}
    (notClosed : ∀ more, character = '*' → rest = '/' :: more → False) :
    readComment (character :: rest) =
      (character :: (readComment rest).1, (readComment rest).2) := by
  rw [readComment]
  exact notClosed

/-- A comment ends at the same place in a squeezed text and holds the same but for white space. -/
theorem readComment_squeeze (text : Text) :
    ((readComment (Text.squeeze isSpace text)).1.filter fun character => !isSpace character) =
        ((readComment text).1.filter fun character => !isSpace character) ∧
      (readComment (Text.squeeze isSpace text)).2 =
        Text.squeeze isSpace (readComment text).2 := by
  fun_induction readComment text with
  | case1 more =>
      rw [Text.squeeze_solid (by decide), Text.squeeze_solid (by decide), readComment]
      exact ⟨rfl, rfl⟩
  | case2 character more notClosed hypothesis =>
      cases gap : isSpace character with
      | true =>
          rw [Text.squeeze_gap gap, List.filter_cons_of_neg (by simp [gap])]
          rcases Text.behindGap_eq (Text.squeeze isSpace more) with same | ⟨_, same⟩
          · rw [same]
            exact hypothesis
          · have spaceOpen : ∀ others, ' ' = '*' → Text.squeeze isSpace more = '/' :: others →
                False := fun _ isStar => absurd isStar (by decide)
            rw [same, readComment_open spaceOpen, List.filter_cons_of_neg (by simp [isSpace_space])]
            exact hypothesis
      | false =>
          have stillOpen : ∀ others, character = '*' → Text.squeeze isSpace more = '/' :: others →
              False := by
            rintro others rfl shape
            rcases Text.exists_of_squeeze_cons isSpace_space (by decide) shape with ⟨rest, rfl, _⟩
            exact notClosed rest rfl rfl
          rw [Text.squeeze_solid gap, readComment_open stillOpen,
            List.filter_cons_of_pos (by simp [gap]), List.filter_cons_of_pos (by simp [gap]),
            hypothesis.1, hypothesis.2]
          exact ⟨rfl, rfl⟩
  | case3 => exact ⟨rfl, rfl⟩

/-! ## Numbers and ranges -/

theorem not_isSpace_of_isDigit (character : Char) (isDigit : Text.isDigit character = true) :
    isSpace character = false :=
  not_isSpace_of_outside (by decide) character isDigit

theorem IsSign.solid {sign : Text} (isSign : IsSign sign) :
    ∀ character ∈ sign, isSpace character = false := by
  rcases isSign with rfl | rfl | rfl <;>
  · simp [isSpace]

theorem IsExponent.solid {exponent : Text} (isExponent : IsExponent exponent) :
    ∀ character ∈ exponent, isSpace character = false := by
  cases isExponent with
  | digits isMark isSign isDigits =>
      rw [List.forall_mem_cons, List.forall_mem_append]
      refine ⟨?_, isSign.solid, fun digit member =>
        not_isSpace_of_isDigit digit (isDigits.digits digit member)⟩
      rcases isMark with rfl | rfl <;> decide

/-- There is no white space in a number. -/
theorem IsNumber.solid {written : Text} (isNumber : IsNumber written) :
    ∀ character ∈ written, isSpace character = false := by
  rcases isNumber with ⟨parts, valid, rfl⟩
  have isDigits {digits : Text} (isDigits : ∀ digit ∈ digits, Text.isDigit digit = true) :
      ∀ digit ∈ digits, isSpace digit = false := fun digit member =>
    not_isSpace_of_isDigit digit (isDigits digit member)
  rw [NumberParts.text, List.forall_mem_append, List.forall_mem_append, List.forall_mem_append]
  refine ⟨valid.isSign.solid, isDigits valid.whole, ?_, ?_⟩
  · rcases valid.fraction with empty | ⟨digits, isDigitsAll, point⟩
    · rw [empty]
      exact List.forall_mem_nil _
    · rw [point, List.forall_mem_cons]
      exact ⟨by decide, isDigits isDigitsAll.digits⟩
  · rcases valid.exponent with empty | isExponent
    · rw [empty]
      exact List.forall_mem_nil _
    · exact isExponent.solid

theorem splitSign_squeeze (text : Text) :
    splitSign (Text.squeeze isSpace text) =
      ((splitSign text).1, Text.squeeze isSpace (splitSign text).2) := by
  fun_cases splitSign text with
  | case1 rest => rw [Text.squeeze_solid (by decide), splitSign]
  | case2 rest => rw [Text.squeeze_solid (by decide), splitSign]
  | case3 text noMinus noPlus =>
      rw [splitSign]
      · intro after shape
        rcases Text.exists_of_squeeze_cons isSpace_space (by decide) shape with ⟨rest, same, _⟩
        exact noMinus rest same
      · intro after shape
        rcases Text.exists_of_squeeze_cons isSpace_space (by decide) shape with ⟨rest, same, _⟩
        exact noPlus rest same

theorem splitFraction_squeeze (text : Text) :
    splitFraction (Text.squeeze isSpace text) =
      ((splitFraction text).1, Text.squeeze isSpace (splitFraction text).2) := by
  have outside : ∀ character, decide (character = '.') = true → isSpace character = false :=
    not_isSpace_of_outside (by decide)
  by_cases noPoint : Text.Stops (· = '.') text
  · rw [splitFraction_eq_nil noPoint,
      splitFraction_eq_nil ((Text.stops_squeeze isSpace_space outside).2 noPoint)]
  rcases text with _ | ⟨point, rest⟩
  · exact absurd (Text.stops_nil _) noPoint
  rw [Text.stops_cons, decide_eq_false_iff_not, Classical.not_not] at noPoint
  subst noPoint
  rw [Text.squeeze_solid (by decide)]
  by_cases noDigit : Text.Stops Text.isDigit rest
  · have none {other : Text} (noDigit : Text.Stops Text.isDigit other) :
        splitFraction ('.' :: other) = ([], '.' :: other) := by
      cases other with
      | nil => simp [splitFraction]
      | cons digit more =>
          rw [Text.stops_cons] at noDigit
          simp [splitFraction, noDigit]
    rw [none noDigit, none ((Text.stops_squeeze isSpace_space not_isSpace_of_isDigit).2 noDigit),
      Text.squeeze_solid (by decide)]
  · rcases rest with _ | ⟨digit, more⟩
    · exact absurd (Text.stops_nil _) noDigit
    rw [Text.stops_cons, Bool.not_eq_false] at noDigit
    have solid := not_isSpace_of_isDigit digit noDigit
    rw [Text.squeeze_solid solid, splitFraction, splitFraction, if_pos noDigit, if_pos noDigit,
      ← Text.squeeze_solid solid, Text.takeWhile_squeeze isSpace_space not_isSpace_of_isDigit,
      Text.dropWhile_squeeze isSpace_space not_isSpace_of_isDigit]

theorem splitNumber_squeeze (text : Text) :
    splitNumber (Text.squeeze isSpace text) =
      ((splitNumber text).1, Text.squeeze isSpace (splitNumber text).2) := by
  simp only [splitNumber, splitSign_squeeze, splitFraction_squeeze,
    Text.takeWhile_squeeze isSpace_space not_isSpace_of_isDigit,
    Text.dropWhile_squeeze isSpace_space not_isSpace_of_isDigit]

/-- Whether a digit stands at the start of a text does not change when it is squeezed. -/
theorem head_isDigit_squeeze (text : Text) :
    ((Text.squeeze isSpace text).head?.map Text.isDigit).getD false =
      (text.head?.map Text.isDigit).getD false := by
  have isHead (text : Text) : (text.head?.map Text.isDigit).getD false = true ↔
      ¬ Text.Stops Text.isDigit text := by
    cases text <;> simp [Text.stops_nil]
  rw [Bool.eq_iff_iff, isHead, isHead,
    Text.stops_squeeze isSpace_space not_isSpace_of_isDigit]

/-- A number is taken from a squeezed text up to the same place. -/
theorem before_squeeze_of_eq {text front rest : Text} (shape : text = front ++ rest)
    (solid : ∀ character ∈ front, isSpace character = false) :
    Text.before (Text.squeeze isSpace text) (Text.squeeze isSpace rest) =
      Text.before text rest := by
  rw [shape, Text.before_squeeze solid, Text.before_left]

theorem splitExponent_squeeze (text : Text) :
    splitExponent (Text.squeeze isSpace text) =
      ((splitExponent text).1, Text.squeeze isSpace (splitExponent text).2) := by
  rcases exists_of_splitExponent text with ⟨exponent, isExponent, _, shape⟩
  have solid : ∀ character ∈ exponent, isSpace character = false := by
    rcases isExponent with rfl | isExponent
    · exact List.forall_mem_nil _
    · exact isExponent.solid
  have same := before_squeeze_of_eq shape solid
  rcases text with _ | ⟨mark, rest⟩
  · rfl
  have isMark : ∀ character, (character = 'e' || character = 'E') = true →
      isSpace character = false := not_isSpace_of_outside (by decide)
  cases gap : isSpace mark with
  | true =>
      have noMark : (mark = 'e' || mark = 'E') = false := by
        rw [Bool.eq_false_iff]
        intro starts
        rw [isMark mark starts] at gap
        cases gap
      have alone : splitExponent (mark :: rest) = ([], mark :: rest) := by
        simp [splitExponent, noMark]
      rw [alone]
      rcases Text.squeeze_gap_cases isSpace_space gap rest with shape | ⟨more, shape⟩ <;>
      · rw [shape]
        rfl
  | false =>
      rw [Text.squeeze_solid gap] at same ⊢
      simp only [splitExponent, splitSign_squeeze, head_isDigit_squeeze,
        Text.dropWhile_squeeze isSpace_space not_isSpace_of_isDigit] at same ⊢
      split
      · rename_i starts
        rw [if_pos starts] at same
        rw [same]
      · rw [Text.squeeze_solid gap]

/-- A number is read alike from a squeezed text. -/
theorem splitNumeral_squeeze {text : Text} {found : Option (Text × Text)}
    (read : splitNumeral text = .ok found) :
    splitNumeral (Text.squeeze isSpace text) =
      .ok (found.map fun (written, rest) => (written, Text.squeeze isSpace rest)) := by
  have before {written rest : Text} (isFound : found = some (written, rest)) :
      Text.before (Text.squeeze isSpace text) (Text.squeeze isSpace rest) =
        Text.before text rest := by
    subst isFound
    have shape : text = written ++ rest := by
      rw [(splitNumeral_found read).2.2.1, Text.before_append (splitNumeral_suffix read)]
    exact before_squeeze_of_eq shape (isNumber_of_splitNumeral read).solid
  simp only [splitNumeral, splitNumber_squeeze, splitExponent_squeeze] at read ⊢
  split at read
  · rename_i empty
    rw [if_pos empty]
    cases read
    rfl
  · rename_i filled
    rw [if_neg filled]
    split at read
    · rename_i isWhole
      rw [if_pos isWhole]
      generalize readInteger _ _ = value at read
      cases value with
      | error failure => cases read
      | ok whole =>
          cases read
          rw [before rfl]
          rfl
    · rename_i notWhole
      rw [if_neg notWhole]
      cases read
      rw [before rfl]
      rfl

/-! ## Lexemes without white space inside -/

/-- What is read of a squeezed text where the same lexemes are found. -/
def squeezed (reading : Reading) : Reading :=
  (reading.1, Text.squeeze isSpace reading.2)

theorem squeezed_single (leaf : Atom) (rest : Text) :
    squeezed (single leaf rest) = single leaf (Text.squeeze isSpace rest) := rfl

/-- A text that does not begin with a character does not when it is squeezed. -/
theorem squeeze_ne_cons {character : Char} {rest : Text} (solid : isSpace character = false)
    (other : ∀ more, rest ≠ character :: more) :
    ∀ more, Text.squeeze isSpace rest ≠ character :: more := by
  intro more shape
  rcases Text.exists_of_squeeze_cons isSpace_space solid shape with ⟨others, same, _⟩
  exact other others same

theorem lexMeasure_squeeze (written : Text) {rest : Text} (calm : Calm rest) :
    lexMeasure written (Text.squeeze isSpace rest) = squeezed (lexMeasure written rest) := by
  have number {rest : Text} (noWord : startsIdentifier rest = false)
      (noPercent : ∀ after, rest ≠ '%' :: after) :
      lexMeasure written rest = single (.number written) rest := by
    rw [lexMeasure, if_neg (by simp [noWord])]
    exact noPercent
  have starts := startsIdentifier_squeeze calm
  by_cases word : startsIdentifier rest = true
  · simp only [lexMeasure, starts, readName_squeeze calm]
    rw [if_pos word, if_pos word]
    rfl
  by_cases percent : ∃ after, rest = '%' :: after
  · rcases percent with ⟨after, rfl⟩
    rw [Text.squeeze_solid (by decide)]
    rfl
  · rw [not_exists] at percent
    rw [Bool.not_eq_true] at word
    rw [number word percent, number (starts.trans word) (squeeze_ne_cons (by decide) percent)]
    rfl

theorem lexRange_squeeze (text : Text) :
    lexRange (Text.squeeze isSpace text) = squeezed (lexRange text) := by
  have isMark : ∀ character, decide (character = '?') = true → isSpace character = false :=
    not_isSpace_of_outside (by decide)
  simp only [lexRange, Text.takeWhile_take_squeeze isSpace_space not_isSpace_of_isHexDigit,
    Text.drop_takeWhile_take_squeeze not_isSpace_of_isHexDigit,
    Text.takeWhile_take_squeeze isSpace_space isMark,
    Text.drop_takeWhile_take_squeeze isMark]
  split
  · rfl
  · generalize List.drop _ (List.drop _ text) = left
    by_cases hyphen : ∃ rest, left = '-' :: rest
    · rcases hyphen with ⟨rest, rfl⟩
      rw [Text.squeeze_solid (by decide)]
      simp only [Text.takeWhile_take_squeeze isSpace_space not_isSpace_of_isHexDigit,
        Text.drop_takeWhile_take_squeeze not_isSpace_of_isHexDigit]
      split
      · have solid : isSpace '-' = false := by decide
        rw [squeezed_single, Text.squeeze_solid solid]
      · rfl
    · rw [not_exists] at hyphen
      have hyphenAgain : ∀ more, Text.squeeze isSpace left ≠ '-' :: more :=
        squeeze_ne_cons (by decide) hyphen
      split
      · rename_i more shape
        exact absurd shape (hyphenAgain more)
      · rfl

theorem lexSign_squeeze (character : Char) (rest : Text) :
    lexSign character (Text.squeeze isSpace rest) = squeezed (lexSign character rest) := by
  fun_cases lexSign character rest with
  | case1 after =>
      rw [Text.squeeze_solid (by decide), Text.squeeze_solid (by decide),
        Text.squeeze_solid (by decide)]
      rfl
  | case2 after =>
      rw [Text.squeeze_solid (by decide)]
      rfl
  | case3 character after joins =>
      rw [Text.squeeze_solid (by decide)]
      simp [lexSign, joins, squeezed, single]
  | case4 character after apart =>
      have literal (other : Text) :
          lexSign character ('=' :: other) = single (.literal [character]) ('=' :: other) := by
        simp [lexSign, apart]
      have solid : isSpace '=' = false := by decide
      rw [Text.squeeze_solid solid, literal, if_neg apart, squeezed_single,
        Text.squeeze_solid solid]
  | case5 character rest noEquals noArrow noBars =>
      rw [lexSign]
      · rfl
      · exact squeeze_ne_cons (by decide) noEquals
      · rintro after rfl shape
        have front : ∀ sign ∈ ['!', '-', '-'], isSpace sign = false := by simp [isSpace]
        rcases Text.exists_of_squeeze_append isSpace_space front shape with ⟨more, same, _⟩
        exact noArrow more rfl same
      · rintro after rfl
        exact squeeze_ne_cons (by decide) (fun more => noBars more rfl) after

theorem startsRange_squeeze (mark : Char) (rest : Text) :
    startsRange (mark :: Text.squeeze isSpace rest) = startsRange (mark :: rest) := by
  by_cases plus : ∃ more, rest = '+' :: more
  · rcases plus with ⟨more, rfl⟩
    rw [Text.squeeze_solid (by decide)]
    rcases more with _ | ⟨next, others⟩
    · rfl
    cases gap : isSpace next with
    | true =>
        have inRange : ∀ character, (Text.isHexDigit character || character = '?') = true →
            isSpace character = false := not_isSpace_of_outside (by decide)
        have outside : (Text.isHexDigit next || next = '?') = false := by
          rw [Bool.eq_false_iff]
          intro inside
          rw [inRange next inside] at gap
          cases gap
        have none : startsRange (mark :: '+' :: next :: others) = false := by
          rw [startsRange, outside, Bool.and_false]
        have space : (Text.isHexDigit ' ' || decide (' ' = '?')) = false := by decide
        rw [none]
        rcases Text.squeeze_gap_cases isSpace_space gap others with shape | ⟨more, shape⟩
        · rw [shape]
          rfl
        · rw [shape, startsRange, space, Bool.and_false]
    | false =>
        rw [Text.squeeze_solid gap]
        rfl
  · rw [not_exists] at plus
    have none {rest : Text} (noPlus : ∀ more, rest ≠ '+' :: more) :
        startsRange (mark :: rest) = false := by
      cases rest with
      | nil => rfl
      | cons next more => exact startsRange_of_ne (fun isPlus => noPlus more (by rw [isPlus])) more
    rw [none plus, none (squeeze_ne_cons (by decide) plus)]

theorem isPrefixOf_squeeze {front : Text}
    (solid : ∀ character ∈ front, isSpace character = false) (text : Text) :
    front.isPrefixOf (Text.squeeze isSpace text) = front.isPrefixOf text := by
  rw [Bool.eq_iff_iff, List.isPrefixOf_iff_prefix, List.isPrefixOf_iff_prefix]
  constructor
  · rintro ⟨after, shape⟩
    rcases Text.exists_of_squeeze_append isSpace_space solid shape.symm with ⟨more, rfl, _⟩
    exact List.prefix_append _ _
  · rintro ⟨after, rfl⟩
    rw [Text.squeeze_append solid]
    exact List.prefix_append _ _

/-- A lexeme that an error in the text stands for. -/
def Lexeme.isFlaw : Lexeme → Bool
  | .atom (.flaw _) => true
  | _ => false

theorem lexAddress_squeeze {text : Text} (calm : Calm text)
    (noFlaw : (lexAddress text).1.all (!·.isFlaw) = true) :
    lexAddress (Text.squeeze isSpace text) = squeezed (lexAddress text) := by
  rcases read : readAddress (text.dropWhile isSpace) with ⟨value, ending, rest⟩
  cases ending with
  | closed =>
      have again := readAddress_squeeze (calm.of_suffix (List.dropWhile_suffix isSpace)) read
      simp only [lexAddress, Text.dropWhile_gap_squeeze isSpace_space, again, read]
      rfl
  | unclosed =>
      rw [lexAddress, read] at noFlaw
      simp [Lexeme.isFlaw] at noFlaw
  | broken =>
      rw [lexAddress, read] at noFlaw
      simp [single, Lexeme.isFlaw] at noFlaw

theorem holdsAddress_squeeze (text : Text) :
    holdsAddress (Text.squeeze isSpace text) = holdsAddress text := by
  have stops := Text.stops_dropWhile isSpace text
  rw [holdsAddress, Text.dropWhile_gap_squeeze isSpace_space, holdsAddress]
  cases shape : text.dropWhile isSpace with
  | nil => rfl
  | cons character rest =>
      rw [shape, Text.stops_cons] at stops
      rw [Text.squeeze_solid stops]

theorem lexWord_squeeze {text : Text} (calm : Calm text)
    (noFlaw : (lexWord text).1.all (!·.isFlaw) = true) :
    lexWord (Text.squeeze isSpace text) = squeezed (lexWord text) := by
  rcases read : readName text with ⟨name, rest⟩
  have again := readName_squeeze calm
  rw [read] at again
  by_cases call : ∃ inner, rest = '(' :: inner
  · rcases call with ⟨inner, rfl⟩
    have innerCalm : Calm inner :=
      calm.of_suffix ((List.suffix_cons _ _).trans (read ▸ readName_suffix text))
    rw [Text.squeeze_solid (by decide)] at again
    simp only [lexWord, read] at noFlaw ⊢
    simp only [again, holdsAddress_squeeze]
    split
    · rename_i isAddress
      rw [if_pos isAddress] at noFlaw
      exact lexAddress_squeeze innerCalm noFlaw
    · rfl
  · rw [not_exists] at call
    have identifier {other left : Text} (read : readName other = (name, left))
        (noCall : ∀ inner, left ≠ '(' :: inner) :
        lexWord other = single (.identifier name) left := by
      simp only [lexWord, read]
    rw [identifier read call, identifier again (squeeze_ne_cons (by decide) call)]
    rfl

end CssAuthoring.Component
