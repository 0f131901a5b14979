import CssAuthoring.Proofs.Component.Reread
import CssAuthoring.Proofs.Component.Squeezing

/-!
# Strings among style values

Squeezing a calm text that has no flaws changes the white space among its lexemes, and what stands
in its strings and comments.  Comments are compared apart from white space, as lexemes are.  Strings
have a value, which stays the same exactly if squeezing leaves the part of the text that is read as
the string as it is.

Main statements: `lexString_squeeze`, a string; `readLexeme_squeeze`, what one lexeme becomes, and
with it `lexemes_squeeze`, the lexemes of a text.
-/

namespace CssAuthoring.Component

open CssAuthoring.Numeric

/-! ## Lexemes apart from spacing -/

/-- The value of a lexeme that is a string. -/
def Lexeme.string? : Lexeme → Option Text
  | .atom (.string value _) => some value
  | _ => none

/-- A lexeme without its spacing and without what a string holds; white space is nothing else. -/
def Lexeme.unspaced? : Lexeme → Option Lexeme
  | .atom (.whitespace _) => none
  | .atom (.comment inside) => some (.atom (.comment (inside.filter fun inner => !isSpace inner)))
  | .atom (.string _ closed) => some (.atom (.string [] closed))
  | lexeme => some lexeme

/-- The values of the strings among lexemes, in order. -/
def strings (found : List Lexeme) : List Text :=
  found.filterMap Lexeme.string?

/-- Lexemes without spacing and without what strings hold. -/
def unspaced (found : List Lexeme) : List Lexeme :=
  found.filterMap Lexeme.unspaced?

/-- Lexemes that differ from others in spacing and in strings at most; when the strings agree. -/
structure Respaced (same : Prop) (found again : List Lexeme) : Prop where
  unspaced : unspaced again = unspaced found
  count : (strings again).length = (strings found).length
  strings : strings again = strings found ↔ same

theorem Respaced.refl {same : Prop} (holds : same) (found : List Lexeme) :
    Respaced same found found :=
  ⟨rfl, rfl, iff_of_true rfl holds⟩

theorem Respaced.append {same others : Prop} {found again more moreAgain : List Lexeme}
    (first : Respaced same found again) (second : Respaced others more moreAgain) :
    Respaced (same ∧ others) (found ++ more) (again ++ moreAgain) := by
  have split (front back : List Lexeme) :
      Component.strings (front ++ back) = Component.strings front ++ Component.strings back :=
    List.filterMap_append
  have splitUnspaced (front back : List Lexeme) :
      Component.unspaced (front ++ back) = Component.unspaced front ++ Component.unspaced back :=
    List.filterMap_append
  constructor
  · rw [splitUnspaced, splitUnspaced, first.unspaced, second.unspaced]
  · rw [split, split, List.length_append, List.length_append, first.count, second.count]
  · rw [split, split, ← first.strings, ← second.strings]
    constructor
    · intro whole
      exact List.append_inj whole first.count
    · rintro ⟨front, back⟩
      rw [front, back]

/-! ## The lexemes of squeezed text -/

/-- The parts of a text that are read as strings, with their quotes. -/
def quotedParts (text : Text) : List Text :=
  match text with
  | [] => []
  | character :: rest =>
    match read : readLexeme character rest with
    | .error _ => []
    | .ok (_, after) =>
      have := readLexeme_shorter read
      if Text.isQuote character then Text.before (character :: rest) after :: quotedParts after
      else quotedParts after
termination_by text.length
decreasing_by all_goals exact Nat.lt_succ_of_le this

theorem quotedParts_cons {character : Char} {rest after : Text} {first : List Lexeme}
    (read : readLexeme character rest = .ok (first, after)) :
    quotedParts (character :: rest) =
      if Text.isQuote character then Text.before (character :: rest) after :: quotedParts after
      else quotedParts after := by
  rw [quotedParts]
  split
  · rename_i failed
    rw [read] at failed
    cases failed
  · rename_i found
    rw [read] at found
    cases found
    rfl

/-- A text that is squeezed already, as far as it is a string. -/
def KeepsParts (text : Text) : Prop :=
  ∀ part ∈ quotedParts text, Text.squeeze isSpace part = part

/-- Whether the lexeme at the start of a text is kept when the text is squeezed. -/
def KeepsFirst (character : Char) (rest after : Text) : Prop :=
  Text.isQuote character = true →
    Text.squeeze isSpace (Text.before (character :: rest) after) =
      Text.before (character :: rest) after

theorem keepsParts_cons {character : Char} {rest after : Text} {first : List Lexeme}
    (read : readLexeme character rest = .ok (first, after)) :
    KeepsParts (character :: rest) ↔ KeepsFirst character rest after ∧ KeepsParts after := by
  rw [KeepsParts, quotedParts_cons read, KeepsFirst]
  split
  · rename_i isQuote
    rw [List.forall_mem_cons, KeepsParts]
    simp [isQuote]
  · rename_i notQuote
    simp [notQuote, KeepsParts]

theorem readLexeme_quote {quote : Char} (isQuote : Text.isQuote quote = true) (rest : Text) :
    readLexeme quote rest = .ok (lexString quote rest) := by
  simp only [Text.isQuote, Bool.or_eq_true, decide_eq_true_eq] at isQuote
  rcases isQuote with rfl | rfl <;>
  · rw [readLexeme_mark rfl rfl rfl (by decide)]
    rfl

/-- A string is read up to the same place, and is kept if its part of the text is squeezed. -/
theorem lexString_squeeze {quote : Char} {text : Text} (isQuote : Text.isQuote quote = true)
    (calm : Calm text) (noFlaw : (lexString quote text).1.all (!·.isFlaw) = true) :
    ∃ again, lexString quote (Text.squeeze isSpace text) =
        (again, Text.squeeze isSpace (lexString quote text).2) ∧
      Respaced (KeepsFirst quote text (lexString quote text).2) (lexString quote text).1 again := by
  rcases read : readString quote text with ⟨value, ending, rest⟩
  cases ending with
  | closed =>
      rcases exists_stringKept isQuote calm read with ⟨source, kept⟩
      rcases kept.kept with ⟨valueAgain, readAgain, _, same⟩
      have solid : isSpace quote = false := not_isSpace_of_outside (by decide) quote isQuote
      have part : Text.before (quote :: text) rest = quote :: source := by
        rw [kept.isSource, ← List.cons_append, Text.before_left]
      have keeps : KeepsFirst quote text rest ↔ valueAgain = value := by
        rw [KeepsFirst, part, Text.squeeze_solid solid, List.cons.injEq, same]
        simp [isQuote]
      simp only [lexString, read, readAgain]
      refine ⟨_, rfl, rfl, rfl, ?_⟩
      rw [single, keeps]
      simp [strings, Lexeme.string?]
  | unclosed =>
      rw [lexString, read] at noFlaw
      simp [Lexeme.isFlaw] at noFlaw
  | broken =>
      rw [lexString, read] at noFlaw
      simp [single, Lexeme.isFlaw] at noFlaw

/-- A character that starts no hash, at-keyword, comment or string is a bracket or a sign. -/
theorem lexMark_plain {character : Char} {rest : Text}
    (notQuote : Text.isQuote character = false) (noAt : character ≠ '@')
    (noHash : character ≠ '#') (noComment : ∀ inner, character = '/' → rest ≠ '*' :: inner) :
    lexMark character rest =
      match Bracket.ofOpening? character, Bracket.ofClosing? character with
      | some bracket, _ => ([.enter (.block bracket)], rest)
      | none, some bracket => ([.leave bracket], rest)
      | none, none => lexSign character rest :=
  (lexMark_other noAt noHash noComment).trans (if_neg (by simp [notQuote]))

theorem lexMark_squeeze {character : Char} {rest : Text}
    (notQuote : Text.isQuote character = false) (calm : Calm rest) :
    ∃ again, lexMark character (Text.squeeze isSpace rest) =
        (again, Text.squeeze isSpace (lexMark character rest).2) ∧
      Respaced True (lexMark character rest).1 again := by
  have starts := startsIdentifier_squeeze calm
  have name := readName_squeeze calm
  have stillNoComment {character : Char} {rest : Text}
      (noComment : ∀ inner, character = '/' → rest = '*' :: inner → False) :
      ∀ inner, character = '/' → Text.squeeze isSpace rest ≠ '*' :: inner := by
    rintro inner rfl
    exact squeeze_ne_cons (by decide) (fun more => noComment more rfl) inner
  have same {reading again : Reading} (isSame : again = squeezed reading) :
      ∃ found, again = (found, Text.squeeze isSpace reading.2) ∧
        Respaced True reading.1 found :=
    ⟨reading.1, isSame, .refl trivial _⟩
  fun_cases lexMark character rest with
  | case1 rest identifier =>
      apply same
      simp [lexMark, starts, name, identifier, single, squeezed]
  | case2 rest literal =>
      apply same
      simp [lexMark, starts, literal, single, squeezed]
  | case3 rest hash =>
      apply same
      simp [lexMark, startsHash_squeeze calm, starts, name, hash, single, squeezed]
  | case4 rest literal =>
      apply same
      simp [lexMark, startsHash_squeeze calm, literal, single, squeezed]
  | case5 inner =>
      rcases readComment_squeeze inner with ⟨inside, left⟩
      refine ⟨[.atom (.comment (readComment (Text.squeeze isSpace inner)).1)], ?_, ?_, rfl, ?_⟩
      · rw [Text.squeeze_solid (by decide), single, ← left]
        rfl
      · simp [single, unspaced, Lexeme.unspaced?, inside]
      · exact iff_of_true rfl trivial
  | case6 character rest isQuote noAt noHash noComment =>
      rw [isQuote] at notQuote
      cases notQuote
  | case7 character rest _ bracket opens noAt noHash noComment =>
      apply same
      rw [lexMark_plain notQuote noAt noHash (stillNoComment noComment),
        if_neg (by simp [notQuote]), opens]
      rfl
  | case8 character rest _ bracket closes noOpening noAt noHash noComment =>
      apply same
      rw [lexMark_plain notQuote noAt noHash (stillNoComment noComment),
        if_neg (by simp [notQuote]), closes, noOpening]
      rfl
  | case9 character rest _ noOpening noClosing noAt noHash noComment =>
      apply same
      rw [lexMark_plain notQuote noAt noHash (stillNoComment noComment),
        if_neg (by simp [notQuote]), noOpening, noClosing]
      exact lexSign_squeeze character rest

/-- A lexeme that is neither white space nor a string is kept. -/
theorem readLexeme_squeeze_plain {character : Char} {rest after : Text} {found : List Lexeme}
    (solid : isSpace character = false) (notQuote : Text.isQuote character = false)
    (calm : Calm (character :: rest)) (read : readLexeme character rest = .ok (found, after))
    (noFlaw : found.all (!·.isFlaw) = true) :
    ∃ again, readLexeme character (Text.squeeze isSpace rest) =
        .ok (again, Text.squeeze isSpace after) ∧ Respaced True found again := by
  have same {reading again : Reading} (isReading : reading = (found, after))
      (isSame : again = squeezed reading) :
      ∃ others, (Except.ok again : Except NumeralTooLong Reading) =
          .ok (others, Text.squeeze isSpace after) ∧ Respaced True found others := by
    rw [isSame, isReading]
    exact ⟨found, rfl, .refl trivial found⟩
  have starts := startsIdentifier_squeeze calm
  have range := startsRange_squeeze character rest
  have arrow : "-->".toList.isPrefixOf (Text.squeeze isSpace (character :: rest)) =
      "-->".toList.isPrefixOf (character :: rest) := isPrefixOf_squeeze (by simp [isSpace]) _
  have name (word : (lexWord (character :: rest)).1.all (!·.isFlaw) = true) :=
    lexWord_squeeze calm word
  rw [Text.squeeze_solid solid] at starts arrow name
  unfold readLexeme at read ⊢
  rw [if_neg (by simp [solid])] at read ⊢
  rw [range, arrow, starts]
  by_cases isRange : startsRange (character :: rest) = true
  · rw [if_pos isRange] at read ⊢
    rcases exists_of_startsRange isRange with ⟨mark, more, shape, _⟩
    cases shape
    rw [Text.squeeze_solid (by decide)]
    exact same (Except.ok.inj read) (lexRange_squeeze more)
  rw [if_neg isRange] at read ⊢
  by_cases isArrow : "-->".toList.isPrefixOf (character :: rest) = true
  · rw [if_pos isArrow] at read ⊢
    rcases exists_of_startsArrow isArrow with ⟨more, shape, _⟩
    cases shape
    rw [Text.squeeze_solid (by decide), Text.squeeze_solid (by decide)]
    exact same (Except.ok.inj read) rfl
  rw [if_neg isArrow] at read ⊢
  by_cases isWord : startsIdentifier (character :: rest) = true
  · rw [if_pos isWord] at read ⊢
    have isReading := Except.ok.inj read
    exact same isReading (name (by rwa [isReading]))
  rw [if_neg isWord] at read ⊢
  cases number : splitNumeral (character :: rest) with
  | error failure =>
      rw [number] at read
      cases read
  | ok found? =>
      have numberAgain := splitNumeral_squeeze number
      rw [Text.squeeze_solid solid] at numberAgain
      rw [number] at read
      rw [numberAgain]
      cases found? with
      | none =>
          have isReading : lexMark character rest = (found, after) := Except.ok.inj read
          rcases lexMark_squeeze notQuote calm.tail with ⟨again, readAgain, respaced⟩
          rw [isReading] at readAgain respaced
          exact ⟨again, congrArg Except.ok readAgain, respaced⟩
      | some pair =>
          have leftCalm := calm.of_suffix (splitNumeral_suffix number)
          exact same (Except.ok.inj read) (lexMeasure_squeeze pair.1 leftCalm)

/-- A lexeme other than white space is kept, unless it is a string with other white space. -/
theorem readLexeme_squeeze {character : Char} {rest after : Text} {found : List Lexeme}
    (solid : isSpace character = false) (calm : Calm (character :: rest))
    (read : readLexeme character rest = .ok (found, after))
    (noFlaw : found.all (!·.isFlaw) = true) :
    ∃ again, readLexeme character (Text.squeeze isSpace rest) =
        .ok (again, Text.squeeze isSpace after) ∧
      Respaced (KeepsFirst character rest after) found again := by
  cases isQuote : Text.isQuote character with
  | true =>
      rw [readLexeme_quote isQuote] at read ⊢
      have isReading := Except.ok.inj read
      have noFlawAgain : (lexString character rest).1.all (!·.isFlaw) = true := by
        rwa [isReading]
      rcases lexString_squeeze isQuote calm.tail noFlawAgain with ⟨again, readAgain, respaced⟩
      rw [isReading] at readAgain respaced
      exact ⟨again, congrArg Except.ok readAgain, respaced⟩
  | false =>
      rcases readLexeme_squeeze_plain solid isQuote calm read noFlaw with
        ⟨again, readAgain, respaced⟩
      have keeps : KeepsFirst character rest after ↔ True := by
        simp [KeepsFirst, isQuote]
      rw [keeps]
      exact ⟨again, readAgain, respaced⟩

theorem readLexeme_white {character : Char} (white : isSpace character = true) (rest : Text) :
    readLexeme character rest =
      .ok (single (.whitespace (character :: rest.takeWhile isSpace))
        (rest.dropWhile isSpace)) := by
  unfold readLexeme
  rw [if_pos white]

/-- White space is left out, or made a single space. -/
theorem lexemes_squeeze_white {character : Char} {rest : Text} {found : List Lexeme}
    (white : isSpace character = true)
    (behind : ∃ again, lexemes (Text.squeeze isSpace (rest.dropWhile isSpace)) = .ok again ∧
      Respaced (KeepsParts (rest.dropWhile isSpace)) found again) :
    ∃ again, lexemes (Text.squeeze isSpace (character :: rest)) = .ok again ∧
      Respaced (KeepsParts (rest.dropWhile isSpace))
        (.atom (.whitespace (character :: rest.takeWhile isSpace)) :: found) again := by
  rcases behind with ⟨again, readAgain, respaced⟩
  have left := Text.dropWhile_gap_squeeze isSpace_space (character :: rest)
  rw [List.dropWhile_cons_of_pos white] at left
  rcases Text.squeeze_gap_cases isSpace_space white rest with shape | ⟨more, shape⟩
  · rw [shape] at left ⊢
    rw [← left] at readAgain
    exact ⟨again, readAgain, respaced.unspaced, respaced.count, respaced.strings⟩
  · rw [shape, List.dropWhile_cons_of_pos isSpace_space] at left
    refine ⟨.atom (.whitespace (' ' :: more.takeWhile isSpace)) :: again, ?_,
      respaced.unspaced, respaced.count, respaced.strings⟩
    rw [shape, lexemes_cons (readLexeme_white isSpace_space more), left, readAgain]
    rfl

/--
A text without flaws and its squeezed form differ in spacing and in strings at most.  The strings
are the same exactly if every part that is read as one is squeezed already.
-/
theorem lexemes_squeeze {text : Text} {found : List Lexeme} (calm : Calm text)
    (read : lexemes text = .ok found) (noFlaw : found.all (!·.isFlaw) = true) :
    ∃ again, lexemes (Text.squeeze isSpace text) = .ok again ∧
      Respaced (KeepsParts text) found again := by
  fun_induction lexemes text generalizing found with
  | case1 =>
      cases read
      refine ⟨[], by rw [Text.squeeze, lexemes], .refl ?_ []⟩
      rw [KeepsParts, quotedParts]
      exact List.forall_mem_nil _
  | case2 => cases read
  | case3 character rest first after readFirst shorter hypothesis =>
      cases behind : lexemes after with
      | error failure =>
          rw [behind] at read
          cases read
      | ok more =>
          rw [behind] at read
          cases read
          rw [List.all_append, Bool.and_eq_true] at noFlaw
          have leftCalm := calm.of_suffix (readLexeme_suffix readFirst)
          rcases hypothesis leftCalm behind noFlaw.2 with ⟨again, readAgain, respaced⟩
          rw [keepsParts_cons readFirst]
          cases gap : isSpace character with
          | true =>
              have notQuote : Text.isQuote character = false := by
                rw [Bool.eq_false_iff]
                intro isQuote
                rw [not_isSpace_of_outside (by decide) character isQuote] at gap
                cases gap
              have keeps : KeepsFirst character rest after ↔ True := by
                simp [KeepsFirst, notQuote]
              rw [readLexeme_white gap] at readFirst
              cases readFirst
              rw [keeps, true_and]
              exact lexemes_squeeze_white gap ⟨again, readAgain, respaced⟩
          | false =>
              rcases readLexeme_squeeze gap calm readFirst noFlaw.1 with
                ⟨firstAgain, readFirstAgain, respacedFirst⟩
              refine ⟨firstAgain ++ again, ?_, respacedFirst.append respaced⟩
              rw [Text.squeeze_solid gap, lexemes_cons readFirstAgain, readAgain]
              rfl

end CssAuthoring.Component
