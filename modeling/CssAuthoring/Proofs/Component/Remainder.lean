import CssAuthoring.Proofs.Component.Escape

/-!
# What readers leave of a text

Every reader of style values leaves a suffix of its text, and unless nothing is left, no escape is
torn apart.  The backslash of an escape is only ever read together with what it stands before: in
names, strings and addresses.  Comments and broken addresses may hold backslashes of any kind, but
what ends them is none.
-/

namespace CssAuthoring.Component

open CssAuthoring.Numeric

/-- A range of character codes has a plus sign behind its first letter. -/
theorem exists_plus_of_startsRange {character : Char} {rest : Text}
    (isRange : startsRange (character :: rest) = true) : ∃ more, rest = '+' :: more := by
  unfold startsRange at isRange
  split at isRange
  · rename_i shape
    cases shape
    exact ⟨_, rfl⟩
  · cases isRange

namespace LeftOf

/-! ## Numbers -/

theorem splitSign (text : Text) : LeftOf (Numeric.splitSign text).2 text := by
  fun_cases Numeric.splitSign text with
  | case1 rest => exact cons (by decide) _
  | case2 rest => exact cons (by decide) _
  | case3 => exact refl _

theorem splitFraction (text : Text) : LeftOf (Numeric.splitFraction text).2 text := by
  fun_cases Numeric.splitFraction text
  · exact (dropWhile (by decide) _).trans (cons (by decide) _)
  · exact refl _
  · exact refl _

theorem splitNumber (text : Text) : LeftOf (Numeric.splitNumber text).2 text := by
  unfold Numeric.splitNumber
  exact (splitFraction _).trans ((dropWhile (by decide) _).trans (splitSign text))

theorem splitExponent (text : Text) : LeftOf (Component.splitExponent text).2 text := by
  unfold Component.splitExponent
  split
  · exact refl _
  · rename_i mark rest
    dsimp only
    split
    · rename_i isExponent
      have notBackslash : mark ≠ '\\' := by
        rintro rfl
        simp at isExponent
      exact ((dropWhile (by decide) _).trans (splitSign rest)).trans (cons notBackslash rest)
    · exact refl _

theorem splitNumeral {text written rest : Text}
    (read : Component.splitNumeral text = .ok (some (written, rest))) : LeftOf rest text := by
  have left := (splitExponent (Numeric.splitNumber text).2).trans (splitNumber text)
  unfold Component.splitNumeral at read
  dsimp only at read
  split at read
  · cases read
  · split at read
    · generalize readInteger _ _ = value at read
      cases value with
      | error failure => cases read
      | ok whole =>
          cases read
          exact left
    · cases read
      exact left

theorem lexMeasure (written rest : Text) : LeftOf (Component.lexMeasure written rest).2 rest := by
  unfold Component.lexMeasure
  split
  · exact readName rest
  · split
    · exact behind [] (show '%' ≠ '\\' by decide) _
    · exact refl _

theorem lexRange (text : Text) : LeftOf (Component.lexRange text).2 text := by
  have digits (text : Text) :
      LeftOf (text.drop ((text.take 6).takeWhile Text.isHexDigit).length) text :=
    drop_takeWhile (by decide) 6 text
  have marks (count : Nat) (text : Text) :
      LeftOf (text.drop ((text.take count).takeWhile (· = '?')).length) text :=
    drop_takeWhile (by decide) count text
  unfold Component.lexRange
  dsimp only
  split
  · exact (marks _ _).trans (digits _)
  · split
    · rename_i rest shape
      have hyphen : LeftOf rest ('-' :: rest) := cons (by decide) rest
      split
      · exact (marks _ _).trans (digits _)
      · refine (digits rest).trans (hyphen.trans ?_)
        rw [← shape]
        exact (marks _ _).trans (digits _)
    · exact (marks _ _).trans (digits _)

/-! ## Strings, addresses and comments -/

theorem readString {quote : Char} (notBackslash : quote ≠ '\\') (text : Text) :
    LeftOf (Component.readString quote text).2.2 text := by
  fun_induction Component.readString quote text with
  | case1 => exact nil _
  | case2 rest => exact cons notBackslash rest
  | case3 => exact refl _
  | case4 => exact nil _
  | case5 rest _ _ hypothesis =>
      exact (hypothesis.trans (cons (by decide) rest)).trans (breaks rest)
  | case6 escaped rest notBreak left _ _ =>
      rename_i hypothesis
      exact hypothesis.trans (readEscape _)
  | case7 character rest _ _ notEscape hypothesis => exact hypothesis.trans (cons notEscape rest)

/-- Behind a broken address nothing is left, or else it ends in a parenthesis. -/
theorem exists_skipBroken (text : Text) :
    Component.skipBroken text = [] ∨ ∃ front, text = front ++ ')' :: Component.skipBroken text := by
  have behind (front : Text) {rest : Text}
      (ends : Component.skipBroken rest = [] ∨
        ∃ inside, rest = inside ++ ')' :: Component.skipBroken rest) :
      Component.skipBroken rest = [] ∨
        ∃ inside, front ++ rest = inside ++ ')' :: Component.skipBroken rest := by
    rcases ends with none | ⟨inside, shape⟩
    · exact .inl none
    · exact .inr ⟨front ++ inside, by rw [List.append_assoc, ← shape]⟩
  fun_induction Component.skipBroken text with
  | case1 rest hypothesis => exact behind ['\\', ')'] hypothesis
  | case2 rest => exact .inr ⟨[], rfl⟩
  | case3 character rest _ _ hypothesis => exact behind [character] hypothesis
  | case4 => exact .inl rfl

theorem skipBroken (front text : Text) : LeftOf (Component.skipBroken text) (front ++ text) := by
  rcases exists_skipBroken text with none | ⟨inside, shape⟩
  · rw [none]
    exact nil _
  · have left : LeftOf (Component.skipBroken text)
        (front ++ inside ++ ')' :: Component.skipBroken text) := behind _ (by decide) _
    rwa [List.append_assoc, ← shape] at left

theorem readAddress (text : Text) : LeftOf (Component.readAddress text).2.2 text := by
  fun_induction Component.readAddress text with
  | case1 => exact nil _
  | case2 rest => exact cons (by decide) rest
  | case3 => exact nil _
  | case4 character rest _ white after closes =>
      have left : LeftOf after (character :: rest.takeWhile isSpace ++ ')' :: after) :=
        behind _ (by decide) after
      rwa [List.cons_append, ← closes, List.takeWhile_append_dropWhile] at left
  | case5 character rest _ _ =>
      have left := skipBroken (character :: rest.takeWhile isSpace) (rest.dropWhile isSpace)
      rwa [List.cons_append, List.takeWhile_append_dropWhile] at left
  | case6 character rest _ _ escape _ hypothesis =>
      simp only [Bool.and_eq_true, decide_eq_true_eq] at escape
      rcases escape with ⟨rfl, _⟩
      exact hypothesis.trans (readEscape rest)
  | case7 character rest => exact skipBroken [character] rest
  | case8 character rest _ _ noEscape _ hypothesis =>
      refine hypothesis.trans (plain fun backslash => ?_)
      simpa [backslash] using noEscape

/-- Behind a comment nothing is left, or else it ends in a slash. -/
theorem exists_readComment (text : Text) :
    (Component.readComment text).2 = [] ∨
      ∃ front, text = front ++ '/' :: (Component.readComment text).2 := by
  fun_induction Component.readComment text with
  | case1 rest => exact .inr ⟨['*'], rfl⟩
  | case2 character rest _ hypothesis =>
      rcases hypothesis with none | ⟨front, shape⟩
      · exact .inl none
      · exact .inr ⟨character :: front, by rw [List.cons_append, ← shape]⟩
  | case3 => exact .inl rfl

theorem readComment (front text : Text) :
    LeftOf (Component.readComment text).2 (front ++ text) := by
  rcases exists_readComment text with none | ⟨inside, shape⟩
  · rw [none]
    exact nil _
  · have left : LeftOf (Component.readComment text).2
        (front ++ inside ++ '/' :: (Component.readComment text).2) := behind _ (by decide) _
    rwa [List.append_assoc, ← shape] at left

/-! ## Lexemes -/

theorem lexString {quote : Char} (notBackslash : quote ≠ '\\') (text : Text) :
    LeftOf (Component.lexString quote text).2 text := by
  have string := readString notBackslash text
  unfold Component.lexString
  split <;> simp_all [single]

theorem lexAddress (text : Text) : LeftOf (Component.lexAddress text).2 text := by
  have space : LeftOf (text.dropWhile isSpace) text := dropWhile (by decide) text
  have address := (readAddress _).trans space
  unfold Component.lexAddress
  split <;> simp_all [single]

theorem lexWord (text : Text) : LeftOf (Component.lexWord text).2 text := by
  have name := readName text
  unfold Component.lexWord
  dsimp only
  split
  · rename_i inner shape
    rw [shape] at name
    have behind := (cons (by decide) inner).trans name
    split
    · exact (lexAddress inner).trans behind
    · exact behind
  · exact name

theorem lexSign {character : Char} {rest : Text}
    (noEscape : character = '\\' → escapes rest = false) :
    LeftOf (Component.lexSign character rest).2 (character :: rest) := by
  unfold Component.lexSign
  split
  · rename_i after
    exact behind ['<', '!', '-'] (by decide) after
  · rename_i after
    exact behind ['|'] (by decide) after
  · rename_i _ _ after
    split
    · change LeftOf after ([character] ++ '=' :: after)
      exact behind _ (by decide) after
    · exact plain noEscape
  · exact plain noEscape

theorem lexMark {character : Char} {rest : Text}
    (noEscape : character = '\\' → escapes rest = false) :
    LeftOf (Component.lexMark character rest).2 (character :: rest) := by
  have behind := plain noEscape
  unfold Component.lexMark
  split
  · split
    · exact (readName rest).trans behind
    · exact behind
  · split
    · exact (readName rest).trans behind
    · exact behind
  · rename_i inner
    exact readComment ['/', '*'] inner
  · split
    · rename_i isQuote
      refine (lexString ?_ rest).trans behind
      rintro rfl
      cases isQuote
    · split
      · exact behind
      · exact behind
      · exact lexSign noEscape

/-- Reading a lexeme leaves a suffix of the text, and tears no escape apart. -/
theorem readLexeme {character : Char} {rest after : Text} {found : List Lexeme}
    (read : Component.readLexeme character rest = .ok (found, after)) :
    LeftOf after (character :: rest) := by
  have left {reading : Reading} (leftOf : LeftOf reading.2 (character :: rest))
      (isReading : (Except.ok reading : Except NumeralTooLong Reading) = .ok (found, after)) :
      LeftOf after (character :: rest) := by
    cases isReading
    exact leftOf
  unfold Component.readLexeme at read
  split at read
  · rename_i white
    refine left ((dropWhile (by decide) rest).trans (cons ?_ rest)) read
    rintro rfl
    cases white
  split at read
  · rename_i isRange
    rcases exists_plus_of_startsRange isRange with ⟨more, rfl⟩
    exact left ((lexRange more).trans (behind [character] (by decide) more)) read
  split at read
  · rename_i isArrow
    rcases List.isPrefixOf_iff_prefix.1 isArrow with ⟨more, shape⟩
    cases shape
    exact left (behind ['-', '-'] (by decide) more) read
  split at read
  · exact left (lexWord _) read
  · rename_i noWord
    cases number : Component.splitNumeral (character :: rest) with
    | error failure =>
        rw [number] at read
        cases read
    | ok found =>
        rw [number] at read
        cases found with
        | none =>
            refine left (lexMark fun backslash => ?_) read
            subst backslash
            simpa [startsIdentifier] using noWord
        | some pair => exact left ((lexMeasure _ _).trans (splitNumeral number)) read

end LeftOf

theorem splitExponent_suffix (text : Text) : (splitExponent text).2 <:+ text :=
  (LeftOf.splitExponent text).suffix

theorem splitNumeral_suffix {text written rest : Text}
    (read : splitNumeral text = .ok (some (written, rest))) : rest <:+ text :=
  (LeftOf.splitNumeral read).suffix

theorem readLexeme_suffix {character : Char} {rest after : Text} {lexemes : List Lexeme}
    (read : readLexeme character rest = .ok (lexemes, after)) : after <:+ character :: rest :=
  (LeftOf.readLexeme read).suffix

end CssAuthoring.Component
