import CssAuthoring.Proofs.Component.Reread

/-!
# Lexemes that stay apart

A lexeme runs on into the text behind it if the reader would take some of that text with it.  Where
none of the lexemes runs on, their written forms, one after the other, are read as the same lexemes.
-/

namespace CssAuthoring.Component

open CssAuthoring.Numeric

namespace Atom

/-- Whether the written form of an atom is read as that atom where nothing goes on with it. -/
def keeps : Atom → Bool
  | dimension written unit => keepsUnit written unit
  | string _ closed => closed
  | address value closed => closed && value.all keepsAddress
  | comment _ => false
  | flaw _ => false
  | _ => true

/-- Whether an atom runs on into the text behind its written form. -/
def runsOn (leaf : Atom) (rest : Text) : Bool :=
  match leaf with
  | whitespace _ => startsWith isSpace rest
  | unicodeRange first last => rangeGoesOn first last rest
  | literal [character] => signGoesOn character rest
  | identifier name =>
    startsHash rest || startsWith (· = '(') rest || startsRange (writeIdentifier name ++ rest)
      || "-->".toList.isPrefixOf (writeIdentifier name ++ rest)
  | atKeyword _ => startsHash rest
  | hash _ _ => startsHash rest
  | number written =>
    startsWith Text.isDigit rest || (isInteger written && startsNumber rest)
      || startsIdentifier rest || startsWith (· = '%') rest
  | dimension _ _ => startsHash rest
  | _ => false

end Atom

namespace Lexeme

/-- Whether the written form of a lexeme is read as that lexeme where nothing goes on with it. -/
def keeps : Lexeme → Bool
  | atom leaf => leaf.keeps
  | _ => true

/-- Whether a lexeme runs on into the text behind its written form. -/
def runsOn (lexeme : Lexeme) (rest : Text) : Bool :=
  match lexeme with
  | atom leaf => leaf.runsOn rest
  | enter (.function name) => Text.asciiLower name = "url".toList && holdsAddress rest
  | _ => false

end Lexeme

theorem head?_ne_of_not_startsWith {character : Char} {rest : Text}
    (stops : startsWith (· = character) rest = false) : rest.head? ≠ some character := by
  intro starts
  simp [startsWith, starts] at stops

theorem firstReading_literal {symbol rest : Text} (isLiteral : IsLiteral symbol)
    (ends : (Atom.literal symbol).runsOn rest = false) :
    firstReading ((Atom.literal symbol).text ++ rest) = .ok (single (.literal symbol) rest) := by
  cases isLiteral with
  | sign alone => exact firstReading_sign alone ends
  | equals joins => exact firstReading_equals joins rest
  | column => exact readLexeme_mark rfl rfl rfl (by decide) _
  | commentOpening => exact readLexeme_mark rfl rfl rfl (by decide) _
  | commentClosing => rfl

/-- An atom that does not run on is read from its written form. -/
theorem Atom.firstReading_text {leaf : Atom} {rest : Text} (wellFormed : leaf.WellFormed)
    (keeps : leaf.keeps = true) (ends : leaf.runsOn rest = false) :
    firstReading (leaf.text ++ rest) = .ok (single leaf rest) := by
  cases leaf with
  | whitespace run => exact firstReading_whitespace wellFormed (stops_iff.2 ends)
  | unicodeRange first last => exact firstReading_unicodeRange wellFormed ends
  | literal symbol => exact firstReading_literal wellFormed ends
  | identifier name =>
      simp only [runsOn, Bool.or_eq_false_iff] at ends
      rcases ends with ⟨⟨⟨noHash, noCall⟩, noRange⟩, noArrow⟩
      exact firstReading_identifier wellFormed noHash (head?_ne_of_not_startsWith noCall) noRange
        noArrow
  | atKeyword name => exact firstReading_atKeyword wellFormed ends
  | hash name isIdentifier => exact firstReading_hash wellFormed ends
  | number written =>
      simp only [runsOn, Bool.or_eq_false_iff, Bool.and_eq_false_imp] at ends
      rcases ends with ⟨⟨⟨noDigit, noNumber⟩, noWord⟩, noPercent⟩
      exact firstReading_number wellFormed (stops_iff.2 noDigit) noNumber noWord
        (head?_ne_of_not_startsWith noPercent)
  | percentage written => exact firstReading_percentage wellFormed rest
  | dimension written unit =>
      exact firstReading_dimension wellFormed.1 wellFormed.2.filled keeps ends
  | string value closed =>
      cases closed with
      | true => exact firstReading_string value rest
      | false => cases keeps
  | address value closed =>
      cases closed with
      | true => exact firstReading_address keeps rest
      | false => cases keeps
  | comment inside => cases keeps
  | flaw cause => cases keeps

/-- A lexeme that does not run on is read from its written form. -/
theorem Lexeme.firstReading_text {lexeme : Lexeme} {rest : Text} (wellFormed : lexeme.WellFormed)
    (keeps : lexeme.keeps = true) (ends : lexeme.runsOn rest = false) :
    firstReading (lexeme.text ++ rest) = .ok ([lexeme], rest) := by
  cases lexeme with
  | atom leaf => exact leaf.firstReading_text wellFormed keeps ends
  | enter opening =>
      cases opening with
      | function name => exact firstReading_function wellFormed ends
      | block bracket => exact (firstReading_bracket bracket rest).1
  | leave bracket => exact (firstReading_bracket bracket rest).2

/-- The written form of lexemes, one after the other. -/
def written (found : List Lexeme) : Text :=
  found.flatMap Lexeme.text

/-- Whether no lexeme runs on into those behind it and the text at the end. -/
def apart : List Lexeme → Text → Bool
  | [], _ => true
  | lexeme :: more, follow => !lexeme.runsOn (written more ++ follow) && apart more follow

theorem written_cons (lexeme : Lexeme) (more : List Lexeme) (follow : Text) :
    written (lexeme :: more) ++ follow = lexeme.text ++ (written more ++ follow) := by
  simp [written]

theorem apart_cons {lexeme : Lexeme} {more : List Lexeme} {follow : Text} :
    apart (lexeme :: more) follow = true ↔
      lexeme.runsOn (written more ++ follow) = false ∧ apart more follow = true := by
  simp [apart]

theorem lexemes_of_firstReading {text after : Text} {found : List Lexeme}
    (read : firstReading text = .ok (found, after)) :
    lexemes text = (lexemes after).map (found ++ ·) := by
  cases text with
  | nil =>
      cases read
      rw [lexemes]
      rfl
  | cons character rest => exact lexemes_cons read

/-- Lexemes that stay apart are read from their written forms. -/
theorem lexemes_written {found : List Lexeme} {follow : Text}
    (wellFormed : ∀ lexeme ∈ found, lexeme.WellFormed)
    (keeps : ∀ lexeme ∈ found, lexeme.keeps = true) (isApart : apart found follow = true) :
    lexemes (written found ++ follow) = (lexemes follow).map (found ++ ·) := by
  induction found with
  | nil =>
      change lexemes follow = _
      cases lexemes follow <;> rfl
  | cons lexeme more hypothesis =>
      rw [List.forall_mem_cons] at wellFormed keeps
      rw [apart_cons] at isApart
      have read := lexeme.firstReading_text wellFormed.1 keeps.1 isApart.1
      rw [written_cons, lexemes_of_firstReading read, hypothesis wellFormed.2 keeps.2 isApart.2]
      cases lexemes follow <;> rfl

end CssAuthoring.Component
