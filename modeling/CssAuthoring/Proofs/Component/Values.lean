import CssAuthoring.Proofs.Component.Apart

/-!
# Written values

What holds of the lexemes of a text holds of the lexemes of its values, at any depth, because
putting lexemes together only adds closing characters and flaws.  The written form of values is that
of their lexemes and is uniform, so that values whose lexemes stay apart are read back from it.
-/

namespace CssAuthoring.Component

open CssAuthoring.Numeric

/-! ## The lexemes of values that are put together -/

section

variable {holds : Lexeme → Prop}

/-- All lexemes of the values satisfy a predicate. -/
def ForPieces (holds : Lexeme → Prop) (values : List Value) : Prop :=
  ∀ value ∈ values, ∀ lexeme ∈ value.pieces, holds lexeme

theorem forPieces_iff {values : List Value} :
    ForPieces holds values ↔ ∀ lexeme ∈ Value.piecesAll values, holds lexeme := by
  induction values with
  | nil => simp [ForPieces, Value.piecesAll_nil]
  | cons value rest hypothesis =>
      rw [ForPieces] at hypothesis
      rw [ForPieces, List.forall_mem_cons, hypothesis, Value.piecesAll_cons, List.forall_mem_append]

theorem ForPieces.cons {value : Value} {values : List Value}
    (first : ∀ lexeme ∈ value.pieces, holds lexeme) (rest : ForPieces holds values) :
    ForPieces holds (value :: values) :=
  List.forall_mem_cons.2 ⟨first, rest⟩

theorem ForPieces.reverse {values : List Value} (forPieces : ForPieces holds values) :
    ForPieces holds values.reverse :=
  fun value member => forPieces value (List.mem_reverse.1 member)

/-- Every opening that waits satisfies a predicate, and so do the values before it. -/
def Waits (holds : Lexeme → Prop) (waiting : List Pending) : Prop :=
  ∀ pending ∈ waiting, holds (.enter pending.opening) ∧ ForPieces holds pending.before

/-- What an opening and its values satisfy, the enclosing value satisfies. -/
theorem forPieces_finish (ends : ∀ bracket, holds (.leave bracket)) {pending : Pending}
    {collected : List Value} (opens : holds (.enter pending.opening))
    (before : ForPieces holds pending.before) (within : ForPieces holds collected) :
    ForPieces holds (pending.finish collected) := by
  have content := forPieces_iff.1 within.reverse
  apply ForPieces.cons _ before
  cases shape : pending.opening <;> rw [shape] at opens <;>
  · intro lexeme member
    rw [Opening.enclose, Value.pieces, List.mem_cons, List.mem_append, List.mem_singleton] at member
    rcases member with rfl | member | rfl
    · exact opens
    · exact content lexeme member
    · exact ends _

theorem forPieces_close (ends : ∀ bracket, holds (.leave bracket)) {waiting : List Pending}
    {collected : List Value} (waits : Waits holds waiting) (within : ForPieces holds collected) :
    ForPieces holds (close waiting collected) := by
  induction waiting generalizing collected with
  | nil => exact within.reverse
  | cons innermost outer hypothesis =>
      rw [Waits, List.forall_mem_cons] at waits
      exact hypothesis waits.2 (forPieces_finish ends waits.1.1 waits.1.2 within)

/-- What all lexemes satisfy, closing characters and flaws included, their values satisfy. -/
theorem forPieces_assemble (ends : ∀ bracket, holds (.leave bracket))
    (flaws : ∀ bracket, holds (.atom (.flaw (.unmatched bracket)))) {waiting : List Pending}
    {collected : List Value} {found : List Lexeme} (waits : Waits holds waiting)
    (within : ForPieces holds collected) (holdsAll : ∀ lexeme ∈ found, holds lexeme) :
    ForPieces holds (assemble waiting collected found) := by
  have atom {leaf : Atom} (holdsLeaf : holds (.atom leaf)) :
      ∀ lexeme ∈ (Value.atom leaf).pieces, holds lexeme := by
    rw [Value.pieces]
    simpa using holdsLeaf
  fun_induction assemble waiting collected found with
  | case1 waiting collected => exact forPieces_close ends waits within
  | case2 waiting collected leaf rest hypothesis =>
      rw [List.forall_mem_cons] at holdsAll
      exact hypothesis waits (within.cons (atom holdsAll.1)) holdsAll.2
  | case3 waiting collected opening rest hypothesis =>
      rw [List.forall_mem_cons] at holdsAll
      have waitsAgain : Waits holds (⟨opening, collected⟩ :: waiting) :=
        List.forall_mem_cons.2 ⟨⟨holdsAll.1, within⟩, waits⟩
      exact hypothesis waitsAgain (by simp [ForPieces]) holdsAll.2
  | case4 collected innermost outer rest hypothesis =>
      rw [List.forall_mem_cons] at holdsAll
      rw [Waits, List.forall_mem_cons] at waits
      exact hypothesis waits.2 (forPieces_finish ends waits.1.1 waits.1.2 within) holdsAll.2
  | case5 collected innermost outer bracket rest other hypothesis =>
      rw [List.forall_mem_cons] at holdsAll
      exact hypothesis waits (within.cons (atom (flaws bracket))) holdsAll.2
  | case6 collected bracket rest hypothesis =>
      rw [List.forall_mem_cons] at holdsAll
      exact hypothesis waits (within.cons (atom (flaws bracket))) holdsAll.2

end

/-- The values of a text are well formed at any depth. -/
theorem parseWithoutComments_wellFormed {text : Text} {values : List Value}
    (read : parseWithoutComments text = .ok values) :
    ∀ lexeme ∈ Value.piecesAll values, lexeme.WellFormed := by
  unfold parseWithoutComments at read
  cases found : lexemes (uniform text) with
  | error failure =>
      rw [found] at read
      cases read
  | ok all =>
      rw [found] at read
      cases read
      have wellFormed := lexemes_wellFormed (isUniform_uniform text) found
      have forPieces : ForPieces Lexeme.WellFormed
          (assemble [] [] (all.filter fun lexeme => !lexeme.isComment)) := by
        apply forPieces_assemble
        · exact fun _ => trivial
        · exact fun _ => trivial
        · simp [Waits]
        · simp [ForPieces]
        · exact fun lexeme member => wellFormed lexeme (List.mem_filter.1 member).1
      exact forPieces_iff.1 forPieces

/-! ## The written form of values -/

mutual

theorem written_pieces (value : Value) : written value.pieces = value.text := by
  cases value with
  | atom leaf => simp [Value.pieces, Value.text, written, Lexeme.text]
  | function name arguments =>
      have inner := written_piecesAll arguments
      simp only [written] at inner
      simp [Value.pieces, Value.text, written, Lexeme.text, Opening.text, inner, Bracket.closing]
  | block bracket content =>
      have inner := written_piecesAll content
      simp only [written] at inner
      simp [Value.pieces, Value.text, written, Lexeme.text, Opening.text, inner]

/-- Values are written as their lexemes are. -/
theorem written_piecesAll (values : List Value) :
    written (Value.piecesAll values) = Value.textAll values := by
  cases values with
  | nil => rw [Value.piecesAll_nil, Value.textAll_nil]; rfl
  | cons value rest =>
      have first := written_pieces value
      have more := written_piecesAll rest
      rw [Value.piecesAll_cons, Value.textAll_cons, ← first, ← more]
      simp [written]

end

/-! ## Written values are uniform -/

theorem isUniform_of_isSpace {run : Text} (isRun : ∀ character ∈ run, isSpace character = true) :
    IsUniform run := by
  intro character member
  have white := isRun character member
  simp only [isSpace, Bool.or_eq_true, decide_eq_true_eq] at white
  rcases white with (rfl | rfl) | rfl <;> rfl

theorem isUniform_digits {digits : Text}
    (isDigits : ∀ digit ∈ digits, Text.isDigit digit = true) : IsUniform digits :=
  fun digit member =>
    uniformCharacter_of_isHexDigit (by simp [Text.isHexDigit, isDigits digit member])

theorem IsSign.isUniform {sign : Text} (isSign : IsSign sign) : IsUniform sign := by
  rcases isSign with rfl | rfl | rfl <;>
  · decide

theorem IsExponent.isUniform {exponent : Text} (isExponent : IsExponent exponent) :
    IsUniform exponent := by
  cases isExponent with
  | digits isMark isSign isDigits =>
      apply IsUniform.cons _ (isSign.isUniform.append (isUniform_digits isDigits.digits))
      rcases isMark with rfl | rfl <;> rfl

theorem IsNumber.isUniform {written : Text} (isNumber : IsNumber written) : IsUniform written := by
  rcases isNumber with ⟨parts, valid, rfl⟩
  have fraction : IsUniform parts.fraction := by
    rcases valid.fraction with empty | ⟨digits, isDigits, point⟩
    · rw [empty]
      exact isUniform_nil
    · rw [point]
      exact (isUniform_digits isDigits.digits).cons rfl
  have exponent : IsUniform parts.exponent := by
    rcases valid.exponent with empty | isExponent
    · rw [empty]
      exact isUniform_nil
    · exact isExponent.isUniform
  exact valid.isSign.isUniform.append
    ((isUniform_digits valid.whole).append (fraction.append exponent))

theorem IsLiteral.isUniform {symbol : Text} (isLiteral : IsLiteral symbol) : IsUniform symbol := by
  cases isLiteral with
  | sign alone => exact isUniform_nil.cons alone.isUniform
  | equals joins =>
      simp only [joinsEquals, Bool.or_eq_true, decide_eq_true_eq] at joins
      rcases joins with (((rfl | rfl) | rfl) | rfl) | rfl <;>
      · decide
  | column => decide
  | commentOpening => decide
  | commentClosing => decide

theorem isUniform_writeUnit {unit : Text} (noNull : '\x00' ∉ unit) :
    IsUniform (writeUnit unit) := by
  have code : IsUniform "\\65 " := by
    decide
  fun_cases writeUnit unit with
  | case1 => exact code
  | case2 => exact code
  | case3 more => exact code.append (isUniform_writeName (by simp_all))
  | case4 more => exact code.append (isUniform_writeName (by simp_all))
  | case5 => exact isUniform_writeIdentifier noNull

theorem isUniform_hexadecimalUpper (number : Nat) : IsUniform (hexadecimalUpper number) :=
  fun digit member => uniformCharacter_of_isHexDigit (hexadecimalUpper_digits number digit member)

theorem Atom.isUniform_text {leaf : Atom} (wellFormed : leaf.WellFormed)
    (keeps : leaf.keeps = true) : IsUniform leaf.text := by
  cases leaf with
  | whitespace run => exact isUniform_of_isSpace wellFormed.2
  | unicodeRange first last =>
      have mark : IsUniform "U+" := by
        decide
      have digits := isUniform_hexadecimalUpper
      rw [Atom.text, writeRange]
      split
      · exact mark.append (digits first)
      · exact (mark.append (digits first)).append ((digits last).cons rfl)
  | literal symbol => exact wellFormed.isUniform
  | identifier name => exact isUniform_writeIdentifier wellFormed.noNull
  | atKeyword name => exact (isUniform_writeIdentifier wellFormed.noNull).cons rfl
  | hash name isIdentifier =>
      apply IsUniform.cons rfl
      split
      · exact isUniform_writeIdentifier wellFormed.1.noNull
      · exact isUniform_writeName wellFormed.1.noNull
  | number written => exact wellFormed.isUniform
  | percentage written => exact wellFormed.isUniform.append (isUniform_nil.cons rfl)
  | dimension written unit =>
      exact wellFormed.1.isUniform.append (isUniform_writeUnit wellFormed.2.noNull)
  | string value closed =>
      have inner := isUniform_flatMap wellFormed fun _ => isUniform_writeStringCharacter
      rw [Atom.text, writeString]
      apply IsUniform.append (inner.cons rfl)
      split
      · exact isUniform_nil.cons rfl
      · exact isUniform_nil
  | address value closed =>
      have mark : IsUniform "url(" := by
        decide
      have inner := isUniform_flatMap wellFormed fun _ => isUniform_writeAddressCharacter
      rw [Atom.text, writeAddress]
      apply (mark.append inner).append
      split
      · exact isUniform_nil.cons rfl
      · exact isUniform_nil
  | comment inside => cases keeps
  | flaw cause => cases keeps

/-- The written form of a well-formed lexeme is uniform. -/
theorem Lexeme.isUniform_text {lexeme : Lexeme} (wellFormed : lexeme.WellFormed)
    (keeps : lexeme.keeps = true) : IsUniform lexeme.text := by
  cases lexeme with
  | atom leaf => exact leaf.isUniform_text wellFormed keeps
  | enter opening =>
      cases opening with
      | function name =>
          exact (isUniform_writeIdentifier wellFormed.noNull).append (isUniform_nil.cons rfl)
      | block bracket => cases bracket <;> exact isUniform_nil.cons rfl
  | leave bracket => cases bracket <;> exact isUniform_nil.cons rfl

theorem isUniform_written {found : List Lexeme}
    (wellFormed : ∀ lexeme ∈ found, lexeme.WellFormed)
    (keeps : ∀ lexeme ∈ found, lexeme.keeps = true) : IsUniform (written found) := by
  intro character member
  rcases List.mem_flatMap.1 member with ⟨lexeme, inFound, inText⟩
  exact lexeme.isUniform_text (wellFormed lexeme inFound) (keeps lexeme inFound) character inText

end CssAuthoring.Component
