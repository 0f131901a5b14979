import CssAuthoring.Proofs.Component.Joining
import CssAuthoring.Proofs.Component.Uniform

/-!
# Values and the gaps between them

Values whose brackets are all closed are put together again from their lexemes.  The outline of
values leaves out white space but keeps where it stands between two values: a selector means the
same when its outline is the same, because white space next to a comma or a combinator with a sign
means nothing.
-/

namespace CssAuthoring.Component

open CssAuthoring.Numeric

/-! ## The lexemes of values -/

namespace Value

mutual

/-- The lexemes that a value is put together from. -/
def pieces : Value → List Lexeme
  | .atom leaf => [.atom leaf]
  | .function name arguments =>
    .enter (.function name) :: (piecesAll arguments ++ [.leave .round])
  | .block bracket content => .enter (.block bracket) :: (piecesAll content ++ [.leave bracket])

/-- The lexemes of values, one after the other. -/
def piecesAll : List Value → List Lexeme
  | [] => []
  | value :: rest => value.pieces ++ piecesAll rest

end

theorem piecesAll_nil : piecesAll [] = [] := by
  rw [piecesAll]

theorem piecesAll_cons (value : Value) (rest : List Value) :
    piecesAll (value :: rest) = value.pieces ++ piecesAll rest := by
  rw [piecesAll]

theorem piecesAll_atom (leaf : Atom) : piecesAll [.atom leaf] = [.atom leaf] := by
  rw [piecesAll_cons, pieces, piecesAll_nil]
  rfl

theorem piecesAll_append (front back : List Value) :
    piecesAll (front ++ back) = piecesAll front ++ piecesAll back := by
  induction front with
  | nil => rw [piecesAll_nil]; rfl
  | cons value rest hypothesis =>
      rw [List.cons_append, piecesAll_cons, hypothesis, piecesAll_cons, List.append_assoc]

end Value

mutual

/-- A value is put together from its lexemes, whatever is open around it. -/
theorem assemble_pieces (value : Value) (waiting : List Pending) (collected : List Value)
    (more : List Lexeme) :
    assemble waiting collected (value.pieces ++ more) =
      assemble waiting (value :: collected) more := by
  cases value with
  | atom leaf => rw [Value.pieces]; rfl
  | function name arguments =>
      rw [Value.pieces, List.cons_append, assemble, List.append_assoc, assemble_piecesAll]
      simp [assemble, Opening.bracket, Pending.finish, Opening.enclose]
  | block bracket content =>
      rw [Value.pieces, List.cons_append, assemble, List.append_assoc, assemble_piecesAll]
      simp [assemble, Opening.bracket, Pending.finish, Opening.enclose]

/-- Values are put together one after the other. -/
theorem assemble_piecesAll (values : List Value) (waiting : List Pending)
    (collected : List Value) (more : List Lexeme) :
    assemble waiting collected (Value.piecesAll values ++ more) =
      assemble waiting (values.reverse ++ collected) more := by
  cases values with
  | nil => rw [Value.piecesAll]; rfl
  | cons value rest =>
      rw [Value.piecesAll, List.append_assoc, assemble_pieces, assemble_piecesAll]
      simp

end

/-- Two states of putting values together, where the second has values in front of everything. -/
inductive InFront (front : List Value) :
    List Pending → List Value → List Pending → List Value → Prop where
  | outermost (collected : List Value) :
      InFront front [] collected [] (collected ++ front)
  | within {waiting waitingAgain : List Pending} {before beforeAgain : List Value}
      (opening : Opening) (collected : List Value)
      (inFront : InFront front waiting before waitingAgain beforeAgain) :
      InFront front (⟨opening, before⟩ :: waiting) collected
        (⟨opening, beforeAgain⟩ :: waitingAgain) collected

theorem InFront.cons {front collected collectedAgain : List Value}
    {waiting waitingAgain : List Pending}
    (inFront : InFront front waiting collected waitingAgain collectedAgain) (value : Value) :
    InFront front waiting (value :: collected) waitingAgain (value :: collectedAgain) := by
  cases inFront with
  | outermost => exact .outermost _
  | within opening _ inFront => exact .within opening _ inFront

theorem InFront.close_eq {front collected collectedAgain : List Value}
    {waiting waitingAgain : List Pending}
    (inFront : InFront front waiting collected waitingAgain collectedAgain) :
    close waitingAgain collectedAgain = front.reverse ++ close waiting collected := by
  induction waiting generalizing collected waitingAgain collectedAgain with
  | nil =>
      cases inFront
      simp
  | cons pending waiting hypothesis =>
      cases inFront with
      | within opening collected inFront =>
          rw [close, close]
          exact hypothesis (inFront.cons _)

/-- Values in front of everything stay there, whatever is put together behind them. -/
theorem InFront.assemble_eq {front collected collectedAgain : List Value}
    {waiting waitingAgain : List Pending}
    (inFront : InFront front waiting collected waitingAgain collectedAgain)
    (found : List Lexeme) :
    assemble waitingAgain collectedAgain found =
      front.reverse ++ assemble waiting collected found := by
  induction found generalizing waiting collected waitingAgain collectedAgain with
  | nil => exact inFront.close_eq
  | cons lexeme rest hypothesis =>
      cases lexeme with
      | atom leaf => exact hypothesis (inFront.cons (.atom leaf))
      | enter opening => exact hypothesis (inFront.within opening [])
      | leave bracket =>
          cases inFront with
          | outermost collected =>
              exact hypothesis ((InFront.outermost collected).cons _)
          | within opening collected inFront =>
              rw [assemble, assemble]
              split
              · exact hypothesis (inFront.cons _)
              · exact hypothesis (.within opening _ inFront)

/-- The first values of a text are put together from their lexemes. -/
theorem assemble_piecesAll_append (values : List Value) (more : List Lexeme) :
    assemble [] [] (Value.piecesAll values ++ more) = values ++ assemble [] [] more := by
  have inFront : InFront values.reverse [] [] [] (values.reverse ++ []) := by
    rw [List.append_nil]
    exact .outermost []
  rw [assemble_piecesAll, inFront.assemble_eq, List.reverse_reverse]

/-! ## Outlines -/

/-- What stands in front of a value: nothing or a separator, another value, or white space. -/
inductive Front where
  | separator
  | value
  | space
  deriving DecidableEq, Repr

/-- The signs that values need no white space around. -/
def separators : List Text := [",", ">", "+", "~"]

/-- Whether a value is a comma or a combinator with a sign. -/
def Value.isSeparator : Value → Bool
  | .atom (.literal symbol) => separators.contains symbol
  | _ => false

namespace Front

/-- What stands in front of the next value, if white space follows. -/
def widen : Front → Front
  | separator => separator
  | _ => space

/-- What stands in front of the value behind the given one. -/
def next (front : Front) (value : Value) : Front :=
  if value.isWhitespace then front.widen else if value.isSeparator then separator else .value

@[simp]
theorem widen_widen (front : Front) : front.widen.widen = front.widen := by
  cases front <;> rfl

end Front

/-- The values that are no white space, each with whether white space parts it from the last one. -/
def outlineFrom : Front → List Value → List (Value × Bool)
  | _, [] => []
  | front, value :: rest =>
    if value.isWhitespace then outlineFrom (front.next value) rest
    else (value, front = .space && !value.isSeparator) :: outlineFrom (front.next value) rest

/--
The values that are no white space, each with whether white space stands between it and the value
before it.  Next to a separator white space does not count.
-/
def outline (values : List Value) : List (Value × Bool) :=
  outlineFrom .separator values

theorem outlineFrom_append (front : Front) (first second : List Value) :
    outlineFrom front (first ++ second) =
      outlineFrom front first ++ outlineFrom (first.foldl Front.next front) second := by
  induction first generalizing front with
  | nil => rfl
  | cons value rest hypothesis =>
      simp only [List.cons_append, outlineFrom, List.foldl_cons, hypothesis]
      split <;> rfl

theorem Value.not_isWhitespace_of_isSeparator {value : Value}
    (isSeparator : value.isSeparator = true) : value.isWhitespace = false := by
  cases value with
  | atom leaf => cases leaf <;> first | rfl | cases isSeparator
  | function => rfl
  | block => rfl

theorem Front.next_separator {value : Value} (isSeparator : value.isSeparator = true)
    (front : Front) : front.next value = .separator := by
  simp [next, Value.not_isWhitespace_of_isSeparator isSeparator, isSeparator]

/-- Values behind a separator do not depend on what stands in front of it. -/
theorem outlineFrom_separator {value : Value} (isSeparator : value.isSeparator = true)
    (front : Front) (rest : List Value) :
    outlineFrom front (value :: rest) = (value, false) :: outlineFrom .separator rest := by
  simp [outlineFrom, Front.next_separator isSeparator,
    Value.not_isWhitespace_of_isSeparator isSeparator, isSeparator]

/-! ## Separators at the start of a text -/

theorem splitNumeral_eq_none {text : Text}
    (noNumber : startsNumber (splitSign text).2 = false) : splitNumeral text = .ok none := by
  have stops := stops_of_not_startsNumber noNumber
  simp [splitNumeral, splitNumber, Text.takeWhile_of_stops stops.1,
    Text.dropWhile_of_stops stops.1, stops.2]

/-- The sign of a separator is a literal in front of text that does not go on with it. -/
theorem readLexeme_separator {sign : Char} (isSeparator : separators.contains [sign] = true)
    {rest : Text} (noEquals : rest.head? ≠ some '=')
    (noNumber : sign = '+' → startsNumber rest = false) :
    readLexeme sign rest = .ok (single (.literal [sign]) rest) := by
  have cases : sign = ',' ∨ sign = '>' ∨ sign = '+' ∨ sign = '~' := by
    simpa [separators] using isSeparator
  have noUpper : sign ≠ 'u' ∧ sign ≠ 'U' := by
    rcases cases with rfl | rfl | rfl | rfl <;> decide
  have numeral : splitNumeral (sign :: rest) = .ok none := by
    apply splitNumeral_eq_none
    rcases cases with rfl | rfl | rfl | rfl
    · rfl
    · rfl
    · exact noNumber rfl
    · rfl
  have mark : lexMark sign rest = lexSign sign rest := by
    rcases cases with rfl | rfl | rfl | rfl <;> rfl
  have literal : lexSign sign rest = single (.literal [sign]) rest := by
    rw [lexSign]
    · rintro after rfl
      exact noEquals rfl
    · rintro after rfl
      exact absurd isSeparator (by decide)
    · rintro after rfl
      exact absurd isSeparator (by decide)
  have outside : isSpace sign = false ∧ "-->".toList.isPrefixOf (sign :: rest) = false ∧
      startsIdentifier (sign :: rest) = false := by
    rcases cases with rfl | rfl | rfl | rfl <;> exact ⟨rfl, rfl, rfl⟩
  unfold readLexeme
  rw [outside.1, outside.2.1, outside.2.2, startsRange_of_mark noUpper.1 noUpper.2, numeral,
    ← literal, ← mark]
  rfl

/-- A separator at the start of a text is its first value. -/
theorem lexemes_separator {sign : Char} (isSeparator : separators.contains [sign] = true)
    {rest : Text} (noEquals : rest.head? ≠ some '=')
    (noNumber : sign = '+' → startsNumber rest = false) :
    lexemes (sign :: rest) = (lexemes rest).map (.atom (.literal [sign]) :: ·) :=
  lexemes_cons (readLexeme_separator isSeparator noEquals noNumber)

/-! ## Outlines of texts -/

/-- The outline of the values of a text. -/
def outlined (front : Front) (text : Text) : Except NumeralTooLong (List (Value × Bool)) :=
  (parse text).map (outlineFrom front)

/-- A run of white space only moves what stands in front of the outline of what follows it. -/
theorem outlined_run {character : Char} {text run : Text}
    (same : uniform text = character :: run) (white : isSpace character = true) (front : Front) :
    outlined front text =
      (lexemes (run.dropWhile isSpace)).map (outlineFrom front.widen ∘ assemble [] []) := by
  have read : readLexeme character run =
      .ok (single (.whitespace (character :: run.takeWhile isSpace)) (run.dropWhile isSpace)) := by
    rw [readLexeme, if_pos white]
  simp only [outlined, parse, same, lexemes_cons read]
  cases lexemes (run.dropWhile isSpace) with
  | error failure => rfl
  | ok more =>
      have assembled := assemble_piecesAll_append
        [.atom (.whitespace (character :: run.takeWhile isSpace))] more
      rw [Value.piecesAll_atom] at assembled
      simp only [Except.map, Function.comp, assembled]
      rfl

/-- White space in front of a text only moves what stands in front of its outline. -/
theorem outlined_space {character white : Char} {text : Text}
    (same : uniform (character :: text) = white :: uniform text) (isWhite : isSpace white = true)
    (front : Front) : outlined front (character :: text) = outlined front.widen text := by
  rw [outlined_run same isWhite]
  cases shape : uniform text with
  | nil =>
      rw [List.dropWhile_nil, outlined, parse, shape]
      cases lexemes [] <;> rfl
  | cons next rest =>
      by_cases again : isSpace next = true
      · rw [outlined_run shape again, List.dropWhile_cons, if_pos again, Front.widen_widen]
      · rw [List.dropWhile_cons, if_neg again, outlined, parse, shape]
        cases lexemes (next :: rest) <;> rfl

/-- Values whose lexemes begin a text begin its outline; behind them it goes on as another text. -/
theorem outlined_append {text follow : Text} {found : List Lexeme} {values : List Value}
    (inFront : lexemes (uniform text) = (lexemes (uniform follow)).map (found ++ ·))
    (assembled : ∀ more, assemble [] [] (found ++ more) = values ++ assemble [] [] more)
    (front : Front) :
    outlined front text =
      (outlined (values.foldl Front.next front) follow).map (outlineFrom front values ++ ·) := by
  simp only [outlined, parse, inFront]
  cases lexemes (uniform follow) with
  | error failure => rfl
  | ok more => simp [Except.map, assembled, outlineFrom_append]

/-- A separator begins an outline that does not depend on what stands in front of it. -/
theorem outlined_separator {sign : Char} (isSeparator : separators.contains [sign] = true)
    {rest : Text} (noEquals : rest.head? ≠ some '=')
    (noNumber : sign = '+' → startsNumber (uniform rest) = false) (front : Front) :
    outlined front (sign :: rest) =
      (outlined .separator rest).map ((.atom (.literal [sign]), false) :: ·) := by
  have cases : sign = ',' ∨ sign = '>' ∨ sign = '+' ∨ sign = '~' := by
    simpa [separators] using isSeparator
  have same : uniform (sign :: rest) = sign :: uniform rest := by
    rcases cases with rfl | rfl | rfl | rfl <;> exact uniform_cons (by simp)
  have noEqualsAgain : (uniform rest).head? ≠ some '=' := fun starts =>
    noEquals (head_of_uniform (by decide) (by decide) starts)
  have isOne : (Value.atom (.literal [sign])).isSeparator = true := isSeparator
  have inFront : lexemes (uniform (sign :: rest)) =
      (lexemes (uniform rest)).map (Value.piecesAll [.atom (.literal [sign])] ++ ·) := by
    rw [same, lexemes_separator isSeparator noEqualsAgain noNumber,
      Value.piecesAll_atom]
    rfl
  rw [outlined_append inFront (assemble_piecesAll_append _), List.foldl_cons,
    Front.next_separator isOne, outlineFrom_separator isOne]
  rfl

end CssAuthoring.Component
