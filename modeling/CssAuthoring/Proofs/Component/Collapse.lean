import CssAuthoring.Proofs.Component.Strings
import CssAuthoring.Proofs.Component.Uniform

/-!
# Style values of collapsed text

Text is made uniform before it is read as style values: a line break, however it is written, is a
line feed then.  Where all blank space in a text is white space of style values, a collapsed text
that is made uniform is the uniform text squeezed behind the white space at its start.  So what is
known about the lexemes of squeezed text is known about the values of collapsed text, since the
lexemes of values are those that the values are put together from, with every opening ended.

Blank space that is no white space of style values, such as a no-break space, stands in names and
strings; collapsing replaces it.  `Plain` rules it out.

Main statements: `piecesAll_assemble`, the lexemes of values that were put together;
`uniform_collapse`, text that is collapsed and made uniform; `parse_collapse`, the values of
collapsed text.
-/

namespace CssAuthoring.Component

open CssAuthoring.Numeric

/-! ## The lexemes of values that were put together -/

/-- Lexemes in which every opening is ended, given what waits for an end, innermost first. -/
def balance : List Bracket → List Lexeme → List Lexeme
  | waiting, [] => waiting.map .leave
  | waiting, .atom leaf :: rest => .atom leaf :: balance waiting rest
  | waiting, .enter opening :: rest => .enter opening :: balance (opening.bracket :: waiting) rest
  | innermost :: outer, .leave bracket :: rest =>
    if innermost = bracket then .leave bracket :: balance outer rest
    else .atom (.flaw (.unmatched bracket)) :: balance (innermost :: outer) rest
  | [], .leave bracket :: rest => .atom (.flaw (.unmatched bracket)) :: balance [] rest

/-- The lexemes of what has been put together so far. -/
def collectedPieces : List Pending → List Value → List Lexeme
  | [], collected => Value.piecesAll collected.reverse
  | innermost :: outer, collected =>
    collectedPieces outer innermost.before ++
      .enter innermost.opening :: Value.piecesAll collected.reverse

/-- The brackets that end what waits. -/
def endings (waiting : List Pending) : List Bracket :=
  waiting.map fun pending => pending.opening.bracket

theorem collectedPieces_cons (waiting : List Pending) (value : Value) (collected : List Value) :
    collectedPieces waiting (value :: collected) =
      collectedPieces waiting collected ++ value.pieces := by
  cases waiting <;>
  simp [collectedPieces, Value.piecesAll_append, Value.piecesAll_cons, Value.piecesAll_nil]

theorem collectedPieces_finish (innermost : Pending) (outer : List Pending)
    (collected : List Value) :
    collectedPieces outer (innermost.finish collected) =
      collectedPieces (innermost :: outer) collected ++ [.leave innermost.opening.bracket] := by
  rw [Pending.finish, collectedPieces_cons, collectedPieces]
  cases innermost.opening <;> simp [Opening.enclose, Value.pieces, Opening.bracket]

theorem piecesAll_close (waiting : List Pending) (collected : List Value) :
    Value.piecesAll (close waiting collected) =
      collectedPieces waiting collected ++ balance (endings waiting) [] := by
  induction waiting generalizing collected with
  | nil => simp [close, collectedPieces, endings, balance]
  | cons innermost outer hypothesis =>
      rw [close, hypothesis, collectedPieces_finish]
      simp [endings, balance]

/-- The lexemes of values are those that they are put together from, with every opening ended. -/
theorem piecesAll_assemble (waiting : List Pending) (collected : List Value)
    (found : List Lexeme) :
    Value.piecesAll (assemble waiting collected found) =
      collectedPieces waiting collected ++ balance (endings waiting) found := by
  fun_induction assemble waiting collected found with
  | case1 waiting collected => exact piecesAll_close waiting collected
  | case2 waiting collected leaf rest hypothesis =>
      rw [hypothesis, collectedPieces_cons]
      simp [balance, Value.pieces]
  | case3 waiting collected opening rest hypothesis =>
      rw [hypothesis, collectedPieces]
      simp [balance, endings, Value.piecesAll_nil]
  | case4 collected innermost outer rest hypothesis =>
      rw [hypothesis, collectedPieces_finish]
      simp [balance, endings]
  | case5 collected innermost outer bracket rest other hypothesis =>
      rw [hypothesis, collectedPieces_cons]
      simp [balance, endings, other, Value.pieces]
  | case6 collected bracket rest hypothesis =>
      rw [hypothesis, collectedPieces_cons]
      simp [balance, endings, Value.pieces]

/-- Ending openings adds no strings. -/
theorem strings_balance (waiting : List Bracket) (found : List Lexeme) :
    strings (balance waiting found) = strings found := by
  fun_induction balance waiting found with
  | case1 waiting =>
      rw [strings, List.filterMap_map]
      exact List.filterMap_eq_nil_iff.2 fun _ _ => rfl
  | case2 waiting leaf rest hypothesis =>
      simp only [strings, List.filterMap_cons] at hypothesis ⊢
      rw [hypothesis]
  | case3 waiting opening rest hypothesis => exact hypothesis
  | case4 outer bracket rest hypothesis => exact hypothesis
  | case5 innermost outer bracket rest other hypothesis => exact hypothesis
  | case6 bracket rest hypothesis => exact hypothesis

theorem unspaced_atom (leaf : Atom) :
    Lexeme.unspaced? (.atom leaf) = none ∨
      ∃ other, Lexeme.unspaced? (.atom leaf) = some (.atom other) := by
  cases leaf with
  | whitespace run => exact .inl rfl
  | _ => exact .inr ⟨_, rfl⟩

/-- Spacing is left out of lexemes alike before and after openings are ended. -/
theorem unspaced_balance (waiting : List Bracket) (found : List Lexeme) :
    unspaced (balance waiting found) = balance waiting (unspaced found) := by
  fun_induction balance waiting found with
  | case1 waiting =>
      rw [unspaced, List.filterMap_map]
      exact congrFun List.filterMap_eq_map' waiting
  | case2 waiting leaf rest hypothesis =>
      simp only [unspaced, List.filterMap_cons] at hypothesis ⊢
      rcases unspaced_atom leaf with none | ⟨other, some⟩
      · rw [none, hypothesis]
      · rw [some, hypothesis]
        rfl
  | case3 waiting opening rest hypothesis =>
      simp only [unspaced, List.filterMap_cons] at hypothesis ⊢
      rw [hypothesis]
      rfl
  | case4 outer bracket rest hypothesis =>
      change .leave bracket :: unspaced (balance outer rest) =
        balance (bracket :: outer) (.leave bracket :: unspaced rest)
      rw [hypothesis, balance, if_pos rfl]
  | case5 innermost outer bracket rest other hypothesis =>
      change .atom (.flaw (.unmatched bracket)) :: unspaced (balance (innermost :: outer) rest) =
        balance (innermost :: outer) (.leave bracket :: unspaced rest)
      rw [hypothesis]
      conv => rhs; rw [balance, if_neg other]
  | case6 bracket rest hypothesis =>
      change .atom (.flaw (.unmatched bracket)) :: unspaced (balance [] rest) =
        balance [] (.leave bracket :: unspaced rest)
      rw [hypothesis]
      rfl

/-- Flaws in a text are flaws of its values. -/
theorem mem_balance_of_isFlaw {waiting : List Bracket} {found : List Lexeme} {lexeme : Lexeme}
    (isFlaw : lexeme.isFlaw = true) (member : lexeme ∈ found) : lexeme ∈ balance waiting found := by
  fun_induction balance waiting found with
  | case1 waiting => cases member
  | case2 waiting leaf rest hypothesis =>
      rw [List.mem_cons] at member ⊢
      exact member.imp_right hypothesis
  | case3 waiting opening rest hypothesis =>
      rw [List.mem_cons] at member ⊢
      exact member.imp_right hypothesis
  | case4 outer bracket rest hypothesis =>
      rw [List.mem_cons] at member ⊢
      exact member.imp_right hypothesis
  | case5 innermost outer bracket rest other hypothesis =>
      rcases List.mem_cons.1 member with rfl | member
      · cases isFlaw
      · exact List.mem_cons_of_mem _ (hypothesis member)
  | case6 bracket rest hypothesis =>
      rcases List.mem_cons.1 member with rfl | member
      · cases isFlaw
      · exact List.mem_cons_of_mem _ (hypothesis member)

theorem piecesAll_assemble_all (found : List Lexeme) :
    Value.piecesAll (assemble [] [] found) = balance [] found := by
  rw [piecesAll_assemble]
  simp [collectedPieces, endings, Value.piecesAll_nil]

/-- Lexemes that differ in spacing and strings at most make values that do. -/
theorem Respaced.assemble {same : Prop} {found again : List Lexeme}
    (respaced : Respaced same found again) :
    Respaced same (Value.piecesAll (assemble [] [] found))
      (Value.piecesAll (assemble [] [] again)) := by
  rw [piecesAll_assemble_all, piecesAll_assemble_all]
  constructor
  · rw [unspaced_balance, unspaced_balance, respaced.unspaced]
  · rw [strings_balance, strings_balance, respaced.count]
  · rw [strings_balance, strings_balance, respaced.strings]

/-! ## Uniform and collapsed text -/

/-- A text in which all blank space is white space of style values. -/
def Plain (text : Text) : Prop :=
  ∀ character ∈ text, Text.isBlank character = true → isSpace (uniformCharacter character) = true

instance : DecidablePred Plain := fun text =>
  decidable_of_iff (text.all fun character =>
      !Text.isBlank character || isSpace (uniformCharacter character)) (by
    simp only [List.all_eq_true, Bool.or_eq_true, Bool.not_eq_true', Plain]
    refine forall_congr' fun character => imp_congr_right fun _ => ?_
    cases Text.isBlank character <;> simp)

theorem Plain.tail {character : Char} {rest : Text} (plain : Plain (character :: rest)) :
    Plain rest :=
  fun other member => plain other (List.mem_cons_of_mem _ member)

theorem isBlank_of_isSpace {character : Char} (white : isSpace character = true) :
    Text.isBlank character = true := by
  simp only [isSpace, Bool.or_eq_true, decide_eq_true_eq] at white
  rcases white with (rfl | rfl) | rfl <;> decide

theorem isBlank_uniformCharacter (character : Char) :
    Text.isBlank (uniformCharacter character) = Text.isBlank character := by
  fun_cases uniformCharacter character with
  | case1 isBreak =>
      simp only [Bool.or_eq_true, decide_eq_true_eq] at isBreak
      rcases isBreak with rfl | rfl <;> decide
  | case2 notBreak isNull =>
      rw [isNull]
      decide
  | case3 => rfl

/-- White space of style values is made from blank space only. -/
theorem isSpace_uniformCharacter {character : Char}
    (notBlank : Text.isBlank character = false) : isSpace (uniformCharacter character) = false := by
  rw [Bool.eq_false_iff]
  intro white
  have blank := isBlank_of_isSpace white
  rw [isBlank_uniformCharacter, notBlank] at blank
  cases blank

theorem Plain.isSpace_eq {character : Char} {rest : Text} (plain : Plain (character :: rest)) :
    isSpace (uniformCharacter character) = Text.isBlank character := by
  cases blank : Text.isBlank character with
  | true => exact plain character List.mem_cons_self blank
  | false => exact isSpace_uniformCharacter blank

/-- Squeezed text is plain: only spaces are left of the blank space. -/
theorem plain_squeeze (text : Text) : Plain (Text.squeeze Text.isBlank text) := by
  intro character member blank
  rcases Text.mem_squeeze member with ⟨_, notBlank⟩ | rfl
  · rw [notBlank] at blank
    cases blank
  · rfl

theorem exists_uniform_cons {character : Char} {rest : Text} (plain : Plain (character :: rest)) :
    ∃ first more, uniform (character :: rest) = first :: more ∧
      isSpace first = Text.isBlank character := by
  by_cases pair : ∃ more, character = '\r' ∧ rest = '\n' :: more
  · rcases pair with ⟨more, rfl, rfl⟩
    exact ⟨'\n', uniform more, by rw [uniform], by decide⟩
  · have noPair : ∀ more, character = '\r' → rest = '\n' :: more → False :=
      fun more isReturn isBreak => pair ⟨more, isReturn, isBreak⟩
    exact ⟨_, _, uniform_cons noPair, plain.isSpace_eq⟩

theorem uniform_behindGap {text : Text} (plain : Plain text) :
    uniform (Text.behindGap Text.isBlank text) = Text.behindGap isSpace (uniform text) := by
  cases text with
  | nil => rfl
  | cons character rest =>
      rcases exists_uniform_cons plain with ⟨first, more, shape, same⟩
      rw [Text.behindGap, shape, Text.behindGap, same]
      split
      · exact shape
      · rw [uniform_cons (fun _ isReturn => absurd isReturn (by decide)), shape]
        rfl

/-- Plain text is made uniform and squeezed in either order. -/
theorem uniform_squeeze {text : Text} (plain : Plain text) :
    uniform (Text.squeeze Text.isBlank text) = Text.squeeze isSpace (uniform text) := by
  fun_induction uniform text with
  | case1 rest hypothesis =>
      rw [Text.squeeze_gap_gap Text.isBlank_space (by decide) (by decide),
        Text.squeeze_gap (by decide), Text.squeeze_gap (by decide),
        uniform_behindGap (plain_squeeze rest), hypothesis plain.tail.tail]
  | case2 character rest noPair hypothesis =>
      have same := plain.isSpace_eq
      change _ = Text.squeeze isSpace (uniformCharacter character :: uniform rest)
      cases blank : Text.isBlank character with
      | true =>
          rw [blank] at same
          rw [Text.squeeze_gap blank, Text.squeeze_gap same, uniform_behindGap (plain_squeeze rest),
            hypothesis plain.tail]
      | false =>
          rw [blank] at same
          rw [Text.squeeze_solid blank, Text.squeeze_solid same, uniform_cons,
            hypothesis plain.tail]
          rintro more rfl
          cases blank
  | case3 => rfl

/-- White space at the start is left out of plain text before or after it is made uniform. -/
theorem uniform_trimStart {text : Text} (plain : Plain text) :
    uniform (Text.trimStart text) = (uniform text).dropWhile isSpace := by
  unfold Text.trimStart
  fun_induction uniform text with
  | case1 rest hypothesis =>
      rw [List.dropWhile_cons_of_pos (by decide), List.dropWhile_cons_of_pos (by decide),
        List.dropWhile_cons_of_pos (by decide), hypothesis plain.tail.tail]
  | case2 character rest noPair hypothesis =>
      have same := plain.isSpace_eq
      change _ = List.dropWhile isSpace (uniformCharacter character :: uniform rest)
      cases blank : Text.isBlank character with
      | true =>
          rw [blank] at same
          rw [List.dropWhile_cons_of_pos blank, List.dropWhile_cons_of_pos same,
            hypothesis plain.tail]
      | false =>
          rw [blank] at same
          rw [List.dropWhile_cons_of_neg (by simp [blank]),
            List.dropWhile_cons_of_neg (by simp [same]), uniform_cons noPair]
  | case3 => rfl

/-- A plain text that is collapsed is squeezed behind the white space at its start. -/
theorem uniform_collapse {text : Text} (plain : Plain text) :
    uniform (Text.collapse text) = (Text.squeeze isSpace (uniform text)).dropWhile isSpace := by
  have plainAgain : Plain (Text.trimStart text) := fun character member =>
    plain character ((List.dropWhile_sublist _).subset member)
  rw [Text.collapse_eq_squeeze, uniform_squeeze plainAgain, uniform_trimStart plain,
    Text.dropWhile_gap_squeeze isSpace_space]

/-- The lexemes behind the white space at the start of a text. -/
theorem lexemes_dropWhile {same : Prop} {text : Text} {found again : List Lexeme}
    (read : lexemes text = .ok again) (respaced : Respaced same found again) :
    ∃ others, lexemes (text.dropWhile isSpace) = .ok others ∧ Respaced same found others := by
  rcases text with _ | ⟨character, rest⟩
  · exact ⟨again, read, respaced⟩
  cases gap : isSpace character with
  | true =>
      rw [List.dropWhile_cons_of_pos gap]
      rw [lexemes_cons (readLexeme_white gap rest)] at read
      cases behind : lexemes (rest.dropWhile isSpace) with
      | error failure =>
          rw [behind] at read
          cases read
      | ok others =>
          rw [behind] at read
          cases read
          exact ⟨others, rfl, respaced.unspaced, respaced.count, respaced.strings⟩
  | false =>
      rw [List.dropWhile_cons_of_neg (by simp [gap])]
      exact ⟨again, read, respaced⟩

/-! ## Parts that are read as strings -/

theorem isBlank_eq_of_mem_uniform {text : Text} (plain : Plain text) {character : Char}
    (member : character ∈ uniform text) : Text.isBlank character = isSpace character := by
  fun_induction uniform text with
  | case1 rest hypothesis =>
      rcases List.mem_cons.1 member with rfl | member
      · decide
      · exact hypothesis plain.tail.tail member
  | case2 first rest noPair hypothesis =>
      rcases List.mem_cons.1 member with rfl | member
      · change Text.isBlank (uniformCharacter first) = isSpace (uniformCharacter first)
        rw [isBlank_uniformCharacter, plain.isSpace_eq]
      · exact hypothesis plain.tail member
  | case3 => cases member

/-- A part that is read as a string begins with its quote and is a part of the text. -/
theorem exists_of_mem_quotedParts {text part : Text} (isPart : part ∈ quotedParts text) :
    ∃ quote rest, part = quote :: rest ∧ Text.isQuote quote = true ∧
      ∀ character ∈ part, character ∈ text := by
  fun_induction quotedParts text with
  | case1 => cases isPart
  | case2 => cases isPart
  | case3 character rest first after read shorter isQuote hypothesis =>
      rcases List.mem_cons.1 isPart with rfl | isPart
      · refine ⟨character, rest.take (rest.length - after.length), ?_, isQuote, ?_⟩
        · rw [Text.before, List.length_cons, Nat.succ_sub (readLexeme_shorter read),
            List.take_succ_cons]
        · exact fun other member => List.mem_of_mem_take member
      · rcases hypothesis isPart with ⟨quote, more, shape, isQuoteAgain, inside⟩
        exact ⟨quote, more, shape, isQuoteAgain, fun other member =>
          (readLexeme_suffix read).subset (inside other member)⟩
  | case4 character rest first after read shorter notQuote hypothesis =>
      rcases hypothesis isPart with ⟨quote, more, shape, isQuote, inside⟩
      exact ⟨quote, more, shape, isQuote, fun other member =>
        (readLexeme_suffix read).subset (inside other member)⟩

/-- In plain text, squeezing and collapsing a string are the same. -/
theorem keepsParts_iff {text : Text} (plain : Plain text) :
    KeepsParts (uniform text) ↔ ∀ part ∈ quotedParts (uniform text), Text.collapse part = part := by
  refine forall_congr' fun part => imp_congr_right fun isPart => ?_
  rcases exists_of_mem_quotedParts isPart with ⟨quote, rest, shape, isQuote, inside⟩
  have same : ∀ character ∈ part, isSpace character = Text.isBlank character :=
    fun character member => (isBlank_eq_of_mem_uniform plain (inside character member)).symm
  have stops : Text.Stops Text.isBlank part := by
    have solid : isSpace quote = false := not_isSpace_of_outside (by decide) quote isQuote
    rw [shape] at same ⊢
    rw [Text.stops_cons, ← same quote List.mem_cons_self, solid]
  rw [Text.collapse_eq_squeeze, Text.trimStart_of_stops stops,
    Text.squeeze_congr (by decide) same]

/-- A text that can be collapsed without a change to other values than its strings. -/
structure Collapsible (text : Text) : Prop where
  plain : Plain text
  calm : Calm (uniform text)

/--
The values of a collapsible text without flaws differ from those of the collapsed text in spacing
and in strings at most.  The strings are the same, at any depth, exactly if collapsing leaves every
part of the text that is read as a string as it is.
-/
theorem parse_collapse {text : Text} {values : List Value} (collapsible : Collapsible text)
    (read : parse text = .ok values)
    (noFlaw : ∀ lexeme ∈ Value.piecesAll values, lexeme.isFlaw = false) :
    ∃ again, parse (Text.collapse text) = .ok again ∧
      Respaced (∀ part ∈ quotedParts (uniform text), Text.collapse part = part)
        (Value.piecesAll values) (Value.piecesAll again) := by
  rw [parse] at read
  cases found : lexemes (uniform text) with
  | error failure =>
      rw [found] at read
      cases read
  | ok all =>
      rw [found] at read
      cases read
      have noFlawAll : all.all (!·.isFlaw) = true := by
        rw [List.all_eq_true]
        intro lexeme member
        rw [Bool.not_eq_true', Bool.eq_false_iff]
        intro isFlaw
        have isPiece : lexeme ∈ balance [] all := mem_balance_of_isFlaw isFlaw member
        rw [← piecesAll_assemble_all] at isPiece
        rw [noFlaw lexeme isPiece] at isFlaw
        cases isFlaw
      rcases lexemes_squeeze collapsible.calm found noFlawAll with ⟨_, readAgain, respaced⟩
      rcases lexemes_dropWhile readAgain respaced with ⟨others, readOthers, respacedOthers⟩
      rw [keepsParts_iff collapsible.plain] at respacedOthers
      refine ⟨assemble [] [] others, ?_, respacedOthers.assemble⟩
      rw [parse, uniform_collapse collapsible.plain, readOthers]
      rfl

end CssAuthoring.Component
