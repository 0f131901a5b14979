import CssAuthoring.Proofs.Selector.Simple
import CssAuthoring.Proofs.Prelude.Piece

/-!
# The two readers of arguments

Selectors and preludes have a reader of arguments each.  The one of selectors steps over a whole
string at a time and fails where an argument has no end; the one of preludes goes by single
characters, remembers whether it is inside a string, and takes what is left.  They find the same
argument wherever there is one, and otherwise they agree on whether the text ends inside a string.

The readers are compared along the text by the relation `Agree` between what they return.  The
main statement is `readers_agree`.
-/

namespace CssAuthoring.Selector

open Prelude (Closing Quoting readArgument)

/-! ## Texts that end inside a string -/

/-- Text in which every quote opens a string that is closed. -/
inductive Strung : Text → Prop where
  | nil : Strung []
  | plain {character : Char} {rest : Text}
      (notQuote : Text.isQuote character = false) (strung : Strung rest) :
      Strung (character :: rest)
  | string {string rest : Text} (isString : IsString string) (strung : Strung rest) :
      Strung (string ++ rest)

/-- A quote with what stands in its string up to the end, where a backslash may stand alone. -/
inductive OpenString : Text → Prop where
  | body {quote : Char} {body : Text}
      (isQuote : Text.isQuote quote = true) (inside : StringBody quote body) :
      OpenString (quote :: body)
  | escape {quote : Char} {body : Text}
      (isQuote : Text.isQuote quote = true) (inside : StringBody quote body) :
      OpenString (quote :: body ++ ['\\'])

/-- The last quote outside of closed strings opens one that has no end. -/
def EndsInString (text : Text) : Prop :=
  ∃ front here, text = front ++ here ∧ Strung front ∧ OpenString here

theorem closeString?_escaped (quote character : Char) (rest : Text) :
    closeString? quote ('\\' :: character :: rest) =
      (closeString? quote rest).map fun (inside, after) =>
        ('\\' :: character :: inside, after) := by
  rw [closeString?]

theorem closeString?_plain {quote character : Char} (notEscape : character ≠ '\\')
    (notQuote : character ≠ quote) (rest : Text) :
    closeString? quote (character :: rest) =
      (closeString? quote rest).map fun (inside, after) => (character :: inside, after) := by
  rw [closeString?, if_neg notQuote]
  · rintro escaped more rfl
    exact absurd rfl notEscape
  · rintro rfl
    exact absurd rfl notEscape

/-- A string without an end is not closed. -/
theorem OpenString.not_closed {here : Text} (openString : OpenString here) :
    ∃ quote rest, here = quote :: rest ∧ Text.isQuote quote = true ∧
      closeString? quote rest = none := by
  have unclosed {quote : Char} {body : Text} (isQuote : Text.isQuote quote = true)
      (inside : StringBody quote body) (last : Text) (ends : closeString? quote last = none) :
      closeString? quote (body ++ last) = none := by
    induction inside with
    | nil => exact ends
    | plain notQuote notEscape _ hypothesis =>
        rw [List.cons_append, closeString?_plain notEscape notQuote, hypothesis]
        rfl
    | escaped character _ hypothesis =>
        rw [List.cons_append, List.cons_append, closeString?_escaped, hypothesis]
        rfl
  cases openString with
  | @body quote body isQuote inside =>
      refine ⟨quote, body, rfl, isQuote, ?_⟩
      rw [← List.append_nil body]
      exact unclosed isQuote inside [] rfl
  | @escape quote body isQuote inside =>
      exact ⟨quote, body ++ ['\\'], rfl, isQuote, unclosed isQuote inside ['\\'] rfl⟩

/-- Where no string is closed behind a quote, the text ends in the string. -/
theorem openString_of_not_closed {quote : Char} {rest : Text}
    (isQuote : Text.isQuote quote = true) (unclosed : closeString? quote rest = none) :
    OpenString (quote :: rest) := by
  have stays : StringBody quote rest ∨ ∃ body, rest = body ++ ['\\'] ∧ StringBody quote body := by
    fun_induction closeString? quote rest with
    | case1 character rest hypothesis =>
        rcases hypothesis (Option.map_eq_none_iff.1 unclosed) with body | ⟨body, rfl, inside⟩
        · exact .inl (.escaped character body)
        · exact .inr ⟨_, rfl, .escaped character inside⟩
    | case2 => exact .inr ⟨[], rfl, .nil⟩
    | case3 => cases unclosed
    | case4 character rest notPair notLast notQuote hypothesis =>
        have notEscape : character ≠ '\\' := by
          rintro rfl
          cases rest with
          | nil => exact notLast rfl rfl
          | cons next more => exact notPair next more rfl rfl
        rcases hypothesis (Option.map_eq_none_iff.1 unclosed) with body | ⟨body, rfl, inside⟩
        · exact .inl (.plain notQuote notEscape body)
        · exact .inr ⟨_, rfl, .plain notQuote notEscape inside⟩
    | case5 => exact .inl .nil
  rcases stays with inside | ⟨body, rfl, inside⟩
  · exact .body isQuote inside
  · exact .escape isQuote inside

/-! ## The reader of selectors where an argument has no end -/

/-- What is done to a result does not change why there is none. -/
theorem error_of_map {Failure Found Result : Type} {change : Found → Result}
    {reading : Except Failure Found} {cause : Failure}
    (mapped : reading.map change = .error cause) : reading = .error cause := by
  cases reading with
  | error other =>
      cases mapped
      rfl
  | ok found => cases mapped

/-- The reader stops inside a string only where the text ends in one. -/
theorem endsIn_of_closeArgument {depth : Nat} {text here : Text}
    (failed : closeArgument depth text = .error (.string here)) :
    ∃ front, text = front ++ here ∧ Strung front ∧ OpenString here := by
  fun_induction closeArgument depth text with
  | case1 => cases failed
  | case2 depth character rest isQuote unclosed =>
      cases failed
      exact ⟨[], rfl, .nil, openString_of_not_closed isQuote unclosed⟩
  | case3 depth character rest isQuote inside after closed shorter hypothesis =>
      rcases hypothesis (error_of_map failed) with ⟨front, rfl, strung, openString⟩
      refine ⟨character :: inside ++ front, ?_, ?_, openString⟩
      · rw [← closeString?_append closed]
        simp
      · exact .string (isString_of_closeString? isQuote closed) strung
  | case4 => cases failed
  | case5 rest notQuote outer hypothesis =>
      rcases hypothesis (error_of_map failed) with ⟨front, rfl, strung, openString⟩
      exact ⟨')' :: front, rfl, .plain (by decide) strung, openString⟩
  | case6 depth rest notQuote notClosing hypothesis =>
      rcases hypothesis (error_of_map failed) with ⟨front, rfl, strung, openString⟩
      exact ⟨'(' :: front, rfl, .plain (by decide) strung, openString⟩
  | case7 depth character rest notQuote notClosing notOpening hypothesis =>
      rcases hypothesis (error_of_map failed) with ⟨front, rfl, strung, openString⟩
      exact ⟨character :: front, rfl, .plain (by simpa using notQuote) strung, openString⟩

/-- Where the text ends in a string, the reader stops there unless the argument ends before it. -/
theorem closeArgument_openString {front here : Text} (strung : Strung front)
    (openString : OpenString here) (depth : Nat) :
    (∃ reading, closeArgument depth (front ++ here) = .ok reading) ∨
      closeArgument depth (front ++ here) = .error (.string here) := by
  have through {reading : Except OpenEnd (Text × Text)} (front : Text)
      (ends : (∃ found, reading = .ok found) ∨ reading = .error (.string here)) :
      (∃ found, reading.map (prepend front) = .ok found) ∨
        reading.map (prepend front) = .error (.string here) := by
    rcases ends with ⟨found, rfl⟩ | rfl
    · exact .inl ⟨prepend front found, rfl⟩
    · exact .inr rfl
  induction strung generalizing depth with
  | nil =>
      rcases openString.not_closed with ⟨quote, rest, rfl, isQuote, unclosed⟩
      right
      rw [List.nil_append, closeArgument.eq_def]
      dsimp only
      rw [if_pos isQuote]
      split
      · rfl
      · rename_i closed
        rw [unclosed] at closed
        cases closed
  | @plain character rest notQuote _ hypothesis =>
      rw [List.cons_append]
      by_cases opening : character = '('
      · rw [opening, closeArgument_opening]
        exact through ['('] (hypothesis (depth + 1))
      · by_cases closing : character = ')'
        · subst closing
          cases depth with
          | zero => exact .inl ⟨_, closeArgument_end _⟩
          | succ outer =>
              rw [closeArgument_closing]
              exact through [')'] (hypothesis outer)
        · rw [closeArgument_plain notQuote opening closing]
          exact through [character] (hypothesis depth)
  | string isString _ hypothesis =>
      rcases isString.read with ⟨quote, inside, rfl, isQuote, closes⟩
      rw [List.append_assoc, List.cons_append, closeArgument_string isQuote (closes _)]
      exact through (quote :: inside) (hypothesis depth)

/-! ## One step of both readers -/

/-- What the two readers return for the same text. -/
inductive Agree (text : Text) : Except OpenEnd (Text × Text) → Text × Closing × Text → Prop where
  | closed (argument after : Text) : Agree text (.ok (argument, after)) (argument, .closed, after)
  | string (here : Text) (depth : Nat) {quoting : Quoting} (inside : quoting ≠ .outside) :
      Agree text (.error (.string here)) (text, .unclosed depth quoting, [])
  | parenthesis (depth : Nat) :
      Agree text (.error .parenthesis) (text, .unclosed depth .outside, [])

/-- Text that both readers take along leaves them in agreement. -/
theorem Agree.prepend {text : Text} {reading : Except OpenEnd (Text × Text)}
    {argument : Text} {ending : Closing × Text} (front : Text)
    (agree : Agree text reading (argument, ending)) :
    Agree (front ++ text) (reading.map (Selector.prepend front)) (front ++ argument, ending) := by
  cases agree with
  | closed argument after => exact .closed (front ++ argument) after
  | string here depth inside => exact .string here depth inside
  | parenthesis depth => exact .parenthesis depth

/-- A character at which an argument does not end is part of it. -/
theorem readArgument_advance {depth depth' : Nat} {quoting quoting' : Quoting} {character : Char}
    (step : Prelude.advance depth quoting character = some (depth', quoting')) (rest : Text) :
    readArgument depth quoting (character :: rest) =
      (character :: (readArgument depth' quoting' rest).1,
        (readArgument depth' quoting' rest).2) := by
  rw [readArgument, step]

theorem advance_escape (depth : Nat) (quote : Char) :
    Prelude.advance depth (.inside quote) '\\' = some (depth, .escaped quote) := by
  simp [Prelude.advance]

theorem advance_inside {quote character : Char} (notEscape : character ≠ '\\')
    (notQuote : character ≠ quote) (depth : Nat) :
    Prelude.advance depth (.inside quote) character = some (depth, .inside quote) := by
  simp [Prelude.advance, notEscape, notQuote]

theorem advance_quote {quote : Char} (notEscape : quote ≠ '\\') (depth : Nat) :
    Prelude.advance depth (.inside quote) quote = some (depth, .outside) := by
  simp [Prelude.advance, notEscape]

/-- Inside a string, the reader by characters comes to the quote that the other one looks for. -/
theorem readArgument_inside {depth : Nat} {quote : Char} {text inside after : Text}
    (closed : closeString? quote text = some (inside, after)) :
    readArgument depth (.inside quote) text =
      (inside ++ (readArgument depth .outside after).1, (readArgument depth .outside after).2) := by
  fun_induction closeString? quote text generalizing inside after with
  | case1 character rest hypothesis =>
      simp only [Option.map_eq_some_iff, Prod.exists, Prod.mk.injEq] at closed
      rcases closed with ⟨front, back, found, rfl, rfl⟩
      have step : Prelude.advance depth (.escaped quote) character = some (depth, .inside quote) :=
        rfl
      rw [readArgument_advance (advance_escape depth quote), readArgument_advance step,
        hypothesis found]
      rfl
  | case2 => cases closed
  | case3 rest notPair notLast =>
      rcases Prod.mk.inj (Option.some.inj closed) with ⟨rfl, rfl⟩
      have notEscape : quote ≠ '\\' := by
        rintro rfl
        cases rest with
        | nil => exact notLast rfl rfl
        | cons next more => exact notPair next more rfl rfl
      rw [readArgument_advance (advance_quote notEscape depth)]
      rfl
  | case4 character rest notPair notLast notQuote hypothesis =>
      simp only [Option.map_eq_some_iff, Prod.exists, Prod.mk.injEq] at closed
      rcases closed with ⟨front, back, found, rfl, rfl⟩
      have notEscape : character ≠ '\\' := by
        rintro rfl
        cases rest with
        | nil => exact notLast rfl rfl
        | cons next more => exact notPair next more rfl rfl
      rw [readArgument_advance (advance_inside notEscape notQuote depth), hypothesis found]
      rfl
  | case5 => cases closed

/-- A string without an end keeps the reader inside it up to the end of the text. -/
theorem readArgument_unclosed_string {depth : Nat} {quote : Char} {body : Text}
    (inside : StringBody quote body) :
    readArgument depth (.inside quote) body = (body, .unclosed depth (.inside quote), []) ∧
      readArgument depth (.inside quote) (body ++ ['\\']) =
        (body ++ ['\\'], .unclosed depth (.escaped quote), []) := by
  induction inside with
  | nil =>
      refine ⟨rfl, ?_⟩
      rw [List.nil_append, readArgument_advance (advance_escape depth quote)]
      rfl
  | plain notQuote notEscape _ hypothesis =>
      rw [List.cons_append, readArgument_advance (advance_inside notEscape notQuote depth),
        readArgument_advance (advance_inside notEscape notQuote depth), hypothesis.1, hypothesis.2]
      exact ⟨rfl, rfl⟩
  | escaped character _ hypothesis =>
      have step : Prelude.advance depth (.escaped quote) character = some (depth, .inside quote) :=
        rfl
      rw [List.cons_append, List.cons_append, readArgument_advance (advance_escape depth quote),
        readArgument_advance (advance_escape depth quote), readArgument_advance step,
        readArgument_advance step, hypothesis.1, hypothesis.2]
      exact ⟨rfl, rfl⟩

theorem advance_open {quote : Char} (isQuote : Text.isQuote quote = true) (depth : Nat) :
    Prelude.advance depth .outside quote = some (depth, .inside quote) := by
  simp [Prelude.advance, isQuote]

/-- Behind a quote without a match, both readers stop inside the string. -/
theorem agree_openString {here : Text} (openString : OpenString here) (depth : Nat) :
    Agree here (.error (.string here)) (readArgument depth .outside here) := by
  cases openString with
  | body isQuote inside =>
      rw [readArgument_advance (advance_open isQuote depth),
        (readArgument_unclosed_string inside).1]
      exact .string _ depth (by simp)
  | escape isQuote inside =>
      rw [List.cons_append, readArgument_advance (advance_open isQuote depth),
        (readArgument_unclosed_string inside).2]
      exact .string _ depth (by simp)

/-- Outside of strings, both readers do the same at every character. -/
theorem agree (depth : Nat) (text : Text) :
    Agree text (closeArgument depth text) (readArgument depth .outside text) := by
  fun_induction closeArgument depth text with
  | case1 depth => exact .parenthesis depth
  | case2 depth quote rest isQuote unclosed =>
      exact agree_openString (openString_of_not_closed isQuote unclosed) depth
  | case3 depth quote rest isQuote inside after closed shorter hypothesis =>
      -- One step over a string answers to many steps of the reader by characters.
      have behind := hypothesis.prepend (quote :: inside)
      rw [readArgument_advance (advance_open isQuote depth), readArgument_inside closed,
        ← closeString?_append closed]
      exact behind
  | case4 rest notQuote => exact .closed [] rest
  | case5 rest outer notQuote hypothesis =>
      have step : Prelude.advance (outer + 1) .outside ')' = some (outer, .outside) := rfl
      rw [readArgument_advance step]
      exact hypothesis.prepend [')']
  | case6 depth rest notQuote notClosing hypothesis =>
      have step : Prelude.advance depth .outside '(' = some (depth + 1, .outside) := rfl
      rw [readArgument_advance step]
      exact hypothesis.prepend ['(']
  | case7 depth character rest notQuote notClosing notOpening hypothesis =>
      have step : Prelude.advance depth .outside character = some (depth, .outside) := by
        simp [Prelude.advance, notQuote, notClosing, notOpening]
      rw [readArgument_advance step]
      exact hypothesis.prepend [character]

/-! ## Agreement -/

/-- The readers find the same argument, and stop behind the same parenthesis. -/
theorem closeArgument_eq_ok_iff {text argument after : Text} :
    closeArgument 0 text = .ok (argument, after) ↔
      readArgument 0 .outside text = (argument, .closed, after) := by
  have both := agree 0 text
  constructor
  · intro closed
    rw [closed] at both
    generalize readArgument 0 .outside text = read at both
    cases both
    rfl
  · intro read
    rw [read] at both
    generalize closeArgument 0 text = closed at both
    cases both
    rfl

/-- An argument is the balanced text in front of a parenthesis, of which there is only one. -/
theorem closeArgument_eq_ok_iff_balanced {text argument after : Text} :
    closeArgument 0 text = .ok (argument, after) ↔
      text = argument ++ ')' :: after ∧ Balanced 0 argument := by
  constructor
  · intro closed
    exact ⟨(closeArgument_append closed).symm, balanced_of_closeArgument closed⟩
  · rintro ⟨rfl, balanced⟩
    exact closeArgument_balanced balanced after

/-- Without an end of the argument, the reader of selectors stops at the string that is open. -/
theorem closeArgument_eq_string {text front here : Text}
    (unclosed : ∀ argument after, closeArgument 0 text ≠ .ok (argument, after))
    (shape : text = front ++ here) (strung : Strung front) (openString : OpenString here) :
    closeArgument 0 text = .error (.string here) := by
  subst shape
  rcases closeArgument_openString strung openString 0 with ⟨⟨argument, after⟩, closed⟩ | failed
  · exact absurd closed (unclosed argument after)
  · exact failed

/-- Without an end of the argument and an open string, it is a parenthesis that is missing. -/
theorem closeArgument_eq_parenthesis {text : Text}
    (unclosed : ∀ argument after, closeArgument 0 text ≠ .ok (argument, after))
    (outside : ¬ EndsInString text) : closeArgument 0 text = .error .parenthesis := by
  cases failed : closeArgument 0 text with
  | ok found => exact absurd failed (unclosed found.1 found.2)
  | error cause =>
      cases cause with
      | string here =>
          rcases endsIn_of_closeArgument failed with ⟨front, shape, strung, openString⟩
          exact absurd ⟨front, here, shape, strung, openString⟩ outside
      | parenthesis => rfl

/-- Without an end of the argument, the reader of preludes takes what is left. -/
theorem readArgument_of_unclosed {text : Text}
    (unclosed : ∀ argument after, closeArgument 0 text ≠ .ok (argument, after)) :
    ∃ depth quoting, readArgument 0 .outside text = (text, .unclosed depth quoting, []) ∧
      (quoting ≠ .outside ↔ EndsInString text) := by
  have both := agree 0 text
  by_cases inside : EndsInString text
  · rcases inside with ⟨front, here, shape, strung, openString⟩
    rw [closeArgument_eq_string unclosed shape strung openString] at both
    generalize readArgument 0 .outside text = read at both
    cases both with
    | @string _ depth quoting stays =>
        exact ⟨depth, quoting, rfl, iff_of_true stays ⟨front, here, shape, strung, openString⟩⟩
  · rw [closeArgument_eq_parenthesis unclosed inside] at both
    generalize readArgument 0 .outside text = read at both
    cases both with
    | parenthesis depth => exact ⟨depth, .outside, rfl, iff_of_false (by simp) inside⟩

/-- What is read behind the name of a pseudo-class, by what its argument is read as. -/
theorem readPseudo_opening {name : Text} (isName : IsName name) (colons : Text)
    (part : Text → Option Text → Part) (fault : Fault) (text : Text) :
    readPseudo colons part fault (name ++ '(' :: text) =
      match closeArgument 0 text with
      | .error (.string here) => .error ⟨.unterminatedString, here⟩
      | .error .parenthesis => .error ⟨.unclosedParenthesis (colons ++ name), '(' :: text⟩
      | .ok (argument, after) =>
        .ok (⟨part name (some argument),
          colons ++ Text.before (name ++ '(' :: text) after⟩, after) := by
  have stops : Text.Stops extendsName ('(' :: text) := (Text.stops_cons _ _ _).2 (by decide)
  have split := splitName_name isName.units stops
  cases closed : closeArgument 0 text with
  | ok found => simp [readPseudo, split, isName.nonempty, closed]
  | error cause => cases cause <;> simp [readPseudo, split, isName.nonempty, closed]

/--
Behind an opening parenthesis, the reader of selectors returns an argument exactly if the reader of
preludes stops at a parenthesis, and it is the same argument with the same text behind it: the
shortest balanced text in front of a parenthesis.  Where there is none, the reader of preludes takes
all that is left, and a pseudo-class or pseudo-element is refused, for the open string if the text
ends inside one and for its parenthesis if not.
-/
theorem readers_agree (text : Text) :
    (∀ argument after,
      (closeArgument 0 text = .ok (argument, after) ↔
        readArgument 0 .outside text = (argument, .closed, after)) ∧
      (closeArgument 0 text = .ok (argument, after) ↔
        (text = argument ++ ')' :: after ∧ Balanced 0 argument) ∧
          ∀ other rest, text = other ++ ')' :: rest → Balanced 0 other →
            argument.length ≤ other.length)) ∧
    ((∀ argument after, closeArgument 0 text ≠ .ok (argument, after)) →
      (∃ depth quoting, readArgument 0 .outside text = (text, .unclosed depth quoting, []) ∧
        (quoting ≠ .outside ↔ EndsInString text)) ∧
      ∀ colons part fault name, IsName name →
        (∀ front here, text = front ++ here → Strung front → OpenString here →
          readPseudo colons part fault (name ++ '(' :: text) =
            .error ⟨.unterminatedString, here⟩) ∧
        (¬ EndsInString text →
          readPseudo colons part fault (name ++ '(' :: text) =
            .error ⟨.unclosedParenthesis (colons ++ name), '(' :: text⟩)) := by
  constructor
  · intro argument after
    refine ⟨closeArgument_eq_ok_iff, ?_⟩
    rw [closeArgument_eq_ok_iff_balanced]
    refine ⟨fun balanced => ⟨balanced, ?_⟩, And.left⟩
    intro other rest shape isBalanced
    have closed := closeArgument_eq_ok_iff_balanced.2 balanced
    have again := closeArgument_eq_ok_iff_balanced.2 ⟨shape, isBalanced⟩
    rw [closed] at again
    cases again
    exact Nat.le_refl _
  · intro unclosed
    refine ⟨readArgument_of_unclosed unclosed, ?_⟩
    intro colons part fault name isName
    constructor
    · intro front here shape strung openString
      rw [readPseudo_opening isName, closeArgument_eq_string unclosed shape strung openString]
    · intro outside
      rw [readPseudo_opening isName, closeArgument_eq_parenthesis unclosed outside]

/-- An argument with a closed string, a closed parenthesis, and a string that ends in an escape. -/
theorem readers_agree_escaped :
    readPseudo [':'] .pseudoClass .expectedPseudoClassName "not('(' () \"\\".toList =
        .error ⟨.unterminatedString, "\"\\".toList⟩ ∧
      ∃ depth quoting, readArgument 0 .outside "'(' () \"\\".toList =
        ("'(' () \"\\".toList, .unclosed depth quoting, []) := by
  have unclosed : ∀ argument after,
      closeArgument 0 "'(' () \"\\".toList ≠ .ok (argument, after) := by
    intro argument after closed
    rw [closeArgument_eq_ok_iff] at closed
    cases closed
  have inside : StringBody '\'' ['('] := .plain (by decide) (by decide) .nil
  have isString : IsString "'('".toList := .between rfl inside
  have strung : Strung ("'('".toList ++ " () ".toList) :=
    .string isString (.plain rfl (.plain rfl (.plain rfl (.plain rfl .nil))))
  have isName : IsName "not".toList :=
    ⟨by decide, .plain rfl (.plain rfl (.plain rfl .nil))⟩
  have agreed := (readers_agree "'(' () \"\\".toList).2 unclosed
  rcases agreed with ⟨⟨depth, quoting, read, _⟩, refused⟩
  exact ⟨(refused [':'] .pseudoClass .expectedPseudoClassName _ isName).1 _ _ rfl strung
    (.escape rfl .nil), depth, quoting, read⟩

end CssAuthoring.Selector
