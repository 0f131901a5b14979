import CssAuthoring.Proofs.Selector.Lexeme

/-!
# Reading the pieces of selectors

Each reader of a piece of a selector agrees with the grammar of that piece.  A piece that stands in
front of text which cannot go on with it is read as a whole, and whatever a reader returns is such a
piece.  Arguments and values are stated for all that follows them, so that their ends need no
condition.
-/

namespace CssAuthoring.Selector

/-! ## Names -/

/-- Whether a character directly behind a name belongs to that name. -/
def extendsName (character : Char) : Bool :=
  isNameCharacter character || character = '\\'

theorem not_escape_of_nameCharacter {character : Char}
    (stays : isNameCharacter character = true) : character ≠ '\\' := by
  rintro rfl
  exact absurd stays (by decide)

@[simp]
theorem splitName_plain {character : Char} (stays : isNameCharacter character = true)
    (rest : Text) :
    splitName (character :: rest) = (character :: (splitName rest).1, (splitName rest).2) := by
  rw [splitName, if_pos stays]
  intro escaped more backslash
  exact absurd backslash (not_escape_of_nameCharacter stays)

/-- Units at the start of a text are read, and more of the name behind them. -/
theorem splitName_units {name : Text} (units : Units name) (text : Text) :
    splitName (name ++ text) = (name ++ (splitName text).1, (splitName text).2) := by
  induction units with
  | nil => rfl
  | plain stays _ hypothesis => simp [stays, hypothesis]
  | escaped character _ hypothesis => simp [splitName, hypothesis]

theorem splitName_of_stops {text : Text} (stops : Text.Stops extendsName text) :
    splitName text = ([], text) := by
  cases text with
  | nil => rfl
  | cons character rest =>
      rw [Text.stops_cons, extendsName, Bool.or_eq_false_iff, decide_eq_false_iff_not] at stops
      rw [splitName, if_neg (by simp [stops.1])]
      intro escaped more backslash
      exact absurd backslash stops.2

/-- A name is read up to where no more of it can follow. -/
theorem splitName_name {name text : Text} (units : Units name)
    (stops : Text.Stops extendsName text) : splitName (name ++ text) = (name, text) := by
  rw [splitName_units units, splitName_of_stops stops, List.append_nil]

theorem Units.append {front back : Text} (unitsFront : Units front) (unitsBack : Units back) :
    Units (front ++ back) := by
  induction unitsFront with
  | nil => exact unitsBack
  | plain stays _ hypothesis => exact .plain stays hypothesis
  | escaped character _ hypothesis => exact .escaped character hypothesis

theorem units_splitName (text : Text) : Units (splitName text).1 := by
  fun_induction splitName text with
  | case1 escaped rest hypothesis => exact .escaped escaped hypothesis
  | case2 character rest notEscape stays hypothesis => exact .plain stays hypothesis
  | case3 => exact .nil
  | case4 => exact .nil

/-- What is read as a name is one, unless it is empty. -/
theorem isName_splitName {text : Text} (nonempty : (splitName text).1 ≠ []) :
    IsName (splitName text).1 :=
  ⟨nonempty, units_splitName text⟩

theorem startsName_append {name : Text} (isName : IsName name) (text : Text) :
    startsName (name ++ text) = true := by
  rw [startsName_iff, splitName_units isName.units]
  simp [isName.nonempty]

/-- The first character of a name. -/
theorem IsName.head {name : Text} (isName : IsName name) :
    ∃ character rest, name = character :: rest ∧ extendsName character = true := by
  rcases isName with ⟨nonempty, units⟩
  cases units with
  | nil => exact absurd rfl nonempty
  | plain stays _ => exact ⟨_, _, rfl, by simp [extendsName, stays]⟩
  | escaped character _ => exact ⟨_, _, rfl, by decide⟩

/-! ## Strings and arguments -/

theorem not_escape_of_isQuote {quote : Char} (isQuote : Text.isQuote quote = true) :
    quote ≠ '\\' := by
  rintro rfl
  exact absurd isQuote (by decide)

/-- The body of a string is read up to the quote behind it. -/
theorem closeString?_body {quote : Char} {body : Text} (isQuote : Text.isQuote quote = true)
    (inside : StringBody quote body) (rest : Text) :
    closeString? quote (body ++ quote :: rest) = some (body ++ [quote], rest) := by
  have notEscape := not_escape_of_isQuote isQuote
  induction inside with
  | nil =>
      rw [List.nil_append, closeString?, if_pos rfl]
      · rfl
      · intro escaped more backslash
        exact absurd backslash notEscape
      · intro backslash
        exact absurd backslash notEscape
  | @plain character front notQuote notBackslash _ hypothesis =>
      rw [List.cons_append, closeString?, if_neg notQuote, hypothesis]
      · rfl
      · intro escaped more backslash
        exact absurd backslash notBackslash
      · intro backslash
        exact absurd backslash notBackslash
  | escaped character _ hypothesis => simp [closeString?, hypothesis]

/-- What is read of a string is its body and the closing quote. -/
theorem stringBody_of_closeString? {quote : Char} {text inside after : Text}
    (closed : closeString? quote text = some (inside, after)) :
    ∃ body, inside = body ++ [quote] ∧ StringBody quote body := by
  fun_induction closeString? quote text generalizing inside after with
  | case1 escaped rest hypothesis =>
      simp only [Option.map_eq_some_iff, Prod.exists, Prod.mk.injEq] at closed
      rcases closed with ⟨front, back, found, rfl, rfl⟩
      rcases hypothesis found with ⟨body, rfl, isBody⟩
      exact ⟨'\\' :: escaped :: body, rfl, .escaped escaped isBody⟩
  | case2 => contradiction
  | case3 rest =>
      rcases Prod.mk.inj (Option.some.inj closed) with ⟨rfl, rfl⟩
      exact ⟨[], rfl, .nil⟩
  | case4 character rest notEscape notLast notQuote hypothesis =>
      simp only [Option.map_eq_some_iff, Prod.exists, Prod.mk.injEq] at closed
      rcases closed with ⟨front, back, found, rfl, rfl⟩
      rcases hypothesis found with ⟨body, rfl, isBody⟩
      refine ⟨character :: body, rfl, .plain notQuote ?_ isBody⟩
      rintro rfl
      cases rest with
      | nil => exact notLast rfl rfl
      | cons next more => exact notEscape next more rfl rfl
  | case5 => contradiction

/-- What is read behind an opening quote makes a string with it. -/
theorem isString_of_closeString? {quote : Char} {text inside after : Text}
    (isQuote : Text.isQuote quote = true)
    (closed : closeString? quote text = some (inside, after)) : IsString (quote :: inside) := by
  rcases stringBody_of_closeString? closed with ⟨body, rfl, isBody⟩
  exact .between isQuote isBody

/-- A string is read from its first quote to its last. -/
theorem IsString.read {string : Text} (isString : IsString string) :
    ∃ quote inside, string = quote :: inside ∧ Text.isQuote quote = true ∧
      ∀ rest, closeString? quote (inside ++ rest) = some (inside, rest) := by
  cases isString with
  | @between quote body isQuote inside =>
      refine ⟨quote, body ++ [quote], rfl, isQuote, ?_⟩
      intro rest
      rw [List.append_assoc]
      exact closeString?_body isQuote inside rest

/-! A character is taken along by the reader of arguments in one of five ways. -/

theorem closeArgument_string {depth : Nat} {quote : Char} {inside text rest : Text}
    (isQuote : Text.isQuote quote = true)
    (closed : closeString? quote text = some (inside, rest)) :
    closeArgument depth (quote :: text) =
      (closeArgument depth rest).map (prepend (quote :: inside)) := by
  rw [closeArgument.eq_def]
  dsimp only
  rw [if_pos isQuote]
  split
  · rename_i unclosed
    rw [closed] at unclosed
    cases unclosed
  · rename_i found
    rw [closed] at found
    cases found
    rfl

theorem closeArgument_plain {character : Char} (notQuote : Text.isQuote character = false)
    (notOpening : character ≠ '(') (notClosing : character ≠ ')') (depth : Nat) (text : Text) :
    closeArgument depth (character :: text) =
      (closeArgument depth text).map (prepend [character]) := by
  rw [closeArgument.eq_def]
  dsimp only
  rw [if_neg (by simp [notQuote]), if_neg notClosing, if_neg notOpening]

theorem closeArgument_opening (depth : Nat) (text : Text) :
    closeArgument depth ('(' :: text) = (closeArgument (depth + 1) text).map (prepend ['(']) := by
  rw [closeArgument.eq_def]
  dsimp only
  rw [if_neg (by decide), if_neg (by decide), if_pos rfl]

theorem closeArgument_closing (depth : Nat) (text : Text) :
    closeArgument (depth + 1) (')' :: text) =
      (closeArgument depth text).map (prepend [')']) := by
  rw [closeArgument.eq_def]
  dsimp only
  rw [if_neg (by decide), if_pos rfl]

theorem closeArgument_end (text : Text) : closeArgument 0 (')' :: text) = .ok ([], text) := by
  rw [closeArgument, if_neg (by decide), if_pos rfl]

/-- Balanced text is read up to the parenthesis behind it. -/
theorem closeArgument_balanced {depth : Nat} {inside : Text} (balanced : Balanced depth inside)
    (rest : Text) : closeArgument depth (inside ++ ')' :: rest) = .ok (inside, rest) := by
  induction balanced with
  | nil => exact closeArgument_end rest
  | plain notQuote notOpening notClosing _ hypothesis =>
      rw [List.cons_append, closeArgument_plain notQuote notOpening notClosing, hypothesis]
      rfl
  | string isString _ hypothesis =>
      rcases isString.read with ⟨quote, inside, rfl, isQuote, closes⟩
      rw [List.append_assoc, List.cons_append, closeArgument_string isQuote (closes _), hypothesis]
      rfl
  | opening _ hypothesis =>
      rw [List.cons_append, closeArgument_opening, hypothesis]
      rfl
  | closing _ hypothesis =>
      rw [List.cons_append, closeArgument_closing, hypothesis]
      rfl

/-- What is read of an argument is balanced. -/
theorem balanced_of_closeArgument {depth : Nat} {text inside after : Text}
    (closed : closeArgument depth text = .ok (inside, after)) : Balanced depth inside := by
  fun_induction closeArgument depth text generalizing inside after with
  | case1 => contradiction
  | case2 => contradiction
  | case3 depth character rest isQuote string between closedString shorter hypothesis =>
      rcases of_map_prepend closed with ⟨back, found, rfl⟩
      exact .string (isString_of_closeString? isQuote closedString) (hypothesis found)
  | case4 =>
      cases closed
      exact .nil
  | case5 rest notQuote outer hypothesis =>
      rcases of_map_prepend closed with ⟨back, found, rfl⟩
      exact .closing (hypothesis found)
  | case6 depth rest notQuote notClosing hypothesis =>
      rcases of_map_prepend closed with ⟨back, found, rfl⟩
      exact .opening (hypothesis found)
  | case7 depth character rest notQuote notClosing notOpening hypothesis =>
      rcases of_map_prepend closed with ⟨back, found, rfl⟩
      exact .plain (by simpa using notQuote) notOpening notClosing (hypothesis found)

/-! ## Values of attributes -/

theorem splitValue_string {quote : Char} {inside text rest : Text}
    (isQuote : Text.isQuote quote = true)
    (closed : closeString? quote text = some (inside, rest)) :
    splitValue (quote :: text) = (splitValue rest).map (prepend (quote :: inside)) := by
  have notBracket : quote ≠ ']' := by
    rintro rfl
    exact absurd isQuote (by decide)
  rw [splitValue, if_neg notBracket, if_pos isQuote]
  split
  · rename_i unclosed
    rw [closed] at unclosed
    cases unclosed
  · rename_i found
    rw [closed] at found
    cases found
    rfl

theorem splitValue_plain {character : Char} (notQuote : Text.isQuote character = false)
    (notBracket : character ≠ ']') (text : Text) :
    splitValue (character :: text) = (splitValue text).map (prepend [character]) := by
  rw [splitValue, if_neg notBracket, if_neg (by simp [notQuote])]

/-- A written value is read up to the bracket behind it. -/
theorem splitValue_written {written : Text} (isWritten : IsWritten written) (rest : Text) :
    splitValue (written ++ ']' :: rest) = .ok (written, ']' :: rest) := by
  induction isWritten with
  | nil => rw [List.nil_append, splitValue, if_pos rfl]
  | plain notQuote notBracket _ hypothesis =>
      rw [List.cons_append, splitValue_plain notQuote notBracket, hypothesis]
      rfl
  | string isString _ hypothesis =>
      rcases isString.read with ⟨quote, inside, rfl, isQuote, closes⟩
      rw [List.append_assoc, List.cons_append, splitValue_string isQuote (closes _), hypothesis]
      rfl

/-- What is read of a value is a written value, and a bracket follows it. -/
theorem isWritten_of_splitValue {text written after : Text}
    (split : splitValue text = .ok (written, after)) :
    IsWritten written ∧ ∃ rest, after = ']' :: rest := by
  fun_induction splitValue text generalizing written after with
  | case1 => contradiction
  | case2 rest =>
      cases split
      exact ⟨.nil, rest, rfl⟩
  | case3 => contradiction
  | case4 character rest notBracket isQuote string between closedString shorter hypothesis =>
      rcases of_map_prepend split with ⟨back, found, rfl⟩
      rcases hypothesis found with ⟨isWritten, bracket⟩
      exact ⟨.string (isString_of_closeString? isQuote closedString) isWritten, bracket⟩
  | case5 character rest notBracket notQuote hypothesis =>
      rcases of_map_prepend split with ⟨back, found, rfl⟩
      rcases hypothesis found with ⟨isWritten, bracket⟩
      exact ⟨.plain (by simpa using notQuote) notBracket isWritten, bracket⟩

theorem not_isBlank_of_isCaseFlag {flag : Char} (isFlag : isCaseFlag flag = true) :
    Text.isBlank flag = false := by
  simp only [isCaseFlag, Bool.or_eq_true, decide_eq_true_eq] at isFlag
  rcases isFlag with ((rfl | rfl) | rfl) | rfl <;> decide

/-- A case letter is split off with the white space before it. -/
theorem splitCaseFlag_flagged {written front : Text} {space flag : Char}
    (trimmed : Text.trimEnd written = front ++ [space, flag]) (nonempty : front ≠ [])
    (space_isSpace : isSpace space = true) (isFlag : isCaseFlag flag = true) :
    splitCaseFlag written = (Text.trimEnd front, some [flag]) := by
  rcases List.eq_nil_or_concat front with empty | ⟨start, character, rfl⟩
  · exact absurd empty nonempty
  · simp [splitCaseFlag, trimmed, space_isSpace, isFlag]

/-- Without a case letter the value is only trimmed. -/
theorem splitCaseFlag_unflagged {written : Text}
    (unflagged : ¬ EndsFlagged (Text.trimEnd written)) :
    splitCaseFlag written = (Text.trimEnd written, none) := by
  unfold splitCaseFlag
  dsimp only
  split
  · rename_i flag space character front shape
    rw [if_neg]
    intro both
    rw [Bool.and_eq_true] at both
    apply unflagged
    refine ⟨(character :: front).reverse, space, flag, by simp, both.2, both.1, ?_⟩
    rw [← List.reverse_reverse (Text.trimEnd written), shape]
    simp
  · rfl

/-- A written value is taken apart as the grammar says. -/
theorem splitCaseFlag_trims {written value : Text} {caseFlag : Option Text}
    (trims : Trims written value caseFlag) : splitCaseFlag written = (value, caseFlag) := by
  cases trims with
  | @bare _ blank solid unflagged isBlank =>
      have trimmed : Text.trimEnd (value ++ blank) = value := by
        rw [Text.trimEnd_append_blank value isBlank, Text.trimEnd_of_solid solid]
      rw [splitCaseFlag_unflagged (by rwa [trimmed]), trimmed]
  | @flagged _ gap blank space flag solid gapBlank space_isSpace isFlag isBlank =>
      have flagSolid : Text.EndsSolid (value ++ gap ++ [space, flag]) :=
        ⟨value ++ gap ++ [space], flag, by simp, not_isBlank_of_isCaseFlag isFlag⟩
      have trimmed :
          Text.trimEnd (value ++ gap ++ [space, flag] ++ blank) =
            value ++ gap ++ [space, flag] := by
        rw [Text.trimEnd_append_blank _ isBlank, Text.trimEnd_of_solid flagSolid]
      have nonempty : value ++ gap ≠ [] := by simp [solid.ne_nil]
      rw [splitCaseFlag_flagged trimmed nonempty space_isSpace isFlag,
        Text.trimEnd_append_blank value gapBlank, Text.trimEnd_of_solid solid]

/-- The parts into which a written value is taken apart are those of the grammar. -/
theorem trims_splitCaseFlag {written : Text} (nonempty : (splitCaseFlag written).1 ≠ []) :
    Trims written (splitCaseFlag written).1 (splitCaseFlag written).2 := by
  rcases Text.exists_trimEnd_append written with ⟨blank, isBlank, equal⟩
  by_cases flagged : EndsFlagged (Text.trimEnd written)
  · rcases flagged with ⟨front, space, flag, frontNonempty, space_isSpace, isFlag, trimmed⟩
    rw [splitCaseFlag_flagged trimmed frontNonempty space_isSpace isFlag] at nonempty ⊢
    rcases Text.exists_trimEnd_append front with ⟨gap, gapBlank, frontEqual⟩
    have solid := Text.trimEnd_solid nonempty
    have trims := Trims.flagged solid gapBlank space_isSpace isFlag isBlank
    rwa [← frontEqual, ← trimmed, ← equal] at trims
  · rw [splitCaseFlag_unflagged flagged] at nonempty ⊢
    have trims := Trims.bare (Text.trimEnd_solid nonempty) flagged isBlank
    rwa [← equal] at trims

end CssAuthoring.Selector
