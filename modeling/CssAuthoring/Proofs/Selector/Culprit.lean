import CssAuthoring.Proofs.Argument
import CssAuthoring.Proofs.Selector.InPlace
import CssAuthoring.Proofs.Selector.Spelling

/-!
# The culprits of rejected selectors

An error in a selector has a position, and its code says what stands there.  `Blames` says so for
every fault by what precedes the culprit and what follows from it on: the sign behind which a name
is missing, the bracket of the attribute that is not finished, the quote without a match.

Every reader finds its culprits where `Blames` says, and text in front of them does not change that.
Blank space around a selector is not scanned, so it only moves the culprit.

The main statements are `culprit_of_tokenize`, and `tokenize_surrounded` for blank space.
-/

namespace CssAuthoring.Selector

/-! ## What the faults blame -/

/-- The signs behind which a name is missing. -/
inductive Misses : Fault → Text → Prop where
  | idName : Misses .expectedIdName ['#']
  | className : Misses .expectedClassName ['.']
  | pseudoClassName : Misses .expectedPseudoClassName [':']
  | pseudoElementName : Misses .expectedPseudoElementName [':', ':']
  | attributeName {space : Text} (white : White space) :
      Misses .expectedAttributeName ('[' :: space)

/-- A character at which no token begins. -/
structure Stray (character : Char) (rest : Text) : Prop where
  noSeparator : startsSeparator character = false
  noSign : character ∉ ['#', '.', '[', ':', '*']
  noName : startsName (character :: rest) = false
  noBar : character = '|' → startsLocalName rest = false

/-- An attribute selector up to its operator. -/
inductive IsHead : Text → Prop where
  | name {before name after : Text} {space : Option Text} (whiteBefore : White before)
      (isNamespace : IsNamespace space) (isName : IsName name) (whiteAfter : White after) :
      IsHead ('[' :: before ++ Part.qualified space name ++ after)

/-- An attribute selector up to its value. -/
inductive IsStem : Text → Prop where
  | operator {head operator space : Text} (isHead : IsHead head)
      (isOperator : IsOperator operator) (white : White space) :
      IsStem (head ++ operator ++ space)

/-- An attribute selector without its bracket, as far as it goes. -/
inductive Unfinished : Text → Prop where
  | head {head : Text} (isHead : IsHead head) : Unfinished head
  | stem {stem written : Text} (isStem : IsStem stem) (isWritten : IsWritten written) :
      Unfinished (stem ++ written)

/-- What stands in place of a value where there is none: blank space, perhaps with a case letter. -/
inductive NoValue : Text → Prop where
  | blank {blank : Text} (isBlank : Text.Blank blank) : NoValue blank
  | flag {front back : Text} {flag : Char} (frontBlank : Text.Blank front)
      (isFlag : isCaseFlag flag = true) (backBlank : Text.Blank back) :
      NoValue (front ++ flag :: back)

/-- What a fault says about the text in front of the culprit and the text from the culprit on. -/
inductive Blames : Fault → Text → Text → Prop where
  | stray (before : Text) {rest : Text} {character : Char} (stray : Stray character rest) :
      Blames (.unexpectedCharacter character) before (character :: rest)
  | word (before : Text) {head rest : Text} {character : Char} (isHead : IsHead head)
      (isWord : isWordCharacter character = true) :
      Blames (.unexpectedCharacter character) (before ++ head) (character :: rest)
  | operator (before : Text) {head rest : Text} {character : Char} (isHead : IsHead head)
      (noOperator : ∀ operator after, IsOperator operator →
        character :: rest ≠ operator ++ after) :
      Blames (.invalidAttributeOperator character) (before ++ head) (character :: rest)
  | name (before : Text) {fault : Fault} {sign here : Text} (misses : Misses fault sign)
      (noName : startsName here = false) :
      Blames fault (before ++ sign) here
  | value (before : Text) {stem written rest : Text} (isStem : IsStem stem)
      (noValue : NoValue written) :
      Blames .expectedAttributeValue (before ++ stem) (written ++ ']' :: rest)
  | attribute (before : Text) {here : Text} (unfinished : Unfinished here) :
      Blames .unterminatedAttribute before here
  | string (before : Text) {rest : Text} {quote : Char} (isQuote : Text.isQuote quote = true)
      (unmatched : ∀ body after, StringBody quote body → rest ≠ body ++ quote :: after) :
      Blames .unterminatedString before (quote :: rest)
  | parenthesis (before : Text) {colons name inner : Text}
      (isColons : colons = [':'] ∨ colons = [':', ':']) (isName : IsName name)
      (unmatched : ∀ argument after, Balanced 0 argument → inner ≠ argument ++ ')' :: after) :
      Blames (.unclosedParenthesis (colons ++ name)) (before ++ (colons ++ name)) ('(' :: inner)

/-- A culprit stands in a text, and is what its fault blames there. -/
def Found (text : Text) (culprit : Culprit) : Prop :=
  ∃ before, text = before ++ culprit.here ∧ Blames culprit.fault before culprit.here

/-- More text in front of a culprit takes none of the blame away. -/
theorem Blames.append {fault : Fault} {before here : Text} (blames : Blames fault before here)
    (front : Text) : Blames fault (front ++ before) here := by
  cases blames with
  | stray before stray => exact .stray _ stray
  | word before isHead isWord =>
      rw [← List.append_assoc]
      exact .word _ isHead isWord
  | operator before isHead noOperator =>
      rw [← List.append_assoc]
      exact .operator _ isHead noOperator
  | name before misses noName =>
      rw [← List.append_assoc]
      exact .name _ misses noName
  | value before isStem noValue =>
      rw [← List.append_assoc]
      exact .value _ isStem noValue
  | «attribute» before unfinished => exact .attribute _ unfinished
  | string before isQuote unmatched => exact .string _ isQuote unmatched
  | parenthesis before isColons isName unmatched =>
      rw [← List.append_assoc front]
      exact .parenthesis _ isColons isName unmatched

theorem Found.append {text : Text} {culprit : Culprit} (found : Found text culprit)
    (front : Text) : Found (front ++ text) culprit := by
  rcases found with ⟨before, shape, blames⟩
  exact ⟨front ++ before, by rw [shape, List.append_assoc], blames.append front⟩

/-- A string that is open at the end of a text is the culprit in it. -/
theorem Found.string (front : Text) {here : Text} (openString : OpenString here) :
    Found (front ++ here) ⟨.unterminatedString, here⟩ := by
  rcases openString.not_closed with ⟨quote, rest, rfl, isQuote, unclosed⟩
  refine ⟨front, rfl, .string _ isQuote ?_⟩
  rintro body after inside rfl
  rw [closeString?_body isQuote inside after] at unclosed
  cases unclosed

/-! ## Names behind a sign -/

theorem startsName_of_isEmpty {text : Text} (empty : (splitName text).1.isEmpty = true) :
    startsName text = false := by
  rw [Bool.eq_false_iff, Ne, startsName_iff, Decidable.not_not]
  exact List.isEmpty_iff.1 empty

theorem found_of_readNamed {sign : Char} {part : Text → Part} {fault : Fault} {text : Text}
    {culprit : Culprit} (misses : Misses fault [sign])
    (failed : readNamed sign part fault text = .error culprit) : Found (sign :: text) culprit := by
  unfold readNamed at failed
  dsimp only at failed
  split at failed
  · rename_i empty
    cases failed
    exact ⟨[sign], rfl, .name [] misses (startsName_of_isEmpty empty)⟩
  · cases failed

theorem found_of_readPseudo {colons : Text} {part : Text → Option Text → Part} {fault : Fault}
    {text : Text} {culprit : Culprit} (misses : Misses fault colons)
    (isColons : colons = [':'] ∨ colons = [':', ':'])
    (failed : readPseudo colons part fault text = .error culprit) :
    Found (colons ++ text) culprit := by
  have whole := splitName_append text
  unfold readPseudo at failed
  dsimp only at failed
  split at failed
  · rename_i empty
    cases failed
    exact ⟨colons, rfl, .name [] misses (startsName_of_isEmpty empty)⟩
  · rename_i filled
    have isName : IsName (splitName text).1 := isName_splitName (by simpa using filled)
    split at failed
    · rename_i inner opening
      rw [opening] at whole
      split at failed
      · rename_i here unclosed
        cases failed
        rcases endsIn_of_closeArgument unclosed with ⟨front, rfl, _, openString⟩
        rw [← whole]
        simpa using Found.string (colons ++ (splitName text).1 ++ '(' :: front) openString
      · rename_i unclosed
        cases failed
        refine ⟨colons ++ (splitName text).1, ?_, ?_⟩
        · rw [List.append_assoc, opening, whole]
        · rw [opening]
          refine .parenthesis [] isColons isName ?_
          rintro argument after balanced rfl
          rw [closeArgument_balanced balanced after] at unclosed
          cases unclosed
      · cases failed
    · cases failed

/-! ## Attribute selectors -/

/-- Where the scan of a value meets a string without an end, the text ends in it. -/
theorem openString_of_splitValue {text here : Text}
    (failed : splitValue text = .error (.string here)) :
    ∃ front, text = front ++ here ∧ OpenString here := by
  fun_induction splitValue text with
  | case1 => cases failed
  | case2 => cases failed
  | case3 character rest notBracket isQuote unclosed =>
      cases failed
      exact ⟨[], rfl, openString_of_not_closed isQuote unclosed⟩
  | case4 character rest notBracket isQuote inside after closed shorter hypothesis =>
      rcases hypothesis (error_of_map failed) with ⟨front, rfl, openString⟩
      refine ⟨character :: inside ++ front, ?_, openString⟩
      rw [← closeString?_append closed]
      simp
  | case5 character rest notBracket notQuote hypothesis =>
      rcases hypothesis (error_of_map failed) with ⟨front, rfl, openString⟩
      exact ⟨character :: front, rfl, openString⟩

/-- Where the scan of a value meets the end of the text, all of the text belongs to the value. -/
theorem isWritten_of_unfinished {text : Text}
    (failed : splitValue text = .error .parenthesis) : IsWritten text := by
  fun_induction splitValue text with
  | case1 => exact .nil
  | case2 => cases failed
  | case3 => cases failed
  | case4 character rest notBracket isQuote inside after closed shorter hypothesis =>
      rw [← closeString?_append closed]
      exact .string (isString_of_closeString? isQuote closed)
        (hypothesis (error_of_map failed))
  | case5 character rest notBracket notQuote hypothesis =>
      exact .plain (by simpa using notQuote) notBracket (hypothesis (error_of_map failed))

/-- A written value is nothing but blank space and perhaps a case letter if no value is left. -/
theorem noValue_of_splitCaseFlag {written : Text} (empty : (splitCaseFlag written).1 = []) :
    NoValue written := by
  rcases Text.exists_trimEnd_append written with ⟨blank, isBlank, whole⟩
  by_cases flagged : EndsFlagged (Text.trimEnd written)
  · rcases flagged with ⟨front, space, flag, nonempty, space_isSpace, isFlag, trimmed⟩
    rw [splitCaseFlag_flagged trimmed nonempty space_isSpace isFlag] at empty
    rcases Text.exists_trimEnd_append front with ⟨gap, gapBlank, frontWhole⟩
    rw [show Text.trimEnd front = [] from empty, List.nil_append] at frontWhole
    have shape : written = front ++ [space] ++ flag :: blank := by
      calc written = Text.trimEnd written ++ blank := whole
        _ = front ++ [space, flag] ++ blank := by rw [trimmed]
        _ = front ++ [space] ++ flag :: blank := by simp
    rw [shape]
    refine .flag ?_ isFlag isBlank
    intro character member
    rcases List.mem_append.1 member with inFront | last
    · rw [frontWhole] at inFront
      exact gapBlank character inFront
    · rw [List.mem_singleton.1 last]
      exact isBlank_of_isSpace space_isSpace
  · rw [splitCaseFlag_unflagged flagged] at empty
    rw [whole, show Text.trimEnd written = [] from empty]
    exact .blank isBlank

/-- A text without an operator at its start is empty or begins with a character that is blamed. -/
theorem found_of_splitOperator {head text : Text} {fault : Fault} (isHead : IsHead head)
    (failed : splitOperator text = .error fault) :
    text = [] ∧ fault = .unterminatedAttribute ∨
      fault ≠ .unterminatedAttribute ∧ Found (head ++ text) ⟨fault, text⟩ := by
  unfold splitOperator at failed
  split at failed
  · cases failed
    exact .inl ⟨rfl, rfl⟩
  · cases failed
  · rename_i character rest notEquals
    right
    split at failed
    · rename_i isWord
      cases failed
      exact ⟨by simp, head, rfl, .word [] isHead isWord⟩
    · split at failed
      · cases failed
      · rename_i notWord notMarked
        cases failed
        refine ⟨by simp, head, rfl, .operator [] isHead ?_⟩
        intro operator after isOperator shape
        cases isOperator with
        | equals =>
            cases shape
            exact notEquals rfl
        | marked =>
            cases shape
            exact notMarked _ rfl

theorem found_of_readCondition {head text : Text} {culprit : Culprit} (isHead : IsHead head)
    (failed : readCondition (head ++ text) text = .error culprit) :
    Found (head ++ text) culprit := by
  unfold readCondition at failed
  split at failed
  · cases failed
  · rename_i noBracket
    split at failed
    · rename_i unterminated
      cases failed
      rcases found_of_splitOperator isHead unterminated with ⟨rfl, _⟩ | ⟨other, _⟩
      · refine ⟨[], rfl, .attribute _ ?_⟩
        rw [List.append_nil]
        exact .head isHead
      · exact absurd rfl other
    · rename_i fault other invalid
      cases failed
      rcases found_of_splitOperator isHead invalid with ⟨_, rfl⟩ | ⟨_, found⟩
      · exact absurd rfl other
      · exact found
    · rename_i operator afterOperator read
      -- With an operator found, the culprit lies in the value or is the bracket at the start.
      have notBracket : text.head? ≠ some ']' := by
        intro bracket
        rcases List.head?_eq_some_iff.1 bracket with ⟨rest, rfl⟩
        exact noBracket rest rfl
      rcases isOperator_of_splitOperator read notBracket with ⟨whole, isOperator, _⟩
      rcases exists_white_append afterOperator with ⟨space, white, gap⟩
      have isStem : IsStem (head ++ operator ++ space) := .operator isHead isOperator white
      have shape : head ++ text = head ++ operator ++ space ++ skipSpace afterOperator := by
        rw [← whole, List.append_assoc, List.append_assoc, ← gap]
      rw [shape] at failed ⊢
      dsimp only at failed
      split at failed
      · rename_i here unclosed
        cases failed
        rcases openString_of_splitValue unclosed with ⟨front, value, openString⟩
        rw [value, ← List.append_assoc]
        exact .string _ openString
      · rename_i unfinished
        cases failed
        exact ⟨[], rfl, .attribute _ (.stem isStem (isWritten_of_unfinished unfinished))⟩
      · rename_i written atBracket valueIn
        rcases isWritten_of_splitValue valueIn with ⟨_, rest, rfl⟩
        split at failed
        · rename_i empty
          cases failed
          refine ⟨head ++ operator ++ space, rfl, ?_⟩
          rw [← splitValue_append valueIn]
          exact .value [] isStem (noValue_of_splitCaseFlag (List.isEmpty_iff.1 empty))
        · cases failed

/-- Where a name starts, the longest one with its namespace is not empty. -/
theorem not_startsName_of_splitQualifiedName {text after : Text} {space : Option Text}
    (split : splitQualifiedName text = ((space, []), after)) : startsName text = false := by
  rw [Bool.eq_false_iff]
  intro starts
  have isName := isName_splitName ((startsName_iff text).1 starts)
  have noBar : splitBar text = (none, text) := by
    rw [← splitName_append text]
    exact splitBar_isName isName _
  unfold splitQualifiedName at split
  rw [noBar] at split
  dsimp only at split
  split at split
  · split at split
    · rename_i behind
      exact (startsName_iff _).1 behind (congrArg (·.1.2) split)
    · exact isName.nonempty (congrArg (·.1.2) split)
  · exact isName.nonempty (congrArg (·.1.2) split)

theorem found_of_readAttribute {text : Text} {culprit : Culprit}
    (failed : readAttribute text = .error culprit) : Found ('[' :: text) culprit := by
  rcases exists_white_append text with ⟨before, whiteBefore, gap⟩
  rcases split : splitQualifiedName (skipSpace text) with ⟨⟨space, name⟩, afterName⟩
  unfold readAttribute at failed
  dsimp only at failed
  rw [split] at failed
  dsimp only at failed
  split at failed
  · rename_i empty
    rw [List.isEmpty_iff.1 empty] at split
    cases failed
    refine ⟨'[' :: before, congrArg ('[' :: ·) gap, ?_⟩
    exact .name [] (.attributeName whiteBefore)
      (not_startsName_of_splitQualifiedName split)
  · rename_i filled
    have named := qualifiedName_of_split split
    have isName : IsName name := ⟨by simpa using filled, named.units⟩
    rcases exists_white_append afterName with ⟨after, whiteAfter, gapAfter⟩
    have isHead := IsHead.name whiteBefore named.isNamespace isName whiteAfter
    have shape : '[' :: text =
        '[' :: before ++ Part.qualified space name ++ after ++ skipSpace afterName := by
      rw [List.append_assoc, ← gapAfter, List.append_assoc, named.source, List.cons_append, ← gap]
    rw [shape] at failed ⊢
    split at failed
    · rename_i condition
      cases failed
      exact found_of_readCondition isHead condition
    · cases failed

/-! ## Type and universal selectors -/

theorem found_of_readElement {character : Char} {rest : Text} {culprit : Culprit}
    (noSeparator : startsSeparator character = false)
    (noSign : character ∉ ['#', '.', '[', ':'])
    (failed : readElement character rest = .error culprit) :
    Found (character :: rest) culprit := by
  unfold readElement at failed
  split at failed
  · split at failed <;> cases failed
  · cases failed
  · split at failed
    · cases failed
    · rename_i noBar
      cases failed
      refine ⟨[], rfl, .stray _ ⟨noSeparator, by decide, rfl, ?_⟩⟩
      intro _
      simpa using noBar
  · rename_i notStar notBar _
    dsimp only at failed
    split at failed
    · rename_i empty
      cases failed
      refine ⟨[], rfl, .stray _ ⟨noSeparator, ?_, startsName_of_isEmpty empty, ?_⟩⟩
      · intro member
        rcases List.mem_append.1 (show character ∈ ['#', '.', '[', ':'] ++ ['*'] from member) with
          sign | star
        · exact noSign sign
        · exact notStar (List.mem_singleton.1 star)
      · intro bar
        exact (notBar bar).elim
    · split at failed
      · split at failed <;> cases failed
      · cases failed

/-! ## Whole selectors -/

theorem found_of_readToken {character : Char} {rest : Text} {culprit : Culprit}
    (failed : readToken character rest = .error culprit) : Found (character :: rest) culprit := by
  unfold readToken at failed
  split at failed
  · cases failed
  · rename_i noSeparator
    split at failed
    · exact found_of_readNamed .idName failed
    · exact found_of_readNamed .className failed
    · exact found_of_readAttribute failed
    · split at failed
      · exact found_of_readPseudo .pseudoElementName (.inr rfl) failed
      · exact found_of_readPseudo .pseudoClassName (.inl rfl) failed
    · rename_i notId notClass notBracket notColon
      refine found_of_readElement (by simpa using noSeparator) ?_ failed
      simpa using ⟨notId, notClass, notBracket, notColon⟩

/-- A scan finds its culprit in the text. -/
theorem found_of_scan {text : Text} {culprit : Culprit} (failed : scan text = .error culprit) :
    Found text culprit := by
  fun_induction scan text with
  | case1 => cases failed
  | case2 character rest culprit read =>
      cases failed
      exact found_of_readToken read
  | case3 character rest token after read shorter hypothesis =>
      rcases (readToken_suffix read).1 with ⟨front, shape⟩
      rw [← shape]
      exact (hypothesis (error_of_map failed)).append front

theorem ne_nil_of_scan {text : Text} {culprit : Culprit} (failed : scan text = .error culprit) :
    text ≠ [] := by
  rintro rfl
  rw [scan] at failed
  cases failed

/-- Without the blank space at its end, the text is what precedes the culprit and the rest. -/
theorem exists_culprit_of_tokenize {selector : Text} {error : Error}
    (rejected : tokenize selector = .error error) :
    error.selector = selector ∧ ∃ before here,
      Text.trimEnd selector = before ++ here ∧ error.position = before.length ∧
        (selector.takeWhile Text.isBlank).length ≤ before.length ∧
        Blames error.fault before here := by
  rw [tokenize_eq_scan] at rejected
  cases scanned : scan (Text.trim selector) with
  | ok tokens =>
      rw [scanned] at rejected
      cases rejected
  | error culprit =>
      rw [scanned] at rejected
      cases rejected
      rcases found_of_scan scanned with ⟨before, shape, blames⟩
      have filled := ne_nil_of_scan scanned
      have whole := takeWhile_append_trim filled
      rw [shape, ← List.append_assoc] at whole
      refine ⟨rfl, selector.takeWhile Text.isBlank ++ before, culprit.here, whole.symm, ?_, ?_,
        blames.append _⟩
      · rw [← whole, List.length_append]
        exact Nat.add_sub_cancel _ _
      · simp

/-- The codes whose message names a character, which is the one that is blamed. -/
theorem Blames.exists_character {fault : Fault} {before here : Text}
    (blames : Blames fault before here)
    (names : fault.code = .unexpectedCharacter ∨ fault.code = .invalidAttributeOperator) :
    ∃ character rest, here = character :: rest ∧ fault.detail = some [character] := by
  cases blames with
  | stray _ stray => exact ⟨_, _, rfl, rfl⟩
  | word _ isHead isWord => exact ⟨_, _, rfl, rfl⟩
  | operator _ isHead noOperator => exact ⟨_, _, rfl, rfl⟩
  | name _ misses noName => cases misses <;> simp [Fault.code] at names
  | _ => simp [Fault.code] at names

/--
The position of an error lies behind the blank space at the start of the selector and not behind
that at its end, and the code of the error is right about it: at the position, the selector without
the blank space at its end falls into what its fault says to precede the culprit and the culprit
with what follows.  Where the message names a character, it is the one at the position.
-/
theorem culprit_of_tokenize {selector : Text} {error : Error}
    (rejected : tokenize selector = .error error) :
    error.selector = selector ∧
      (selector.takeWhile Text.isBlank).length ≤ error.position ∧
      error.position ≤ (Text.trimEnd selector).length ∧
      (∃ before here, Text.trimEnd selector = before ++ here ∧ before.length = error.position ∧
        Blames error.fault before here) ∧
      (error.fault.code = .unexpectedCharacter →
        error.position < (Text.trimEnd selector).length ∧
          ∃ character, selector[error.position]? = some character ∧
            error.fault.message = "Unexpected character " ++ Text.quoted [character]) ∧
      (error.fault.code = .invalidAttributeOperator →
        error.position < (Text.trimEnd selector).length ∧
          ∃ character, selector[error.position]? = some character ∧
            error.fault.message =
              "Expected = after " ++ [character] ++ " in attribute selector") := by
  rcases exists_culprit_of_tokenize rejected with
    ⟨same, before, here, shape, position, bound, blames⟩
  rcases Text.exists_trimEnd_append selector with ⟨blank, _, whole⟩
  have named (names : error.fault.code = .unexpectedCharacter ∨
      error.fault.code = .invalidAttributeOperator) :
      error.position < (Text.trimEnd selector).length ∧
        ∃ character, selector[error.position]? = some character ∧
          error.fault.detail = some [character] := by
    rcases blames.exists_character names with ⟨character, rest, rfl, detail⟩
    refine ⟨by simp [shape, position], character, ?_, detail⟩
    rw [whole, shape, position]
    simp
  refine ⟨same, position ▸ bound, by simp [shape, position],
    ⟨before, here, shape, position.symm, blames⟩, ?_, ?_⟩
  · intro code
    rcases named (.inl code) with ⟨inside, character, found, detail⟩
    refine ⟨inside, character, found, ?_⟩
    rw [Fault.message, code, detail]
    rfl
  · intro code
    rcases named (.inr code) with ⟨inside, character, found, detail⟩
    refine ⟨inside, character, found, ?_⟩
    rw [Fault.message, code, detail]
    rfl

/-- An attribute without its bracket, between blank space. -/
theorem culprit_of_tokenize_unfinished :
    tokenize "\n\u00a0a[b ".toList = .error ⟨.unterminatedAttribute, 3, "\n\u00a0a[b ".toList⟩ ∧
      ∃ before here, Text.trimEnd "\n\u00a0a[b ".toList = before ++ here ∧ before.length = 3 ∧
        Blames .unterminatedAttribute before here := by
  have body : Text.trim "\n\u00a0a[b ".toList = "a[b".toList := by decide
  have first : scan "a[b".toList =
      (scan "[b".toList).map (.canonical (.element ['a'] none) :: ·) := scan_cons rfl
  have second : scan "[b".toList = .error ⟨.unterminatedAttribute, "[b".toList⟩ := by
    rw [show "[b".toList = ['[', 'b'] from rfl, scan]
    rfl
  have rejected : tokenize "\n\u00a0a[b ".toList =
      .error ⟨.unterminatedAttribute, 3, "\n\u00a0a[b ".toList⟩ := by
    simp only [tokenize_eq_scan, body, first, second]
    rfl
  exact ⟨rejected, (culprit_of_tokenize rejected).2.2.2.1⟩

/-! ## Blank space around a selector -/

/--
Blank space around a selector shifts the position of its error by what stands in front.  The error
shows the selector as it was given, with the blank space; its fault stays, and so do the tokens of a
selector that can be read.
-/
theorem tokenize_surrounded {front back : Text} (frontBlank : Text.Blank front)
    (backBlank : Text.Blank back) (selector : Text) :
    tokenize (front ++ selector ++ back) =
      (tokenize selector).mapError fun error =>
        ⟨error.fault, front.length + error.position, front ++ selector ++ back⟩ := by
  rw [tokenize_eq_scan, tokenize_eq_scan, Text.trim_surrounded frontBlank backBlank]
  cases scanned : scan (Text.trim selector) with
  | ok tokens => rfl
  | error culprit =>
      rcases found_of_scan scanned with ⟨before, shape, _⟩
      have whole := takeWhile_append_trim (ne_nil_of_scan scanned)
      have filled : Text.trimEnd selector ≠ [] := by
        rw [← whole]
        simp [ne_nil_of_scan scanned]
      have stop : Text.trimEnd (front ++ selector ++ back) = front ++ Text.trimEnd selector := by
        rw [Text.trimEnd_append_blank _ backBlank, Text.trimEnd_append filled]
      have inside : culprit.here.length ≤ (Text.trimEnd selector).length := by
        rw [← whole, shape]
        simp only [List.length_append]
        omega
      have shifted := Nat.add_sub_assoc inside front.length
      rw [← List.length_append, ← stop] at shifted
      exact congrArg (fun position => Except.error
        (Error.mk culprit.fault position (front ++ selector ++ back))) shifted

/-- A backslash at the end of a selector takes no blank space behind the selector along. -/
theorem tokenize_surrounded_escape :
    tokenize ".a\\".toList = .error ⟨.unexpectedCharacter '\\', 2, ".a\\".toList⟩ ∧
      tokenize ("\u00a0\n".toList ++ ".a\\".toList ++ " \t".toList) =
        .error ⟨.unexpectedCharacter '\\', 4, "\u00a0\n.a\\ \t".toList⟩ := by
  have body : Text.trim ".a\\".toList = ".a\\".toList := by decide
  have first : scan ".a\\".toList =
      (scan "\\".toList).map (.canonical (.className ['a']) :: ·) := scan_cons rfl
  have second : scan "\\".toList = .error ⟨.unexpectedCharacter '\\', "\\".toList⟩ := by
    rw [show "\\".toList = ['\\'] from rfl, scan]
    rfl
  have rejected : tokenize ".a\\".toList =
      .error ⟨.unexpectedCharacter '\\', 2, ".a\\".toList⟩ := by
    simp only [tokenize_eq_scan, body, first, second]
    rfl
  have frontBlank : Text.Blank "\u00a0\n".toList := List.all_eq_true.1 (by decide)
  have backBlank : Text.Blank " \t".toList := List.all_eq_true.1 (by decide)
  have shifted := tokenize_surrounded frontBlank backBlank ".a\\".toList
  rw [rejected] at shifted
  exact ⟨rejected, shifted⟩

end CssAuthoring.Selector
