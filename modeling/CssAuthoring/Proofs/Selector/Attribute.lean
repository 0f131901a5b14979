import CssAuthoring.Proofs.Selector.Simple

/-!
# Reading attribute selectors

The reader of attribute selectors agrees with the grammar on those that are settled: it takes all
white space before the operator and before the value, and prefers the operator `=` to `==`.  Every
attribute selector of the grammar has the text of a settled one, so that nothing is refused for the
way in which the reader cuts it.
-/

namespace CssAuthoring.Selector

/-! ## The name -/

theorem splitBar_of_extendsName {character : Char} (extend : extendsName character = true)
    (rest : Text) : splitBar (character :: rest) = (none, character :: rest) := by
  simp only [splitBar]
  split
  · rename_i shape
    exact absurd (List.cons.inj shape).1 (ne_of_extendsName extend (by decide))
  · rename_i shape
    exact absurd (List.cons.inj shape).1 (ne_of_extendsName extend (by decide))
  · rfl

theorem splitBar_isName {name : Text} (isName : IsName name) (text : Text) :
    splitBar (name ++ text) = (none, name ++ text) := by
  rcases isName.head with ⟨character, rest, rfl, extend⟩
  exact splitBar_of_extendsName extend _

/-- A name is read with its namespace if neither can go on. -/
theorem splitQualifiedName_qualified {space : Option Text} {name tail : Text}
    (isNamespace : IsNamespace space) (isName : IsName name)
    (stops : Text.Stops extendsName tail)
    (noBar : ∀ rest, tail = '|' :: rest → startsName rest = false) :
    splitQualifiedName (Part.qualified space name ++ tail) = ((space, name), tail) := by
  have read := splitName_name isName.units stops
  have starts := startsName_append isName tail
  cases isNamespace with
  | absent =>
      simp only [Part.qualified, splitQualifiedName, splitBar_isName isName, read]
      split
      · rename_i rest _
        rw [if_neg (by simp [noBar rest rfl])]
      · rfl
  | empty => simp [Part.qualified, splitQualifiedName, splitBar, starts, read]
  | any => simp [Part.qualified, splitQualifiedName, splitBar, starts, read]
  | @named outer isOuter =>
      have readOuter : splitName (outer ++ '|' :: (name ++ tail)) =
          (outer, '|' :: (name ++ tail)) :=
        splitName_name isOuter.units (by simp [extendsName, isNameCharacter, isWordCharacter])
      simp [Part.qualified, splitQualifiedName, splitBar_isName isOuter, readOuter, starts, read]

/-- A bar is split off with what stands before it. -/
theorem splitBar_qualified (text : Text) :
    IsNamespace (splitBar text).1 ∧ Part.qualified (splitBar text).1 (splitBar text).2 = text := by
  simp only [splitBar]
  split
  · split
    · exact ⟨.any, rfl⟩
    · exact ⟨.absent, rfl⟩
  · split
    · exact ⟨.empty, rfl⟩
    · exact ⟨.absent, rfl⟩
  · exact ⟨.absent, rfl⟩

theorem qualified_append (space : Option Text) (front back : Text) :
    Part.qualified space (front ++ back) = Part.qualified space front ++ back := by
  cases space <;> simp [Part.qualified]

theorem isNamespace_units {name : Text} (units : Units name) : IsNamespace (some name) := by
  by_cases nonempty : name = []
  · subst nonempty
    exact .empty
  · exact .named ⟨nonempty, units⟩

/-- A name that is read with its namespace, what both of them are, and what does not follow. -/
structure QualifiedName (text : Text) (space : Option Text) (name after : Text) : Prop where
  source : Part.qualified space name ++ after = text
  isNamespace : IsNamespace space
  units : Units name
  longest : startsName after = false

theorem qualifiedName_of_split {text name after : Text} {space : Option Text}
    (split : splitQualifiedName text = ((space, name), after)) :
    QualifiedName text space name after := by
  rcases splitBar_qualified text with ⟨isNamespace, source⟩
  have append := splitName_append (splitBar text).2
  have notStarts := not_startsName_splitName (splitBar text).2
  have units := units_splitName (splitBar text).2
  unfold splitQualifiedName at split
  dsimp only at split
  split at split
  · rename_i rest noSpace shape
    rw [shape] at append notStarts
    rw [noSpace] at source
    split at split
    · cases split
      constructor
      · calc Part.qualified (some (splitName (splitBar text).2).1) (splitName rest).1 ++
              (splitName rest).2
            = (splitName (splitBar text).2).1 ++ '|' :: rest := by
              rw [← qualified_append, splitName_append]
              rfl
          _ = (splitBar text).2 := append
          _ = text := source
      · exact isNamespace_units units
      · exact units_splitName rest
      · exact not_startsName_splitName rest
    · cases split
      exact ⟨append.trans source, .absent, units, notStarts⟩
  · cases split
    constructor
    · rw [← qualified_append, append, source]
    · exact isNamespace
    · exact units
    · exact notStarts

/-! ## The operator and the value -/

/-- An operator is read as it is, but not `==`. -/
theorem splitOperator_operator {operator : Text} (isOperator : IsOperator operator)
    (single : operator ≠ ['=', '=']) (rest : Text) :
    splitOperator (operator ++ rest) = .ok (operator, rest) := by
  cases isOperator with
  | equals => rfl
  | @marked mark notWord notBracket =>
      have notEquals : mark ≠ '=' := by
        rintro rfl
        exact single rfl
      change splitOperator (mark :: '=' :: rest) = _
      rw [splitOperator, if_neg (by simp [notWord])]
      exact notEquals

/-- What is read as an operator is one. -/
theorem isOperator_of_splitOperator {text operator after : Text}
    (split : splitOperator text = .ok (operator, after)) (notBracket : text.head? ≠ some ']') :
    operator ++ after = text ∧ IsOperator operator ∧ operator ≠ ['=', '='] := by
  unfold splitOperator at split
  split at split
  · contradiction
  · cases split
    exact ⟨rfl, .equals, by simp⟩
  · rename_i character rest notEquals
    split at split
    · contradiction
    · rename_i notWord
      split at split
      · cases split
        refine ⟨rfl, .marked (by simpa using notWord) (by simpa using notBracket), ?_⟩
        simpa using notEquals
      · contradiction

theorem IsOperator.head {operator : Text} (isOperator : IsOperator operator) :
    ∃ character rest, operator = character :: rest ∧ character ≠ ']' := by
  cases isOperator with
  | equals => exact ⟨'=', [], rfl, by decide⟩
  | marked _ notBracket => exact ⟨_, _, rfl, notBracket⟩

theorem skipSpace_run {space text : Text} (white : White space)
    (stops : Text.Stops isSpace text) : skipSpace (space ++ text) = text :=
  Text.dropWhile_run white stops

theorem stops_skipSpace (text : Text) : Text.Stops isSpace (skipSpace text) :=
  Text.stops_dropWhile isSpace text

theorem Trims.nonempty {written value : Text} {caseFlag : Option Text}
    (trims : Trims written value caseFlag) :
    ∃ character front back, value = character :: front ∧ written = character :: back := by
  cases trims with
  | bare solid _ _ =>
      rcases List.exists_cons_of_ne_nil solid.ne_nil with ⟨character, front, rfl⟩
      exact ⟨character, front, _, rfl, rfl⟩
  | flagged solid _ _ _ _ =>
      rcases List.exists_cons_of_ne_nil solid.ne_nil with ⟨character, front, rfl⟩
      exact ⟨character, front, _, rfl, by simp only [List.cons_append]; rfl⟩

/-- A written value stops white space exactly if the value in it does. -/
theorem Trims.stops {written value : Text} {caseFlag : Option Text}
    (trims : Trims written value caseFlag) (rest : Text) :
    Text.Stops isSpace (written ++ rest) ↔ Text.Stops isSpace value := by
  rcases trims.nonempty with ⟨character, front, back, rfl, rfl⟩
  simp

/-- What stands behind the name of an attribute selector is read up to the bracket. -/
theorem readCondition_condition {operator value caseFlag : Option Text} {condition : Text}
    (isCondition : IsCondition operator value caseFlag condition)
    (settled : SettledCondition operator value) (opening rest : Text) :
    readCondition opening (condition ++ ']' :: rest) = .ok ((operator, value, caseFlag), rest) := by
  cases isCondition with
  | absent => rfl
  | @present operator space written value _ isOperator white isWritten trims =>
      rcases settled with ⟨_, single, valueStops⟩
      have stops := (trims.stops (']' :: rest)).2 valueStops
      have shape : operator ++ space ++ written ++ ']' :: rest =
          operator ++ (space ++ (written ++ ']' :: rest)) := by simp
      have nonempty : value ≠ [] := by
        rcases trims.nonempty with ⟨character, front, back, rfl, _⟩
        simp
      rw [shape]
      simp only [readCondition]
      split
      · rename_i bracket
        rcases isOperator.head with ⟨character, more, rfl, notBracket⟩
        exact absurd (List.cons.inj bracket).1 notBracket
      · rw [splitOperator_operator isOperator single]
        simp [skipSpace_run white stops, splitValue_written isWritten,
          splitCaseFlag_trims trims, nonempty]

theorem exists_white_append (text : Text) : ∃ space, White space ∧ text = space ++ skipSpace text :=
  ⟨text.takeWhile isSpace, Text.mem_takeWhile, List.takeWhile_append_dropWhile.symm⟩

/-- What is read behind the name of an attribute selector, up to the bracket. -/
theorem isCondition_of_readCondition {opening text after : Text}
    {operator value caseFlag : Option Text} (textStops : Text.Stops isSpace text)
    (read : readCondition opening text = .ok ((operator, value, caseFlag), after)) :
    ∃ condition, text = condition ++ ']' :: after ∧
      IsCondition operator value caseFlag condition ∧ SettledCondition operator value := by
  unfold readCondition at read
  split at read
  · cases read
    exact ⟨[], rfl, .absent, trivial⟩
  · rename_i noBracket
    split at read
    · contradiction
    · contradiction
    · rename_i operator afterOperator splitIn
      have notBracket : text.head? ≠ some ']' := by
        intro bracket
        rcases List.head?_eq_some_iff.1 bracket with ⟨rest, rfl⟩
        exact noBracket rest rfl
      rcases isOperator_of_splitOperator splitIn notBracket with
        ⟨operatorAppend, isOperator, single⟩
      dsimp only at read
      split at read
      · contradiction
      · contradiction
      · rename_i written atBracket valueIn
        split at read
        · contradiction
        · rename_i filled
          cases read
          rcases isWritten_of_splitValue valueIn with ⟨isWritten, rest, rfl⟩
          have trims := trims_splitCaseFlag (by simpa using filled)
          have valueAppend := splitValue_append valueIn
          rcases exists_white_append afterOperator with ⟨space, white, spaceAppend⟩
          refine ⟨operator ++ space ++ written, ?_, .present isOperator white isWritten trims, ?_⟩
          · rw [← operatorAppend, spaceAppend, ← valueAppend]
            simp
          · have writtenStops : Text.Stops isSpace (written ++ ']' :: rest) := by
              rw [valueAppend]
              exact stops_skipSpace afterOperator
            refine ⟨?_, single, (trims.stops _).1 writtenStops⟩
            rcases isOperator.head with ⟨character, more, rfl, _⟩
            rw [← operatorAppend] at textStops
            simpa using textStops

/-! ## Whole attribute selectors -/

theorem startsName_bracket (text rest : Text) :
    startsName (text ++ ']' :: rest) = startsName (text ++ [']']) := by
  rcases text with _ | ⟨first, _ | ⟨second, more⟩⟩
  · rfl
  · by_cases backslash : first = '\\' <;> simp [startsName, backslash]
  · by_cases backslash : first = '\\' <;> simp [startsName, backslash]

/-- A name with its namespace does not begin with white space. -/
theorem qualified_stops {space : Option Text} {name : Text} (isNamespace : IsNamespace space)
    (isName : IsName name) (text : Text) :
    Text.Stops isSpace (Part.qualified space name ++ text) := by
  have nameStops {word : Text} (isWord : IsName word) (tail : Text) :
      Text.Stops isSpace (word ++ tail) := by
    rcases isWord.head with ⟨character, rest, rfl, extend⟩
    have separates := not_startsSeparator_of_extendsName extend
    simp only [startsSeparator, Bool.or_eq_false_iff] at separates
    exact (Text.stops_cons _ _ _).2 separates.1.1
  cases isNamespace with
  | absent => exact nameStops isName text
  | empty => exact (Text.stops_cons _ _ _).2 (by decide)
  | any => exact (Text.stops_cons _ _ _).2 (by decide)
  | @named outer isOuter =>
      rw [Part.qualified, List.append_assoc]
      exact nameStops isOuter _

/-- What follows the longest name of an attribute cannot be its namespace. -/
theorem not_startsName_behind_bar {after condition rest text : Text}
    {operator value caseFlag : Option Text} (white : White after)
    (isCondition : IsCondition operator value caseFlag condition)
    (bar : after ++ (condition ++ ']' :: rest) = '|' :: text) : startsName text = false := by
  cases after with
  | cons character more =>
      cases bar
      exact absurd (white '|' (by simp)) (by decide)
  | nil =>
      cases isCondition with
      | absent => cases bar
      | present isOperator _ _ _ =>
          cases isOperator with
          | equals => cases bar
          | marked _ _ =>
              cases bar
              rfl

/-- A settled attribute selector is read as it is. -/
theorem readsAs_attribute {name before after condition text : Text}
    {space operator value caseFlag : Option Text}
    (whiteBefore : White before) (isNamespace : IsNamespace space) (isName : IsName name)
    (whiteAfter : White after) (isCondition : IsCondition operator value caseFlag condition)
    (longest : startsName (after ++ condition ++ [']']) = false)
    (settled : SettledCondition operator value) :
    ReadsAs ('[' :: before ++ Part.qualified space name ++ after ++ condition ++ [']'])
      ⟨.attribute name space operator value caseFlag,
        '[' :: before ++ Part.qualified space name ++ after ++ condition ++ [']']⟩ text := by
  refine ⟨'[', before ++ Part.qualified space name ++ after ++ condition ++ [']'], rfl,
    by decide, ?_⟩
  have shape : before ++ Part.qualified space name ++ after ++ condition ++ [']'] ++ text =
      before ++ (Part.qualified space name ++ (after ++ (condition ++ ']' :: text))) := by simp
  have tailStops : Text.Stops extendsName (after ++ (condition ++ ']' :: text)) := by
    have escape : after ++ condition ++ [']'] ≠ ['\\'] := by
      intro same
      have last := congrArg List.getLast? same
      simp at last
    have stops := stops_of_not_startsName longest escape
    simpa using (Text.stops_append (by simp) text).2 stops
  have conditionStops : Text.Stops isSpace (condition ++ ']' :: text) := by
    cases isCondition with
    | absent => exact (Text.stops_cons _ _ _).2 (by decide)
    | present isOperator _ _ _ =>
        rcases isOperator.head with ⟨character, more, rfl, _⟩
        have stops := settled.1
        simpa using stops
  have qualifiedName := splitQualifiedName_qualified isNamespace isName tailStops
    fun rest bar => not_startsName_behind_bar whiteAfter isCondition bar
  have atName := skipSpace_run whiteBefore
    (qualified_stops isNamespace isName (after ++ (condition ++ ']' :: text)))
  change readAttribute _ = _
  rw [shape]
  rw [readAttribute]
  simp only [atName, qualifiedName, skipSpace_run whiteAfter conditionStops,
    readCondition_condition isCondition settled]
  rw [if_neg (by simp [isName.nonempty]), ← shape, Text.before_left]
  rfl

/-- Whatever is read as an attribute selector is one, and settled. -/
theorem wasRead_of_readAttribute {text after : Text} {token : SelectorToken}
    (read : readAttribute text = .ok (token, after)) : WasRead token ('[' :: text) after := by
  have suffix := readAttribute_suffix read
  unfold readAttribute at read
  dsimp only at read
  cases split : splitQualifiedName (skipSpace text) with
  | mk pair afterName =>
      rcases pair with ⟨space, name⟩
      rw [split] at read
      dsimp only at read
      split at read
      · contradiction
      · rename_i filled
        split at read
        · contradiction
        · rename_i operator value caseFlag _ condition
          cases read
          have qualifiedName := qualifiedName_of_split split
          rcases exists_white_append text with ⟨before, whiteBefore, beforeAppend⟩
          rcases exists_white_append afterName with ⟨space', whiteAfter, afterAppend⟩
          rcases isCondition_of_readCondition (stops_skipSpace afterName) condition with
            ⟨written, shape, isCondition, settled⟩
          have isName : IsName name := ⟨by simpa using filled, qualifiedName.units⟩
          have longest := qualifiedName.longest
          rw [afterAppend, shape, ← List.append_assoc, startsName_bracket] at longest
          have source : text =
              before ++ Part.qualified space name ++ space' ++ written ++ [']'] ++ after := by
            rw [beforeAppend, ← qualifiedName.source, afterAppend, shape]
            simp
          have content : Text.before text after =
              before ++ Part.qualified space name ++ space' ++ written ++ [']'] := by
            rw [source, Text.before_left]
          constructor
          · change '[' :: Text.before text after ++ after = '[' :: text
            rw [List.cons_append, Text.before_append suffix]
          · change Simple _ ('[' :: Text.before text after)
            rw [content]
            exact .attribute whiteBefore qualifiedName.isNamespace isName whiteAfter isCondition
              longest
          · exact settled
          · intro _ character member
            rfl

/-! ## Settling an attribute selector -/

theorem isBlank_of_isSpace {character : Char} (white : isSpace character = true) :
    Text.isBlank character = true := by
  simp only [isSpace, Bool.or_eq_true, decide_eq_true_eq] at white
  rcases white with (((rfl | rfl) | rfl) | rfl) | rfl <;> decide

theorem not_isQuote_of_isSpace {character : Char} (white : isSpace character = true) :
    Text.isQuote character = false ∧ character ≠ ']' := by
  simp only [isSpace, Bool.or_eq_true, decide_eq_true_eq] at white
  rcases white with (((rfl | rfl) | rfl) | rfl) | rfl <;> decide

/-- White space in front of a written value is part of a written value. -/
theorem IsWritten.white_append {space written : Text} (white : White space)
    (isWritten : IsWritten written) : IsWritten (space ++ written) := by
  induction space with
  | nil => exact isWritten
  | cons character rest hypothesis =>
      rcases not_isQuote_of_isSpace (white character (by simp)) with ⟨notQuote, notBracket⟩
      exact .plain notQuote notBracket
        (hypothesis fun other member => white other (by simp [member]))

theorem IsWritten.tail {character : Char} {rest : Text} (isWritten : IsWritten (character :: rest))
    (white : isSpace character = true) : IsWritten rest := by
  generalize shape : character :: rest = text at isWritten
  cases isWritten with
  | nil => cases shape
  | plain _ _ written =>
      cases shape
      exact written
  | string isString _ =>
      cases isString with
      | between isQuote _ =>
          cases shape
          rw [(not_isQuote_of_isSpace white).1] at isQuote
          contradiction

/-- White space at the start of a written value belongs to the value in it. -/
theorem Trims.tail {character : Char} {rest value : Text} {caseFlag : Option Text}
    (trims : Trims (character :: rest) value caseFlag) (white : isSpace character = true) :
    ∃ tail, Trims rest tail caseFlag := by
  have blank := isBlank_of_isSpace white
  have tailSolid {front : Text} (solid : Text.EndsSolid (character :: front)) :
      Text.EndsSolid front := by
    refine Text.EndsSolid.of_append ?_ (show Text.EndsSolid ([character] ++ _) from solid)
    rintro rfl
    rcases solid with ⟨init, last, equal, notBlank⟩
    have same : last = character := by
      have lasts := congrArg List.getLast? equal
      simpa using lasts.symm
    rw [same, blank] at notBlank
    contradiction
  generalize shape : character :: rest = text at trims
  cases trims with
  | bare solid unflagged isBlank =>
      rcases List.exists_cons_of_ne_nil solid.ne_nil with ⟨first, front, rfl⟩
      cases shape
      refine ⟨front, .bare (tailSolid solid) ?_ isBlank⟩
      rintro ⟨start, space, flag, _, isSpace, isFlag, rfl⟩
      exact unflagged ⟨character :: start, space, flag, by simp, isSpace, isFlag, rfl⟩
  | flagged solid gapBlank isSpace isFlag isBlank =>
      rcases List.exists_cons_of_ne_nil solid.ne_nil with ⟨first, front, rfl⟩
      cases shape
      exact ⟨front, .flagged (tailSolid solid) gapBlank isSpace isFlag isBlank⟩

/-- All white space at the start of a written value may be taken from it. -/
theorem exists_skipped {written value : Text} {caseFlag : Option Text}
    (isWritten : IsWritten written) (trims : Trims written value caseFlag) :
    ∃ tail, IsWritten (skipSpace written) ∧ Trims (skipSpace written) tail caseFlag := by
  induction written generalizing value with
  | nil =>
      rcases trims.nonempty with ⟨_, _, _, _, shape⟩
      cases shape
  | cons character rest hypothesis =>
      by_cases white : isSpace character = true
      · rcases trims.tail white with ⟨tail, tailTrims⟩
        rw [skipSpace, List.dropWhile_cons, if_pos white]
        exact hypothesis (isWritten.tail white) tailTrims
      · rw [skipSpace, List.dropWhile_cons, if_neg white]
        exact ⟨value, isWritten, trims⟩

/-- A value that begins with a character that is not blank is not blank. -/
theorem splitCaseFlag_ne_nil {character : Char} (notBlank : Text.isBlank character = false)
    (rest : Text) : (splitCaseFlag (character :: rest)).1 ≠ [] := by
  by_cases flagged : EndsFlagged (Text.trimEnd (character :: rest))
  · rcases flagged with ⟨front, space, flag, nonempty, space_isSpace, isFlag, trimmed⟩
    rcases List.exists_cons_of_ne_nil nonempty with ⟨first, more, rfl⟩
    rcases Text.exists_trimEnd_append (character :: rest) with ⟨blank, _, equal⟩
    rw [trimmed] at equal
    cases equal
    rw [splitCaseFlag_flagged trimmed nonempty space_isSpace isFlag]
    exact Text.trimEnd_cons_ne_nil notBlank more
  · rw [splitCaseFlag_unflagged flagged]
    exact Text.trimEnd_cons_ne_nil notBlank rest

theorem white_nil : White [] := by
  intro character member
  cases member

theorem white_space : White [' '] := by
  intro character member
  rw [List.mem_singleton.1 member]
  rfl

theorem White.append {front back : Text} (whiteFront : White front) (whiteBack : White back) :
    White (front ++ back) := by
  intro character member
  rcases List.mem_append.1 member with inFront | inBack
  · exact whiteFront character inFront
  · exact whiteBack character inBack

/-- Behind a settled operator, all white space in front of the value is left out of it. -/
theorem exists_settledValue {operator space written value : Text} {caseFlag : Option Text}
    (isOperator : IsOperator operator) (operatorStops : Text.Stops isSpace operator)
    (single : operator ≠ ['=', '=']) (white : White space) (isWritten : IsWritten written)
    (trims : Trims written value caseFlag) :
    ∃ settled,
      IsCondition (some operator) (some settled) caseFlag (operator ++ space ++ written) ∧
        SettledCondition (some operator) (some settled) := by
  rcases exists_skipped isWritten trims with ⟨tail, tailWritten, tailTrims⟩
  rcases exists_white_append written with ⟨gap, whiteGap, writtenAppend⟩
  have tailStops : Text.Stops isSpace tail := by
    rw [← tailTrims.stops [], List.append_nil]
    exact stops_skipSpace written
  have shape : operator ++ space ++ written = operator ++ (space ++ gap) ++ skipSpace written := by
    conv => lhs; rw [writtenAppend]
    simp
  rw [shape]
  exact ⟨tail, .present isOperator (white.append whiteGap) tailWritten tailTrims, operatorStops,
    single, tailStops⟩

/-- What stands behind a name can be cut so that operator and value are settled. -/
theorem exists_settledCondition {after condition : Text} {operator value caseFlag : Option Text}
    (whiteAfter : White after) (isCondition : IsCondition operator value caseFlag condition) :
    ∃ after' condition' operator' value' caseFlag',
      after ++ condition = after' ++ condition' ∧ White after' ∧
        IsCondition operator' value' caseFlag' condition' ∧
          SettledCondition operator' value' := by
  have equalsStops : Text.Stops isSpace ['='] := (Text.stops_cons _ _ _).2 (by decide)
  cases isCondition with
  | absent => exact ⟨after, [], none, none, none, rfl, whiteAfter, .absent, trivial⟩
  | @present operator space written value caseFlag isOperator white isWritten trims =>
      cases isOperator with
      | equals =>
          rcases exists_settledValue .equals equalsStops (by simp) white isWritten trims with
            ⟨settledValue, present, settled⟩
          exact ⟨after, _, _, settledValue, _, rfl, whiteAfter, present, settled⟩
      | @marked mark notWord notBracket =>
          by_cases markSpace : isSpace mark = true
          · -- The white space in the operator goes in front of it.
            rcases exists_settledValue .equals equalsStops (by simp) white isWritten trims with
              ⟨settledValue, present, settled⟩
            exact ⟨after ++ [mark], _, _, settledValue, _, by simp,
              whiteAfter.append (by simpa [White] using markSpace), present, settled⟩
          · by_cases equals : mark = '='
            · -- The second equals sign goes into the value, which may now have a case letter.
              subst equals
              have notBlank : Text.isBlank '=' = false := by decide
              have trims' := trims_splitCaseFlag (splitCaseFlag_ne_nil notBlank (space ++ written))
              refine ⟨after, ['='] ++ [] ++ '=' :: (space ++ written), _, _, _, by simp, whiteAfter,
                .present .equals white_nil
                  (.plain (by decide) (by decide) (isWritten.white_append white)) trims',
                equalsStops, by simp, ?_⟩
              rw [← trims'.stops []]
              exact (Text.stops_cons _ _ _).2 (by decide)
            · have markStops : Text.Stops isSpace [mark, '='] :=
                (Text.stops_cons _ _ _).2 (by simpa using markSpace)
              rcases exists_settledValue (.marked notWord notBracket) markStops
                (by simpa using equals) white isWritten trims with ⟨settledValue, present, settled⟩
              exact ⟨after, _, _, settledValue, _, rfl, whiteAfter, present, settled⟩

/-- Every text of a simple selector is that of a settled one. -/
theorem Simple.exists_settled {part : Part} {source : Text} (simple : Simple part source) :
    ∃ settled, Simple settled source ∧ Settled settled := by
  cases simple with
  | element isName isNamespace => exact ⟨_, .element isName isNamespace, trivial⟩
  | universal isNamespace => exact ⟨_, .universal isNamespace, trivial⟩
  | id isName => exact ⟨_, .id isName, trivial⟩
  | className isName => exact ⟨_, .className isName, trivial⟩
  | pseudoClass isName balanced => exact ⟨_, .pseudoClass isName balanced, trivial⟩
  | pseudoElement isName balanced => exact ⟨_, .pseudoElement isName balanced, trivial⟩
  | @«attribute» _ _ after condition _ _ _ _ whiteBefore isNamespace isName whiteAfter isCondition
      longest =>
      rcases exists_settledCondition whiteAfter isCondition with
        ⟨after', condition', operator', value', caseFlag', equal, whiteAfter', isCondition',
          settled⟩
      rw [equal] at longest
      rw [List.append_assoc _ after condition, equal, ← List.append_assoc]
      exact ⟨_, .attribute whiteBefore isNamespace isName whiteAfter' isCondition' longest, settled⟩

end CssAuthoring.Selector
