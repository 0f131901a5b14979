import CssAuthoring.Selector.Argument
import CssAuthoring.Selector.Fault
import CssAuthoring.Selector.Token
import CssAuthoring.Text.Blank

/-!
# Attribute selectors

Between its brackets an attribute selector has a name, perhaps with a namespace, and perhaps an
operator with a value.  The value runs to the bracket that stands outside its strings; a letter for
case sensitivity may stand at its end after white space.

Main statement: `readAttribute_suffix`, what follows an attribute selector is a proper suffix.
-/

namespace CssAuthoring.Selector

/-- A bar at the start with a name behind it, alone or after a star, and what follows the bar. -/
def splitBar : Text → Option Text × Text
  | '*' :: '|' :: rest => if startsName rest then (some ['*'], rest) else (none, '*' :: '|' :: rest)
  | '|' :: rest => if startsName rest then (some [], rest) else (none, '|' :: rest)
  | text => (none, text)

/-- The name at the start of a text, the namespace before it, and what follows. -/
def splitQualifiedName (text : Text) : (Option Text × Text) × Text :=
  let (space, afterBar) := splitBar text
  let (name, afterName) := splitName afterBar
  match space, afterName with
  | none, '|' :: rest =>
    if startsName rest then ((some name, (splitName rest).1), (splitName rest).2)
    else ((none, name), '|' :: rest)
  | _, _ => ((space, name), afterName)

/-- The operator at the start of a text, and what follows it. -/
def splitOperator : Text → Except Fault (Text × Text)
  | [] => .error .unterminatedAttribute
  | '=' :: rest => .ok (['='], rest)
  | character :: rest =>
    if isWordCharacter character then .error (.unexpectedCharacter character)
    else
      match rest with
      | '=' :: after => .ok ([character, '='], after)
      | _ => .error (.invalidAttributeOperator character)

/-- What stands before the bracket that closes a value, and what is left from the bracket on. -/
def splitValue (text : Text) : Except OpenEnd (Text × Text) :=
  match text with
  | [] => .error .parenthesis
  | character :: rest =>
    if character = ']' then .ok ([], character :: rest)
    else if Text.isQuote character then
      match closed : closeString? character rest with
      | none => .error (.string (character :: rest))
      | some (inside, after) =>
        have := closeString?_shorter closed
        (splitValue after).map (prepend (character :: inside))
    else (splitValue rest).map (prepend [character])
termination_by text.length

/-- Whether a letter says how the case of a value is treated. -/
def isCaseFlag (character : Char) : Bool :=
  character = 'i' || character = 'I' || character = 's' || character = 'S'

/-- A value without blank space at its end, apart from the case letter that may stand there. -/
def splitCaseFlag (written : Text) : Text × Option Text :=
  let value := Text.trimEnd written
  match value.reverse with
  | flag :: space :: character :: front =>
    if isCaseFlag flag && isSpace space then
      (Text.trimEnd (character :: front).reverse, some [flag])
    else (value, none)
  | _ => (value, none)

/-- The operator, value and case letter of an attribute selector, and what follows its bracket. -/
def readCondition (opening text : Text) :
    Except Culprit ((Option Text × Option Text × Option Text) × Text) :=
  match text with
  | ']' :: rest => .ok ((none, none, none), rest)
  | _ =>
    match splitOperator text with
    | .error .unterminatedAttribute => .error ⟨.unterminatedAttribute, opening⟩
    | .error fault => .error ⟨fault, text⟩
    | .ok (operator, afterOperator) =>
      let atValue := skipSpace afterOperator
      match splitValue atValue with
      | .error (.string here) => .error ⟨.unterminatedString, here⟩
      | .error .parenthesis => .error ⟨.unterminatedAttribute, opening⟩
      | .ok (written, atBracket) =>
        let (value, caseFlag) := splitCaseFlag written
        if value.isEmpty then .error ⟨.expectedAttributeValue, atValue⟩
        else .ok ((some operator, some value, caseFlag), atBracket.drop 1)

/-- The attribute selector whose opening bracket stands before a text, and what follows it. -/
def readAttribute (text : Text) : Except Culprit (SelectorToken × Text) :=
  let atName := skipSpace text
  let ((space, name), afterName) := splitQualifiedName atName
  if name.isEmpty then .error ⟨.expectedAttributeName, atName⟩
  else
    match readCondition ('[' :: text) (skipSpace afterName) with
    | .error culprit => .error culprit
    | .ok ((operator, value, caseFlag), rest) =>
      .ok (⟨.attribute name space operator value caseFlag, '[' :: Text.before text rest⟩, rest)

theorem splitBar_suffix (text : Text) : (splitBar text).2 <:+ text := by
  fun_cases splitBar text <;> simp [List.suffix_cons]
  exact ⟨['*', '|'], rfl⟩

theorem splitQualifiedName_suffix (text : Text) : (splitQualifiedName text).2 <:+ text := by
  unfold splitQualifiedName
  have bar := splitBar_suffix text
  simp only
  split
  · rename_i after noSpace shape
    have name := splitName_suffix (splitBar text).2
    rw [shape] at name
    split
    · exact (splitName_suffix after).trans ((List.suffix_cons _ _).trans (name.trans bar))
    · exact name.trans bar
  · exact (splitName_suffix _).trans bar

theorem splitOperator_suffix {text operator after : Text}
    (read : splitOperator text = .ok (operator, after)) : after <:+ text := by
  unfold splitOperator at read
  split at read
  · contradiction
  · cases read
    exact List.suffix_cons _ _
  · split at read
    · contradiction
    · split at read
      · cases read
        exact ⟨[_, '='], rfl⟩
      · contradiction

/-- A value and what is left from its bracket on make up the text. -/
theorem splitValue_append {text value after : Text} (split : splitValue text = .ok (value, after)) :
    value ++ after = text := by
  fun_induction splitValue text generalizing value after with
  | case1 => contradiction
  | case2 => simp_all
  | case3 => contradiction
  | case4 character rest notBracket isQuote string between closedString shorter hypothesis =>
    obtain ⟨back, found, rfl⟩ := of_map_prepend split
    simpa [hypothesis found] using closeString?_append closedString
  | case5 character rest notBracket notQuote hypothesis =>
    obtain ⟨back, found, rfl⟩ := of_map_prepend split
    simpa using hypothesis found

theorem readCondition_suffix {opening text after : Text}
    {condition : Option Text × Option Text × Option Text}
    (read : readCondition opening text = .ok (condition, after)) : after <:+ text := by
  unfold readCondition at read
  split at read
  · cases read
    exact List.suffix_cons _ _
  · split at read
    · contradiction
    · contradiction
    · rename_i operator afterOperator splitIn
      simp only at read
      split at read
      · contradiction
      · contradiction
      · rename_i written atBracket valueIn
        split at read
        · contradiction
        · cases read
          have value : atBracket <:+ skipSpace afterOperator := ⟨_, splitValue_append valueIn⟩
          exact (List.drop_suffix 1 _).trans
            (value.trans ((skipSpace_suffix _).trans (splitOperator_suffix splitIn)))

/-- What follows an attribute selector is a suffix of what follows its opening bracket. -/
theorem readAttribute_suffix {text after : Text} {token : SelectorToken}
    (read : readAttribute text = .ok (token, after)) : after <:+ text := by
  unfold readAttribute at read
  simp only at read
  split at read
  · contradiction
  · split at read
    · contradiction
    · rename_i condition
      cases read
      exact (readCondition_suffix condition).trans ((skipSpace_suffix _).trans
        ((splitQualifiedName_suffix _).trans (skipSpace_suffix _)))

end CssAuthoring.Selector
