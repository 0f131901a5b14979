import CssAuthoring.Proofs.Text.Trim
import CssAuthoring.Selector.Scan

/-!
# The grammar of selectors

A selector is a sequence of lexemes: simple selectors, and the separators between them.  This module
says which texts are lexemes of which tokens, without a word on how a text is cut into them.  A text
may therefore be a sequence of lexemes in several ways, and a lexeme may stand for several tokens:
`==` in an attribute selector may be one operator, or the operator `=` before a value.

Names, strings and arguments are given by their units.  The one place where the grammar looks ahead
is the name of an attribute, which has to be the longest one at its place.
-/

namespace CssAuthoring.Selector

/-! ## Names, strings and arguments -/

/-- Text made of whole units of names. -/
inductive Units : Text → Prop where
  | nil : Units []
  | plain {character : Char} {rest : Text}
      (stays : isNameCharacter character = true) (units : Units rest) :
      Units (character :: rest)
  | escaped (character : Char) {rest : Text} (units : Units rest) :
      Units ('\\' :: character :: rest)

/-- A name has at least one unit. -/
structure IsName (name : Text) : Prop where
  nonempty : name ≠ []
  units : Units name

/-- What stands in a string: a backslash takes the character after it along. -/
inductive StringBody (quote : Char) : Text → Prop where
  | nil : StringBody quote []
  | plain {character : Char} {rest : Text}
      (notQuote : character ≠ quote) (notEscape : character ≠ '\\')
      (body : StringBody quote rest) :
      StringBody quote (character :: rest)
  | escaped (character : Char) {rest : Text} (body : StringBody quote rest) :
      StringBody quote ('\\' :: character :: rest)

/-- A string between two quotes of the same kind. -/
inductive IsString : Text → Prop where
  | between {quote : Char} {body : Text}
      (isQuote : Text.isQuote quote = true) (inside : StringBody quote body) :
      IsString (quote :: body ++ [quote])

/--
Text that closes `depth` parentheses more than it opens, and none that was not open.  Every quote
opens a string in it that is closed, and parentheses in strings do not count.
-/
inductive Balanced : Nat → Text → Prop where
  | nil : Balanced 0 []
  | plain {depth : Nat} {character : Char} {rest : Text}
      (notQuote : Text.isQuote character = false)
      (notOpening : character ≠ '(') (notClosing : character ≠ ')')
      (balanced : Balanced depth rest) :
      Balanced depth (character :: rest)
  | string {depth : Nat} {string rest : Text}
      (isString : IsString string) (balanced : Balanced depth rest) :
      Balanced depth (string ++ rest)
  | opening {depth : Nat} {rest : Text} (balanced : Balanced (depth + 1) rest) :
      Balanced depth ('(' :: rest)
  | closing {depth : Nat} {rest : Text} (balanced : Balanced depth rest) :
      Balanced (depth + 1) (')' :: rest)

/-! ## Simple selectors -/

/-- Text made of white space only. -/
def White (text : Text) : Prop :=
  ∀ character ∈ text, isSpace character = true

/-- What may stand before the bar in front of a name: nothing, a star or another name. -/
inductive IsNamespace : Option Text → Prop where
  | absent : IsNamespace none
  | empty : IsNamespace (some [])
  | any : IsNamespace (some ['*'])
  | named {name : Text} (isName : IsName name) : IsNamespace (some name)

/-- An equals sign, perhaps with one character before it that fits neither a name nor a bracket. -/
inductive IsOperator : Text → Prop where
  | equals : IsOperator ['=']
  | marked {mark : Char}
      (notWord : isWordCharacter mark = false) (notBracket : mark ≠ ']') :
      IsOperator [mark, '=']

/-- The value of an attribute as it stands there: strings, and characters that do not end it. -/
inductive IsWritten : Text → Prop where
  | nil : IsWritten []
  | plain {character : Char} {rest : Text}
      (notQuote : Text.isQuote character = false) (notBracket : character ≠ ']')
      (written : IsWritten rest) :
      IsWritten (character :: rest)
  | string {string rest : Text}
      (isString : IsString string) (written : IsWritten rest) :
      IsWritten (string ++ rest)

/-- Text that ends in a case letter with white space and some other text before it. -/
def EndsFlagged (text : Text) : Prop :=
  ∃ front space flag,
    front ≠ [] ∧ isSpace space = true ∧ isCaseFlag flag = true ∧ text = front ++ [space, flag]

/--
How a written value falls into a value that is not blank, perhaps a case letter behind white space,
and the blank space behind each of them.
-/
inductive Trims : Text → Text → Option Text → Prop where
  | bare {value blank : Text}
      (solid : Text.EndsSolid value) (unflagged : ¬ EndsFlagged value)
      (isBlank : Text.Blank blank) :
      Trims (value ++ blank) value none
  | flagged {value gap blank : Text} {space flag : Char}
      (solid : Text.EndsSolid value) (gapBlank : Text.Blank gap)
      (isSpace : isSpace space = true) (isFlag : isCaseFlag flag = true)
      (isBlank : Text.Blank blank) :
      Trims (value ++ gap ++ [space, flag] ++ blank) value (some [flag])

/-- What stands in an attribute selector behind the name: nothing, or an operator and a value. -/
inductive IsCondition : Option Text → Option Text → Option Text → Text → Prop where
  | absent : IsCondition none none none []
  | present {operator space written value : Text} {caseFlag : Option Text}
      (isOperator : IsOperator operator) (white : White space)
      (isWritten : IsWritten written) (trims : Trims written value caseFlag) :
      IsCondition (some operator) (some value) caseFlag (operator ++ space ++ written)

/-- The texts of a simple selector. -/
inductive Simple : Part → Text → Prop where
  | element {name : Text} {space : Option Text}
      (isName : IsName name) (isNamespace : IsNamespace space) :
      Simple (.element name space) (Part.qualified space name)
  | universal {space : Option Text} (isNamespace : IsNamespace space) :
      Simple (.universal space) (Part.qualified space ['*'])
  | id {name : Text} (isName : IsName name) : Simple (.id name) ('#' :: name)
  | className {name : Text} (isName : IsName name) : Simple (.className name) ('.' :: name)
  | pseudoClass {name : Text} {argument : Option Text}
      (isName : IsName name) (balanced : ∀ inner ∈ argument, Balanced 0 inner) :
      Simple (.pseudoClass name argument) (':' :: Part.called name argument)
  | pseudoElement {name : Text} {argument : Option Text}
      (isName : IsName name) (balanced : ∀ inner ∈ argument, Balanced 0 inner) :
      Simple (.pseudoElement name argument) (':' :: ':' :: Part.called name argument)
  | attribute {name before after condition : Text}
      {space operator value caseFlag : Option Text}
      (whiteBefore : White before) (isNamespace : IsNamespace space) (isName : IsName name)
      (whiteAfter : White after) (isCondition : IsCondition operator value caseFlag condition)
      (longest : startsName (after ++ condition ++ [']']) = false) :
      Simple (.attribute name space operator value caseFlag)
        ('[' :: before ++ Part.qualified space name ++ after ++ condition ++ [']'])

/-! ## Lexemes -/

/-- The separators that are written with a sign, and their tokens. -/
inductive IsMark : Char → SelectorToken → Prop where
  | comma : IsMark ',' .comma
  | combinator {symbol : Char} (isSymbol : isCombinatorSymbol symbol = true) :
      IsMark symbol (.combinator symbol)

theorem IsMark.not_isSpace {sign : Char} {token : SelectorToken} (isMark : IsMark sign token) :
    isSpace sign = false := by
  cases isMark with
  | comma => decide
  | combinator isSymbol =>
      simp only [isCombinatorSymbol, Bool.or_eq_true, decide_eq_true_eq] at isSymbol
      rcases isSymbol with (rfl | rfl) | rfl <;> decide

/-- The texts of a token.  White space around the sign of a separator belongs to it. -/
inductive Lexeme : SelectorToken → Text → Prop where
  | simple {part : Part} {source : Text} (simple : Simple part source) :
      Lexeme ⟨part, source⟩ source
  | mark {sign : Char} {token : SelectorToken} {before after : Text}
      (isMark : IsMark sign token) (whiteBefore : White before) (whiteAfter : White after) :
      Lexeme token (before ++ sign :: after)
  | descendant {space : Text} (nonempty : space ≠ []) (white : White space) :
      Lexeme (.combinator ' ') space

/-- A text that consists of texts of the given tokens, one behind the other. -/
inductive Lexemes : List SelectorToken → Text → Prop where
  | nil : Lexemes [] []
  | cons {token : SelectorToken} {source text : Text} {tokens : List SelectorToken}
      (lexeme : Lexeme token source) (lexemes : Lexemes tokens text) :
      Lexemes (token :: tokens) (source ++ text)

end CssAuthoring.Selector
