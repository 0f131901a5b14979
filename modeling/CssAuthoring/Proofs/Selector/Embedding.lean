import CssAuthoring.Proofs.Selector.Adjoining

/-!
# Selectors in parentheses

An argument is read up to the parenthesis that closes it, and while it is read only parentheses and
strings are seen: a backslash in front of a parenthesis or quote, or the brackets of an attribute
selector around it, do not hide it.  A selector can therefore stand in parentheses if its written
form is balanced.  It is if no name has a parenthesis or quote in it, not even behind a backslash,
and the values of attributes are balanced themselves.

Main statements: `Balanced.append`, balanced texts are put one behind the other;
`balanced_render`, selectors whose parts are sheltered are written as balanced text.
-/

namespace CssAuthoring.Selector

/-! ## Balanced text -/

/-- What closes some parentheses and then some more closes all of them. -/
theorem Balanced.append {depth more : Nat} {front back : Text} (isFront : Balanced depth front)
    (isBack : Balanced more back) : Balanced (depth + more) (front ++ back) := by
  induction isFront with
  | nil => simpa using isBack
  | plain notQuote notOpening notClosing _ hypothesis =>
      exact .plain notQuote notOpening notClosing hypothesis
  | string isString _ hypothesis =>
      rw [List.append_assoc]
      exact .string isString hypothesis
  | opening _ hypothesis =>
      rw [Nat.add_right_comm] at hypothesis
      exact .opening hypothesis
  | closing _ hypothesis =>
      rw [Nat.add_right_comm]
      exact .closing hypothesis

/-- Balanced text in parentheses is balanced. -/
theorem Balanced.enclose {inner : Text} (balanced : Balanced 0 inner) :
    Balanced 0 ('(' :: inner ++ [')']) :=
  .opening (balanced.append (.closing .nil))

/-- Text without a quote or parenthesis. -/
def Bare (text : Text) : Prop :=
  ∀ character ∈ text,
    Text.isQuote character = false ∧ character ≠ '(' ∧ character ≠ ')'

instance (text : Text) : Decidable (Bare text) :=
  decidable_of_iff (text.all fun character =>
      !Text.isQuote character && character ≠ '(' && character ≠ ')') (by simp [Bare, and_assoc])

theorem Bare.balanced {text : Text} (bare : Bare text) : Balanced 0 text := by
  induction text with
  | nil => exact .nil
  | cons character rest hypothesis =>
      rcases bare character List.mem_cons_self with ⟨notQuote, notOpening, notClosing⟩
      have behind := hypothesis fun other member => bare other (List.mem_cons_of_mem _ member)
      exact .plain notQuote notOpening notClosing behind

/-- Bare text in front of balanced text can be left out of account. -/
theorem Bare.append_balanced {front back : Text} (bare : Bare front)
    (balanced : Balanced 0 back) : Balanced 0 (front ++ back) :=
  bare.balanced.append balanced

/-- Characters of a kind to which quotes and parentheses do not belong make bare text. -/
theorem bare_of_kind (isKind : Char → Bool) {text : Text}
    (kind : ∀ character ∈ text, isKind character = true)
    (outside : ['"', '\'', '(', ')'].any isKind = false) : Bare text := by
  simp only [List.any_cons, List.any_nil, Bool.or_false, Bool.or_eq_false_iff] at outside
  intro character member
  have inside := kind character member
  refine ⟨?_, ?_, ?_⟩
  · rw [Bool.eq_false_iff]
    intro isQuote
    simp only [Text.isQuote, Bool.or_eq_true, decide_eq_true_eq] at isQuote
    rcases isQuote with rfl | rfl
    · rw [outside.1] at inside
      contradiction
    · rw [outside.2.1] at inside
      contradiction
  · rintro rfl
    rw [outside.2.2.1] at inside
    contradiction
  · rintro rfl
    rw [outside.2.2.2] at inside
    contradiction

theorem bare_of_blank {text : Text} (blank : Text.Blank text) : Bare text :=
  bare_of_kind Text.isBlank blank (by decide)

theorem bare_of_white {text : Text} (white : White text) : Bare text :=
  bare_of_kind isSpace white (by decide)

/-! ## Sheltered parts -/

/--
A part that has no quote or parenthesis in its names, its operator and its namespace, and whose
value is balanced, if it has one.  Arguments are balanced in any case.
-/
def Sheltered : Part → Prop
  | .element name space => Bare name ∧ ∀ outer ∈ space, Bare outer
  | .universal space => ∀ outer ∈ space, Bare outer
  | .id name => Bare name
  | .className name => Bare name
  | .attribute name space operator value _ =>
    Bare name ∧ (∀ outer ∈ space, Bare outer) ∧ (∀ comparison ∈ operator, Bare comparison) ∧
      ∀ inner ∈ value, Balanced 0 inner
  | .pseudoClass name _ => Bare name
  | .pseudoElement name _ => Bare name
  | .combinator => True
  | .comma => True

theorem balanced_qualified {space : Option Text} {name : Text}
    (bareSpace : ∀ outer ∈ space, Bare outer) (bareName : Bare name) :
    Balanced 0 (Part.qualified space name) := by
  cases space with
  | none => exact bareName.balanced
  | some outer =>
      have bar : Bare ['|'] := by decide
      exact (bareSpace outer rfl).append_balanced (bar.append_balanced bareName.balanced)

theorem balanced_called {name : Text} {argument : Option Text} (bareName : Bare name)
    (balanced : ∀ inner ∈ argument, Balanced 0 inner) : Balanced 0 (Part.called name argument) := by
  cases argument with
  | none => exact bareName.balanced
  | some inner =>
      rw [Part.called, List.append_assoc]
      exact bareName.append_balanced (balanced inner rfl).enclose

/-- Blank space and a case letter behind a balanced value leave it balanced. -/
theorem Trims.balanced {written value : Text} {caseFlag : Option Text}
    (trims : Trims written value caseFlag) (balanced : Balanced 0 value) : Balanced 0 written := by
  cases trims with
  | bare _ _ isBlank => exact balanced.append (bare_of_blank isBlank).balanced
  | @flagged _ gap blank space flag _ gapBlank isSpace isFlag isBlank =>
      have ends : Bare [space, flag] := by
        have first : Bare [space] := bare_of_white (by simpa [White] using isSpace)
        have second : Bare [flag] := bare_of_kind isCaseFlag (by simpa using isFlag) (by decide)
        simpa [Bare] using And.intro (first space (by simp)) (second flag (by simp))
      exact ((balanced.append (bare_of_blank gapBlank).balanced).append ends.balanced).append
        (bare_of_blank isBlank).balanced

theorem IsCondition.balanced {operator value caseFlag : Option Text} {condition : Text}
    (isCondition : IsCondition operator value caseFlag condition)
    (bareOperator : ∀ comparison ∈ operator, Bare comparison)
    (balanced : ∀ inner ∈ value, Balanced 0 inner) : Balanced 0 condition := by
  cases isCondition with
  | absent => exact .nil
  | present isOperator white isWritten trims =>
      rw [List.append_assoc]
      exact (bareOperator _ rfl).append_balanced
        ((bare_of_white white).append_balanced (trims.balanced (balanced _ rfl)))

/-- The text of a sheltered simple selector is balanced. -/
theorem Simple.balanced {part : Part} {source : Text} (simple : Simple part source)
    (sheltered : Sheltered part) : Balanced 0 source := by
  have sign (character : Char) (bare : Bare [character]) {text : Text}
      (balanced : Balanced 0 text) : Balanced 0 (character :: text) :=
    bare.append_balanced balanced
  cases simple with
  | element => exact balanced_qualified sheltered.2 sheltered.1
  | universal => exact balanced_qualified sheltered (by decide)
  | id => exact sign '#' (by decide) (Bare.balanced sheltered)
  | className => exact sign '.' (by decide) (Bare.balanced sheltered)
  | pseudoClass _ balanced => exact sign ':' (by decide) (balanced_called sheltered balanced)
  | pseudoElement _ balanced =>
      exact sign ':' (by decide) (sign ':' (by decide) (balanced_called sheltered balanced))
  | «attribute» whiteBefore _ _ whiteAfter isCondition =>
      rcases sheltered with ⟨bareName, bareSpace, bareOperator, balanced⟩
      have bracket : Bare [']'] := by decide
      have front := (sign '[' (by decide) (bare_of_white whiteBefore).balanced).append
        (balanced_qualified bareSpace bareName)
      have back := (bare_of_white whiteAfter).append_balanced
        (isCondition.balanced bareOperator balanced)
      simpa using (front.append back).append bracket.balanced

/-- A separator is written without quotes and parentheses. -/
theorem IsMark.balanced {sign : Char} {token : SelectorToken} (isMark : IsMark sign token) :
    Balanced 0 (spaced token) := by
  rcases exists_spaced_mark isMark with ⟨before, white, shape⟩
  have bareSign : Bare [sign] :=
    bare_of_kind startsSeparator (by simpa using isMark.separates) (by decide)
  have bareSpace : Bare [' '] := by decide
  rw [shape]
  exact (bare_of_white white).append_balanced (bareSign.append_balanced bareSpace.balanced)

/-- The written form of sheltered tokens is balanced. -/
theorem balanced_render {tokens : List SelectorToken} {text : Text} (spells : Spells tokens text)
    (sheltered : ∀ token ∈ tokens, Sheltered token.part) : Balanced 0 (render tokens) := by
  induction spells with
  | nil => exact .nil
  | simple simple settled _ _ hypothesis =>
      rcases List.forall_mem_cons.1 sheltered with ⟨here, behind⟩
      rw [render_cons, spaced_simple simple]
      exact (simple.balanced here).append (hypothesis behind)
  | mark isMark _ _ _ _ hypothesis =>
      rw [render_cons]
      exact isMark.balanced.append (hypothesis (List.forall_mem_cons.1 sheltered).2)
  | descendant _ _ _ _ hypothesis =>
      have bareSpace : Bare [' '] := by decide
      rw [render_cons, spaced_descendant]
      exact bareSpace.append_balanced (hypothesis (List.forall_mem_cons.1 sheltered).2)

end CssAuthoring.Selector
