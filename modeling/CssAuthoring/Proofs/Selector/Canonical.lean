import CssAuthoring.Proofs.Selector.Acceptance
import CssAuthoring.Proofs.Selector.RoundTrip

/-!
# Contents and canonical texts

The content of a simple selector is read as that selector alone, and so is its canonical text, which
is written from its parts.  For all but attribute selectors the two texts are the same.  Between the
brackets of an attribute selector the content keeps white space that the canonical text leaves out,
and there an operator that could be part of the name before it would be read as such.

The main statement is `content_canonical`.
-/

namespace CssAuthoring.Selector

/-! ## Written values without the space at their end -/

theorem not_isQuote_of_isBlank {character : Char} (blank : Text.isBlank character = true) :
    Text.isQuote character = false := by
  rw [Bool.eq_false_iff]
  intro isQuote
  simp only [Text.isQuote, Bool.or_eq_true, decide_eq_true_eq] at isQuote
  rcases isQuote with rfl | rfl <;> exact absurd blank (by decide)

theorem IsString.ends {string : Text} (isString : IsString string) :
    ∃ front quote, string = front ++ [quote] ∧ Text.isQuote quote = true := by
  cases isString with
  | @between quote body isQuote _ => exact ⟨quote :: body, quote, rfl, isQuote⟩

/-- Text without quotes can be taken from the end of a written value. -/
theorem IsWritten.of_append {front back : Text} (isWritten : IsWritten (front ++ back))
    (noQuote : ∀ character ∈ back, Text.isQuote character = false) : IsWritten front := by
  generalize shape : front ++ back = text at isWritten
  induction isWritten generalizing front with
  | nil =>
      rw [(List.append_eq_nil_iff.1 shape).1]
      exact .nil
  | plain notQuote notBracket _ hypothesis =>
      cases front with
      | nil => exact .nil
      | cons first more =>
          cases shape
          exact .plain notQuote notBracket (hypothesis rfl)
  | @string string rest isString _ hypothesis =>
      rcases List.append_eq_append_iff.1 shape with ⟨left, within, behind⟩ | ⟨more, rfl, behind⟩
      · -- A string ends in a quote, so that nothing of it can be behind what is in front.
        rcases List.eq_nil_or_concat left with rfl | ⟨start, final, rfl⟩
        · rw [List.append_nil] at within
          rw [← within, ← List.append_nil string]
          exact .string isString .nil
        · rcases isString.ends with ⟨inside, quote, rfl, isQuote⟩
          rw [List.concat_eq_append, ← List.append_assoc] at within
          have same : [quote] = [final] := List.append_inj_right' within rfl
          have outside := noQuote final (by simp [behind])
          rw [← List.singleton_inj.1 same, isQuote] at outside
          contradiction
      · exact .string isString (hypothesis behind.symm)

/-- Text without quotes and brackets can be put behind a written value. -/
theorem IsWritten.append {front back : Text} (isWritten : IsWritten front)
    (plain : ∀ character ∈ back, Text.isQuote character = false ∧ character ≠ ']') :
    IsWritten (front ++ back) := by
  induction isWritten with
  | nil =>
      rw [List.nil_append]
      induction back with
      | nil => exact .nil
      | cons character rest hypothesis =>
          rcases plain character List.mem_cons_self with ⟨notQuote, notBracket⟩
          exact .plain notQuote notBracket
            (hypothesis fun other member => plain other (List.mem_cons_of_mem _ member))
  | plain notQuote notBracket _ hypothesis => exact .plain notQuote notBracket hypothesis
  | string isString _ hypothesis =>
      rw [List.append_assoc]
      exact .string isString hypothesis

/-! ## Canonical attribute selectors -/

/-- The value and case letter of a written value can be written without blank space in excess. -/
theorem Trims.exists_canonical {written value : Text} {caseFlag : Option Text}
    (trims : Trims written value caseFlag) (isWritten : IsWritten written) (operator : Text) :
    ∃ plain, Part.condition (some operator) (some value) caseFlag = operator ++ plain ∧
      IsWritten plain ∧ Trims plain value caseFlag := by
  have nothing : Text.Blank [] := by simp [Text.Blank]
  cases trims with
  | @bare _ blank solid unflagged isBlank =>
      refine ⟨value, by simp [Part.condition], ?_, ?_⟩
      · exact isWritten.of_append fun character member =>
          not_isQuote_of_isBlank (isBlank character member)
      · have trims := Trims.bare solid unflagged nothing
        rwa [List.append_nil] at trims
  | @flagged _ gap blank space flag solid gapBlank space_isSpace isFlag isBlank =>
      have flagPlain : Text.isQuote flag = false ∧ flag ≠ ']' := by
        simp only [isCaseFlag, Bool.or_eq_true, decide_eq_true_eq] at isFlag
        rcases isFlag with ((rfl | rfl) | rfl) | rfl <;> decide
      refine ⟨value ++ [' ', flag], by simp [Part.condition], ?_, ?_⟩
      · rw [List.append_assoc, List.append_assoc] at isWritten
        have isValue : IsWritten value := by
          refine isWritten.of_append fun character member => ?_
          simp only [List.mem_append, List.mem_cons, List.not_mem_nil, or_false] at member
          rcases member with inGap | (rfl | rfl) | inBlank
          · exact not_isQuote_of_isBlank (gapBlank character inGap)
          · exact (not_isQuote_of_isSpace space_isSpace).1
          · exact flagPlain.1
          · exact not_isQuote_of_isBlank (isBlank character inBlank)
        refine isValue.append fun character member => ?_
        simp only [List.mem_cons, List.not_mem_nil, or_false] at member
        rcases member with rfl | rfl
        · decide
        · exact flagPlain
      · have trims := Trims.flagged solid nothing (show isSpace ' ' = true from rfl) isFlag nothing
        rwa [List.append_nil, List.append_nil] at trims

/-- What stands behind the name can be written canonically. -/
theorem IsCondition.canonical {operator value caseFlag : Option Text} {condition : Text}
    (isCondition : IsCondition operator value caseFlag condition) :
    IsCondition operator value caseFlag (Part.condition operator value caseFlag) := by
  cases isCondition with
  | absent => exact .absent
  | @present operator space written value caseFlag isOperator white isWritten trims =>
      rcases trims.exists_canonical isWritten operator with ⟨plain, shape, isWritten', trims'⟩
      have present := IsCondition.present isOperator white_nil isWritten' trims'
      rw [List.append_nil] at present
      rwa [shape]

/-- An operator that could not go on with the name before it. -/
def Apart (operator : Option Text) : Prop :=
  ∀ sign ∈ operator, sign = ['='] ∨
    ∃ first rest, sign = first :: rest ∧ isNameCharacter first = false ∧ first ≠ '\\'

/-- No name starts where the operator of an attribute selector or its bracket stands. -/
theorem Apart.not_startsName {operator value caseFlag : Option Text} (apart : Apart operator) :
    startsName (Part.condition operator value caseFlag ++ [']']) = false := by
  cases operator with
  | none => rfl
  | some sign =>
      have first : ∃ first rest, sign = first :: rest ∧ isNameCharacter first = false ∧
          first ≠ '\\' := by
        rcases apart sign rfl with rfl | found
        · exact ⟨'=', [], rfl, by decide, by decide⟩
        · exact found
      rcases first with ⟨first, rest, rfl, noName, notEscape⟩
      simp only [Part.condition, List.cons_append]
      rw [startsName]
      · exact noName
      · rintro escaped more rfl
        exact absurd rfl notEscape

/-- The canonical text of a simple selector is a text of it. -/
theorem Simple.canonical {part : Part} {source : Text} (simple : Simple part source)
    (apart : ∀ name space operator value caseFlag,
      part = .attribute name space operator value caseFlag → Apart operator) :
    Simple part part.text := by
  cases simple with
  | «attribute» _ isNamespace isName _ isCondition _ =>
      have written := Simple.attribute white_nil isNamespace isName white_nil isCondition.canonical
        (apart _ _ _ _ _ rfl).not_startsName
      simpa [Part.text] using written
  | element isName isNamespace => exact .element isName isNamespace
  | universal isNamespace => exact .universal isNamespace
  | id isName => exact .id isName
  | className isName => exact .className isName
  | pseudoClass isName balanced => exact .pseudoClass isName balanced
  | pseudoElement isName balanced => exact .pseudoElement isName balanced

/-- All but attribute selectors have their canonical text. -/
theorem Simple.source_eq {part : Part} {source : Text} (simple : Simple part source)
    (plain : ∀ name space operator value caseFlag,
      part ≠ .attribute name space operator value caseFlag) : source = part.text := by
  cases simple with
  | «attribute» => exact absurd rfl (plain _ _ _ _ _)
  | _ => rfl

/-- What a text is spelled with is a simple selector or a separator. -/
theorem Spells.simple_of_mem {tokens : List SelectorToken} {text : Text}
    (spells : Spells tokens text) {token : SelectorToken} (member : token ∈ tokens)
    (noCombinator : token.part ≠ .combinator) (noComma : token.part ≠ .comma) :
    Simple token.part token.content ∧ Settled token.part := by
  induction spells with
  | nil => cases member
  | simple simple settled _ _ hypothesis =>
      rcases List.mem_cons.1 member with rfl | later
      · exact ⟨simple, settled⟩
      · exact hypothesis later
  | mark isMark _ _ _ _ hypothesis =>
      rcases List.mem_cons.1 member with rfl | later
      · cases isMark with
        | comma => exact absurd rfl noComma
        | combinator _ => exact absurd rfl noCombinator
      · exact hypothesis later
  | descendant _ _ _ _ hypothesis =>
      rcases List.mem_cons.1 member with rfl | later
      · exact absurd rfl noCombinator
      · exact hypothesis later

/-- A settled simple selector is scanned alone. -/
theorem Simple.tokenizeExact_eq {part : Part} {source : Text} (simple : Simple part source)
    (settled : Settled part) : tokenizeExact source = .ok [⟨part, source⟩] := by
  have spells := Spells.simple simple settled (Text.stops_nil _) .nil
  rw [List.append_nil] at spells
  exact tokenizeExact_eq_ok_iff.2 spells

/--
The content of every simple selector that was read is read as that selector alone.  Where it is no
attribute selector, its content is its canonical text.  Where it is one, and its operator could not
go on with the name, its canonical text is read as one attribute selector with the same parts.
-/
theorem content_canonical {selector : Text} {tokens : List SelectorToken} {token : SelectorToken}
    (accepted : tokenize selector = .ok tokens) (member : token ∈ tokens)
    (noCombinator : token.part ≠ .combinator) (noComma : token.part ≠ .comma) :
    tokenizeExact token.content = .ok [token] ∧
      ((∀ name space operator value caseFlag,
          token.part ≠ .attribute name space operator value caseFlag) →
        SelectorToken.canonical token.part = token) ∧
      ∀ name space operator value caseFlag,
        token.part = .attribute name space operator value caseFlag → Apart operator →
          tokenizeExact (SelectorToken.canonical token.part).content =
            .ok [SelectorToken.canonical token.part] := by
  have spells := tokenize_eq_ok_iff.1 accepted
  rcases spells.simple_of_mem member noCombinator noComma with ⟨simple, settled⟩
  refine ⟨simple.tokenizeExact_eq settled, ?_, ?_⟩
  · intro plain
    rw [SelectorToken.canonical, ← simple.source_eq plain]
  · intro name space operator value caseFlag shape apart
    refine (simple.canonical ?_).tokenizeExact_eq settled
    intro name' space' operator' value' caseFlag' shape'
    rw [shape] at shape'
    cases shape'
    exact apart

/-- An attribute selector with a quoted bracket, a namespace, a case letter and white space. -/
theorem content_canonical_spaced :
    ∃ name token, tokenize "a[ *|b\t~= ']' \ti ]".toList = .ok [name, token] ∧
      SelectorToken.canonical name.part = name ∧
        token.content = "[ *|b\t~= ']' \ti ]".toList ∧
          tokenizeExact token.content = .ok [token] ∧
            (SelectorToken.canonical token.part).content = "[*|b~=']' i]".toList ∧
              tokenizeExact (SelectorToken.canonical token.part).content =
                .ok [SelectorToken.canonical token.part] := by
  have accepted : tokenize "a[ *|b\t~= ']' \ti ]".toList =
      .ok [.canonical (.element "a".toList none),
        ⟨.attribute "b".toList (some "*".toList) (some "~=".toList) (some "']'".toList)
          (some "i".toList), "[ *|b\t~= ']' \ti ]".toList⟩] := by
    with_unfolding_all rfl
  have apart : Apart (some "~=".toList) := by
    intro sign same
    cases same
    exact .inr ⟨'~', ['='], rfl, by decide, by decide⟩
  have first := content_canonical accepted List.mem_cons_self nofun nofun
  have second := content_canonical accepted (List.mem_cons_of_mem _ List.mem_cons_self) nofun nofun
  exact ⟨_, _, accepted, first.2.1 nofun, rfl, second.1, rfl, second.2.2 _ _ _ _ _ rfl apart⟩

end CssAuthoring.Selector
