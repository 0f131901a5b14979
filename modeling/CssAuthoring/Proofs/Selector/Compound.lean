import CssAuthoring.Proofs.Component.Escape
import CssAuthoring.Proofs.Selector.Spelling

/-!
# Compound selectors

The separators of a selector part it into compound selectors, runs of simple selectors.  No
backslash at the end of such a run waits for a character, and white space stands there only behind a
backslash: a name takes what a backslash stands before along, and the other simple selectors end in
a sign.

A reader of style values takes a white space character behind the code of an escape along, so that
for such a reader a compound selector behind a single one is part of the compound selector in front.
-/

namespace CssAuthoring.Selector

open CssAuthoring.Component (Whole whole_nil whole_cons whole_concat uniform endsInCode)

/-! ## The compound selectors of a text -/

/-- Whether a text is white space that a reader of style values takes for one character. -/
def isSingleSpace (text : Text) : Bool :=
  text.all isSpace && (uniform text).length = 1

/--
What stands in front of the compound selector behind a separator and belongs to it: nothing, unless
the one in front of the separator ends in a code that takes all of the separator along.
-/
def begun (front separator : Text) : Text :=
  if endsInCode (uniform front) && isSingleSpace separator then front ++ separator else []

/--
The compound selectors of a text, each with the text behind it; `front` is what of the first one
stands before the text.  Where a code takes all of a separator along, the compound selector behind
it begins where the one in front of it does.  There may be nothing between two separators.
-/
def compounds (front : Text) (text : Text) : List (Text × Text) :=
  match text with
  | [] => [(front, [])]
  | character :: rest =>
    match read : readToken character rest with
    | .error _ => []
    | .ok (token, after) =>
      have := readToken_shorter read
      if startsSeparator character then
        let text := character :: rest
        (front, text) :: compounds (begun front (Text.before text after)) after
      else compounds (front ++ token.content) after
termination_by text.length

theorem compounds_nil (front : Text) : compounds front [] = [(front, [])] := by
  rw [compounds]

theorem compounds_separator {character : Char} {rest after : Text} {token : SelectorToken}
    (separates : startsSeparator character = true)
    (read : readSeparator (character :: rest) = (token, after)) (front : Text) :
    compounds front (character :: rest) = (front, character :: rest) ::
      compounds (begun front (Text.before (character :: rest) after)) after := by
  have found := readToken_separator separates rest
  rw [read] at found
  rw [compounds]
  split
  · simp_all
  · simp_all

theorem compounds_simple {part : Part} {source text : Text} (simple : Simple part source)
    (settled : Settled part) (stops : Text.Stops (extendsPart part) text) (front : Text) :
    compounds front (source ++ text) = compounds (front ++ source) text := by
  rcases simple.readsAs settled stops with ⟨character, rest, rfl, noSeparator, read⟩
  rw [List.cons_append, compounds]
  split
  · simp_all
  · simp_all

/-- Behind a sign with the white space around it the next compound selector begins. -/
theorem compounds_mark {sign : Char} {token : SelectorToken} {before after text : Text}
    (isMark : IsMark sign token) (whiteBefore : White before) (whiteAfter : White after)
    (stops : Text.Stops isSpace text) (front : Text) :
    compounds front (before ++ sign :: (after ++ text)) =
      (front, before ++ sign :: (after ++ text)) :: compounds [] text := by
  have read := readSeparator_mark isMark whiteBefore whiteAfter stops
  rcases isMark.head whiteBefore (after ++ text) with ⟨character, rest, shape, separates⟩
  have assoc : before ++ sign :: (after ++ text) = before ++ sign :: after ++ text := by simp
  have notSpace : isSingleSpace (before ++ sign :: after) = false := by
    simp [isSingleSpace, isMark.not_isSpace]
  have nothing : begun front (Text.before (before ++ sign :: (after ++ text)) text) = [] := by
    rw [assoc, Text.before_left, begun, notSpace, Bool.and_false]
    rfl
  rw [shape] at read nothing ⊢
  rw [compounds_separator separates read front, nothing]

theorem compounds_descendant {space text : Text} (nonempty : space ≠ []) (white : White space)
    (stops : Text.Stops startsSeparator text) (front : Text) :
    compounds front (space ++ text) =
      (front, space ++ text) :: compounds (begun front space) text := by
  have read := readSeparator_descendant white stops
  have separator := Text.before_left space text
  rcases white.head nonempty text with ⟨character, rest, shape, separates⟩
  rw [shape] at read separator ⊢
  rw [compounds_separator separates read front, separator]

/-- The code of the first name takes the space along that is a combinator for a selector. -/
example : compounds [] ".\\31 b > c" =
    [(".\\31".toList, " b > c".toList), (".\\31 b".toList, " > c".toList), ("c".toList, [])] := by
  with_unfolding_all rfl

/-! ## The ends of simple selectors -/

/-- A text that ends in no lone backslash, and in white space only directly behind a backslash. -/
inductive Tight : Text → Prop where
  | solid {text : Text} (whole : Whole text)
      (solid : ∀ last ∈ text.getLast?, isSpace last = false) : Tight text
  | escaped {front : Text} {white : Char} (whole : Whole front)
      (isWhite : isSpace white = true) : Tight (front ++ ['\\', white])

theorem Tight.whole {text : Text} (tight : Tight text) : Whole text := by
  cases tight with
  | solid whole _ => exact whole
  | escaped whole _ => exact whole.append (whole_nil.escaped _)

theorem tight_nil : Tight [] :=
  .solid whole_nil (by simp)

/-- A text that ends in a sign is tight. -/
theorem tight_concat (front : Text) {last : Char} (notBackslash : last ≠ '\\')
    (solid : isSpace last = false) : Tight (front ++ [last]) := by
  apply Tight.solid (whole_concat front notBackslash)
  simpa using solid

/-- Whether a text is tight depends on what it ends in. -/
theorem Tight.of_whole {front back : Text} (wholeFront : Whole front) (tightBack : Tight back)
    (filled : back ≠ []) : Tight (front ++ back) := by
  cases tightBack with
  | solid whole solid =>
      apply Tight.solid (wholeFront.append whole)
      intro last member
      rw [List.getLast?_append, List.getLast?_eq_some_getLast filled] at member
      rw [List.getLast?_eq_some_getLast filled] at solid
      exact solid last member
  | escaped whole isWhite =>
      rw [← List.append_assoc]
      exact .escaped (wholeFront.append whole) isWhite

theorem Tight.append {front back : Text} (tightFront : Tight front) (tightBack : Tight back) :
    Tight (front ++ back) := by
  by_cases empty : back = []
  · subst empty
    rwa [List.append_nil]
  · exact tightBack.of_whole tightFront.whole empty

theorem not_isSpace_of_nameCharacter {character : Char}
    (stays : isNameCharacter character = true) : isSpace character = false := by
  rw [Bool.eq_false_iff]
  intro white
  simp only [isSpace, Bool.or_eq_true, decide_eq_true_eq] at white
  rcases white with (((rfl | rfl) | rfl) | rfl) | rfl <;> exact absurd stays (by decide)

theorem Units.tight {name : Text} (units : Units name) : Tight name := by
  induction units with
  | nil => exact tight_nil
  | plain stays _ hypothesis =>
      exact (tight_concat [] (not_escape_of_nameCharacter stays)
        (not_isSpace_of_nameCharacter stays)).append hypothesis
  | escaped character _ hypothesis =>
      have escape : Tight ['\\', character] := by
        cases white : isSpace character with
        | false => exact .solid (whole_nil.escaped character) (by simpa using white)
        | true => exact Tight.escaped whole_nil white
      exact escape.append hypothesis

/-- A name with the sign in front of it is tight. -/
theorem IsName.tight_cons {name : Text} (isName : IsName name) {sign : Char}
    (notBackslash : sign ≠ '\\') (solid : isSpace sign = false) : Tight (sign :: name) :=
  (tight_concat [] notBackslash solid).append isName.units.tight

theorem tight_qualified {space : Option Text} (isNamespace : IsNamespace space) {name : Text}
    (tight : Tight name) : Tight (Part.qualified space name) := by
  have barred : Tight ('|' :: name) := (tight_concat [] (by decide) rfl).append tight
  cases isNamespace with
  | absent => exact tight
  | empty => exact barred
  | any => exact (tight_concat [] (by decide) rfl).append barred
  | named isName => exact isName.units.tight.append barred

theorem tight_called {name : Text} (isName : IsName name) (argument : Option Text) :
    Tight (Part.called name argument) := by
  cases argument with
  | none => exact isName.units.tight
  | some inner => exact tight_concat _ (by decide) rfl

theorem Simple.tight {part : Part} {source : Text} (simple : Simple part source) :
    Tight source := by
  have colon : Tight [':'] := tight_concat [] (by decide) rfl
  cases simple with
  | element isName isNamespace => exact tight_qualified isNamespace isName.units.tight
  | universal isNamespace =>
      exact tight_qualified isNamespace (tight_concat [] (by decide) rfl)
  | id isName => exact isName.tight_cons (by decide) rfl
  | className isName => exact isName.tight_cons (by decide) rfl
  | pseudoClass isName => exact colon.append (tight_called isName _)
  | pseudoElement isName => exact colon.append (colon.append (tight_called isName _))
  | «attribute» => exact tight_concat _ (by decide) rfl

end CssAuthoring.Selector
