import CssAuthoring.Proofs.Component.Uniform
import CssAuthoring.Proofs.Text.Trim

/-!
# Escapes at the end of what was read

A backslash takes along what it stands before, and a hexadecimal code takes one white space
character behind it along too.  So the last escape of a text decides whether the text can be cut off
behind it: a backslash at the very end waits for a character, and a code at the very end may take
one away from whatever follows.  Readers cut a text where none of their escapes is torn apart, and
then the last escape of what they leave is the last one of the text.
-/

namespace CssAuthoring.Component

/-! ## Reading an escape -/

/-- The digits at the start of what stands behind a backslash. -/
def escapeDigits (text : Text) : Text :=
  (text.take 6).takeWhile Text.isHexDigit

theorem readEscape_plain {character : Char} {rest : Text}
    (noDigits : escapeDigits (character :: rest) = []) :
    readEscape (character :: rest) = (character, rest) := by
  rw [escapeDigits] at noDigits
  simp only [readEscape, noDigits]

theorem readEscape_code {text : Text} (digits : escapeDigits text ≠ []) :
    readEscape text =
      (ofCode (Text.ofDigits 16 (escapeDigits text)),
        dropSpace (text.drop (escapeDigits text).length)) := by
  unfold readEscape
  split
  · rename_i none
    exact absurd none digits
  · rename_i none
    exact absurd none digits
  · rfl

theorem escapeDigits_append_drop (text : Text) :
    escapeDigits text ++ text.drop (escapeDigits text).length = text := by
  apply List.prefix_iff_eq_append.1
  exact (List.takeWhile_prefix _).trans (List.take_prefix _ _)

theorem escapeDigits_plain (text : Text) : '\\' ∉ escapeDigits text := by
  intro member
  exact absurd (Text.mem_takeWhile _ member) (by decide)

theorem dropSpace_suffix (text : Text) : dropSpace text <:+ text := by
  unfold dropSpace
  split
  · split
    · exact List.suffix_cons _ _
    · exact List.suffix_refl _
  · exact List.suffix_refl _

theorem readEscape_suffix (text : Text) : (readEscape text).2 <:+ text := by
  by_cases digits : escapeDigits text = []
  · cases text with
    | nil => exact List.suffix_refl _
    | cons character rest =>
        rw [readEscape_plain digits]
        exact List.suffix_cons _ _
  · rw [readEscape_code digits]
    exact (dropSpace_suffix _).trans (List.drop_suffix _ _)

/-! ## The last escape of a text -/

/--
The text behind the last backslash that starts an escape.  What a backslash stands before starts no
escape, and a backslash in front of a line feed is none.
-/
def lastEscape : Text → Option Text
  | '\\' :: '\n' :: rest => lastEscape rest
  | '\\' :: escaped :: rest => (lastEscape rest).or (some (escaped :: rest))
  | ['\\'] => some []
  | _ :: rest => lastEscape rest
  | [] => none

/-- A text that does not end in a backslash which waits for a character. -/
def Whole (text : Text) : Prop :=
  lastEscape text ≠ some []

/-- Whether a text ends in an escape by a code, so that the code might go on behind the text. -/
def endsInCode (text : Text) : Bool :=
  match lastEscape text with
  | some digits => !digits.isEmpty && digits.length ≤ 6 && digits.all Text.isHexDigit
  | none => false

theorem lastEscape_cons {character : Char} (notBackslash : character ≠ '\\') (rest : Text) :
    lastEscape (character :: rest) = lastEscape rest := by
  rw [lastEscape] <;> simp [notBackslash]

/-- A character that neither stands before another one in an escape nor waits for one. -/
theorem ne_backslash {character : Char} {rest : Text}
    (notEscape : ∀ escaped more, character = '\\' → rest = escaped :: more → False)
    (notEnd : character = '\\' → rest = [] → False) : character ≠ '\\' := by
  rintro rfl
  rcases rest with _ | ⟨escaped, more⟩
  · exact notEnd rfl rfl
  · exact notEscape escaped more rfl rfl

theorem lastEscape_escaped {escaped : Char} (notBreak : escaped ≠ '\n') (rest : Text) :
    lastEscape ('\\' :: escaped :: rest) = (lastEscape rest).or (some (escaped :: rest)) := by
  rw [lastEscape]
  simp [notBreak]

theorem lastEscape_of_plain {text : Text} (plain : '\\' ∉ text) : lastEscape text = none := by
  induction text with
  | nil => rfl
  | cons character rest hypothesis =>
      simp only [List.mem_cons, not_or] at plain
      rw [lastEscape_cons (Ne.symm plain.1), hypothesis plain.2]

/-- The last escape of two texts is in the second one if there is any in it. -/
theorem lastEscape_append {front : Text} (whole : Whole front) (back : Text) :
    lastEscape (front ++ back) =
      (lastEscape back).or ((lastEscape front).map (· ++ back)) := by
  unfold Whole at whole
  fun_induction lastEscape front with
  | case1 rest hypothesis => exact hypothesis whole
  | case2 escaped rest notBreak hypothesis =>
      have wholeRest : lastEscape rest ≠ some [] := by
        intro waits
        simp [waits] at whole
      rw [List.cons_append, List.cons_append, lastEscape_escaped (by simpa using notBreak),
        hypothesis wholeRest]
      cases lastEscape back <;> cases lastEscape rest <;> rfl
  | case3 => exact absurd rfl whole
  | case4 character rest noBreak notEscape notEnd hypothesis =>
      rw [List.cons_append, lastEscape_cons (ne_backslash notEscape notEnd), hypothesis whole]
  | case5 => simp

/-- What stands behind the last escape is the end of the text. -/
theorem lastEscape_suffix {text digits : Text} (last : lastEscape text = some digits) :
    digits <:+ text := by
  fun_induction lastEscape text with
  | case1 rest hypothesis =>
      exact (hypothesis last).trans ((List.suffix_cons _ _).trans (List.suffix_cons _ _))
  | case2 escaped rest _ hypothesis =>
      have inside : escaped :: rest <:+ '\\' :: escaped :: rest := List.suffix_cons _ _
      rcases Option.or_eq_some_iff.1 last with inRest | ⟨_, here⟩
      · exact (hypothesis inRest).trans ((List.suffix_cons _ _).trans inside)
      · rwa [← Option.some.inj here]
  | case3 =>
      rw [← Option.some.inj last]
      exact List.nil_suffix
  | case4 _ rest _ _ _ hypothesis => exact (hypothesis last).trans (List.suffix_cons _ _)
  | case5 => cases last

/-- A text that ends in a code ends in a digit. -/
theorem exists_digit_of_endsInCode {text : Text} (code : endsInCode text = true) :
    ∃ digit, text.getLast? = some digit ∧ Text.isHexDigit digit = true := by
  unfold endsInCode at code
  split at code
  · rename_i digits last
    simp only [Bool.and_eq_true, Bool.not_eq_true', List.isEmpty_eq_false_iff] at code
    rcases code with ⟨⟨filled, _⟩, areDigits⟩
    rcases lastEscape_suffix last with ⟨front, rfl⟩
    refine ⟨digits.getLast filled, ?_, List.all_eq_true.1 areDigits _ (List.getLast_mem filled)⟩
    rw [List.getLast?_append, List.getLast?_eq_some_getLast filled]
    rfl
  · cases code

theorem whole_nil : Whole [] := by
  simp [Whole, lastEscape]

theorem whole_of_plain {text : Text} (plain : '\\' ∉ text) : Whole text := by
  simp [Whole, lastEscape_of_plain plain]

theorem Whole.append {front back : Text} (wholeFront : Whole front) (wholeBack : Whole back) :
    Whole (front ++ back) := by
  rw [Whole, lastEscape_append wholeFront]
  unfold Whole at wholeFront wholeBack
  cases last : lastEscape back with
  | none =>
      intro waits
      simp only [Option.none_or, Option.map_eq_some_iff, List.append_eq_nil_iff] at waits
      rcases waits with ⟨front, inFront, rfl, _⟩
      exact wholeFront inFront
  | some behind =>
      rw [last] at wholeBack
      simpa using wholeBack

theorem whole_cons {character : Char} (notBackslash : character ≠ '\\') (rest : Text) :
    Whole (character :: rest) ↔ Whole rest := by
  rw [Whole, Whole, lastEscape_cons notBackslash]

/-- What a backslash stands before does not matter for the text behind. -/
theorem Whole.escaped {rest : Text} (whole : Whole rest) (escaped : Char) :
    Whole ('\\' :: escaped :: rest) := by
  by_cases isBreak : escaped = '\n'
  · subst isBreak
    rwa [Whole, lastEscape]
  · rw [Whole, lastEscape_escaped isBreak]
    unfold Whole at whole
    cases last : lastEscape rest with
    | none => simp
    | some behind => simpa [last] using whole

/-- A text that ends in another character than a backslash is whole. -/
theorem whole_concat (front : Text) {last : Char} (notBackslash : last ≠ '\\') :
    Whole (front ++ [last]) := by
  fun_induction lastEscape front with
  | case1 rest hypothesis => exact hypothesis.escaped '\n'
  | case2 escaped rest notBreak hypothesis => exact hypothesis.escaped escaped
  | case3 => exact whole_nil.escaped last
  | case4 character rest noBreak notEscape notEnd hypothesis =>
      exact (whole_cons (ne_backslash notEscape notEnd) _).2 hypothesis
  | case5 => exact (whole_cons notBackslash []).2 whole_nil

/-- Making a text uniform leaves no backslash alone at the end. -/
theorem Whole.uniform {text : Text} (whole : Whole text) : Whole (uniform text) := by
  unfold Whole at whole
  have escaped {rest : Text} (wholeRest : Whole (Component.uniform rest)) (next : Char) :
      Whole (Component.uniform ('\\' :: next :: rest)) := by
    have backslash : Component.uniform ('\\' :: next :: rest) =
        '\\' :: Component.uniform (next :: rest) := uniform_cons (by simp)
    rw [backslash]
    rcases uniform_cons_or next rest with same | ⟨_, same, starts⟩
    · rw [same]
      exact wholeRest.escaped _
    · -- The character behind the backslash is the line break that both make.
      rcases rest with _ | ⟨first, more⟩
      · cases starts
      · cases starts
        rw [same]
        rw [uniform_cons (by simp)] at wholeRest ⊢
        exact ((whole_cons (by decide) _).1 wholeRest).escaped _
  fun_induction lastEscape text with
  | case1 rest hypothesis => exact escaped (hypothesis whole) '\n'
  | case2 next rest notBreak hypothesis =>
      refine escaped (hypothesis fun waits => ?_) next
      rw [waits] at whole
      exact whole rfl
  | case3 => exact absurd rfl whole
  | case4 character rest noBreak notEscape notEnd hypothesis =>
      have notBackslash := ne_backslash notEscape notEnd
      rcases uniform_cons_or character rest with same | ⟨_, same, _⟩
      · have stays : uniformCharacter character ≠ '\\' := by
          fun_cases uniformCharacter character with
          | case1 => decide
          | case2 => decide
          | case3 => exact notBackslash
        rw [same, whole_cons stays]
        exact hypothesis whole
      · rw [same]
        exact hypothesis whole
  | case5 => exact whole_nil

/-! ## What is left behind whole escapes -/

/--
A text is what is left of another one when a part was read that tears no escape apart: the last
escape of the whole is the last one of what is left, or else it is in what was read.
-/
structure LeftOf (rest text : Text) : Prop where
  suffix : rest <:+ text
  last : rest ≠ [] → ∃ front : Option Text, front ≠ some [] ∧
    lastEscape text = (lastEscape rest).or (front.map (· ++ rest))

namespace LeftOf

theorem nil (text : Text) : LeftOf [] text :=
  ⟨List.nil_suffix, fun nonempty => absurd rfl nonempty⟩

theorem append {front : Text} (whole : Whole front) (rest : Text) : LeftOf rest (front ++ rest) :=
  ⟨List.suffix_append _ _, fun _ => ⟨lastEscape front, whole, lastEscape_append whole rest⟩⟩

theorem refl (text : Text) : LeftOf text text :=
  append whole_nil text

/-- Whatever was read, it tears no escape apart if it ends in another character than a backslash. -/
theorem behind (front : Text) {last : Char} (notBackslash : last ≠ '\\') (rest : Text) :
    LeftOf rest (front ++ last :: rest) := by
  rw [List.append_cons]
  exact append (whole_concat front notBackslash) rest

theorem cons {character : Char} (notBackslash : character ≠ '\\') (rest : Text) :
    LeftOf rest (character :: rest) :=
  behind [] notBackslash rest

/-- A backslash in front of a line feed starts no escape. -/
theorem breaks (rest : Text) : LeftOf ('\n' :: rest) ('\\' :: '\n' :: rest) := by
  refine ⟨List.suffix_cons _ _, fun _ => ⟨none, by simp, ?_⟩⟩
  rw [lastEscape, lastEscape_cons (by decide)]
  simp

/-- A character is read that starts no escape. -/
theorem plain {character : Char} {rest : Text}
    (noEscape : character = '\\' → escapes rest = false) : LeftOf rest (character :: rest) := by
  by_cases backslash : character = '\\'
  · subst backslash
    have starts : rest.head? = some '\n' := by simpa [escapes] using noEscape rfl
    rcases rest with _ | ⟨next, more⟩
    · cases starts
    · cases starts
      exact breaks more
  · exact cons backslash rest

theorem trans {first second third : Text} (inner : LeftOf first second)
    (outer : LeftOf second third) : LeftOf first third := by
  refine ⟨inner.suffix.trans outer.suffix, fun nonempty => ?_⟩
  have filled : second ≠ [] := by
    rintro rfl
    exact nonempty (List.suffix_nil.1 inner.suffix)
  rcases inner.last nonempty with ⟨inside, insideWhole, innerLast⟩
  rcases outer.last filled with ⟨outside, outsideWhole, outerLast⟩
  rcases inner.suffix with ⟨front, rfl⟩
  refine ⟨inside.or (outside.map (· ++ front)), ?_, ?_⟩
  · cases inside with
    | some inside => simpa using insideWhole
    | none =>
        intro waits
        simp only [Option.none_or, Option.map_eq_some_iff, List.append_eq_nil_iff] at waits
        rcases waits with ⟨before, isOutside, rfl, _⟩
        exact outsideWhole isOutside
  · rw [outerLast, innerLast]
    cases lastEscape first <;> cases inside <;> cases outside <;> simp

/-- A run of characters that are no backslashes is read. -/
theorem dropWhile {isKind : Char → Bool} (outside : isKind '\\' = false) (text : Text) :
    LeftOf (text.dropWhile isKind) text := by
  have plain : '\\' ∉ text.takeWhile isKind := by
    intro member
    rw [Text.mem_takeWhile _ member] at outside
    cases outside
  have left := append (whole_of_plain plain) (text.dropWhile isKind)
  rwa [List.takeWhile_append_dropWhile] at left

/-- A run of at most so many characters that are no backslashes is read. -/
theorem drop_takeWhile {isKind : Char → Bool} (outside : isKind '\\' = false) (count : Nat)
    (text : Text) : LeftOf (text.drop ((text.take count).takeWhile isKind).length) text := by
  have plain : '\\' ∉ (text.take count).takeWhile isKind := by
    intro member
    rw [Text.mem_takeWhile _ member] at outside
    cases outside
  have left := append (whole_of_plain plain)
    (text.drop ((text.take count).takeWhile isKind).length)
  rwa [List.prefix_iff_eq_append.1
    ((List.takeWhile_prefix isKind).trans (List.take_prefix count text))] at left

theorem dropSpace (text : Text) : LeftOf (Component.dropSpace text) text := by
  unfold Component.dropSpace
  split
  · split
    · rename_i white
      apply cons
      rintro rfl
      cases white
    · exact refl _
  · exact refl _

/-- An escape is read as a whole. -/
theorem readEscape (rest : Text) : LeftOf (Component.readEscape rest).2 ('\\' :: rest) := by
  by_cases noDigits : escapeDigits rest = []
  · cases rest with
    | nil => exact nil _
    | cons escaped more =>
        rw [readEscape_plain noDigits]
        exact append (whole_nil.escaped escaped) more
  · have split := escapeDigits_append_drop rest
    have plain := escapeDigits_plain rest
    rw [readEscape_code noDigits]
    cases digits : escapeDigits rest with
    | nil => exact absurd digits noDigits
    | cons first more =>
        rw [digits] at split plain
        have whole : Whole ('\\' :: first :: more) :=
          (whole_of_plain (by simp_all)).escaped first
        have behind := append whole (rest.drop (first :: more).length)
        rw [List.cons_append, split] at behind
        exact (dropSpace _).trans behind

/-- What is left of a whole text is whole. -/
theorem whole {rest text : Text} (left : LeftOf rest text) (whole : Whole text) : Whole rest := by
  by_cases empty : rest = []
  · subst empty
    exact whole_nil
  · rcases left.last empty with ⟨front, _, last⟩
    intro waits
    rw [Whole, last, waits] at whole
    exact whole rfl

/-- What is left of a text ends in a code only if the text does. -/
theorem endsInCode {rest text : Text} (left : LeftOf rest text)
    (code : Component.endsInCode rest = true) : Component.endsInCode text = true := by
  have nonempty : rest ≠ [] := by
    rintro rfl
    cases code
  rcases left.last nonempty with ⟨front, _, last⟩
  unfold Component.endsInCode at code ⊢
  cases inRest : lastEscape rest with
  | none =>
      rw [inRest] at code
      cases code
  | some behind =>
      rw [inRest] at code
      rw [last, inRest]
      exact code

/-- No escape of a text starts right in front of the end of what is left, unless one does there. -/
theorem lastEscape_ne {rest text ending : Text} (left : LeftOf rest text)
    (isEnding : ending <:+ rest) (nonempty : rest ≠ []) (noEscape : lastEscape rest ≠ some ending) :
    lastEscape text ≠ some ending := by
  rcases left.last nonempty with ⟨front, whole, last⟩
  intro escaped
  rw [last] at escaped
  cases inRest : lastEscape rest with
  | some behind =>
      rw [inRest] at escaped noEscape
      exact noEscape escaped
  | none =>
      rw [inRest] at escaped
      simp only [Option.none_or, Option.map_eq_some_iff] at escaped
      rcases escaped with ⟨before, isFront, shape⟩
      have lengths := congrArg List.length shape
      have bound := isEnding.length_le
      rw [List.length_append] at lengths
      apply whole
      rw [isFront, List.length_eq_zero_iff.1 (show before.length = 0 by omega)]

end LeftOf

/-- A character that a backslash takes along is not left alone behind the backslash. -/
theorem not_leftOf_escaped {front : Text} {last : Char} (whole : Whole front)
    (notBreak : last ≠ '\n') (notBackslash : last ≠ '\\') :
    ¬ LeftOf [last] (front ++ ['\\', last]) := by
  intro leftOf
  apply leftOf.lastEscape_ne (List.suffix_refl _) (List.cons_ne_nil _ _)
  · rw [lastEscape_cons notBackslash]
    simp [lastEscape]
  · rw [lastEscape_append whole, lastEscape_escaped notBreak]
    rfl

/-- A name is read with all its escapes. -/
theorem LeftOf.readName (text : Text) : LeftOf (Component.readName text).2 text := by
  fun_induction Component.readName text with
  | case1 => exact .nil _
  | case2 character rest stays hypothesis =>
      apply hypothesis.trans
      apply LeftOf.cons
      rintro rfl
      cases stays
  | case3 character rest stays escape shorter hypothesis =>
      simp only [Bool.and_eq_true, decide_eq_true_eq] at escape
      rcases escape with ⟨rfl, _⟩
      exact hypothesis.trans (LeftOf.readEscape rest)
  | case4 => exact .refl _

theorem readName_suffix (text : Text) : (readName text).2 <:+ text :=
  (LeftOf.readName text).suffix

end CssAuthoring.Component
