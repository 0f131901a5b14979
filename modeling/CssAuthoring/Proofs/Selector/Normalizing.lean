import CssAuthoring.Proofs.Component.Closed
import CssAuthoring.Proofs.Selector.Compound
import CssAuthoring.Proofs.Selector.RoundTrip

/-!
# What normalizing a selector keeps

Normalizing leaves the compound selectors as they are and puts the white space around separators
anew.  For a reader of style values the outcome has the same outline as the text, if that reader
leaves nothing open at the end of a compound selector that something follows, and takes nothing of
what follows into it.  There are four ways to do so.  The code of an escape takes a white space
character along, which may begin a combinator of several; two hyphens in front of an angle bracket
end a comment in markup; the letter u in front of a plus sign starts a range of character codes; and
a plus sign belongs to the number behind it.

Where the code takes all of a combinator along, it takes all of it along in the normalized form too.
For that reader the compound selectors on both sides are then one, so that what is asked of compound
selectors is asked of the two together.

White space ends a compound selector only behind a backslash.  There it belongs to an escape, or it
is a line break that the reader finds behind a lone backslash.
-/

namespace CssAuthoring.Selector

open CssAuthoring.Component (Value Front Inert GoesOn LeftOf ReadsApart Bracketed Closed
  Whole whole_nil outlined outlineFrom lexemes lastLeaf assemble uniform uniformCharacter
  startsNumber endsInCode joined dropSpace)

/-! ## White space and signs -/

/-- White space in front of a text only moves what stands in front of its outline. -/
theorem outlined_character {character : Char} (white : isSpace character = true) (text : Text)
    (front : Front) : outlined front (character :: text) = outlined front.widen text := by
  have isBreak (text : Text) (front : Front) :
      outlined front ('\n' :: text) = outlined front.widen text :=
    Component.outlined_space (Component.uniform_cons (by simp)) (by decide) front
  by_cases pair : character = '\r' ∧ text.head? = some '\n'
  · -- The two characters make one line break.
    rcases pair with ⟨rfl, starts⟩
    cases text with
    | nil => cases starts
    | cons next rest =>
        cases starts
        have same : outlined front ('\r' :: '\n' :: rest) = outlined front ('\n' :: rest) := by
          rw [outlined, outlined, Component.parse, Component.parse]
          rfl
        rw [same, isBreak, isBreak, Front.widen_widen]
  · have noPair : ∀ more, character = '\r' → text = '\n' :: more → False := by
      rintro more rfl rfl
      exact pair ⟨rfl, rfl⟩
    simp only [isSpace, Bool.or_eq_true, decide_eq_true_eq] at white
    rcases white with (((rfl | rfl) | rfl) | rfl) | rfl <;>
      exact Component.outlined_space (Component.uniform_cons noPair) (by decide) front

theorem outlined_white {space : Text} (white : White space) (text : Text) {front : Front}
    (widened : front.widen = front) : outlined front (space ++ text) = outlined front text := by
  induction space with
  | nil => rfl
  | cons character rest hypothesis =>
      have whiteRest : White rest := fun other member => white other (List.mem_cons_of_mem _ member)
      rw [List.cons_append, outlined_character (white character List.mem_cons_self), widened,
        hypothesis whiteRest]

/-- A run of white space counts once, however long it is. -/
theorem outlined_run {space : Text} (nonempty : space ≠ []) (white : White space) (text : Text)
    (front : Front) : outlined front (space ++ text) = outlined front.widen text := by
  rcases List.exists_cons_of_ne_nil nonempty with ⟨character, rest, rfl⟩
  have whiteRest : White rest := fun other member => white other (List.mem_cons_of_mem _ member)
  rw [List.cons_append, outlined_character (white character List.mem_cons_self),
    outlined_white whiteRest text (Front.widen_widen front)]

theorem outlined_nil (front : Front) : outlined front [] = .ok [] := by
  rw [outlined, Component.parse_nil]
  rfl

theorem outlined_blank {space : Text} (white : White space) (front : Front) :
    outlined front space = .ok [] := by
  by_cases empty : space = []
  · subst empty
    exact outlined_nil front
  · have run := outlined_run empty white [] front
    rwa [List.append_nil, outlined_nil] at run

/-- A sign is a separator in the outline, whatever white space stands around it. -/
theorem outlined_mark {sign : Char} {token : SelectorToken} {before after text : Text}
    (isMark : IsMark sign token) (whiteBefore : White before) (whiteAfter : White after)
    (noEquals : (after ++ text).head? ≠ some '=')
    (noNumber : sign = '+' → startsNumber (uniform (after ++ text)) = false) (front : Front) :
    outlined front (before ++ sign :: (after ++ text)) =
      (outlined .separator text).map ((.atom (.literal [sign]), false) :: ·) := by
  have isSeparator : Component.separators.contains [sign] = true := by
    cases isMark with
    | comma => decide
    | combinator isSymbol =>
        simp only [isCombinatorSymbol, Bool.or_eq_true, decide_eq_true_eq] at isSymbol
        rcases isSymbol with (rfl | rfl) | rfl <;> decide
  have behind : outlined .separator (after ++ text) = outlined .separator text :=
    outlined_white whiteAfter text rfl
  have atSign (front : Front) := Component.outlined_separator isSeparator noEquals noNumber front
  cases before with
  | nil => rw [List.nil_append, atSign, behind]
  | cons first more => rw [outlined_run (List.cons_ne_nil _ _) whiteBefore, atSign, behind]

/-- The characters that no selector begins with although other values go on with them. -/
def strangers : Text := ['=', '"', '\'']

theorem readToken_stranger {character : Char} (member : character ∈ strangers) (rest : Text) :
    readToken character rest = .error ⟨.unexpectedCharacter character, character :: rest⟩ := by
  simp only [strangers, List.mem_cons, List.not_mem_nil, or_false] at member
  rcases member with rfl | rfl | rfl <;> rfl

/-- No spelling begins with an equals sign or a quote. -/
theorem Spells.head {tokens : List SelectorToken} {text : Text} (spells : Spells tokens text) :
    ∀ character ∈ text.head?, character ∉ strangers := by
  intro character starts member
  cases text with
  | nil => cases starts
  | cons first rest =>
      cases starts
      rcases exists_of_scan spells.scan_eq with ⟨token, after, more, read, _⟩
      rw [readToken_stranger member] at read
      cases read

/-! ## Text behind a compound selector -/

theorem isSpace_uniformCharacter (character : Char) :
    Component.isSpace (Component.uniformCharacter character) = isSpace character := by
  fun_cases Component.uniformCharacter character with
  | case1 isBreak =>
      simp only [Bool.or_eq_true, decide_eq_true_eq] at isBreak
      rcases isBreak with rfl | rfl <;> rfl
  | case2 notBreak isNull =>
      subst isNull
      rfl
  | case3 notBreak notNull =>
      simp only [Bool.or_eq_true, decide_eq_true_eq, not_or] at notBreak
      simp only [Component.isSpace, isSpace, notBreak, decide_false, Bool.or_false]
      exact Bool.or_right_comm _ _ _

/-- Making a text uniform and leaving out the white space at its start commute. -/
theorem dropWhile_uniform (text : Text) :
    (uniform text).dropWhile Component.isSpace = uniform (skipSpace text) := by
  fun_induction uniform text with
  | case1 rest hypothesis => exact hypothesis
  | case2 character rest noPair hypothesis =>
      change (Component.uniformCharacter character :: uniform rest).dropWhile _ = _
      rw [List.dropWhile_cons, isSpace_uniformCharacter, skipSpace, List.dropWhile_cons]
      split
      · exact hypothesis
      · exact (Component.uniform_cons noPair).symm
  | case3 => rfl

/-- A character that starts a separator goes on with nothing in front of it. -/
theorem inert_of_startsSeparator {character : Char}
    (separates : startsSeparator character = true) :
    Component.uniformCharacter character ∈ Component.inertCharacters := by
  simp only [startsSeparator, isSpace, isCombinatorSymbol, Bool.or_eq_true,
    decide_eq_true_eq] at separates
  rcases separates with
    (((((rfl | rfl) | rfl) | rfl) | rfl) | ((rfl | rfl) | rfl)) | rfl <;> decide

/-- A separator goes on with nothing in front of it if neither a string nor a number follows it. -/
theorem inert_uniform {text : Text}
    (starts : ∀ character ∈ text.head?, startsSeparator character = true)
    (unquoted : Text.Stops Text.isQuote (skipSpace text))
    (noNumber : ∀ rest, text = '+' :: rest → startsNumber (uniform rest) = false) :
    Inert (uniform text) := by
  constructor
  · intro character member
    rw [Component.head_uniform, Option.mem_def, Option.map_eq_some_iff] at member
    rcases member with ⟨first, member, rfl⟩
    exact inert_of_startsSeparator (starts first member)
  · rw [dropWhile_uniform]
    intro character member
    rw [Bool.eq_false_iff]
    intro isQuote
    have plain : character ≠ '\n' ∧ character ≠ Component.replacement := by
      constructor <;>
      · rintro rfl
        exact absurd isQuote (by decide)
    have quoted := unquoted character (Component.head_of_uniform plain.1 plain.2 member)
    rw [isQuote] at quoted
    cases quoted
  · intro rest shape
    have plus : text.head? = some '+' :=
      Component.head_of_uniform (by decide) (by decide) (by rw [shape]; rfl)
    cases text with
    | nil => cases plus
    | cons first more =>
        cases plus
        rw [Component.uniform_cons (by simp)] at shape
        rw [← (List.cons.inj shape).2]
        exact noNumber more rfl
  · intro rest shape
    have backslash : text.head? = some '\\' :=
      Component.head_of_uniform (by decide) (by decide) (by rw [shape]; rfl)
    exact absurd (starts _ backslash) (by decide)

/-- Where a white space character is taken away from a text, less of its white space is left. -/
theorem exists_dropSpace_uniform {space text : Text} (white : White space)
    (stops : Text.Stops isSpace text) :
    ∃ less, White less ∧ dropSpace (uniform (space ++ text)) = uniform (less ++ text) := by
  induction space with
  | nil =>
      refine ⟨[], white_nil, ?_⟩
      rw [List.nil_append]
      cases text with
      | nil => rfl
      | cons character rest =>
          rw [Text.stops_cons] at stops
          have noPair : ∀ more, character = '\r' → rest = '\n' :: more → False := by
            rintro more rfl
            cases stops
          rw [Component.uniform_cons noPair, dropSpace, isSpace_uniformCharacter, stops]
          rfl
  | cons first rest hypothesis =>
      have whiteRest : White rest := fun other member => white other (List.mem_cons_of_mem _ member)
      rcases Component.uniform_cons_or first (rest ++ text) with same | ⟨_, same, _⟩
      · refine ⟨rest, whiteRest, ?_⟩
        rw [List.cons_append, same, dropSpace, isSpace_uniformCharacter,
          white first List.mem_cons_self]
        rfl
      · -- The two characters make one line break, so that the second one is taken.
        rcases hypothesis whiteRest with ⟨less, whiteLess, sameRest⟩
        refine ⟨less, whiteLess, ?_⟩
        rw [List.cons_append, same, sameRest]

/-- How a text goes on behind a compound selector: it loses white space at most, and to a code. -/
theorem exists_of_goesOn {compound space text : Text} {left : Text → Text}
    (goesOn : GoesOn compound left) (white : White space) (stops : Text.Stops isSpace text) :
    ∃ less, White less ∧ left (uniform (space ++ text)) = uniform (less ++ text) := by
  cases goesOn with
  | apart same => exact ⟨space, white, same _⟩
  | swallowing _ drops =>
      rw [drops]
      exact exists_dropSpace_uniform white stops

/-- White space that counts as one character is taken along as a whole. -/
theorem dropSpace_of_isSingleSpace {space text : Text} (single : isSingleSpace space = true)
    (stops : Text.Stops isSpace text) : dropSpace (uniform (space ++ text)) = uniform text := by
  rw [isSingleSpace, Bool.and_eq_true, decide_eq_true_eq, List.length_eq_one_iff] at single
  rcases single with ⟨white, character, one⟩
  have noPair : text.head? = some '\n' → space.getLast? ≠ some '\r' :=
    fun isBreak => absurd (stops _ isBreak) (by decide)
  have isWhite : Component.isSpace character = true := by
    have first := Component.head_uniform space
    rw [one, List.head?_cons, eq_comm, Option.map_eq_some_iff] at first
    rcases first with ⟨first, member, rfl⟩
    rw [isSpace_uniformCharacter]
    exact List.all_eq_true.1 white first (List.mem_of_mem_head? member)
  rw [Component.uniform_append space noPair, one, List.singleton_append, dropSpace, if_pos isWhite]

/-- What starts a separator is no quote. -/
theorem unquoted_of_separates {text : Text}
    (separates : ∀ character ∈ text.head?, startsSeparator character = true) :
    Text.Stops Text.isQuote text := by
  intro character member
  rw [Bool.eq_false_iff]
  intro isQuote
  simp only [Text.isQuote, Bool.or_eq_true, decide_eq_true_eq] at isQuote
  rcases isQuote with rfl | rfl <;> exact absurd (separates _ member) (by decide)

/-- White space with a sign or nothing behind it goes on with nothing in front of it. -/
theorem inert_separator {space text : Text} (white : White space)
    (separates : ∀ character ∈ text.head?, startsSeparator character = true)
    (stops : Text.Stops isSpace text)
    (noNumber : ∀ rest, text = '+' :: rest → startsNumber (uniform rest) = false) :
    Inert (uniform (space ++ text)) := by
  have skipped : skipSpace (space ++ text) = text := skipSpace_run white stops
  cases space with
  | nil =>
      refine inert_uniform separates ?_ noNumber
      rw [skipped]
      exact unquoted_of_separates separates
  | cons first rest =>
      have whiteFirst := white first List.mem_cons_self
      apply inert_uniform
      · intro character member
        cases member
        exact startsSeparator_of_isSpace whiteFirst
      · rw [skipped]
        exact unquoted_of_separates separates
      · intro more shape
        rw [(List.cons.inj shape).1] at whiteFirst
        cases whiteFirst

/-- A separator may stand behind any text. -/
theorem follows_separator (compound : Text) {space text : Text} (white : White space)
    (separates : ∀ character ∈ text.head?, startsSeparator character = true)
    (stops : Text.Stops isSpace text)
    (noNumber : ∀ rest, text = '+' :: rest → startsNumber (uniform rest) = false) :
    Component.Follows compound (uniform (space ++ text)) := by
  constructor
  · exact inert_separator white separates stops noNumber
  · intro _
    rcases exists_dropSpace_uniform white stops with ⟨less, whiteLess, same⟩
    rw [same]
    exact inert_separator whiteLess separates stops noNumber

/-! ## The values of a compound selector -/

/-- Where white space is read last, it ends in the last character, outside of escapes. -/
theorem exists_last_of_lastLeaf {text : Text} {found : List Component.Lexeme} {run : Text}
    (read : lexemes (uniform text) = .ok found)
    (isLast : lastLeaf found = some (.whitespace run)) :
    ∃ white, text.getLast? = some white ∧ isSpace white = true ∧
      LeftOf [uniformCharacter white] (uniform text) := by
  rcases Component.exists_leftOf_of_lastLeaf read isLast with ⟨white, isWhite, leftOf⟩
  rcases leftOf.suffix with ⟨before, shape⟩
  have last : (uniform text).getLast? = some white := by
    rw [← shape, List.getLast?_concat]
  rw [Component.getLast?_uniform, Option.map_eq_some_iff] at last
  rcases last with ⟨last, member, rfl⟩
  rw [isSpace_uniformCharacter] at isWhite
  exact ⟨last, member, isWhite, leftOf⟩

/--
The outline of a text goes on behind a compound selector as that of another text: what is left of
what follows, if that may stand behind the compound selector and makes no lexeme with the last one.
-/
def OutlinesOn (compound : Text) (values : List Value) : Prop :=
  ∃ left, GoesOn (uniform compound) left ∧ ∀ follow rest,
    Component.Follows (uniform compound) (uniform follow) →
    joined (uniform compound) (values.getLast?.bind Value.leaf?) (uniform follow) = false →
    uniform rest = left (uniform follow) → ∀ front,
      outlined front (compound ++ follow) =
        (outlined (values.foldl Front.next front) rest).map (outlineFrom front values ++ ·)

theorem outlinesOn_of_readsApart {compound : Text} {found : List Component.Lexeme}
    (readsApart : ReadsApart (uniform compound) found) (bracketed : Bracketed found)
    (noSpace : ∀ run, lastLeaf found ≠ some (.whitespace run))
    (noReturn : compound.getLast? ≠ some '\r') : OutlinesOn compound (assemble [] [] found) := by
  rcases readsApart.exists_goesOn with ⟨left, goesOn, same⟩
  refine ⟨left, goesOn, fun follow rest follows noWord shape front => ?_⟩
  have parted : Component.Parted (uniform compound) (lastLeaf found) (uniform follow) := by
    refine ⟨follows.inert, ?_, fun run isLast => absurd isLast (noSpace run)⟩
    cases isLast : lastLeaf found with
    | none => rfl
    | some leaf =>
        rw [bracketed.getLast? isLast] at noWord
        exact noWord
  refine Component.outlined_append ?_ bracketed.assemble_append front
  rw [Component.uniform_append compound fun _ => noReturn, same _ follows parted, shape]

theorem outlinesOn_break {front : Text} {last : Char} {found : List Component.Lexeme}
    (readsApart : ReadsApart (uniform front) found) (bracketed : Bracketed found)
    (isBreak : uniformCharacter last = '\n') :
    OutlinesOn (front ++ ['\\', last])
      (assemble [] [] found ++ [.atom (.literal ['\\'])] ++ [.atom (.whitespace ['\n'])]) := by
  refine ⟨_, .apart fun _ => rfl, fun follow rest _ _ shape start => ?_⟩
  have white : isSpace last = true := by
    rw [← isSpace_uniformCharacter, isBreak]
    rfl
  have same (start : Front) : outlined start follow = outlined start rest := by
    rw [outlined, outlined, Component.parse, Component.parse, shape]
  have assoc : front ++ ['\\', last] ++ follow = front ++ '\\' :: last :: follow := by simp
  rw [assoc, Component.outlined_break readsApart bracketed isBreak, outlined_character white, same]
  -- The line break is white space, so that it has no part of its own in the outline.
  have none (start : Front) : outlineFrom start [.atom (.whitespace ['\n'])] = [] := rfl
  generalize assemble [] [] found ++ [Value.atom (.literal ['\\'])] = seen
  rw [Component.outlineFrom_append, none, List.append_nil, List.foldl_append]
  rfl

/-- What is tight and closed has its outline in front of what follows it. -/
theorem Tight.outlinesOn {compound : Text} {values : List Value} (tight : Tight compound)
    (closed : Closed compound values) : OutlinesOn compound values := by
  cases tight with
  | solid whole solid =>
      rcases closed.exists_readsApart whole with ⟨found, readsApart, bracketed, rfl⟩
      apply outlinesOn_of_readsApart readsApart bracketed
      · intro run isLast
        rcases exists_last_of_lastLeaf readsApart.read isLast with ⟨white, member, isWhite, _⟩
        rw [solid white member] at isWhite
        cases isWhite
      · intro isReturn
        exact absurd (solid _ isReturn) (by decide)
  | @escaped front white whole isWhite =>
      by_cases isBreak : uniformCharacter white = '\n'
      · rcases closed.exists_readsApart_break whole isBreak with
          ⟨found, readsApart, bracketed, rfl⟩
        exact outlinesOn_break readsApart bracketed isBreak
      · rcases closed.exists_readsApart (whole.append (whole_nil.escaped white)) with
          ⟨found, readsApart, bracketed, rfl⟩
        have same : uniform (front ++ ['\\', white]) =
            uniform front ++ ['\\', uniformCharacter white] := by
          rw [Component.uniform_append front (by simp), Component.uniform_cons (by simp),
            Component.uniform_cons (by simp)]
          rfl
        apply outlinesOn_of_readsApart readsApart bracketed
        · intro run isLast
          rcases exists_last_of_lastLeaf readsApart.read isLast with ⟨last, member, _, leftOf⟩
          rw [List.getLast?_append] at member
          cases member
          rw [same] at leftOf
          refine Component.not_leftOf_escaped whole.uniform isBreak ?_ leftOf
          rintro isBackslash
          rw [← isSpace_uniformCharacter, isBackslash] at isWhite
          cases isWhite
        · rw [List.getLast?_append]
          rintro ⟨⟩
          exact isBreak rfl

/-- White space with no quote behind it goes on with nothing in front of it. -/
theorem inert_space {space text : Text} (nonempty : space ≠ []) (white : White space)
    (stops : Text.Stops isSpace text) (unquoted : Text.Stops Text.isQuote text) :
    Inert (uniform (space ++ text)) := by
  have skipped := skipSpace_run white stops
  rcases List.exists_cons_of_ne_nil nonempty with ⟨first, rest, rfl⟩
  have whiteFirst := white first List.mem_cons_self
  apply inert_uniform
  · intro character member
    cases member
    exact startsSeparator_of_isSpace whiteFirst
  · rwa [skipped]
  · intro more shape
    rw [(List.cons.inj shape).1] at whiteFirst
    cases whiteFirst

/-- Behind a compound selector that ends in a code, any white space character may stand for one. -/
theorem outlined_singleSpace {compound : Text} {values : List Value}
    (closed : Closed compound values) (whole : Whole compound)
    (code : endsInCode (uniform compound) = true) {space text : Text}
    (single : isSingleSpace space = true) (stops : Text.Stops isSpace text)
    (unquoted : Text.Stops Text.isQuote text) (front : Front) :
    outlined front (compound ++ (space ++ text)) =
      outlined front (compound ++ ([' '] ++ text)) := by
  rcases closed.exists_readsApart whole with ⟨found, readsApart, bracketed, rfl⟩
  rcases Component.exists_digit_of_endsInCode code with ⟨digit, isLast, isDigit⟩
  rw [Component.getLast?_uniform] at isLast
  have noReturn : compound.getLast? ≠ some '\r' := by
    intro isReturn
    rw [isReturn, Option.map_some, Option.some_inj] at isLast
    rw [← isLast] at isDigit
    cases isDigit
  -- A digit stands last, and no white space.
  have noSpace (run : Text) : lastLeaf found ≠ some (.whitespace run) := by
    intro isRun
    rcases exists_last_of_lastLeaf readsApart.read isRun with ⟨white, member, isWhite, _⟩
    rw [member, Option.map_some, Option.some_inj] at isLast
    rw [← isSpace_uniformCharacter, isLast] at isWhite
    simp only [Component.isSpace, Bool.or_eq_true, decide_eq_true_eq] at isWhite
    rcases isWhite with (rfl | rfl) | rfl <;> cases isDigit
  have behind (space : Text) (single : isSingleSpace space = true) :
      Component.Parted (uniform compound) (lastLeaf found) (uniform (space ++ text)) ∧
        uniform (compound ++ (space ++ text)) = uniform compound ++ uniform (space ++ text) ∧
          ∀ start, outlined start (space ++ text) = outlined start.widen text := by
    have white : White space := List.all_eq_true.1 (Bool.and_eq_true_iff.1 single).1
    have nonempty : space ≠ [] := by
      rintro rfl
      cases single
    refine ⟨⟨inert_space nonempty white stops unquoted, ?_, fun run => (absurd · (noSpace run))⟩,
      Component.uniform_append compound fun _ => noReturn, outlined_run nonempty white text⟩
    apply Component.joined_of_plain
    intro character member
    rcases List.exists_cons_of_ne_nil nonempty with ⟨first, rest, rfl⟩
    rw [Component.head_uniform, List.cons_append, List.head?_cons, Option.map_some] at member
    cases member
    have isWhite := white first List.mem_cons_self
    rw [← isSpace_uniformCharacter] at isWhite
    constructor <;>
    · intro isSign
      rw [isSign] at isWhite
      cases isWhite
  have isSpace : isSingleSpace [' '] = true := by decide
  rcases behind space single with ⟨parted, shape, run⟩
  rcases behind [' '] isSpace with ⟨partedSpace, shapeSpace, runSpace⟩
  have same := (dropSpace_of_isSingleSpace single stops).trans
    (dropSpace_of_isSingleSpace isSpace stops).symm
  rcases readsApart.lexemes_congr parted partedSpace same with swallowed | ⟨apart, apartSpace⟩
  · rw [outlined, outlined, Component.parse, Component.parse, shape, shapeSpace, swallowed]
  · rw [← shape] at apart
    rw [← shapeSpace] at apartSpace
    rw [Component.outlined_append apart bracketed.assemble_append, run,
      Component.outlined_append apartSpace bracketed.assemble_append, runSpace]

/-! ## Compound selectors and what follows them -/

/--
A compound selector with the given values takes nothing of what follows it, and what follows it
begins with no number.  A code may take white space along only if a sign stands behind it or
nothing, or if it takes all of it along, and a word must not make one lexeme with a sign.
-/
structure EndsBefore (compound follow : Text) (values : List Value) : Prop where
  noCode : endsInCode (uniform compound) = true →
    (∀ character ∈ (skipSpace follow).head?, startsSeparator character = true) ∨
      isSingleSpace (follow.takeWhile isSpace) = true
  noWord : joined (uniform compound) (values.getLast?.bind Value.leaf?) (uniform follow) = false
  noNumber : (skipSpace follow).head? = some '+' →
    startsNumber (uniform (skipSpace follow).tail) = false

section

variable {compound : Text} {values : List Value}

/-- White space with a sign or nothing behind it follows the values of a compound selector. -/
theorem OutlinesOn.exists_outlined_append (outlinesOn : OutlinesOn compound values)
    {space text : Text} (ends : EndsBefore compound (space ++ text) values)
    (white : White space) (separates : ∀ character ∈ text.head?, startsSeparator character = true)
    (stops : Text.Stops isSpace text) :
    ∃ less, White less ∧ ∀ front, outlined front (compound ++ (space ++ text)) =
      (outlined (values.foldl Front.next front) (less ++ text)).map
        (outlineFrom front values ++ ·) := by
  have noNumber : ∀ rest, text = '+' :: rest → startsNumber (uniform rest) = false := by
    rintro rest rfl
    have noNumber := ends.noNumber
    rw [skipSpace_run white stops] at noNumber
    exact noNumber rfl
  rcases outlinesOn with ⟨left, goesOn, same⟩
  rcases exists_of_goesOn goesOn white stops with ⟨less, whiteLess, behind⟩
  have follows := follows_separator (uniform compound) white separates stops noNumber
  exact ⟨less, whiteLess, same _ _ follows ends.noWord behind.symm⟩

/-- Nothing follows a compound selector but white space. -/
theorem OutlinesOn.outlined_end (outlinesOn : OutlinesOn compound values) {space : Text}
    (ends : EndsBefore compound space values) (white : White space) (front : Front) :
    outlined front (compound ++ space) = .ok (outlineFrom front values) := by
  have behind : space = space ++ [] := (List.append_nil space).symm
  rw [behind] at ends ⊢
  rcases outlinesOn.exists_outlined_append ends white (by simp) (Text.stops_nil _) with
    ⟨less, whiteLess, same⟩
  rw [same, List.append_nil, outlined_blank whiteLess]
  simp [Except.map]

/-- A sign follows a compound selector, with any white space around it. -/
theorem OutlinesOn.outlined_mark (outlinesOn : OutlinesOn compound values) {sign : Char}
    {token : SelectorToken} (isMark : IsMark sign token) {before after text : Text}
    (whiteBefore : White before) (whiteAfter : White after)
    (ends : EndsBefore compound (before ++ sign :: (after ++ text)) values)
    (noEquals : (after ++ text).head? ≠ some '=') (front : Front) :
    outlined front (compound ++ (before ++ sign :: (after ++ text))) =
      (outlined .separator text).map fun behind =>
        outlineFrom front values ++ (.atom (.literal [sign]), false) :: behind := by
  have stops : Text.Stops isSpace (sign :: (after ++ text)) :=
    (Text.stops_cons _ _ _).2 isMark.not_isSpace
  have separates : ∀ character ∈ (sign :: (after ++ text)).head?,
      startsSeparator character = true := by
    intro character member
    cases member
    exact isMark.separates
  have noNumber : sign = '+' → startsNumber (uniform (after ++ text)) = false := by
    rintro rfl
    have noNumber := ends.noNumber
    rw [skipSpace_run whiteBefore stops] at noNumber
    exact noNumber rfl
  rcases outlinesOn.exists_outlined_append ends whiteBefore separates stops with
    ⟨less, whiteLess, same⟩
  rw [same, Selector.outlined_mark isMark whiteLess whiteAfter noEquals noNumber]
  cases outlined .separator text <;> rfl

/-- In front of another compound selector a code takes all white space along. -/
theorem EndsBefore.isSingleSpace {space text : Text}
    (ends : EndsBefore compound (space ++ text) values) (white : White space)
    (stops : Text.Stops startsSeparator text) (filled : text ≠ [])
    (code : endsInCode (uniform compound) = true) : isSingleSpace space = true := by
  have stopsSpace := stops.of_imp fun _ => startsSeparator_of_isSpace
  rcases ends.noCode code with separates | single
  · rw [skipSpace_run white stopsSpace] at separates
    rcases List.exists_cons_of_ne_nil filled with ⟨first, rest, rfl⟩
    rw [Text.stops_cons, separates first rfl] at stops
    cases stops
  · rwa [Text.takeWhile_run white stopsSpace] at single

/-- Another compound selector follows a compound selector behind white space. -/
theorem OutlinesOn.outlined_descendant (outlinesOn : OutlinesOn compound values)
    {space text : Text} (ends : EndsBefore compound (space ++ text) values)
    (noCode : endsInCode (uniform compound) = false) (nonempty : space ≠ []) (white : White space)
    (stops : Text.Stops startsSeparator text) (unquoted : Text.Stops Text.isQuote text)
    (front : Front) :
    outlined front (compound ++ (space ++ text)) =
      (outlined (values.foldl Front.next front).widen text).map
        (outlineFrom front values ++ ·) := by
  have stopsSpace := stops.of_imp fun _ => startsSeparator_of_isSpace
  have follows : Component.Follows (uniform compound) (uniform (space ++ text)) :=
    ⟨inert_space nonempty white stopsSpace unquoted, fun code => absurd code (by simp [noCode])⟩
  rcases outlinesOn with ⟨left, goesOn, same⟩
  cases goesOn with
  | swallowing code => exact absurd code (by simp [noCode])
  | apart sameLeft =>
      have behind : uniform (space ++ text) = left (uniform (space ++ text)) := (sameLeft _).symm
      rw [same _ _ follows ends.noWord behind, outlined_run nonempty white]

/-- Text that begins with a space or a comma takes nothing out of a compound selector. -/
theorem endsBefore_of_plain {follow : Text}
    (plain : ∀ first ∈ follow.head?, first = ' ' ∨ first = ',')
    (noCode : endsInCode (uniform compound) = true →
      (∀ character ∈ (skipSpace follow).head?, startsSeparator character = true) ∨
        isSingleSpace (follow.takeWhile isSpace) = true)
    (noNumber : (skipSpace follow).head? = some '+' →
      startsNumber (uniform (skipSpace follow).tail) = false) :
    EndsBefore compound follow values := by
  refine ⟨noCode, Component.joined_of_plain fun character member => ?_, noNumber⟩
  rw [Component.head_uniform, Option.mem_def, Option.map_eq_some_iff] at member
  rcases member with ⟨first, member, rfl⟩
  rcases plain first member with rfl | rfl <;> decide

end

/-! ## Outlines of spelled and written selectors -/

theorem endsBefore_nil {compound : Text} {values : List Value} : EndsBefore compound [] values := by
  apply endsBefore_of_plain <;> simp [skipSpace]

/-- A sign as it is written takes nothing out of a compound selector. -/
theorem endsBefore_mark {compound : Text} {values : List Value} {sign : Char}
    {token : SelectorToken} (isMark : IsMark sign token) (text : Text) :
    EndsBefore compound (spaced token ++ text) values := by
  cases isMark with
  | comma =>
      apply endsBefore_of_plain
      · rintro first ⟨⟩
        exact .inr rfl
      · rintro _
        left
        rintro character ⟨⟩
        rfl
      · rintro ⟨⟩
  | combinator isSymbol =>
      simp only [isCombinatorSymbol, Bool.or_eq_true, decide_eq_true_eq] at isSymbol
      rcases isSymbol with (rfl | rfl) | rfl <;>
      · apply endsBefore_of_plain
        · rintro first ⟨⟩
          exact .inl rfl
        · rintro _
          left
          rintro character ⟨⟩
          rfl
        · exact fun _ => rfl

/-- A space takes nothing out of a compound selector. -/
theorem endsBefore_descendant {compound : Text} {values : List Value} {text : Text}
    (stops : Text.Stops startsSeparator text) : EndsBefore compound ([' '] ++ text) values := by
  have stopsSpace := stops.of_imp fun _ => startsSeparator_of_isSpace
  have skipped : skipSpace ([' '] ++ text) = text := skipSpace_run white_space stopsSpace
  apply endsBefore_of_plain
  · rintro first ⟨⟩
    exact .inl rfl
  · intro _
    right
    rw [Text.takeWhile_run white_space stopsSpace]
    decide
  · intro starts
    rw [skipped] at starts
    exact absurd (stops _ starts) (by decide)

/-- No spelling begins with a quote. -/
theorem Spells.unquoted {tokens : List SelectorToken} {text : Text} (spells : Spells tokens text) :
    Text.Stops Text.isQuote text := by
  intro character member
  rw [Bool.eq_false_iff]
  intro isQuote
  apply spells.head character member
  simp only [Text.isQuote, Bool.or_eq_true, decide_eq_true_eq] at isQuote
  rcases isQuote with rfl | rfl <;> decide

/-- Nothing begins with an equals sign behind a separator. -/
theorem Spells.noEquals {tokens : List SelectorToken} {text after back : Text}
    (spells : Spells tokens text) (whiteAfter : White after) (whiteBack : White back) :
    (after ++ (text ++ back)).head? ≠ some '=' := by
  have notWhite : isSpace '=' = false := rfl
  have inside (space : Text) (white : White space) : space.head? ≠ some '=' := by
    intro starts
    rw [white '=' (List.mem_of_mem_head? starts)] at notWhite
    cases notWhite
  intro starts
  rw [List.head?_append, List.head?_append] at starts
  rcases Option.or_eq_some_iff.1 starts with atAfter | ⟨_, starts⟩
  · exact inside after whiteAfter atAfter
  rcases Option.or_eq_some_iff.1 starts with atText | ⟨_, atBack⟩
  · exact spells.head '=' atText (by decide)
  · exact inside back whiteBack atBack

section

variable {compound : Text} {values : List Value} {tokens : List SelectorToken}

/-- White space at the end may be written as other white space. -/
theorem OutlinesOn.outlined_white (outlinesOn : OutlinesOn compound values) {space other : Text}
    (ends : EndsBefore compound space values) (white : White space)
    (endsAgain : EndsBefore compound other values) (whiteAgain : White other) (front : Front) :
    outlined front (compound ++ space) = outlined front (compound ++ other) := by
  rw [outlinesOn.outlined_end ends white, outlinesOn.outlined_end endsAgain whiteAgain]

/-- A sign with any white space around it may be written with its own. -/
theorem OutlinesOn.outlined_render_mark (outlinesOn : OutlinesOn compound values) {sign : Char}
    {token : SelectorToken} (isMark : IsMark sign token) {before after text : Text}
    (whiteBefore : White before) (whiteAfter : White after)
    (ends : EndsBefore compound (before ++ sign :: (after ++ text)) values)
    (noEquals : (after ++ text).head? ≠ some '=')
    (same : outlined .separator text = outlined .separator (render tokens)) (front : Front) :
    outlined front (compound ++ (before ++ sign :: (after ++ text))) =
      outlined front (compound ++ render (token :: tokens)) := by
  rcases exists_spaced_mark isMark with ⟨space, whiteSpace, shape⟩
  have written : render (token :: tokens) = space ++ sign :: ([' '] ++ render tokens) := by
    rw [render_cons, shape]
    simp
  have endsAgain : EndsBefore compound (render (token :: tokens)) values := by
    rw [render_cons]
    exact endsBefore_mark isMark _
  rw [written] at endsAgain ⊢
  rw [outlinesOn.outlined_mark isMark whiteBefore whiteAfter ends noEquals, same,
    outlinesOn.outlined_mark isMark whiteSpace white_space endsAgain (by simp)]

/-- White space in front of another compound selector may be written as a space. -/
theorem OutlinesOn.outlined_render_descendant (outlinesOn : OutlinesOn compound values)
    {space text back : Text} (ends : EndsBefore compound (space ++ (text ++ back)) values)
    (noCode : endsInCode (uniform compound) = false) (nonempty : space ≠ [])
    (white : White space) (stops : Text.Stops startsSeparator text)
    (filled : text ≠ []) (spells : Spells tokens text)
    (same : ∀ front, outlined front (text ++ back) = outlined front (render tokens))
    (front : Front) :
    outlined front (compound ++ (space ++ (text ++ back))) =
      outlined front (compound ++ ([' '] ++ render tokens)) := by
  have stopsBehind : Text.Stops startsSeparator (text ++ back) :=
    (Text.stops_append filled back).2 stops
  have stopsAgain := spells.noSeparator_render stops
  rw [outlinesOn.outlined_descendant ends noCode nonempty white stopsBehind
      ((Text.stops_append filled back).2 spells.unquoted), same,
    outlinesOn.outlined_descendant (endsBefore_descendant stopsAgain) noCode (by simp) white_space
      stopsAgain spells.render.unquoted]

end

/--
What of a compound selector stands before a text: all that ends there, or something inside of it
that tears no escape apart.
-/
inductive Begins (compound text : Text) : Prop where
  | ends (tight : Tight compound) : Begins compound text
  | inside (whole : Whole compound) (filled : text ≠ [])
      (stops : Text.Stops startsSeparator text) : Begins compound text

theorem Begins.whole {compound text : Text} (begins : Begins compound text) : Whole compound := by
  cases begins with
  | ends tight => exact tight.whole
  | inside whole => exact whole

/-- In front of a separator or nothing a compound selector ends. -/
theorem Begins.tight {compound text : Text} (begins : Begins compound text)
    (separates : ∀ character ∈ text.head?, startsSeparator character = true) : Tight compound := by
  cases begins with
  | ends tight => exact tight
  | inside whole filled stops =>
      rcases List.exists_cons_of_ne_nil filled with ⟨first, rest, rfl⟩
      rw [Text.stops_cons, separates first rfl] at stops
      cases stops

/--
A text that spells tokens has the outline of their written form, where no compound selector leaves
anything open or takes anything of what follows it.  The first compound selector may begin before
the text.
-/
theorem Spells.outlined_render {tokens : List SelectorToken} {text : Text}
    (spells : Spells tokens text) {compound back : Text} (begins : Begins compound text)
    (whiteBack : White back)
    (closed : ∀ pair ∈ compounds compound text, pair.2 ++ back ≠ [] →
      ∃ values, Closed pair.1 values ∧ EndsBefore pair.1 (pair.2 ++ back) values)
    (front : Front) :
    outlined front (compound ++ (text ++ back)) =
      outlined front (compound ++ Selector.render tokens) := by
  induction spells generalizing compound front with
  | nil =>
      by_cases empty : back = []
      · subst empty
        rfl
      · have member : (compound, []) ∈ compounds compound [] := by
          rw [compounds_nil]
          exact List.mem_singleton_self _
        rcases closed _ member empty with ⟨values, closed, ends⟩
        exact ((begins.tight nofun).outlinesOn closed).outlined_white ends whiteBack endsBefore_nil
          white_nil front
  | @simple part source text tokens simple settled stops spells hypothesis =>
      rw [compounds_simple simple settled stops] at closed
      have tight := simple.tight.of_whole begins.whole (simple.ne_nil settled)
      have same := hypothesis (.ends tight) closed front
      rw [render_cons, spaced_simple simple]
      simpa [List.append_assoc] using same
  | @mark sign token before after text tokens isMark whiteBefore whiteAfter stops spells
      hypothesis =>
      rw [compounds_mark isMark whiteBefore whiteAfter stops] at closed
      have same := hypothesis (.ends tight_nil) (fun pair member =>
        closed pair (List.mem_cons_of_mem _ member)) .separator
      rcases closed _ List.mem_cons_self (by simp) with ⟨values, closed, ends⟩
      have tight : Tight compound := begins.tight fun character member => by
        rcases isMark.head whiteBefore (after ++ text) with ⟨first, rest, shape, separates⟩
        rw [shape] at member
        cases member
        exact separates
      have assoc : before ++ sign :: (after ++ text) ++ back =
          before ++ sign :: (after ++ (text ++ back)) := by simp
      rw [assoc] at ends ⊢
      exact (tight.outlinesOn closed).outlined_render_mark isMark whiteBefore whiteAfter ends
        (spells.noEquals whiteAfter whiteBack) same front
  | @descendant space text tokens nonempty white stops spells hypothesis =>
      rw [compounds_descendant nonempty white stops] at closed
      have tight : Tight compound := begins.tight fun character member => by
        rcases white.head nonempty text with ⟨first, rest, shape, separates⟩
        rw [shape] at member
        cases member
        exact separates
      have behind := fun pair member => closed pair (List.mem_cons_of_mem _ member)
      rcases closed _ List.mem_cons_self (by simp [nonempty]) with ⟨values, closed, ends⟩
      rw [List.append_assoc] at ends ⊢
      rw [render_cons, spaced_descendant]
      by_cases filled : text = []
      · -- The combinator is the last token, and there is nothing but white space behind it.
        subst filled
        have none : tokens = [] := by
          cases tokens with
          | nil => rfl
          | cons token tokens => exact absurd rfl spells.ne_nil
        subst none
        exact (tight.outlinesOn closed).outlined_white ends (white.append whiteBack)
          (endsBefore_descendant (Text.stops_nil _)) white_space front
      cases code : endsInCode (uniform compound) with
      | false =>
          rw [begun, code, Bool.false_and, if_neg Bool.false_ne_true] at behind
          exact (tight.outlinesOn closed).outlined_render_descendant ends code nonempty white stops
            filled spells (hypothesis (.ends tight_nil) behind) front
      | true =>
          -- The code takes the white space along, so that the next compound selector goes on here.
          have stopsBehind := (Text.stops_append filled back).2 stops
          have single := ends.isSingleSpace white stopsBehind (by simp [filled]) code
          rw [begun, code, single, Bool.and_self, if_pos rfl] at behind
          have plain : '\\' ∉ space := fun member => absurd (white _ member) (by decide)
          have whole := tight.whole.append (Component.whole_of_plain plain)
          have same := hypothesis (.inside whole filled stops) behind front
          rw [List.append_assoc, List.append_assoc] at same
          rw [same]
          have stopsAgain := (spells.noSeparator_render stops).of_imp
            fun _ => startsSeparator_of_isSpace
          exact outlined_singleSpace closed tight.whole code single stopsAgain
            spells.render.unquoted front

/-! ## Outlines of normalized selectors -/

/--
The white space at the ends of a selector, if that is all that is trimmed off, and the conditions
under which its compound selectors are read in it as they are by themselves.
-/
structure Legible (selector : Text) (front back : Text) : Prop where
  whole : selector = front ++ (Text.trim selector ++ back)
  whiteFront : White front
  whiteBack : White back
  closed : ∀ pair ∈ compounds [] (Text.trim selector), pair.2 ++ back ≠ [] →
    ∃ values, Closed pair.1 values ∧ EndsBefore pair.1 (pair.2 ++ back) values

/--
A selector and its normalized form have the same values in the same order, and white space between
the same neighbours where white space counts.
-/
theorem outline_normalize {selector front back normalized : Text}
    (legible : Legible selector front back) (accepted : normalize selector = .ok normalized) :
    (Component.parse selector).map Component.outline =
      (Component.parse normalized).map Component.outline := by
  cases scanned : tokenize selector with
  | error error =>
      rw [normalize, scanned] at accepted
      cases accepted
  | ok tokens =>
      rw [normalize, scanned] at accepted
      cases accepted
      have spells := tokenize_eq_ok_iff.1 scanned
      calc outlined .separator selector
          = outlined .separator (front ++ (Text.trim selector ++ back)) := by
            rw [← legible.whole]
        _ = outlined .separator (Text.trim selector ++ back) :=
            outlined_white legible.whiteFront _ rfl
        _ = outlined .separator (render tokens) :=
            spells.outlined_render (.ends tight_nil) legible.whiteBack legible.closed .separator

/--
Three compound selectors with escapes, one of them a code in front of white space, with an argument,
and with white space of several kinds between and around them.
-/
theorem outline_normalize_spaced :
    Legible "\tul.a\\:\\62 >li:not(.c,\n.d) \r\n p " "\t" " " ∧
      normalize "\tul.a\\:\\62 >li:not(.c,\n.d) \r\n p " =
        .ok "ul.a\\:\\62 > li:not(.c,\n.d) p" ∧
        (Component.parse "\tul.a\\:\\62 >li:not(.c,\n.d) \r\n p ").map Component.outline =
          (Component.parse "ul.a\\:\\62 > li:not(.c,\n.d) p").map Component.outline := by
  have pieces : compounds [] (Text.trim "\tul.a\\:\\62 >li:not(.c,\n.d) \r\n p ") =
      [("ul.a\\:\\62".toList, " >li:not(.c,\n.d) \r\n p".toList),
        ("li:not(.c,\n.d)".toList, " \r\n p".toList), ("p".toList, [])] := by
    with_unfolding_all rfl
  have list : Closed "ul.a\\:\\62"
      [.atom (.identifier "ul"), .atom (.literal "."), .atom (.identifier "a:b")] :=
    ⟨by with_unfolding_all rfl, by with_unfolding_all rfl⟩
  have item : Closed "li:not(.c,\n.d)"
      [.atom (.identifier "li"), .atom (.literal ":"), .function "not"
        [.atom (.literal "."), .atom (.identifier "c"), .atom (.literal ","),
          .atom (.whitespace "\n"), .atom (.literal "."), .atom (.identifier "d")]] :=
    ⟨by with_unfolding_all rfl, by with_unfolding_all rfl⟩
  have paragraph : Closed "p" [.atom (.identifier "p")] :=
    ⟨by with_unfolding_all rfl, by with_unfolding_all rfl⟩
  have legible : Legible "\tul.a\\:\\62 >li:not(.c,\n.d) \r\n p " "\t" " " := by
    constructor
    · decide +kernel
    · exact List.all_eq_true.1 (by decide)
    · exact List.all_eq_true.1 (by decide)
    · intro pair member _
      rw [pieces] at member
      simp only [List.mem_cons, List.not_mem_nil, or_false] at member
      rcases member with rfl | rfl | rfl
      · exact ⟨_, list, fun _ => .inl ((Option.all_eq_true _ _).1 (by decide +kernel)),
          by decide +kernel, by decide +kernel⟩
      · exact ⟨_, item, fun code => absurd code (by decide +kernel),
          by decide +kernel, by decide +kernel⟩
      · exact ⟨_, paragraph, fun code => absurd code (by decide +kernel),
          by decide +kernel, by decide +kernel⟩
  have accepted : normalize "\tul.a\\:\\62 >li:not(.c,\n.d) \r\n p " =
      .ok "ul.a\\:\\62 > li:not(.c,\n.d) p" := by
    with_unfolding_all rfl
  exact ⟨legible, accepted, outline_normalize legible accepted⟩

/--
A name that is a single letter u stands alone in the normalized form only: directly in front of a
plus sign and a hexadecimal digit it starts a range of character codes.
-/
theorem outline_normalize_range :
    normalize "u+a" = .ok "u + a" ∧
      (Component.parse "u+a").map Component.outline ≠
        (Component.parse "u + a").map Component.outline := by
  have range : Component.parse "u+a" = .ok [.atom (.unicodeRange 10 10)] := by
    with_unfolding_all rfl
  have apart : Component.parse "u + a" =
      .ok [.atom (.identifier "u"), .atom (.whitespace " "), .atom (.literal "+"),
        .atom (.whitespace " "), .atom (.identifier "a")] := by
    with_unfolding_all rfl
  refine ⟨by with_unfolding_all rfl, ?_⟩
  intro same
  rw [range, apart] at same
  have lengths := congrArg (fun reading => reading.toOption.map List.length) same
  exact absurd lengths (by decide)

end CssAuthoring.Selector
