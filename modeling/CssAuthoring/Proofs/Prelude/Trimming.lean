import CssAuthoring.Proofs.Prelude.Splitting

/-!
# Preludes with blank space around them

Blank space in front of a prelude is made of segments without a token.  Blank space behind a prelude
can only go on with a string or an argument that has no end; every other segment stands before it as
it stands before the end of the text, since no word, number or sign goes on with a blank character.
So a prelude can be trimmed without making the tokenizer fail, and the keyword at its start is found
in the same place.

Main statements: `tokenize_of_append_blank`, a prelude that is read is read without the blank space
behind it; `exists_trimmed_keyword_cut`, where the keyword at the start of a prelude stands.
-/

namespace CssAuthoring.Text

/-- No character that can be seen in ASCII text is blank. -/
theorem not_isBlank_of_visible {character : Char} (low : '!' ≤ character)
    (high : character ≤ '~') : isBlank character = false := by
  have low : 33 ≤ character.toNat := low
  have high : character.toNat ≤ 126 := high
  simp only [isBlank, Bool.or_eq_false_iff, Bool.and_eq_false_iff, decide_eq_false_iff_not,
    beq_eq_false_iff_ne]
  omega

/-- A run that takes no blank space stops before blank space. -/
theorem Stops.append_blank {isKind : Char → Bool} {text trail : Text} (stops : Stops isKind text)
    (blank : Blank trail) (solid : ∀ character, isKind character = true →
      isBlank character = false) : Stops isKind (text ++ trail) := by
  by_cases empty : text = []
  · subst empty
    intro character member
    have isBlank := blank character (List.mem_of_mem_head? member)
    rw [Bool.eq_false_iff]
    intro inKind
    rw [solid character inKind] at isBlank
    contradiction
  · exact (stops_append empty trail).2 stops

/-- A run that stops stops with less behind it. -/
theorem Stops.of_append {isKind : Char → Bool} {text rest : Text}
    (stops : Stops isKind (text ++ rest)) : Stops isKind text := by
  cases text with
  | nil => exact stops_nil isKind
  | cons character more => exact (stops_append (List.cons_ne_nil _ _) rest).1 stops

/-- Text with a solid end stands in front of the blank space behind a text. -/
theorem EndsSolid.exists_middle {front rest text trail : Text} (solid : EndsSolid front)
    (blank : Blank trail) (shape : front ++ rest = text ++ trail) :
    ∃ middle, text = front ++ middle ∧ rest = middle ++ trail := by
  rcases List.append_eq_append_iff.1 shape with found | ⟨extra, whole, left⟩
  · exact found
  · by_cases empty : extra = []
    · subst empty
      exact ⟨[], by simpa using whole.symm, by simpa using left.symm⟩
    · have extraBlank : Blank extra := fun character member =>
        blank character (left ▸ List.mem_append_left _ member)
      rw [whole] at solid
      exact absurd extraBlank (solid.of_append empty).not_blank

end CssAuthoring.Text

namespace CssAuthoring.Prelude

open CssAuthoring.Numeric
open Component (IsDigits)

/-! ## Characters that are not blank -/

theorem isIdentifierCharacter_visible {character : Char}
    (inRun : isIdentifierCharacter character = true) : '!' ≤ character ∧ character ≤ '~' := by
  simp only [isIdentifierCharacter, startsIdentifier, Text.isDigit, Bool.or_eq_true,
    Bool.and_eq_true, decide_eq_true_eq] at inRun
  rcases inRun with (((⟨low, high⟩ | ⟨low, high⟩) | rfl) | rfl) | ⟨low, high⟩
  · exact ⟨Char.le_trans (by decide) low, Char.le_trans high (by decide)⟩
  · exact ⟨Char.le_trans (by decide) low, Char.le_trans high (by decide)⟩
  · decide
  · decide
  · exact ⟨Char.le_trans (by decide) low, Char.le_trans high (by decide)⟩

theorem not_isBlank_of_isIdentifierCharacter (character : Char)
    (inRun : isIdentifierCharacter character = true) : Text.isBlank character = false :=
  Text.not_isBlank_of_visible (isIdentifierCharacter_visible inRun).1
    (isIdentifierCharacter_visible inRun).2

theorem not_isBlank_of_isDigit (character : Char) (isDigit : Text.isDigit character = true) :
    Text.isBlank character = false :=
  not_isBlank_of_isIdentifierCharacter character (by simp [isIdentifierCharacter, isDigit])

theorem not_isBlank_of_startsMeasure (character : Char)
    (starts : startsMeasure character = true) : Text.isBlank character = false := by
  simp only [startsMeasure, Bool.or_eq_true, decide_eq_true_eq] at starts
  rcases starts with rfl | starts
  · decide
  · exact not_isBlank_of_isIdentifierCharacter character (by simp [isIdentifierCharacter, starts])

/-- A blank character is white space or outside the grammar. -/
theorem stranger_of_isBlank {character : Char} (blank : Text.isBlank character = true)
    (noSpace : isSpace character = false) (after : Text) : Stranger character after := by
  have outside {isKind : Char → Bool} (solid : ∀ other, isKind other = true →
      Text.isBlank other = false) : isKind character = false := by
    rw [Bool.eq_false_iff]
    intro inKind
    rw [solid character inKind] at blank
    contradiction
  have notMember {signs : Text} (solid : (signs.all fun sign => !Text.isBlank sign) = true) :
      character ∉ signs := by
    intro member
    have notBlank := List.all_eq_true.1 solid character member
    rw [blank] at notBlank
    contradiction
  refine ⟨noSpace, notMember (by decide), ?_, outside not_isBlank_of_isIdentifierCharacter, ?_, ?_,
    ?_⟩
  · have apart : character ∉ ['"', '\''] := notMember (by decide)
    simpa [Text.isQuote] using apart
  · have apart : character ∉ ['<', '>', '='] := notMember (by decide)
    simpa [startsComparison, and_assoc] using apart
  · have apart : character ∉ ['(', ')', ',', ':', '/'] := notMember (by decide)
    simpa [isDelimiter, and_assoc] using apart
  · intro sign
    have apart : character ∉ ['+', '.'] := notMember (by decide)
    exact absurd sign (by simpa using apart)

/-! ## Blank space behind a prelude -/

section

variable {trail : Text} (blank : Text.Blank trail)

include blank in
theorem Longest.append_blank {run after : Text} (longest : Longest run after) :
    Longest run (after ++ trail) :=
  ⟨longest.stays, longest.stops.append_blank blank not_isBlank_of_isIdentifierCharacter⟩

include blank in
theorem noFraction_append_blank {text : Text}
    (noFraction : ∀ rest, text = '.' :: rest → Text.Stops Text.isDigit rest) :
    ∀ rest, text ++ trail = '.' :: rest → Text.Stops Text.isDigit rest := by
  intro rest shape
  cases text with
  | nil =>
      have point := blank '.' (by simp [List.nil_append] at shape; simp [shape])
      exact absurd point (by decide)
  | cons first more =>
      rcases List.cons.inj shape with ⟨rfl, rfl⟩
      exact (noFraction more rfl).append_blank blank not_isBlank_of_isDigit

include blank in
theorem IsNumber.append_blank {written : Written} {number after : Text}
    (isNumber : IsNumber written number after) : IsNumber written number (after ++ trail) :=
  ⟨isNumber.writes, isNumber.noDigit.append_blank blank not_isBlank_of_isDigit,
    fun whole => noFraction_append_blank blank (isNumber.noFraction whole)⟩

include blank in
theorem IsMeasure.append_blank {measure : Measure} {unit after : Text}
    (isMeasure : IsMeasure measure unit after) : IsMeasure measure unit (after ++ trail) := by
  cases isMeasure with
  | none alone => exact .none (alone.append_blank blank not_isBlank_of_startsMeasure)
  | percent => exact .percent
  | unit starts longest => exact .unit starts (longest.append_blank blank)

include blank in
theorem TooLong.append_blank {text : Text} {failure : NumeralTooLong}
    (tooLong : TooLong text failure) : TooLong (text ++ trail) failure := by
  rcases tooLong.exists_isNumber with ⟨written, number, after, rfl, isNumber, noValue⟩
  rw [List.append_assoc]
  exact (isNumber.append_blank blank).tooLong noValue

include blank in
theorem not_opensArgument_append_blank {after : Text} (alone : ¬ OpensArgument after) :
    ¬ OpensArgument (after ++ trail) := by
  rintro ⟨inner, opened⟩
  rw [List.dropWhile_append] at opened
  split at opened
  · have member : '(' ∈ trail.dropWhile isSpace := by simp [opened]
    exact absurd (blank '(' ((List.dropWhile_suffix _).subset member)) (by decide)
  · rename_i filled
    rcases List.exists_cons_of_ne_nil (mt List.isEmpty_iff.2 filled) with ⟨first, more, shape⟩
    rw [shape] at opened
    cases opened
    exact alone ⟨more, shape⟩

include blank in
/-- A segment with text behind it also stands there when blank space follows that text. -/
theorem Stands.append_blank {segment : Segment} {after : Text} (stands : Stands segment after)
    (nonempty : after ≠ []) : Stands segment (after ++ trail) := by
  cases stands with
  | blank filled white stops => exact .blank filled white ((Text.stops_append nonempty _).2 stops)
  | dropped stranger =>
      refine .dropped { stranger with noNumber := fun sign => ?_ }
      exact (stranger.noNumber sign).append_blank blank not_isBlank_of_isDigit
  | atName longest => exact .atName (longest.append_blank blank)
  | hash longest => exact .hash (longest.append_blank blank)
  | logical isIdentifier isLogical stops =>
      exact .logical isIdentifier isLogical
        (stops.append_blank blank not_isBlank_of_isIdentifierCharacter)
  | identifier isIdentifier notLogical stops alone =>
      exact .identifier isIdentifier notLogical
        (stops.append_blank blank not_isBlank_of_isIdentifierCharacter)
        (not_opensArgument_append_blank blank alone)
  | comparison compares =>
      cases compares with
      | single isSign alone =>
          refine .comparison (.single isSign (alone.imp_right fun stops => ?_))
          exact (Text.stops_append nonempty _).2 stops
      | double isSign => exact .comparison (.double isSign)
  | delimiter delimits => exact .delimiter delimits
  | string isString => exact .string isString
  | openString => exact absurd rfl nonempty
  | number isNumber isMeasure hasValue =>
      refine .number ?_ (isMeasure.append_blank blank) hasValue
      rw [← List.append_assoc]
      exact isNumber.append_blank blank
  | call isIdentifier notLogical white balanced =>
      exact .call isIdentifier notLogical white balanced
  | openCall => exact absurd rfl nonempty

include blank in
theorem Cuts.append_blank {rest text : Text} {segments : List Segment}
    (cuts : Cuts rest segments text) (nonempty : rest ≠ []) :
    Cuts (rest ++ trail) segments (text ++ trail) := by
  induction cuts with
  | nil => exact .nil
  | @cons segment text segments stands cuts hypothesis =>
      have filled : text ≠ [] := by
        rw [← cuts.source_append]
        simp [nonempty]
      rw [List.append_assoc]
      exact .cons (stands.append_blank blank filled) hypothesis

include blank in
/-- A prelude that is read with blank space behind it is read without it. -/
theorem tokenize_of_append_blank {text : Text} {tokens : List PreludeToken}
    (accepted : tokenize (text ++ trail) = .ok tokens) : ∃ found, tokenize text = .ok found := by
  rcases exists_cuts text with ⟨segments, rest, cuts, rfl | ⟨failure, tooLong⟩⟩
  · exact ⟨_, cuts.tokenize_ok⟩
  · have nonempty : rest ≠ [] := by
      rcases tooLong.read with ⟨character, more, rfl, _⟩
      exact List.cons_ne_nil _ _
    rw [(cuts.append_blank blank nonempty).tokenize_error (tooLong.append_blank blank)] at accepted
    cases accepted

end

/-! ## Blank space in front of a prelude -/

theorem isBlank_of_isSpace {character : Char} (white : isSpace character = true) :
    Text.isBlank character = true := by
  simp only [isSpace, Bool.or_eq_true, decide_eq_true_eq] at white
  rcases white with ((rfl | rfl) | rfl) | rfl <;> decide

theorem Cuts.append {rest middle text : Text} {front back : List Segment}
    (isFront : Cuts middle front text) (isBack : Cuts rest back middle) :
    Cuts rest (front ++ back) text := by
  induction isFront with
  | nil => exact isBack
  | cons stands _ hypothesis => exact .cons stands hypothesis

theorem Cuts.exists_middle {rest text : Text} {front back : List Segment}
    (cuts : Cuts rest (front ++ back) text) :
    ∃ middle, Cuts middle front text ∧ Cuts rest back middle := by
  induction front generalizing text with
  | nil => exact ⟨text, .nil, cuts⟩
  | cons first more hypothesis =>
      cases cuts with
      | cons stands cuts =>
          rcases hypothesis cuts with ⟨middle, isFront, isBack⟩
          exact ⟨middle, .cons stands isFront, isBack⟩

/-- Blank space in front of a text is cut into segments without a token. -/
theorem exists_cuts_blank {lead text : Text} (blank : Text.Blank lead)
    (stops : Text.Stops isSpace text) :
    ∃ segments, Cuts text segments (lead ++ text) ∧
      ∀ segment ∈ segments, segment.token? = none := by
  -- A segment may take several characters of the blank space, so the induction is on its length.
  induction length : lead.length using Nat.strongRecOn generalizing lead with
  | ind length hypothesis =>
      subst length
      cases lead with
      | nil => exact ⟨[], .nil, nofun⟩
      | cons character more =>
          by_cases white : isSpace character = true
          · have behind : Text.Blank (more.dropWhile isSpace) := fun other member =>
              blank other (List.mem_cons_of_mem _ ((List.dropWhile_suffix _).subset member))
            have shorter := Text.length_dropWhile_le isSpace more
            rcases hypothesis _ (Nat.lt_succ_of_le shorter) behind rfl with
              ⟨segments, cuts, noToken⟩
            refine ⟨.blank (character :: more.takeWhile isSpace) :: segments, ?_, ?_⟩
            · have shape : character :: more ++ text =
                  (Segment.blank (character :: more.takeWhile isSpace)).source ++
                    (more.dropWhile isSpace ++ text) := by
                simp [Segment.source, ← List.append_assoc]
              rw [shape]
              refine .cons (.blank (List.cons_ne_nil _ _) ?_ ?_) cuts
              · exact List.forall_mem_cons.2 ⟨white, Text.mem_takeWhile⟩
              · by_cases empty : more.dropWhile isSpace = []
                · rwa [empty]
                · exact (Text.stops_append empty _).2 (Text.stops_dropWhile _ _)
            · exact List.forall_mem_cons.2 ⟨rfl, noToken⟩
          · rw [Bool.not_eq_true] at white
            have behind : Text.Blank more := fun other member =>
              blank other (List.mem_cons_of_mem _ member)
            rcases hypothesis _ (Nat.lt_succ_self _) behind rfl with ⟨segments, cuts, noToken⟩
            have stranger := stranger_of_isBlank (blank character List.mem_cons_self) white
              (more ++ text)
            exact ⟨.dropped character :: segments, .cons (.dropped stranger) cuts,
              List.forall_mem_cons.2 ⟨rfl, noToken⟩⟩

/-- Blank space in front of a prelude does not matter for its tokens. -/
theorem tokenize_blank_append {lead text : Text} (blank : Text.Blank lead)
    (stops : Text.Stops isSpace text) : tokenize (lead ++ text) = tokenize text := by
  rcases exists_cuts_blank blank stops with ⟨segments, cuts, noToken⟩
  rw [cuts.tokenize_eq, List.filterMap_eq_nil_iff.2 noToken]
  cases tokenize text <;> rfl

/-! ## The keyword at the start of a prelude -/

/-- A segment whose token is the name of an at-rule stands there with its sign. -/
theorem Stands.of_atName {segment : Segment} {name content after : Text}
    (stands : Stands segment after) (isToken : segment.token? = some ⟨.atName name, content⟩) :
    segment = .token ⟨.atName name, content⟩ ∧ content = '@' :: name ∧ Longest name after := by
  cases stands with
  | atName longest =>
      cases isToken
      exact ⟨rfl, rfl, longest⟩
  | number isNumber isMeasure => cases isMeasure <;> cases isToken
  | call =>
      rw [Segment.token?] at isToken
      split at isToken <;> cases isToken
  | openCall =>
      rw [Segment.token?] at isToken
      split at isToken <;> cases isToken
  | _ => cases isToken

/-- A segment without a token, or with the name of an at-rule, stands with less behind it. -/
theorem Stands.of_append {segment : Segment} {after trail : Text}
    (stands : Stands segment (after ++ trail))
    (plain : segment.token? = none ∨
      ∃ name content, segment.token? = some ⟨.atName name, content⟩) :
    Stands segment after := by
  rcases plain with noToken | ⟨name, content, isToken⟩
  · generalize shape : after ++ trail = behind at stands
    cases stands with
    | blank filled white stops =>
        subst shape
        exact .blank filled white stops.of_append
    | dropped stranger =>
        subst shape
        exact .dropped { stranger with noNumber := fun sign => (stranger.noNumber sign).of_append }
    | call =>
        rw [Segment.token?] at noToken
        split at noToken <;> cases noToken
    | openCall =>
        rw [Segment.token?] at noToken
        split at noToken <;> cases noToken
    | _ => cases noToken
  · rcases stands.of_atName isToken with ⟨rfl, rfl, longest⟩
    exact .atName ⟨longest.stays, longest.stops.of_append⟩

/-- Such segments stand at the start of a text also when the text behind them is shorter. -/
theorem Cuts.of_append {rest trail text : Text} {segments : List Segment}
    (cuts : Cuts (rest ++ trail) segments (text ++ trail))
    (plain : ∀ segment ∈ segments, segment.token? = none ∨
      ∃ name content, segment.token? = some ⟨.atName name, content⟩) :
    Cuts rest segments text := by
  induction segments generalizing text with
  | nil =>
      have same := cuts.source_append
      rw [List.flatMap_nil, List.nil_append] at same
      rw [← List.append_cancel_right same]
      exact .nil
  | cons segment segments hypothesis =>
      have same := cuts.source_append
      rw [List.flatMap_cons, List.append_assoc, ← List.append_assoc _ rest,
        ← List.append_assoc] at same
      rw [← List.append_cancel_right same] at cuts ⊢
      rw [List.forall_mem_cons] at plain
      rw [List.append_assoc] at cuts
      generalize whole : segment.source ++ (segments.flatMap Segment.source ++ rest ++ trail) =
        prelude at cuts
      cases cuts with
      | cons stands behind =>
          rw [← List.append_cancel_left whole] at stands behind
          exact .cons (stands.of_append plain.1) (hypothesis behind plain.2)

/-- The keyword at the start of a prelude has segments without tokens in front of it. -/
theorem exists_keyword_cut {prelude name content : Text} {more : List PreludeToken}
    (first : tokenize prelude = .ok (⟨.atName name, content⟩ :: more)) :
    ∃ front rest, Cuts rest (front ++ [.token ⟨.atName name, content⟩]) prelude ∧
      (∀ segment ∈ front, segment.token? = none) ∧ content = '@' :: name ∧
        Longest name rest ∧ tokenize rest = .ok more := by
  rcases tokenize_ok_iff_cuts.1 first with ⟨segments, cuts, tokens⟩
  rcases List.filterMap_eq_cons_iff.1 tokens with
    ⟨front, segment, back, rfl, noToken, isToken, behind⟩
  rcases cuts.stands.of_atName isToken with ⟨rfl, isContent, longest⟩
  rw [List.append_cons] at cuts
  rcases cuts.exists_middle with ⟨rest, isFront, isBack⟩
  rw [isBack.source_append] at longest
  refine ⟨front, rest, isFront, noToken, isContent, longest, ?_⟩
  rw [isBack.tokenize_ok, behind]

/-- The sign of an at-rule with its name has a solid end. -/
theorem Longest.endsSolid {name after : Text} (longest : Longest name after) :
    Text.EndsSolid ('@' :: name) := by
  rcases List.eq_nil_or_concat name with rfl | ⟨init, last, rfl⟩
  · exact ⟨[], '@', rfl, by decide⟩
  · rw [List.concat_eq_append] at longest ⊢
    have inRun := longest.stays last (by simp)
    exact ⟨'@' :: init, last, rfl, not_isBlank_of_isIdentifierCharacter last inRun⟩

/--
The keyword at the start of a prelude is at the start of the trimmed prelude too, behind the same
characters that begin no token.
-/
theorem exists_trimmed_keyword_cut {prelude name content : Text} {more : List PreludeToken}
    (first : tokenize prelude = .ok (⟨.atName name, content⟩ :: more)) :
    ∃ front rest trail found,
      Cuts (rest ++ trail) (front ++ [.token ⟨.atName name, content⟩]) prelude ∧
      (∀ segment ∈ front, segment.token? = none) ∧ Text.EndsSolid content ∧
      tokenize (rest ++ trail) = .ok more ∧ Text.Blank trail ∧
      Text.trim prelude = Text.trimStart (front.flatMap Segment.source) ++ content ++ rest ∧
      tokenize (Text.trim prelude) = .ok (⟨.atName name, content⟩ :: found) := by
  rcases Text.exists_trim_surrounded prelude with ⟨lead, trail, leadBlank, trailBlank, split⟩
  have bodyStops : Text.Stops Text.isBlank (Text.trim prelude) :=
    (Text.stops_trimStart prelude).trimEnd
  generalize Text.trim prelude = body at split bodyStops
  subst split
  have filled : body ≠ [] := by
    rintro rfl
    have nothing := tokenize_blank_append (leadBlank.append trailBlank) (Text.stops_nil _)
    rw [List.append_nil, ← List.nil_append trail] at nothing
    rw [nothing, tokenize, segments] at first
    cases first
  have stops : Text.Stops isSpace (body ++ trail) :=
    (Text.stops_append filled trail).2 (bodyStops.of_imp fun _ => isBlank_of_isSpace)
  rcases exists_cuts_blank leadBlank stops with ⟨space, spaceCuts, spaceNoToken⟩
  rw [tokenize_blank_append leadBlank stops] at first
  rcases exists_keyword_cut first with
    ⟨front, behind, cuts, noToken, rfl, longest, isMore⟩
  have solid := longest.endsSolid.append (front.flatMap Segment.source)
  have shape := cuts.source_append
  rw [List.flatMap_append, List.flatMap_singleton] at shape
  rcases solid.exists_middle trailBlank shape with ⟨rest, rfl, rfl⟩
  have inBody : Cuts rest (front ++ [.token ⟨.atName name, '@' :: name⟩]) _ :=
    cuts.of_append (by
      intro segment member
      rcases List.mem_append.1 member with inFront | isKeyword
      · exact .inl (noToken segment inFront)
      · rw [List.mem_singleton.1 isKeyword]
        exact .inr ⟨name, _, rfl⟩)
  rcases tokenize_of_append_blank trailBlank isMore with ⟨found, isFound⟩
  have spaceSource : space.flatMap Segment.source = lead := by
    exact List.append_cancel_right spaceCuts.source_append
  have frontStops : Text.Stops Text.isBlank (front.flatMap Segment.source) := by
    rw [List.append_assoc] at bodyStops
    exact bodyStops.of_append
  refine ⟨space ++ front, rest, trail, found, ?_, ?_, longest.endsSolid, isMore, trailBlank, ?_, ?_⟩
  · rw [List.append_assoc space]
    exact spaceCuts.append cuts
  · intro segment member
    rcases List.mem_append.1 member with inSpace | inFront
    · exact spaceNoToken segment inSpace
    · exact noToken segment inFront
  · rw [List.flatMap_append, spaceSource, Text.trimStart, Text.dropWhile_run leadBlank frontStops]
  · rw [inBody.tokenize_eq, isFound, List.filterMap_append,
      List.filterMap_eq_nil_iff.2 noToken]
    rfl

end CssAuthoring.Prelude
