import CssAuthoring.Proofs.Prelude.Reread

/-!
# Scanning written preludes

The tokens of a prelude are read again from the written form exactly if no word comes to stand
before an opening parenthesis and the prelude did not end within an argument, in a string or in a
further parenthesis.  The induction goes along the segments of the prelude; a token that is read as
another one spoils the list at its place, whatever follows it.
-/

namespace CssAuthoring.Prelude

open CssAuthoring.Numeric

/-! ## Segment by segment -/

theorem segments_cons {character : Char} {rest after : Text} {segment : Segment}
    (read : readSegment character rest = .ok (segment, after)) :
    segments (character :: rest) = (segments after).map (segment :: ·) := by
  rw [segments]
  split
  · rename_i failed
    rw [read] at failed
    cases failed
  · rename_i found
    rw [read] at found
    cases found
    rfl

/-- A scan that succeeds has read a segment and goes on with what follows it. -/
theorem exists_of_segments {prelude : Text} {segment : Segment} {more : List Segment}
    (scanned : segments prelude = .ok (segment :: more)) :
    ∃ character rest after, prelude = character :: rest ∧
      readSegment character rest = .ok (segment, after) ∧ segments after = .ok more := by
  cases prelude with
  | nil =>
      rw [segments] at scanned
      cases scanned
  | cons character rest =>
      cases read : readSegment character rest with
      | error failure =>
          rw [segments] at scanned
          split at scanned
          · contradiction
          · rename_i found
            rw [read] at found
            cases found
      | ok reading =>
          rcases reading with ⟨first, after⟩
          rw [segments_cons read] at scanned
          cases tail : segments after with
          | error failure =>
              rw [tail] at scanned
              cases scanned
          | ok found =>
              rw [tail] at scanned
              cases scanned
              exact ⟨character, rest, after, rfl, read, tail⟩

theorem tokenize_eq_ok_iff {prelude : Text} {tokens : List PreludeToken} :
    tokenize prelude = .ok tokens ↔
      ∃ found, segments prelude = .ok found ∧ found.filterMap Segment.token? = tokens := by
  rw [tokenize]
  cases segments prelude <;> simp [Except.map]

/-- A segment with a token puts it in front of the tokens behind it. -/
theorem tokenize_token {character : Char} {rest after : Text} {segment : Segment}
    {token : PreludeToken} (read : readSegment character rest = .ok (segment, after))
    (found : segment.token? = some token) :
    tokenize (character :: rest) = (tokenize after).map (token :: ·) := by
  simp only [tokenize]
  rw [segments_cons read]
  cases segments after <;> simp [Except.map, found]

theorem map_cons_eq_ok_iff {reading : Except NumeralTooLong (List PreludeToken)}
    {token other : PreludeToken} {tokens : List PreludeToken} :
    reading.map (token :: ·) = .ok (other :: tokens) ↔ token = other ∧ reading = .ok tokens := by
  cases reading <;> simp [Except.map]

/-- A segment without a token does not matter for the tokens. -/
theorem tokenize_blank {character : Char} {rest after : Text} {segment : Segment}
    (read : readSegment character rest = .ok (segment, after)) (none : segment.token? = none) :
    tokenize (character :: rest) = tokenize after := by
  simp only [tokenize]
  rw [segments_cons read]
  cases segments after <;> simp [Except.map, none]

theorem readSegment_space {character : Char} (white : isSpace character = true) (rest : Text) :
    readSegment character rest =
      .ok (.blank (character :: rest.takeWhile isSpace), rest.dropWhile isSpace) := by
  rw [readSegment]
  rw [if_pos white]

/-- A space in front of a prelude does not matter for its tokens. -/
theorem tokenize_space (prelude : Text) : tokenize (' ' :: prelude) = tokenize prelude := by
  rw [tokenize_blank (readSegment_space rfl prelude) rfl]
  cases prelude with
  | nil => rfl
  | cons character rest =>
      by_cases white : isSpace character = true
      · rw [List.dropWhile_cons, if_pos white, tokenize_blank (readSegment_space white rest) rfl]
      · rw [List.dropWhile_cons, if_neg white]

/-! ## The written form -/

/-- An opening parenthesis that belongs to no function. -/
def opening : PreludeToken :=
  .canonical (.delimiter ['('])

/-- A word has an opening parenthesis as the next token. -/
def JoinsCall (tokens : List PreludeToken) : Prop :=
  ∃ front word back, tokens = front ++ word :: opening :: back ∧ IsWord word

/-- What stands in a written prelude behind a token, by the tokens that follow it. -/
def behind (tokens : List PreludeToken) : Text :=
  if tokens.isEmpty then [] else ' ' :: render (tokens.map Token.content)

theorem render_cons (token : PreludeToken) (tokens : List PreludeToken) :
    render ((token :: tokens).map Token.content) = token.content ++ behind tokens := by
  cases tokens with
  | nil => simp [render, behind]
  | cons next more => simp [render, behind]

theorem behind_cons (token : PreludeToken) (tokens : List PreludeToken) :
    behind (token :: tokens) = ' ' :: (token.content ++ behind tokens) := by
  rw [← render_cons]
  rfl

theorem separated_behind (tokens : List PreludeToken) : Separated (behind tokens) := by
  rw [behind]
  split
  · exact separated_nil
  · exact separated_space _

theorem tokenize_behind (tokens : List PreludeToken) :
    tokenize (behind tokens) = tokenize (render (tokens.map Token.content)) := by
  rw [behind]
  split
  · rename_i empty
    rw [List.isEmpty_iff] at empty
    subst empty
    rfl
  · exact tokenize_space _

theorem joinsCall_cons (token : PreludeToken) (tokens : List PreludeToken) :
    JoinsCall (token :: tokens) ↔
      IsWord token ∧ tokens.head? = some opening ∨ JoinsCall tokens := by
  constructor
  · rintro ⟨front, word, back, shape, isWord⟩
    cases front with
    | nil =>
        rcases List.cons.inj shape with ⟨rfl, rfl⟩
        exact .inl ⟨isWord, rfl⟩
    | cons first front =>
        rcases List.cons.inj shape with ⟨rfl, rfl⟩
        exact .inr ⟨front, word, back, rfl, isWord⟩
  · rintro (⟨isWord, next⟩ | ⟨front, word, back, rfl, isWord⟩)
    · rcases List.head?_eq_some_iff.1 next with ⟨back, rfl⟩
      exact ⟨[], token, back, rfl, isWord⟩
    · exact ⟨token :: front, word, back, rfl, isWord⟩

/-! ## First characters -/

/-- The content of a token begins as the text that it was read from. -/
theorem exists_content_cons {character : Char} {rest after : Text} {segment : Segment}
    {token : PreludeToken} (read : readSegment character rest = .ok (segment, after))
    (found : segment.token? = some token) : ∃ more, token.content = character :: more := by
  rcases reread_of_readSegment read found separated_nil (fun _ => rfl) with
    ⟨⟨more, _, content, _⟩, _, _⟩ | ⟨⟨more, _, _, _, content, _⟩, _⟩
  · exact ⟨more, content⟩
  · exact ⟨more, content⟩

/-- A segment with a token begins with no white space, and with a parenthesis if it is one. -/
theorem token_head {character : Char} {rest after : Text} {segment : Segment}
    {token : PreludeToken} (read : readSegment character rest = .ok (segment, after))
    (found : segment.token? = some token) :
    isSpace character = false ∧ (character = '(' ↔ token = opening) := by
  constructor
  · rw [Bool.eq_false_iff]
    intro white
    rw [readSegment_space white] at read
    cases read
    cases found
  · constructor
    · rintro rfl
      cases read
      cases found
      rfl
    · rintro rfl
      rcases exists_content_cons read found with ⟨more, content⟩
      exact (List.cons.inj content).1.symm

/-- Behind white space, the written form of tokens begins with a parenthesis if they do. -/
theorem opensArgument_behind {prelude : Text} {found : List Segment}
    (scanned : segments prelude = .ok found) :
    OpensArgument (behind (found.filterMap Segment.token?)) ↔
      (found.filterMap Segment.token?).head? = some opening := by
  induction found generalizing prelude with
  | nil =>
      constructor
      · rintro ⟨inner, opened⟩
        cases opened
      · intro empty
        cases empty
  | cons segment more hypothesis =>
      rcases exists_of_segments scanned with ⟨character, rest, after, rfl, read, tail⟩
      cases isToken : segment.token? with
      | none =>
          rw [List.filterMap_cons_none isToken]
          exact hypothesis tail
      | some token =>
          rcases token_head read isToken with ⟨noSpace, isOpening⟩
          rcases exists_content_cons read isToken with ⟨contentRest, content⟩
          have written : (behind (token :: more.filterMap Segment.token?)).dropWhile isSpace =
              character :: (contentRest ++ behind (more.filterMap Segment.token?)) := by
            have space : isSpace ' ' = true := rfl
            rw [behind_cons, content, List.dropWhile_cons, if_pos space, List.cons_append,
              List.dropWhile_cons, if_neg (by simp [noSpace])]
          rw [List.filterMap_cons_some isToken, OpensArgument, written, List.head?_cons,
            Option.some_inj, ← isOpening]
          constructor
          · rintro ⟨inner, opened⟩
            exact (List.cons.inj opened).1
          · rintro rfl
            exact ⟨_, rfl⟩

/-! ## The fixed points -/

theorem Segment.LeavesOpen.token?_ne_none {segment : Segment} (leavesOpen : segment.LeavesOpen) :
    segment.token? ≠ none := by
  cases segment with
  | call name gap argument closing =>
      rcases exists_token_call name gap argument closing with ⟨token, isToken, _⟩
      simp [isToken]
  | _ => cases leavesOpen

/-- The tokens of the segments of a prelude, read from their written form. -/
theorem tokenize_render_segments {prelude : Text} {found : List Segment}
    (scanned : segments prelude = .ok found) :
    tokenize (render ((found.filterMap Segment.token?).map Token.content)) =
        .ok (found.filterMap Segment.token?) ↔
      ¬ JoinsCall (found.filterMap Segment.token?) ∧
        ∀ segment ∈ found, ¬ segment.LeavesOpen := by
  induction found generalizing prelude with
  | nil =>
      refine iff_of_true (by simp [tokenize, segments, render, Except.map]) ⟨?_, by simp⟩
      rintro ⟨front, word, back, shape, _⟩
      simp at shape
  | cons segment more hypothesis =>
      rcases exists_of_segments scanned with ⟨character, rest, after, rfl, read, tail⟩
      cases isToken : segment.token? with
      | none =>
          have closed : ¬ segment.LeavesOpen := fun leavesOpen =>
            leavesOpen.token?_ne_none isToken
          rw [List.filterMap_cons_none isToken, hypothesis tail, List.forall_mem_cons]
          simp only [closed, not_false_iff, true_and]
      | some token =>
          have ends : after = [] → behind (more.filterMap Segment.token?) = [] := by
            rintro rfl
            rw [segments] at tail
            cases tail
            rfl
          rw [List.filterMap_cons_some isToken, render_cons, joinsCall_cons,
            ← opensArgument_behind tail, List.forall_mem_cons]
          -- A token that is read as another one spoils the list, whatever the rest is read as.
          rcases reread_of_readSegment read isToken (separated_behind _) ends with
            ⟨⟨contentRest, segment', content, read', found'⟩, closed, apart⟩ |
              ⟨⟨contentRest, segment', after', other, content, read', found', different⟩, joined⟩
          · rw [content, List.cons_append, tokenize_token read' found', tokenize_behind,
              map_cons_eq_ok_iff, hypothesis tail]
            simp only [apart, closed, false_or, not_false_iff, true_and]
          · rw [content, List.cons_append, tokenize_token read' found', map_cons_eq_ok_iff]
            refine iff_of_false (fun both => different both.1) ?_
            rintro ⟨noCall, closed, _⟩
            rcases joined with leavesOpen | call
            · exact closed leavesOpen
            · exact noCall (.inl call)

/-- A word has a token. -/
theorem token?_readWord (text : Text) : (readWord text).1.token? ≠ none := by
  rw [readWord]
  dsimp only
  split
  · exact nofun
  · split
    · rcases exists_token_call _ _ _ _ with ⟨token, isToken, _⟩
      rw [isToken]
      exact nofun
    · exact nofun

/-- Before an opening parenthesis that is the next token only white space or dropped text stands. -/
theorem dropped_or_opensArgument {text : Text} {between back : List Segment} {second : Segment}
    (scanned : segments text = .ok (between ++ second :: back))
    (noToken : ∀ segment ∈ between, segment.token? = none)
    (isOpening : second.token? = some opening) :
    (∃ character, .dropped character ∈ between) ∨ OpensArgument text := by
  -- Along the segments without a token: white space is skipped, and anything else was dropped.
  induction between generalizing text with
  | nil =>
      rcases exists_of_segments scanned with ⟨character, rest, after, rfl, read, _⟩
      rcases token_head read isOpening with ⟨noSpace, isParenthesis⟩
      refine .inr ⟨rest, ?_⟩
      rw [List.dropWhile_cons, if_neg (by simp [noSpace]), isParenthesis.2 rfl]
  | cons segment more hypothesis =>
      rcases exists_of_segments scanned with ⟨character, rest, after, rfl, read, tail⟩
      have none := noToken segment List.mem_cons_self
      have behind := hypothesis tail fun other member =>
        noToken other (List.mem_cons_of_mem _ member)
      cases reads_of_readSegment read with
      | blank white =>
          rcases behind with ⟨dropped, member⟩ | ⟨inner, opened⟩
          · exact .inl ⟨dropped, List.mem_cons_of_mem _ member⟩
          · rw [Text.dropWhile_of_stops (Text.stops_dropWhile _ _)] at opened
            refine .inr ⟨inner, ?_⟩
            rw [List.dropWhile_cons, if_pos white, opened]
      | dropped => exact .inl ⟨character, List.mem_cons_self⟩
      | number ordinary starts numeric =>
          rcases readsAs_numeric ordinary starts numeric separated_nil with ⟨token, rfl, _⟩
          cases none
      | word _ _ _ word =>
          have isNone := token?_readWord (character :: rest)
          rw [word] at isNone
          exact absurd none isNone
      | comparison starts comparison =>
          rcases readsAs_comparison starts comparison separated_nil with ⟨token, rfl, _⟩
          cases none
      | _ => cases none

/-- Between a word and the opening parenthesis that is the next token, something was dropped. -/
theorem exists_dropped {prelude : Text} {front between back : List Segment}
    {first second : Segment} {word : PreludeToken}
    (scanned : segments prelude = .ok (front ++ first :: (between ++ second :: back)))
    (isToken : first.token? = some word) (isWord : IsWord word)
    (noToken : ∀ segment ∈ between, segment.token? = none)
    (isOpening : second.token? = some opening) : ∃ character, .dropped character ∈ between := by
  induction front generalizing prelude with
  | nil =>
      rcases exists_of_segments scanned with ⟨character, rest, after, rfl, read, tail⟩
      exact (dropped_or_opensArgument tail noToken isOpening).resolve_right
        (not_opensArgument_of_isWord read isToken isWord)
  | cons segment front hypothesis =>
      rcases exists_of_segments scanned with ⟨character, rest, after, rfl, read, tail⟩
      exact hypothesis tail

/-- The text ends in an argument, within a string or within a further parenthesis. -/
def EndsOpen (prelude : Text) : Prop :=
  ∃ found, segments prelude = .ok found ∧ ∃ segment ∈ found, segment.LeavesOpen

/--
The tokens of a prelude are those of its written form exactly if no word has an opening parenthesis
as the next token and the prelude does not end in an argument within a string or a further
parenthesis.  A word comes to stand before such a parenthesis only where something was dropped.
-/
theorem tokenize_render_iff {prelude : Text} {tokens : List PreludeToken}
    (scanned : tokenize prelude = .ok tokens) :
    (tokenize (render (tokens.map Token.content)) = .ok tokens ↔
        ¬ JoinsCall tokens ∧ ¬ EndsOpen prelude) ∧
      ∀ front first between second back word,
        segments prelude = .ok (front ++ first :: (between ++ second :: back)) →
          first.token? = some word → IsWord word → (∀ segment ∈ between, segment.token? = none) →
            second.token? = some opening → ∃ character, .dropped character ∈ between := by
  rcases tokenize_eq_ok_iff.1 scanned with ⟨found, isFound, rfl⟩
  constructor
  · rw [tokenize_render_segments isFound]
    have endsOpen : ¬ EndsOpen prelude ↔ ∀ segment ∈ found, ¬ segment.LeavesOpen := by
      constructor
      · intro closed segment member leavesOpen
        exact closed ⟨found, isFound, segment, member, leavesOpen⟩
      · rintro closed ⟨other, isOther, segment, member, leavesOpen⟩
        rw [isFound] at isOther
        cases isOther
        exact closed segment member leavesOpen
    rw [endsOpen]
  · intro front first between second back word scan isToken isWord noToken isOpening
    exact exists_dropped scan isToken isWord noToken isOpening

/-- Where a semicolon was dropped before a parenthesis, the written form reads as a function. -/
theorem tokenize_render_joined :
    ∃ tokens, tokenize "print;(a) and url( 'b".toList = .ok tokens ∧ tokens.length = 6 ∧
      tokenize (render (tokens.map Token.content)) ≠ .ok tokens := by
  have scanned : tokenize "print;(a) and url( 'b".toList =
      .ok [.canonical (.identifier "print".toList), opening, .canonical (.identifier "a".toList),
        .canonical (.delimiter [')']), .canonical (.operator "and".toList),
        ⟨.url "'b".toList, "url( 'b)".toList⟩] := by
    cbv
  refine ⟨_, scanned, rfl, ?_⟩
  intro again
  exact ((tokenize_render_iff scanned).1.1 again).1 ⟨[], _, _, rfl, "print".toList, rfl⟩

end CssAuthoring.Prelude
