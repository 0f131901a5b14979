import CssAuthoring.Proofs.Builder.Steps
import CssAuthoring.Proofs.Selector.Rejoining

/-!
# Selectors that are given one by one

A builder may be given several selector texts, or one text in which they stand with commas between
them.  The first way trims and scans each text by itself and puts comma tokens between the results;
the second scans one long text, in which a comma takes the white space on both its sides.  The two
agree because a comma ends every simple selector and no trimmed text ends in a combinator of white
space, so that a comma can follow what any of the texts ends with.

What is trimmed off may only be white space that the scanner knows: other blank space between two
texts would stand next to a comma, where nothing takes it away.

Main statement: `select_eq_tokenize_intercalate`, a builder for some texts holds the tokens of the
text that lists those of them that have tokens.
-/

namespace CssAuthoring.Selector

/-! ## Spellings with a comma between them -/

theorem Spells.eq_nil {tokens : List SelectorToken} (spells : Spells tokens []) : tokens = [] := by
  cases tokens with
  | nil => rfl
  | cons token tokens => exact absurd rfl spells.ne_nil

/-- What a run stops at, it also stops at where a comma follows with white space before it. -/
theorem stops_append_comma {part : Part} {text before : Text}
    (stops : Text.Stops (extendsPart part) text) (white : White before) (behind : Text) :
    Text.Stops (extendsPart part) (text ++ (before ++ ',' :: behind)) := by
  by_cases empty : text = []
  · rcases IsMark.comma.head white behind with ⟨character, rest, shape, separates⟩
    rw [empty, List.nil_append, shape, Text.stops_cons]
    exact extendsPart_of_startsSeparator separates part
  · exact (Text.stops_append empty _).2 stops

/-- Two spellings can be listed, with white space on both sides of the comma. -/
theorem Spells.append_comma {front back : List SelectorToken} {text before after behind : Text}
    (spells : Spells front text) (last : front.getLast? ≠ some (.combinator ' '))
    (whiteBefore : White before) (whiteAfter : White after) (stops : Text.Stops isSpace behind)
    (spellsBehind : Spells back behind) :
    Spells (front ++ .comma :: back) (text ++ (before ++ ',' :: (after ++ behind))) := by
  have lastBehind {token : SelectorToken} {tokens : List SelectorToken}
      (last : (token :: tokens).getLast? ≠ some (.combinator ' ')) :
      tokens.getLast? ≠ some (.combinator ' ') := by
    cases tokens with
    | nil => simp
    | cons next more => rwa [List.getLast?_cons_cons] at last
  induction spells with
  | nil => exact .mark .comma whiteBefore whiteAfter stops spellsBehind
  | simple simple settled stopsPart _ hypothesis =>
      rw [List.append_assoc, List.cons_append]
      exact .simple simple settled (stops_append_comma stopsPart whiteBefore _)
        (hypothesis (lastBehind last))
  | @mark sign token space gap text tokens isMark whiteSpace whiteGap stopsGap spells hypothesis =>
      by_cases empty : text = []
      · -- The white space in front of the comma then belongs to the sign before it.
        subst empty
        cases spells.eq_nil
        have shape : space ++ sign :: (gap ++ []) ++ (before ++ ',' :: (after ++ behind)) =
            space ++ sign :: ((gap ++ before) ++ ([] ++ ',' :: (after ++ behind))) := by
          simp
        rw [shape]
        exact .mark isMark whiteSpace (whiteGap.append whiteBefore)
          ((Text.stops_cons _ _ _).2 (by decide))
          (.mark .comma white_nil whiteAfter stops spellsBehind)
      · rw [List.cons_append, List.append_assoc, List.cons_append, List.append_assoc]
        exact .mark isMark whiteSpace whiteGap ((Text.stops_append empty _).2 stopsGap)
          (hypothesis (lastBehind last))
  | @descendant space text tokens nonempty white stopsSeparator spells hypothesis =>
      rw [List.cons_append, List.append_assoc]
      have filled : text ≠ [] := by
        rintro rfl
        cases spells.eq_nil
        exact last rfl
      exact .descendant nonempty white ((Text.stops_append filled _).2 stopsSeparator)
        (hypothesis (lastBehind last))

/-! ## Texts with white space at their ends -/

/-- The blank space at both ends of a text is white space that the scanner knows. -/
structure WhiteEnds (text : Text) : Prop where
  leading : White (text.takeWhile Text.isBlank)
  trailing : White (text.reverse.takeWhile Text.isBlank)

instance : DecidablePred White := fun text =>
  decidable_of_iff (text.all isSpace = true) List.all_eq_true

instance (text : Text) : Decidable (WhiteEnds text) :=
  decidable_of_iff
    (White (text.takeWhile Text.isBlank) ∧ White (text.reverse.takeWhile Text.isBlank))
    ⟨fun ⟨leading, trailing⟩ => ⟨leading, trailing⟩, fun ends => ⟨ends.leading, ends.trailing⟩⟩

/-- Text that spells some trimmed tokens, with white space around it. -/
inductive Padded : List SelectorToken → Text → Prop where
  | intro {tokens : List SelectorToken} {before text after : Text}
      (whiteBefore : White before) (whiteAfter : White after)
      (stops : Text.Stops Text.isBlank text) (spells : Spells tokens text)
      (trimmed : Trimmed tokens) : Padded tokens (before ++ (text ++ after))

/-- A text whose end is trimmed has lost blank space of its own end. -/
theorem exists_trim_append {text : Text} (ends : WhiteEnds text) :
    ∃ after, White after ∧
      text = text.takeWhile Text.isBlank ++ (Text.trim text ++ after) := by
  refine ⟨((Text.trimStart text).reverse.takeWhile Text.isBlank).reverse, ?_, ?_⟩
  · intro character member
    have run : (Text.trimStart text).reverse.takeWhile Text.isBlank <+:
        text.reverse.takeWhile Text.isBlank := by
      conv => rhs; rw [← Text.takeWhile_append_trimStart text, List.reverse_append,
        List.takeWhile_append]
      split
      · rename_i whole
        rw [(List.takeWhile_prefix _).eq_of_length whole]
        exact List.prefix_append _ _
      · exact List.prefix_refl _
    exact ends.trailing character (run.subset (List.mem_reverse.1 member))
  · rw [Text.trim, Text.trimEnd, ← List.reverse_append, List.takeWhile_append_dropWhile,
      List.reverse_reverse, Text.takeWhile_append_trimStart]

theorem padded_of_tokenize {selector : Text} {tokens : List SelectorToken}
    (accepted : tokenize selector = .ok tokens) (ends : WhiteEnds selector) :
    Padded tokens selector := by
  have spells := tokenize_eq_ok_iff.1 accepted
  rcases exists_trim_append ends with ⟨after, whiteAfter, split⟩
  rw [split]
  exact .intro ends.leading whiteAfter (Text.stops_trimStart selector).trimEnd spells
    spells.trimmed

theorem White.blank {text : Text} (white : White text) : Text.Blank text :=
  fun character member => isBlank_of_isSpace (white character member)

/-- What is padded is scanned without the white space around it. -/
theorem Padded.tokenize_eq {tokens : List SelectorToken} {text : Text}
    (padded : Padded tokens text) : tokenize text = .ok tokens := by
  rcases padded with ⟨whiteBefore, whiteAfter, _, spells, trimmed⟩
  rw [tokenize_eq_ok_iff, ← List.append_assoc,
    Text.trim_surrounded whiteBefore.blank whiteAfter.blank]
  exact spells.trim trimmed

/-- Tokens with a comma between them have the outer sides of the two. -/
theorem Trimmed.append_comma {front back : List SelectorToken} (isFront : Trimmed front)
    (isBack : Trimmed back) : Trimmed (front ++ .comma :: back) := by
  have commaStops : Text.Stops Text.isBlank SelectorToken.comma.content :=
    (Text.stops_cons _ _ _).2 (by decide)
  have commaSolid : Text.EndsSolid SelectorToken.comma.content := ⟨[], ',', rfl, by decide⟩
  constructor
  · cases front with
    | nil =>
        rintro token ⟨⟩
        exact commaStops
    | cons first more => exact isFront.first
  · intro token isLast
    rw [List.getLast?_append, List.getLast?_cons] at isLast
    cases shape : back.getLast? with
    | none =>
        rw [shape] at isLast
        cases isLast
        exact commaSolid
    | some last =>
        rw [shape] at isLast
        cases isLast
        exact isBack.last last shape

/-- Padded texts can be listed if the first one has a token. -/
theorem Padded.append_comma {front back : List SelectorToken} {text behind : Text}
    (isFront : Padded front text) (filled : front ≠ []) (isBack : Padded back behind) :
    Padded (front ++ .comma :: back) (text ++ ',' :: behind) := by
  cases isFront with
  | @intro before text space whiteBefore whiteSpace stops spells trimmed =>
  cases isBack with
  | @intro gap behind after whiteGap whiteAfter stopsBehind spellsBehind trimmedBehind =>
  have textFilled : text ≠ [] := by
    rintro rfl
    rcases List.exists_cons_of_ne_nil filled with ⟨token, more, rfl⟩
    exact spells.ne_nil rfl
  have stopsSpace : Text.Stops isSpace behind := stopsBehind.of_imp fun _ => isBlank_of_isSpace
  have shape : before ++ (text ++ space) ++ ',' :: (gap ++ (behind ++ after)) =
      before ++ ((text ++ (space ++ ',' :: (gap ++ behind))) ++ after) := by
    simp
  rw [shape]
  exact .intro whiteBefore whiteAfter ((Text.stops_append textFilled _).2 stops)
    (spells.append_comma trimmed.not_descendant whiteSpace whiteGap stopsSpace spellsBehind)
    (trimmed.append_comma trimmedBehind)

/-- Any number of padded texts can be listed if all of them have tokens. -/
theorem padded_intercalate {lists : List (List SelectorToken)} {texts : List Text}
    (padded : List.Forall₂ Padded lists texts) (filled : ∀ tokens ∈ lists, tokens ≠ []) :
    Padded (List.intercalate [.comma] lists) (List.intercalate [','] texts) := by
  induction padded with
  | nil => exact .intro white_nil white_nil (Text.stops_nil _) .nil ⟨nofun, nofun⟩
  | @cons tokens text lists texts first rest hypothesis =>
      have tokensFilled := filled tokens List.mem_cons_self
      have behind := hypothesis fun other member => filled other (List.mem_cons_of_mem _ member)
      cases rest with
      | nil => simpa using first
      | cons second more =>
          rw [List.intercalate_cons_cons, List.intercalate_cons_cons, List.append_assoc,
            List.append_assoc, List.singleton_append, List.singleton_append]
          exact first.append_comma tokensFilled behind

end CssAuthoring.Selector

namespace CssAuthoring.Builder

open CssAuthoring.Selector

/-- Whether a text is accepted and has some token. -/
def hasTokens (selector : Text) : Bool :=
  match tokenize selector with
  | .ok tokens => !tokens.isEmpty
  | .error _ => false

theorem hasTokens_eq {selector : Text} {tokens : List SelectorToken}
    (accepted : tokenize selector = .ok tokens) : hasTokens selector = !tokens.isEmpty := by
  rw [hasTokens, accepted]

/-- Accepted texts are scanned one by one, and those with tokens are kept with their tokens. -/
theorem exists_padded_lists {selectors : List Text}
    (accepted : ∀ selector ∈ selectors, ∃ tokens, tokenize selector = .ok tokens)
    (ends : ∀ selector ∈ selectors, WhiteEnds selector) :
    ∃ lists, selectors.mapM tokenize = .ok lists ∧
      List.Forall₂ Padded (lists.filter fun tokens => !tokens.isEmpty)
        (selectors.filter hasTokens) := by
  induction selectors with
  | nil => exact ⟨[], rfl, .nil⟩
  | cons selector rest hypothesis =>
      rcases accepted selector List.mem_cons_self with ⟨tokens, scanned⟩
      rcases hypothesis (fun other member => accepted other (List.mem_cons_of_mem _ member))
        (fun other member => ends other (List.mem_cons_of_mem _ member)) with
        ⟨lists, scannedRest, padded⟩
      refine ⟨tokens :: lists, ?_, ?_⟩
      · rw [List.mapM_cons, scanned, scannedRest]
        rfl
      · rw [List.filter_cons, List.filter_cons, hasTokens_eq scanned]
        split
        · exact .cons (padded_of_tokenize scanned (ends selector List.mem_cons_self)) padded
        · exact padded

/--
A builder for some accepted texts, with nothing but white space trimmed off them, holds the tokens
of the one text that lists those of the texts that have tokens.  That text is accepted as well.
-/
theorem select_eq_tokenize_intercalate {selectors : List Text}
    (accepted : ∀ selector ∈ selectors, ∃ tokens, tokenize selector = .ok tokens)
    (ends : ∀ selector ∈ selectors, WhiteEnds selector) :
    ∃ tokens, tokenize (List.intercalate [','] (selectors.filter hasTokens)) = .ok tokens ∧
      select selectors = .ok ⟨tokens, []⟩ := by
  rcases exists_padded_lists accepted ends with ⟨lists, scanned, padded⟩
  have filled : ∀ tokens ∈ lists.filter fun tokens => !tokens.isEmpty, tokens ≠ [] := by
    intro tokens member
    simpa using (List.mem_filter.1 member).2
  refine ⟨_, (padded_intercalate padded filled).tokenize_eq, ?_⟩
  rw [select, scanned, ← Separated.join_of_filled filled]
  rfl

/-- Texts with combinators and a comma at their ends, an escape, a bar, and a blank one. -/
theorem select_eq_tokenize_intercalate_signs :
    ∃ tokens, tokenize "\n> a|b\\31 ,, \t[d] +\x0c".toList = .ok tokens ∧
      select ["\n> a|b\\31 ,".toList, " \r".toList, " \t[d] +\x0c".toList] = .ok ⟨tokens, []⟩ ∧
        tokens.map (·.content) = [">", "a|b\\31", ",", ",", "[d]", "+"].map String.toList := by
  have first : tokenize "\n> a|b\\31 ,".toList =
      .ok [.combinator '>', .canonical (.element "b\\31".toList (some "a".toList)), .comma] := by
    with_unfolding_all rfl
  have second : tokenize " \r".toList = .ok [] := by
    with_unfolding_all rfl
  have third : tokenize " \t[d] +\x0c".toList =
      .ok [.canonical (.attribute "d".toList none none none none), .combinator '+'] := by
    with_unfolding_all rfl
  have accepted : ∀ selector ∈ ["\n> a|b\\31 ,".toList, " \r".toList, " \t[d] +\x0c".toList],
      ∃ tokens, tokenize selector = .ok tokens := by
    simp only [List.forall_mem_cons]
    exact ⟨⟨_, first⟩, ⟨_, second⟩, ⟨_, third⟩, nofun⟩
  rcases select_eq_tokenize_intercalate accepted (by decide) with ⟨tokens, scanned, selected⟩
  rw [List.filter_cons, List.filter_cons, List.filter_cons, hasTokens_eq first,
    hasTokens_eq second, hasTokens_eq third] at scanned
  refine ⟨tokens, scanned, selected, ?_⟩
  rw [select, List.mapM_cons, first, List.mapM_cons, second, List.mapM_cons, third] at selected
  cases selected
  rfl

end CssAuthoring.Builder
