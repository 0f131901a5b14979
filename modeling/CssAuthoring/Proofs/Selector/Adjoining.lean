import CssAuthoring.Proofs.Selector.RoundTrip
import CssAuthoring.Proofs.Separated

/-!
# Tokens next to each other

A list of tokens can be written and scanned again if every token can be written directly in front of
the next one: nothing in the list has to be looked at but neighbours.  With a comma before and
behind it, a list says by its neighbours also what may stand at its ends, and lists are put together
at their commas.

Main statements: `tokenize_render_eq_iff`, which tokens are scanned from their written form;
`Regular.tokenize_eq`, regular ones are; `regular_of_tokenize`, and what was scanned is regular,
provided that no complex selector begins or ends with a combinator.
-/

namespace CssAuthoring.Selector

open CssAuthoring.Separated

/-! ## Tokens that may be neighbours -/

/-- A token of a text can be written directly in front of another one. -/
inductive Linked : SelectorToken → SelectorToken → Prop where
  | simple {part : Part} {source : Text} {next : SelectorToken}
      (simple : Simple part source) (settled : Settled part)
      (stops : Text.Stops (extendsPart part) (spaced next)) : Linked ⟨part, source⟩ next
  | mark {sign : Char} {token next : SelectorToken}
      (isMark : IsMark sign token) (notDescendant : next ≠ .combinator ' ') : Linked token next
  | descendant {next : SelectorToken}
      (stops : Text.Stops startsSeparator (spaced next)) : Linked (.combinator ' ') next

/-- Only a comma is taken for one. -/
theorem Linked.eq_comma {token next : SelectorToken} (linked : Linked token next)
    (isComma : token.isComma = true) : token = .comma := by
  cases linked with
  | simple simple => cases simple <;> simp [SelectorToken.isComma] at isComma
  | mark isMark =>
      cases isMark with
      | comma => rfl
      | combinator => simp [SelectorToken.isComma, SelectorToken.combinator] at isComma
  | descendant => simp [SelectorToken.isComma, SelectorToken.combinator] at isComma

/-- A comma and the signs of combinators end every simple selector. -/
theorem stops_spaced_mark {sign : Char} {token : SelectorToken} (isMark : IsMark sign token)
    (part : Part) : Text.Stops (extendsPart part) (spaced token) := by
  rcases exists_spaced_mark isMark with ⟨before, white, shape⟩
  rcases isMark.head white [' '] with ⟨character, rest, written, separates⟩
  rw [shape, written, Text.stops_cons]
  exact extendsPart_of_startsSeparator separates part

/-- What a written list begins with is written for its first token. -/
theorem stops_spaced_head {isKind : Char → Bool} {tokens : List SelectorToken}
    (stops : Text.Stops isKind (render tokens)) :
    ∀ next ∈ tokens.head?, Text.Stops isKind (spaced next) := by
  rintro next member
  rcases List.head?_eq_some_iff.1 member with ⟨rest, rfl⟩
  by_cases empty : spaced next = []
  · rw [empty]
    exact Text.stops_nil _
  · rw [render_cons] at stops
    exact (Text.stops_append empty _).1 stops

/-! ## Scanning linked tokens -/

/-- Spelled tokens are linked, and a comma can stand behind them. -/
theorem Spells.isChain {tokens : List SelectorToken} {text : Text} (spells : Spells tokens text)
    (last : tokens.getLast? ≠ some (.combinator ' ')) :
    (tokens ++ [SelectorToken.comma]).IsChain Linked := by
  have behind {token : SelectorToken} {tokens : List SelectorToken}
      (last : (token :: tokens).getLast? ≠ some (.combinator ' ')) :
      tokens.getLast? ≠ some (.combinator ' ') := by
    cases tokens with
    | nil => simp
    | cons next more => rwa [List.getLast?_cons_cons] at last
  induction spells with
  | nil => exact .singleton _
  | @simple part source text tokens simple settled stops spells hypothesis =>
      rw [List.cons_append, List.isChain_cons]
      refine ⟨?_, hypothesis (behind last)⟩
      intro next member
      refine .simple simple settled ?_
      cases tokens with
      | nil =>
          cases member
          exact stops_spaced_mark .comma part
      | cons other more => exact stops_spaced_head (spells.stops_render stops) next member
  | @mark sign token before after text tokens isMark _ _ stops spells hypothesis =>
      rw [List.cons_append, List.isChain_cons]
      refine ⟨?_, hypothesis (behind last)⟩
      rintro next member
      refine .mark isMark ?_
      rintro rfl
      cases tokens with
      | nil => cases member
      | cons other more => exact spells.notDescendant stops member
  | @descendant space text tokens _ _ stops spells hypothesis =>
      rw [List.cons_append, List.isChain_cons]
      refine ⟨?_, hypothesis (behind last)⟩
      intro next member
      refine .descendant ?_
      cases tokens with
      | nil => simp at last
      | cons other more => exact stops_spaced_head (spells.noSeparator_render stops) next member

theorem Linked.spaced_ne_nil {token next : SelectorToken} (linked : Linked token next) :
    spaced token ≠ [] := by
  cases linked with
  | simple simple settled =>
      rw [spaced_simple simple]
      exact simple.ne_nil settled
  | mark isMark =>
      rcases exists_spaced_mark isMark with ⟨before, _, shape⟩
      simp [shape]
  | descendant => simp [spaced_descendant]

/-- Linked tokens can be written, and are spelled as they are written. -/
theorem spells_of_isChain {tokens : List SelectorToken}
    (linked : (tokens ++ [SelectorToken.comma]).IsChain Linked) :
    Spells tokens (render tokens) := by
  induction tokens with
  | nil => exact .nil
  | cons token tokens hypothesis =>
      rw [List.cons_append, List.isChain_cons] at linked
      have spells := hypothesis linked.2
      rcases exists_head tokens with ⟨next, isNext⟩
      have written {isKind : Char → Bool} (stops : Text.Stops isKind (spaced next)) :
          Text.Stops isKind (render tokens) := by
        cases tokens with
        | nil => exact Text.stops_nil _
        | cons first more =>
            cases isNext
            rcases exists_head more with ⟨second, isSecond⟩
            have behind := (List.isChain_cons.1 linked.2).1 second isSecond
            rwa [render_cons, Text.stops_append behind.spaced_ne_nil]
      cases linked.1 next isNext with
      | simple simple settled stops =>
          rw [render_cons, spaced_simple simple]
          exact .simple simple settled (written stops) spells
      | mark isMark notDescendant =>
          apply spells.mark_render isMark
          cases tokens with
          | nil => simp
          | cons first more =>
              cases isNext
              simpa using notDescendant
      | descendant stops =>
          rw [render_cons, spaced_descendant]
          exact .descendant (by simp) white_space (written stops) spells
where
  exists_head (tokens : List SelectorToken) :
      ∃ next, next ∈ (tokens ++ [SelectorToken.comma]).head? := by
    cases tokens with
    | nil => exact ⟨_, rfl⟩
    | cons first more => exact ⟨first, rfl⟩

/-! ## Selector lists whose complex selectors begin and end with simple ones -/

/-- A combinator that is written with a sign. -/
def IsSign (token : SelectorToken) : Prop :=
  token = .combinator '>' ∨ token = .combinator '+' ∨ token = .combinator '~'

instance : DecidablePred IsSign := fun token =>
  inferInstanceAs (Decidable (token = .combinator '>' ∨ token = .combinator '+' ∨
    token = .combinator '~'))

theorem isSign_iff {token : SelectorToken} :
    IsSign token ↔ ∃ symbol, isCombinatorSymbol symbol = true ∧ token = .combinator symbol := by
  constructor
  · rintro (rfl | rfl | rfl)
    · exact ⟨'>', rfl, rfl⟩
    · exact ⟨'+', rfl, rfl⟩
    · exact ⟨'~', rfl, rfl⟩
  · rintro ⟨symbol, isSymbol, rfl⟩
    simp only [isCombinatorSymbol, Bool.or_eq_true, decide_eq_true_eq] at isSymbol
    rcases isSymbol with (rfl | rfl) | rfl
    · exact .inl rfl
    · exact .inr (.inl rfl)
    · exact .inr (.inr rfl)

/-- Two tokens are linked, and they are no comma with the sign of a combinator next to it. -/
structure Beside (token next : SelectorToken) : Prop where
  linked : Linked token next
  behind : token = .comma → ¬ IsSign next
  before : next = .comma → ¬ IsSign token

/-- No token but the descendant combinator has blank space at its ends. -/
def Solid (tokens : List SelectorToken) : Prop :=
  ∀ token ∈ tokens, token ≠ .combinator ' ' →
    (∀ first ∈ token.content.head?, Text.isBlank first = false) ∧
      ∀ last ∈ token.content.getLast?, Text.isBlank last = false

/-- No complex selector begins or ends with the sign of a combinator. -/
def Enclosed (tokens : List SelectorToken) : Prop :=
  ∀ group ∈ groups tokens,
    (∀ token ∈ group.head?, ¬ IsSign token) ∧ ∀ token ∈ group.getLast?, ¬ IsSign token

instance (tokens : List SelectorToken) : Decidable (Solid tokens) :=
  decidable_of_iff (tokens.all fun token => token = .combinator ' ' ||
      (token.content.head?.all fun first => Text.isBlank first = false) &&
        token.content.getLast?.all fun last => Text.isBlank last = false) (by
    simp [Solid, Decidable.or_iff_not_imp_left, Option.all_eq_true])

instance (tokens : List SelectorToken) : Decidable (Enclosed tokens) :=
  inferInstanceAs (Decidable (∀ _ ∈ groups tokens, _))

/-- Tokens that can stand next to each other, and next to a comma at either end. -/
structure Regular (tokens : List SelectorToken) : Prop where
  fenced : Fenced Beside .comma tokens
  solid : Solid tokens

theorem not_isSign_comma : ¬ IsSign .comma := by
  decide

theorem beside_comma : Beside .comma .comma :=
  ⟨.mark .comma (by decide), fun _ => not_isSign_comma, fun _ => not_isSign_comma⟩

/-- Only a comma is taken for one where every token is in front of some token. -/
theorem eq_comma_of_isChain {tokens : List SelectorToken}
    (linked : (tokens ++ [SelectorToken.comma]).IsChain Linked) :
    ∀ token ∈ tokens, token.isComma = true → token = .comma := by
  intro token member
  rcases List.append_of_mem member with ⟨front, back, rfl⟩
  rw [List.append_assoc, List.cons_append] at linked
  have behind := linked.right_of_append
  cases back with
  | nil => exact behind.rel.eq_comma
  | cons next more => exact behind.rel.eq_comma

/-- What holds of neighbours in linked tokens holds of those in their groups. -/
theorem fenced_of_mem_groups {adjoins : SelectorToken → SelectorToken → Prop}
    {tokens group : List SelectorToken} (linked : Fenced Linked .comma tokens)
    (fenced : Fenced adjoins .comma tokens) (isGroup : group ∈ groups tokens) :
    Fenced adjoins .comma group :=
  (fenced_iff_pieces (eq_comma_of_isChain (List.isChain_cons.1 linked).2)).1 fenced group
    (mem_groups.1 isGroup).1

/-- Tokens of a group are tokens of the list, and none of them is a comma. -/
theorem mem_of_mem_groups {tokens group : List SelectorToken} (isGroup : group ∈ groups tokens) :
    ∀ token ∈ group, token ∈ tokens ∧ token ≠ .comma := by
  intro token member
  have inside : token ∈ (groups tokens).flatten := List.mem_flatten.2 ⟨group, isGroup, member⟩
  rw [flatten_groups, List.mem_filter] at inside
  refine ⟨inside.1, ?_⟩
  rintro rfl
  simp at inside

theorem Solid.of_subset {tokens others : List SelectorToken} (solid : Solid tokens)
    (inside : ∀ token ∈ others, token ∈ tokens) : Solid others :=
  fun token member => solid token (inside token member)

/-- Linked tokens of which no group begins or ends with a sign stand next to each other. -/
theorem fenced_beside {tokens : List SelectorToken} (linked : Fenced Linked .comma tokens)
    (enclosed : Enclosed tokens) : Fenced Beside .comma tokens := by
  have isComma_eq := eq_comma_of_isChain (List.isChain_cons.1 linked).2
  rw [fenced_iff_pieces isComma_eq] at linked ⊢
  intro piece isPiece
  by_cases empty : piece = []
  · rw [empty, fenced_nil]
    exact beside_comma
  · have isGroup : piece ∈ groups tokens := mem_groups.2 ⟨isPiece, empty⟩
    have noComma (token : SelectorToken) (member : token ∈ piece) : token ≠ .comma :=
      (mem_of_mem_groups isGroup token member).2
    rcases (fenced_iff empty).1 (linked piece isPiece) with ⟨first, inside, last⟩
    refine (fenced_iff empty).2 ⟨?_, ?_, ?_⟩
    · intro token member
      exact ⟨first token member, fun _ => (enclosed piece isGroup).1 token member,
        fun _ => not_isSign_comma⟩
    · apply inside.imp_of_mem_imp
      intro token next isToken isNext linked
      exact ⟨linked, fun same => absurd same (noComma token isToken),
        fun same => absurd same (noComma next isNext)⟩
    · intro token member
      exact ⟨last token member, fun _ => not_isSign_comma,
        fun _ => (enclosed piece isGroup).2 token member⟩

theorem Linked.ne_descendant {next : SelectorToken} (linked : Linked .comma next) :
    next ≠ .combinator ' ' := by
  generalize same : SelectorToken.comma = token at linked
  cases linked with
  | simple simple => cases simple <;> cases same
  | mark _ notDescendant => exact notDescendant
  | descendant => cases same

theorem not_linked_descendant : ¬ Linked (.combinator ' ') .comma := by
  intro linked
  generalize same : SelectorToken.combinator ' ' = token at linked
  cases linked with
  | simple simple => cases simple <;> cases same
  | mark isMark =>
      cases isMark with
      | comma => cases same
      | combinator isSymbol =>
          cases same
          exact absurd isSymbol (by decide)
  | descendant stops => exact absurd (stops ',' rfl) (by decide)

/-- No trimmed tokens end in the combinator of white space. -/
theorem Trimmed.not_descendant {tokens : List SelectorToken} (trimmed : Trimmed tokens) :
    tokens.getLast? ≠ some (.combinator ' ') := by
  intro isLast
  have blank : Text.Blank (SelectorToken.combinator ' ').content := by
    simp [SelectorToken.combinator, Text.Blank, Text.isBlank]
  exact (trimmed.last _ isLast).not_blank blank

/-- What was scanned is linked, with a comma before and behind it. -/
theorem fenced_of_tokenize {selector : Text} {tokens : List SelectorToken}
    (accepted : tokenize selector = .ok tokens) : Fenced Linked .comma tokens := by
  have spells := tokenize_eq_ok_iff.1 accepted
  have trimmed := spells.trimmed
  refine (spells.isChain trimmed.not_descendant).cons ?_
  intro first member
  apply Linked.mark .comma
  rintro rfl
  cases tokens with
  | nil => cases member
  | cons token tokens =>
      have stops := trimmed.first _ member ' ' rfl
      exact absurd stops (by decide)

/-- Exactly the linked tokens without blank space at their outer sides are scanned as written. -/
theorem tokenize_render_eq_iff {tokens : List SelectorToken} :
    tokenize (render tokens) = .ok tokens ↔ Fenced Linked .comma tokens ∧ Trimmed tokens := by
  constructor
  · intro accepted
    exact ⟨fenced_of_tokenize accepted, (tokenize_eq_ok_iff.1 accepted).trimmed⟩
  · rintro ⟨linked, trimmed⟩
    have spells := spells_of_isChain (List.isChain_cons.1 linked).2
    exact tokenize_eq_ok_iff.2 (spells.trim trimmed)

/-- What was scanned can stand next to each other if it does so at its ends. -/
theorem regular_of_tokenize {selector : Text} {tokens : List SelectorToken}
    (accepted : tokenize selector = .ok tokens) (enclosed : Enclosed tokens)
    (solid : Solid tokens) : Regular tokens :=
  ⟨fenced_beside (fenced_of_tokenize accepted) enclosed, solid⟩

theorem Linked.content_ne_nil {token next : SelectorToken} (linked : Linked token next) :
    token.content ≠ [] := by
  cases linked with
  | simple simple settled => exact simple.ne_nil settled
  | mark isMark => simp [isMark.content_eq]
  | descendant => simp [SelectorToken.combinator]

theorem Regular.linked {tokens : List SelectorToken} (regular : Regular tokens) :
    Fenced Linked .comma tokens :=
  regular.fenced.imp fun _ _ beside => beside.linked

/-- Tokens that can stand next to each other are scanned from their written form. -/
theorem Regular.tokenize_eq {tokens : List SelectorToken} (regular : Regular tokens) :
    tokenize (render tokens) = .ok tokens := by
  have linked := List.isChain_cons.1 regular.linked
  refine tokenize_render_eq_iff.2 ⟨regular.linked, ?_, ?_⟩
  · intro token isFirst
    rcases List.head?_eq_some_iff.1 isFirst with ⟨more, rfl⟩
    exact (regular.solid token List.mem_cons_self (linked.1 token rfl).ne_descendant).1
  · intro token isLast
    have behind := (List.isChain_append.1 linked.2).2.2 token isLast _ rfl
    have notDescendant : token ≠ .combinator ' ' := by
      rintro rfl
      exact not_linked_descendant behind
    have solid := (regular.solid token (List.mem_of_getLast? isLast) notDescendant).2
    rcases List.eq_nil_or_concat token.content with empty | ⟨front, last, shape⟩
    · exact absurd empty behind.content_ne_nil
    · rw [List.concat_eq_append] at shape
      rw [shape] at solid ⊢
      exact ⟨front, last, rfl, solid last (by simp)⟩

/-! ## Taking lists apart and putting them together -/

/-- A token is a settled simple selector. -/
structure IsSimple (token : SelectorToken) : Prop where
  simple : Simple token.part token.content
  settled : Settled token.part

/-- What ends a complex selector is a simple one. -/
theorem Beside.isSimple_before {token : SelectorToken} (beside : Beside token .comma)
    (notComma : token ≠ .comma) : IsSimple token := by
  rcases beside with ⟨linked, _, before⟩
  cases linked with
  | simple simple settled => exact ⟨simple, settled⟩
  | mark isMark =>
      cases isMark with
      | comma => exact absurd rfl notComma
      | combinator isSymbol => exact absurd (isSign_iff.2 ⟨_, isSymbol, rfl⟩) (before rfl)
  | descendant stops => exact absurd (.descendant stops) not_linked_descendant

/-- What begins a complex selector is a simple one. -/
theorem Beside.isSimple_behind {token next : SelectorToken} (beside : Beside .comma token)
    (linked : Linked token next) (notComma : token ≠ .comma) : IsSimple token := by
  rcases beside with ⟨first, behind, _⟩
  cases linked with
  | simple simple settled => exact ⟨simple, settled⟩
  | mark isMark =>
      cases isMark with
      | comma => exact absurd rfl notComma
      | combinator isSymbol => exact absurd (isSign_iff.2 ⟨_, isSymbol, rfl⟩) (behind rfl)
  | descendant => exact absurd rfl first.ne_descendant

theorem IsSimple.ne_comma {token : SelectorToken} (isSimple : IsSimple token) :
    token ≠ .comma := by
  rcases isSimple with ⟨simple, _⟩
  rintro rfl
  cases simple

theorem IsSimple.not_isSign {token : SelectorToken} (isSimple : IsSimple token) :
    ¬ IsSign token := by
  rcases isSimple with ⟨simple, _⟩
  rintro (rfl | rfl | rfl) <;> cases simple

/-- A complex selector begins and ends with simple ones, and its tokens are linked. -/
structure Complex (tokens : List SelectorToken) : Prop where
  nonempty : tokens ≠ []
  first : ∀ token ∈ tokens.head?, IsSimple token
  linked : tokens.IsChain Beside
  last : ∀ token ∈ tokens.getLast?, IsSimple token
  solid : Solid tokens

theorem regular_nil : Regular [] :=
  ⟨fenced_nil.2 beside_comma, by simp [Solid]⟩

/-- The complex selectors of a list. -/
theorem Regular.complex {tokens : List SelectorToken} (regular : Regular tokens) :
    ∀ group ∈ groups tokens, Complex group := by
  intro group isGroup
  have nonempty := (mem_groups.1 isGroup).2
  have members := mem_of_mem_groups isGroup
  have fenced := fenced_of_mem_groups regular.linked regular.fenced isGroup
  rcases (fenced_iff nonempty).1 fenced with ⟨first, inside, last⟩
  have lastSimple (token : SelectorToken) (isLast : token ∈ group.getLast?) : IsSimple token :=
    (last token isLast).isSimple_before (members token (List.mem_of_getLast? isLast)).2
  refine ⟨nonempty, ?_, inside, lastSimple, regular.solid.of_subset fun token member =>
    (members token member).1⟩
  intro token isFirst
  rcases List.head?_eq_some_iff.1 isFirst with ⟨more, rfl⟩
  cases more with
  | nil => exact lastSimple token rfl
  | cons next more =>
      exact (first token rfl).isSimple_behind inside.rel.linked
        (members token List.mem_cons_self).2

/-- A complex selector is a selector list. -/
theorem Complex.regular {tokens : List SelectorToken} (complex : Complex tokens) :
    Regular tokens := by
  refine ⟨(fenced_iff complex.nonempty).2 ⟨?_, complex.linked, ?_⟩, complex.solid⟩
  · intro token isFirst
    have simple := complex.first token isFirst
    refine ⟨.mark .comma ?_, fun _ => simple.not_isSign, fun _ => not_isSign_comma⟩
    rintro rfl
    cases simple.simple
  · intro token isLast
    have simple := complex.last token isLast
    refine ⟨.simple simple.simple simple.settled (stops_spaced_mark .comma _),
      fun _ => not_isSign_comma, fun _ => simple.not_isSign⟩

/-- Selector lists are joined with commas between them. -/
theorem regular_join {parts : List (List SelectorToken)}
    (isPart : ∀ part ∈ parts, Regular part) : Regular (join parts) := by
  refine join_induction regular_nil ?_ isPart
  intro front back isFront isBack
  refine ⟨fenced_append_cons.2 ⟨isFront.fenced, isBack.fenced⟩, ?_⟩
  intro token member notDescendant
  rcases List.mem_append.1 member with inFront | inBack
  · exact isFront.solid token inFront notDescendant
  · rcases List.mem_cons.1 inBack with rfl | inBack
    · have content : SelectorToken.comma.content = [','] := rfl
      rw [content]
      exact ⟨(Text.stops_cons _ _ _).2 rfl, by rintro last ⟨⟩; rfl⟩
    · exact isBack.solid token inBack notDescendant

/-- A character that is a combinator, the space of the descendant combinator included. -/
def IsCombinator (symbol : Char) : Prop :=
  symbol = ' ' ∨ isCombinatorSymbol symbol = true

theorem IsCombinator.linked {symbol : Char} (isCombinator : IsCombinator symbol)
    {token : SelectorToken} (simple : IsSimple token) : Linked (.combinator symbol) token := by
  rcases isCombinator with rfl | isSymbol
  · apply Linked.descendant
    rw [spaced_simple simple.simple]
    exact simple.simple.stops simple.settled
  · apply Linked.mark (.combinator isSymbol)
    rintro rfl
    cases simple.simple

theorem IsCombinator.stops {symbol : Char} (isCombinator : IsCombinator symbol) (part : Part) :
    Text.Stops (extendsPart part) (spaced (.combinator symbol)) := by
  rcases isCombinator with rfl | isSymbol
  · rw [spaced_descendant, Text.stops_cons]
    exact extendsPart_of_startsSeparator (by decide) part
  · exact stops_spaced_mark (.combinator isSymbol) part

/-- Two simple selectors are put next to each other where the first does not go on. -/
theorem IsSimple.beside {token next : SelectorToken} (simple : IsSimple token)
    (nextSimple : IsSimple next) (stops : Text.Stops (extendsPart token.part) (spaced next)) :
    Beside token next :=
  ⟨.simple simple.simple simple.settled stops, fun same => absurd same simple.ne_comma,
    fun same => absurd same nextSimple.ne_comma⟩

/-- A combinator can stand between any two simple selectors. -/
theorem IsCombinator.beside {symbol : Char} (isCombinator : IsCombinator symbol)
    {token : SelectorToken} (simple : IsSimple token) :
    Beside token (.combinator symbol) ∧ Beside (.combinator symbol) token := by
  have notComma : SelectorToken.combinator symbol ≠ .comma := by
    intro same
    cases same
  constructor
  · exact ⟨.simple simple.simple simple.settled (isCombinator.stops _),
      fun same => absurd same simple.ne_comma, fun same => absurd same notComma⟩
  · exact ⟨isCombinator.linked simple, fun same => absurd same notComma,
      fun same => absurd same simple.ne_comma⟩

/-- What begins and ends with complex selectors is one if all of it can stand together. -/
theorem Complex.append {front middle back : List SelectorToken} (isFront : Complex front)
    (isBack : Complex back) (solid : Solid middle)
    (linked : (front ++ middle ++ back).IsChain Beside) : Complex (front ++ middle ++ back) := by
  refine ⟨by simp [isFront.nonempty], ?_, linked, ?_, ?_⟩
  · intro token isFirst
    rw [List.append_assoc, List.head?_append_of_ne_nil _ isFront.nonempty] at isFirst
    exact isFront.first token isFirst
  · intro token isLast
    rw [List.getLast?_append_of_ne_nil _ isBack.nonempty] at isLast
    exact isBack.last token isLast
  · intro token member
    rw [List.mem_append, List.mem_append] at member
    rcases member with (inFront | inMiddle) | inBack
    · exact isFront.solid token inFront
    · exact solid token inMiddle
    · exact isBack.solid token inBack

/-- Complex selectors are combined by a combinator between them. -/
theorem Complex.combine {front back : List SelectorToken} (isFront : Complex front)
    (isBack : Complex back) {symbol : Char} (isCombinator : IsCombinator symbol) :
    Complex (front ++ [SelectorToken.combinator symbol] ++ back) := by
  refine isFront.append isBack ?_ ?_
  · intro token member notDescendant
    rw [List.mem_singleton.1 member] at notDescendant ⊢
    rcases isCombinator with rfl | isSymbol
    · exact absurd rfl notDescendant
    · have notBlank := (IsMark.combinator isSymbol).not_isBlank
      simp [SelectorToken.combinator, notBlank]
  · rw [List.append_assoc, List.singleton_append, List.isChain_append, List.isChain_cons]
    refine ⟨isFront.linked, ⟨?_, isBack.linked⟩, ?_⟩
    · intro token isFirst
      exact (isCombinator.beside (isBack.first token isFirst)).2
    · rintro token isLast next ⟨⟩
      exact (isCombinator.beside (isFront.last token isLast)).1

/-- A simple selector is put behind a complex one that does not go on with it. -/
theorem Complex.attach {front : List SelectorToken} (isFront : Complex front)
    {token : SelectorToken} (isToken : Complex [token])
    (stops : ∀ part, Text.Stops (extendsPart part) (spaced token)) :
    Complex (front ++ [token]) := by
  have attached := isFront.append isToken regular_nil.solid
  rw [List.append_nil] at attached
  apply attached
  rw [List.isChain_append]
  refine ⟨isFront.linked, isToken.linked, ?_⟩
  rintro last isLast next ⟨⟩
  exact (isFront.last last isLast).beside (isToken.first token rfl) (stops _)

end CssAuthoring.Selector
