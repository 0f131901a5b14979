import CssAuthoring.Proofs.Prelude.RoundTrip

/-!
# Preludes with the same written form

The written form of a prelude has lost white space between its tokens and every character outside
the grammar, and it has gained a parenthesis where an argument did not end.  Preludes with the same
written form agree in everything else.
-/

namespace CssAuthoring.Prelude

open CssAuthoring.Numeric

/-- A text without its white space. -/
def unspaced (text : Text) : Text :=
  text.filter fun character => !isSpace character

@[simp]
theorem unspaced_append (front back : Text) :
    unspaced (front ++ back) = unspaced front ++ unspaced back :=
  List.filter_append ..

theorem unspaced_eq_nil {text : Text} (white : ∀ character ∈ text, isSpace character = true) :
    unspaced text = [] := by
  rw [unspaced, List.filter_eq_nil_iff]
  intro character member
  simp [white character member]

namespace Segment

/-- The white space between tokens that a segment takes. -/
def spaces : Segment → Text
  | .blank run => run
  | .call _ gap _ _ => gap
  | _ => []

/-- What stands for a segment in the written form. -/
def kept : Segment → Text
  | .token found => found.content
  | .call name _ argument _ => name ++ '(' :: argument ++ [')']
  | _ => []

/-- Whether a segment is neither a dropped character nor an argument without an end. -/
def Whole : Segment → Prop
  | .dropped _ => False
  | .call _ _ _ (.unclosed _ _) => False
  | _ => True

/-- A whole segment is written as it was read, up to white space. -/
theorem Whole.unspaced_source {segment : Segment} (whole : segment.Whole)
    (white : ∀ character ∈ segment.spaces, isSpace character = true) :
    unspaced segment.source = unspaced segment.kept := by
  cases segment with
  | blank run => exact unspaced_eq_nil white
  | token found => rfl
  | call name gap argument closing =>
      have noGap : unspaced gap = [] := unspaced_eq_nil white
      cases closing with
      | closed => simp [source, kept, Closing.text, noGap]
      | unclosed depth quoting => cases whole
  | dropped character => cases whole

end Segment

/-- White space between tokens is made of spaces, tabs and line ends. -/
theorem readSegment_spaces {character : Char} {rest after : Text} {segment : Segment}
    (read : readSegment character rest = .ok (segment, after)) :
    ∀ member ∈ segment.spaces, isSpace member = true := by
  cases reads_of_readSegment read with
  | blank white =>
      intro member inRun
      rcases List.mem_cons.1 inRun with rfl | inRest
      · exact white
      · exact Text.mem_takeWhile member inRest
  | number ordinary starts numeric =>
      rcases readsAs_numeric ordinary starts numeric separated_nil with ⟨token, rfl, _⟩
      exact List.forall_mem_nil _
  | word _ _ _ word =>
      rw [readWord] at word
      dsimp only at word
      split at word
      · cases word
        exact List.forall_mem_nil _
      · split at word
        · cases word
          exact Text.mem_takeWhile
        · cases word
          exact List.forall_mem_nil _
  | comparison starts comparison =>
      rcases readsAs_comparison starts comparison separated_nil with ⟨token, rfl, _⟩
      exact List.forall_mem_nil _
  | _ => exact List.forall_mem_nil _

theorem segments_spaces {prelude : Text} {found : List Segment}
    (scanned : segments prelude = .ok found) :
    ∀ segment ∈ found, ∀ character ∈ segment.spaces, isSpace character = true := by
  induction found generalizing prelude with
  | nil => nofun
  | cons first more hypothesis =>
      rcases exists_of_segments scanned with ⟨character, rest, after, rfl, read, tail⟩
      intro segment member
      rcases List.mem_cons.1 member with rfl | inMore
      · exact readSegment_spaces read
      · exact hypothesis tail segment inMore

/-- A prelude of whole segments is made up of what is kept of them, up to white space. -/
theorem unspaced_of_whole {prelude : Text} {found : List Segment}
    (scanned : segments prelude = .ok found) (whole : ∀ segment ∈ found, segment.Whole) :
    unspaced prelude = unspaced (found.flatMap Segment.kept) := by
  have white := segments_spaces scanned
  rw [← source_segments scanned]
  clear scanned
  induction found with
  | nil => rfl
  | cons segment more hypothesis =>
      rw [List.forall_mem_cons] at whole white
      rw [List.flatMap_cons, List.flatMap_cons, unspaced_append, unspaced_append,
        whole.1.unspaced_source white.1, hypothesis whole.2 white.2]

theorem Segment.kept_of_none {segment : Segment} (noToken : segment.token? = none) :
    segment.kept = [] := by
  cases segment with
  | call name gap argument closing =>
      rcases exists_token_call name gap argument closing with ⟨token, isToken, _⟩
      rw [noToken] at isToken
      cases isToken
  | token found => cases noToken
  | _ => rfl

theorem Segment.kept_of_some {segment : Segment} {token : PreludeToken}
    (isToken : segment.token? = some token) : segment.kept = token.content := by
  cases segment with
  | call name gap argument closing =>
      rcases exists_token_call name gap argument closing with ⟨other, isOther, content, _⟩
      rw [isToken] at isOther
      cases isOther
      exact content.symm
  | token found =>
      cases isToken
      rfl
  | _ => cases isToken

theorem unspaced_behind (tokens : List PreludeToken) :
    unspaced (behind tokens) = unspaced (render (tokens.map Token.content)) := by
  cases tokens <;> rfl

/-- The written form of the tokens of segments is what is kept of them, up to white space. -/
theorem unspaced_render (found : List Segment) :
    unspaced (render ((found.filterMap Segment.token?).map Token.content)) =
      unspaced (found.flatMap Segment.kept) := by
  induction found with
  | nil => rfl
  | cons segment more hypothesis =>
      cases isToken : segment.token? with
      | none =>
          rw [List.filterMap_cons_none isToken, List.flatMap_cons, Segment.kept_of_none isToken,
            List.nil_append, hypothesis]
      | some token =>
          rw [List.filterMap_cons_some isToken, render_cons, List.flatMap_cons, unspaced_append,
            unspaced_append, unspaced_behind, hypothesis, Segment.kept_of_some isToken]

/--
Two preludes have the same segments up to white space, dropped characters and arguments without an
end.  If they have neither of the last two, they are the same up to white space.
-/
def Alike (first second : Text) : Prop :=
  ∃ firstFound secondFound, segments first = .ok firstFound ∧ segments second = .ok secondFound ∧
    unspaced (firstFound.flatMap Segment.kept) = unspaced (secondFound.flatMap Segment.kept) ∧
      ((∀ segment ∈ firstFound ++ secondFound, segment.Whole) → unspaced first = unspaced second)

/-- Preludes with the same written form are alike. -/
theorem alike_of_normalize {first second key : Text} (isFirst : normalize first = .ok key)
    (isSecond : normalize second = .ok key) : Alike first second := by
  have written {prelude : Text} (normalized : normalize prelude = .ok key) :
      ∃ found, segments prelude = .ok found ∧
        unspaced key = unspaced (found.flatMap Segment.kept) := by
    rw [normalize, tokenize] at normalized
    cases scanned : Prelude.segments prelude with
    | error failure =>
        rw [scanned] at normalized
        cases normalized
    | ok found =>
        rw [scanned] at normalized
        cases normalized
        exact ⟨found, rfl, unspaced_render found⟩
  rcases written isFirst with ⟨firstFound, firstScanned, firstKept⟩
  rcases written isSecond with ⟨secondFound, secondScanned, secondKept⟩
  refine ⟨firstFound, secondFound, firstScanned, secondScanned, firstKept.symm.trans secondKept, ?_⟩
  intro whole
  rw [List.forall_mem_append] at whole
  rw [unspaced_of_whole firstScanned whole.1, unspaced_of_whole secondScanned whole.2, ← firstKept,
    secondKept]

end CssAuthoring.Prelude
