import CssAuthoring.Proofs.Prelude.Standing

/-!
# How preludes are cut

A prelude is cut into segments each of which stands before the text that follows it.  What the
tokenizer returns are the tokens of such segments, whatever the text, so that nothing is lost but
white space and characters that begin no token.  It fails only where such segments lead up to an
integer that is too long.

The main statement is `tokenize_iff_cuts`.
-/

namespace CssAuthoring.Prelude

open CssAuthoring.Numeric

/-- Segments that stand one behind the other at the start of a text, in front of a rest. -/
inductive Cuts (rest : Text) : List Segment → Text → Prop where
  | nil : Cuts rest [] rest
  | cons {segment : Segment} {text : Text} {segments : List Segment}
      (stands : Stands segment text) (cuts : Cuts rest segments text) :
      Cuts rest (segment :: segments) (segment.source ++ text)

/-- The sources of the segments and the rest make up the text. -/
theorem Cuts.source_append {rest text : Text} {segments : List Segment}
    (cuts : Cuts rest segments text) : segments.flatMap Segment.source ++ rest = text := by
  induction cuts with
  | nil => rfl
  | cons _ _ hypothesis => rw [List.flatMap_cons, List.append_assoc, hypothesis]

/-- Every segment stands before the sources of those behind it and the rest. -/
theorem Cuts.stands {rest text : Text} {front back : List Segment} {segment : Segment}
    (cuts : Cuts rest (front ++ segment :: back) text) :
    Stands segment (back.flatMap Segment.source ++ rest) := by
  induction front generalizing text with
  | nil =>
      cases cuts with
      | cons stands behind =>
          rw [behind.source_append]
          exact stands
  | cons first more hypothesis =>
      cases cuts with
      | cons _ behind => exact hypothesis behind

/-- The tokens of segments that stand at the start of a text are found, and then those behind. -/
theorem Cuts.tokenize_eq {rest text : Text} {segments : List Segment}
    (cuts : Cuts rest segments text) :
    tokenize text = (tokenize rest).map (segments.filterMap Segment.token? ++ ·) := by
  induction cuts with
  | nil => cases tokenize rest <;> rfl
  | @cons segment text segments stands _ hypothesis =>
      rcases stands.read with ⟨character, more, found, shape, read, same⟩
      rw [shape]
      cases isToken : segment.token? with
      | none =>
          rw [tokenize_blank read (same.trans isToken), hypothesis,
            List.filterMap_cons_none isToken]
      | some token =>
          rw [tokenize_token read (same.trans isToken), hypothesis,
            List.filterMap_cons_some isToken]
          cases tokenize rest <;> rfl

/-- Every text is cut up to its end, or up to an integer that is too long. -/
theorem exists_cuts (text : Text) :
    ∃ segments rest, Cuts rest segments text ∧ (rest = [] ∨ ∃ failure, TooLong rest failure) := by
  fun_induction segments text with
  | case1 => exact ⟨[], [], .nil, .inl rfl⟩
  | case2 character rest failure failed =>
      exact ⟨[], character :: rest, .nil, .inr ⟨failure, tooLong_of_readSegment failed⟩⟩
  | case3 character rest segment after read shorter hypothesis =>
      rcases hypothesis with ⟨segments, left, cuts, ends⟩
      refine ⟨segment :: segments, left, ?_, ends⟩
      rw [← readSegment_source read]
      exact .cons (stands_of_readSegment read) cuts

theorem TooLong.tokenize_eq {text : Text} {failure : NumeralTooLong}
    (tooLong : TooLong text failure) : tokenize text = .error failure := by
  rcases tooLong.read with ⟨character, rest, rfl, failed⟩
  rw [tokenize, segments]
  split
  · rename_i found
    rw [failed] at found
    cases found
    rfl
  · rename_i found
    rw [failed] at found
    cases found

/-- The tokens of segments that make up a text are found. -/
theorem Cuts.tokenize_ok {text : Text} {segments : List Segment} (cuts : Cuts [] segments text) :
    tokenize text = .ok (segments.filterMap Segment.token?) := by
  have nothing : tokenize [] = .ok [] := by
    rw [tokenize, Prelude.segments]
    rfl
  rw [cuts.tokenize_eq, nothing]
  exact congrArg Except.ok (List.append_nil _)

theorem Cuts.tokenize_error {rest text : Text} {segments : List Segment}
    {failure : NumeralTooLong} (cuts : Cuts rest segments text) (tooLong : TooLong rest failure) :
    tokenize text = .error failure := by
  rw [cuts.tokenize_eq, tooLong.tokenize_eq]
  rfl

theorem tokenize_ok_iff_cuts {prelude : Text} {tokens : List PreludeToken} :
    tokenize prelude = .ok tokens ↔
      ∃ segments, Cuts [] segments prelude ∧ segments.filterMap Segment.token? = tokens := by
  constructor
  · intro accepted
    rcases exists_cuts prelude with ⟨segments, rest, cuts, rfl | ⟨failure, tooLong⟩⟩
    · rw [cuts.tokenize_ok] at accepted
      exact ⟨segments, cuts, Except.ok.inj accepted⟩
    · rw [cuts.tokenize_error tooLong] at accepted
      cases accepted
  · rintro ⟨segments, cuts, rfl⟩
    exact cuts.tokenize_ok

theorem tokenize_error_iff_cuts {prelude : Text} {failure : NumeralTooLong} :
    tokenize prelude = .error failure ↔
      ∃ segments rest, Cuts rest segments prelude ∧ TooLong rest failure := by
  constructor
  · intro failed
    rcases exists_cuts prelude with ⟨segments, rest, cuts, rfl | ⟨other, tooLong⟩⟩
    · rw [cuts.tokenize_ok] at failed
      cases failed
    · rw [cuts.tokenize_error tooLong] at failed
      cases failed
      exact ⟨segments, rest, cuts, tooLong⟩
  · rintro ⟨segments, rest, cuts, tooLong⟩
    exact cuts.tokenize_error tooLong

/--
The tokens of a prelude are those of segments that make it up and stand one behind the other: white
space, characters that begin no token in front of what follows, and tokens.  The tokenizer fails
exactly where such segments lead up to an integer that is too long.  Behind a segment that ends in
an identifier character there is no other one, so that no word is cut apart.
-/
theorem tokenize_iff_cuts (prelude : Text) :
    (∀ tokens, tokenize prelude = .ok tokens ↔
      ∃ segments, Cuts [] segments prelude ∧ segments.filterMap Segment.token? = tokens) ∧
    (∀ failure, tokenize prelude = .error failure ↔
      ∃ segments rest, Cuts rest segments prelude ∧ TooLong rest failure) ∧
    ∀ segments rest, Cuts rest segments prelude →
      prelude = segments.flatMap Segment.source ++ rest ∧
        ∀ front segment back, segments = front ++ segment :: back →
          Stands segment (back.flatMap Segment.source ++ rest) ∧
            ∀ text last, segment.source = text ++ [last] → isIdentifierCharacter last = true →
              Text.Stops isIdentifierCharacter (back.flatMap Segment.source ++ rest) := by
  refine ⟨fun _ => tokenize_ok_iff_cuts, fun _ => tokenize_error_iff_cuts, ?_⟩
  intro segments rest cuts
  refine ⟨cuts.source_append.symm, ?_⟩
  rintro front segment back rfl
  exact ⟨cuts.stands, fun _ _ => cuts.stands.stops⟩

end CssAuthoring.Prelude
