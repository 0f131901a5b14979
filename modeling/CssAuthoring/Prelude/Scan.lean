import CssAuthoring.Prelude.Segment

/-!
# Scanning preludes

The segments of a prelude follow one another without gaps, and its tokens are those that segments
hold.  A written prelude is the contents of its tokens with single spaces between them.

Main statement: `source_segments`, the sources of the segments make up the prelude.
-/

namespace CssAuthoring.Prelude

open CssAuthoring.Numeric

/-- The segments of a prelude, from left to right. -/
def segments (prelude : Text) : Except NumeralTooLong (List Segment) :=
  match prelude with
  | [] => .ok []
  | character :: rest =>
    match read : readSegment character rest with
    | .error failure => .error failure
    | .ok (segment, after) =>
      have := readSegment_shorter read
      (segments after).map (segment :: ·)
termination_by prelude.length

/-- The tokens of a prelude. -/
def tokenize (prelude : Text) : Except NumeralTooLong (List PreludeToken) :=
  (segments prelude).map (List.filterMap Segment.token?)

/-- The written form of a prelude: the contents of its tokens between single spaces. -/
def render (contents : List Text) : Text :=
  List.intercalate [' '] contents

/-- The written form of the tokens of a prelude. -/
def normalize (prelude : Text) : Except NumeralTooLong Text :=
  (tokenize prelude).map fun tokens => render (tokens.map Token.content)

/-- The sources of the segments make up the prelude. -/
theorem source_segments {prelude : Text} {found : List Segment}
    (scanned : segments prelude = .ok found) : found.flatMap Segment.source = prelude := by
  fun_induction segments prelude generalizing found with
  | case1 => cases scanned; rfl
  | case2 => contradiction
  | case3 character rest segment after read shorter hypothesis =>
    cases tail : segments after with
    | error failure => rw [tail] at scanned; cases scanned
    | ok more =>
      rw [tail] at scanned
      cases scanned
      simpa [hypothesis tail] using readSegment_source read

end CssAuthoring.Prelude
