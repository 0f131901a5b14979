import CssAuthoring.Text.Basic

/-!
# Glob patterns

Patterns for whole path texts.  A star stands for any run of characters, a question mark for one
character, and a bracket for one character of a set; slashes and dots are ordinary.  There is no
escape character.

A set is cut at its hyphens into chunks, and each cut is a range from the last character of one
chunk to the first of the next.  A hyphen that cannot join two characters is a member, and a range
that runs backwards is dropped together with its ends.  A set that begins with an exclamation mark
once this is done holds the characters that are not listed.

Main statements: `matchesText_star`, a star alone matches everything; `matchesText_plain`, a pattern
without special characters matches itself only.
-/

namespace CssAuthoring.Glob

/-- A set of characters, given by ranges or by the ranges it leaves out. -/
structure CharacterSet where
  negated : Bool
  ranges : List (Char × Char)
  deriving DecidableEq, Repr

/-- Whether a set holds a character. -/
def CharacterSet.holds (set : CharacterSet) (character : Char) : Bool :=
  set.negated != set.ranges.any fun (first, last) => first ≤ character && character ≤ last

/-- One piece of a pattern. -/
inductive Piece where
  | run
  | any
  | one (character : Char)
  | member (set : CharacterSet)
  deriving DecidableEq, Repr

/-- How many characters at the start of a set cannot close it. -/
def leadLength : Text → Nat
  | '!' :: ']' :: _ => 2
  | '!' :: _ => 1
  | ']' :: _ => 1
  | _ => 0

/-- The text of a set and what follows its closing bracket, given what follows the opening one. -/
def closeSet? (text : Text) : Option (Text × Text) :=
  let lead := leadLength text
  match (text.drop lead).dropWhile (· ≠ ']') with
  | [] => none
  | _ :: after => some (text.take lead ++ (text.drop lead).takeWhile (· ≠ ']'), after)

theorem closeSet?_shorter {text inside after : Text}
    (closed : closeSet? text = some (inside, after)) : after.length < text.length := by
  unfold closeSet? at closed
  simp only at closed
  split at closed
  · contradiction
  · rename_i bracket rest stopped
    injection closed with pair
    injection pair with _ tail
    subst tail
    have shorter := Text.length_lt_of_dropWhile stopped
    rw [List.length_drop] at shorter
    omega

/-- The chunks of a set between the hyphens found at or after a position. -/
def chunks (position : Nat) (text : Text) : List Text :=
  match stopped : (text.drop position).dropWhile (· ≠ '-') with
  | [] => [text]
  | _ :: after =>
    have : after.length < text.length := by
      have shorter := Text.length_lt_of_dropWhile stopped
      rw [List.length_drop] at shorter
      omega
    (text.take position ++ (text.drop position).takeWhile (· ≠ '-')) :: chunks 2 after
termination_by text.length

/-- Gives a hyphen at the end of a set to the chunk before it. -/
def keepLastHyphen (parts : List Text) : List Text :=
  match parts.reverse with
  | [] :: previous :: earlier => earlier.reverse ++ [previous ++ ['-']]
  | _ => parts

/-- Joins a chunk to the chunks after it, dropping a range between them that runs backwards. -/
def joinChunk (chunk : Text) : List Text → List Text
  | [] => [chunk]
  | next :: rest =>
    match chunk.getLast?, next.head? with
    | some low, some high =>
      if high < low then (chunk.dropLast ++ next.drop 1) :: rest else chunk :: next :: rest
    | _, _ => chunk :: next :: rest

/-- The ranges between neighbouring chunks. -/
def rangesBetween : List Text → List (Char × Char)
  | chunk :: next :: rest =>
    (match chunk.getLast?, next.head? with
      | some low, some high => [(low, high)]
      | _, _ => []) ++ rangesBetween (next :: rest)
  | _ => []

/-- The set with the given chunks. -/
def setOfChunks (parts : List Text) : CharacterSet :=
  let (negated, members) :=
    match parts with
    | ('!' :: first) :: rest => (true, first :: rest)
    | _ => (false, parts)
  ⟨negated, members.flatten.map (fun character => (character, character)) ++ rangesBetween members⟩

/-- The set that a text between brackets stands for. -/
def setOf (text : Text) : CharacterSet :=
  let first := if text.head? = some '!' then 2 else 1
  setOfChunks ((keepLastHyphen (chunks first text)).foldr joinChunk [])

/-- The pieces of a pattern. -/
def parse : Text → List Piece
  | [] => []
  | '*' :: rest => .run :: parse rest
  | '?' :: rest => .any :: parse rest
  | '[' :: rest =>
    match closed : closeSet? rest with
    | some (inside, after) =>
      have := closeSet?_shorter closed
      .member (setOf inside) :: parse after
    | none => .one '[' :: parse rest
  | character :: rest => .one character :: parse rest
termination_by text => text.length

/-- All suffixes of a text, the longest first. -/
def suffixes : Text → List Text
  | [] => [[]]
  | character :: rest => (character :: rest) :: suffixes rest

/-- Whether pieces match a whole text. -/
def matchPieces : List Piece → Text → Bool
  | [], text => text.isEmpty
  | .run :: rest, text => (suffixes text).any (matchPieces rest)
  | _ :: _, [] => false
  | .any :: rest, _ :: text => matchPieces rest text
  | .one expected :: rest, character :: text => expected == character && matchPieces rest text
  | .member set :: rest, character :: text => set.holds character && matchPieces rest text

/-- Whether a pattern matches a whole text. -/
def matchesText (pattern text : Text) : Bool :=
  matchPieces (parse pattern) text

theorem nil_mem_suffixes (text : Text) : [] ∈ suffixes text := by
  induction text with
  | nil => simp [suffixes]
  | cons character rest hypothesis => simp [suffixes, hypothesis]

/-- A star alone matches every text. -/
theorem matchesText_star (text : Text) : matchesText ['*'] text = true := by
  simp only [matchesText, parse, matchPieces, List.any_eq_true]
  exact ⟨[], nil_mem_suffixes text, rfl⟩

/-- A pattern without special characters matches itself only. -/
theorem matchesText_plain
    (pattern text : Text) (plain : ∀ character ∈ pattern, character ∉ ['*', '?', '[']) :
    matchesText pattern text = true ↔ pattern = text := by
  unfold matchesText
  induction pattern generalizing text with
  | nil => cases text <;> simp [parse, matchPieces]
  | cons character rest hypothesis =>
    have here := plain character (by simp)
    have later (more : Text) : matchPieces (parse rest) more = true ↔ rest = more :=
      hypothesis more fun other member => plain other (by simp [member])
    have parsed : parse (character :: rest) = .one character :: parse rest := by
      simp only [List.mem_cons, List.not_mem_nil, or_false, not_or] at here
      rw [parse] <;> simp_all
    rw [parsed]
    cases text with
    | nil => simp [matchPieces]
    | cons other more => simp [matchPieces, later]

end CssAuthoring.Glob
