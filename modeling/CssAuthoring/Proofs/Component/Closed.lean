import Mathlib.Data.List.TakeWhile
import CssAuthoring.Proofs.Component.Outline

/-!
# Texts that leave nothing open

A text is closed if a comma behind it is read as the next value: no bracket, string, address or
comment of the text is open at its end.  Such a text has its values also in front of other text, if
that makes no lexeme with the last of its own.  A backslash in front of a line break is a value of
its own, so that a text which ends in the two is read apart up to the backslash only.

Main statements: `Closed.exists_readsApart` and `Closed.exists_readsApart_break`.
-/

namespace CssAuthoring.Component

open CssAuthoring.Numeric

/-! ## What is open behind lexemes -/

/-- The openings that wait behind lexemes, and the values collected there, the latest first. -/
def gather : List Pending → List Value → List Lexeme → List Pending × List Value
  | waiting, collected, [] => (waiting, collected)
  | waiting, collected, .atom leaf :: rest => gather waiting (.atom leaf :: collected) rest
  | waiting, collected, .enter opening :: rest => gather (⟨opening, collected⟩ :: waiting) [] rest
  | innermost :: outer, collected, .leave bracket :: rest =>
    if innermost.opening.bracket = bracket then gather outer (innermost.finish collected) rest
    else gather (innermost :: outer) (.atom (.flaw (.unmatched bracket)) :: collected) rest
  | [], collected, .leave bracket :: rest =>
    gather [] (.atom (.flaw (.unmatched bracket)) :: collected) rest

theorem assemble_eq_close (waiting : List Pending) (collected : List Value) (found : List Lexeme) :
    assemble waiting collected found =
      close (gather waiting collected found).1 (gather waiting collected found).2 := by
  fun_induction assemble waiting collected found <;> simp_all [gather]

theorem gather_append (waiting : List Pending) (collected : List Value)
    (found more : List Lexeme) :
    gather waiting collected (found ++ more) =
      gather (gather waiting collected found).1 (gather waiting collected found).2 more := by
  fun_induction gather waiting collected found <;> simp_all [gather]

/-- No bracket is open behind lexemes. -/
def Bracketed (found : List Lexeme) : Prop :=
  (gather [] [] found).1 = []

theorem Bracketed.assemble_eq {found : List Lexeme} (bracketed : Bracketed found) :
    assemble [] [] found = (gather [] [] found).2.reverse := by
  rw [assemble_eq_close, bracketed, close_nil]

/-- Values without an open bracket are put together apart from what follows them. -/
theorem Bracketed.assemble_append {found : List Lexeme} (bracketed : Bracketed found)
    (more : List Lexeme) :
    assemble [] [] (found ++ more) = assemble [] [] found ++ assemble [] [] more := by
  have inFront : InFront (gather [] [] found).2 [] [] [] ([] ++ (gather [] [] found).2) :=
    .outermost []
  rw [bracketed.assemble_eq, ← inFront.assemble_eq, List.nil_append, assemble_eq_close,
    gather_append, bracketed, ← assemble_eq_close]

/-- The atom that a value is, if it is one. -/
def Value.leaf? : Value → Option Atom
  | .atom leaf => some leaf
  | _ => none

/-- What is open at the end is closed there, as a function or block. -/
theorem exists_close {waiting : List Pending} (nonempty : waiting ≠ []) (collected : List Value) :
    ∃ front value, close waiting collected = front ++ [value] ∧ value.leaf? = none := by
  induction waiting generalizing collected with
  | nil => exact absurd rfl nonempty
  | cons innermost outer hypothesis =>
      cases outer with
      | nil =>
          refine ⟨innermost.before.reverse, innermost.opening.enclose collected.reverse, ?_, ?_⟩
          · simp [close, Pending.finish]
          · cases innermost.opening <;> rfl
      | cons next outer => exact hypothesis (List.cons_ne_nil next outer) _

section

variable {found : List Lexeme} {leaf : Atom}

/-- No bracket is open behind lexemes whose last value is an atom. -/
theorem bracketed_of_getLast? (last : (assemble [] [] found).getLast? = some (.atom leaf)) :
    Bracketed found := by
  rw [assemble_eq_close] at last
  cases waits : (gather [] [] found).1 with
  | nil => exact waits
  | cons innermost outer =>
      rw [waits] at last
      rcases exists_close (List.cons_ne_nil innermost outer) (gather [] [] found).2 with
        ⟨front, value, shape, noLeaf⟩
      rw [shape, List.getLast?_concat] at last
      cases last
      cases noLeaf

/-- The last value of lexemes is their last lexeme if it is an atom, unless that is a flaw. -/
theorem getLast?_of_assemble (last : (assemble [] [] found).getLast? = some (.atom leaf))
    (noFlaw : ∀ bracket, leaf ≠ .flaw (.unmatched bracket)) :
    found.getLast? = some (.atom leaf) := by
  have bracketed := bracketed_of_getLast? last
  rw [bracketed.assemble_eq, List.getLast?_reverse] at last
  rcases List.eq_nil_or_concat found with rfl | ⟨front, lexeme, rfl⟩
  · cases last
  · rw [List.concat_eq_append, Bracketed, gather_append] at bracketed
    rw [List.concat_eq_append, gather_append] at last
    rw [List.concat_eq_append, List.getLast?_concat]
    generalize gather [] [] front = state at bracketed last
    rcases state with ⟨waiting, collected⟩
    cases lexeme with
    | atom other => simpa [gather] using last
    | enter opening => simp [gather] at bracketed
    | leave bracket =>
        cases waiting with
        | nil => exact absurd (by simpa [gather] using last.symm) (noFlaw bracket)
        | cons innermost outer =>
            rw [gather] at bracketed last
            split at last
            · cases opening : innermost.opening <;>
                simp [gather, Pending.finish, Opening.enclose, opening] at last
            · rename_i open_
              simp [open_, gather] at bracketed

/-- The last lexeme is the last value if it is an atom and no bracket is open. -/
theorem Bracketed.getLast? (bracketed : Bracketed found) (isLast : lastLeaf found = some leaf) :
    (assemble [] [] found).getLast? = some (.atom leaf) := by
  have last : found.getLast? = some (.atom leaf) := by
    unfold lastLeaf at isLast
    split at isLast
    · rename_i last
      rw [last, Option.some.inj isLast]
    · cases isLast
  rcases List.getLast?_eq_some_iff.1 last with ⟨front, rfl⟩
  rw [bracketed.assemble_eq, List.getLast?_reverse, gather_append]
  rfl

end

/-- Atoms open no bracket and close none. -/
theorem bracketed_append_leaves (found : List Lexeme) (leaves : List Atom) :
    Bracketed (found ++ leaves.map .atom) ↔ Bracketed found := by
  have same (waiting : List Pending) (collected : List Value) :
      (gather waiting collected (leaves.map .atom)).1 = waiting := by
    induction leaves generalizing collected with
    | nil => rfl
    | cons leaf rest hypothesis => exact hypothesis _
  rw [Bracketed, gather_append, same, Bracketed]

/-! ## Closed texts -/

/-- A text that has the given values, alone and in front of a comma. -/
structure Closed (text : Text) (values : List Value) : Prop where
  alone : parse text = .ok values
  behind : parse (text ++ [',']) = .ok (values ++ [.atom (.literal [','])])

section

variable {probe text : Text} {found : List Lexeme}

/-- Text that begins with no white space is left as it is behind a text that is read apart. -/
theorem ReadsApart.lexemes_append (readsApart : ReadsApart text found) {tail : Text}
    (parted : Parted text (lastLeaf found) tail) (noSpace : Text.Stops isSpace tail) :
    lexemes (text ++ tail) = (lexemes tail).map (found ++ ·) := by
  cases readsApart.readsOn with
  | apart same => exact same tail parted
  | swallowing code beyond same stops =>
      rw [same tail parted.inert, dropSpace_of_stops noSpace, stops tail parted.inert]

/-- Text that may stand behind another one: it is inert, also if a code takes a space away. -/
structure Follows (text tail : Text) : Prop where
  inert : Inert tail
  behind : endsInCode text = true → Inert (dropSpace tail)

/--
How another text goes on behind a text: as it is, or, if the text ends in a code, behind the white
space that the code takes.
-/
inductive GoesOn (text : Text) (left : Text → Text) : Prop where
  | apart (same : ∀ tail, left tail = tail)
  | swallowing (code : endsInCode text = true) (drops : ∀ tail, left tail = dropSpace tail)

/-- Behind a text that is read apart, inert text goes on, perhaps without its first white space. -/
theorem ReadsApart.exists_goesOn (readsApart : ReadsApart text found) :
    ∃ left, GoesOn text left ∧ ∀ tail, Follows text tail → Parted text (lastLeaf found) tail →
      lexemes (text ++ tail) = (lexemes (left tail)).map (found ++ ·) := by
  cases readsApart.readsOn with
  | apart same => exact ⟨_, .apart fun _ => rfl, fun tail _ parted => same tail parted⟩
  | swallowing code beyond same stops =>
      refine ⟨_, .swallowing code fun _ => rfl, fun tail follows _ => ?_⟩
      rw [same tail follows.inert, stops _ (follows.behind code)]

/--
Behind a text that is read apart, texts that only differ in the white space that a code takes along
are read alike, unless nothing takes it.
-/
theorem ReadsApart.lexemes_congr (readsApart : ReadsApart text found) {tail other : Text}
    (parted : Parted text (lastLeaf found) tail) (partedOther : Parted text (lastLeaf found) other)
    (same : dropSpace tail = dropSpace other) :
    lexemes (text ++ tail) = lexemes (text ++ other) ∨
      lexemes (text ++ tail) = (lexemes tail).map (found ++ ·) ∧
        lexemes (text ++ other) = (lexemes other).map (found ++ ·) := by
  cases readsApart.readsOn with
  | apart sameApart => exact .inr ⟨sameApart tail parted, sameApart other partedOther⟩
  | swallowing code beyond sameBehind =>
      left
      rw [sameBehind tail parted.inert, sameBehind other partedOther.inert, same]

/-- A text is read apart, and no bracket of it is open, if a comma in a probe is a value. -/
theorem Probe.exists_bracketed (isProbe : Probe probe) (whole : Whole text) {all : List Lexeme}
    (read : lexemes (text ++ probe) = .ok all)
    (last : (assemble [] [] all).getLast? = some (.atom (.literal [','])))
    {leaves : List Atom} (probed : lexemes probe = .ok (leaves.map .atom)) :
    ∃ found, ReadsApart text found ∧ Bracketed found := by
  have isLast := getLast?_of_assemble last (by simp)
  have closed : ∀ last ∈ all.getLast?, last.isOpen = false := by
    rw [isLast]
    rintro last ⟨⟩
    rfl
  rcases isProbe.exists_readsApart whole read closed with ⟨found, readsApart⟩
  have again := readsApart.lexemes_append (isProbe.parted _ _) isProbe.noSpace
  rw [read, probed] at again
  cases again
  exact ⟨found, readsApart, (bracketed_append_leaves _ _).1 (bracketed_of_getLast? last)⟩

end

/-- The comma behind a closed text is the last value that is read. -/
theorem Closed.exists_lexemes {text : Text} {values : List Value} (closed : Closed text values) :
    ∃ all, lexemes (uniform text ++ [',']) = .ok all ∧
      (assemble [] [] all).getLast? = some (.atom (.literal [','])) := by
  have behind := closed.behind
  have same : uniform (text ++ [',']) = uniform text ++ [','] := uniform_append text (by simp)
  rw [parse, same] at behind
  cases read : lexemes (uniform text ++ [',']) with
  | error failure =>
      rw [read] at behind
      cases behind
  | ok all =>
      rw [read] at behind
      exact ⟨all, rfl, by rw [Except.ok.inj behind, List.getLast?_concat]⟩

/-- A closed text is read apart, and no bracket of it is open. -/
theorem Closed.exists_readsApart {text : Text} {values : List Value} (closed : Closed text values)
    (whole : Whole text) :
    ∃ found, ReadsApart (uniform text) found ∧ Bracketed found ∧ assemble [] [] found = values := by
  have probed : lexemes [','] = .ok ([.literal [',']].map .atom) := by with_unfolding_all rfl
  rcases closed.exists_lexemes with ⟨all, read, last⟩
  rcases probe_comma.exists_bracketed whole.uniform read last probed with
    ⟨found, readsApart, bracketed⟩
  have alone := closed.alone
  rw [parse, readsApart.read] at alone
  exact ⟨found, readsApart, bracketed, Except.ok.inj alone⟩

/-! ## Backslashes in front of line breaks -/

/-- A backslash in front of a line break stands behind any text. -/
theorem parted_break (text : Text) (last : Option Atom) (rest : Text) :
    Parted text last ('\\' :: '\n' :: rest) := by
  refine ⟨inert_break rest, joined_of_plain ?_, fun _ _ => ?_⟩
  · simp
  · exact (Text.stops_cons _ _ _).2 rfl

/-- A backslash in front of a line break is a value by itself. -/
theorem lexemes_break (rest : Text) :
    lexemes ('\\' :: '\n' :: rest) =
      (lexemes ('\n' :: rest)).map ([.atom (.literal ['\\'])] ++ ·) :=
  lexemes_cons rfl

theorem ReadsApart.lexemes_break {text : Text} {found : List Lexeme}
    (readsApart : ReadsApart text found) (rest : Text) :
    lexemes (text ++ '\\' :: '\n' :: rest) =
      (lexemes ('\n' :: rest)).map (found ++ [.atom (.literal ['\\'])] ++ ·) := by
  rw [readsApart.lexemes_append (parted_break _ _ rest) ((Text.stops_cons _ _ _).2 rfl),
    Component.lexemes_break]
  cases lexemes ('\n' :: rest) <;> simp [Except.map]

/-- A closed text that ends in a backslash in front of a line break is read apart up to these. -/
theorem Closed.exists_readsApart_break {front : Text} {last : Char} {values : List Value}
    (closed : Closed (front ++ ['\\', last]) values) (whole : Whole front)
    (isBreak : uniformCharacter last = '\n') :
    ∃ found, ReadsApart (uniform front) found ∧ Bracketed found ∧
      values =
        assemble [] [] found ++ [.atom (.literal ['\\'])] ++ [.atom (.whitespace ['\n'])] := by
  have same : uniform (front ++ ['\\', last]) = uniform front ++ ['\\', '\n'] := by
    rw [uniform_append front (by simp), uniform_cons (by simp), uniform_cons (by simp), isBreak]
    rfl
  have probed : lexemes ['\\', '\n', ','] =
      .ok ([.literal ['\\'], .whitespace ['\n'], .literal [',']].map .atom) := by
    with_unfolding_all rfl
  have lineBreak : lexemes ['\n'] = .ok [.atom (.whitespace ['\n'])] := by
    with_unfolding_all rfl
  rcases closed.exists_lexemes with ⟨all, read, isLast⟩
  rw [same, List.append_assoc] at read
  rcases probe_break.exists_bracketed whole.uniform read isLast probed with
    ⟨found, readsApart, bracketed⟩
  have alone := closed.alone
  rw [parse, same, readsApart.lexemes_break, lineBreak] at alone
  refine ⟨found, readsApart, bracketed, (Except.ok.inj alone).symm.trans ?_⟩
  dsimp only
  rw [List.append_assoc, bracketed.assemble_append, List.append_assoc]
  rfl

/-- The outline of a text goes on behind a backslash in front of a line break. -/
theorem outlined_break {front : Text} {last : Char} {found : List Lexeme}
    (readsApart : ReadsApart (uniform front) found) (bracketed : Bracketed found)
    (isBreak : uniformCharacter last = '\n') (follow : Text) (start : Front) :
    outlined start (front ++ '\\' :: last :: follow) =
      (outlined ((assemble [] [] found ++ [Value.atom (.literal ['\\'])]).foldl Front.next start)
        (last :: follow)).map
        (outlineFrom start (assemble [] [] found ++ [Value.atom (.literal ['\\'])]) ++ ·) := by
  have head : (uniform (last :: follow)).head? = some '\n' := by
    rw [head_uniform, List.head?_cons, Option.map_some, isBreak]
  rcases List.head?_eq_some_iff.1 head with ⟨rest, shape⟩
  apply outlined_append
  · rw [uniform_append front (by simp), uniform_cons (by simp), shape]
    exact readsApart.lexemes_break rest
  · intro more
    have behind := (bracketed_append_leaves found [.literal ['\\']]).2 bracketed
    have alone := bracketed.assemble_append [.atom (.literal ['\\'])]
    exact (behind.assemble_append more).trans (congrArg (· ++ assemble [] [] more) alone)

/-! ## White space at the end -/

/-- A reading of which the last lexeme is no white space. -/
def ReadsSolid (reading : Reading) : Prop :=
  ∃ last ∈ reading.1.getLast?, ∀ run, last ≠ .atom (.whitespace run)

theorem ReadsSolid.ne_nil {reading : Reading} (solid : ReadsSolid reading) : reading.1 ≠ [] := by
  intro none
  rcases solid with ⟨last, member, _⟩
  rw [none] at member
  cases member

theorem ReadsSolid.lastLeaf_ne {reading : Reading} (solid : ReadsSolid reading) (run : Text) :
    lastLeaf reading.1 ≠ some (.whitespace run) := by
  rcases solid with ⟨last, member, noSpace⟩
  intro isLast
  rw [lastLeaf, Option.mem_def.1 member] at isLast
  split at isLast
  · rename_i shape
    cases shape
    cases isLast
    exact noSpace run rfl
  · cases isLast

theorem readsSolid_of_getLast? {reading : Reading} {last : Lexeme}
    (isLast : reading.1.getLast? = some last) (noSpace : ∀ run, last ≠ .atom (.whitespace run)) :
    ReadsSolid reading :=
  ⟨last, isLast, noSpace⟩

theorem lexString_solid (quote : Char) (text : Text) : ReadsSolid (lexString quote text) := by
  unfold lexString
  split <;> exact readsSolid_of_getLast? rfl (by simp)

theorem lexAddress_solid (text : Text) : ReadsSolid (lexAddress text) := by
  unfold lexAddress
  split <;> exact readsSolid_of_getLast? rfl (by simp)

theorem lexWord_solid (text : Text) : ReadsSolid (lexWord text) := by
  unfold lexWord
  dsimp only
  split
  · split
    · exact lexAddress_solid _
    · exact readsSolid_of_getLast? rfl (by simp)
  · exact readsSolid_of_getLast? rfl (by simp)

theorem lexMeasure_solid (written rest : Text) : ReadsSolid (lexMeasure written rest) := by
  unfold lexMeasure
  split
  · exact readsSolid_of_getLast? rfl (by simp)
  · split <;> exact readsSolid_of_getLast? rfl (by simp)

theorem lexRange_solid (text : Text) : ReadsSolid (lexRange text) := by
  unfold lexRange
  dsimp only
  split
  · exact readsSolid_of_getLast? rfl (by simp)
  · split
    · split <;> exact readsSolid_of_getLast? rfl (by simp)
    · exact readsSolid_of_getLast? rfl (by simp)

theorem lexSign_solid (character : Char) (rest : Text) : ReadsSolid (lexSign character rest) := by
  unfold lexSign
  split
  · exact readsSolid_of_getLast? rfl (by simp)
  · exact readsSolid_of_getLast? rfl (by simp)
  · split <;> exact readsSolid_of_getLast? rfl (by simp)
  · exact readsSolid_of_getLast? rfl (by simp)

theorem lexMark_solid (character : Char) (rest : Text) : ReadsSolid (lexMark character rest) := by
  unfold lexMark
  split
  · split <;> exact readsSolid_of_getLast? rfl (by simp)
  · split <;> exact readsSolid_of_getLast? rfl (by simp)
  · exact readsSolid_of_getLast? rfl (by simp)
  · split
    · exact lexString_solid _ _
    · split
      · exact readsSolid_of_getLast? rfl (by simp)
      · exact readsSolid_of_getLast? rfl (by simp)
      · exact lexSign_solid _ _

/-- Only white space is read as white space. -/
theorem readLexeme_solid {character : Char} {rest : Text} {reading : Reading}
    (noSpace : isSpace character = false) (read : readLexeme character rest = .ok reading) :
    ReadsSolid reading := by
  have one {other : Reading} (solid : ReadsSolid other)
      (same : (Except.ok other : Except NumeralTooLong Reading) = .ok reading) :
      ReadsSolid reading := by
    cases same
    exact solid
  rw [readLexeme, noSpace, if_neg Bool.false_ne_true] at read
  split at read
  · exact one (lexRange_solid _) read
  split at read
  · have isArrow : ReadsSolid (single (.literal "-->") (rest.drop 2)) :=
      readsSolid_of_getLast? rfl (by simp)
    exact one isArrow read
  split at read
  · exact one (lexWord_solid _) read
  cases number : splitNumeral (character :: rest) with
  | error failure =>
      rw [number] at read
      cases read
  | ok found =>
      rw [number] at read
      cases found with
      | none => exact one (lexMark_solid _ _) read
      | some pair => exact one (lexMeasure_solid _ _) read

theorem readLexeme_ne_nil {character : Char} {rest after : Text} {found : List Lexeme}
    (read : readLexeme character rest = .ok (found, after)) : found ≠ [] := by
  cases white : isSpace character with
  | false => exact (readLexeme_solid white read).ne_nil
  | true =>
      rw [readLexeme, if_pos white] at read
      cases read
      exact List.cons_ne_nil _ _

theorem eq_nil_of_lexemes {text : Text} (read : lexemes text = .ok []) : text = [] := by
  cases text with
  | nil => rfl
  | cons character rest =>
      cases first : readLexeme character rest with
      | error failure =>
          rw [lexemes_error first] at read
          cases read
      | ok reading =>
          rw [lexemes_cons first] at read
          cases more : lexemes reading.2 with
          | error failure =>
              rw [more] at read
              cases read
          | ok behind =>
              rw [more] at read
              have none := List.append_eq_nil_iff.1 (Except.ok.inj read)
              exact absurd none.1 (readLexeme_ne_nil first)

/-- A run of white space ends in a character of it, outside of escapes. -/
theorem exists_leftOf_of_space {run : Text} (nonempty : run ≠ [])
    (white : ∀ character ∈ run, isSpace character = true) :
    ∃ last, isSpace last = true ∧ LeftOf [last] run := by
  rcases List.eq_nil_or_concat run with none | ⟨front, last, rfl⟩
  · exact absurd none nonempty
  rw [List.concat_eq_append] at white ⊢
  refine ⟨last, white last (by simp), LeftOf.append (whole_of_plain fun member => ?_) [last]⟩
  exact absurd (white '\\' (List.mem_append_left _ member)) (by decide)

/-- Where white space is read last, a white space character stands last, and outside of escapes. -/
theorem exists_leftOf_of_lastLeaf {text : Text} {found : List Lexeme} {run : Text}
    (read : lexemes text = .ok found) (isLast : lastLeaf found = some (.whitespace run)) :
    ∃ white, isSpace white = true ∧ LeftOf [white] text := by
  fun_induction lexemes text generalizing found with
  | case1 =>
      cases read
      cases isLast
  | case2 character rest failure failed => cases read
  | case3 character rest first after readFirst shorter hypothesis =>
      cases behind : lexemes after with
      | error failure =>
          rw [behind] at read
          cases read
      | ok more =>
          rw [behind] at read
          cases read
          by_cases empty : more = []
          · subst empty
            have isLast : lastLeaf (first ++ []) = some (.whitespace run) := isLast
            rw [List.append_nil] at isLast
            have none := eq_nil_of_lexemes behind
            subst none
            cases white : isSpace character with
            | false => exact absurd isLast ((readLexeme_solid white readFirst).lastLeaf_ne run)
            | true =>
                rw [readLexeme, if_pos white] at readFirst
                have none := congrArg Prod.snd (Except.ok.inj readFirst)
                apply exists_leftOf_of_space (List.cons_ne_nil _ _)
                intro other member
                rcases List.mem_cons.1 member with rfl | member
                · exact white
                · exact List.dropWhile_eq_nil_iff.1 none other member
          · rw [lastLeaf_append first empty] at isLast
            rcases hypothesis behind isLast with ⟨white, isWhite, leftOf⟩
            exact ⟨white, isWhite, leftOf.trans (LeftOf.readLexeme readFirst)⟩

end CssAuthoring.Component
