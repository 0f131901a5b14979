import CssAuthoring.Proofs.Component.Remainder

/-!
# Names, strings and numbers in front of another text

What is read ends where the characters behind it do not go on with it.  Text that begins with white
space, a comma, the sign of a combinator, a semicolon, a closing bracket or a backslash that starts
no escape goes on with nothing that has an end, with one exception: a code at the end of a name
takes one white space character of that text along.  Apart from this, a name or number is read in
front of such text as it is read alone.  A string, an address or a comment has an end or takes in
all that follows.  A probe is a text that tells the two apart, such as a comma.
-/

namespace CssAuthoring.Component

open CssAuthoring.Numeric

/-! ## Inert text -/

/-- Whether what follows a sign makes it the sign of a number. -/
def startsNumber : Text → Bool
  | '.' :: digit :: _ => Text.isDigit digit
  | digit :: _ => Text.isDigit digit
  | [] => false

/-- The characters that go on with no name, number or sign. -/
def inertCharacters : Text :=
  [' ', '\n', '\t', ',', '>', '+', '~', ';', ')', ']', '\x7d', '\\']

/--
Text that goes on with nothing in front of it: no string follows white space at once, a plus sign is
the sign of no number, and a backslash starts no escape.
-/
structure Inert (text : Text) : Prop where
  starts : ∀ character ∈ text.head?, character ∈ inertCharacters
  unquoted : Text.Stops Text.isQuote (text.dropWhile isSpace)
  noNumber : ∀ rest, text = '+' :: rest → startsNumber rest = false
  noEscape : ∀ rest, text = '\\' :: rest → escapes rest = false

/-- A run of characters that are not inert stops before inert text. -/
theorem Inert.stops {text : Text} (inert : Inert text) {isKind : Char → Bool}
    (outside : inertCharacters.any isKind = false) : Text.Stops isKind text := by
  intro character member
  rw [List.any_eq_false] at outside
  exact Bool.eq_false_iff.2 (outside character (inert.starts character member))

/--
A reader finds the same in a text alone and in front of inert text, and leaves as much of it.  Or
else nothing is left of the text, which ends in a code, and the reader goes on behind the white
space that the code takes along; it finds no more there if that is inert as well.
-/
inductive ReadsOn {found : Type} (reader : Text → found × Text) (text : Text) : Prop where
  | apart (same : ∀ tail, Inert tail →
      reader (text ++ tail) = ((reader text).1, (reader text).2 ++ tail))
  | swallowing (none : (reader text).2 = []) (code : endsInCode text = true)
      (beyond : Text → found × Text)
      (same : ∀ tail, Inert tail → reader (text ++ tail) = beyond (dropSpace tail))
      (stops : ∀ tail, Inert tail → beyond tail = ((reader text).1, tail))

/-- A reader that reads what is left of a text as another one does reads on as that one does. -/
theorem ReadsOn.of_left {found other : Type} {reader : Text → other × Text}
    {inner : Text → found × Text} {text rest : Text} (readsOn : ReadsOn inner rest)
    (left : LeftOf rest text) (change : found → other)
    (alone : reader text = (change (inner rest).1, (inner rest).2))
    (inFront : ∀ tail, Inert tail →
      reader (text ++ tail) = (change (inner (rest ++ tail)).1, (inner (rest ++ tail)).2)) :
    ReadsOn reader text := by
  cases readsOn with
  | apart same =>
      refine .apart fun tail inert => ?_
      rw [inFront tail inert, same tail inert, alone]
  | swallowing none code beyond same stops =>
      refine .swallowing ?_ (left.endsInCode code)
        (fun tail => (change (beyond tail).1, (beyond tail).2)) ?_ ?_
      · rw [alone]
        exact none
      · intro tail inert
        rw [inFront tail inert, same tail inert]
      · intro tail inert
        rw [stops tail inert, alone]

/-- A reader that reads as another one does reads on as that one does. -/
theorem ReadsOn.congr {found : Type} {reader other : Text → found × Text} {text : Text}
    (readsOn : ReadsOn other text) (alone : reader text = other text)
    (inFront : ∀ tail, Inert tail → reader (text ++ tail) = other (text ++ tail)) :
    ReadsOn reader text :=
  readsOn.of_left (.refl text) id alone inFront

theorem single_readsOn (leaf : Atom) (text : Text) : ReadsOn (single leaf) text :=
  .apart fun _ _ => rfl

theorem dropSpace_of_stops {text : Text} (stops : Text.Stops isSpace text) :
    dropSpace text = text := by
  cases text with
  | nil => rfl
  | cons character rest =>
      rw [Text.stops_cons] at stops
      rw [dropSpace, if_neg (by simp [stops])]

/-! ## Probes -/

/--
A text that tells what ends in front of it from what is open: it goes on with nothing that has an
end, and a string, an address or a comment that is open takes all of it in.
-/
structure Probe (probe : Text) : Prop where
  nonempty : probe ≠ []
  inert : Inert probe
  plain : ∀ character ∈ probe.head?, character ≠ '>' ∧ character ≠ '+'
  noSpace : Text.Stops isSpace probe
  noClosing : Text.Stops (· = ')') probe
  string : ∀ quote, Text.isQuote quote = true → (readString quote probe).2 = (.unclosed, [])
  address : (readAddress probe).2.1 ≠ .closed ∧ (readAddress probe).2.2 = []
  broken : skipBroken probe = []
  comment : (readComment probe).2 = []

theorem inert_comma : Inert [','] := by
  constructor
  · rintro character ⟨⟩
    decide
  · exact (Text.stops_cons _ _ _).2 rfl
  · rintro rest ⟨⟩
  · rintro rest ⟨⟩

/-- A backslash in front of a line break starts no escape. -/
theorem inert_break (rest : Text) : Inert ('\\' :: '\n' :: rest) := by
  constructor
  · rintro character ⟨⟩
    decide
  · exact (Text.stops_cons _ _ _).2 rfl
  · rintro rest ⟨⟩
  · rintro rest ⟨⟩
    rfl

theorem probe_comma : Probe [','] := by
  constructor
  · simp
  · exact inert_comma
  · simp
  · exact (Text.stops_cons _ _ _).2 rfl
  · exact (Text.stops_cons _ _ _).2 rfl
  · intro quote isQuote
    simp only [Text.isQuote, Bool.or_eq_true, decide_eq_true_eq] at isQuote
    rcases isQuote with rfl | rfl <;> with_unfolding_all rfl
  · exact ⟨by decide +kernel, by with_unfolding_all rfl⟩
  · rfl
  · rfl

theorem probe_break : Probe ['\\', '\n', ','] := by
  constructor
  · simp
  · exact inert_break _
  · simp
  · exact (Text.stops_cons _ _ _).2 rfl
  · exact (Text.stops_cons _ _ _).2 rfl
  · intro quote isQuote
    simp only [Text.isQuote, Bool.or_eq_true, decide_eq_true_eq] at isQuote
    rcases isQuote with rfl | rfl <;> with_unfolding_all rfl
  · exact ⟨by decide +kernel, by with_unfolding_all rfl⟩
  · rfl
  · rfl

section

variable {probe : Text}

theorem Probe.dropSpace (isProbe : Probe probe) : dropSpace probe = probe :=
  dropSpace_of_stops isProbe.noSpace

/-- No code takes anything of a probe. -/
theorem Probe.readsOn_eq (isProbe : Probe probe) {found : Type} {reader : Text → found × Text}
    {text : Text} (readsOn : ReadsOn reader text) :
    reader (text ++ probe) = ((reader text).1, (reader text).2 ++ probe) := by
  cases readsOn with
  | apart same => exact same probe isProbe.inert
  | swallowing none _ beyond same stops =>
      rw [same probe isProbe.inert, isProbe.dropSpace, stops probe isProbe.inert, none,
        List.nil_append]

end

/-! ## Runs -/

/-- Characters of some kind are counted off alike where they end within a text. -/
theorem takeWhile_take_append {isKind : Char → Bool} {text : Text} {count : Nat}
    (within : ((text.take count).takeWhile isKind).length < text.length) (tail : Text) :
    ((text ++ tail).take count).takeWhile isKind = (text.take count).takeWhile isKind := by
  induction text generalizing count with
  | nil => simp at within
  | cons character rest hypothesis =>
      cases count with
      | zero => rfl
      | succ count =>
          rw [List.take_succ_cons, List.takeWhile_cons] at within ⊢
          rw [List.cons_append, List.take_succ_cons, List.takeWhile_cons]
          split
          · rename_i inRun
            rw [if_pos inRun, List.length_cons, List.length_cons] at within
            rw [hypothesis (Nat.lt_of_succ_lt_succ within)]
          · rfl

section

variable {tail : Text}

theorem takeWhile_take_of_stops {isKind : Char → Bool} (stops : Text.Stops isKind tail)
    (count : Nat) (text : Text) :
    ((text ++ tail).take count).takeWhile isKind = (text.take count).takeWhile isKind := by
  induction text generalizing count with
  | nil =>
      cases tail with
      | nil => rfl
      | cons next more =>
          rw [Text.stops_cons] at stops
          cases count <;> simp [stops]
  | cons character rest hypothesis =>
      cases count with
      | zero => rfl
      | succ count => simp only [List.cons_append, List.take_succ_cons, List.takeWhile_cons,
          hypothesis]

end

theorem takeWhile_append_of_stops {isKind : Char → Bool} {tail : Text}
    (stops : Text.Stops isKind tail) (text : Text) :
    (text ++ tail).takeWhile isKind = text.takeWhile isKind := by
  induction text with
  | nil => exact Text.takeWhile_of_stops stops
  | cons character rest hypothesis =>
      rw [List.cons_append, List.takeWhile_cons, List.takeWhile_cons, hypothesis]

theorem dropWhile_append_of_stops {isKind : Char → Bool} {tail : Text}
    (stops : Text.Stops isKind tail) (text : Text) :
    (text ++ tail).dropWhile isKind = text.dropWhile isKind ++ tail := by
  induction text with
  | nil => exact Text.dropWhile_of_stops stops
  | cons character rest hypothesis =>
      rw [List.cons_append, List.dropWhile_cons, List.dropWhile_cons, hypothesis]
      split <;> rfl

theorem dropWhile_append_of_cons {isKind : Char → Bool} {text rest : Text} {character : Char}
    (stopped : text.dropWhile isKind = character :: rest) (tail : Text) :
    (text ++ tail).dropWhile isKind = character :: rest ++ tail := by
  rw [List.dropWhile_append, stopped]
  rfl

theorem takeWhile_append_of_cons {isKind : Char → Bool} {text rest : Text} {character : Char}
    (stopped : text.dropWhile isKind = character :: rest) (tail : Text) :
    (text ++ tail).takeWhile isKind = text.takeWhile isKind := by
  rw [List.takeWhile_append, if_neg]
  intro whole
  have lengths := congrArg List.length (List.takeWhile_append_dropWhile (p := isKind) (l := text))
  simp [stopped, whole] at lengths

/-! ## Names -/

theorem dropSpace_append {text : Text} (nonempty : text ≠ []) (tail : Text) :
    dropSpace (text ++ tail) = dropSpace text ++ tail := by
  cases text with
  | nil => exact absurd rfl nonempty
  | cons character rest =>
      simp only [List.cons_append, dropSpace]
      split <;> rfl

/-- An escape that something follows is read alike in front of any other text. -/
theorem readEscape_append {rest : Text} (followed : (escapeDigits rest).length < rest.length)
    (tail : Text) :
    readEscape (rest ++ tail) = ((readEscape rest).1, (readEscape rest).2 ++ tail) := by
  have same : escapeDigits (rest ++ tail) = escapeDigits rest :=
    takeWhile_take_append followed tail
  by_cases digits : escapeDigits rest = []
  · cases rest with
    | nil => simp at followed
    | cons character more =>
        have digitsAgain : escapeDigits (character :: (more ++ tail)) = [] := same.trans digits
        rw [readEscape_plain digits, List.cons_append, readEscape_plain digitsAgain]
  · have behind : rest.drop (escapeDigits rest).length ≠ [] := by
      rw [Ne, List.drop_eq_nil_iff]
      omega
    rw [readEscape_code digits, readEscape_code (by rwa [same]), same,
      List.drop_append_of_le_length (Nat.le_of_lt followed), dropSpace_append behind]

/-- Where an escape leaves something, it is not torn apart by the end of the text. -/
theorem escapeDigits_followed {rest : Text} (nonempty : (readEscape rest).2 ≠ []) :
    (escapeDigits rest).length < rest.length := by
  by_cases digits : escapeDigits rest = []
  · cases rest with
    | nil => exact absurd rfl nonempty
    | cons character more => simp [digits]
  · apply Nat.lt_of_not_le
    intro reaches
    rw [readEscape_code digits, List.drop_eq_nil_of_le reaches] at nonempty
    exact nonempty rfl

/-- Digits up to the end of a text make a code that ends there. -/
theorem endsInCode_of_reaches {rest : Text} (nonempty : rest ≠ [])
    (reaches : rest.length ≤ (escapeDigits rest).length) :
    endsInCode ('\\' :: rest) = true ∧ escapeDigits rest = rest := by
  have start : escapeDigits rest <+: rest :=
    (List.takeWhile_prefix _).trans (List.take_prefix _ _)
  have whole : escapeDigits rest = rest :=
    start.eq_of_length (Nat.le_antisymm start.length_le reaches)
  have short : rest.length ≤ 6 := by
    have bound := (List.takeWhile_prefix Text.isHexDigit (l := rest.take 6)).length_le
    rw [List.length_take] at bound
    rw [escapeDigits] at reaches
    omega
  have digits : rest.all Text.isHexDigit = true := by
    rw [← whole]
    exact List.all_takeWhile
  have plain := escapeDigits_plain rest
  rw [whole] at plain
  refine ⟨?_, whole⟩
  cases rest with
  | nil => exact absurd rfl nonempty
  | cons first more =>
      have notBreak : first ≠ '\n' := by
        rintro rfl
        cases digits
      have last : lastEscape ('\\' :: first :: more) = some (first :: more) := by
        rw [lastEscape_escaped notBreak, lastEscape_of_plain (by simp_all)]
        rfl
      simp only [endsInCode, last, short, digits]
      rfl

/-- An escape is read on, behind the white space that its code takes if its digits reach the end. -/
theorem readEscape_readsOn {rest : Text} (nonempty : rest ≠ []) :
    ReadsOn (fun text => readEscape text.tail) ('\\' :: rest) := by
  by_cases followed : (escapeDigits rest).length < rest.length
  · exact .apart fun tail _ => readEscape_append followed tail
  · rcases endsInCode_of_reaches nonempty (Nat.le_of_not_lt followed) with ⟨code, whole⟩
    have digits : escapeDigits rest ≠ [] := by rwa [whole]
    have none : (readEscape rest).2 = [] := by
      rw [readEscape_code digits, whole, List.drop_length]
      rfl
    refine .swallowing none code (fun tail => ((readEscape rest).1, tail)) (fun tail inert => ?_)
      fun _ _ => rfl
    have same : escapeDigits (rest ++ tail) = rest :=
      (takeWhile_take_of_stops (inert.stops (by decide)) 6 rest).trans whole
    change readEscape (rest ++ tail) = _
    rw [readEscape_code (by rwa [same]), readEscape_code digits, same, whole, List.drop_left]

theorem Probe.readEscape_append {probe : Text} (isProbe : Probe probe) {rest : Text}
    (nonempty : rest ≠ []) :
    readEscape (rest ++ probe) = ((readEscape rest).1, (readEscape rest).2 ++ probe) := by
  have inFront := isProbe.readsOn_eq (readEscape_readsOn nonempty)
  exact inFront

theorem readName_stops {text : Text} (noName : Text.Stops isNameCharacter text)
    (noEscape : Text.Stops (· = '\\') text) : readName text = ([], text) := by
  cases text with
  | nil => rw [readName]
  | cons character rest =>
      rw [Text.stops_cons] at noName noEscape
      rw [readName]
      rw [if_neg (by simp [noName]), if_neg (by simp_all)]

theorem Inert.readName_eq {tail : Text} (inert : Inert tail) : readName tail = ([], tail) := by
  have noName : Text.Stops isNameCharacter tail := inert.stops (by decide)
  cases tail with
  | nil => rw [readName]
  | cons character rest =>
      rw [Text.stops_cons] at noName
      have noEscape : ¬ (character = '\\' && escapes rest) = true := by
        simp only [Bool.and_eq_true, decide_eq_true_eq]
        rintro ⟨rfl, escape⟩
        rw [inert.noEscape rest rfl] at escape
        cases escape
      rw [readName]
      rw [if_neg (by simp [noName]), if_neg noEscape]

theorem readName_plain {character : Char} (stays : isNameCharacter character = true)
    (rest : Text) :
    readName (character :: rest) = (character :: (readName rest).1, (readName rest).2) := by
  rw [readName]
  rw [if_pos stays]

theorem readName_escape {rest : Text} (escape : escapes rest = true) :
    readName ('\\' :: rest) =
      ((readEscape rest).1 :: (readName (readEscape rest).2).1,
        (readName (readEscape rest).2).2) := by
  rw [readName]
  rw [if_neg (by decide), if_pos (by simp [escape])]

theorem escapes_append {rest : Text} (nonempty : rest ≠ []) (tail : Text) :
    escapes (rest ++ tail) = escapes rest := by
  rcases List.exists_cons_of_ne_nil nonempty with ⟨next, more, rfl⟩
  rfl

/-- A backslash in a whole text stands before something. -/
theorem Whole.ne_nil {rest : Text} (whole : Whole ('\\' :: rest)) : rest ≠ [] := by
  rintro rfl
  exact whole rfl

/-- A name is read alike in front of other text. -/
theorem readName_readsOn {text : Text} (whole : Whole text) : ReadsOn readName text := by
  fun_induction readName text with
  | case1 =>
      refine .apart fun tail inert => ?_
      rw [List.nil_append, inert.readName_eq, readName, List.nil_append]
  | case2 character rest stays hypothesis =>
      have leftOf : LeftOf rest (character :: rest) := by
        apply LeftOf.cons
        rintro rfl
        cases stays
      exact (hypothesis (leftOf.whole whole)).of_left leftOf (character :: ·)
        (readName_plain stays rest) fun tail _ => readName_plain stays (rest ++ tail)
  | case3 character rest stays escape shorter hypothesis =>
      simp only [Bool.and_eq_true, decide_eq_true_eq] at escape
      rcases escape with ⟨rfl, escape⟩
      have leftOf := LeftOf.readEscape rest
      have inFront (tail : Text) :=
        readName_escape ((escapes_append whole.ne_nil tail).trans escape)
      cases readEscape_readsOn whole.ne_nil with
      | apart sameEscape =>
          refine (hypothesis (leftOf.whole whole)).of_left leftOf ((readEscape rest).1 :: ·)
            (readName_escape escape) fun tail inert => ?_
          have behind : readEscape (rest ++ tail) = _ := sameEscape tail inert
          rw [List.cons_append, inFront, behind]
          rfl
      | swallowing none code beyond sameEscape stops =>
          have none : (readEscape rest).2 = [] := none
          refine .swallowing ?_ code (fun tail =>
            ((beyond tail).1 :: (readName (beyond tail).2).1, (readName (beyond tail).2).2)) ?_ ?_
          · rw [readName_escape escape, none, readName]
          · intro tail inert
            have behind : readEscape (rest ++ tail) = _ := sameEscape tail inert
            rw [List.cons_append, inFront, behind]
          · intro tail inert
            have nothing : readName [] = ([], []) := by rw [readName]
            rw [stops tail inert, inert.readName_eq, readName_escape escape, none, nothing]
            rfl
  | case4 character rest stays noEscape =>
      refine .apart fun tail _ => ?_
      rw [List.cons_append, readName, readName, if_neg stays, if_neg stays, if_neg noEscape]
      split
      · rename_i escape
        simp only [Bool.and_eq_true, decide_eq_true_eq] at escape noEscape
        rcases escape with ⟨rfl, escape⟩
        rw [escapes_append whole.ne_nil] at escape
        exact absurd ⟨rfl, escape⟩ noEscape
      · rfl

/-- A name by itself is read alike in front of other text. -/
theorem named_readsOn {text : Text} (whole : Whole text) (leaf : Text → Atom) :
    ReadsOn (fun text => single (leaf (readName text).1) (readName text).2) text :=
  (readName_readsOn whole).of_left (.refl text) (fun name => [.atom (leaf name)]) rfl
    fun _ _ => rfl

theorem Inert.not_startsIdentifier {tail : Text} (inert : Inert tail) :
    startsIdentifier tail = false ∧ startsIdentifier ('-' :: tail) = false ∧
      startsHash tail = false := by
  cases tail with
  | nil => exact ⟨rfl, rfl, rfl⟩
  | cons character rest =>
      by_cases backslash : character = '\\'
      · subst backslash
        have noEscape := inert.noEscape rest rfl
        exact ⟨noEscape, noEscape, noEscape⟩
      · have member := inert.starts character rfl
        simp only [inertCharacters, List.mem_cons, List.not_mem_nil, or_false, backslash] at member
        rcases member with rfl | rfl | rfl | rfl | rfl | rfl | rfl | rfl | rfl | rfl | rfl <;>
          exact ⟨rfl, rfl, rfl⟩

theorem startsIdentifier_append {text tail : Text} (whole : Whole text) (inert : Inert tail) :
    startsIdentifier (text ++ tail) = startsIdentifier text := by
  rcases inert.not_startsIdentifier with ⟨alone, hyphen, _⟩
  fun_cases startsIdentifier text with
  | case1 => exact alone
  | case2 rest => exact escapes_append whole.ne_nil tail
  | case3 => exact hyphen
  | case4 after =>
      have behind : Whole ('\\' :: after) := (LeftOf.cons (by decide) _).whole whole
      exact escapes_append behind.ne_nil tail
  | case5 next more notEscape =>
      simp only [List.cons_append, startsIdentifier]
  | case6 character more notEscape notHyphen =>
      simp only [List.cons_append, startsIdentifier]

theorem startsHash_append {text tail : Text} (whole : Whole text) (inert : Inert tail) :
    startsHash (text ++ tail) = startsHash text := by
  fun_cases startsHash text with
  | case1 => exact inert.not_startsIdentifier.2.2
  | case2 rest => exact escapes_append whole.ne_nil tail
  | case3 character more notEscape => simp only [List.cons_append, startsHash]

/-! ## Strings, addresses and comments -/

section

variable {probe : Text}

theorem readString_quote (quote : Char) (rest : Text) :
    readString quote (quote :: rest) = ([], .closed, rest) := by
  rw [readString.eq_def]
  simp

theorem readString_joined {quote : Char} (notQuote : '\\' ≠ quote) (rest : Text) :
    readString quote ('\\' :: '\n' :: rest) = readString quote rest := by
  rw [readString.eq_def]
  simp [notQuote]

theorem readString_escape {quote escaped : Char} (notQuote : '\\' ≠ quote)
    (notBreak : escaped ≠ '\n') (rest : Text) :
    readString quote ('\\' :: escaped :: rest) =
      ((readEscape (escaped :: rest)).1 ::
          (readString quote (readEscape (escaped :: rest)).2).1,
        (readString quote (readEscape (escaped :: rest)).2).2) := by
  rw [readString.eq_def]
  simp [notQuote, notBreak]

theorem readString_plain {quote character : Char} (notQuote : character ≠ quote)
    (notBreak : character ≠ '\n') (notEscape : character ≠ '\\') (rest : Text) :
    readString quote (character :: rest) =
      (character :: (readString quote rest).1, (readString quote rest).2) := by
  rw [readString.eq_def]
  simp [notQuote, notBreak, notEscape]

theorem readString_break {quote : Char} (notQuote : '\n' ≠ quote) (rest : Text) :
    readString quote ('\n' :: rest) = ([], .broken, '\n' :: rest) := by
  rw [readString.eq_def]
  simp [notQuote]

/-- A string that ends in a text is read alike in front of any other. -/
theorem readString_append {quote : Char} {text value rest : Text} {ending : Ending}
    (read : readString quote text = (value, ending, rest)) (ends : ending ≠ .unclosed)
    (tail : Text) : readString quote (text ++ tail) = (value, ending, rest ++ tail) := by
  fun_induction readString quote text generalizing value with
  | case1 =>
      cases read
      exact absurd rfl ends
  | case2 more =>
      cases read
      exact readString_quote quote _
  | case3 more notQuote =>
      cases read
      exact readString_break notQuote _
  | case4 =>
      cases read
      exact absurd rfl ends
  | case5 more notQuote notBreak hypothesis =>
      rw [List.cons_append, List.cons_append, readString_joined notQuote]
      exact hypothesis read
  | case6 escaped more notJoined shorter left notQuote notBreak =>
      rename_i hypothesis
      rcases Prod.mk.inj read with ⟨rfl, ending⟩
      have followed : left ≠ [] := by
        intro none
        rw [none, readString] at ending
        cases ending
        exact ends rfl
      have again := readEscape_append (escapeDigits_followed followed) tail
      rw [List.cons_append] at again
      rw [List.cons_append, List.cons_append, readString_escape notQuote notJoined, again,
        hypothesis (Prod.ext rfl ending)]
  | case7 character more notQuote notBreak notEscape hypothesis =>
      rcases Prod.mk.inj read with ⟨rfl, ending⟩
      rw [List.cons_append, readString_plain notQuote notBreak notEscape,
        hypothesis (Prod.ext rfl ending)]

/-- A string that is open at the end of a text takes in a probe. -/
theorem Probe.readString_open (isProbe : Probe probe) {quote : Char}
    (isQuote : Text.isQuote quote = true) {text : Text} (whole : Whole text)
    (isOpen : (readString quote text).2.1 = .unclosed) :
    (readString quote (text ++ probe)).2 = (.unclosed, []) := by
  fun_induction readString quote text with
  | case1 => exact isProbe.string quote isQuote
  | case2 => cases isOpen
  | case3 => cases isOpen
  | case4 => exact absurd rfl whole
  | case5 more notQuote notBreak hypothesis =>
      have left := (LeftOf.cons (by decide) more).trans (LeftOf.breaks more)
      rw [List.cons_append, List.cons_append, readString_joined notQuote]
      exact hypothesis (left.whole whole) isOpen
  | case6 escaped more notJoined shorter left notQuote notBreak =>
      rename_i hypothesis
      have again := isProbe.readEscape_append (List.cons_ne_nil escaped more)
      rw [List.cons_append] at again
      rw [List.cons_append, List.cons_append, readString_escape notQuote notJoined, again]
      exact hypothesis ((LeftOf.readEscape _).whole whole) isOpen
  | case7 character more notQuote notBreak notEscape hypothesis =>
      rw [List.cons_append, readString_plain notQuote notBreak notEscape]
      exact hypothesis ((LeftOf.cons notEscape more).whole whole) isOpen

theorem readAddress_closed (rest : Text) : readAddress (')' :: rest) = ([], .closed, rest) := by
  rw [readAddress.eq_def]
  simp

theorem readAddress_space {character : Char} (white : isSpace character = true)
    {rest after : Text} (closes : rest.dropWhile isSpace = ')' :: after) :
    readAddress (character :: rest) = ([], .closed, after) := by
  have notClosing : character ≠ ')' := by
    rintro rfl
    cases white
  rw [readAddress.eq_def]
  simp [notClosing, white, closes]

theorem readAddress_escape {rest : Text} (escape : escapes rest = true) :
    readAddress ('\\' :: rest) =
      ((readEscape rest).1 :: (readAddress (readEscape rest).2).1,
        (readAddress (readEscape rest).2).2) := by
  rw [readAddress.eq_def]
  have noSpace : isSpace '\\' = false := rfl
  simp [noSpace, escape]

theorem readAddress_plain {character : Char} {rest : Text} (notClosing : character ≠ ')')
    (noSpace : ¬ isSpace character = true) (noEscape : ¬ (character = '\\' && escapes rest) = true)
    (noBreak : ¬ breaksAddress character = true) :
    readAddress (character :: rest) =
      (character :: (readAddress rest).1, (readAddress rest).2) := by
  rw [readAddress.eq_def]
  simp only [Bool.and_eq_true, decide_eq_true_eq] at noEscape
  simp [notClosing, noSpace, noEscape, noBreak]

/-- A broken address ends in a text, or else it takes in a probe. -/
theorem Probe.skipBroken_append (isProbe : Probe probe) (text : Text) :
    (∀ tail, skipBroken (text ++ tail) = skipBroken text ++ tail) ∨
      skipBroken (text ++ probe) = [] := by
  fun_induction skipBroken text with
  | case1 rest hypothesis => exact hypothesis
  | case2 rest => exact .inl fun _ => rfl
  | case3 character rest notEscape notClosing hypothesis =>
      have skips {tail : Text}
          (noEscape : ∀ more, character = '\\' → rest ++ tail = ')' :: more → False) :
          skipBroken (character :: rest ++ tail) = skipBroken (rest ++ tail) := by
        rw [List.cons_append, skipBroken, if_neg notClosing]
        exact noEscape
      cases rest with
      | nil =>
          have noClosing := isProbe.noClosing
          rw [skips fun more _ shape => by simp_all]
          exact .inr isProbe.broken
      | cons next rest =>
          have noEscape (tail : Text) :
              ∀ more, character = '\\' → next :: rest ++ tail = ')' :: more → False := by
            rintro more backslash ⟨⟩
            exact notEscape rest backslash rfl
          rcases hypothesis with ends | takes
          · exact .inl fun tail => (skips (noEscape tail)).trans (ends tail)
          · exact .inr ((skips (noEscape probe)).trans takes)
  | case4 => exact .inr isProbe.broken

theorem readAddress_white {character next : Char} (white : isSpace character = true)
    {rest more : Text} (stopped : rest.dropWhile isSpace = next :: more) (notClosing : next ≠ ')') :
    readAddress (character :: rest) = ([], .broken, skipBroken (next :: more)) := by
  have notClosed : character ≠ ')' := by
    rintro rfl
    cases white
  rw [readAddress.eq_def]
  simp [notClosed, white, stopped, notClosing]

theorem readAddress_break {character : Char} {rest : Text} (notClosing : character ≠ ')')
    (noSpace : ¬ isSpace character = true) (noEscape : ¬ (character = '\\' && escapes rest) = true)
    (isBreak : breaksAddress character = true) :
    readAddress (character :: rest) = ([], .broken, skipBroken rest) := by
  rw [readAddress.eq_def]
  simp only [Bool.and_eq_true, decide_eq_true_eq] at noEscape
  simp [notClosing, noSpace, noEscape, isBreak]

/-- A character that starts no escape starts none in front of other text. -/
theorem noEscape_append {character : Char} {rest : Text}
    (noEscape : ¬ (character = '\\' && escapes rest) = true) (tail : Text) :
    ¬ (character = '\\' && escapes (rest ++ tail)) = true := by
  cases rest with
  | nil =>
      have notBackslash : character ≠ '\\' := by
        rintro rfl
        exact noEscape rfl
      simp [notBackslash]
  | cons next rest => rwa [escapes_append (List.cons_ne_nil next rest)]

/-- An address that does not take in a probe is read alike in front of any other text. -/
theorem Probe.readAddress_append (isProbe : Probe probe) {text : Text} (whole : Whole text) :
    (∀ tail, readAddress (text ++ tail) =
      ((readAddress text).1, (readAddress text).2.1, (readAddress text).2.2 ++ tail)) ∨
      ((readAddress (text ++ probe)).2.1 ≠ .closed ∧ (readAddress (text ++ probe)).2.2 = []) := by
  fun_induction readAddress text with
  | case1 => exact .inr isProbe.address
  | case2 rest => exact .inl fun _ => readAddress_closed _
  | case3 character rest notClosing white none =>
      right
      have noClosing := isProbe.noClosing
      have behind : (rest ++ probe).dropWhile isSpace = probe := by
        simp [List.dropWhile_append, none, Text.dropWhile_of_stops isProbe.noSpace]
      rcases List.exists_cons_of_ne_nil isProbe.nonempty with ⟨next, more, shape⟩
      rw [shape, Text.stops_cons, decide_eq_false_iff_not] at noClosing
      rw [shape] at behind
      rw [List.cons_append, shape, readAddress_white white behind noClosing, ← shape]
      exact ⟨by simp, isProbe.broken⟩
  | case4 character rest notClosing white after closes =>
      exact .inl fun tail => readAddress_space white (dropWhile_append_of_cons closes tail)
  | case5 character rest notClosing white filled notClosed =>
      rcases List.exists_cons_of_ne_nil filled with ⟨next, more, shape⟩
      have noClosing : next ≠ ')' := by
        rintro rfl
        exact notClosed more shape
      have again (tail : Text) : readAddress (character :: rest ++ tail) =
          ([], .broken, skipBroken (next :: more ++ tail)) :=
        readAddress_white white (dropWhile_append_of_cons shape tail) noClosing
      rw [shape]
      rcases isProbe.skipBroken_append (next :: more) with ends | takes
      · left
        intro tail
        rw [again, ends]
      · right
        rw [again, takes]
        exact ⟨by simp, rfl⟩
  | case6 character rest notClosing noSpace escape shorter hypothesis =>
      simp only [Bool.and_eq_true, decide_eq_true_eq] at escape
      rcases escape with ⟨rfl, escape⟩
      have escapeAgain (tail : Text) : escapes (rest ++ tail) = true := by
        rw [escapes_append whole.ne_nil, escape]
      have taken : readAddress ('\\' :: rest ++ probe) =
          ((readEscape rest).1 :: (readAddress ((readEscape rest).2 ++ probe)).1,
            (readAddress ((readEscape rest).2 ++ probe)).2) := by
        rw [List.cons_append, readAddress_escape (escapeAgain probe),
          isProbe.readEscape_append whole.ne_nil]
      by_cases followed : (readEscape rest).2 = []
      · right
        rw [taken, followed]
        exact isProbe.address
      rcases hypothesis ((LeftOf.readEscape rest).whole whole) with ends | takes
      · left
        intro tail
        rw [List.cons_append, readAddress_escape (escapeAgain tail),
          Component.readEscape_append (escapeDigits_followed followed), ends tail]
      · right
        rwa [taken]
  | case7 character rest notClosing noSpace noEscape isBreak =>
      have again (tail : Text) : readAddress (character :: rest ++ tail) =
          ([], .broken, skipBroken (rest ++ tail)) :=
        readAddress_break notClosing noSpace (noEscape_append noEscape tail) isBreak
      rcases isProbe.skipBroken_append rest with ends | takes
      · left
        intro tail
        rw [again, ends]
      · right
        rw [again, takes]
        exact ⟨by simp, rfl⟩
  | case8 character rest notClosing noSpace noEscape noBreak hypothesis =>
      have again (tail : Text) : readAddress (character :: rest ++ tail) =
          (character :: (readAddress (rest ++ tail)).1, (readAddress (rest ++ tail)).2) :=
        readAddress_plain notClosing noSpace (noEscape_append noEscape tail) noBreak
      rcases hypothesis ((LeftOf.plain fun isEscape => by simp_all).whole whole) with ends | takes
      · left
        intro tail
        rw [again, ends]
      · right
        rwa [again]

/-- A comment that does not take in a probe is read alike in front of any other text. -/
theorem Probe.readComment_append (isProbe : Probe probe) (text : Text) :
    (∀ tail, readComment (text ++ tail) =
      ((readComment text).1, (readComment text).2 ++ tail)) ∨
      (readComment (text ++ probe)).2 = [] := by
  have noSlash : Text.Stops (· = '/') probe := isProbe.inert.stops (by decide)
  fun_induction readComment text with
  | case1 rest => exact .inl fun _ => rfl
  | case2 character rest notClosed hypothesis =>
      have again {tail : Text}
          (notClosed : ∀ more, character = '*' → rest ++ tail = '/' :: more → False) :
          readComment (character :: rest ++ tail) =
            (character :: (readComment (rest ++ tail)).1, (readComment (rest ++ tail)).2) := by
        rw [List.cons_append, readComment]
        exact notClosed
      cases rest with
      | nil =>
          rw [again fun more _ shape => by simp_all]
          exact .inr isProbe.comment
      | cons next rest =>
          have notClosedAgain (tail : Text) :
              ∀ more, character = '*' → next :: rest ++ tail = '/' :: more → False := by
            rintro more star ⟨⟩
            exact notClosed rest star rfl
          rcases hypothesis with ends | takes
          · left
            intro tail
            rw [again (notClosedAgain tail), ends]
          · right
            rwa [again (notClosedAgain probe)]
  | case3 => exact .inr isProbe.comment

end

/-! ## Numbers and ranges -/

theorem before_append_tail (text rest tail : Text) :
    Text.before (text ++ tail) (rest ++ tail) = Text.before text rest := by
  simp only [Text.before, List.length_append, Nat.add_sub_add_right]
  exact List.take_append_of_le_length (Nat.sub_le _ _)

section

variable {tail : Text}

theorem splitSign_append {text : Text} (nonempty : text ≠ []) (tail : Text) :
    splitSign (text ++ tail) = ((splitSign text).1, (splitSign text).2 ++ tail) := by
  rcases List.exists_cons_of_ne_nil nonempty with ⟨character, rest, rfl⟩
  rw [List.cons_append]
  unfold splitSign
  split <;> simp_all

theorem splitFraction_eq_nil {text : Text} (noPoint : Text.Stops (· = '.') text) :
    splitFraction text = ([], text) := by
  unfold splitFraction
  split
  · simp at noPoint
  · rfl

theorem splitFraction_append (inert : Inert tail) (text : Text) :
    splitFraction (text ++ tail) = ((splitFraction text).1, (splitFraction text).2 ++ tail) := by
  have noDigit : Text.Stops Text.isDigit tail := inert.stops (by decide)
  have noPoint : Text.Stops (· = '.') tail := inert.stops (by decide)
  rcases text with _ | ⟨point, _ | ⟨digit, rest⟩⟩
  · exact splitFraction_eq_nil noPoint
  · -- A point at the end of the text has no digit behind it.
    have alone : splitFraction [point] = ([], [point]) := by simp [splitFraction]
    rw [alone]
    cases tail with
    | nil => exact alone
    | cons next more =>
        rw [Text.stops_cons] at noDigit
        unfold splitFraction
        split <;> simp_all
  · rw [List.cons_append, List.cons_append]
    by_cases isPoint : point = '.'
    · subst isPoint
      rw [splitFraction, splitFraction]
      split
      · rw [← List.cons_append, takeWhile_append_of_stops noDigit,
          dropWhile_append_of_stops noDigit]
      · rfl
    · rw [splitFraction_eq_nil (by simp [isPoint]), splitFraction_eq_nil (by simp [isPoint])]
      rfl

theorem splitNumber_append (inert : Inert tail) {text : Text} (nonempty : text ≠ []) :
    splitNumber (text ++ tail) = ((splitNumber text).1, (splitNumber text).2 ++ tail) := by
  have noDigit : Text.Stops Text.isDigit tail := inert.stops (by decide)
  simp only [splitNumber, splitSign_append nonempty, takeWhile_append_of_stops noDigit,
    dropWhile_append_of_stops noDigit, splitFraction_append inert]

theorem stops_of_not_startsNumber {text : Text} (noNumber : startsNumber text = false) :
    Text.Stops Text.isDigit text ∧ splitFraction text = ([], text) := by
  constructor
  · fun_cases startsNumber text with
    | case1 digit rest => exact (Text.stops_cons _ _ _).2 rfl
    | case2 digit rest noFraction => simpa [startsNumber] using noNumber
    | case3 => exact Text.stops_nil _
  · fun_cases splitFraction text <;> simp_all [startsNumber]

/-- No digit stands at the start of inert text, nor behind a sign there. -/
theorem Inert.noDigit (inert : Inert tail) : Text.Stops Text.isDigit (splitSign tail).2 := by
  have noMinus : Text.Stops (· = '-') tail := inert.stops (by decide)
  fun_cases splitSign tail with
  | case1 rest => simp at noMinus
  | case2 rest => exact (stops_of_not_startsNumber (inert.noNumber rest rfl)).1
  | case3 => exact inert.stops (by decide)

theorem splitExponent_append (inert : Inert tail) (text : Text) :
    splitExponent (text ++ tail) = ((splitExponent text).1, (splitExponent text).2 ++ tail) := by
  have noDigit : Text.Stops Text.isDigit tail := inert.stops (by decide)
  have noExponent (mark : Char) {rest : Text} (stops : Text.Stops Text.isDigit (splitSign rest).2) :
      splitExponent (mark :: rest) = ([], mark :: rest) := by
    cases behind : (splitSign rest).2 <;> simp_all [splitExponent]
  rcases text with _ | ⟨mark, _ | ⟨next, rest⟩⟩
  · have noMark : Text.Stops (fun mark => mark = 'e' || mark = 'E') tail :=
      inert.stops (by decide)
    cases tail with
    | nil => rfl
    | cons mark rest =>
        rw [Text.stops_cons] at noMark
        simp [splitExponent, noMark]
  · -- A mark at the end of the text has no digit behind it.
    rw [List.singleton_append, noExponent mark inert.noDigit,
      noExponent mark (Text.stops_nil _)]
    rfl
  · have sign := splitSign_append (List.cons_ne_nil next rest) tail
    have head : (((splitSign (next :: rest)).2 ++ tail).head?.map Text.isDigit).getD false =
        ((splitSign (next :: rest)).2.head?.map Text.isDigit).getD false := by
      cases (splitSign (next :: rest)).2 with
      | nil =>
          cases tail with
          | nil => rfl
          | cons next more => simpa using noDigit
      | cons next more => rfl
    rw [List.cons_append] at sign
    simp only [List.cons_append, splitExponent, sign, head, dropWhile_append_of_stops noDigit]
    split
    · rw [← List.cons_append, ← List.cons_append, before_append_tail]
    · rfl

/-- A number is read alike in front of inert text. -/
theorem splitNumeral_append (inert : Inert tail) {text : Text} (nonempty : text ≠ []) :
    splitNumeral (text ++ tail) =
      (splitNumeral text).map fun found =>
        found.map fun (written, rest) => (written, rest ++ tail) := by
  simp only [splitNumeral, splitNumber_append inert nonempty, splitExponent_append inert,
    before_append_tail]
  split
  · rfl
  · split
    · generalize readInteger _ _ = value
      cases value <;> rfl
    · rfl

theorem drop_takeWhile_append (isKind : Char → Bool) (count : Nat) (text : Text) :
    (text ++ tail).drop ((text.take count).takeWhile isKind).length =
      text.drop ((text.take count).takeWhile isKind).length ++ tail := by
  apply List.drop_append_of_le_length
  have run := (List.takeWhile_prefix isKind (l := text.take count)).length_le
  rw [List.length_take] at run
  omega

theorem lexRange_append (inert : Inert tail) (text : Text) :
    lexRange (text ++ tail) = ((lexRange text).1, (lexRange text).2 ++ tail) := by
  have noDigit : Text.Stops Text.isHexDigit tail := inert.stops (by decide)
  have noMark : Text.Stops (· = '?') tail := inert.stops (by decide)
  have noHyphen : Text.Stops (· = '-') tail := inert.stops (by decide)
  simp only [lexRange, takeWhile_take_of_stops noDigit, takeWhile_take_of_stops noMark,
    drop_takeWhile_append]
  split
  · rfl
  · generalize List.drop _ (List.drop _ text) = left
    rcases left with _ | ⟨hyphen, rest⟩
    · cases tail with
      | nil => rfl
      | cons next more =>
          rw [Text.stops_cons] at noHyphen
          rw [List.nil_append]
          split <;> simp_all [single]
    · rw [List.cons_append]
      by_cases isHyphen : hyphen = '-'
      · subst isHyphen
        simp only [takeWhile_take_of_stops noDigit, drop_takeWhile_append]
        split <;> rfl
      · split <;> simp_all [single]

end

/-- The unit behind a number is read alike in front of other text. -/
theorem lexMeasure_readsOn (written : Text) {rest : Text} (whole : Whole rest) :
    ReadsOn (lexMeasure written) rest := by
  have starts {tail : Text} (inert : Inert tail) := startsIdentifier_append whole inert
  by_cases isUnit : startsIdentifier rest = true
  · exact (named_readsOn whole (.dimension written)).congr (if_pos isUnit) fun tail inert =>
      if_pos ((starts inert).trans isUnit)
  · refine .apart fun tail inert => ?_
    have noPercent : Text.Stops (· = '%') tail := inert.stops (by decide)
    simp only [lexMeasure, starts inert, if_neg isUnit]
    cases rest with
    | nil =>
        cases tail with
        | nil => rfl
        | cons next more =>
            rw [List.nil_append]
            split <;> simp_all [single]
    | cons next more =>
        rw [List.cons_append]
        split <;> simp_all [single]

end CssAuthoring.Component
