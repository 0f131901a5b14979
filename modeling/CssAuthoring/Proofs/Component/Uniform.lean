import CssAuthoring.Component.Parse

/-!
# Uniform texts

Making a text uniform goes character by character, but for the two characters that may make one line
break.  A text without carriage returns, form feeds and null characters is uniform already.
-/

namespace CssAuthoring.Component

/-- A character in a text that is made uniform, unless two characters make one line break. -/
def uniformCharacter (character : Char) : Char :=
  if character = '\r' || character = '\x0c' then '\n'
  else if character = '\x00' then replacement
  else character

theorem uniform_cons {character : Char} {rest : Text}
    (noPair : ∀ more, character = '\r' → rest = '\n' :: more → False) :
    uniform (character :: rest) = uniformCharacter character :: uniform rest := by
  rw [uniform]
  · rfl
  · exact noPair

/-- Behind a carriage return a line feed is left out, and nothing else ever is. -/
theorem uniform_cons_or (character : Char) (rest : Text) :
    uniform (character :: rest) = uniformCharacter character :: uniform rest ∨
      character = '\r' ∧ uniform (character :: rest) = uniform rest ∧
        rest.head? = some '\n' := by
  by_cases pair : ∃ more, character = '\r' ∧ rest = '\n' :: more
  · rcases pair with ⟨more, rfl, rfl⟩
    refine .inr ⟨rfl, ?_, rfl⟩
    rw [uniform, uniform_cons (by simp)]
    rfl
  · exact .inl (uniform_cons fun more isReturn shape => pair ⟨more, isReturn, shape⟩)

theorem head_uniform (text : Text) : (uniform text).head? = text.head?.map uniformCharacter := by
  fun_cases uniform text with
  | case1 rest => rfl
  | case2 character rest noPair => rfl
  | case3 => rfl

theorem getLast?_uniform (text : Text) :
    (uniform text).getLast? = text.getLast?.map uniformCharacter := by
  fun_induction uniform text with
  | case1 rest hypothesis =>
      rw [List.getLast?_cons, hypothesis, List.getLast?_cons, List.getLast?_cons]
      cases rest.getLast? <;> rfl
  | case2 character rest noPair hypothesis =>
      rw [List.getLast?_cons, hypothesis, List.getLast?_cons]
      cases rest.getLast? <;> rfl
  | case3 => rfl

/-- Two texts are made uniform one by one unless a line break falls between them. -/
theorem uniform_append (front : Text) {back : Text}
    (noPair : back.head? = some '\n' → front.getLast? ≠ some '\r') :
    uniform (front ++ back) = uniform front ++ uniform back := by
  have behind (first : Text) {rest : Text}
      (noPair : back.head? = some '\n' → (first ++ rest).getLast? ≠ some '\r') :
      back.head? = some '\n' → rest.getLast? ≠ some '\r' := by
    intro starts last
    apply noPair starts
    rw [List.getLast?_append, last]
    rfl
  fun_induction uniform front with
  | case1 rest hypothesis =>
      rw [List.cons_append, List.cons_append, uniform, hypothesis (behind ['\r', '\n'] noPair)]
      rfl
  | case2 character rest noPairHere hypothesis =>
      have noPairAgain : ∀ more, character = '\r' → rest ++ back = '\n' :: more → False := by
        rintro more rfl shape
        cases rest with
        | nil =>
            rw [List.nil_append] at shape
            exact noPair (by rw [shape]; rfl) rfl
        | cons next rest =>
            cases shape
            exact noPairHere _ rfl rfl
      rw [List.cons_append, uniform_cons noPairAgain, hypothesis (behind [character] noPair)]
      rfl
  | case3 => rfl

/-- Only line feeds and replacements appear at the start of a text that is made uniform. -/
theorem head_of_uniform {text : Text} {character : Char} (notBreak : character ≠ '\n')
    (notReplacement : character ≠ replacement)
    (starts : (uniform text).head? = some character) : text.head? = some character := by
  fun_cases uniform text with
  | case1 rest =>
      cases starts
      exact absurd rfl notBreak
  | case2 first rest noPair =>
      rw [uniform_cons noPair] at starts
      simp only [List.head?_cons, Option.some.injEq, uniformCharacter] at starts ⊢
      split at starts
      · exact absurd starts.symm notBreak
      · split at starts
        · exact absurd starts.symm notReplacement
        · exact starts
  | case3 => cases starts

/-- A text that is uniform already. -/
def IsUniform (text : Text) : Prop :=
  ∀ character ∈ text, uniformCharacter character = character

instance : DecidablePred IsUniform := fun text =>
  decidable_of_iff (text.all fun character => uniformCharacter character = character) (by
    simp only [List.all_eq_true, decide_eq_true_eq, IsUniform])

theorem isUniform_nil : IsUniform [] := by
  intro character member
  cases member

theorem IsUniform.cons {character : Char} {rest : Text}
    (same : uniformCharacter character = character) (isUniform : IsUniform rest) :
    IsUniform (character :: rest) := by
  intro other member
  rcases List.mem_cons.1 member with rfl | member
  · exact same
  · exact isUniform other member

theorem IsUniform.append {front back : Text} (isUniformFront : IsUniform front)
    (isUniformBack : IsUniform back) : IsUniform (front ++ back) := by
  intro character member
  rcases List.mem_append.1 member with member | member
  · exact isUniformFront character member
  · exact isUniformBack character member

theorem IsUniform.noNull {text : Text} (isUniform : IsUniform text) : '\x00' ∉ text := by
  intro member
  cases isUniform _ member

theorem IsUniform.uniform_eq {text : Text} (isUniform : IsUniform text) : uniform text = text := by
  induction text with
  | nil => rfl
  | cons character rest hypothesis =>
      have same := isUniform character List.mem_cons_self
      have noPair : ∀ more, character = '\r' → rest = '\n' :: more → False := by
        rintro more rfl _
        cases same
      rw [uniform_cons noPair, same,
        hypothesis fun other member => isUniform other (List.mem_cons_of_mem _ member)]

theorem uniformCharacter_eq {character : Char} (notReturn : character ≠ '\r')
    (notForm : character ≠ '\x0c') (notNull : character ≠ '\x00') :
    uniformCharacter character = character := by
  simp [uniformCharacter, notReturn, notForm, notNull]

theorem uniformCharacter_idempotent (character : Char) :
    uniformCharacter (uniformCharacter character) = uniformCharacter character := by
  fun_cases uniformCharacter character with
  | case1 => rfl
  | case2 => rfl
  | case3 notBreak notNull => simp_all [uniformCharacter]

theorem isUniform_uniform (text : Text) : IsUniform (uniform text) := by
  fun_induction uniform text with
  | case1 rest hypothesis => exact hypothesis.cons rfl
  | case2 character rest noPair hypothesis =>
      exact hypothesis.cons (uniformCharacter_idempotent character)
  | case3 => exact isUniform_nil

end CssAuthoring.Component
