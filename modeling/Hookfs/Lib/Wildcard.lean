import Mathlib.Computability.Language

/-!
# Wildcard patterns

A pattern is a list of tokens, and its language is the product of theirs.
Matching from left to right, a star may take as little as possible: once the
tokens between two stars fit somewhere, the first of the stars need not be
tried again.
-/

namespace Hookfs.Lib.Wildcard

universe u

variable {Letter : Type u}

/-- A token of a pattern: any run of letters, any single letter, or the
letter itself. -/
inductive Token (Letter : Type u) where
  | run
  | any
  | only (letter : Letter)
  deriving DecidableEq, Repr

/-- The texts that a token stands for. -/
def Token.language : Token Letter → Language Letter
  | .run => ⊤
  | .any => {text | text.length = 1}
  | .only letter => {[letter]}

/-- The texts that a pattern stands for. -/
def language (tokens : List (Token Letter)) : Language Letter :=
  (tokens.map Token.language).prod

/-- A token that stands for single letters, this one among them. -/
def Token.Fits : Token Letter → Letter → Prop
  | .run, _ => False
  | .any, _ => True
  | .only letter, other => letter = other

/-! ## One token -/

theorem mem_language_nil {text : List Letter} :
    text ∈ language [] ↔ text = [] := by
  rw [language, List.map_nil, List.prod_nil, Language.mem_one]

theorem mem_language_cons {token : Token Letter}
    {rest : List (Token Letter)} {text : List Letter} :
    text ∈ language (token :: rest) ↔
      ∃ front ∈ token.language, ∃ tail ∈ language rest,
        front ++ tail = text := by
  rw [language, List.map_cons, List.prod_cons, Language.mem_mul]
  rfl

theorem mem_language_run {rest : List (Token Letter)} {text : List Letter} :
    text ∈ language (.run :: rest) ↔
      ∃ front, ∃ tail ∈ language rest, front ++ tail = text := by
  rw [mem_language_cons]
  constructor
  · intro given
    obtain ⟨front, _, split⟩ := given
    exact ⟨front, split⟩
  · intro given
    obtain ⟨front, split⟩ := given
    exact ⟨front, Set.mem_univ front, split⟩

theorem Token.mem_language_iff {token : Token Letter} (single : token ≠ .run)
    {text : List Letter} :
    text ∈ token.language ↔ ∃ letter, text = [letter] ∧ token.Fits letter := by
  cases token with
  | run =>
      exact absurd rfl single
  | any =>
      have meaning : text ∈ (Token.any : Token Letter).language ↔
          text.length = 1 := Iff.rfl
      rw [meaning, List.length_eq_one_iff]
      simp [Token.Fits]
  | only letter =>
      have meaning : text ∈ (Token.only letter).language ↔
          text = [letter] := Iff.rfl
      rw [meaning]
      constructor
      · intro same
        exact ⟨letter, same, rfl⟩
      · intro given
        obtain ⟨other, same, fits⟩ := given
        rw [same, fits]

/-- A single token takes the first letter, if that fits. -/
theorem mem_language_single {token : Token Letter} (single : token ≠ .run)
    {rest : List (Token Letter)} {letter : Letter} {text : List Letter} :
    letter :: text ∈ language (token :: rest) ↔
      token.Fits letter ∧ text ∈ language rest := by
  rw [mem_language_cons]
  simp only [Token.mem_language_iff single]
  constructor
  · intro given
    obtain ⟨_, ⟨other, rfl, fits⟩, tail, inside, same⟩ := given
    rw [List.singleton_append, List.cons.injEq] at same
    rw [← same.1, ← same.2]
    exact ⟨fits, inside⟩
  · intro given
    exact ⟨[letter], ⟨letter, rfl, given.1⟩, text, given.2, rfl⟩

theorem nil_mem_language_single {token : Token Letter}
    (single : token ≠ .run) {rest : List (Token Letter)} :
    [] ∉ language (token :: rest) := by
  rw [mem_language_cons]
  simp only [Token.mem_language_iff single]
  intro given
  obtain ⟨_, ⟨other, rfl, _⟩, tail, _, same⟩ := given
  cases same

/-- Only runs stand for the empty text. -/
theorem nil_mem_language_iff {tokens : List (Token Letter)} :
    [] ∈ language tokens ↔ ∀ token ∈ tokens, token = .run := by
  induction tokens with
  | nil =>
      simp [mem_language_nil]
  | cons token rest inductionHypothesis =>
      by_cases single : token = .run
      · rw [single, mem_language_run, List.forall_mem_cons,
          ← inductionHypothesis]
        simp
      · rw [List.forall_mem_cons]
        constructor
        · intro inside
          exact absurd inside (nil_mem_language_single single)
        · intro given
          exact absurd given.1 single

/-! ## Segments -/

/-- Single tokens that fit letter by letter. -/
abbrev Segment (tokens : List (Token Letter)) (letters : List Letter) : Prop :=
  List.Forall₂ Token.Fits tokens letters

theorem Token.Fits.single {token : Token Letter} {letter : Letter}
    (fits : token.Fits letter) : token ≠ .run := by
  intro impossible
  rw [impossible] at fits
  exact fits

/-- A segment in front of a pattern takes as many letters as it has
tokens. -/
theorem mem_language_segment {tokens rest : List (Token Letter)}
    {letters text : List Letter} (segment : Segment tokens letters) :
    letters ++ text ∈ language (tokens ++ rest) ↔ text ∈ language rest := by
  induction segment with
  | nil =>
      exact Iff.rfl
  | cons fits later inductionHypothesis =>
      rw [List.cons_append, List.cons_append,
        mem_language_single fits.single, inductionHypothesis]
      exact and_iff_right fits

/-- Whatever the letters are, a text of a pattern with a segment in front
splits there. -/
theorem exists_of_mem_language_segment {tokens rest : List (Token Letter)}
    {letters text : List Letter} (segment : Segment tokens letters)
    (inside : text ∈ language (tokens ++ rest)) :
    ∃ front tail, text = front ++ tail ∧ front.length = letters.length ∧
      tail ∈ language rest := by
  induction segment generalizing text with
  | nil =>
      exact ⟨[], text, rfl, rfl, inside⟩
  | cons fits later inductionHypothesis =>
      cases text with
      | nil =>
          exact absurd inside (nil_mem_language_single fits.single)
      | cons letter text =>
          rw [List.cons_append, mem_language_single fits.single] at inside
          obtain ⟨front, tail, same, length, holds⟩ :=
            inductionHypothesis inside.2
          exact ⟨letter :: front, tail, by rw [same, List.cons_append],
            by rw [List.length_cons, List.length_cons, length], holds⟩

/-! ## Stars -/

/-- Once a segment fits behind a star, that star need not take more before
the next one. -/
theorem run_segment_run {tokens rest : List (Token Letter)}
    {letters text : List Letter} (segment : Segment tokens letters) :
    letters ++ text ∈ language (.run :: (tokens ++ .run :: rest)) ↔
      text ∈ language (.run :: rest) := by
  constructor
  · intro inside
    obtain ⟨front, tail, later, same⟩ := mem_language_run.mp inside
    obtain ⟨taken, last, rfl, length, holds⟩ :=
      exists_of_mem_language_segment segment later
    obtain ⟨middle, final, ends, rfl⟩ := mem_language_run.mp holds
    -- the letters are at most as many as what stands before `final`
    have suffix : final <:+ text := by
      have inText : final <:+ letters ++ text :=
        ⟨front ++ taken ++ middle, by
          rw [← same]
          simp only [List.append_assoc]⟩
      apply List.suffix_of_suffix_length_le inText (List.suffix_append _ _)
      have total := congrArg List.length same
      simp only [List.length_append] at total
      omega
    obtain ⟨before, rfl⟩ := suffix
    exact mem_language_run.mpr ⟨before, final, ends, rfl⟩
  · intro inside
    apply mem_language_run.mpr
    exact ⟨[], letters ++ text, (mem_language_segment segment).mpr inside,
      rfl⟩

/-- A star that cannot take nothing takes a letter. -/
theorem run_take {rest : List (Token Letter)} {letter : Letter}
    {text : List Letter} (never : letter :: text ∉ language rest) :
    letter :: text ∈ language (.run :: rest) ↔
      text ∈ language (.run :: rest) := by
  constructor
  · intro inside
    obtain ⟨front, tail, holds, same⟩ := mem_language_run.mp inside
    cases front with
    | nil =>
        rw [List.nil_append] at same
        rw [same] at holds
        exact absurd holds never
    | cons first front =>
        rw [List.cons_append, List.cons.injEq] at same
        exact mem_language_run.mpr ⟨front, tail, holds, same.2⟩
  · intro inside
    obtain ⟨front, tail, holds, same⟩ := mem_language_run.mp inside
    exact mem_language_run.mpr ⟨letter :: front, tail, holds, by
      rw [List.cons_append, same]⟩

/-- A segment that ends where the text ends leaves only stars to match. -/
theorem run_segment_end {tokens rest : List (Token Letter)}
    {letters : List Letter} (segment : Segment tokens letters) :
    letters ∈ language (.run :: (tokens ++ rest)) ↔ [] ∈ language rest := by
  constructor
  · intro inside
    obtain ⟨front, tail, later, same⟩ := mem_language_run.mp inside
    obtain ⟨taken, last, rfl, length, holds⟩ :=
      exists_of_mem_language_segment segment later
    have total := congrArg List.length same
    simp only [List.length_append] at total
    have nothing : last = [] := List.length_eq_zero_iff.mp (by omega)
    rw [← nothing]
    exact holds
  · intro inside
    apply mem_language_run.mpr
    refine ⟨[], letters, ?_, rfl⟩
    have whole := (mem_language_segment segment).mpr inside
    rwa [List.append_nil] at whole

end Hookfs.Lib.Wildcard
