import Hookfs.Lib.Checked
import Hookfs.Lib.Wildcard
import Hookfs.Windows.Paths

/-!
# Matching wildcards

`wildcard_match` answers whether the folded name is in the language of the
folded pattern.  Between two rounds its loop has fitted single tokens behind
the last star, and what it still has to find out is the question it started
with.
-/

namespace Hookfs.Windows

open Hookfs.Lib

/-! ## The loop, round by round -/

/-- What a character of a pattern stands for. -/
def wildcardToken (char : Char) : Wildcard.Token Char :=
  if char = '*' then .run
  else if char = '?' then .any
  else .only char

/-- The texts that a pattern stands for. -/
def wildcardLanguage (pattern : Text) : Language Char :=
  Wildcard.language (pattern.map wildcardToken)

/-- The variables of `matches_from`. -/
structure MatchState where
  pi : Nat
  ti : Nat
  starPat : Option Nat
  starTxt : Nat

/-- One round of the loop of `matches_from`; it ends with the index into the
pattern, or with none for `return false`. -/
def matchesRound (pat txt : Text) (state : MatchState) :
    Checked Empty (Round MatchState (Option Nat)) :=
  pure <|
    if state.ti < txt.length then
      if pat[state.pi]? = some '*' then
        .next ⟨state.pi + 1, state.ti, some state.pi, state.ti⟩
      else if pat[state.pi]? = some '?' ∨
          (state.pi < pat.length ∧ pat[state.pi]? = txt[state.ti]?) then
        .next ⟨state.pi + 1, state.ti + 1, state.starPat, state.starTxt⟩
      else
        match state.starPat with
        | some star =>
            .next ⟨star + 1, state.starTxt + 1, some star,
              state.starTxt + 1⟩
        | none => .done none
    else .done (some state.pi)

/-- The loop runs round by round. -/
theorem matchesLoop_eq_of_loop {pat txt : Text} {found : Option Nat} :
    ∀ (rounds : Nat) (state : MatchState),
      loop (matchesRound pat txt) rounds state = .ok found →
        matchesLoop pat txt rounds state.pi state.ti state.starPat
          state.starTxt = found := by
  intro rounds
  induction rounds with
  | zero =>
      intro state returned
      cases returned
  | succ rounds later =>
      intro state returned
      rw [loop] at returned
      unfold matchesLoop
      unfold matchesRound at returned
      simp only [pure, Except.pure] at returned
      split
      · rename_i inside
        rw [if_pos inside] at returned
        split
        · rename_i star
          rw [if_pos star] at returned
          exact later _ returned
        · rename_i noStar
          rw [if_neg noStar] at returned
          split
          · rename_i fits
            rw [if_pos fits] at returned
            exact later _ returned
          · rename_i stuck
            rw [if_neg stuck] at returned
            cases starHere : state.starPat with
            | none =>
                rw [starHere] at returned
                exact Except.ok.inj returned
            | some star =>
                rw [starHere] at returned
                exact later _ returned
      · rename_i outside
        rw [if_neg outside] at returned
        exact Except.ok.inj returned

/-! ## One character -/

theorem wildcardToken_eq_run_iff {char : Char} :
    wildcardToken char = .run ↔ char = '*' := by
  unfold wildcardToken
  split
  · rename_i star
    exact ⟨fun _ => star, fun _ => rfl⟩
  · rename_i noStar
    constructor
    · intro impossible
      split at impossible
      · cases impossible
      · cases impossible
    · intro star
      exact absurd star noStar

theorem wildcardToken_fits_iff {char letter : Char} (noStar : char ≠ '*') :
    (wildcardToken char).Fits letter ↔ char = '?' ∨ char = letter := by
  unfold wildcardToken
  rw [if_neg noStar]
  split
  · rename_i any
    exact ⟨fun _ => Or.inl any, fun _ => trivial⟩
  · rename_i single
    constructor
    · intro same
      exact Or.inr same
    · intro given
      exact given.resolve_left single

theorem nil_mem_wildcardLanguage_iff {pattern : Text} :
    [] ∈ wildcardLanguage pattern ↔ pattern.all (· = '*') = true := by
  unfold wildcardLanguage
  rw [Wildcard.nil_mem_language_iff, List.all_eq_true]
  simp only [List.forall_mem_map, wildcardToken_eq_run_iff,
    decide_eq_true_eq]

/-! ## What a round keeps -/

/-- What is left to find out. -/
def MatchState.Asks (pat txt : Text) (state : MatchState) : Prop :=
  match state.starPat with
  | none => txt.drop state.ti ∈ wildcardLanguage (pat.drop state.pi)
  | some star =>
      txt.drop state.starTxt ∈ wildcardLanguage ('*' :: pat.drop (star + 1))

/-- Single tokens of the pattern up to `pi` fit the text up to `ti`. -/
def Fitted (pat txt : Text) (star starTxt pi ti : Nat) : Prop :=
  ∃ tokens letters, pat.drop (star + 1) = tokens ++ pat.drop pi ∧
    txt.drop starTxt = letters ++ txt.drop ti ∧
    Wildcard.Segment (tokens.map wildcardToken) letters

/-- The invariant of the loop. -/
structure MatchState.Tracks (pat txt : Text) (state : MatchState) : Prop where
  pattern : state.pi ≤ pat.length
  text : state.ti ≤ txt.length
  star : state.starTxt ≤ state.ti
  fitted : ∀ star, state.starPat = some star →
    star < pat.length ∧ Fitted pat txt star state.starTxt state.pi state.ti
  asks : state.Asks pat txt ↔ txt ∈ wildcardLanguage pat

/-- A bound on the rounds to come: going back moves `starTxt` on. -/
def MatchState.measure (pat txt : Text) (state : MatchState) : Nat :=
  (txt.length - state.starTxt) * (pat.length + 1) +
    (pat.length - state.pi)

/-- What `matches_from` makes of the end of the loop. -/
def matchesAnswer (pat : Text) : Option Nat → Bool
  | none => false
  | some pi => (pat.drop pi).all (· = '*')

/-- The end of the loop answers the question. -/
def Answers (pat txt : Text) (found : Option Nat) : Prop :=
  matchesAnswer pat found = true ↔ txt ∈ wildcardLanguage pat

/-! ## The kinds of rounds -/

section Rounds

variable {pat txt : Text} {pi ti starTxt : Nat} {starPat : Option Nat}

theorem drop_of_getElem? {text : Text} {position : Nat} {char : Char}
    (here : text[position]? = some char) :
    text.drop position = char :: text.drop (position + 1) := by
  obtain ⟨inside, same⟩ := List.getElem?_eq_some_iff.mp here
  rw [List.drop_eq_getElem_cons inside, same]

theorem wildcardLanguage_star (rest : Text) :
    wildcardLanguage ('*' :: rest) =
      Wildcard.language (.run :: rest.map wildcardToken) := rfl

theorem wildcardLanguage_append (front rest : Text) :
    wildcardLanguage (front ++ rest) =
      Wildcard.language
        (front.map wildcardToken ++ rest.map wildcardToken) := by
  rw [wildcardLanguage, List.map_append]

theorem wildcardLanguage_star_append (front rest : Text) :
    wildcardLanguage ('*' :: (front ++ rest)) =
      Wildcard.language (.run ::
        (front.map wildcardToken ++ rest.map wildcardToken)) := by
  rw [wildcardLanguage_star, List.map_append]

/-- At the end of the text only stars may be left. -/
theorem answers_at_end
    (tracks : MatchState.Tracks pat txt ⟨pi, ti, starPat, starTxt⟩)
    (done : ¬ ti < txt.length) : Answers pat txt (some pi) := by
  have ended : txt.drop ti = [] := List.drop_eq_nil_of_le (by omega)
  unfold Answers matchesAnswer
  rw [← tracks.asks, ← nil_mem_wildcardLanguage_iff]
  unfold MatchState.Asks
  cases starPat with
  | none =>
      dsimp only
      rw [ended]
  | some star =>
      obtain ⟨_, tokens, letters, patEq, txtEq, segment⟩ :=
        tracks.fitted star rfl
      dsimp only at txtEq patEq ⊢
      rw [ended, List.append_nil] at txtEq
      rw [txtEq, patEq, wildcardLanguage_star_append,
        Wildcard.run_segment_end segment]
      rfl

/-- A new star makes the one before it forgotten. -/
theorem tracks_star
    (tracks : MatchState.Tracks pat txt ⟨pi, ti, starPat, starTxt⟩)
    (here : pat[pi]? = some '*') :
    MatchState.Tracks pat txt ⟨pi + 1, ti, some pi, ti⟩ := by
  have front := drop_of_getElem? here
  obtain ⟨inside, _⟩ := List.getElem?_eq_some_iff.mp here
  constructor
  · exact inside
  · exact tracks.text
  · exact Nat.le_refl ti
  · intro star same
    rw [← Option.some.inj same]
    exact ⟨inside, [], [], rfl, rfl, .nil⟩
  · rw [← tracks.asks]
    unfold MatchState.Asks
    cases starPat with
    | none =>
        dsimp only
        rw [front]
    | some star =>
        obtain ⟨_, tokens, letters, patEq, txtEq, segment⟩ :=
          tracks.fitted star rfl
        dsimp only at txtEq patEq ⊢
        rw [patEq, txtEq, front, wildcardLanguage_star_append,
          List.map_cons, wildcardToken_eq_run_iff.mpr rfl,
          Wildcard.run_segment_run segment]
        rfl

/-- A character of the pattern that is no star, against one of the text. -/
theorem fits_iff {char letter : Char} (noStar : pat[pi]? ≠ some '*')
    (here : pat[pi]? = some char) (there : txt[ti]? = some letter) :
    (wildcardToken char).Fits letter ↔
      pat[pi]? = some '?' ∨ (pi < pat.length ∧ pat[pi]? = txt[ti]?) := by
  obtain ⟨inside, _⟩ := List.getElem?_eq_some_iff.mp here
  rw [here] at noStar
  rw [wildcardToken_fits_iff (fun star => noStar (congrArg some star)), here,
    there, Option.some.injEq, Option.some.injEq, and_iff_right inside]

/-- A character that fits moves both indices. -/
theorem tracks_fits
    (tracks : MatchState.Tracks pat txt ⟨pi, ti, starPat, starTxt⟩)
    {char letter : Char} (here : pat[pi]? = some char)
    (there : txt[ti]? = some letter)
    (fits : (wildcardToken char).Fits letter) :
    MatchState.Tracks pat txt ⟨pi + 1, ti + 1, starPat, starTxt⟩ := by
  have front := drop_of_getElem? here
  have first := drop_of_getElem? there
  obtain ⟨patInside, _⟩ := List.getElem?_eq_some_iff.mp here
  obtain ⟨txtInside, _⟩ := List.getElem?_eq_some_iff.mp there
  constructor
  · exact patInside
  · exact txtInside
  · exact Nat.le_succ_of_le tracks.star
  · intro star same
    obtain ⟨low, tokens, letters, patEq, txtEq, segment⟩ :=
      tracks.fitted star same
    dsimp only at patEq txtEq
    refine ⟨low, tokens ++ [char], letters ++ [letter], ?_, ?_, ?_⟩
    · rw [patEq, front, List.append_assoc, List.singleton_append]
    · rw [txtEq, first, List.append_assoc, List.singleton_append]
    · rw [List.map_append]
      exact List.rel_append segment (.cons fits .nil)
  · rw [← tracks.asks]
    unfold MatchState.Asks
    cases starPat with
    | none =>
        dsimp only
        rw [front, first, wildcardLanguage, wildcardLanguage, List.map_cons,
          Wildcard.mem_language_single fits.single, and_iff_right fits]
    | some star =>
        exact Iff.rfl

/-- The text cannot go on where no character fits. -/
theorem stuck_not_mem {letter : Char} (noStar : pat[pi]? ≠ some '*')
    (there : txt[ti]? = some letter)
    (stuck : ¬ (pat[pi]? = some '?' ∨
      (pi < pat.length ∧ pat[pi]? = txt[ti]?))) :
    txt.drop ti ∉ wildcardLanguage (pat.drop pi) := by
  rw [drop_of_getElem? there]
  cases here : pat[pi]? with
  | none =>
      have ended : pat.drop pi = [] :=
        List.drop_eq_nil_of_le (List.getElem?_eq_none_iff.mp here)
      rw [ended, wildcardLanguage, List.map_nil, Wildcard.mem_language_nil]
      exact List.cons_ne_nil _ _
  | some char =>
      have misfit := mt (fits_iff noStar here there).mp stuck
      have single : wildcardToken char ≠ .run := by
        intro run
        rw [wildcardToken_eq_run_iff.mp run] at here
        exact noStar here
      rw [drop_of_getElem? here, wildcardLanguage, List.map_cons,
        Wildcard.mem_language_single single]
      exact fun both => misfit both.1

/-- Going back, the last star takes one more character. -/
theorem tracks_back {star : Nat}
    (tracks : MatchState.Tracks pat txt ⟨pi, ti, some star, starTxt⟩)
    (inside : ti < txt.length)
    (stuck : txt.drop ti ∉ wildcardLanguage (pat.drop pi)) :
    MatchState.Tracks pat txt
      ⟨star + 1, starTxt + 1, some star, starTxt + 1⟩ := by
  obtain ⟨low, tokens, letters, patEq, txtEq, segment⟩ :=
    tracks.fitted star rfl
  have order := tracks.star
  dsimp only at patEq txtEq order
  have before : starTxt < txt.length := by omega
  constructor
  · exact low
  · exact before
  · exact Nat.le_refl _
  · intro other same
    rw [← Option.some.inj same]
    exact ⟨low, [], [], rfl, rfl, .nil⟩
  · rw [← tracks.asks]
    unfold MatchState.Asks
    dsimp only
    have never : txt.drop starTxt ∉
        wildcardLanguage (pat.drop (star + 1)) := by
      rw [patEq, txtEq, wildcardLanguage_append,
        Wildcard.mem_language_segment segment]
      exact stuck
    rw [List.drop_eq_getElem_cons before] at never ⊢
    exact (Wildcard.run_take never).symm

/-! ## The whole loop -/

/-- A round ends the loop with an answer, or keeps the invariant with a round
less to go. -/
theorem sound_matchesRound {state : MatchState} {rounds : Nat}
    (tracks : state.Tracks pat txt)
    (budget : state.measure pat txt < rounds) :
    ∃ left, rounds = left + 1 ∧
      Sound (matchesRound pat txt state)
        (Round.Meets
          (fun next : MatchState =>
            next.Tracks pat txt ∧ next.measure pat txt < left)
          (Answers pat txt)) := by
  obtain ⟨pi, ti, starPat, starTxt⟩ := state
  refine ⟨rounds - 1, by omega, ?_⟩
  unfold MatchState.measure at budget
  dsimp only at budget
  unfold matchesRound
  by_cases inside : ti < txt.length
  · obtain ⟨letter, there⟩ : ∃ letter, txt[ti]? = some letter :=
      ⟨_, List.getElem?_eq_getElem inside⟩
    rw [if_pos inside]
    by_cases star : pat[pi]? = some '*'
    · rw [if_pos star]
      have patInside := (List.getElem?_eq_some_iff.mp star).1
      have order := Nat.mul_le_mul_right (pat.length + 1)
        (Nat.sub_le_sub_left tracks.star txt.length)
      dsimp only at order
      refine Sound.pure ⟨tracks_star tracks star, ?_⟩
      unfold MatchState.measure
      dsimp only
      omega
    · rw [if_neg star]
      by_cases fits : pat[pi]? = some '?' ∨
          (pi < pat.length ∧ pat[pi]? = txt[ti]?)
      · rw [if_pos fits]
        have patInside : pi < pat.length := by
          rcases fits with any | same
          · exact (List.getElem?_eq_some_iff.mp any).1
          · exact same.1
        have here := List.getElem?_eq_getElem patInside
        have token := (fits_iff star here there).mpr fits
        refine Sound.pure ⟨tracks_fits tracks here there token, ?_⟩
        unfold MatchState.measure
        dsimp only
        omega
      · rw [if_neg fits]
        have stuck := stuck_not_mem star there fits
        cases starPat with
        | none =>
            apply Sound.pure
            constructor
            · intro impossible
              cases impossible
            · intro inLanguage
              exact absurd (tracks.asks.mpr inLanguage) stuck
        | some last =>
            have order := tracks.star
            dsimp only at order
            have scaled : (txt.length - starTxt) * (pat.length + 1) =
                (txt.length - (starTxt + 1)) * (pat.length + 1) +
                  (pat.length + 1) := by
              rw [← Nat.succ_mul]
              congr 1
              omega
            refine Sound.pure ⟨tracks_back tracks inside stuck, ?_⟩
            unfold MatchState.measure
            dsimp only
            omega
  · rw [if_neg inside]
    exact Sound.pure (answers_at_end tracks inside)

end Rounds

theorem tracks_start (pat txt : Text) :
    MatchState.Tracks pat txt ⟨0, 0, none, 0⟩ where
  pattern := Nat.zero_le _
  text := Nat.zero_le _
  star := Nat.le_refl 0
  fitted := nofun
  asks := Iff.rfl

/-- The loop of `matches_from` ends, and its answer is right. -/
theorem matchesLoop_ends (pat txt : Text) :
    ∃ found,
      loop (matchesRound pat txt) ((txt.length + 1) * (pat.length + 2))
          ⟨0, 0, none, 0⟩ = .ok found ∧
        Answers pat txt found := by
  have sound : Sound
      (loop (matchesRound pat txt) ((txt.length + 1) * (pat.length + 2))
        ⟨0, 0, none, 0⟩)
      (Answers pat txt) := by
    apply Sound.loop fun rounds state =>
      state.Tracks pat txt ∧ state.measure pat txt < rounds
    · intro rounds state kept
      exact sound_matchesRound kept.1 kept.2
    · refine ⟨tracks_start pat txt, ?_⟩
      have enough : txt.length * (pat.length + 1) + (pat.length + 2) ≤
          (txt.length + 1) * (pat.length + 2) := by
        rw [Nat.succ_mul]
        exact Nat.add_le_add_right (Nat.mul_le_mul_left _ (Nat.le_succ _)) _
      unfold MatchState.measure
      dsimp only
      rw [Nat.sub_zero, Nat.sub_zero]
      omega
  rcases Sound.iff_ok_or_error.mp sound with ok | error
  · exact ok
  · obtain ⟨impossible, _⟩ := error
    exact impossible.elim

theorem matchesFrom_iff (pat txt : Text) :
    matchesFrom pat txt = true ↔ txt ∈ wildcardLanguage pat := by
  obtain ⟨found, returned, answers⟩ := matchesLoop_ends pat txt
  have result := matchesLoop_eq_of_loop _ _ returned
  dsimp only at result
  have answer : matchesFrom pat txt = matchesAnswer pat found := by
    unfold matchesFrom
    rw [result]
    cases found with
    | none =>
        rfl
    | some pi =>
        rfl
  rw [answer]
  exact answers

/-- For every pattern and every name, the loop ends within the rounds that
`matchesFrom` gives it, and the match succeeds exactly when the folded name is
in the language of the folded pattern. -/
theorem wildcardMatch_exact (cases : CaseMap) (pattern name : Text) :
    (∃ found,
      loop
          (matchesRound (pattern.flatMap cases.lower)
            (name.flatMap cases.lower))
          (((name.flatMap cases.lower).length + 1) *
            ((pattern.flatMap cases.lower).length + 2))
          ⟨0, 0, none, 0⟩ = .ok found) ∧
      (wildcardMatch cases pattern name = true ↔
        name.flatMap cases.lower ∈
          wildcardLanguage (pattern.flatMap cases.lower)) := by
  obtain ⟨found, returned, _⟩ := matchesLoop_ends
    (pattern.flatMap cases.lower) (name.flatMap cases.lower)
  exact ⟨⟨found, returned⟩, matchesFrom_iff _ _⟩

end Hookfs.Windows
