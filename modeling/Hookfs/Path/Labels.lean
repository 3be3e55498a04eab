import Hookfs.Path.Posix

/-!
# Keys and display names

`normalize_key` keeps what stands behind the last separator of a path, and
`final_component` reads the last component of the path.  The two agree,
except behind a last component `.` or `..`, where the display name is some
other text.
-/

namespace Hookfs.Posix

open Hookfs.Lib

/-- What stands behind the last `/`. -/
def lastName (key : Text) : Text :=
  key.rtakeWhile (· ≠ '/')

theorem lastName_append {front last : Text} (free : '/' ∉ last) :
    lastName (front ++ '/' :: last) = last := by
  have solid : ∀ char ∈ last.reverse, decide (char ≠ '/') = true := by
    intro char member
    rw [decide_eq_true_eq]
    rintro rfl
    exact free (List.mem_reverse.mp member)
  unfold lastName List.rtakeWhile
  rw [List.reverse_append, List.reverse_cons, List.append_assoc,
    List.takeWhile_append_of_pos solid, List.singleton_append,
    List.takeWhile_cons_of_neg (by simp), List.append_nil,
    List.reverse_reverse]

/-- A name that a path can be extended by. -/
def Plain (name : Text) : Prop :=
  name ≠ [] ∧ name ≠ ['.'] ∧ name ≠ ['.', '.']

instance (name : Text) : Decidable (Plain name) :=
  inferInstanceAs (Decidable (_ ∧ _))

/-- A display name as the key wants it: the last component where it is plain,
and a plain name in any case. -/
def Tagged (key name : Text) : Prop :=
  '/' ∈ key → Plain name ∧ (Plain (lastName key) → name = lastName key)

/-! ## The last component -/

theorem collapse_ne_nil {char : Char} (different : char ≠ '/')
    (rest : Text) (prevSep : Bool) :
    ∃ later, collapse prevSep (char :: rest) = char :: later := by
  rw [collapse, if_neg different]
  exact ⟨_, rfl⟩

/-- A separator in front of a relative path stays in front of its key. -/
theorem normalizeKeyStr_sep_cons {char : Char} (different : char ≠ '/')
    (rest : Text) :
    normalizeKeyStr ('/' :: char :: rest) =
      '/' :: normalizeKeyStr (char :: rest) := by
  unfold normalizeKeyStr
  have first : collapse false ('/' :: char :: rest) =
      '/' :: collapse false (char :: rest) := by
    simp only [collapse, different, if_true, if_false, Bool.false_eq_true]
  obtain ⟨later, shape⟩ := collapse_ne_nil different rest false
  rw [first, shape]
  unfold dropTrailing
  rw [List.getLast?_cons_cons, List.dropLast_cons_of_ne_nil (by simp)]
  cases later with
  | nil =>
      simp [different]
  | cons next others =>
      simp only [List.length_cons]
      split
      · rename_i both
        rw [if_pos ⟨by omega, both.2⟩]
      · rename_i neither
        rw [if_neg fun both => neither ⟨by omega, both.2⟩]

/-- What stands behind the last separator of a key is the last component of
the path. -/
theorem getLast?_parts {path : Text}
    (deep : '/' ∈ normalizeKeyStr path)
    (solid : lastName (normalizeKeyStr path) ≠ []) :
    (parts path).getLast? = some (lastName (normalizeKeyStr path)) := by
  cases path with
  | nil =>
      exact absurd deep (by decide)
  | cons char rest =>
      by_cases absolute : char = '/'
      · subst absolute
        have key := normalizeKeyStr_of_absolute
          (show isAbsolute ('/' :: rest) = true from rfl)
        have clean := clean_parts ('/' :: rest)
        rw [key] at solid ⊢
        generalize parts ('/' :: rest) = names at solid clean ⊢
        rcases List.eq_nil_or_concat' names with rfl | ⟨front, last, rfl⟩
        · exact absurd rfl solid
        · have free := (clean last (by simp)).2
          rw [render_of_ne_nil (by simp), body_append, body_cons, body_nil,
            List.append_nil, lastName_append free, List.getLast?_append]
          rfl
      · have key := normalizeKeyStr_of_absolute
          (show isAbsolute ('/' :: char :: rest) = true from rfl)
        have clean := clean_parts ('/' :: char :: rest)
        have same : parts ('/' :: char :: rest) = parts (char :: rest) :=
          components_sep_cons (char :: rest)
        rw [normalizeKeyStr_sep_cons absolute, same] at key
        rw [same] at clean
        generalize normalizeKeyStr (char :: rest) = text at key deep solid ⊢
        generalize parts (char :: rest) = names at key clean ⊢
        rcases List.eq_nil_or_concat' names with rfl | ⟨front, last, rfl⟩
        · rw [show text = [] from (List.cons.inj key).2] at deep
          cases deep
        · have free := (clean last (by simp)).2
          rw [render_of_ne_nil (by simp), body_append, body_cons, body_nil,
            List.append_nil] at key
          cases front with
          | nil =>
              rw [body_nil, List.nil_append, List.cons.injEq] at key
              exact absurd (key.2 ▸ deep) free
          | cons head tail =>
              rw [body_cons, List.cons_append, List.cons.injEq] at key
              rw [key.2, lastName_append free, List.getLast?_append]
              rfl

/-! ## The display name -/

theorem getLast?_rdropWhile {texts : List Text} {name : Text}
    (last : (texts.filter (· ≠ [])).getLast? = some name)
    (plain : Plain name) :
    (texts.rdropWhile isBlank).getLast? = some name := by
  induction texts using List.reverseRecOn with
  | nil =>
      cases last
  | append_singleton front piece inductionHypothesis =>
      by_cases empty : piece = []
      · subst empty
        rw [List.rdropWhile_concat, if_pos (show isBlank [] = true from rfl)]
        apply inductionHypothesis
        simpa using last
      · have same : piece = name := by
          simpa [empty] using last
        subst same
        rw [List.rdropWhile_concat, if_neg]
        · exact List.getLast?_concat
        · simp [isBlank, plain.1, plain.2.1]

/-- Nothing in front of the body is a plain last component. -/
theorem getLast?_parts_body {path name : Text}
    (last : (parts path).getLast? = some name) (plain : Plain name) :
    (parts (path.drop (beforeBody path))).getLast? = some name := by
  unfold beforeBody
  split
  · rw [List.drop_one, List.tail_cons]
    rwa [parts, components_sep_cons] at last
  · have dot : name = ['.'] := by
      have whole : parts ['.'] = [['.']] := by decide
      rw [whole] at last
      simpa using last.symm
    exact absurd dot plain.2.1
  · rename_i rest
    have whole : parts ('.' :: '/' :: rest) = ['.'] :: parts rest :=
      components_append_sep ['.'] rest
    rw [whole, List.getLast?_cons] at last
    rw [List.drop_one, List.tail_cons, parts, components_sep_cons]
    cases later : (components '/' rest).getLast? with
    | none =>
        rw [later] at last
        exact absurd (Option.some.inj last).symm plain.2.1
    | some found =>
        rw [later] at last
        exact last
  · rwa [List.drop_zero]

theorem finalComponent_of_last {path name : Text}
    (last : (parts path).getLast? = some name) (plain : Plain name) :
    finalComponent path = name := by
  have bodyLast := getLast?_parts_body last plain
  have found : (pieces path).getLast? = some name :=
    getLast?_rdropWhile bodyLast plain
  rw [finalComponent, fileName, found]
  simp only [if_neg plain.2.2, Option.getD_some]

theorem plain_finalComponent {path : Text} (plain : Plain path) :
    Plain (finalComponent path) := by
  unfold finalComponent fileName
  cases found : (pieces path).getLast? with
  | none =>
      exact plain
  | some piece =>
      simp only
      split
      · exact plain
      · rename_i notUp
        have nonempty : pieces path ≠ [] := by
          rintro empty
          rw [empty] at found
          cases found
        have solid : isBlank piece = false := by
          obtain ⟨front, shape⟩ := List.getLast?_eq_some_iff.mp found
          exact isBlank_last_of_rdropWhile shape
        simp only [isBlank, Bool.or_eq_false_iff, decide_eq_false_iff_not]
          at solid
        exact ⟨solid.1, solid.2, notUp⟩

/-- Whatever the path looks like, its display name is as its key wants it. -/
theorem tagged_normalizeKeyStr (path : Text) :
    Tagged (normalizeKeyStr path) (finalComponent path) := by
  intro deep
  constructor
  · apply plain_finalComponent
    refine ⟨?_, ?_, ?_⟩
    · rintro rfl
      exact absurd deep (by decide)
    · rintro rfl
      exact absurd deep (by decide)
    · rintro rfl
      exact absurd deep (by decide)
  · intro plain
    exact finalComponent_of_last (getLast?_parts deep plain.1) plain

end Hookfs.Posix
