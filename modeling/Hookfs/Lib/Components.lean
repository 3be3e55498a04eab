import Mathlib.Data.List.Infix

/-!
# Texts made of separated components

The components of a text are its non-empty pieces between separators.  A list
of clean components (non-empty, without separators) is rendered with one
separator in front of each of them; the empty list is rendered as the bare
separator.  Rendering is injective, and prefixes of texts at a component
boundary are prefixes of component lists.
-/

namespace Hookfs.Lib

universe u

section Components

variable {Symbol : Type u}

/-- Components that can be told apart again after rendering. -/
def Clean (sep : Symbol) (parts : List (List Symbol)) : Prop :=
  ∀ part ∈ parts, part ≠ [] ∧ sep ∉ part

/-- Every component with a separator in front of it. -/
def body (sep : Symbol) (parts : List (List Symbol)) : List Symbol :=
  parts.flatMap (sep :: ·)

/-- The absolute text of a component list; no component gives the root. -/
def render (sep : Symbol) : List (List Symbol) → List Symbol
  | [] => [sep]
  | part :: rest => body sep (part :: rest)

variable {sep : Symbol}

@[simp]
theorem body_nil : body sep ([] : List (List Symbol)) = [] := rfl

theorem body_cons (part : List Symbol) (rest : List (List Symbol)) :
    body sep (part :: rest) = sep :: (part ++ body sep rest) := by
  simp [body]

theorem body_append (left right : List (List Symbol)) :
    body sep (left ++ right) = body sep left ++ body sep right := by
  simp [body]

/-- A rendered component list does not end in a separator. -/
theorem getLast?_body_ne {parts : List (List Symbol)} (nonempty : parts ≠ [])
    (clean : Clean sep parts) : (body sep parts).getLast? ≠ some sep := by
  obtain ⟨front, last, rfl⟩ :=
    (List.eq_nil_or_concat parts).resolve_left nonempty
  rw [List.concat_eq_append] at clean ⊢
  have lastClean := clean last (by simp)
  rw [body_append, body_cons, body_nil, List.append_nil]
  intro ends
  rw [List.getLast?_append_of_ne_nil _ (List.cons_ne_nil _ _),
    List.getLast?_cons_of_ne_nil lastClean.1] at ends
  exact lastClean.2 (List.mem_of_getLast? ends)

theorem render_of_ne_nil {parts : List (List Symbol)}
    (nonempty : parts ≠ []) : render sep parts = body sep parts := by
  cases parts with
  | nil =>
      exact absurd rfl nonempty
  | cons part rest =>
      rfl

/-! ## Taking a text apart -/

variable [DecidableEq Symbol]

/-- The non-empty pieces between separators. -/
def components (sep : Symbol) (text : List Symbol) : List (List Symbol) :=
  (text.splitOn sep).filter (· ≠ [])

@[simp]
theorem components_nil : components sep [] = [] := by
  simp [components]

theorem components_append_sep (left right : List Symbol) :
    components sep (left ++ sep :: right) =
      components sep left ++ components sep right := by
  unfold components
  rw [List.splitOn_append_cons_self, List.filter_append]

@[simp]
theorem components_sep_cons (rest : List Symbol) :
    components sep (sep :: rest) = components sep rest := by
  have split : components sep ([] ++ sep :: rest) = _ :=
    components_append_sep [] rest
  simpa using split

theorem components_of_free {part : List Symbol} (nonempty : part ≠ [])
    (free : sep ∉ part) : components sep part = [part] := by
  simp [components, List.splitOn_eq_singleton free, nonempty]

theorem not_mem_of_mem_splitOn {text part : List Symbol}
    (member : part ∈ text.splitOn sep) : sep ∉ part := by
  induction text generalizing part with
  | nil =>
      simp at member
      simp [member]
  | cons head rest inductionHypothesis =>
      rw [List.splitOn_cons_eq_if_modifyHead] at member
      by_cases same : head = sep
      · simp only [same, beq_self_eq_true, if_true,
          List.mem_cons] at member
        rcases member with rfl | later
        · simp
        · exact inductionHypothesis later
      · have different : (head == sep) = false := by simpa using same
        simp only [different, Bool.false_eq_true, if_false] at member
        obtain ⟨first, others, shape⟩ := List.exists_cons_of_ne_nil
          (List.splitOn_ne_nil sep rest)
        rw [shape] at member inductionHypothesis
        simp only [List.modifyHead_cons, List.mem_cons] at member
        rcases member with rfl | later
        · have free := inductionHypothesis List.mem_cons_self
          simp [free, Ne.symm same]
        · exact inductionHypothesis (List.mem_cons_of_mem _ later)

theorem components_cons_ne_nil {symbol : Symbol} (different : symbol ≠ sep)
    (rest : List Symbol) : components sep (symbol :: rest) ≠ [] := by
  have unequal : (symbol == sep) = false := by simpa using different
  obtain ⟨first, others, shape⟩ := List.exists_cons_of_ne_nil
    (List.splitOn_ne_nil sep rest)
  rw [components, List.splitOn_cons_eq_if_modifyHead, unequal,
    if_neg Bool.false_ne_true, shape]
  simp

theorem components_clean (sep : Symbol) (text : List Symbol) :
    Clean sep (components sep text) := by
  intro part member
  rw [components, List.mem_filter] at member
  exact ⟨by simpa using member.2, not_mem_of_mem_splitOn member.1⟩

/-! ## Rendering and back -/

theorem components_body {parts : List (List Symbol)}
    (clean : Clean sep parts) : components sep (body sep parts) = parts := by
  induction parts with
  | nil =>
      simp
  | cons part rest inductionHypothesis =>
      have here := clean part List.mem_cons_self
      have later := inductionHypothesis fun other member =>
        clean other (List.mem_cons_of_mem _ member)
      rw [body_cons, components_sep_cons]
      cases rest with
      | nil =>
          simpa using components_of_free here.1 here.2
      | cons next others =>
          rw [body_cons] at later ⊢
          rw [components_append_sep, components_of_free here.1 here.2,
            List.singleton_append]
          rw [components_sep_cons] at later
          rw [later]

theorem components_render {parts : List (List Symbol)}
    (clean : Clean sep parts) :
    components sep (render sep parts) = parts := by
  cases parts with
  | nil =>
      simp [render]
  | cons part rest =>
      exact components_body clean

/-! ## Prefixes at a boundary -/

theorem render_injective {left right : List (List Symbol)}
    (leftClean : Clean sep left) (rightClean : Clean sep right)
    (equal : render sep left = render sep right) : left = right := by
  rw [← components_render leftClean, equal, components_render rightClean]

/-- The texts that go on behind a rendered list with a separator extend its
components. -/
theorem extends_render_iff {lead whole : List (List Symbol)}
    (nonempty : lead ≠ []) (leadClean : Clean sep lead)
    (wholeClean : Clean sep whole) :
    (∃ rest, render sep whole = render sep lead ++ sep :: rest) ↔
      ∃ extra, extra ≠ [] ∧ whole = lead ++ extra := by
  rw [render_of_ne_nil nonempty]
  constructor
  · rintro ⟨rest, extended⟩
    have parts : whole = lead ++ components sep rest := by
      rw [← components_render wholeClean, extended, components_append_sep,
        components_body leadClean]
    refine ⟨components sep rest, ?_, parts⟩
    intro noExtra
    rw [noExtra, List.append_nil] at parts
    rw [parts, render_of_ne_nil nonempty] at extended
    simp at extended
  · rintro ⟨extra, extraNonempty, rfl⟩
    obtain ⟨first, rest, rfl⟩ := List.exists_cons_of_ne_nil extraNonempty
    rw [render_of_ne_nil (by simp), body_append, body_cons]
    exact ⟨_, rfl⟩

/-- A rendered list does not go on with a bare separator. -/
theorem strictly_extends_iff {lead whole : List (List Symbol)}
    (nonempty : lead ≠ []) (leadClean : Clean sep lead)
    (wholeClean : Clean sep whole) :
    (∃ rest, rest ≠ [] ∧
        render sep whole = render sep lead ++ sep :: rest) ↔
      ∃ extra, extra ≠ [] ∧ whole = lead ++ extra := by
  rw [← extends_render_iff nonempty leadClean wholeClean]
  constructor
  · rintro ⟨rest, -, extended⟩
    exact ⟨rest, extended⟩
  · rintro ⟨rest, extended⟩
    refine ⟨rest, ?_, extended⟩
    rintro rfl
    cases whole with
    | nil =>
        rw [render_of_ne_nil nonempty] at extended
        obtain ⟨part, others, rfl⟩ := List.exists_cons_of_ne_nil nonempty
        simp [render, body_cons] at extended
    | cons part others =>
        have solid := getLast?_body_ne (List.cons_ne_nil part others)
          wholeClean
        rw [render] at extended
        rw [extended, List.getLast?_append, List.getLast?_singleton] at solid
        exact solid rfl

omit [DecidableEq Symbol] in
/-- No rendered list starts with two separators. -/
theorem not_extends_root {whole : List (List Symbol)}
    (clean : Clean sep whole) :
    ¬ ∃ rest, render sep whole = render sep [] ++ sep :: rest := by
  rintro ⟨rest, extended⟩
  cases whole with
  | nil =>
      simp [render] at extended
  | cons first others =>
      obtain ⟨firstNonempty, firstFree⟩ := clean first List.mem_cons_self
      obtain ⟨symbol, later, rfl⟩ := List.exists_cons_of_ne_nil firstNonempty
      simp only [render, body_cons, List.cons_append, List.cons.injEq,
        true_and, List.nil_append] at extended
      exact firstFree (by simp [extended.1])

/-- A prefix of rendered texts that ends at a boundary is a prefix of
component lists, except that nothing but the root extends the root. -/
theorem boundary_prefix_iff {lead whole : List (List Symbol)}
    (leadClean : Clean sep lead) (wholeClean : Clean sep whole) :
    (render sep whole = render sep lead ∨
        ∃ rest, render sep whole = render sep lead ++ sep :: rest) ↔
      lead <+: whole ∧ (lead = [] → whole = []) := by
  have same : render sep whole = render sep lead ↔ whole = lead :=
    ⟨render_injective wholeClean leadClean, congrArg (render sep)⟩
  rw [same]
  by_cases root : lead = []
  · subst root
    have outside := not_extends_root wholeClean
    constructor
    · intro either
      exact ⟨List.nil_prefix, fun _ => either.resolve_right outside⟩
    · intro both
      exact Or.inl (both.2 rfl)
  · rw [extends_render_iff root leadClean wholeClean]
    constructor
    · rintro (rfl | ⟨extra, -, rfl⟩)
      · exact ⟨List.prefix_refl whole, fun impossible => absurd impossible root⟩
      · exact ⟨List.prefix_append lead extra,
          fun impossible => absurd impossible root⟩
    · rintro ⟨⟨extra, rfl⟩, -⟩
      by_cases empty : extra = []
      · left
        rw [empty, List.append_nil]
      · exact Or.inr ⟨extra, empty, rfl⟩

/-! ## Collapsing runs of separators -/

/-- The text with every run of separators collapsed to one separator; the
flag says that a separator stands right before the text. -/
def squeeze (sep : Symbol) : Bool → List Symbol → List Symbol
  | _, [] => []
  | afterSep, symbol :: rest =>
      if symbol = sep then
        if afterSep then squeeze sep true rest
        else sep :: squeeze sep true rest
      else symbol :: squeeze sep false rest

theorem squeeze_append {piece : List Symbol} (free : sep ∉ piece)
    (afterSep : Bool) (rest : List Symbol) :
    squeeze sep afterSep (piece ++ rest) =
      if piece = [] then squeeze sep afterSep rest
      else piece ++ squeeze sep false rest := by
  induction piece generalizing afterSep with
  | nil =>
      simp
  | cons symbol others inductionHypothesis =>
      have different : symbol ≠ sep := fun same =>
        free (by simp [same])
      have later := inductionHypothesis
        (fun member => free (List.mem_cons_of_mem _ member)) false
      simp only [List.cons_append, squeeze, different, if_false, later,
        List.cons_ne_nil]
      split
      · rename_i empty
        simp [empty]
      · rfl

/-- The collapsed text after a separator: the non-empty pieces, and a
separator at the end if the last piece is empty. -/
theorem sep_cons_squeeze_intercalate :
    ∀ (pieces : List (List Symbol)), pieces ≠ [] →
      (∀ piece ∈ pieces, sep ∉ piece) →
        sep :: squeeze sep true ([sep].intercalate pieces) =
          body sep (pieces.filter (· ≠ [])) ++
            if pieces.getLast? = some [] then [sep] else []
  | [], nonempty, _ => absurd rfl nonempty
  | [piece], _, free => by
      have whole := squeeze_append (free piece List.mem_cons_self) true []
      by_cases empty : piece = []
      · simp [empty, squeeze]
      · simp [empty, squeeze, body_cons] at whole ⊢
        exact whole
  | piece :: next :: rest, _, free => by
      have later := sep_cons_squeeze_intercalate (next :: rest) (by simp)
        (fun other member => free other (List.mem_cons_of_mem _ member))
      rw [List.intercalate_cons_cons, List.append_assoc,
        squeeze_append (free piece List.mem_cons_self),
        List.singleton_append, List.getLast?_cons_cons]
      by_cases empty : piece = []
      · simpa [empty, squeeze] using later
      · simp only [empty, if_false, squeeze, if_true,
          Bool.false_eq_true, later, ne_eq, not_false_eq_true,
          decide_true, List.filter_cons_of_pos, body_cons,
          List.cons_append, List.append_assoc]

/-- Collapsing what stands behind a separator renders the components, with
perhaps one separator at the end. -/
theorem sep_cons_squeeze (sep : Symbol) (text : List Symbol) :
    sep :: squeeze sep true text =
      body sep (components sep text) ++
        if (text.splitOn sep).getLast? = some [] then [sep] else [] := by
  have collapsed := sep_cons_squeeze_intercalate (text.splitOn sep)
    (List.splitOn_ne_nil _ _) (fun _ member => not_mem_of_mem_splitOn member)
  rwa [List.intercalate_splitOn] at collapsed

end Components

end Hookfs.Lib
