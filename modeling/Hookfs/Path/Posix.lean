import Hookfs.Lib.Components
import Hookfs.Lib.Text
import Mathlib.Data.List.DropRight

/-!
# POSIX paths and their keys

The lexical functions of `namespace`, `router` and `providers::memory` on
POSIX, and the parts of the standard library's `Path` they use.  A path is
text; a key is the text with runs of `/` collapsed and a trailing `/`
dropped.

Every function is then described on the components of an absolute path: the
key renders the components, the parent drops the last one.
-/

namespace Hookfs.Posix

open Hookfs.Lib

/-! ## The lexical functions -/

def isAbsolute (text : Text) : Bool :=
  text.head? = some '/'

/-- The collapsing loop of `normalize_key_str`. -/
def collapse : Bool → Text → Text
  | _, [] => []
  | prevSep, char :: rest =>
      if char = '/' then
        if prevSep then collapse true rest
        else '/' :: collapse true rest
      else char :: collapse false rest

/-- Pop a trailing `/` unless it is the whole key. -/
def dropTrailing (out : Text) : Text :=
  if 1 < out.length ∧ out.getLast? = some '/' then out.dropLast else out

/-- `normalize_key_str`; `normalize_key` is the same on a `Path`. -/
def normalizeKeyStr (input : Text) : Text :=
  dropTrailing (collapse false input)

def isLexicallySafe (decoded : Text) : Bool :=
  !decoded.contains '\x00' &&
    !(decoded.splitOn '/').any fun part =>
      part = ['.'] || part = ['.', '.']

/-- `str::strip_prefix` by another text. -/
def stripPrefix (lead text : Text) : Option Text :=
  if lead.isPrefixOf text then some (text.drop lead.length) else none

/-- The descendant test used on keys: the rest after `lead` starts with
`/`. -/
def isUnder (lead key : Text) : Bool :=
  match stripPrefix lead key with
  | none => false
  | some rest => rest.head? = some '/'

def keyHasPrefix (key lead : Text) : Bool :=
  match stripPrefix lead key with
  | none => false
  | some rest => rest.isEmpty || rest.head? = some '/'

theorem stripPrefix_eq_some_iff {lead text rest : Text} :
    stripPrefix lead text = some rest ↔ text = lead ++ rest := by
  unfold stripPrefix
  constructor
  · intro stripped
    split at stripped
    · rename_i isPrefix
      obtain ⟨tail, rfl⟩ := List.isPrefixOf_iff_prefix.mp isPrefix
      rw [List.drop_left, Option.some.injEq] at stripped
      rw [stripped]
    · cases stripped
  · rintro rfl
    simp

theorem isUnder_iff {lead key : Text} :
    isUnder lead key = true ↔ ∃ rest, key = lead ++ '/' :: rest := by
  simp only [← stripPrefix_eq_some_iff]
  unfold isUnder
  cases stripped : stripPrefix lead key with
  | none =>
      simp
  | some rest =>
      cases rest with
      | nil =>
          simp
      | cons char later =>
          simp

/-- What is left behind a prefix is nothing, or starts with a separator. -/
theorem stripPrefix_any_iff {sep : Char} {key lead : Text} :
    (stripPrefix lead key).any
        (fun rest => rest.isEmpty || rest.head? = some sep) = true ↔
      key = lead ∨ ∃ rest, key = lead ++ sep :: rest := by
  have bare : key = lead ↔ stripPrefix lead key = some [] := by
    rw [stripPrefix_eq_some_iff, List.append_nil]
  simp only [bare, ← stripPrefix_eq_some_iff]
  cases stripped : stripPrefix lead key with
  | none =>
      simp
  | some rest =>
      cases rest with
      | nil =>
          simp
      | cons char later =>
          simp

theorem keyHasPrefix_iff {key lead : Text} :
    keyHasPrefix key lead = true ↔
      key = lead ∨ ∃ rest, key = lead ++ '/' :: rest := by
  rw [← stripPrefix_any_iff]
  unfold keyHasPrefix
  cases stripPrefix lead key with
  | none =>
      rfl
  | some rest =>
      rfl

/-- `str::rfind` of a character. -/
def rfind (char : Char) (text : Text) : Option Nat :=
  (text.reverse.findIdx? (· = char)).map (text.length - 1 - ·)

/-- `parent_key`: everything before the last `/`; the root keeps its `/`. -/
def parentKey (key : Text) : Option Text :=
  match rfind '/' key with
  | none => none
  | some index =>
      if index < 1 then some (key.take (index + 1))
      else some (key.take index)

/-! ## `std::path::Path` -/

/-- Length of the root `/`, or of a leading `.` component. -/
def beforeBody (path : Text) : Nat :=
  match path with
  | '/' :: _ => 1
  | ['.'] => 1
  | '.' :: '/' :: _ => 1
  | _ => 0

/-- Pieces that are no component of their own. -/
def isBlank (piece : Text) : Bool :=
  piece = [] || piece = ['.']

/-- The pieces of the body, without blank ones at the end. -/
def pieces (path : Text) : List Text :=
  ((path.drop (beforeBody path)).splitOn '/').rdropWhile isBlank

def parent (path : Text) : Option Text :=
  match pieces path with
  | [] => if path.take (beforeBody path) = ['.'] then some [] else none
  | first :: rest =>
      some (path.take (beforeBody path) ++
        ['/'].intercalate
          ((first :: rest).dropLast.rdropWhile isBlank))

def fileName (path : Text) : Option Text :=
  match (pieces path).getLast? with
  | none => none
  | some piece => if piece = ['.', '.'] then none else some piece

def finalComponent (path : Text) : Text :=
  (fileName path).getD path

def join (base path : Text) : Text :=
  if isAbsolute path then path
  else if base = [] ∨ base.getLast? = some '/' then base ++ path
  else base ++ '/' :: path

/-! ## Keys of absolute paths -/

/-- The components of a path; an absolute path is given by them as far as
keys are concerned. -/
abbrev parts (path : Text) : List Text := components '/' path

theorem exists_eq_sep_cons {path : Text}
    (absolute : isAbsolute path = true) : ∃ rest, path = '/' :: rest := by
  cases path with
  | nil =>
      simp [isAbsolute] at absolute
  | cons char rest =>
      exact ⟨rest, by simpa [isAbsolute] using absolute⟩

theorem collapse_eq_squeeze (prevSep : Bool) (text : Text) :
    collapse prevSep text = squeeze '/' prevSep text := by
  induction text generalizing prevSep with
  | nil =>
      rfl
  | cons char rest inductionHypothesis =>
      simp only [collapse, squeeze, inductionHypothesis]

/-- The key of an absolute path renders its components. -/
theorem normalizeKeyStr_of_absolute {path : Text}
    (absolute : isAbsolute path = true) :
    normalizeKeyStr path = render '/' (parts path) := by
  obtain ⟨rest, rfl⟩ := exists_eq_sep_cons absolute
  have collapsed := sep_cons_squeeze '/' rest
  rw [← collapse_eq_squeeze] at collapsed
  have clean := components_clean '/' rest
  rw [parts, components_sep_cons]
  have shape : collapse false ('/' :: rest) =
      body '/' (components '/' rest) ++
        if (rest.splitOn '/').getLast? = some [] then ['/'] else [] := by
    rw [collapse, if_pos rfl, if_neg Bool.false_ne_true]
    exact collapsed
  unfold normalizeKeyStr
  rw [shape]
  by_cases empty : components '/' rest = []
  · -- only separators: the root
    rw [empty, body_nil, List.nil_append]
    have first : collapse false ('/' :: rest) ≠ [] := by
      simp [collapse]
    rw [shape, empty, body_nil, List.nil_append] at first
    split at first
    · rename_i trailing
      simp [trailing, dropTrailing, render]
    · exact absurd rfl first
  · rw [render_of_ne_nil empty]
    have solid := getLast?_body_ne empty clean
    split
    · have long : 1 < (body '/' (components '/' rest) ++ ['/']).length := by
        have nonempty : body '/' (components '/' rest) ≠ [] := by
          obtain ⟨part, others, shape⟩ :=
            List.exists_cons_of_ne_nil empty
          rw [shape, body_cons]
          exact List.cons_ne_nil _ _
        have positive := List.length_pos_iff.mpr nonempty
        rw [List.length_append, List.length_singleton]
        omega
      simp only [dropTrailing, long, List.getLast?_append,
        List.getLast?_singleton, Option.some_or, and_self, if_true,
        List.dropLast_concat]
    · rw [List.append_nil, dropTrailing, if_neg]
      exact fun both => solid both.2

theorem parts_join (base : Text) {path : Text}
    (relative : isAbsolute path = false) :
    parts (join base path) = parts base ++ parts path := by
  unfold join
  rw [relative, if_neg Bool.false_ne_true]
  by_cases bare : base = [] ∨ base.getLast? = some '/'
  · rw [if_pos bare]
    rcases bare with rfl | ends
    · simp [parts]
    · have shape := List.dropLast_append_getLast? '/' ends
      rw [← shape, List.append_assoc, List.singleton_append]
      simp [parts, components_append_sep]
  · rw [if_neg bare, parts, components_append_sep]

theorem clean_parts (path : Text) : Clean '/' (parts path) :=
  components_clean '/' path

/-- A safe path has no `.` and no `..` among its components. -/
theorem ne_dots_of_safe {path : Text}
    (safe : isLexicallySafe path = true) {part : Text}
    (member : part ∈ parts path) : part ≠ ['.'] ∧ part ≠ ['.', '.'] := by
  have piece : part ∈ path.splitOn '/' := (List.mem_filter.mp member).1
  simp only [isLexicallySafe, Bool.and_eq_true, Bool.not_eq_true',
    List.any_eq_false] at safe
  have neither := safe.2 part piece
  simpa using neither

/-! ## Parents of absolute paths -/

/-- No component is a lone dot, so every blank piece is empty. -/
def Undotted (path : Text) : Prop :=
  ∀ part ∈ parts path, part ≠ ['.']

theorem undotted_of_safe {path : Text}
    (safe : isLexicallySafe path = true) : Undotted path :=
  fun _ member => (ne_dots_of_safe safe member).1

/-- Dropping blank pieces at the end drops no component. -/
theorem filter_rdropWhile_blank {pieces : List Text}
    (undotted : ∀ piece ∈ pieces, piece ≠ ['.']) :
    (pieces.rdropWhile isBlank).filter (· ≠ []) =
      pieces.filter (· ≠ []) := by
  induction pieces using List.reverseRecOn with
  | nil =>
      rfl
  | append_singleton front last inductionHypothesis =>
      rw [List.rdropWhile_concat]
      split
      · rename_i blank
        have empty : last = [] := by
          have notDot := undotted last (by simp)
          simpa [isBlank, notDot] using blank
        rw [inductionHypothesis fun piece member =>
          undotted piece (List.mem_append_left _ member)]
        simp [empty]
      · rfl

theorem isBlank_last_of_rdropWhile {pieces front : List Text} {last : Text}
    (shape : pieces.rdropWhile isBlank = front ++ [last]) :
    isBlank last = false := by
  have nonempty : pieces.rdropWhile isBlank ≠ [] := by
    rw [shape]
    simp
  have solid := List.rdropWhile_last_not isBlank pieces nonempty
  have lastEq : (pieces.rdropWhile isBlank).getLast nonempty = last := by
    simp [shape]
  rw [lastEq] at solid
  simpa using solid

theorem components_intercalate {pieces : List Text}
    (free : ∀ piece ∈ pieces, '/' ∉ piece) :
    components '/' (['/'].intercalate pieces) =
      pieces.filter (· ≠ []) := by
  cases pieces with
  | nil =>
      simp
  | cons first rest =>
      rw [components, List.splitOn_intercalate '/' free (by simp)]

/-- The parent of an absolute path drops its last component; the root has
none. -/
theorem parent_of_absolute {path : Text}
    (absolute : isAbsolute path = true) (undotted : Undotted path) :
    (parts path = [] ∧ parent path = none) ∨
      ∃ up, parent path = some up ∧ isAbsolute up = true ∧
        Undotted up ∧ parts path ≠ [] ∧
        parts up = (parts path).dropLast := by
  obtain ⟨rest, rfl⟩ := exists_eq_sep_cons absolute
  have sameParts : parts ('/' :: rest) = components '/' rest :=
    components_sep_cons rest
  have pieceFree : ∀ piece ∈ rest.splitOn '/', '/' ∉ piece :=
    fun _ member => not_mem_of_mem_splitOn member
  have pieceUndotted : ∀ piece ∈ rest.splitOn '/', piece ≠ ['.'] := by
    intro piece member dot
    apply undotted piece
    · rw [sameParts, components, List.mem_filter]
      exact ⟨member, by simp [dot]⟩
    · exact dot
  have trimmed := filter_rdropWhile_blank pieceUndotted
  have piecesEq : pieces ('/' :: rest) =
      (rest.splitOn '/').rdropWhile isBlank := rfl
  have within : ∀ piece ∈ pieces ('/' :: rest),
      piece ∈ rest.splitOn '/' := fun piece member =>
    (List.rdropWhile_prefix isBlank _).subset (piecesEq ▸ member)
  rw [sameParts]
  by_cases empty : pieces ('/' :: rest) = []
  · left
    rw [← piecesEq, empty] at trimmed
    refine ⟨trimmed.symm, ?_⟩
    simp [parent, empty, beforeBody]
  · right
    obtain ⟨front, last, shape⟩ :=
      (List.eq_nil_or_concat _).resolve_left empty
    rw [List.concat_eq_append] at shape
    have lastSolid : last ≠ [] := by
      have notBlank := isBlank_last_of_rdropWhile (piecesEq ▸ shape)
      intro lastEmpty
      simp [isBlank, lastEmpty] at notBlank
    have frontWithin : ∀ piece ∈ front, piece ∈ rest.splitOn '/' :=
      fun piece member =>
        within piece (shape ▸ List.mem_append_left _ member)
    have frontTrimmed := filter_rdropWhile_blank
      fun piece member => pieceUndotted piece (frontWithin piece member)
    have upWithin : ∀ piece ∈ front.rdropWhile isBlank,
        piece ∈ rest.splitOn '/' := fun piece member =>
      frontWithin piece
        ((List.rdropWhile_prefix isBlank _).subset member)
    have wholeParts : components '/' rest =
        front.filter (· ≠ []) ++ [last] := by
      rw [components, ← trimmed, ← piecesEq, shape]
      simp [lastSolid]
    have upParts : parts ('/' ::
        ['/'].intercalate (front.rdropWhile isBlank)) =
          front.filter (· ≠ []) := by
      rw [parts, components_sep_cons, components_intercalate
        fun piece member => pieceFree piece (upWithin piece member),
        frontTrimmed]
    refine ⟨'/' :: ['/'].intercalate (front.rdropWhile isBlank),
      ?_, rfl, ?_, ?_, ?_⟩
    · unfold parent
      rw [shape]
      cases front with
      | nil =>
          simp [beforeBody]
      | cons head tail =>
          have init : (head :: (tail ++ [last])).dropLast = head :: tail := by
            rw [← List.cons_append, List.dropLast_concat]
          simp [beforeBody, init]
    · intro part member
      rw [upParts] at member
      exact pieceUndotted part (frontWithin part (List.mem_filter.mp member).1)
    · rw [wholeParts]
      simp
    · rw [upParts, wholeParts, List.dropLast_concat]

/-! ## Key arithmetic -/

theorem rfind_append {char : Char} {front last : Text}
    (free : char ∉ last) :
    rfind char (front ++ char :: last) = some front.length := by
  have skipped : last.reverse.findIdx? (fun other => decide (other = char)) =
      none := by
    rw [List.findIdx?_eq_none_iff]
    intro other member
    simp only [decide_eq_false_iff_not]
    rintro rfl
    exact free (List.mem_reverse.mp member)
  unfold rfind
  rw [List.reverse_append, List.reverse_cons, List.append_assoc,
    List.findIdx?_append, skipped]
  simp [List.findIdx?_cons]

/-- A text with a separator, taken apart at the last one. -/
theorem exists_last_sep {text : Text} (member : '/' ∈ text) :
    ∃ front last, text = front ++ '/' :: last ∧ '/' ∉ last := by
  obtain ⟨last, front, shape, free⟩ :=
    List.eq_append_cons_of_mem (List.mem_reverse.mpr member)
  refine ⟨front.reverse, last.reverse, ?_, by simpa using free⟩
  rw [← List.reverse_reverse text, shape]
  simp

/-- The parent key is what stands before the last separator; the root has
nothing before it and keeps the separator. -/
theorem parentKey_append {front last : Text} (free : '/' ∉ last) :
    parentKey (front ++ '/' :: last) =
      some (if front = [] then ['/'] else front) := by
  unfold parentKey
  rw [rfind_append free]
  cases front with
  | nil =>
      simp
  | cons first rest =>
      simp

theorem exists_of_parentKey {key up : Text} (parent : parentKey key = some up) :
    ∃ front last, key = front ++ '/' :: last ∧ '/' ∉ last ∧
      up = if front = [] then ['/'] else front := by
  by_cases member : '/' ∈ key
  · obtain ⟨front, last, rfl, free⟩ := exists_last_sep member
    rw [parentKey_append free, Option.some.injEq] at parent
    exact ⟨front, last, rfl, free, parent.symm⟩
  · have missing : rfind '/' key = none := by
      unfold rfind
      rw [Option.map_eq_none_iff, List.findIdx?_eq_none_iff]
      intro other inside
      simp only [decide_eq_false_iff_not]
      rintro rfl
      exact member (List.mem_reverse.mp inside)
    rw [parentKey, missing] at parent
    cases parent

/-- The parent of a key drops its last component. -/
theorem parentKey_render {front : List Text} {last : Text}
    (clean : Clean '/' (front ++ [last])) :
    parentKey (render '/' (front ++ [last])) = some (render '/' front) := by
  have lastFree : '/' ∉ last := (clean last (by simp)).2
  have shape : render '/' (front ++ [last]) =
      body '/' front ++ '/' :: last := by
    rw [render_of_ne_nil (by simp), body_append, body_cons, body_nil,
      List.append_nil]
  rw [shape, parentKey_append lastFree]
  cases front with
  | nil =>
      rfl
  | cons first rest =>
      rw [if_neg (by simp [body_cons])]
      rfl

theorem parentKey_root : parentKey ['/'] = some ['/'] := by
  decide

/-- Below a key that is not the root lie exactly the keys that extend its
components. -/
theorem isUnder_render {lead whole : List Text} (nonempty : lead ≠ [])
    (leadClean : Clean '/' lead) (wholeClean : Clean '/' whole) :
    isUnder (render '/' lead) (render '/' whole) = true ↔
      ∃ extra, extra ≠ [] ∧ whole = lead ++ extra := by
  rw [isUnder_iff, extends_render_iff nonempty leadClean wholeClean]

/-- Nothing lies below the root as far as the descendant test goes: no key
starts with two separators. -/
theorem isUnder_root {whole : List Text} (clean : Clean '/' whole) :
    isUnder ['/'] (render '/' whole) = false := by
  rw [Bool.eq_false_iff, Ne, isUnder_iff]
  exact not_extends_root clean

end Hookfs.Posix
