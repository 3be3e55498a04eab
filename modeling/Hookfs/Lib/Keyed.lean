import Mathlib.Data.List.Basic
import Mathlib.Data.List.Induction
import Mathlib.Data.List.Nodup

/-!
# Lists of keyed entries

`firstBy` keeps the first entry of every key.  `mergeInto` merges an entry
into a list: the first entry of its key adopts something from it, and an entry
with a new key is appended.  Merging a whole list in and keeping first entries
afterwards is the same as keeping the first entries of both lists one after
the other, each refined by the last merged entry of its key.
-/

namespace Hookfs.Lib

universe u v

section Keyed

variable {Entry : Type u} {Key : Type v} [DecidableEq Key]
  (key : Entry → Key)

/-! ## Single entries -/

/-- Looking up the key of the only entry that has it. -/
theorem find?_key_of_unique {entries : List Entry}
    {entry : Entry} (member : entry ∈ entries)
    (unique : ∀ other ∈ entries, key other = key entry → other = entry) :
    (entries.find? fun other => key other = key entry) = some entry := by
  cases found : entries.find? fun other => key other = key entry with
  | none =>
      have absent := List.find?_eq_none.mp found entry member
      exact absurd (decide_eq_true rfl) absent
  | some other =>
      have same := List.find?_some found
      rw [unique other (List.mem_of_find?_eq_some found)
        (of_decide_eq_true same)]

/-! ## First entries -/

/-- The first entry of every key, in order. -/
def firstBy : List Entry → List Entry
  | [] => []
  | entry :: rest =>
      entry :: (firstBy rest).filter fun other => key other ≠ key entry

theorem mem_of_mem_firstBy {entry : Entry} :
    ∀ {entries : List Entry}, entry ∈ firstBy key entries →
      entry ∈ entries := by
  intro entries
  induction entries with
  | nil =>
      intro member
      cases member
  | cons head rest inductionHypothesis =>
      intro member
      rw [firstBy, List.mem_cons] at member
      rcases member with same | later
      · exact List.mem_cons.mpr (.inl same)
      · have kept := (List.mem_filter.mp later).1
        exact List.mem_cons_of_mem head (inductionHypothesis kept)

theorem mem_map_firstBy {name : Key} :
    ∀ {entries : List Entry},
      name ∈ (firstBy key entries).map key ↔ name ∈ entries.map key := by
  intro entries
  induction entries with
  | nil =>
      exact Iff.rfl
  | cons head rest inductionHypothesis =>
      rw [firstBy, List.map_cons, List.map_cons, List.mem_cons, List.mem_cons]
      by_cases same : name = key head
      · simp [same]
      · rw [← inductionHypothesis]
        simp only [same, false_or, List.mem_map, List.mem_filter,
          decide_eq_true_eq]
        constructor
        · intro kept
          obtain ⟨entry, ⟨member, _⟩, keyEq⟩ := kept
          exact ⟨entry, member, keyEq⟩
        · intro present
          obtain ⟨entry, member, keyEq⟩ := present
          exact ⟨entry, ⟨member, keyEq ▸ same⟩, keyEq⟩

theorem nodup_map_firstBy (entries : List Entry) :
    ((firstBy key entries).map key).Nodup := by
  induction entries with
  | nil =>
      exact List.nodup_nil
  | cons head rest inductionHypothesis =>
      rw [firstBy, List.map_cons, List.nodup_cons]
      constructor
      · intro member
        obtain ⟨entry, kept, same⟩ := List.mem_map.mp member
        have different := (List.mem_filter.mp kept).2
        exact of_decide_eq_true different same
      · have sublist := List.filter_sublist (p := fun other =>
          decide (key other ≠ key head)) (l := firstBy key rest)
        exact (sublist.map key).nodup inductionHypothesis

/-- An entry at the end is kept only if its key is new. -/
theorem firstBy_concat (entries : List Entry) (entry : Entry) :
    firstBy key (entries ++ [entry]) =
      if key entry ∈ entries.map key then firstBy key entries
      else firstBy key entries ++ [entry] := by
  induction entries with
  | nil =>
      rfl
  | cons head rest inductionHypothesis =>
      rw [List.cons_append, firstBy, firstBy, inductionHypothesis]
      by_cases later : key entry ∈ rest.map key
      · rw [if_pos later, if_pos]
        exact List.mem_cons_of_mem _ later
      · rw [if_neg later, List.filter_append]
        by_cases same : key entry = key head
        · have dropped : [entry].filter
              (fun other => decide (key other ≠ key head)) = [] := by
            simp [same]
          rw [dropped, List.append_nil, if_pos]
          rw [List.map_cons, same]
          exact List.mem_cons_self
        · have kept : [entry].filter
              (fun other => decide (key other ≠ key head)) = [entry] := by
            simp [same]
          rw [kept, if_neg, List.cons_append]
          rw [List.map_cons, List.mem_cons]
          exact not_or.mpr ⟨same, later⟩

theorem firstBy_prefix_append (entries more : List Entry) :
    firstBy key entries <+: firstBy key (entries ++ more) := by
  induction more using List.reverseRecOn with
  | nil =>
      exact ⟨[], by rw [List.append_nil, List.append_nil]⟩
  | append_singleton more entry inductionHypothesis =>
      rw [← List.append_assoc, firstBy_concat]
      split
      · exact inductionHypothesis
      · exact inductionHypothesis.trans (List.prefix_append _ _)

/-! ## Merging -/

/-- What it takes for an entry to adopt something from another one of its
key: the key stays, and the last adoption counts. -/
structure Adoption (adopt : Entry → Entry → Entry) : Prop where
  keeps : ∀ entry found, key (adopt entry found) = key entry
  self : ∀ entry, adopt entry entry = entry
  last : ∀ entry found later,
    adopt (adopt entry found) later = adopt entry later

variable (adopt : Entry → Entry → Entry)

def mergeInto : List Entry → Entry → List Entry
  | [], found => [found]
  | entry :: rest, found =>
      if key entry = key found then adopt entry found :: rest
      else entry :: mergeInto rest found

/-- The last entry of a key. -/
def lastBy (entries : List Entry) (name : Key) : Option Entry :=
  entries.reverse.find? fun entry => key entry = name

/-- What an entry becomes when a list is merged into the one it is first
in. -/
def refineBy (merged : List Entry) (entry : Entry) : Entry :=
  match lastBy key merged (key entry) with
  | some last => adopt entry last
  | none => entry

/-- One adoption, by the entries of its key. -/
def touch (found entry : Entry) : Entry :=
  if key entry = key found then adopt entry found else entry

theorem lastBy_concat (entries : List Entry) (entry : Entry) (name : Key) :
    lastBy key (entries ++ [entry]) name =
      if key entry = name then some entry else lastBy key entries name := by
  unfold lastBy
  rw [List.reverse_append, List.reverse_singleton, List.singleton_append,
    List.find?_cons]
  by_cases same : key entry = name
  · simp [same]
  · simp [same]

theorem lastBy_eq_none_iff {entries : List Entry} {name : Key} :
    lastBy key entries name = none ↔ name ∉ entries.map key := by
  unfold lastBy
  rw [List.find?_eq_none]
  simp [eq_comm]

theorem key_eq_of_lastBy {entries : List Entry} {name : Key} {last : Entry}
    (found : lastBy key entries name = some last) : key last = name := by
  have holds := List.find?_some found
  simpa using holds

theorem mem_of_lastBy {entries : List Entry} {name : Key} {last : Entry}
    (found : lastBy key entries name = some last) : last ∈ entries := by
  have member := List.mem_of_find?_eq_some found
  simpa using member

theorem mergeInto_of_not_mem {entries : List Entry} {found : Entry}
    (fresh : key found ∉ entries.map key) :
    mergeInto key adopt entries found = entries ++ [found] := by
  induction entries with
  | nil =>
      rfl
  | cons head rest inductionHypothesis =>
      rw [List.map_cons, List.mem_cons, not_or] at fresh
      rw [mergeInto, if_neg (Ne.symm fresh.1), inductionHypothesis fresh.2,
        List.cons_append]

/-- An entry with a new key touches none of those that are there. -/
theorem map_touch_of_fresh {entries : List Entry} {found : Entry}
    (fresh : key found ∉ entries.map key) :
    entries.map (touch key adopt found) = entries := by
  refine (List.map_congr_left ?_).trans (List.map_id entries)
  intro entry member
  apply if_neg
  intro same
  apply fresh
  rw [← same]
  exact List.mem_map_of_mem member

/-! ## Positions -/

/-- Where the first entry of a key is. -/
def indexBy (entries : List Entry) (name : Key) : Option Nat :=
  entries.findIdx? fun entry => key entry = name

theorem indexBy_eq_findIdx? (entries : List Entry) (name : Key) :
    indexBy key entries name =
      (entries.map key).findIdx? fun other => decide (other = name) := by
  rw [List.findIdx?_map]
  rfl

theorem indexBy_eq_none_iff {entries : List Entry} {name : Key} :
    indexBy key entries name = none ↔ name ∉ entries.map key := by
  unfold indexBy
  rw [List.findIdx?_eq_none_iff]
  simp [eq_comm]

theorem indexBy_concat (entries : List Entry) (entry : Entry) (name : Key) :
    indexBy key (entries ++ [entry]) name =
      (indexBy key entries name).or
        (if key entry = name then some entries.length else none) := by
  unfold indexBy
  rw [List.findIdx?_append, List.findIdx?_singleton]
  by_cases same : key entry = name
  · simp [same]
  · simp [same]

/-- Merging at a known position. -/
theorem mergeInto_eq_modify {found : Entry} :
    ∀ {entries : List Entry} {position : Nat},
      indexBy key entries (key found) = some position →
        mergeInto key adopt entries found =
          entries.modify position fun entry => adopt entry found := by
  intro entries
  induction entries with
  | nil =>
      intro position located
      cases located
  | cons head rest inductionHypothesis =>
      intro position located
      unfold indexBy at located
      rw [List.findIdx?_cons] at located
      rw [mergeInto]
      by_cases same : key head = key found
      · rw [if_pos (decide_eq_true same)] at located
        injection located with zero
        rw [if_pos same, ← zero]
        rfl
      · rw [if_neg (by simpa using same), Option.map_eq_some_iff] at located
        obtain ⟨before, later, rfl⟩ := located
        rw [if_neg same, inductionHypothesis later, List.modify_succ_cons]

variable {key adopt} (law : Adoption key adopt)

include law

theorem map_mergeInto_of_mem {entries : List Entry} {found : Entry}
    (present : key found ∈ entries.map key) :
    (mergeInto key adopt entries found).map key = entries.map key := by
  induction entries with
  | nil =>
      cases present
  | cons head rest inductionHypothesis =>
      rw [mergeInto]
      by_cases same : key head = key found
      · rw [if_pos same, List.map_cons, List.map_cons, law.keeps]
      · rw [if_neg same, List.map_cons, List.map_cons]
        rw [List.map_cons, List.mem_cons] at present
        rw [inductionHypothesis (present.resolve_left (Ne.symm same))]

theorem key_touch (found entry : Entry) :
    key (touch key adopt found entry) = key entry := by
  unfold touch
  split
  · exact law.keeps entry found
  · rfl

theorem key_refineBy (merged : List Entry) (entry : Entry) :
    key (refineBy key adopt merged entry) = key entry := by
  unfold refineBy
  split
  · exact law.keeps entry _
  · rfl

theorem refineBy_concat (merged : List Entry) (found entry : Entry) :
    refineBy key adopt (merged ++ [found]) entry =
      touch key adopt found (refineBy key adopt merged entry) := by
  have keyEq := key_refineBy law merged entry
  unfold touch
  rw [keyEq]
  unfold refineBy
  rw [lastBy_concat]
  by_cases same : key entry = key found
  · rw [if_pos same.symm, if_pos same]
    cases lastBy key merged (key entry) with
    | none =>
        rfl
    | some last =>
        exact (law.last entry last found).symm
  · rw [if_neg (Ne.symm same), if_neg same]

theorem firstBy_mergeInto_of_mem {entries : List Entry} {found : Entry}
    (present : key found ∈ entries.map key) :
    firstBy key (mergeInto key adopt entries found) =
      (firstBy key entries).map (touch key adopt found) := by
  induction entries with
  | nil =>
      cases present
  | cons head rest inductionHypothesis =>
      rw [mergeInto, firstBy, List.map_cons]
      by_cases same : key head = key found
      · rw [if_pos same, firstBy, law.keeps]
        have first : touch key adopt found head = adopt head found :=
          if_pos same
        have others : ((firstBy key rest).filter fun other =>
            key other ≠ key head).map (touch key adopt found) =
            (firstBy key rest).filter fun other => key other ≠ key head := by
          refine (List.map_congr_left ?_).trans (List.map_id _)
          intro entry member
          have different : key entry ≠ key head :=
            of_decide_eq_true (List.mem_filter.mp member).2
          exact if_neg (same ▸ different)
        rw [first, others]
      · have later : key found ∈ rest.map key := by
          rw [List.map_cons, List.mem_cons] at present
          exact present.resolve_left (Ne.symm same)
        have first : touch key adopt found head = head := if_neg same
        rw [if_neg same, firstBy, inductionHypothesis later, first,
          List.filter_map]
        have kept : (fun other => decide (key other ≠ key head)) ∘
            touch key adopt found =
              fun other => decide (key other ≠ key head) := by
          funext other
          simp [key_touch law found other]
        rw [kept]

/-- An entry whose key was not merged before refines to itself. -/
theorem touch_refineBy_self {merged : List Entry} {found : Entry}
    (fresh : key found ∉ merged.map key) :
    touch key adopt found (refineBy key adopt merged found) = found := by
  have unmerged := (lastBy_eq_none_iff key).mpr fresh
  unfold refineBy
  rw [unmerged]
  unfold touch
  rw [if_pos rfl]
  exact law.self found

/-- Refining keeps the keys of the first entries. -/
theorem mem_map_refined {entries merged : List Entry} {name : Key} :
    name ∈ ((firstBy key entries).map (refineBy key adopt merged)).map key ↔
      name ∈ entries.map key := by
  have kept : key ∘ refineBy key adopt merged = key :=
    funext (key_refineBy law merged)
  rw [List.map_map, kept, mem_map_firstBy]

/-- Merging a list in and keeping first entries is keeping the first entries
of both lists, refined by the merged one. -/
theorem firstBy_foldl_mergeInto (entries merged : List Entry) :
    firstBy key (merged.foldl (mergeInto key adopt) entries) =
      (firstBy key (entries ++ merged)).map (refineBy key adopt merged) := by
  induction merged using List.reverseRecOn with
  | nil =>
      rw [List.append_nil, List.foldl_nil]
      exact (List.map_id _).symm
  | append_singleton merged found inductionHypothesis =>
      have keys : ∀ name,
          name ∈ (merged.foldl (mergeInto key adopt) entries).map key ↔
            name ∈ (entries ++ merged).map key := by
        intro name
        rw [← mem_map_firstBy, inductionHypothesis, mem_map_refined law]
      have refined : refineBy key adopt (merged ++ [found]) =
          touch key adopt found ∘ refineBy key adopt merged :=
        funext (refineBy_concat law merged found)
      rw [List.foldl_append, List.foldl_cons, List.foldl_nil,
        ← List.append_assoc, firstBy_concat, refined, ← List.map_map]
      by_cases present : key found ∈ (entries ++ merged).map key
      · rw [if_pos present,
          firstBy_mergeInto_of_mem law ((keys _).mpr present),
          inductionHypothesis, List.map_map]
      · have fresh : key found ∉
            (merged.foldl (mergeInto key adopt) entries).map key :=
          fun member => present ((keys _).mp member)
        rw [if_neg present, mergeInto_of_not_mem key adopt fresh,
          firstBy_concat, if_neg fresh, inductionHypothesis, List.map_append,
          List.map_append]
        have new : key found ∉ ((firstBy key (entries ++ merged)).map
            (refineBy key adopt merged)).map key :=
          fun member => present ((mem_map_refined law).mp member)
        have unmerged : key found ∉ merged.map key := by
          intro member
          apply present
          rw [List.map_append]
          exact List.mem_append_right _ member
        rw [map_touch_of_fresh key adopt new, List.map_singleton,
          List.map_singleton, touch_refineBy_self law unmerged]

end Keyed

end Hookfs.Lib
