import Hookfs.Lib.Runs
import Hookfs.Path.Labels
import Hookfs.Memory.Subtrees
import Hookfs.Memory.Handles
import Hookfs.Memory.Shape

/-!
# Directory listings

`read_dir` goes by the parents of the keys and shows the display names of the
nodes, while `metadata` goes by the key of a joined path.  The two agree on
every directory but the root, whose listing contains the root itself, and
those below which a key ends in a component that is no name.
-/

namespace Hookfs.Memory

open Hookfs.Lib Hookfs.Vfs Hookfs.Posix

namespace MemoryFs

/-! ## Display names over runs -/

/-- Every display name is as its key wants it. -/
def Labelled (entries : Store Text Node) : Prop :=
  ∀ key node, entries.lookup key = some node → Tagged key (nodeName node)

variable {entries : Store Text Node} {fs : MemoryFs}

theorem Labelled.of_fewer {next : Store Text Node}
    (labelled : Labelled entries)
    (fewer : ∀ key node, next.lookup key = some node →
      entries.lookup key = some node) : Labelled next :=
  fun key node present => labelled key node (fewer key node present)

theorem Labelled.evict (labelled : Labelled fs.entries) (key : Text) :
    Labelled (fs.evict key).entries := by
  apply labelled.of_fewer
  intro other node present
  rw [lookup_evict] at present
  split at present
  · cases present
  · exact present

theorem Labelled.place (labelled : Labelled fs.entries) {key : Text}
    {node : Node} (tagged : Tagged key (nodeName node)) :
    Labelled (fs.place key node).entries := by
  intro other found present
  rw [lookup_place] at present
  split at present
  · rename_i same
    rw [same, ← Option.some.inj present]
    exact tagged
  · exact labelled other found present

theorem Labelled.orInsert (labelled : Labelled entries) {key : Text}
    {node : Node} (tagged : Tagged key (nodeName node)) :
    Labelled (orInsert key node entries) := by
  intro other found present
  rw [lookup_orInsert] at present
  cases old : entries.lookup other with
  | some before =>
      rw [old, Option.some_or, Option.some.injEq] at present
      rw [← present]
      exact labelled other before old
  | none =>
      rw [old, Option.none_or] at present
      split at present
      · rename_i same
        rw [same, ← Option.some.inj present]
        exact tagged
      · cases present

theorem labelled_ancestorLoop :
    ∀ (rounds : Nat) (dir : Option Text) (entries : Store Text Node),
      Labelled entries → Labelled (ancestorLoop rounds dir entries)
  | 0, _, _, labelled => labelled
  | _ + 1, none, _, labelled => labelled
  | rounds + 1, some dir, entries, labelled => by
      have next : Labelled (MemoryFs.orInsert (normalizeKeyStr dir)
          (.dir (finalComponent dir)) entries) :=
        labelled.orInsert (tagged_normalizeKeyStr dir)
      unfold ancestorLoop
      split
      · exact labelled
      · simp only
        split
        · exact next
        · exact labelled_ancestorLoop rounds _ _ next

theorem Labelled.insertAncestorDirs (labelled : Labelled fs.entries)
    (path : Text) : Labelled (insertAncestorDirs path fs).entries :=
  labelled_ancestorLoop _ _ _ labelled

/-- A node placed under its own name, with its ancestors. -/
theorem Labelled.planted (labelled : Labelled fs.entries) (path : Text)
    {node : Node} (named : nodeName node = finalComponent path) :
    Labelled (MemoryFs.insertAncestorDirs path
      (fs.place (normalizeKeyStr path) node)).entries := by
  apply Labelled.insertAncestorDirs
  apply labelled.place
  rw [named]
  exact tagged_normalizeKeyStr path

theorem lastName_below (front rest : Text) :
    lastName (front ++ '/' :: rest) = lastName ('/' :: rest) := by
  obtain ⟨lead, last, shape, free⟩ :=
    exists_last_sep (show '/' ∈ '/' :: rest from List.mem_cons_self)
  rw [shape, ← List.append_assoc, lastName_append free, lastName_append free]

/-- What stands below a key keeps its display name when the key changes. -/
theorem tagged_below {front name : Text} (other rest : Text)
    (tagged : Tagged (front ++ '/' :: rest) name) :
    Tagged (other ++ '/' :: rest) name := by
  intro _
  rw [lastName_below, ← lastName_below front]
  exact tagged (by simp)

theorem nodeName_rename (name : Text) (node : Node) :
    nodeName (node.rename name) = name := by
  cases node with
  | file source old mtime =>
      rfl
  | memFile file old =>
      rfl
  | dir old =>
      rfl

theorem labelled_moveLoop {source path : Text} :
    ∀ (keys : List Text) (fs : MemoryFs),
      (∀ key ∈ keys, covers source key = true) → Labelled fs.entries →
        Labelled (moveLoop source (normalizeKeyStr path)
          (finalComponent path) keys fs).entries
  | [], _, _, labelled => labelled
  | key :: rest, fs, covered, labelled => by
      have restCovered : ∀ other ∈ rest, covers source other = true :=
        fun other member => covered other (List.mem_cons_of_mem _ member)
      cases present : fs.entries.lookup key with
      | none =>
          rw [moveLoop, present]
          exact labelled_moveLoop rest fs restCovered labelled
      | some node =>
          rw [moveLoop_present present]
          apply labelled_moveLoop rest _ restCovered
          apply Labelled.place
          · apply labelled.of_fewer
            intro other found kept
            by_cases same : other = key
            · rw [same, AList.lookup_erase] at kept
              cases kept
            · rwa [AList.lookup_erase_ne same] at kept
          · rcases covers_iff.mp (covered key List.mem_cons_self) with
              rfl | ⟨below, rfl⟩
            · rw [if_pos rfl, nodeName_rename, rekey, if_pos rfl]
              exact tagged_normalizeKeyStr path
            · have longer : source ++ '/' :: below ≠ source := by
                simp
              rw [if_neg longer, rekey, if_neg longer, List.drop_left]
              exact tagged_below _ below (labelled _ node present)

theorem Labelled.clearDestination {cleared : MemoryFs} {kind : Bool}
    {key : Text} (labelled : Labelled fs.entries)
    (passed : clearDestination kind key fs = .ok cleared) :
    Labelled cleared.entries := by
  unfold MemoryFs.clearDestination at passed
  split at passed
  · rw [← Except.ok.inj passed]
    exact labelled
  · split at passed
    · cases passed
    · cases passed
    · split at passed
      · cases passed
      · rw [← Except.ok.inj passed]
        exact labelled.evict key
    · rw [← Except.ok.inj passed]
      exact labelled.evict key

theorem Labelled.rename (labelled : Labelled fs.entries) (hash : HashOrder)
    (source target : Text) :
    Labelled (fs.rename hash source target).2.entries := by
  unfold MemoryFs.rename
  simp only
  split
  · exact labelled
  · split
    · exact labelled
    · split
      · exact labelled
      · split
        · exact labelled
        · rename_i cleared passed
          apply Labelled.insertAncestorDirs
          apply labelled_moveLoop
          · intro key member
            exact (List.mem_filter.mp member).2
          · exact labelled.clearDestination passed

theorem Labelled.removeSubtree (labelled : Labelled fs.entries)
    (key : Text) : Labelled (fs.removeSubtree key).entries := by
  rw [removeSubtree_eq]
  apply pruneLoop_keeps (fun next => Labelled next.entries)
  · intro next dir name kept _ _
    exact kept.evict dir
  · apply labelled.of_fewer
    intro other node present
    rw [lookup_cutSubtree] at present
    split at present
    · cases present
    · exact present

theorem Labelled.remove (labelled : Labelled fs.entries) (path : Text) :
    Labelled (fs.remove path).2.entries := by
  rcases remove_cases path fs with same | ⟨taken, -⟩
  · rw [same]
    exact labelled
  · rw [taken]
    exact labelled.evict _

theorem Labelled.openWrite (labelled : Labelled fs.entries) (now : Time)
    (path : Text) (opts : OpenOptions) :
    Labelled (fs.openWrite now path opts).2.entries := by
  rcases entries_openWrite now path opts fs with
    ⟨same, -⟩ | ⟨-, -, next, file, nextEntries, planted⟩
  · rw [same]
    exact labelled
  · rw [planted]
    have nextLabelled : Labelled next.entries := by
      rw [nextEntries]
      exact labelled
    exact nextLabelled.planted path rfl

theorem Labelled.createDir (labelled : Labelled fs.entries) (path : Text) :
    Labelled (fs.createDir path).2.entries := by
  unfold MemoryFs.createDir
  simp only
  split
  · exact labelled
  · exact labelled.planted path rfl

theorem entries_writeHandle (now : Time) (file pos : Nat)
    (buf : List UInt8) (fs : MemoryFs) :
    (fs.writeHandle now file pos buf).2.2.entries = fs.entries := by
  have written : (fs.writeFile now file pos buf).2.entries = fs.entries := by
    unfold writeFile
    split
    · rfl
    · rfl
  unfold writeHandle
  split
  · rename_i error next failed
    rw [failed] at written
    exact written
  · rename_i count next done
    rw [done] at written
    exact written

end MemoryFs

namespace Desk

open MemoryFs

theorem entries_accept
    (opened : Option (Except IoError Stream) × MemoryFs) (desk : Desk) :
    (desk.accept opened).fs.entries = opened.2.entries := by
  unfold accept
  split
  · rfl
  · rfl

theorem entries_onMemory {operate : Nat → Nat → MemoryFs → Stream × MemoryFs}
    (desk : Desk) (handle : Nat)
    (keeps : ∀ file pos,
      (operate file pos desk.fs).2.entries = desk.fs.entries) :
    (desk.onMemory handle operate).fs.entries = desk.fs.entries := by
  unfold onMemory
  split
  · exact keeps _ _
  · rfl

/-- Every operation keeps the display names right, whatever its paths look
like. -/
theorem labelled_step (desk : Desk) (op : DeskOp)
    (labelled : Labelled desk.fs.entries) :
    Labelled (desk.step op).fs.entries := by
  cases op with
  | insertFile path source mtime =>
      exact labelled.planted path rfl
  | insertWritable now path =>
      have shared : Labelled (desk.fs.newFile now).2.entries := labelled
      exact shared.planted path rfl
  | «open» path opts =>
      have same : (desk.fs.open path opts).2.entries = desk.fs.entries := by
        unfold MemoryFs.open
        split
        · rfl
        · rfl
        · exact entries_cloneFile _ _
        · rfl
      simp only [step]
      rw [entries_accept, same]
      exact labelled
  | openWrite now path opts =>
      simp only [step]
      rw [entries_accept]
      exact labelled.openWrite now path opts
  | createDir path =>
      exact labelled.createDir path
  | remove path =>
      exact labelled.remove path
  | rename hash source target =>
      exact labelled.rename hash source target
  | removeSubtree key =>
      exact labelled.removeSubtree key
  | setLen now path len =>
      have same : (desk.fs.setLen now path len).2.entries =
          desk.fs.entries := by
        unfold MemoryFs.setLen
        split
        · exact entries_setFileLen now _ len desk.fs
        · rfl
        · rfl
      simp only [step]
      rw [same]
      exact labelled
  | read handle physical len =>
      simp only [step]
      split
      · exact labelled
      · exact labelled
  | seek handle target =>
      simp only [step]
      split
      · exact labelled
      · exact labelled
  | write now handle buf =>
      simp only [step]
      rw [entries_onMemory desk handle fun file pos =>
        entries_writeHandle now file pos buf desk.fs]
      exact labelled
  | setHandleLen now handle len =>
      simp only [step]
      rw [entries_onMemory desk handle fun file _ =>
        entries_setFileLen now file len desk.fs]
      exact labelled
  | drop handle =>
      simp only [step]
      split
      · exact labelled
      · rename_i stream _
        have same : (stream.drop desk.fs).entries = desk.fs.entries := by
          cases stream with
          | source origin pos =>
              rfl
          | memory file pos =>
              exact entries_dropFile file desk.fs
        rw [same]
        exact labelled

theorem labelled_run (capacity : Nat) (ops : List DeskOp) :
    Labelled (run step (start capacity) ops).fs.entries := by
  apply run_of_allowed (fun desk : Desk => Labelled desk.fs.entries)
    (fun desk op kept (_ : True) => labelled_step desk op kept)
    (fun _ _ => trivial)
  intro key node present
  simp [start, withCapacity] at present

end Desk

/-! ## The listing of a directory -/

namespace MemoryFs

/-- The one more component by which the key extends the directory's. -/
def childName (dir key : Text) : Option Text :=
  match stripPrefix (if dir = ['/'] then dir else dir ++ ['/']) key with
  | none => none
  | some name => if name ≠ [] ∧ '/' ∉ name then some name else none

/-- The components that extend a directory's key to a key of the map. -/
def childNames (dir : Text) (fs : MemoryFs) : List Text :=
  fs.entries.keys.filterMap (childName dir)

/-- A listing with one entry for each child, in order, whose metadata is what
`metadata` says. -/
structure ListsExactly (fs : MemoryFs) (path : Text)
    (listed : List DirEntry) : Prop where
  names : (listed.map (·.name)).Perm (fs.childNames (normalizeKeyStr path))
  sorted : listed.Pairwise fun left right => nameLe left right = true
  metadata : ∀ entry ∈ listed,
    fs.metadata (join path entry.name) = some (.ok entry.metadata)

def ReadDirExact (fs : MemoryFs) (path : Text) : Prop :=
  ∃ listed, fs.readDir path = some (.ok listed) ∧
    fs.ListsExactly path listed

variable {fs : MemoryFs} {dir key name : Text}

theorem childName_eq_some_iff :
    childName dir key = some name ↔
      key = (if dir = ['/'] then dir else dir ++ ['/']) ++ name ∧
        name ≠ [] ∧ '/' ∉ name := by
  unfold childName
  generalize (if dir = ['/'] then dir else dir ++ ['/']) = lead
  rw [← stripPrefix_eq_some_iff]
  cases stripPrefix lead key with
  | none =>
      simp
  | some rest =>
      simp only [Option.some.injEq]
      constructor
      · intro extended
        split at extended
        · rename_i plain
          rw [← Option.some.inj extended]
          exact ⟨rfl, plain⟩
        · cases extended
      · rintro ⟨rfl, plain⟩
        rw [if_pos plain]

theorem childName_iff (notRoot : dir ≠ ['/']) :
    childName dir key = some name ↔
      key = dir ++ '/' :: name ∧ name ≠ [] ∧ '/' ∉ name := by
  rw [childName_eq_some_iff, if_neg notRoot, List.append_assoc,
    List.singleton_append]

theorem parentKey_iff (nonempty : dir ≠ []) (notRoot : dir ≠ ['/']) :
    parentKey key = some dir ↔
      ∃ last, key = dir ++ '/' :: last ∧ '/' ∉ last := by
  constructor
  · intro parent
    obtain ⟨front, last, shape, free, up⟩ := exists_of_parentKey parent
    split at up
    · exact absurd up notRoot
    · exact ⟨last, by rw [shape, up], free⟩
  · rintro ⟨last, rfl, free⟩
    rw [parentKey_append free, if_neg nonempty]

/-- A child by its path is a child by its parent key. -/
theorem parentKey_of_childName (nonempty : dir ≠ [])
    (extended : childName dir key = some name) :
    parentKey key = some dir := by
  obtain ⟨shape, -, free⟩ := childName_eq_some_iff.mp extended
  rw [shape]
  split
  · rename_i root
    have top : parentKey ([] ++ '/' :: name) = some ['/'] :=
      parentKey_append free
    rw [root]
    exact top
  · rw [List.append_assoc, List.singleton_append, parentKey_append free,
      if_neg nonempty]

/-- In a well-formed tree every key is absolute. -/
theorem absolute_of_present (wellFormed : fs.WellFormed) {node : Node}
    (present : fs.entries.lookup key = some node) :
    isAbsolute key = true := by
  induction size : key.length using Nat.strongRecOn generalizing key node with
  | ind limit inductionHypothesis =>
      by_cases root : key = ['/']
      · rw [root]
        rfl
      · obtain ⟨up, label, parent, upPresent⟩ :=
          wellFormed key node present root
        obtain ⟨front, last, shape, -, upEq⟩ := exists_of_parentKey parent
        split at upEq
        · rename_i empty
          rw [shape, empty]
          rfl
        · rename_i deeper
          rw [upEq] at upPresent
          have shorter : front.length < limit := by
            rw [← size, shape]
            simp
          have upAbsolute := inductionHypothesis front.length shorter
            upPresent rfl
          obtain ⟨char, rest, rfl⟩ := List.exists_cons_of_ne_nil deeper
          rw [shape]
          exact upAbsolute

theorem isAbsolute_of_key {path : Text}
    (absolute : isAbsolute (normalizeKeyStr path) = true) :
    isAbsolute path = true := by
  cases path with
  | nil =>
      cases absolute
  | cons char rest =>
      by_cases same : char = '/'
      · rw [same]
        rfl
      · obtain ⟨later, shape⟩ := collapse_ne_nil same rest false
        rw [normalizeKeyStr, shape, dropTrailing] at absolute
        split at absolute
        · rename_i both
          have more : later ≠ [] := by
            rintro rfl
            exact absurd both.1 (by simp)
          rw [List.dropLast_cons_of_ne_nil more] at absolute
          exact absolute
        · exact absolute

theorem normalizeKeyStr_join {path : Text}
    (absolute : isAbsolute path = true)
    (notRoot : normalizeKeyStr path ≠ ['/']) (solid : name ≠ [])
    (free : '/' ∉ name) :
    normalizeKeyStr (join path name) =
      normalizeKeyStr path ++ '/' :: name := by
  have relative : isAbsolute name = false := by
    rw [Bool.eq_false_iff]
    intro sep
    obtain ⟨rest, rfl⟩ := exists_eq_sep_cons sep
    exact free List.mem_cons_self
  have joined : isAbsolute (join path name) = true := by
    obtain ⟨rest, rfl⟩ := exists_eq_sep_cons absolute
    unfold join
    rw [relative, if_neg Bool.false_ne_true]
    split
    · rfl
    · rfl
  have nonempty : parts path ≠ [] := by
    intro empty
    rw [normalizeKeyStr_of_absolute absolute, empty] at notRoot
    exact notRoot rfl
  rw [normalizeKeyStr_of_absolute joined, parts_join path relative,
    show parts name = [name] from components_of_free solid free,
    normalizeKeyStr_of_absolute absolute, render_of_ne_nil (by simp),
    render_of_ne_nil nonempty, body_append, body_cons, body_nil,
    List.append_nil]

/-! ## Counting children -/

theorem isSome_of_length_filterMap {Item Value : Type}
    {pick : Item → Option Value} {keep : Item → Bool} {items : List Item}
    (within : ∀ item, (pick item).isSome = true → keep item = true)
    (same : (items.filterMap pick).length = (items.filter keep).length)
    {item : Item} (member : item ∈ items) (kept : keep item = true) :
    (pick item).isSome = true := by
  have picked : (items.filter fun item => (pick item).isSome).Sublist
      (items.filter keep) := List.monotone_filter_right items within
  rw [List.length_filterMap_eq_countP, List.countP_eq_length_filter] at same
  have inside : item ∈ items.filter keep :=
    List.mem_filter.mpr ⟨member, kept⟩
  rw [← picked.eq_of_length same] at inside
  exact (List.mem_filter.mp inside).2

theorem map_filter_eq_filterMap {Item Value : Type}
    {pick : Item → Option Value} {keep : Item → Bool} {value : Item → Value}
    {items : List Item}
    (agrees : ∀ item ∈ items,
      pick item = if keep item then some (value item) else none) :
    (items.filter keep).map value = items.filterMap pick := by
  induction items with
  | nil =>
      rfl
  | cons item rest inductionHypothesis =>
      have later := inductionHypothesis fun other member =>
        agrees other (List.mem_cons_of_mem _ member)
      have here := agrees item List.mem_cons_self
      cases kept : keep item with
      | false =>
          rw [kept, if_neg Bool.false_ne_true] at here
          rw [List.filter_cons_of_neg (by rw [kept]; decide),
            List.filterMap_cons_none here, later]
      | true =>
          rw [kept, if_pos rfl] at here
          rw [List.filter_cons_of_pos kept, List.map_cons,
            List.filterMap_cons_some here, later]

theorem nameLe_iff {left right : DirEntry} :
    nameLe left right = true ↔
      Text.utf8 left.name ≤ Text.utf8 right.name := by
  rw [nameLe, Bool.not_eq_true', List.lex_eq_false_iff_ge]

theorem pairwise_nameLe (listed : List DirEntry) :
    (listed.mergeSort nameLe).Pairwise
      fun left right => nameLe left right = true := by
  apply List.pairwise_mergeSort
  · intro first second third early late
    rw [nameLe_iff] at early late ⊢
    exact List.le_trans early late
  · intro left right
    rw [Bool.or_eq_true, nameLe_iff, nameLe_iff]
    exact List.le_total _ _

section Directory

variable {path label : Text} (wellFormed : fs.WellFormed)
  (labelled : Labelled fs.entries)
  (directory :
    fs.entries.lookup (normalizeKeyStr path) = some (.dir label))

/-- Every key directly below the directory ends in a name. -/
def PlainBelow (fs : MemoryFs) (dir : Text) : Prop :=
  ∀ key node, fs.entries.lookup key = some node →
    parentKey key = some dir → Plain (lastName key)

instance (fs : MemoryFs) (dir : Text) : Decidable (fs.PlainBelow dir) :=
  Store.decidableForallLookup

include directory in
theorem readDir_of_dir :
    fs.readDir path = some (.ok
      (((fs.entries.entries.filter fun entry =>
          parentKey entry.1 = some (normalizeKeyStr path)).map fun entry =>
        ({ name := nodeName entry.2
           metadata := fs.nodeMetadata entry.2 } : DirEntry)).mergeSort
            nameLe)) := by
  unfold readDir
  simp only [directory]

include wellFormed directory

theorem key_ne_nil : normalizeKeyStr path ≠ [] := by
  intro empty
  have absolute := absolute_of_present wellFormed directory
  rw [empty] at absolute
  cases absolute

include labelled

/-- Where a listing is exact, the directory is not the root, and the keys
below it end in names. -/
theorem plain_of_exact (exact : fs.ReadDirExact path) :
    normalizeKeyStr path ≠ ['/'] ∧
      fs.PlainBelow (normalizeKeyStr path) := by
  obtain ⟨listed, listing, whole⟩ := exact
  rw [readDir_of_dir directory, Option.some.injEq, Except.ok.injEq]
    at listing
  have nonempty := key_ne_nil wellFormed directory
  have counted : (fs.entries.keys.filterMap
      (childName (normalizeKeyStr path))).length =
        (fs.entries.keys.filter fun key =>
          parentKey key = some (normalizeKeyStr path)).length := by
    have names := whole.names.length_eq
    rw [childNames, List.length_map, ← listing, List.length_mergeSort,
      List.length_map] at names
    rw [← names, AList.keys, List.keys, List.filter_map, List.length_map]
    rfl
  have child : ∀ key node, fs.entries.lookup key = some node →
      parentKey key = some (normalizeKeyStr path) →
        (childName (normalizeKeyStr path) key).isSome = true := by
    intro key node present parent
    apply isSome_of_length_filterMap _ counted
    · exact mem_keys_iff.mpr ⟨node, present⟩
    · exact decide_eq_true parent
    · intro other extended
      obtain ⟨name, found⟩ := Option.isSome_iff_exists.mp extended
      exact decide_eq_true (parentKey_of_childName nonempty found)
  have notRoot : normalizeKeyStr path ≠ ['/'] := by
    intro root
    rw [root] at directory child
    have self := child ['/'] _ directory parentKey_root
    cases self
  refine ⟨notRoot, ?_⟩
  intro key node present parent
  obtain ⟨name, extended⟩ :=
    Option.isSome_iff_exists.mp (child key node present parent)
  obtain ⟨shape, solid, free⟩ := (childName_iff notRoot).mp extended
  rw [shape, lastName_append free]
  -- the listing shows this component, as the display name of some node
  have shown : name ∈ listed.map (·.name) := by
    rw [whole.names.mem_iff, childNames, List.mem_filterMap]
    exact ⟨key, mem_keys_iff.mpr ⟨node, present⟩, extended⟩
  rw [← listing] at shown
  obtain ⟨entry, member, rfl⟩ := List.mem_map.mp shown
  rw [List.mem_mergeSort, List.mem_map] at member
  obtain ⟨⟨other, found⟩, inside, rfl⟩ := member
  obtain ⟨inEntries, otherParent⟩ := List.mem_filter.mp inside
  obtain ⟨front, last, otherShape, -, -⟩ :=
    exists_of_parentKey (of_decide_eq_true otherParent)
  have deep : '/' ∈ other := by
    rw [show other = front ++ '/' :: last from otherShape]
    simp
  exact (labelled other found (AList.mem_lookup_iff.mpr inEntries) deep).1

theorem exact_of_plain (notRoot : normalizeKeyStr path ≠ ['/'])
    (plain : fs.PlainBelow (normalizeKeyStr path)) :
    fs.ReadDirExact path := by
  have nonempty := key_ne_nil wellFormed directory
  have absolute := isAbsolute_of_key
    (absolute_of_present wellFormed directory)
  have named : ∀ key node, fs.entries.lookup key = some node →
      parentKey key = some (normalizeKeyStr path) →
        key = normalizeKeyStr path ++ '/' :: nodeName node ∧
          nodeName node ≠ [] ∧ '/' ∉ nodeName node := by
    intro key node present parent
    obtain ⟨last, rfl, free⟩ := (parentKey_iff nonempty notRoot).mp parent
    have solid := plain _ node present parent
    have tagged := (labelled _ node present (by simp)).2 solid
    rw [lastName_append free] at solid tagged
    rw [tagged]
    exact ⟨rfl, solid.1, free⟩
  refine ⟨_, readDir_of_dir directory, ⟨?_, pairwise_nameLe _, ?_⟩⟩
  · have listed : ((fs.entries.entries.filter fun entry =>
          parentKey entry.1 = some (normalizeKeyStr path)).map
            fun entry => nodeName entry.2) =
        fs.childNames (normalizeKeyStr path) := by
      rw [childNames, AList.keys, List.keys, List.filterMap_map]
      apply map_filter_eq_filterMap
      rintro ⟨key, node⟩ member
      have present := AList.mem_lookup_iff.mpr member
      by_cases parent : parentKey key = some (normalizeKeyStr path)
      · rw [if_pos (decide_eq_true parent)]
        exact (childName_iff notRoot).mpr (named key node present parent)
      · rw [if_neg (by simpa using parent)]
        cases extended : childName (normalizeKeyStr path) key with
        | none =>
            exact extended
        | some name =>
            exact absurd (parentKey_of_childName nonempty extended) parent
    rw [← listed]
    have sorted := (List.mergeSort_perm ((fs.entries.entries.filter
      fun entry => parentKey entry.1 = some (normalizeKeyStr path)).map
        fun entry => ({ name := nodeName entry.2
                        metadata := fs.nodeMetadata entry.2 } : DirEntry))
      nameLe).map (·.name)
    rw [List.map_map] at sorted
    exact sorted
  · intro entry member
    rw [List.mem_mergeSort, List.mem_map] at member
    obtain ⟨⟨key, node⟩, inside, rfl⟩ := member
    obtain ⟨inEntries, parent⟩ := List.mem_filter.mp inside
    have present := AList.mem_lookup_iff.mpr inEntries
    obtain ⟨shape, solid, free⟩ :=
      named key node present (of_decide_eq_true parent)
    have joined := normalizeKeyStr_join absolute notRoot solid free
    rw [MemoryFs.metadata, joined, ← shape, present]
    rfl

end Directory

end MemoryFs

namespace Desk

open MemoryFs

/-- In every reachable well-formed tree, the listing of a directory is exact
if and only if the directory is not the root and every key directly below it
ends in a name. -/
theorem readDir_exact_iff (capacity : Nat) (ops : List DeskOp)
    (path label : Text)
    (wellFormed : (run step (start capacity) ops).fs.WellFormed)
    (directory : (run step (start capacity) ops).fs.entries.lookup
      (normalizeKeyStr path) = some (.dir label)) :
    (run step (start capacity) ops).fs.ReadDirExact path ↔
      normalizeKeyStr path ≠ ['/'] ∧
        (run step (start capacity) ops).fs.PlainBelow
          (normalizeKeyStr path) := by
  have labelled := labelled_run capacity ops
  constructor
  · exact plain_of_exact wellFormed labelled directory
  · rintro ⟨notRoot, plain⟩
    exact exact_of_plain wellFormed labelled directory notRoot plain

/-- Two files and a directory below a directory. -/
theorem readDir_exact_iff_three :
    (run step (start 8)
      [.insertWritable 1 "/d/b".toList, .createDir "/d/c".toList,
        .insertWritable 2 "/d/a".toList]).fs.ReadDirExact "/d".toList :=
  (readDir_exact_iff 8 _ "/d".toList "d".toList (by decide)
    (by decide)).mpr (by decide)

/-- The listing of the root contains the root. -/
theorem readDir_lists_root :
    ¬ ∀ (capacity : Nat) (ops : List DeskOp) (path label : Text),
      (run step (start capacity) ops).fs.WellFormed →
        (run step (start capacity) ops).fs.entries.lookup
          (normalizeKeyStr path) = some (.dir label) →
          (run step (start capacity) ops).fs.ReadDirExact path := by
  intro always
  have directory : (run step (start 8)
      [.createDir "/a".toList]).fs.entries.lookup
        (normalizeKeyStr ['/']) = some (.dir ['/']) := by decide
  have exact := always 8 [.createDir "/a".toList] ['/'] ['/'] (by decide)
    directory
  have plain := plain_of_exact (by decide)
    (labelled_run 8 [.createDir "/a".toList]) directory exact
  exact plain.1 (by decide)

end Desk

end Hookfs.Memory
