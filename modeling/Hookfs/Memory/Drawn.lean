import Hookfs.Memory.Failures
import Hookfs.Memory.Layout

/-!
# The tree is drawn

Over whole runs `MemoryFs` answers every path operation as a tree of names
does, and its entries are those of that tree.
-/

namespace Hookfs.Memory

open Hookfs.Lib Hookfs.Vfs Hookfs.Posix

namespace MemoryFs

/-! ## Numbers of files -/

variable {fs : MemoryFs}

theorem nextFile_cloneFile (id : Nat) (fs : MemoryFs) :
    (fs.cloneFile id).nextFile = fs.nextFile := by
  unfold cloneFile
  split
  · rfl
  · rfl

theorem nextFile_setFileLen (now : Time) (file len : Nat) (fs : MemoryFs) :
    (fs.setFileLen now file len).2.nextFile = fs.nextFile := by
  unfold setFileLen
  split
  · rfl
  · rfl

theorem nextFile_writeFile (now : Time) (file pos : Nat) (buf : List UInt8)
    (fs : MemoryFs) :
    (fs.writeFile now file pos buf).2.nextFile = fs.nextFile := by
  unfold writeFile
  split
  · rfl
  · rfl

theorem nextFile_emptied (now : Time) (opts : OpenOptions) (file : Nat)
    (fs : MemoryFs) : (fs.emptied now opts file).nextFile = fs.nextFile := by
  unfold emptied
  split
  · exact nextFile_setFileLen now file 0 fs
  · rfl

theorem nextFile_moveLoop {source target name : Text} :
    ∀ (keys : List Text) (fs : MemoryFs),
      (moveLoop source target name keys fs).nextFile = fs.nextFile := by
  intro keys
  induction keys with
  | nil =>
      intro fs
      rfl
  | cons key rest inductionHypothesis =>
      intro fs
      unfold moveLoop
      split
      · exact inductionHypothesis fs
      · rw [inductionHypothesis, nextFile_place]

theorem nextFile_clearDestination {kind : Bool} {key : Text}
    {cleared : MemoryFs} (passed : clearDestination kind key fs = .ok cleared) :
    cleared.nextFile = fs.nextFile := by
  unfold clearDestination at passed
  split at passed
  · cases passed
    rfl
  · split at passed
    · cases passed
    · cases passed
    · split at passed
      · cases passed
      · cases passed
        exact nextFile_evict key fs
    · cases passed
      exact nextFile_evict key fs

theorem nextFile_rename (hash : HashOrder) (source target : Text)
    (fs : MemoryFs) :
    (fs.rename hash source target).2.nextFile = fs.nextFile := by
  unfold rename
  simp only
  split
  · rfl
  · split
    · rfl
    · split
      · rfl
      · split
        · rfl
        · next cleared passed =>
          exact (nextFile_moveLoop _ cleared).trans
            (nextFile_clearDestination passed)

theorem nextFile_remove (path : Text) (fs : MemoryFs) :
    (fs.remove path).2.nextFile = fs.nextFile := by
  rcases remove_cases path fs with same | ⟨taken, -⟩
  · rw [same]
  · rw [taken]
    exact nextFile_evict _ fs

theorem nextFile_createDir (path : Text) (fs : MemoryFs) :
    (fs.createDir path).2.nextFile = fs.nextFile := by
  unfold createDir
  simp only
  split
  · rfl
  · exact nextFile_place (normalizeKeyStr path) (.dir (finalComponent path)) fs

end MemoryFs

/-! ## Plain names -/

/-- Every name on the way to an item is a name a directory can list. -/
def PlainNames (items : Forest Name Item) : Prop :=
  ∀ names, items names ≠ none → ∀ name ∈ names, Plain name.text

theorem plain_of_lexical {path : Text} (lexical : MemoryFs.Lexical path) :
    ∀ name ∈ namesOf path, Plain name.text := by
  intro name member
  have part : name.text ∈ parts path := by
    rw [← namesOf_val]
    exact List.mem_map_of_mem member
  have dots := ne_dots_of_safe lexical.2 part
  exact ⟨name.nonempty, dots.1, dots.2⟩

section Plainly

variable {items : Forest Name Item} {path : List Name}

theorem PlainNames.of_fewer {fewer : Forest Name Item}
    (plain : PlainNames items)
    (less : ∀ names, fewer names ≠ none → items names ≠ none) :
    PlainNames fewer :=
  fun names there => plain names (less names there)

theorem PlainNames.cut (plain : PlainNames items)
    (covered : List Name → Prop) : PlainNames (items.cut covered) := by
  refine plain.of_fewer fun names there => ?_
  unfold Forest.cut at there
  split at there
  · exact absurd rfl there
  · exact there

theorem PlainNames.put (plain : PlainNames items)
    (names : ∀ name ∈ path, Plain name.text) (found : Option Item) :
    PlainNames (items.put path found) := by
  intro other there
  by_cases same : other = path
  · rw [same]
    exact names
  · rw [Forest.put_of_ne same] at there
    exact plain other there

theorem PlainNames.fill (plain : PlainNames items)
    (names : ∀ name ∈ path, Plain name.text) :
    PlainNames (items.fill .dir path) := by
  intro other there
  by_cases above : other <+: path ∧ other ≠ path
  · exact fun name member => names name (above.1.subset member)
  · rw [Forest.fill_elsewhere above] at there
    exact plain other there

theorem PlainNames.graft (plain : PlainNames items)
    (names : ∀ name ∈ path, Plain name.text) (carries : List Name → Prop)
    (source : List Name) : PlainNames (items.graft carries source path) := by
  intro other there
  unfold Forest.graft at there
  split at there
  · next arrives =>
    obtain ⟨extra, -, rfl⟩ := arrives
    rw [List.drop_left] at there
    intro name member
    rcases List.mem_append.mp member with above | below
    · exact names name above
    · exact plain _ there name (List.mem_append_right source below)
  · split at there
    · exact absurd rfl there
    · exact plain other there

end Plainly

/-! ## The drawing -/

/-- The entries of a tree are a layout. -/
structure Drawn (desk : Desk) (layout : Layout) : Prop where
  canonical : desk.fs.Canonical
  wellFormed : desk.fs.WellFormed
  own : desk.Kept MemoryFs.Held
  labelled : MemoryFs.Labelled desk.fs.entries
  items : desk.fs.items = layout.items
  nextFile : desk.fs.nextFile = layout.nextFile
  plain : PlainNames layout.items

section Drawing

variable {desk : Desk} {layout : Layout} {path : Text}

open MemoryFs

theorem drawn_start {capacity : Nat} (word : capacity ≤ wordMax) :
    Drawn (Desk.start capacity) Layout.empty where
  canonical := nofun
  wellFormed := nofun
  own := Desk.kept_start word
  labelled := nofun
  items := rfl
  nextFile := rfl
  plain := fun _ there => absurd rfl there

/-- A path is its names. -/
theorem Drawn.known (drawn : Drawn desk layout)
    (lexical : MemoryFs.Lexical path) :
    layout.items (namesOf path) =
      (desk.fs.entries.lookup (normalizeKeyStr path)).map Node.item := by
  rw [← drawn.items, items_eq, normalizeKeyStr_eq_keyOf lexical.1]

/-- An operation of a client, with what it does to the entries. -/
theorem Drawn.step (drawn : Drawn desk layout) (op : DeskOp)
    {next : Layout} (canonical : (desk.step op).fs.Canonical)
    (wellFormed : (desk.step op).fs.WellFormed)
    (items : (desk.step op).fs.items = next.items)
    (nextFile : (desk.step op).fs.nextFile = next.nextFile)
    (plain : PlainNames next.items) : Drawn (desk.step op) next where
  canonical := canonical
  wellFormed := wellFormed
  own := Desk.step_kept accounts_held desk op drawn.own
  labelled := Desk.labelled_step desk op drawn.labelled
  items := items
  nextFile := nextFile
  plain := plain

/-- An operation that leaves the entries alone. -/
theorem Drawn.stays (drawn : Drawn desk layout) (op : DeskOp)
    (entries : (desk.step op).fs.entries = desk.fs.entries)
    (nextFile : (desk.step op).fs.nextFile = desk.fs.nextFile) :
    Drawn (desk.step op) layout :=
  drawn.step op (drawn.canonical.congr entries)
    ((wellFormed_congr entries).mpr drawn.wellFormed)
    ((items_congr entries).trans drawn.items)
    (nextFile.trans drawn.nextFile) drawn.plain

end Drawing

/-! ## Operations on contents -/

namespace DeskOp

/-- An operation on contents and cursors. -/
def Quiet : DeskOp → Prop
  | .setLen .. | .read .. | .seek .. | .write .. | .setHandleLen ..
  | .drop _ => True
  | _ => False

end DeskOp

namespace MemoryFs

/-- Neither the entries nor the number of the next file change. -/
def SameTree (before after : MemoryFs) : Prop :=
  after.entries = before.entries ∧ after.nextFile = before.nextFile

theorem sameTree_setFileLen (now : Time) (file len : Nat) (fs : MemoryFs) :
    SameTree fs (fs.setFileLen now file len).2 :=
  ⟨entries_setFileLen now file len fs, nextFile_setFileLen now file len fs⟩

theorem sameTree_setLen (now : Time) (path : Text) (len : Nat)
    (fs : MemoryFs) : SameTree fs (fs.setLen now path len).2 := by
  unfold setLen
  split
  · exact sameTree_setFileLen now _ len fs
  · exact ⟨rfl, rfl⟩
  · exact ⟨rfl, rfl⟩

theorem sameTree_writeHandle (now : Time) (file pos : Nat)
    (buf : List UInt8) (fs : MemoryFs) :
    SameTree fs (fs.writeHandle now file pos buf).2.2 := by
  refine ⟨entries_writeHandle now file pos buf fs, ?_⟩
  have same := nextFile_writeFile now file pos buf fs
  unfold writeHandle
  split
  · next wrote =>
    rw [wrote] at same
    exact same
  · next wrote =>
    rw [wrote] at same
    exact same

theorem sameTree_drop (stream : Stream) (fs : MemoryFs) :
    SameTree fs (stream.drop fs) := by
  cases stream with
  | source origin pos =>
      exact ⟨rfl, rfl⟩
  | memory file pos =>
      exact ⟨entries_dropFile file fs, nextFile_dropNode (.memFile file []) fs⟩

end MemoryFs

section Quiet

variable {desk : Desk} {layout : Layout}

open MemoryFs

theorem sameTree_onMemory (handle : Nat)
    (operate : Nat → Nat → MemoryFs → Stream × MemoryFs)
    (keeps : ∀ file pos, SameTree desk.fs (operate file pos desk.fs).2) :
    SameTree desk.fs (desk.onMemory handle operate).fs := by
  unfold Desk.onMemory
  split
  · exact keeps _ _
  · exact ⟨rfl, rfl⟩

theorem sameTree_step {op : DeskOp} (quiet : op.Quiet) :
    SameTree desk.fs (desk.step op).fs := by
  cases op with
  | insertFile | insertWritable | «open» | openWrite | createDir | remove
  | rename | removeSubtree =>
      exact quiet.elim
  | setLen now path len =>
      exact sameTree_setLen now path len desk.fs
  | read handle physical len =>
      simp only [Desk.step]
      split
      · exact ⟨rfl, rfl⟩
      · exact ⟨rfl, rfl⟩
  | seek handle target =>
      simp only [Desk.step]
      split
      · exact ⟨rfl, rfl⟩
      · exact ⟨rfl, rfl⟩
  | write now handle buf =>
      exact sameTree_onMemory handle _ fun file pos =>
        sameTree_writeHandle now file pos buf desk.fs
  | setHandleLen now handle len =>
      exact sameTree_onMemory handle _ fun file _ =>
        sameTree_setFileLen now file len desk.fs
  | drop handle =>
      simp only [Desk.step]
      split
      · exact ⟨rfl, rfl⟩
      · exact sameTree_drop _ desk.fs

theorem Drawn.quiet (drawn : Drawn desk layout) (op : DeskOp)
    (quiet : op.Quiet) : Drawn (desk.step op) layout :=
  drawn.stays op (sameTree_step quiet).1 (sameTree_step quiet).2

end Quiet

/-! ## One operation -/

section Operations

variable {desk : Desk} {layout : Layout} {path : Text}

open MemoryFs

theorem drawn_insertFile (drawn : Drawn desk layout)
    (lexical : MemoryFs.Lexical path)
    (safe : desk.fs.InsertOk (normalizeKeyStr path)) (source : SharedSource)
    (mtime : Option Time) :
    Drawn (desk.step (.insertFile path source mtime))
      (layout.plant (namesOf path) (.mounted source mtime)) := by
  refine drawn.step _ (canonical_planted lexical drawn.canonical _)
    ((wellFormed_insertFile_iff lexical drawn.canonical drawn.wellFormed
      source mtime).mpr safe) ?_ ?_ ?_
  · exact (items_planted lexical _ desk.fs).trans
      (congrArg (Forest.plant .dir (namesOf path) _) drawn.items)
  · exact (nextFile_place (normalizeKeyStr path)
      (.file source (finalComponent path) mtime) desk.fs).trans
        drawn.nextFile
  · have names := plain_of_lexical lexical
    exact (drawn.plain.put names _).fill names

theorem drawn_insertWritable (drawn : Drawn desk layout)
    (lexical : MemoryFs.Lexical path)
    (safe : desk.fs.InsertOk (normalizeKeyStr path)) (now : Time) :
    Drawn (desk.step (.insertWritable now path))
      (layout.plantFile (namesOf path)) := by
  have canonical : (desk.fs.newFile now).2.Canonical :=
    drawn.canonical.congr rfl
  refine drawn.step _ (canonical_planted lexical canonical _)
    ((wellFormed_insertWritable_iff lexical drawn.canonical drawn.wellFormed
      now).mpr safe) ?_ ?_ ?_
  · refine (items_planted lexical _ (desk.fs.newFile now).2).trans ?_
    have same : (desk.fs.newFile now).2.items = layout.items := drawn.items
    rw [same]
    exact congrArg (fun id => layout.items.plant .dir (namesOf path)
      (.file id)) drawn.nextFile
  · exact (nextFile_place (normalizeKeyStr path)
      (.memFile desk.fs.nextFile (finalComponent path))
        (desk.fs.newFile now).2).trans
      (congrArg (· + 1) drawn.nextFile)
  · have names := plain_of_lexical lexical
    exact (drawn.plain.put names _).fill names

theorem opened_eq (drawn : Drawn desk layout)
    (lexical : MemoryFs.Lexical path) (opts : OpenOptions) :
    (desk.fs.open path opts).1.map (·.map Stream.origin) =
      layout.opened (namesOf path) := by
  unfold Layout.opened
  rw [drawn.known lexical]
  unfold MemoryFs.open
  cases desk.fs.entries.lookup (normalizeKeyStr path) with
  | none =>
      rfl
  | some node =>
      cases node with
      | file source name mtime =>
          rfl
      | memFile file name =>
          rfl
      | dir name =>
          rfl

theorem drawn_open (drawn : Drawn desk layout) (path : Text)
    (opts : OpenOptions) : Drawn (desk.step (.open path opts)) layout := by
  have same : SameTree desk.fs (desk.fs.open path opts).2 := by
    unfold MemoryFs.open
    split
    · exact ⟨rfl, rfl⟩
    · exact ⟨rfl, rfl⟩
    · exact ⟨entries_cloneFile _ _, nextFile_cloneFile _ _⟩
    · exact ⟨rfl, rfl⟩
  have accepted : (desk.accept (desk.fs.open path opts)).fs =
      (desk.fs.open path opts).2 := by
    unfold Desk.accept
    split
    · rfl
    · rfl
  refine drawn.stays (.open path opts) ?_ ?_
  · exact (congrArg MemoryFs.entries accepted).trans same.1
  · exact (congrArg MemoryFs.nextFile accepted).trans same.2

end Operations

section Writing

variable {desk : Desk} {layout : Layout} {path : Text}

open MemoryFs

theorem openedWrite_eq (drawn : Drawn desk layout)
    (lexical : MemoryFs.Lexical path) (now : Time) (opts : OpenOptions) :
    (desk.fs.openWrite now path opts).1.map (·.map Stream.origin) =
      some (layout.openedWrite (namesOf path) opts).1 := by
  have within := drawn.own.here.within
  have known := drawn.known lexical
  unfold Layout.openedWrite
  rw [known, openWrite_eq]
  cases present : desk.fs.entries.lookup (normalizeKeyStr path) with
  | none =>
      rw [Option.map_none]
      by_cases creates : opts.creates = true
      · rw [openWriteAt_absent within present creates, if_pos creates,
          ← drawn.nextFile]
        rfl
      · unfold openWriteAt
        rw [present]
        simp only [creates, if_false, Bool.false_eq_true]
        rfl
  | some node =>
      cases node with
      | file source name mtime =>
          unfold openWriteAt
          rw [present]
          rfl
      | dir name =>
          unfold openWriteAt
          rw [present]
          rfl
      | memFile file name =>
          rw [Option.map_some]
          simp only [Node.item]
          by_cases exclusive : opts.createNew = true
          · unfold openWriteAt
            rw [present]
            simp only [exclusive, if_true]
            rfl
          · rw [openWriteAt_existing within present
              (Bool.eq_false_iff.mpr exclusive), if_neg exclusive]
            rfl

/-- A file that is made is planted. -/
theorem items_withNew (lexical : MemoryFs.Lexical path) {fs : MemoryFs}
    (absent : fs.entries.lookup (normalizeKeyStr path) = none)
    (now : Time) :
    (fs.withNew now (normalizeKeyStr path) (finalComponent path)
        (fillAncestors path)).items =
      fs.items.plant .dir (namesOf path) (.file fs.nextFile) := by
  have planted := items_planted lexical
    (.memFile fs.nextFile (finalComponent path))
    ((fs.newFile now).2.cloneFile (fs.newFile now).1)
  have same : ((fs.newFile now).2.cloneFile (fs.newFile now).1).items =
      fs.items :=
    items_congr (entries_cloneFile _ _)
  have created := created_eq absent now (finalComponent path)
  rw [same] at planted
  refine Eq.trans (items_congr ?_) planted
  have placed := congrArg
    (fun fs : MemoryFs => (insertAncestorDirs path fs).entries) created
  exact placed.symm

theorem drawn_openWrite (drawn : Drawn desk layout)
    (lexical : MemoryFs.Lexical path) (now : Time) (opts : OpenOptions)
    (safe : desk.fs.OpenWriteOk (normalizeKeyStr path) opts) :
    Drawn (desk.step (.openWrite now path opts))
      (layout.openedWrite (namesOf path) opts).2 := by
  have within := drawn.own.here.within
  have known := drawn.known lexical
  have accepted : (desk.step (.openWrite now path opts)).fs =
      (desk.fs.openWrite now path opts).2 := by
    change (desk.accept (desk.fs.openWrite now path opts)).fs = _
    unfold Desk.accept
    split
    · rfl
    · rfl
  have quiet (same : SameTree desk.fs (desk.fs.openWrite now path opts).2) :
      Drawn (desk.step (.openWrite now path opts)) layout :=
    drawn.stays (.openWrite now path opts)
      ((congrArg MemoryFs.entries accepted).trans same.1)
      ((congrArg MemoryFs.nextFile accepted).trans same.2)
  have canonical : (desk.step (.openWrite now path opts)).fs.Canonical := by
    rw [accepted]
    exact canonical_openWrite lexical drawn.canonical now opts
  have wellFormed : (desk.step (.openWrite now path opts)).fs.WellFormed := by
    rw [accepted]
    exact (wellFormed_openWrite_iff lexical drawn.canonical drawn.wellFormed
      now opts).mpr safe
  unfold Layout.openedWrite
  rw [known]
  rw [openWrite_eq] at accepted quiet
  cases present : desk.fs.entries.lookup (normalizeKeyStr path) with
  | none =>
      rw [Option.map_none]
      by_cases creates : opts.creates = true
      · rw [openWriteAt_absent within present creates] at accepted
        rw [if_pos creates]
        refine drawn.step _ canonical wellFormed ?_ ?_ ?_
        · rw [accepted, items_congr (entries_emptied now opts _ _),
            items_withNew lexical present, drawn.items, drawn.nextFile]
          rfl
        · rw [accepted, nextFile_emptied]
          exact congrArg (· + 1) drawn.nextFile
        · have names := plain_of_lexical lexical
          exact (drawn.plain.put names _).fill names
      · rw [if_neg creates]
        refine quiet ?_
        unfold openWriteAt
        rw [present]
        simp only [creates, if_false, Bool.false_eq_true]
        exact ⟨rfl, rfl⟩
  | some node =>
      cases node with
      | file source name mtime =>
          refine quiet ?_
          unfold openWriteAt
          rw [present]
          exact ⟨rfl, rfl⟩
      | dir name =>
          refine quiet ?_
          unfold openWriteAt
          rw [present]
          exact ⟨rfl, rfl⟩
      | memFile file name =>
          rw [Option.map_some]
          simp only [Node.item]
          by_cases exclusive : opts.createNew = true
          · rw [if_pos exclusive]
            refine quiet ?_
            unfold openWriteAt
            rw [present]
            simp only [exclusive, if_true]
            exact ⟨rfl, rfl⟩
          · rw [if_neg exclusive]
            refine quiet ?_
            rw [openWriteAt_existing within present
              (Bool.eq_false_iff.mpr exclusive)]
            refine ⟨?_, ?_⟩
            · rw [entries_emptied, entries_cloneFile]
            · rw [nextFile_emptied, nextFile_cloneFile]

end Writing

section Changing

variable {desk : Desk} {layout : Layout} {path : Text}

open MemoryFs

theorem createdDir_eq (drawn : Drawn desk layout)
    (lexical : MemoryFs.Lexical path) :
    (desk.fs.createDir path).1 =
      some (layout.createdDir (namesOf path)).1 := by
  unfold Layout.createdDir MemoryFs.createDir
  rw [drawn.known lexical]
  simp only
  cases desk.fs.entries.lookup (normalizeKeyStr path) with
  | none =>
      rfl
  | some node =>
      rfl

theorem drawn_createDir (drawn : Drawn desk layout)
    (lexical : MemoryFs.Lexical path)
    (safe : desk.fs.CreateOk (normalizeKeyStr path)) :
    Drawn (desk.step (.createDir path))
      (layout.createdDir (namesOf path)).2 := by
  have known := drawn.known lexical
  have canonical : (desk.step (.createDir path)).fs.Canonical :=
    canonical_createDir lexical drawn.canonical
  have wellFormed : (desk.step (.createDir path)).fs.WellFormed :=
    (wellFormed_createDir_iff lexical drawn.canonical
      drawn.wellFormed).mpr safe
  unfold Layout.createdDir
  rw [known]
  cases present : desk.fs.entries.lookup (normalizeKeyStr path) with
  | none =>
      have made : (desk.step (.createDir path)).fs =
          insertAncestorDirs path (desk.fs.place (normalizeKeyStr path)
            (.dir (finalComponent path))) := by
        simp only [Desk.step, MemoryFs.createDir, present]
        rfl
      refine drawn.step _ canonical wellFormed ?_ ?_ ?_
      · rw [made, items_planted lexical, drawn.items]
        rfl
      · exact (nextFile_createDir path desk.fs).trans drawn.nextFile
      · have names := plain_of_lexical lexical
        exact (drawn.plain.put names _).fill names
  | some node =>
      have same : (desk.step (.createDir path)).fs = desk.fs := by
        simp only [Desk.step, MemoryFs.createDir, present]
        rfl
      exact drawn.stays _ (congrArg MemoryFs.entries same)
        (congrArg MemoryFs.nextFile same)

/-- Whether a directory that is there has anything in it. -/
theorem Drawn.full_iff (drawn : Drawn desk layout) {names : List Name}
    (there : layout.items names ≠ none) :
    layout.Full names ↔ hasChild (keyOf names) desk.fs.entries = true := by
  rw [hasChild_keyOf_iff drawn.canonical, drawn.items]
  constructor
  · rintro (root | occupied)
    · exact Or.inr ⟨root, root ▸ there⟩
    · exact Or.inl occupied
  · rintro (occupied | ⟨root, -⟩)
    · exact Or.inr occupied
    · exact Or.inl root

theorem mayRemove_eq (drawn : Drawn desk layout)
    (lexical : MemoryFs.Lexical path) :
    (desk.fs.remove path).1 = some (layout.mayRemove (namesOf path)) := by
  have known := drawn.known lexical
  unfold Layout.mayRemove MemoryFs.remove
  rw [known]
  simp only
  cases present : desk.fs.entries.lookup (normalizeKeyStr path) with
  | none =>
      rfl
  | some node =>
      rw [present] at known
      have full : layout.Full (namesOf path) ↔
          hasChild (normalizeKeyStr path) desk.fs.entries = true := by
        rw [normalizeKeyStr_eq_keyOf lexical.1]
        refine drawn.full_iff ?_
        rw [known]
        exact Option.some_ne_none _
      cases node with
      | file source name mtime =>
          simp only [Option.map_some, Node.item, reduceCtorEq, false_and,
            if_false]
      | memFile file name =>
          simp only [Option.map_some, Node.item, reduceCtorEq, false_and,
            if_false]
      | dir name =>
          simp only [Option.map_some, Node.item]
          by_cases child :
              hasChild (normalizeKeyStr path) desk.fs.entries = true
          · rw [if_pos child, if_pos ⟨rfl, full.mpr child⟩]
          · rw [if_neg child, if_neg fun both => child (full.mp both.2)]

theorem drawn_remove (drawn : Drawn desk layout)
    (lexical : MemoryFs.Lexical path) :
    Drawn (desk.step (.remove path))
      (layout.removed (namesOf path)) := by
  have reply := mayRemove_eq drawn lexical
  have canonical := canonical_remove drawn.canonical path
  have wellFormed := wellFormed_remove drawn.wellFormed path
  have nextFile := (nextFile_remove path desk.fs).trans drawn.nextFile
  unfold Layout.removed
  cases outcome : layout.mayRemove (namesOf path) with
  | error error =>
      rw [outcome] at reply
      have same : (desk.fs.remove path).2.entries = desk.fs.entries :=
        congrArg MemoryFs.entries (remove_unchanged path reply)
      exact drawn.stays _ same (nextFile_remove path desk.fs)
  | ok done =>
      rw [outcome] at reply
      have taken : (desk.fs.remove path).2 =
          desk.fs.evict (normalizeKeyStr path) := by
        unfold MemoryFs.remove at reply ⊢
        revert reply
        simp only
        split
        · exact nofun
        · split
          · exact nofun
          · exact fun _ => rfl
        · exact fun _ => rfl
      refine drawn.step _ canonical wellFormed ?_ nextFile ?_
      · change (desk.fs.remove path).2.items = _
        rw [taken, normalizeKeyStr_eq_keyOf lexical.1, items_evict,
          drawn.items]
      · exact drawn.plain.put (plain_of_lexical lexical) none

end Changing

section Renaming

variable {desk : Desk} {layout : Layout} {source target : Text}

open MemoryFs

/-- What a rename does about its destination. -/
theorem mayReplace_eq (drawn : Drawn desk layout) (node : Node)
    (names : List Name) :
    (clearDestination node.isDir (keyOf names) desk.fs).map (fun _ => ()) =
      layout.mayReplace node.item names := by
  have known : layout.items names =
      (desk.fs.entries.lookup (keyOf names)).map Node.item := by
    rw [← drawn.items, items_eq]
  unfold clearDestination Layout.mayReplace
  rw [known]
  cases present : desk.fs.entries.lookup (keyOf names) with
  | none =>
      rfl
  | some replaced =>
      rw [present] at known
      have full : layout.Full names ↔
          hasChild (keyOf names) desk.fs.entries = true := by
        refine drawn.full_iff ?_
        rw [known]
        exact Option.some_ne_none _
      rw [Option.map_some]
      have isDir (node : Node) (yes : node.isDir = true) : node.item = .dir :=
        Node.item_eq_dir_iff.mpr yes
      have notDir (node : Node) (no : node.isDir = false) :
          node.item ≠ .dir := by
        rw [Ne, Node.item_eq_dir_iff, no]
        exact Bool.false_ne_true
      simp only
      cases moves : node.isDir with
      | false =>
          have moved := notDir node moves
          have notFull : ¬ (node.item = .dir ∧ layout.Full names) :=
            fun both => moved both.1
          have notInto : ¬ (node.item = .dir ∧ replaced.item ≠ .dir) :=
            fun both => moved both.1
          cases there : replaced.isDir with
          | false =>
              have notOver : ¬ (node.item ≠ .dir ∧ replaced.item = .dir) :=
                fun both => notDir replaced there both.2
              rw [if_neg notOver, if_neg notInto, if_neg notFull]
              rfl
          | true =>
              have onto : node.item ≠ .dir ∧ replaced.item = .dir :=
                ⟨moved, isDir replaced there⟩
              rw [if_pos onto]
              rfl
      | true =>
          have moved := isDir node moves
          have notOver : ¬ (node.item ≠ .dir ∧ replaced.item = .dir) :=
            fun both => both.1 moved
          rw [if_neg notOver]
          cases there : replaced.isDir with
          | false =>
              have into : node.item = .dir ∧ replaced.item ≠ .dir :=
                ⟨moved, notDir replaced there⟩
              rw [if_pos into]
              rfl
          | true =>
              have notInto : ¬ (node.item = .dir ∧ replaced.item ≠ .dir) :=
                fun both => both.2 (isDir replaced there)
              rw [if_neg notInto]
              by_cases child : hasChild (keyOf names) desk.fs.entries = true
              · have both : node.item = .dir ∧ layout.Full names :=
                  ⟨moved, full.mpr child⟩
                rw [if_pos child, if_pos both]
                rfl
              · have neither : ¬ (node.item = .dir ∧ layout.Full names) :=
                  fun both => child (full.mp both.2)
                rw [if_neg child, if_neg neither]
                rfl

/-- The test for a destination inside the source. -/
theorem isUnder_iff_covered {names other : List Name}
    (different : other ≠ names) :
    isUnder (keyOf names) (keyOf other) = true ↔ Covered names other := by
  unfold Covered
  rw [← covers_keyOf, covers, Bool.or_eq_true, decide_eq_true_eq, keyOf_inj]
  exact (or_iff_right different).symm

/-- A rename answers as the layout does, and changes nothing or moves. -/
theorem rename_drawn (drawn : Drawn desk layout)
    (lexicalSource : MemoryFs.Lexical source)
    (lexicalTarget : MemoryFs.Lexical target) (hash : HashOrder) :
    (desk.fs.rename hash source target).1 =
        some (layout.mayRename (namesOf source) (namesOf target)) ∧
      (((desk.fs.rename hash source target).2 = desk.fs ∧
          layout.renamed (namesOf source) (namesOf target) = layout) ∨
        ((desk.fs.rename hash source target).2.items =
            (desk.fs.items.graft (Carries (namesOf source)) (namesOf source)
              (namesOf target)).fill .dir (namesOf target) ∧
          layout.renamed (namesOf source) (namesOf target) =
            { layout with
              items := (layout.items.graft (Carries (namesOf source))
                (namesOf source) (namesOf target)).fill .dir
                  (namesOf target) })) := by
  have known := drawn.known lexicalSource
  rw [normalizeKeyStr_eq_keyOf lexicalSource.1] at known
  unfold MemoryFs.rename Layout.renamed Layout.mayRename
  rw [normalizeKeyStr_eq_keyOf lexicalSource.1,
    normalizeKeyStr_eq_keyOf lexicalTarget.1, known]
  simp only
  cases present : desk.fs.entries.lookup (keyOf (namesOf source)) with
  | none =>
      exact ⟨rfl, Or.inl ⟨rfl, rfl⟩⟩
  | some node =>
      rw [Option.map_some]
      simp only
      by_cases same : namesOf target = namesOf source
      · rw [if_pos (congrArg keyOf same), if_pos same]
        refine ⟨rfl, Or.inl ⟨rfl, ?_⟩⟩
        exact if_pos same
      · rw [if_neg fun equal => same (keyOf_injective equal), if_neg same]
        have inside : (node.item = .dir ∧
            Covered (namesOf source) (namesOf target)) ↔
              (node.isDir && isUnder (keyOf (namesOf source))
                (keyOf (namesOf target))) = true := by
          rw [Bool.and_eq_true, Node.item_eq_dir_iff,
            isUnder_iff_covered same]
        by_cases invalid : (node.isDir && isUnder (keyOf (namesOf source))
            (keyOf (namesOf target))) = true
        · rw [if_pos invalid, if_pos (inside.mpr invalid)]
          exact ⟨rfl, Or.inl ⟨rfl, rfl⟩⟩
        · rw [if_neg invalid, if_neg fun both => invalid (inside.mp both)]
          have replaces := mayReplace_eq drawn node (namesOf target)
          rw [← replaces]
          cases cleared : clearDestination node.isDir
              (keyOf (namesOf target)) desk.fs with
          | error error =>
              exact ⟨rfl, Or.inl ⟨rfl, rfl⟩⟩
          | ok next =>
              refine ⟨rfl, Or.inr ⟨?_, ?_⟩⟩
              · have moving : Moving desk.fs next (namesOf source)
                    (namesOf target) node :=
                  ⟨drawn.canonical, drawn.wellFormed, present, same,
                    fun both => invalid (Bool.and_eq_true _ _ ▸ both),
                    cleared⟩
                exact moving.items_moved hash lexicalTarget rfl _
              · exact if_neg same

theorem drawn_rename (drawn : Drawn desk layout)
    (lexicalSource : MemoryFs.Lexical source)
    (lexicalTarget : MemoryFs.Lexical target) (hash : HashOrder)
    (safe : desk.fs.RenameOk (normalizeKeyStr source)
      (normalizeKeyStr target)) :
    Drawn (desk.step (.rename hash source target))
      (layout.renamed (namesOf source) (namesOf target)) := by
  obtain ⟨-, outcome⟩ :=
    rename_drawn drawn lexicalSource lexicalTarget hash
  rcases outcome with ⟨same, stays⟩ | ⟨moved, moves⟩
  · rw [stays]
    exact drawn.stays _ (congrArg MemoryFs.entries same)
      (congrArg MemoryFs.nextFile same)
  · rw [moves]
    have names := plain_of_lexical lexicalTarget
    refine drawn.step _
      (canonical_rename hash lexicalSource lexicalTarget drawn.canonical
        drawn.wellFormed)
      ((wellFormed_rename_iff hash lexicalSource lexicalTarget
        drawn.canonical drawn.wellFormed).mpr safe) ?_
      ((nextFile_rename hash source target desk.fs).trans drawn.nextFile)
      ((drawn.plain.graft names _ _).fill names)
    refine Eq.trans moved ?_
    rw [drawn.items]

theorem drawn_removeSubtree (drawn : Drawn desk layout) {key : Text}
    (normal : key = keyOf (namesOf key))
    (safe : key = ['/'] → desk.fs.NothingBelow ['/']) :
    Drawn (desk.step (.removeSubtree key))
      (layout.afterwards (.change (.removeSubtree key))) := by
  have wellFormed := (wellFormed_removeSubtree_iff drawn.canonical
    drawn.wellFormed (namesOf key)).mpr (by
      by_cases root : namesOf key = []
      · right
        rw [root, keyOf_nil] at normal ⊢
        exact safe normal
      · exact Or.inl root)
  have items := items_removeSubtree drawn.canonical drawn.wellFormed
    (namesOf key)
  rw [← normal] at wellFormed items
  refine drawn.step _ (drawn.canonical.removeSubtree key) wellFormed ?_
    ((nextFile_removeSubtree key desk.fs).trans drawn.nextFile)
    ((drawn.plain.cut _).cut _)
  refine Eq.trans items ?_
  rw [drawn.items]
  rfl

end Renaming

section Looking

variable {desk : Desk} {layout : Layout} {path : Text}

open MemoryFs

theorem kind_nodeMetadata (node : Node) (fs : MemoryFs) :
    Metadata.kind (fs.nodeMetadata node) = node.item.kind := by
  cases node with
  | file source name mtime =>
      rfl
  | memFile file name =>
      rfl
  | dir name =>
      rfl

theorem metadata_eq (drawn : Drawn desk layout)
    (lexical : MemoryFs.Lexical path) :
    (desk.fs.metadata path).map (·.map Metadata.kind) =
      (layout.items (namesOf path)).map fun item => .ok item.kind := by
  rw [drawn.known lexical]
  unfold MemoryFs.metadata
  cases desk.fs.entries.lookup (normalizeKeyStr path) with
  | none =>
      rfl
  | some node =>
      refine congrArg (fun kind => some (Except.ok kind)) ?_
      exact kind_nodeMetadata node desk.fs

theorem lastName_keyOf {names : List Name} (notRoot : names ≠ [])
    (name : Name) : lastName (keyOf (names ++ [name])) = name.text := by
  rw [keyOf_append notRoot, List.map_cons, List.map_nil, body_cons, body_nil,
    List.append_nil]
  exact lastName_append name.free

/-- A node is shown under its last name. -/
theorem Drawn.nodeName_eq (drawn : Drawn desk layout) {names : List Name}
    (notRoot : names ≠ []) {name : Name} {node : Node}
    (present : desk.fs.entries.lookup (keyOf (names ++ [name])) =
      some node) : nodeName node = name.text := by
  have there : layout.items (names ++ [name]) ≠ none := by
    rw [← drawn.items, items_eq, present]
    exact Option.some_ne_none _
  have plain := drawn.plain _ there name
    (List.mem_append_right names List.mem_cons_self)
  have last := lastName_keyOf notRoot name
  have deep : '/' ∈ keyOf (names ++ [name]) := by
    rw [keyOf_append notRoot, List.map_cons, body_cons]
    exact List.mem_append_right _ List.mem_cons_self
  have tagged := (drawn.labelled _ node present deep).2
  rw [last] at tagged
  exact tagged plain

theorem shown_eq (drawn : Drawn desk layout)
    (lexical : MemoryFs.Lexical path) (notRoot : namesOf path ≠ [])
    {label : Text}
    (directory : desk.fs.entries.lookup (normalizeKeyStr path) =
      some (.dir label)) :
    (desk.fs.readDir path).map (·.map shown) =
      some (.ok (layout.listing (namesOf path))) := by
  rw [readDir_of_dir directory]
  refine congrArg (fun kinds => some (Except.ok kinds)) ?_
  ext one
  constructor
  · rintro ⟨entry, member, rfl⟩
    rw [List.mem_mergeSort, List.mem_map] at member
    obtain ⟨⟨key, node⟩, inside, rfl⟩ := member
    obtain ⟨inEntries, parent⟩ := List.mem_filter.mp inside
    have present : desk.fs.entries.lookup key = some node :=
      AList.mem_lookup_iff.mpr inEntries
    obtain ⟨names, rfl⟩ := drawn.canonical key node present
    have below := of_decide_eq_true parent
    rw [normalizeKeyStr_eq_keyOf lexical.1] at below
    rcases parentKey_keyOf_eq.mp below with ⟨name, rfl⟩ | ⟨-, root⟩
    · refine ⟨name, node.item, ?_, ?_⟩
      · rw [← drawn.items, items_eq, present]
        rfl
      · rw [← drawn.nodeName_eq notRoot present,
          ← kind_nodeMetadata node desk.fs]
    · exact absurd root notRoot
  · rintro ⟨name, item, there, rfl⟩
    rw [← drawn.items, items_eq, Option.map_eq_some_iff] at there
    obtain ⟨node, present, rfl⟩ := there
    refine ⟨⟨nodeName node, desk.fs.nodeMetadata node⟩, ?_, ?_⟩
    · rw [List.mem_mergeSort, List.mem_map]
      refine ⟨⟨keyOf (namesOf path ++ [name]), node⟩, ?_, rfl⟩
      refine List.mem_filter.mpr ⟨AList.mem_lookup_iff.mp present, ?_⟩
      rw [normalizeKeyStr_eq_keyOf lexical.1]
      exact decide_eq_true (parentKey_keyOf _ name)
    · rw [drawn.nodeName_eq notRoot present, kind_nodeMetadata]

theorem readDir_eq (drawn : Drawn desk layout)
    (lexical : MemoryFs.Lexical path) (notRoot : namesOf path ≠ []) :
    .listed ((desk.fs.readDir path).map (·.map shown)) =
      layout.reply (.readDir path) := by
  have known := drawn.known lexical
  unfold Layout.reply
  simp only
  cases present : desk.fs.entries.lookup (normalizeKeyStr path) with
  | none =>
      rw [known, present, if_neg nofun]
      unfold readDir
      simp only [present]
      rfl
  | some node =>
      cases node with
      | dir label =>
          have here : (some (Node.dir label)).map Node.item = some .dir := rfl
          rw [shown_eq drawn lexical notRoot present, known, present,
            if_pos here]
      | file source name mtime =>
          rw [known, present, if_neg nofun]
          unfold readDir
          simp only [present]
          rfl
      | memFile file name =>
          rw [known, present, if_neg nofun]
          unfold readDir
          simp only [present]
          rfl

end Looking

/-! ## Runs -/

section Runs

variable {desk : Desk} {layout : Layout}

/-- One operation is answered alike, and the tree stays drawn. -/
theorem drawn_answer (drawn : Drawn desk layout) (op : PathOp)
    (lexical : op.Lexical) (safe : op.Safe desk) :
    (desk.answer op).1 = (layout.answer op).1 ∧
      Drawn (desk.answer op).2 (layout.answer op).2 := by
  cases op with
  | metadata path =>
      exact ⟨congrArg PathAnswer.seen (metadata_eq drawn lexical), drawn⟩
  | readDir path =>
      exact ⟨readDir_eq drawn lexical.1 lexical.2, drawn⟩
  | change op =>
      cases op with
      | insertFile path source mtime =>
          exact ⟨congrArg PathAnswer.key (normalizeKeyStr_eq_keyOf lexical.1),
            drawn_insertFile drawn lexical safe source mtime⟩
      | insertWritable now path =>
          exact ⟨congrArg PathAnswer.key (normalizeKeyStr_eq_keyOf lexical.1),
            drawn_insertWritable drawn lexical safe now⟩
      | «open» path opts =>
          exact ⟨congrArg PathAnswer.opened (opened_eq drawn lexical opts),
            drawn_open drawn path opts⟩
      | openWrite now path opts =>
          exact ⟨congrArg PathAnswer.opened
              (openedWrite_eq drawn lexical now opts),
            drawn_openWrite drawn lexical now opts safe⟩
      | createDir path =>
          exact ⟨congrArg PathAnswer.done (createdDir_eq drawn lexical),
            drawn_createDir drawn lexical safe⟩
      | remove path =>
          exact ⟨congrArg PathAnswer.done (mayRemove_eq drawn lexical),
            drawn_remove drawn lexical⟩
      | rename hash source target =>
          exact ⟨congrArg PathAnswer.done
              (rename_drawn drawn lexical.1 lexical.2 hash).1,
            drawn_rename drawn lexical.1 lexical.2 hash safe⟩
      | removeSubtree key =>
          exact ⟨rfl, drawn_removeSubtree drawn lexical safe⟩
      | setLen now path len =>
          exact ⟨rfl, drawn.quiet (.setLen now path len) trivial⟩
      | read handle physical len =>
          exact ⟨rfl, drawn.quiet (.read handle physical len) trivial⟩
      | seek handle target =>
          exact ⟨rfl, drawn.quiet (.seek handle target) trivial⟩
      | write now handle buf =>
          exact ⟨rfl, drawn.quiet (.write now handle buf) trivial⟩
      | setHandleLen now handle len =>
          exact ⟨rfl, drawn.quiet (.setHandleLen now handle len) trivial⟩
      | drop handle =>
          exact ⟨rfl, drawn.quiet (.drop handle) trivial⟩

end Runs

end Hookfs.Memory
