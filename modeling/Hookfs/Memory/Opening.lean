import Hookfs.Memory.Failures
import Hookfs.Memory.Held

/-!
# Opening by key

What `open` and `open_write` make of a tree, with the key, the name and the
ancestors of the path as parameters, and what is left of an open whose stream
is dropped again.
-/

namespace Hookfs.Memory

open Hookfs.Lib Hookfs.Vfs

namespace MemoryFs

/-! ## The two opens -/

/-- `MemoryFs::open`, for the key of its path. -/
def openAt (key : Text) (fs : MemoryFs) :
    Option (Except IoError Stream) × MemoryFs :=
  match fs.entries.lookup key with
  | none => (none, fs)
  | some (.file source _ _) => (some (.ok (.source source 0)), fs)
  | some (.memFile file _) =>
      (some (.ok (.memory file 0)), fs.cloneFile file)
  | some (.dir _) => (some (.error isDirectory), fs)

/-- `MemoryFs::open_write`, for the key of its path, the name of a file that
is made and the filling in of its ancestors. -/
def openWriteAt (now : Time) (key name : Text)
    (fill : Store Text Node → Store Text Node) (opts : OpenOptions)
    (fs : MemoryFs) : Option (Except IoError Stream) × MemoryFs :=
  match fs.entries.lookup key with
  | some (.dir _) => (some (.error isDirectory), fs)
  | some (.file _ _ _) => (some (.error readOnly), fs)
  | some (.memFile file _) =>
      if opts.createNew then
        (some (.error (.custom .alreadyExists "file already exists")), fs)
      else finishOpenWrite now opts file (fs.cloneFile file)
  | none =>
      if opts.creates then
        let (file, next) := fs.newFile now
        let shared := next.cloneFile file
        let placed := shared.place key (.memFile file name)
        finishOpenWrite now opts file
          { placed with entries := fill placed.entries }
      else (some (.error (.simple .notFound)), fs)

/-- The part of `open_write` that holds the lock of the tree: the file is
found or made, and its `Arc` cloned. -/
def underLock (now : Time) (key name : Text)
    (fill : Store Text Node → Store Text Node) (opts : OpenOptions)
    (fs : MemoryFs) : Except IoError Nat × MemoryFs :=
  match fs.entries.lookup key with
  | some (.dir _) => (.error isDirectory, fs)
  | some (.file _ _ _) => (.error readOnly, fs)
  | some (.memFile file _) =>
      if opts.createNew then
        (.error (.custom .alreadyExists "file already exists"), fs)
      else (.ok file, fs.cloneFile file)
  | none =>
      if opts.creates then
        let (file, next) := fs.newFile now
        let shared := next.cloneFile file
        let placed := shared.place key (.memFile file name)
        (.ok file, { placed with entries := fill placed.entries })
      else (.error (.simple .notFound), fs)

/-- What is left of `open_write` once the lock is released. -/
def afterLock (now : Time) (opts : OpenOptions) :
    Except IoError Nat × MemoryFs →
      Option (Except IoError Stream) × MemoryFs
  | (.error error, fs) => (some (.error error), fs)
  | (.ok file, fs) => finishOpenWrite now opts file fs

theorem openWriteAt_eq_afterLock (now : Time) (key name : Text)
    (fill : Store Text Node → Store Text Node) (opts : OpenOptions)
    (fs : MemoryFs) :
    fs.openWriteAt now key name fill opts =
      afterLock now opts (fs.underLock now key name fill opts) := by
  unfold openWriteAt underLock
  split
  · rfl
  · rfl
  · split
    · rfl
    · rfl
  · split
    · rfl
    · rfl

/-- The ancestors of a path, filled in as `open_write` does. -/
def fillAncestors (path : Text) : Store Text Node → Store Text Node :=
  ancestorLoop (path.splitOn '/').length (Posix.parent path)

theorem open_eq (path : Text) (opts : OpenOptions) (fs : MemoryFs) :
    fs.open path opts = fs.openAt (Posix.normalizeKeyStr path) :=
  rfl

theorem openWrite_eq (now : Time) (path : Text) (opts : OpenOptions)
    (fs : MemoryFs) :
    fs.openWrite now path opts =
      fs.openWriteAt now (Posix.normalizeKeyStr path)
        (Posix.finalComponent path) (fillAncestors path) opts :=
  rfl

/-- Filling in directories leaves every entry where it is. -/
def Fills (fill : Store Text Node → Store Text Node) : Prop :=
  ∀ entries key node, entries.lookup key = some node →
    (fill entries).lookup key = some node

theorem fills_orInsert (dir : Text) (node : Node) :
    Fills (orInsert dir node) := by
  intro entries key other found
  rw [lookup_orInsert, found, Option.some_or]

theorem fills_fillAncestors (path : Text) : Fills (fillAncestors path) := by
  intro entries key node found
  unfold fillAncestors
  generalize (path.splitOn '/').length = rounds
  generalize Posix.parent path = dir
  induction rounds generalizing dir entries with
  | zero =>
      exact found
  | succ rounds inductionHypothesis =>
      cases dir with
      | none =>
          exact found
      | some dir =>
          have next := fills_orInsert (Posix.normalizeKeyStr dir)
            (.dir (Posix.finalComponent dir)) entries key node found
          unfold ancestorLoop
          split
          · exact found
          · simp only
            split
            · exact next
            · exact inductionHypothesis _ next _

/-! ## Content -/

/-- The bytes of a file, as long as it lives. -/
def fileData (file : Nat) (fs : MemoryFs) : Option (List UInt8) :=
  (fs.files.lookup file).map MemFile.data

/-- The same entries with the same nodes, the same bytes in every file, as
much charged to the volume. -/
structure SameContent (before after : MemoryFs) : Prop where
  entries : ∀ key, after.entries.lookup key = before.entries.lookup key
  bytes : ∀ file, after.fileData file = before.fileData file
  used : after.volume.used = before.volume.used

theorem SameContent.refl (fs : MemoryFs) : SameContent fs fs :=
  ⟨fun _ => rfl, fun _ => rfl, rfl⟩

theorem SameContent.trans {first second third : MemoryFs}
    (left : SameContent first second) (right : SameContent second third) :
    SameContent first third where
  entries key := (right.entries key).trans (left.entries key)
  bytes file := (right.bytes file).trans (left.bytes file)
  used := right.used.trans left.used

theorem SameContent.symm {first second : MemoryFs}
    (same : SameContent first second) : SameContent second first where
  entries key := (same.entries key).symm
  bytes file := (same.bytes file).symm
  used := same.used.symm

variable {fs : MemoryFs} {outside : Nat → Nat}

theorem fileLen_eq (file : Nat) (fs : MemoryFs) :
    fs.fileLen file = ((fs.fileData file).map List.length).getD 0 := by
  unfold fileLen fileData
  cases fs.files.lookup file with
  | none =>
      rfl
  | some content =>
      rfl

theorem SameContent.fileLen {first second : MemoryFs}
    (same : SameContent first second) (file : Nat) :
    second.fileLen file = first.fileLen file := by
  rw [fileLen_eq, fileLen_eq, same.bytes]

theorem fileData_insert {file : Nat} {content : MemFile}
    {files : Store Nat MemFile} {volume : Volume} (other : Nat) :
    fileData other { fs with
      files := files.insert file content
      volume := volume } =
      if other = file then some content.data
      else (files.lookup other).map MemFile.data := by
  unfold fileData
  split
  · rename_i same
    rw [same, AList.lookup_insert]
    rfl
  · rename_i different
    rw [AList.lookup_insert_ne different]

theorem sameContent_cloneFile (file : Nat) (fs : MemoryFs) :
    SameContent fs (fs.cloneFile file) where
  entries key := by rw [entries_cloneFile]
  bytes other := cloneFile_data file other fs
  used := by
    unfold cloneFile
    split
    · rfl
    · rfl

/-- Dropping one file leaves the bytes of the others. -/
theorem fileData_dropFile_ne {file other : Nat} (different : other ≠ file)
    (fs : MemoryFs) :
    (fs.dropFile file).fileData other = fs.fileData other := by
  unfold dropFile fileData
  split
  · rfl
  · split
    · rw [AList.lookup_erase_ne different]
    · rw [AList.lookup_insert_ne different]

theorem sameContent_dropFile {file : Nat} {content : MemFile}
    (present : fs.files.lookup file = some content)
    (shared : 1 < content.strong) :
    SameContent fs (fs.dropFile file) where
  entries key := by rw [entries_dropFile]
  bytes other := by
    unfold dropFile
    rw [present]
    simp only [if_neg (Nat.not_le.mpr shared)]
    rw [fileData_insert]
    split
    · rename_i same
      rw [same, fileData, present]
      rfl
    · rfl
  used := by
    unfold dropFile
    rw [present]
    simp only [if_neg (Nat.not_le.mpr shared)]

/-- An `Arc` that is taken in addition to those of the owners can be
returned. -/
theorem sameContent_return {file : Nat} (held : fs.Held (outside + one file))
    (owner : 0 < fs.treeHolds file) : SameContent fs (fs.dropFile file) := by
  have owned := held.owned file
  simp only [one, Pi.add_apply, if_true] at owned
  obtain ⟨content, present⟩ := held.inTree owner
  rw [strong_of_lookup present] at owned
  exact sameContent_dropFile present (by omega)

/-! ## Truncation -/

theorem resizeBytes_zero (data : List UInt8) : resizeBytes 0 data = [] := by
  unfold resizeBytes
  simp

theorem setLen_zero {content : MemFile} {volume : Volume}
    (within : volume.Within) (now : Time) :
    (content.setLen now 0 volume).2.1 =
      { content with data := [], mtime := some now } := by
  have resized : (volume.resize content.data.length 0).1 = .ok () :=
    resize_zero within.used
  unfold MemFile.setLen
  split
  · rename_i error kept failed
    rw [failed] at resized
    cases resized
  · rw [resizeBytes_zero]

theorem used_resize_same {volume : Volume} (within : volume.Within)
    (len : Nat) : (volume.resize len len).2.used = volume.used := by
  have used := within.used
  have word := within.word
  unfold Volume.resize
  rw [if_pos (Nat.le_refl len), Nat.sub_self]
  split
  · rfl
  · simp only [wrappingAdd, wordMax] at word ⊢
    omega

/-- What a truncation makes of the bytes of the files. -/
theorem fileData_truncate {file : Nat} {content : MemFile}
    (within : fs.volume.Within)
    (present : fs.files.lookup file = some content) (now : Time)
    (other : Nat) :
    (fs.setFileLen now file 0).2.fileData other =
      if other = file then some [] else fs.fileData other := by
  unfold setFileLen
  rw [present]
  simp only
  rw [fileData_insert, setLen_zero within]
  rfl

theorem used_truncate_empty {file : Nat} {content : MemFile}
    (within : fs.volume.Within)
    (present : fs.files.lookup file = some content)
    (empty : content.data.length = 0) (now : Time) :
    (fs.setFileLen now file 0).2.volume.used = fs.volume.used := by
  unfold setFileLen
  rw [present]
  simp only
  rw [volume_setLen, empty, used_resize_same within]

/-- Truncating a file shows exactly if there is something in it. -/
theorem sameContent_truncate_iff {file : Nat} {content : MemFile}
    (within : fs.volume.Within)
    (present : fs.files.lookup file = some content) (now : Time) :
    SameContent fs (fs.setFileLen now file 0).2 ↔
      ¬ 0 < fs.fileLen file := by
  have length : fs.fileLen file = content.data.length := by
    unfold fileLen
    rw [present]
  rw [length]
  constructor
  · intro same
    have bytes := same.bytes file
    rw [fileData_truncate within present, if_pos rfl, fileData, present,
      Option.map_some, Option.some.injEq] at bytes
    rw [← bytes]
    exact Nat.lt_irrefl 0
  · intro empty
    have nothing : content.data.length = 0 := by omega
    refine ⟨fun key => by rw [entries_setFileLen], fun other => ?_,
      used_truncate_empty within present nothing now⟩
    rw [fileData_truncate within present]
    split
    · rename_i same
      rw [same, fileData, present, Option.map_some,
        List.length_eq_zero_iff.mp nothing]
    · rfl

/-! ## What an open for writing does -/

/-- The tree once the file that an open has found or made is truncated, if
the open asks for it. -/
def emptied (now : Time) (opts : OpenOptions) (file : Nat) (fs : MemoryFs) :
    MemoryFs :=
  if opts.truncate then (fs.setFileLen now file 0).2 else fs

/-- Where the handle of an open starts. -/
def startAt (opts : OpenOptions) (file : Nat) (fs : MemoryFs) : Nat :=
  if opts.append then fs.fileLen file else 0

/-- The tree with a new, empty file that has one `Arc` outside of it. -/
def withNew (now : Time) (key name : Text)
    (fill : Store Text Node → Store Text Node) (fs : MemoryFs) : MemoryFs :=
  { fs with
    entries := fill (fs.entries.insert key (.memFile fs.nextFile name))
    files := fs.files.insert fs.nextFile ⟨[], some now, 2⟩
    nextFile := fs.nextFile + 1 }

theorem finishOpenWrite_eq (within : fs.volume.Within) (now : Time)
    (opts : OpenOptions) (file : Nat) :
    fs.finishOpenWrite now opts file =
      (some (.ok (.memory file
        (startAt opts file (fs.emptied now opts file)))),
        fs.emptied now opts file) := by
  unfold finishOpenWrite emptied
  cases opts.truncate with
  | false =>
      rfl
  | true =>
      simp only [if_true]
      rw [setFileLen_zero within.used]
      rfl

theorem place_of_absent {key : Text} (node : Node)
    (absent : fs.entries.lookup key = none) :
    fs.place key node =
      { fs with entries := fs.entries.insert key node } := by
  unfold place evict
  rw [absent]

/-- The new file is empty, and the tree's `Arc` is not the only one. -/
theorem emptied_withNew (within : fs.volume.Within) (now : Time)
    (key name : Text) (fill : Store Text Node → Store Text Node)
    (opts : OpenOptions) :
    ∃ content, ((fs.withNew now key name fill).emptied now opts
        fs.nextFile).files.lookup fs.nextFile = some content ∧
      content.data = [] ∧ 1 < content.strong := by
  have here : (fs.withNew now key name fill).volume.Within := within
  have made : (fs.withNew now key name fill).files.lookup fs.nextFile =
      some ⟨[], some now, 2⟩ := AList.lookup_insert _
  unfold emptied
  split
  · unfold setFileLen
    rw [made]
    simp only
    rw [AList.lookup_insert, setLen_zero here]
    exact ⟨_, rfl, rfl, Nat.one_lt_two⟩
  · exact ⟨_, made, rfl, Nat.one_lt_two⟩

/-- A file that is made and placed where nothing was. -/
theorem created_eq {key : Text} (absent : fs.entries.lookup key = none)
    (now : Time) (name : Text) :
    ((fs.newFile now).2.cloneFile (fs.newFile now).1).place key
        (.memFile (fs.newFile now).1 name) =
      fs.withNew now key name id := by
  have shared : (fs.newFile now).2.cloneFile (fs.newFile now).1 =
      { fs with
        files := fs.files.insert fs.nextFile ⟨[], some now, 2⟩
        nextFile := fs.nextFile + 1 } := by
    simp [newFile, cloneFile]
  have aside : ((fs.newFile now).2.cloneFile
      (fs.newFile now).1).entries.lookup key = none := by
    rw [shared]
    exact absent
  rw [place_of_absent _ aside, shared]
  rfl

theorem entries_dropStream (stream : Stream) (fs : MemoryFs) :
    (stream.drop fs).entries = fs.entries := by
  cases stream with
  | source origin pos =>
      rfl
  | memory file pos =>
      exact entries_dropFile file fs

theorem within_dropStream (within : fs.volume.Within) (stream : Stream) :
    (stream.drop fs).volume.Within := by
  cases stream with
  | source origin pos =>
      exact within
  | memory file pos =>
      change (fs.dropFile file).volume.Within
      unfold dropFile
      split
      · exact within
      · split
        · exact within.subUsed _
        · exact within

theorem within_emptied (within : fs.volume.Within) (now : Time)
    (opts : OpenOptions) (file : Nat) :
    (fs.emptied now opts file).volume.Within := by
  unfold emptied
  split
  · unfold setFileLen
    split
    · exact within
    · rename_i content present
      have resized := within.resize content.data.length 0
      rw [← volume_setLen now] at resized
      exact resized
  · exact within

section Open

variable {now : Time} {key name : Text}
  {fill : Store Text Node → Store Text Node} {opts : OpenOptions}

theorem underLock_absent (absent : fs.entries.lookup key = none)
    (creates : opts.creates = true) :
    fs.underLock now key name fill opts =
      (.ok fs.nextFile, fs.withNew now key name fill) := by
  unfold underLock
  rw [absent]
  simp only [creates, if_true]
  rw [created_eq absent]
  rfl

theorem openWriteAt_absent (within : fs.volume.Within)
    (absent : fs.entries.lookup key = none) (creates : opts.creates = true) :
    fs.openWriteAt now key name fill opts =
      (some (.ok (.memory fs.nextFile (startAt opts fs.nextFile
        ((fs.withNew now key name fill).emptied now opts fs.nextFile)))),
        (fs.withNew now key name fill).emptied now opts fs.nextFile) := by
  have here : (fs.withNew now key name fill).volume.Within := within
  rw [openWriteAt_eq_afterLock, underLock_absent absent creates]
  exact finishOpenWrite_eq here now opts fs.nextFile

theorem openWriteAt_existing {file : Nat} {old : Text}
    (within : fs.volume.Within)
    (found : fs.entries.lookup key = some (.memFile file old))
    (shares : opts.createNew = false) :
    fs.openWriteAt now key name fill opts =
      (some (.ok (.memory file
        (startAt opts file ((fs.cloneFile file).emptied now opts file)))),
        (fs.cloneFile file).emptied now opts file) := by
  have here : (fs.cloneFile file).volume.Within := by
    unfold cloneFile
    split
    · exact within
    · exact within
  unfold openWriteAt
  rw [found]
  simp only [shares, Bool.false_eq_true, if_false]
  exact finishOpenWrite_eq here now opts file

/-- The open makes a file, or empties one that is not empty. -/
def Alters (key : Text) (opts : OpenOptions) (fs : MemoryFs) : Prop :=
  match fs.entries.lookup key with
  | none => opts.creates = true
  | some (.memFile file _) =>
      opts.createNew = false ∧ opts.truncate = true ∧ 0 < fs.fileLen file
  | some _ => False

/-- What is left of an open when its stream, if there is one, is dropped. -/
def leftOver (opened : Option (Except IoError Stream) × MemoryFs) :
    MemoryFs :=
  match opened.1 with
  | some (.ok stream) => stream.drop opened.2
  | _ => opened.2

/-- An open for reading that is dropped again leaves nothing behind. -/
theorem sameContent_openAt (held : fs.Held outside) :
    SameContent fs (leftOver (fs.openAt key)) := by
  unfold openAt
  split
  · exact SameContent.refl fs
  · exact SameContent.refl fs
  · rename_i file old found
    have owner : 0 < fs.treeHolds file :=
      Desk.treeHolds_pos_iff.mpr ⟨key, old, found⟩
    obtain ⟨content, present⟩ := held.inTree owner
    have cloned := held.cloneFile present
    have owner' : 0 < (fs.cloneFile file).treeHolds file := by
      rw [treeHolds, entries_cloneFile]
      exact owner
    exact (sameContent_cloneFile file fs).trans
      (sameContent_return cloned owner')
  · exact SameContent.refl fs

theorem entries_emptied (now : Time) (opts : OpenOptions) (file : Nat)
    (fs : MemoryFs) : (fs.emptied now opts file).entries = fs.entries := by
  unfold emptied
  split
  · exact entries_setFileLen now file 0 fs
  · rfl

theorem Held.emptied (held : fs.Held outside) (now : Time)
    (opts : OpenOptions) (file : Nat) :
    (fs.emptied now opts file).Held outside := by
  unfold MemoryFs.emptied
  split
  · exact held.setFileLen now file 0
  · exact held

theorem sameContent_emptied_iff {file : Nat} {content : MemFile}
    (within : fs.volume.Within)
    (present : fs.files.lookup file = some content) :
    SameContent fs (fs.emptied now opts file) ↔
      ¬(opts.truncate = true ∧ 0 < fs.fileLen file) := by
  unfold emptied
  cases opts.truncate with
  | false =>
      simp only [Bool.false_eq_true, if_false, false_and, not_false_eq_true,
        iff_true]
      exact SameContent.refl fs
  | true =>
      simp only [if_true, true_and]
      exact sameContent_truncate_iff within present now

/-- An open that alters the tree succeeds. -/
theorem Alters.opens (within : fs.volume.Within)
    (alters : fs.Alters key opts) :
    ∃ stream, (fs.openWriteAt now key name fill opts).1 =
      some (.ok stream) := by
  unfold Alters at alters
  cases found : fs.entries.lookup key with
  | none =>
      rw [found] at alters
      rw [openWriteAt_absent within found alters]
      exact ⟨_, rfl⟩
  | some node =>
      rw [found] at alters
      cases node with
      | dir old =>
          exact alters.elim
      | file source old mtime =>
          exact alters.elim
      | memFile file old =>
          rw [openWriteAt_existing within found alters.1]
          exact ⟨_, rfl⟩

theorem leftOver_closed {opened : Option (Except IoError Stream) × MemoryFs}
    (closed : ∀ stream, opened.1 ≠ some (.ok stream)) :
    leftOver opened = opened.2 := by
  unfold leftOver
  split
  · rename_i stream result
    exact absurd result (closed stream)
  · rfl

theorem leftOver_opened {opened : Option (Except IoError Stream) × MemoryFs}
    {stream : Stream} (result : opened.1 = some (.ok stream)) :
    leftOver opened = stream.drop opened.2 := by
  unfold leftOver
  rw [result]

/-- An open for writing that finds a file and is dropped again. -/
theorem sameContent_existing_iff {file : Nat} {old : Text}
    (held : fs.Held outside)
    (found : fs.entries.lookup key = some (.memFile file old)) :
    SameContent fs
        (((fs.cloneFile file).emptied now opts file).dropFile file) ↔
      ¬(opts.truncate = true ∧ 0 < fs.fileLen file) := by
  have owner : 0 < fs.treeHolds file :=
    Desk.treeHolds_pos_iff.mpr ⟨key, old, found⟩
  obtain ⟨content, present⟩ := held.inTree owner
  have cloned := held.cloneFile present
  have same := sameContent_cloneFile file fs
  obtain ⟨more, shared⟩ := accounts_held.present cloned
  have owner' : 0 < ((fs.cloneFile file).emptied now opts file).treeHolds
      file := by
    rw [treeHolds, entries_emptied, entries_cloneFile]
    exact owner
  have returned := sameContent_return (cloned.emptied now opts file) owner'
  rw [← same.fileLen, ← sameContent_emptied_iff cloned.within shared]
  constructor
  · intro whole
    exact same.symm.trans (whole.trans returned.symm)
  · intro kept
    exact same.trans (kept.trans returned)

/-- An open for writing that is dropped again leaves nothing behind, unless
it alters the tree. -/
theorem sameContent_openWriteAt_iff (held : fs.Held outside)
    (fills : Fills fill) :
    SameContent fs (leftOver (fs.openWriteAt now key name fill opts)) ↔
      ¬ fs.Alters key opts := by
  have nothing : SameContent fs fs ↔ ¬ False :=
    iff_of_true (SameContent.refl fs) not_false
  unfold Alters
  cases found : fs.entries.lookup key with
  | none =>
      cases creates : opts.creates with
      | true =>
          rw [openWriteAt_absent held.within found creates]
          simp only [not_true_eq_false, iff_false]
          intro same
          have there := same.entries key
          simp only [leftOver, Stream.drop, entries_dropFile,
            entries_emptied] at there
          rw [withNew, found, fills _ key _ (AList.lookup_insert _)] at there
          cases there
      | false =>
          unfold openWriteAt
          rw [found]
          simp only [creates, Bool.false_eq_true, if_false]
          exact nothing
  | some node =>
      cases node with
      | dir old =>
          unfold openWriteAt
          rw [found]
          exact nothing
      | file source old mtime =>
          unfold openWriteAt
          rw [found]
          exact nothing
      | memFile file old =>
          cases shares : opts.createNew with
          | true =>
              unfold openWriteAt
              rw [found]
              simp only [shares, if_true, Bool.true_eq_false, false_and]
              exact nothing
          | false =>
              rw [openWriteAt_existing held.within found shares]
              simp only [true_and]
              exact sameContent_existing_iff held found

end Open

end MemoryFs

end Hookfs.Memory
