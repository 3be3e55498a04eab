import Hookfs.Memory.Listing
import Hookfs.Unix.Owners

/-!
# What identifies a file

`stat` asks the provider, `fstat` the open stream, and `readdir` the listing
that `opendir` took.  They agree on kind, size and inode number of an open
file; `fstat` knows no modification time, and `readdir` hashes the bare name.
-/

namespace Hookfs.Unix

open Hookfs.Lib Hookfs.Vfs Hookfs.Posix Hookfs.Router Hookfs.Memory

open MemoryFs (Stream)

/-! ## Reported identities -/

/-- What programs compare to tell files apart. -/
structure Identity where
  mode : Nat
  size : Nat
  ino : Nat
  mtime : Nat
  deriving DecidableEq

/-- The identity in a record of the stat family. -/
def Output.identity : Output → Option Identity
  | .stat record =>
      some ⟨record.mode, record.size, record.ino, record.mtime⟩
  | .statx record =>
      some ⟨record.mode, record.size, record.ino, record.mtime⟩
  | _ => none

/-- The entry in a record of `readdir`. -/
def Output.entry : Output → Option DirentRecord
  | .dirent record => some record
  | _ => none

/-- `IFTODT`: the `d_type` that belongs to a mode. -/
def direntType (mode : Nat) : Nat :=
  (mode &&& 0o170000) >>> 12

/-- `d_type`: `DT_DIR` or `DT_REG`. -/
def DirentRecord.type (record : DirentRecord) : Nat :=
  if record.isDir then 4 else 8

/-- What the stat family reports for metadata of a path. -/
def identify (hasher : Text → Nat) (path : Text) (report : Metadata) :
    Identity where
  mode := statMode report
  size := statSize report
  ino := stableIno hasher path
  mtime := statMtime report

theorem identity_statOutput (around : Surroundings) (sym : StatSym)
    {buf : Nat} (given : buf ≠ 0) (path : Text) (report : Metadata) :
    (statOutput around.machine sym buf path report).identity =
      some (identify around.hasher path report) := by
  unfold statOutput
  rw [if_neg given]
  cases sym with
  | statx _ _ _ =>
      rfl
  | _ =>
      rfl

theorem direntType_statMode (report : Metadata) :
    direntType (statMode report) = if report.isDir then 4 else 8 := by
  unfold statMode
  cases report.isDir with
  | true =>
      decide
  | false =>
      decide

theorem stableIno_congr {hasher : Text → Nat} {left right : Text}
    (same : normalizeKeyStr left = normalizeKeyStr right) :
    stableIno hasher left = stableIno hasher right := by
  unfold stableIno
  rw [same]

theorem stableIno_pos (hasher : Text → Nat) (path : Text) :
    0 < stableIno hasher path := by
  unfold stableIno
  split
  · exact Nat.one_pos
  · next zero =>
    exact Nat.pos_of_ne_zero zero

/-- The hasher gives two keys one number, 0 standing for 1. -/
def SameHash (hasher : Text → Nat) (left right : Text) : Prop :=
  hasher left = hasher right ∨ hasher left ≤ 1 ∧ hasher right ≤ 1

theorem stableIno_eq_iff (hasher : Text → Nat) (left right : Text) :
    stableIno hasher left = stableIno hasher right ↔
      SameHash hasher (normalizeKeyStr left) (normalizeKeyStr right) := by
  have known (path : Text) : stableIno hasher path =
      max (hasher (normalizeKeyStr path)) 1 := by
    unfold stableIno
    split
    · next zero =>
      rw [zero]
      rfl
    · next nonzero =>
      exact (Nat.max_eq_left (Nat.one_le_iff_ne_zero.mpr nonzero)).symm
  rw [known, known]
  unfold SameHash
  omega

/-! ## Open files -/

/-- A cursor on what a node holds. -/
def Names : Node → Stream → Prop
  | .file source _ _, .source origin _ => source = origin
  | .memFile file _, .memory held _ => file = held
  | _, _ => False

/-- The modification time that is kept for a node. -/
def recorded (fs : MemoryFs) : Node → Option Time
  | .file _ _ mtime => mtime
  | .memFile file _ => (fs.files.lookup file).bind (·.mtime)
  | .dir _ => none

/-- No time is kept, or none that a signed word of seconds shows as one after
the epoch. -/
def Undated (mtime : Option Time) : Prop :=
  ∀ time, mtime = some time → time ≤ 0 ∨ 2 ^ 63 ≤ time.toNat

theorem statMtime_eq_zero_iff (report : Metadata) :
    statMtime report = 0 ↔ Undated report.mtime := by
  have shown (time : Int) : (if 0 ≤ time ∧ time.toNat < 2 ^ 63 then
      time.toNat else 0) = 0 ↔ time ≤ 0 ∨ 2 ^ 63 ≤ time.toNat := by
    split
    · omega
    · omega
  unfold statMtime Undated
  cases report.mtime with
  | none =>
      exact iff_of_true rfl nofun
  | some time =>
      constructor
      · intro zero other same
        cases same
        exact (shown time).mp zero
      · intro undated
        exact (shown time).mpr (undated time rfl)

section Open

variable {fs : MemoryFs} {node : Node} {stream : Stream}

theorem Names.isDir_eq (names : Names node stream) :
    (fs.nodeMetadata node).isDir = false := by
  cases node with
  | file source name mtime =>
      rfl
  | memFile file name =>
      rfl
  | dir name =>
      exact names.elim

theorem Names.len_eq (names : Names node stream) :
    (fs.nodeMetadata node).len = stream.size fs := by
  cases node with
  | file source name mtime =>
      cases stream with
      | source origin pos =>
          cases names
          rfl
      | memory other pos =>
          exact names.elim
  | memFile file name =>
      cases stream with
      | source origin pos =>
          exact names.elim
      | memory other pos =>
          cases names
          rfl
  | dir name =>
      exact names.elim

theorem nodeMetadata_mtime (fs : MemoryFs) (node : Node) :
    (fs.nodeMetadata node).mtime = recorded fs node := by
  cases node with
  | file source name mtime =>
      rfl
  | memFile file name =>
      rfl
  | dir name =>
      rfl

/-- The stream tells what the provider tells of its node, the time aside. -/
theorem identify_open_iff (hasher : Text → Nat) {target path : Text}
    (same : normalizeKeyStr target = normalizeKeyStr path)
    (names : Names node stream) :
    identify hasher path (.file (stream.size fs)) =
        identify hasher target (fs.nodeMetadata node) ↔
      Undated (recorded fs node) := by
  have mode : statMode (.file (stream.size fs)) =
      statMode (fs.nodeMetadata node) := by
    unfold statMode
    rw [names.isDir_eq]
    rfl
  have size : statSize (.file (stream.size fs)) =
      statSize (fs.nodeMetadata node) := by
    unfold statSize
    rw [names.len_eq]
    rfl
  have unknown : statMtime (.file (stream.size fs)) = 0 := rfl
  rw [← nodeMetadata_mtime, ← statMtime_eq_zero_iff]
  unfold identify
  rw [Identity.mk.injEq, mode, size, stableIno_congr same, unknown]
  simp [eq_comm]

end Open

/-! ## What the shims report -/

section Reports

variable (around : Surroundings) {session : Session}
  {engine : Engine Stream}

def statReply (session : Session) (sym : StatSym) (path : CStr)
    (buf : Nat) : Reply :=
  (shim around.machine (.path (.stat sym path buf)) session).reply

def fstatReply (session : Session) (sym : FstatSym) (fd : Int)
    (buf : Nat) : Reply :=
  (shim around.machine (.fd (.fstat sym fd buf)) session).reply

def readdirReply (session : Session) (sym : ReaddirSym) (dirp : Nat) :
    Reply :=
  (shim around.machine (.dir (.readdir sym dirp)) session).reply

theorem identity_statReply (sym : StatSym) {path : CStr} {target : Text}
    {buf : Nat} (given : buf ≠ 0)
    (arrives : Arrives path session engine (.virtual target)) :
    (statReply around session sym path buf).out.identity =
      (session.vfs.entries.lookup (normalizeKeyStr target)).map fun node =>
        identify around.hasher target (session.vfs.nodeMetadata node) := by
  have asked : Arrives (PathCall.stat sym path buf).path session engine
      (.virtual target) := arrives
  have found : virtualMeta around.machine target session.vfs =
      ((session.vfs.entries.lookup (normalizeKeyStr target)).map
        session.vfs.nodeMetadata, session.vfs) := by
    simp only [virtualMeta, Surroundings.machine, MemoryFs.provider,
      MemoryFs.metadata]
    cases session.vfs.entries.lookup (normalizeKeyStr target) with
    | none =>
        rfl
    | some node =>
        rfl
  change (statPath around.machine sym path buf session).reply.out.identity = _
  unfold statPath
  rw [routed_virtual asked, found]
  cases session.vfs.entries.lookup (normalizeKeyStr target) with
  | none =>
      rfl
  | some node =>
      exact identity_statOutput around sym given target _

theorem identity_fstatReply (sym : FstatSym) {fd : Int} {buf : Nat}
    {file : OpenFile Stream} (given : buf ≠ 0)
    (outside : session.inHook = false)
    (active : session.engine = some engine)
    (registered : engine.registry.getFile (fdKey fd) = some file) :
    (fstatReply around session sym fd buf).out.identity =
      some (identify around.hasher file.path
        (.file (file.stream.inner.size session.vfs))) := by
  change (fstatFd around.machine sym fd buf session).reply.out.identity = _
  unfold fstatFd
  rw [withFile_hit outside active registered]
  change (if buf = 0 then Output.nothing else _).identity = _
  rw [if_neg given]
  rfl

theorem entry_readdirReply (sym : ReaddirSym) {dirp : Nat}
    {dir : VirtualDir} {entry : DirEntry} (outside : session.inHook = false)
    (active : session.engine = some engine)
    (listed : engine.registry.getDir dirp = some dir)
    (next : dir.entries[dir.next]? = some entry) :
    (readdirReply around session sym dirp).out.entry =
      some (fillDirent around.hasher entry dir.next) := by
  change (shimReaddir around.machine sym dirp session).reply.out.entry = _
  unfold shimReaddir withDir
  simp only [outside, active, listed, next]
  rfl

/-- `fstat` and `stat` fill in one identity. -/
def SameFile (session : Session) (fstatSym : FstatSym) (fd : Int)
    (fstatBuf : Nat) (sym : StatSym) (path : CStr) (buf : Nat) : Prop :=
  ∃ identity,
    (fstatReply around session fstatSym fd fstatBuf).out.identity =
        some identity ∧
      (statReply around session sym path buf).out.identity = some identity

/-- `readdir` returns an entry with the inode number and the type that `stat`
fills in. -/
def SameEntry (session : Session) (readdirSym : ReaddirSym) (dirp : Nat)
    (sym : StatSym) (path : CStr) (buf : Nat) : Prop :=
  ∃ record identity,
    (readdirReply around session readdirSym dirp).out.entry = some record ∧
      (statReply around session sym path buf).out.identity = some identity ∧
      record.ino = identity.ino ∧ record.type = direntType identity.mode

/-- The tree still has the entry of a listing of a directory, and its bare
name hashes as its path does. -/
def StillListed (session : Session) (directory : Text) (entry : DirEntry) :
    Prop :=
  ∃ node, session.vfs.entries.lookup
      (normalizeKeyStr (join directory entry.name)) = some node ∧
    node.isDir = entry.metadata.isDir ∧
    SameHash around.hasher (normalizeKeyStr entry.name)
      (normalizeKeyStr (join directory entry.name))

variable {around}

theorem sameFile_iff {fd : Int} {file : OpenFile Stream} {node : Node}
    {path : CStr} {target : Text} {fstatBuf buf : Nat}
    (registered : engine.registry.getFile (fdKey fd) = some file)
    (found : session.vfs.entries.lookup (normalizeKeyStr file.path) =
      some node)
    (names : Names node file.stream.inner)
    (arrives : Arrives path session engine (.virtual target))
    (same : normalizeKeyStr target = normalizeKeyStr file.path)
    (fstatSym : FstatSym) (sym : StatSym) (fstatGiven : fstatBuf ≠ 0)
    (given : buf ≠ 0) :
    SameFile around session fstatSym fd fstatBuf sym path buf ↔
      Undated (recorded session.vfs node) := by
  unfold SameFile
  rw [identity_fstatReply around fstatSym fstatGiven arrives.outside
      arrives.active registered,
    identity_statReply around sym given arrives, same, found, Option.map_some,
    ← identify_open_iff around.hasher same names]
  constructor
  · rintro ⟨identity, left, right⟩
    exact Option.some.inj (left.trans right.symm)
  · intro equal
    exact ⟨_, rfl, congrArg some equal.symm⟩

theorem isDir_nodeMetadata (fs : MemoryFs) (node : Node) :
    (fs.nodeMetadata node).isDir = node.isDir := by
  cases node with
  | file source name mtime =>
      rfl
  | memFile file name =>
      rfl
  | dir name =>
      rfl

theorem sameEntry_iff {dirp : Nat} {dir : VirtualDir} {entry : DirEntry}
    {directory : Text} {path : CStr} {target : Text} {buf : Nat}
    (listed : engine.registry.getDir dirp = some dir)
    (next : dir.entries[dir.next]? = some entry)
    (arrives : Arrives path session engine (.virtual target))
    (same : normalizeKeyStr target =
      normalizeKeyStr (join directory entry.name))
    (readdirSym : ReaddirSym) (sym : StatSym) (given : buf ≠ 0) :
    SameEntry around session readdirSym dirp sym path buf ↔
      StillListed around session directory entry := by
  unfold SameEntry StillListed
  rw [entry_readdirReply around readdirSym arrives.outside arrives.active
      listed next,
    identity_statReply around sym given arrives, same]
  have number : max (stableIno around.hasher entry.name) 1 =
      stableIno around.hasher entry.name :=
    Nat.max_eq_left (stableIno_pos _ _)
  have type (left right : Bool) : (if left then 4 else 8) =
      (if right then 4 else 8) ↔ left = right := by
    cases left <;> cases right <;> decide
  cases session.vfs.entries.lookup
      (normalizeKeyStr (join directory entry.name)) with
  | none =>
      constructor
      · rintro ⟨record, identity, -, absent, -⟩
        cases absent
      · rintro ⟨node, absent, -⟩
        cases absent
  | some node =>
      have agree : (fillDirent around.hasher entry dir.next).ino =
          stableIno around.hasher target ∧
          (fillDirent around.hasher entry dir.next).type =
            direntType (statMode (session.vfs.nodeMetadata node)) ↔
          node.isDir = entry.metadata.isDir ∧
            SameHash around.hasher (normalizeKeyStr entry.name)
              (normalizeKeyStr (join directory entry.name)) := by
        simp only [direntType_statMode, isDir_nodeMetadata, fillDirent,
          DirentRecord.type, number, stableIno_eq_iff, same, type]
        rw [and_comm, eq_comm]
      constructor
      · rintro ⟨record, identity, entered, identified, equal⟩
        cases entered
        cases identified
        exact ⟨node, rfl, agree.mp equal⟩
      · rintro ⟨other, found, still⟩
        cases found
        exact ⟨_, _, rfl, rfl, agree.mpr still⟩

end Reports

/-- `fstat` agrees with `stat` exactly on files without a modification time to
show, and `readdir` with `stat` exactly when the entry is still there and the
hasher cannot tell its name from its path. -/
theorem reports_agree_iff (around : Surroundings) (session : Session)
    (engine : Engine Stream) (path : CStr) (target : Text)
    (arrives : Arrives path session engine (.virtual target))
    (sym : StatSym) (buf : Nat) (given : buf ≠ 0) :
    (∀ (fd : Int) (file : OpenFile Stream) (node : Node)
      (fstatSym : FstatSym) (fstatBuf : Nat), fstatBuf ≠ 0 →
        engine.registry.getFile (fdKey fd) = some file →
        session.vfs.entries.lookup (normalizeKeyStr file.path) = some node →
        Names node file.stream.inner →
        normalizeKeyStr target = normalizeKeyStr file.path →
        (SameFile around session fstatSym fd fstatBuf sym path buf ↔
          Undated (recorded session.vfs node))) ∧
    ∀ (dirp : Nat) (dir : VirtualDir) (entry : DirEntry) (directory : Text)
      (readdirSym : ReaddirSym),
        engine.registry.getDir dirp = some dir →
        dir.entries[dir.next]? = some entry →
        normalizeKeyStr target =
          normalizeKeyStr (join directory entry.name) →
        (SameEntry around session readdirSym dirp sym path buf ↔
          StillListed around session directory entry) := by
  constructor
  · intro fd file node fstatSym fstatBuf fstatGiven registered found names same
    exact sameFile_iff registered found names arrives same fstatSym sym
      fstatGiven given
  · intro dirp dir entry directory readdirSym listed next same
    exact sameEntry_iff listed next arrives same readdirSym sym given

/-! ## A file and its directory, opened -/

/-- `opendir` keeps the listing. -/
theorem opendir_process {around : Surroundings} {session : Session}
    {engine : Engine Stream} {path : CStr} {target : Text}
    {entries : List DirEntry}
    (arrives : Arrives path session engine (.virtual target))
    (listed : session.vfs.readDir target = some (.ok entries)) :
    (shim around.machine (.path (.opendir path)) session).process =
      session.withEngine { engine with
        registry := engine.registry.putDir (fdKey (around.os .newDir).ret)
          ⟨entries, 0⟩ } := by
  have asked : Arrives (PathCall.opendir path).path session engine
      (.virtual target) := arrives
  change (shimOpendir around.machine path session).process = _
  unfold shimOpendir
  rw [routed_virtual asked]
  simp only [Surroundings.machine, MemoryFs.provider, listed]
  rfl

/-- A tree with `/v/a`, last modified at a time. -/
def datedSession (time : Time) : Session where
  vfs := ((MemoryFs.withCapacity 64).insertWritable time "/v/a".toList).2
  engine := some (.new (.fromRoot "/v".toList) true)
  cookies := ∅
  inHook := false

/-- `/v/a`. -/
def datedPath : CStr := some [47, 118, 47, 97]

/-- Every call of libc answers seven. -/
def sevens (hasher : Text → Nat) : Surroundings :=
  { idle with hasher := hasher }

/-- Open `/v/a`, then `/v`. -/
def openBoth (hasher : Text → Nat) : List Event :=
  [.call (sevens hasher) (.path (.open .open datedPath 0 0)),
    .call (sevens hasher) (.path (.opendir (some [47, 118])))]

def fileEngine : Engine Stream :=
  { (Engine.new (.fromRoot "/v".toList) true : Engine Stream) with
    registry := Registry.new.putFile 7
      ⟨.read (.memory 0 0), "/v/a".toList, false⟩ }

/-- `/v/a` is open. -/
def fileOpen (time : Time) : Session :=
  ((datedSession time).withVfs
    ((datedSession time).vfs.cloneFile 0)).withEngine fileEngine

def listing (time : Time) : List DirEntry :=
  [⟨"a".toList, ⟨0, false, false, some time⟩⟩]

def bothEngine (time : Time) : Engine Stream :=
  { fileEngine with
    registry := fileEngine.registry.putDir 7 ⟨listing time, 0⟩ }

def bothOpen (time : Time) : Session :=
  (fileOpen time).withEngine (bothEngine time)

theorem readDir_fileOpen (time : Time) :
    (fileOpen time).vfs.readDir "/v".toList =
      some (.ok (listing time)) := by
  have directory : (fileOpen time).vfs.entries.lookup
      (normalizeKeyStr "/v".toList) = some (.dir "v".toList) := rfl
  rw [MemoryFs.readDir_of_dir directory]
  have children : ((fileOpen time).vfs.entries.entries.filter fun entry =>
      parentKey entry.1 = some (normalizeKeyStr "/v".toList)).map
        (fun entry =>
          ({ name := MemoryFs.nodeName entry.2
             metadata := (fileOpen time).vfs.nodeMetadata entry.2 } :
            DirEntry)) = listing time := rfl
  rw [children, listing, List.mergeSort_singleton]

theorem bothOpen_reached (hasher : Text → Nat) (time : Time) :
    run Session.step (datedSession time) (openBoth hasher) =
      bothOpen time := by
  have opened : (shim (sevens hasher).machine
      (.path (.open .open datedPath 0 0)) (datedSession time)).process =
        fileOpen time := rfl
  have arrives : Arrives (some [47, 118]) (fileOpen time) fileEngine
      (.virtual "/v".toList) := ⟨rfl, rfl, by decide⟩
  change (shim (sevens hasher).machine (.path (.opendir (some [47, 118])))
    (shim (sevens hasher).machine (.path (.open .open datedPath 0 0))
      (datedSession time)).process).process = _
  rw [opened, opendir_process arrives (readDir_fileOpen time)]
  rfl

theorem bothOpen_arrives (time : Time) :
    Arrives datedPath (bothOpen time) (bothEngine time)
      (.virtual "/v/a".toList) :=
  ⟨rfl, rfl, rfl⟩

/-- With no time to show and one hash for all names, the reports agree. -/
theorem reports_agree_iff_undated :
    SameFile (sevens fun _ => 3)
        (run Session.step (datedSession 0) (openBoth fun _ => 3))
        .fstat 7 1 .stat datedPath 1 ∧
      SameEntry (sevens fun _ => 3)
        (run Session.step (datedSession 0) (openBoth fun _ => 3))
        .readdir 7 .stat datedPath 1 := by
  rw [bothOpen_reached]
  have agrees := reports_agree_iff (sevens fun _ => 3) (bothOpen 0)
    (bothEngine 0) datedPath "/v/a".toList (bothOpen_arrives 0) .stat 1
    (by decide)
  constructor
  · refine (agrees.1 7 _ (.memFile 0 "a".toList) .fstat 1 (by decide) rfl rfl
      rfl rfl).mpr ?_
    intro time shown
    cases shown
    exact .inl le_rfl
  · refine (agrees.2 7 _ _ "/v".toList .readdir rfl rfl rfl).mpr ?_
    exact ⟨.memFile 0 "a".toList, rfl, rfl, .inl rfl⟩

/-- A file modified at 5: `stat` says so, `fstat` says 0; its inode number is
the hash of `/v/a` for `stat`, and of `a` for `readdir`. -/
theorem fstat_and_readdir_disagree :
    ¬ SameFile (sevens List.length)
        (run Session.step (datedSession 5) (openBoth List.length))
        .fstat 7 1 .stat datedPath 1 ∧
      ¬ SameEntry (sevens List.length)
        (run Session.step (datedSession 5) (openBoth List.length))
        .readdir 7 .stat datedPath 1 := by
  rw [bothOpen_reached]
  have identified : (statReply (sevens List.length) (bothOpen 5) .stat
      datedPath 1).out.identity = some ⟨0o100444, 0, 4, 5⟩ := by
    decide
  constructor
  · rintro ⟨identity, opened, named⟩
    have streamed : (fstatReply (sevens List.length) (bothOpen 5) .fstat 7
        1).out.identity = some ⟨0o100444, 0, 4, 0⟩ := by
      decide
    rw [streamed] at opened
    rw [identified] at named
    cases opened
    cases named
  · rintro ⟨record, identity, listed, named, number, -⟩
    rw [identified] at named
    have first : (readdirReply (sevens List.length) (bothOpen 5) .readdir
        7).out.entry = some ⟨1, 1, 280, false, [97]⟩ := by
      decide
    rw [first] at listed
    cases listed
    cases named
    cases number

end Hookfs.Unix
