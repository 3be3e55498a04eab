import Hookfs.Memory.Exact
import Hookfs.Unix.Frames

/-!
# Reading changes nothing

A session whose engine does not allow writes never changes the tree, the
bytes of a file or the volume; and a descriptor or `FILE*` without write
access never changes the bytes of a file, whatever the engine allows.

What such sessions do to the tree is to take and to return `Arc`s.  Taking is
harmless; returning one is as long as the tree keeps another, which is what
the invariants say.
-/

namespace Hookfs.Unix

open Hookfs.Lib Hookfs.Vfs Hookfs.Posix Hookfs.Router Hookfs.Memory

open MemoryFs (Stream)

/-! ## Trees that are only read -/

/-- The bytes and the time of a file, as long as it lives. -/
def contents (fs : MemoryFs) (file : Nat) :
    Option (List UInt8 × Option Time) :=
  (fs.files.lookup file).map fun content => (content.data, content.mtime)

/-- Against `base`: the same entries, every `Arc` of the tree and of
`outside` counted, and no file with other bytes. -/
structure Tended (base fs : MemoryFs) (outside : Nat → Nat) : Prop where
  entries : fs.entries = base.entries
  owned : ∀ file, fs.treeHolds file + outside file ≤ fs.strong file
  bytes : ∀ file, contents fs file = none ∨
    contents fs file = contents base file

/-- Besides, every file held outside is in the tree as well, so none is ever
the last to go. -/
structure Steady (base fs : MemoryFs) (outside : Nat → Nat) : Prop
    extends Tended base fs outside where
  inTree : ∀ file, 0 < outside file → 0 < fs.treeHolds file
  whole : ∀ file, contents fs file = contents base file
  volume : fs.volume = base.volume

section Counts

variable {base fs : MemoryFs} {outside : Nat → Nat} {id : Nat}

/-- Only the count of one file differs. -/
def recount (id : Nat) (content : MemFile) (count : Nat) (fs : MemoryFs) :
    MemoryFs :=
  { fs with files := fs.files.insert id { content with strong := count } }

theorem strong_recount {content : MemFile} {count : Nat} (file : Nat) :
    (recount id content count fs).strong file =
      if file = id then count else fs.strong file := by
  unfold recount MemoryFs.strong
  by_cases same : file = id
  · subst same
    simp
  · simp only [AList.lookup_insert_ne same, same, if_false]

theorem contents_recount {content : MemFile} {count : Nat}
    (present : fs.files.lookup id = some content) (file : Nat) :
    contents (recount id content count fs) file = contents fs file := by
  unfold recount contents
  by_cases same : file = id
  · subst same
    simp [present]
  · simp only [AList.lookup_insert_ne same]

theorem present_of_held (owned : fs.treeHolds id + outside id ≤ fs.strong id)
    (held : 0 < fs.treeHolds id + outside id) :
    ∃ content, fs.files.lookup id = some content ∧
      fs.strong id = content.strong := by
  cases present : fs.files.lookup id with
  | none =>
      have gone : fs.strong id = 0 := by
        simp [MemoryFs.strong, present]
      omega
  | some content =>
      exact ⟨content, rfl, MemoryFs.strong_of_lookup present⟩

theorem cloneFile_eq {content : MemFile}
    (present : fs.files.lookup id = some content) :
    fs.cloneFile id = recount id content (content.strong + 1) fs := by
  unfold MemoryFs.cloneFile
  rw [present]
  rfl

theorem dropFile_eq {content : MemFile}
    (present : fs.files.lookup id = some content)
    (shared : 1 < content.strong) :
    fs.dropFile id = recount id content (content.strong - 1) fs := by
  unfold MemoryFs.dropFile
  rw [present]
  simp only [if_neg (Nat.not_le.mpr shared)]
  rfl

theorem Tended.recount {content : MemFile} {count : Nat}
    {others : Nat → Nat} (tended : Tended base fs outside)
    (present : fs.files.lookup id = some content)
    (here : fs.treeHolds id + others id ≤ count)
    (elsewhere : ∀ file, file ≠ id → others file ≤ outside file) :
    Tended base (recount id content count fs) others where
  entries := tended.entries
  owned file := by
    change fs.treeHolds file + _ ≤ _
    rw [strong_recount]
    by_cases same : file = id
    · subst same
      rw [if_pos rfl]
      exact here
    · rw [if_neg same]
      have before := tended.owned file
      have fewer := elsewhere file same
      omega
  bytes file := by
    rw [contents_recount present]
    exact tended.bytes file

theorem Steady.recount {content : MemFile} {count : Nat}
    {others : Nat → Nat} (steady : Steady base fs outside)
    (present : fs.files.lookup id = some content)
    (here : fs.treeHolds id + others id ≤ count)
    (elsewhere : ∀ file, file ≠ id → others file ≤ outside file)
    (inTree : 0 < fs.treeHolds id) :
    Steady base (recount id content count fs) others where
  toTended := steady.toTended.recount present here elsewhere
  inTree file held := by
    change 0 < fs.treeHolds file
    by_cases same : file = id
    · subst same
      exact inTree
    · have before := elsewhere file same
      exact steady.inTree file (by omega)
  whole file := by
    rw [contents_recount present]
    exact steady.whole file
  volume := steady.volume

theorem one_self (id : Nat) : one id id = 1 := by
  simp [one]

theorem one_ne {file : Nat} (different : file ≠ id) : one id file = 0 := by
  simp [one, different]

/-- Taking an `Arc` from the tree. -/
theorem Steady.cloneFile (steady : Steady base fs outside)
    (inTree : 0 < fs.treeHolds id) :
    Steady base (fs.cloneFile id) (outside + one id) := by
  have owned := steady.owned id
  obtain ⟨content, present, count⟩ := present_of_held owned (by omega)
  rw [cloneFile_eq present]
  refine steady.recount present ?_ ?_ inTree
  · rw [Pi.add_apply, one_self]
    omega
  · intro file different
    rw [Pi.add_apply, one_ne different]
    omega

/-- Returning one of several `Arc`s. -/
theorem Steady.dropFile (steady : Steady base fs (outside + one id)) :
    Steady base (fs.dropFile id) outside := by
  have owned := steady.owned id
  have inTree := steady.inTree id (by
    rw [Pi.add_apply, one_self]
    omega)
  rw [Pi.add_apply, one_self] at owned
  obtain ⟨content, present, count⟩ :=
    present_of_held (steady.owned id) (by omega)
  rw [dropFile_eq present (by omega)]
  refine steady.recount present ?_ ?_ inTree
  · omega
  · intro file different
    rw [Pi.add_apply]
    omega

/-- Returning the last `Arc` takes the file with it. -/
theorem Tended.eraseFile {volume : Volume} (tended : Tended base fs outside)
    (unheld : fs.treeHolds id = 0) (others : Nat → Nat)
    (here : others id = 0)
    (elsewhere : ∀ file, file ≠ id → others file ≤ outside file) :
    Tended base { fs with files := fs.files.erase id, volume := volume }
      others where
  entries := tended.entries
  owned file := by
    change fs.treeHolds file + _ ≤ _
    by_cases same : file = id
    · subst same
      omega
    · have before := tended.owned file
      have fewer := elsewhere file same
      unfold MemoryFs.strong at before ⊢
      rw [AList.lookup_erase_ne same]
      omega
  bytes file := by
    unfold contents
    by_cases same : file = id
    · subst same
      rw [AList.lookup_erase]
      exact .inl rfl
    · rw [AList.lookup_erase_ne same]
      exact tended.bytes file

theorem Tended.dropFile (tended : Tended base fs (outside + one id)) :
    Tended base (fs.dropFile id) outside := by
  have owned := tended.owned id
  have more : ∀ file, file ≠ id → outside file ≤ (outside + one id) file := by
    intro file _
    rw [Pi.add_apply]
    omega
  rw [Pi.add_apply, one_self] at owned
  obtain ⟨content, present, count⟩ :=
    present_of_held (tended.owned id) (by
      rw [Pi.add_apply, one_self]
      omega)
  by_cases shared : 1 < content.strong
  · rw [dropFile_eq present shared]
    exact tended.recount present (by omega) more
  · unfold MemoryFs.dropFile
    rw [present]
    simp only [if_pos (Nat.not_lt.mp shared)]
    exact tended.eraseFile (by omega) outside (by omega) more

theorem Steady.dropStream {stream : Stream}
    (steady : Steady base fs (outside + stream.holds)) :
    Steady base (stream.drop fs) outside := by
  cases stream with
  | source origin pos =>
      rw [MemoryFs.Stream.holds, add_zero] at steady
      exact steady
  | memory file pos =>
      exact steady.dropFile

theorem Tended.dropStream {stream : Stream}
    (tended : Tended base fs (outside + stream.holds)) :
    Tended base (stream.drop fs) outside := by
  cases stream with
  | source origin pos =>
      rw [MemoryFs.Stream.holds, add_zero] at tended
      exact tended
  | memory file pos =>
      exact tended.dropFile

theorem Steady.mono {others : Nat → Nat} (steady : Steady base fs outside)
    (fewer : ∀ file, others file ≤ outside file) :
    Steady base fs others where
  entries := steady.entries
  owned file := by
    have before := steady.owned file
    have less := fewer file
    omega
  bytes := steady.bytes
  inTree file held := steady.inTree file (Nat.lt_of_lt_of_le held (fewer file))
  whole := steady.whole
  volume := steady.volume

/-- Opening for reading takes an `Arc` of the tree's. -/
theorem Steady.open (steady : Steady base fs outside) (path : Text)
    (opts : OpenOptions) :
    Steady base (fs.open path opts).2
      (outside + MemoryFs.openedHolds (fs.open path opts).1) := by
  unfold MemoryFs.open
  split
  · rwa [MemoryFs.openedHolds, add_zero]
  · rwa [MemoryFs.openedHolds, MemoryFs.Stream.holds, add_zero]
  · next file name entry =>
    exact steady.cloneFile (Desk.treeHolds_pos_iff.mpr ⟨_, name, entry⟩)
  · rwa [MemoryFs.openedHolds, add_zero]

end Counts

/-! ## Sessions -/

/-- A predicate on trees and held `Arc`s that survives dropping a stream
survives the calls that only read. -/
theorem keptByReading_of_drop {kept : MemoryFs → (Nat → Nat) → Prop}
    (drop : ∀ {fs outside} {stream : Stream},
      kept fs (outside + stream.holds) → kept (stream.drop fs) outside) :
    KeptByReading fun session => kept session.vfs session.holds where
  moved here active hit same := by
    rw [holds_keepStream _ active hit same]
    exact here
  closed {session engine fd file} here active hit := by
    rw [holds_closedFd (file.stream.inner.drop session.vfs) active hit]
      at here
    exact drop here
  cookieMoved here hit same := by
    rw [holds_keepCookie _ hit same]
    exact here
  cookieClosed {session cookie state} here hit := by
    rw [holds_closedCookie (state.stream.inner.drop session.vfs) hit] at here
    exact drop here

/-- A new descriptor; a stream that was there is dropped. -/
theorem kept_insertFile {kept : MemoryFs → (Nat → Nat) → Prop}
    (drop : ∀ {fs outside} {stream : Stream},
      kept fs (outside + stream.holds) → kept (stream.drop fs) outside)
    (around : Surroundings) (fd : Int) {session : Session}
    {engine : Engine Stream} {file : OpenFile Stream} {fs : MemoryFs}
    (active : session.engine = some engine)
    (held : kept fs (session.holds + file.stream.inner.holds)) :
    kept
      (insertFile around.machine fd engine file (session.withVfs fs)).vfs
      (Session.holds
        (insertFile around.machine fd engine file (session.withVfs fs))) := by
  have after : Session.holds ((session.withVfs fs).withEngine { engine with
      registry := engine.registry.putFile (fdKey fd) file }) =
        file.stream.inner.holds +
          Session.registryHolds (engine.registry.removeFile (fdKey fd)) +
          session.cookieHolds := by
    rw [← registryHolds_putFile]
    rfl
  rw [holds_of_active active] at held
  unfold insertFile
  simp only
  cases hit : engine.registry.getFile (fdKey fd) with
  | none =>
      have absent : Session.registryHolds
          (engine.registry.removeFile (fdKey fd)) =
            Session.registryHolds engine.registry :=
        Store.total_erase_of_none _ hit
      simp only
      rw [after, absent, add_assoc, add_comm]
      exact held
  | some old =>
      rw [registryHolds_of_hit hit] at held
      apply drop
      change kept fs (Session.holds ((session.withVfs fs).withEngine _) + _)
      rw [after]
      convert held using 1
      abel

/-- A new cookie; one that was there is forgotten, and leaks its `Arc`. -/
theorem holds_insertCookie_le (session : Session) (cookie : Nat)
    (state : CookieState Stream) (fs : MemoryFs) (file : Nat) :
    Session.holds { session.withVfs fs with
        cookies := session.cookies.insert cookie state } file ≤
      (session.holds + state.stream.inner.holds) file := by
  have fewer := cookieHolds_insert session cookie state file
  change session.engineHolds file + Session.cookieHolds { session with
        cookies := session.cookies.insert cookie state } file ≤
    session.engineHolds file + session.cookieHolds file + _
  omega

theorem getFile_putFile {registry : Registry Stream} {handle other : Nat}
    {file found : OpenFile Stream}
    (hit : (registry.putFile handle file).getFile other = some found) :
    other = handle ∧ found = file ∨ registry.getFile other = some found := by
  unfold Registry.getFile Registry.putFile at *
  by_cases same : other = handle
  · subst same
    rw [AList.lookup_insert] at hit
    cases hit
    exact .inl ⟨rfl, rfl⟩
  · rw [AList.lookup_insert_ne same] at hit
    exact .inr hit

theorem getFile_removeFile {registry : Registry Stream} {handle other : Nat}
    {found : OpenFile Stream}
    (hit : (registry.removeFile handle).getFile other = some found) :
    registry.getFile other = some found := by
  unfold Registry.getFile Registry.removeFile at *
  by_cases same : other = handle
  · subst same
    rw [AList.lookup_erase] at hit
    cases hit
  · rw [AList.lookup_erase_ne same] at hit
    exact hit

/-- Reading never gives a handle write access. -/
theorem keptByReading_lockedHandle (handle : Nat) :
    KeptByReading (LockedHandle handle) where
  moved {session engine fd file stream} locked active hit _ := by
    intro next found same put
    cases same
    rcases getFile_putFile put with ⟨equal, rfl⟩ | old
    · rw [← equal] at hit
      exact locked engine file active hit
    · exact locked engine found active old
  closed {session engine fd file} locked active _ := by
    intro next found same left
    cases same
    exact locked engine found active (getFile_removeFile left)
  cookieMoved locked _ _ := locked
  cookieClosed locked _ := locked

theorem keptByReading_lockedCookie (cookie : Nat) :
    KeptByReading (LockedCookie cookie) where
  moved locked _ _ _ := locked
  closed locked _ _ := locked
  cookieMoved {session other state stream} locked hit _ := by
    intro found put
    unfold keepCookie at put
    by_cases same : cookie = other
    · subst same
      rw [AList.lookup_insert] at put
      cases put
      exact locked state hit
    · rw [AList.lookup_insert_ne same] at put
      exact locked found put
  cookieClosed {session other state} locked _ := by
    intro found left
    unfold closedCookie at left
    by_cases same : cookie = other
    · subst same
      rw [AList.lookup_erase] at left
      cases left
    · rw [AList.lookup_erase_ne same] at left
      exact locked found left

/-- The active engine does not allow writes. -/
def DeniesWrites (session : Session) : Prop :=
  ∀ engine, session.engine = some engine → engine.allowWrites = false

theorem keptByReading_deniesWrites : KeptByReading DeniesWrites where
  moved {session engine _ _ _} denies active _ _ := by
    intro next same
    cases same
    exact denies engine active
  closed {session engine _ _} denies active _ := by
    intro next same
    cases same
    exact denies engine active
  cookieMoved denies _ _ := denies
  cookieClosed denies _ := denies

/-- A session without write access over a tree that is as it was. -/
structure ReadOnly (base : MemoryFs) (session : Session) : Prop where
  steady : Steady base session.vfs session.holds
  denies : DeniesWrites session
  handles : ∀ handle, LockedHandle handle session
  cookies : ∀ cookie, LockedCookie cookie session

theorem keptByReading_readOnly (base : MemoryFs) :
    KeptByReading (ReadOnly base) := by
  have steady : KeptByReading fun session =>
      Steady base session.vfs session.holds :=
    keptByReading_of_drop Steady.dropStream
  have denies := keptByReading_deniesWrites
  have handles := keptByReading_lockedHandle
  have cookies := keptByReading_lockedCookie
  exact
    { moved := fun here active hit same =>
        ⟨steady.moved here.steady active hit same,
          denies.moved here.denies active hit same,
          fun handle => (handles handle).moved (here.handles handle) active
            hit same,
          here.cookies⟩
      closed := fun here active hit =>
        ⟨steady.closed here.steady active hit,
          denies.closed here.denies active hit,
          fun handle => (handles handle).closed (here.handles handle) active
            hit,
          here.cookies⟩
      cookieMoved := fun here hit same =>
        ⟨steady.cookieMoved here.steady hit same, here.denies, here.handles,
          fun cookie => (cookies cookie).cookieMoved (here.cookies cookie)
            hit same⟩
      cookieClosed := fun here hit =>
        ⟨steady.cookieClosed here.steady hit, here.denies, here.handles,
          fun cookie => (cookies cookie).cookieClosed (here.cookies cookie)
            hit⟩ }

/-- Some descriptors and cookies without write access, over a tree whose
files keep their bytes. -/
structure OnlyRead (base : MemoryFs) (fds : Set Int) (cookies : Set Nat)
    (session : Session) : Prop where
  tended : Tended base session.vfs session.holds
  handles : ∀ fd ∈ fds, LockedHandle (fdKey fd) session
  cookies : ∀ cookie ∈ cookies, LockedCookie cookie session

theorem keptByReading_onlyRead (base : MemoryFs) (fds : Set Int)
    (cookies : Set Nat) : KeptByReading (OnlyRead base fds cookies) := by
  have tended : KeptByReading fun session =>
      Tended base session.vfs session.holds :=
    keptByReading_of_drop Tended.dropStream
  have handles := keptByReading_lockedHandle
  have states := keptByReading_lockedCookie
  exact
    { moved := fun here active hit same =>
        ⟨tended.moved here.tended active hit same,
          fun fd member => (handles _).moved (here.handles fd member) active
            hit same,
          here.cookies⟩
      closed := fun here active hit =>
        ⟨tended.closed here.tended active hit,
          fun fd member => (handles _).closed (here.handles fd member) active
            hit,
          here.cookies⟩
      cookieMoved := fun here hit same =>
        ⟨tended.cookieMoved here.tended hit same, here.handles,
          fun cookie member => (states cookie).cookieMoved
            (here.cookies cookie member) hit same⟩
      cookieClosed := fun here hit =>
        ⟨tended.cookieClosed here.tended hit, here.handles,
          fun cookie member => (states cookie).cookieClosed
            (here.cookies cookie member) hit⟩ }

/-! ## Path calls of a locked session -/

section PathCalls

variable {base : MemoryFs} {session : Session} {engine : Engine Stream}

/-- The tree and the counts may differ as far as steadiness allows. -/
theorem ReadOnly.withVfs (here : ReadOnly base session) {fs : MemoryFs}
    (steady : Steady base fs session.holds) :
    ReadOnly base (session.withVfs fs) :=
  ⟨steady, here.denies, here.handles, here.cookies⟩

/-- The working directory and the open directories do not matter. -/
theorem ReadOnly.withEngine (here : ReadOnly base session)
    (active : session.engine = some engine) {next : Engine Stream}
    (files : next.registry.files = engine.registry.files)
    (writes : next.allowWrites = engine.allowWrites) :
    ReadOnly base (session.withEngine next) := by
  have same : Session.holds (session.withEngine next) = session.holds := by
    rw [holds_of_active active]
    unfold Session.registryHolds
    rw [← files]
    rfl
  constructor
  case steady =>
    rw [same]
    exact here.steady
  case denies =>
    intro other equal
    cases equal
    exact writes.trans (here.denies engine active)
  case handles =>
    intro handle other file equal hit
    cases equal
    unfold Registry.getFile at hit
    rw [files] at hit
    exact here.handles handle engine file active hit
  case cookies =>
    exact here.cookies

variable (around : Surroundings)

/-- A new descriptor; one that was there is closed. -/
theorem readOnly_insertFile {fd : Int} {file : OpenFile Stream}
    {fs : MemoryFs} (here : ReadOnly base session)
    (active : session.engine = some engine)
    (steady : Steady base fs (session.holds + file.stream.inner.holds))
    (unwritable : file.writable = false) :
    ReadOnly base
      (insertFile around.machine fd engine file (session.withVfs fs)) := by
  have denies : DeniesWrites ((session.withVfs fs).withEngine { engine with
      registry := engine.registry.putFile (fdKey fd) file }) := by
    intro next equal
    cases equal
    exact here.denies engine active
  have handles : ∀ handle, LockedHandle handle ((session.withVfs fs).withEngine
      { engine with
        registry := engine.registry.putFile (fdKey fd) file }) := by
    intro handle next found equal put
    cases equal
    rcases getFile_putFile put with ⟨_, rfl⟩ | old
    · exact unwritable
    · exact here.handles handle engine found active old
  have kept := kept_insertFile Steady.dropStream around fd active steady
  unfold insertFile at kept ⊢
  simp only at kept ⊢
  cases hit : engine.registry.getFile (fdKey fd) with
  | none =>
      rw [hit] at kept
      exact ⟨kept, denies, handles, here.cookies⟩
  | some old =>
      rw [hit] at kept
      exact ⟨kept, denies, handles, here.cookies⟩

/-- The `Arc`s of a stream that was opened. -/
def streamHolds : Option (Except IoError (OpenStream Stream)) → Nat → Nat
  | some (.ok stream) => stream.inner.holds
  | some (.error _) => 0
  | none => 0

theorem steady_openStream {fs : MemoryFs} {outside : Nat → Nat}
    (steady : Steady base fs outside) (path : Text) (opts : OpenOptions)
    (reads : opts.write = false) :
    Steady base (openStream around.machine path opts fs).2
      (outside + streamHolds (openStream around.machine path opts fs).1) := by
  have opened := steady.open path opts
  simp only [openStream, reads]
  change Steady base (fs.open path opts).2 (outside +
    streamHolds ((fs.open path opts).1.map (·.map .read)))
  cases result : (fs.open path opts).1 with
  | none =>
      rw [result] at opened
      exact opened
  | some outcome =>
      rw [result] at opened
      cases outcome with
      | error error =>
          exact opened
      | ok stream =>
          exact opened

theorem readOnly_openVirtualFd (here : ReadOnly base session)
    (active : session.engine = some engine) (flags : Flags) (path : Text) :
    ReadOnly base
      (openVirtualFd around.machine flags engine path session).process := by
  have denies := here.denies engine active
  unfold openVirtualFd
  rw [denies, Bool.not_false, Bool.and_true]
  cases wants : wantsWrite flags with
  | true =>
      exact here
  | false =>
      have steady := steady_openStream around here.steady path
        (openOptions flags) wants
      simp only [Bool.false_eq_true, if_false]
      split
      · next missing =>
        rw [missing, streamHolds, add_zero] at steady
        exact here.withVfs steady
      · next error failed =>
        rw [failed, streamHolds, add_zero] at steady
        exact here.withVfs steady
      · next stream opened =>
        rw [opened, streamHolds] at steady
        split
        · exact here.withVfs steady.dropStream
        · exact readOnly_insertFile around here active steady rfl

/-- A new cookie; one that was there is forgotten. -/
theorem readOnly_insertCookie {cookie : Nat} {state : CookieState Stream}
    {fs : MemoryFs} (here : ReadOnly base session)
    (steady : Steady base fs (session.holds + state.stream.inner.holds))
    (unwritable : state.writable = false) :
    ReadOnly base { session.withVfs fs with
      cookies := session.cookies.insert cookie state } := by
  constructor
  case steady =>
    exact steady.mono (holds_insertCookie_le session cookie state fs)
  case denies =>
    exact here.denies
  case handles =>
    exact here.handles
  case cookies =>
    intro other found hit
    by_cases same : other = cookie
    · subst same
      rw [AList.lookup_insert] at hit
      cases hit
      exact unwritable
    · rw [AList.lookup_insert_ne same] at hit
      exact here.cookies other found hit

theorem readOnly_fopenVirtual (here : ReadOnly base session)
    (active : session.engine = some engine) (mode : CStr) (path : Text) :
    ReadOnly base
      (fopenVirtual around.machine mode engine path session).process := by
  have denies := here.denies engine active
  unfold fopenVirtual
  split
  · exact here
  · next decoded _ =>
    split
    · exact here
    · next opts _ =>
      rw [denies, Bool.not_false, Bool.and_true]
      cases wants : opts.write with
      | true =>
          exact here
      | false =>
          have steady := steady_openStream around here.steady path opts
            wants
          simp only [Bool.false_eq_true, if_false]
          split
          · next missing =>
            rw [missing, streamHolds, add_zero] at steady
            exact here.withVfs steady
          · next error failed =>
            rw [failed, streamHolds, add_zero] at steady
            exact here.withVfs steady
          · next stream opened =>
            rw [opened, streamHolds] at steady
            split
            · exact here.withVfs steady.dropStream
            · exact readOnly_insertCookie here steady rfl

theorem readOnly_mutatePath (here : ReadOnly base session)
    (call : PathCall)
    (operate : Text → MemoryFs → Option (Except IoError Unit) × MemoryFs) :
    ReadOnly base (mutatePath around.machine call operate session).process := by
  refine routed_keeps here rfl fun engine path active => ?_
  have denies := here.denies engine active
  rw [denies]
  exact here

theorem keptByLooking_readOnly (base : MemoryFs) :
    KeptByLooking (ReadOnly base) :=
  fun here active files writes => here.withEngine active files writes

theorem readOnly_shimPath (here : ReadOnly base session) (call : PathCall) :
    ReadOnly base (shimPath around.machine call session).process := by
  apply shimPath_frame around (keptByLooking_readOnly base) here
  intro changes
  cases call with
  | «open» sym path flags mode =>
      exact routed_keeps here rfl fun engine path active =>
        readOnly_openVirtualFd around here active flags path
  | openat dirfd path flags mode =>
      exact routed_keeps here rfl fun engine path active =>
        readOnly_openVirtualFd around here active flags path
  | fopen sym path mode =>
      exact routed_keeps here rfl fun engine path active =>
        readOnly_fopenVirtual around here active mode path
  | truncate path length =>
      rw [shimPath, shimTruncate]
      exact readOnly_mutatePath around here _ _
  | mkdir path mode =>
      exact readOnly_mutatePath around here _ _
  | remove path =>
      exact readOnly_mutatePath around here _ _
  | unlink path =>
      exact readOnly_mutatePath around here _ _
  | _ =>
      exact changes.elim

theorem readOnly_renameVirtual (here : ReadOnly base session)
    (target : CStr) (active : session.engine = some engine) (path : Text) :
    ReadOnly base
      (renameVirtual around.machine target engine path session).process := by
  have denies := here.denies engine active
  simp only [renameVirtual, denies]
  exact here

/-- Every call and every callback keeps a read-only session. -/
theorem readOnly_step (session : Session) (event : Event)
    (here : ReadOnly base session) : ReadOnly base (session.step event) := by
  cases event with
  | call around call =>
      cases call with
      | path call =>
          exact readOnly_shimPath around here call
      | two call =>
          exact shimTwo_frame around here call fun target engine path active =>
            readOnly_renameVirtual around here target active path
      | fd call =>
          exact shimFd_keeps (keptByReading_readOnly base) around here
            fun fd _ => here.handles (fdKey fd)
      | dir call =>
          exact shimDir_frame around (keptByLooking_readOnly base) here call
  | cookie around call =>
      exact cookieCall_keeps (keptByReading_readOnly base) around here
        (here.cookies call.file)

end PathCalls

/-! ## Whole sessions -/

/-- A tree whose entries are counted among the owners of their files. -/
structure OwnedTree where
  fs : MemoryFs
  owned : ∀ file, fs.treeHolds file ≤ fs.strong file

/-- A session whose tree, descriptors and cookies are counted. -/
structure OwnedSession where
  session : Session
  owned : ∀ file, session.vfs.treeHolds file + session.holds file ≤
    session.vfs.strong file

/-- Every tree that operations build, whoever holds handles on it. -/
def OwnedTree.ofDesk (capacity : Nat) (small : capacity < 2 ^ 63)
    (ops : List DeskOp) : OwnedTree where
  fs := (run Desk.step (Desk.start capacity) ops).fs
  owned file := by
    have balanced : (run Desk.step (Desk.start capacity) ops).Balanced
        capacity :=
      run_of_allowed _ (fun desk op kept _ => Desk.step_balanced desk op kept)
        (fun _ _ => trivial) (Desk.balanced_start small)
    have balance := congrFun balanced.counted.balance file
    rw [Pi.add_apply] at balance
    omega

/-- A fresh engine over a tree. -/
def install (tree : OwnedTree) (nspace : Namespace) (allowWrites : Bool)
    (inHook : Bool) : OwnedSession where
  session :=
    { vfs := tree.fs
      engine := some (.new nspace allowWrites)
      cookies := ∅
      inHook := inHook }
  owned := tree.owned

/-- The entries with their nodes, the bytes of every file and the volume are
those of `base`. -/
structure Unchanged (base : MemoryFs) (session : Session) : Prop where
  entries : session.vfs.entries = base.entries
  bytes : ∀ file, contents session.vfs file = contents base file
  used : session.vfs.volume.used = base.volume.used

/-- The entries are those of `base`, no file has other bytes than in `base`,
and every file that the tree or the session refers to is still there. -/
structure KeepsBytes (base : MemoryFs) (session : Session) : Prop where
  entries : session.vfs.entries = base.entries
  bytes : ∀ file, contents session.vfs file = none ∨
    contents session.vfs file = contents base file
  referred : ∀ file,
    0 < session.vfs.treeHolds file + session.holds file →
      ∃ content, contents session.vfs file = some content ∧
        contents base file = some content

/-- An event on one of the given descriptors or cookies. -/
def Event.On (fds : Set Int) (cookies : Set Nat) : Event → Prop
  | .call _ (.fd asked) => ∀ fd ∈ asked.fds, fd ∈ fds
  | .call _ (.path _) => False
  | .call _ (.two _) => False
  | .call _ (.dir _) => False
  | .cookie _ asked => asked.file ∈ cookies

theorem readOnly_install (tree : OwnedTree) (nspace : Namespace)
    (inHook : Bool) :
    ReadOnly tree.fs (install tree nspace false inHook).session where
  steady :=
    { entries := rfl
      owned := (install tree nspace false inHook).owned
      bytes := fun _ => .inr rfl
      inTree := fun _ held => absurd held (Nat.lt_irrefl 0)
      whole := fun _ => rfl
      volume := rfl }
  denies engine active := by
    cases active
    rfl
  handles handle engine file active hit := by
    cases active
    simp [Engine.new, Registry.new, Registry.getFile] at hit
  cookies cookie state hit := by
    simp [install] at hit

theorem ReadOnly.unchanged {base : MemoryFs} {session : Session}
    (readOnly : ReadOnly base session) : Unchanged base session where
  entries := readOnly.steady.entries
  bytes := readOnly.steady.whole
  used := congrArg Volume.used readOnly.steady.volume

theorem Tended.keepsBytes {base : MemoryFs} {session : Session}
    (tended : Tended base session.vfs session.holds) :
    KeepsBytes base session where
  entries := tended.entries
  bytes := tended.bytes
  referred file held := by
    obtain ⟨content, present, _⟩ := present_of_held (tended.owned file) held
    have here : contents session.vfs file =
        some (content.data, content.mtime) := by
      rw [contents, present]
      rfl
    refine ⟨_, here, ?_⟩
    rcases tended.bytes file with gone | same
    · rw [here] at gone
      cases gone
    · rw [← same, here]

theorem lockedHandle_insertFile (around : Surroundings) (session : Session)
    (engine : Engine Stream) (fd : Int) {file : OpenFile Stream}
    (unwritable : file.writable = false) :
    LockedHandle (fdKey fd)
      (insertFile around.machine fd engine file session) := by
  have put : (engine.registry.putFile (fdKey fd) file).getFile (fdKey fd) =
      some file := AList.lookup_insert _
  unfold insertFile
  simp only
  split
  · intro next found active hit
    cases active
    cases put.symm.trans hit
    exact unwritable
  · intro next found active hit
    cases active
    cases put.symm.trans hit
    exact unwritable

/-- A descriptor opened without write access has none. -/
theorem lockedHandle_openVirtualFd (around : Surroundings)
    (session : Session) (engine : Engine Stream) {flags : Flags}
    (reads : wantsWrite flags = false) (path : Text) {fd : Int}
    (valid : 0 ≤ fd)
    (opened : (openVirtualFd around.machine flags engine path
      session).reply.ret = fd) :
    LockedHandle (fdKey fd)
      (openVirtualFd around.machine flags engine path session).process := by
  revert opened
  unfold openVirtualFd
  simp only [reads, Bool.false_and, Bool.false_eq_true, if_false]
  split
  · intro opened
    have failed : -1 = fd := opened
    omega
  · intro opened
    have failed : -1 = fd := opened
    omega
  · split
    · intro opened
      have failed : -1 = fd := opened
      omega
    · intro opened
      subst opened
      exact lockedHandle_insertFile around _ engine _ rfl

/-- A `FILE*` opened without write access has none. -/
theorem lockedCookie_fopenVirtual (around : Surroundings)
    (session : Session) (engine : Engine Stream) {mode : CStr}
    {decoded : Text} {opts : OpenOptions}
    (read : decodeCstr mode = some decoded)
    (parsed : fopenOptions decoded = some opts)
    (reads : opts.write = false) (path : Text) {file : Int}
    (valid : file ≠ 0)
    (opened : (fopenVirtual around.machine mode engine path
      session).reply.ret = file) :
    LockedCookie (fdKey file)
      (fopenVirtual around.machine mode engine path session).process := by
  revert opened
  unfold fopenVirtual
  simp only [read, parsed, reads, Bool.false_and, Bool.false_eq_true,
    if_false]
  split
  · intro opened
    exact absurd opened.symm valid
  · intro opened
    exact absurd opened.symm valid
  · split
    · intro opened
      exact absurd opened.symm valid
    · intro opened
      subst opened
      intro state hit
      have put := hit.symm.trans (AList.lookup_insert _)
      cases put
      rfl

theorem onlyRead_step {base : MemoryFs} {fds : Set Int} {cookies : Set Nat}
    (session : Session) (event : Event)
    (here : OnlyRead base fds cookies session)
    (on : event.On fds cookies) :
    OnlyRead base fds cookies (session.step event) := by
  have kept := keptByReading_onlyRead base fds cookies
  cases event with
  | call around call =>
      cases call with
      | path call =>
          exact on.elim
      | two call =>
          exact on.elim
      | fd call =>
          exact shimFd_keeps kept around here
            fun fd member => here.handles fd (on fd member)
      | dir call =>
          exact on.elim
  | cookie around call =>
      exact cookieCall_keeps kept around here (here.cookies call.file on)

theorem OwnedSession.onlyRead (start : OwnedSession) {fds : Set Int}
    {cookies : Set Nat}
    (handles : ∀ fd ∈ fds, LockedHandle (fdKey fd) start.session)
    (states : ∀ cookie ∈ cookies, LockedCookie cookie start.session) :
    OnlyRead start.session.vfs fds cookies start.session where
  tended := ⟨rfl, start.owned, fun _ => .inr rfl⟩
  handles := handles
  cookies := states

/-- A fresh engine without writes leaves the tree as it is, through every
sequence of calls and callbacks; and calls on descriptors and cookies without
write access leave the bytes of every file as they are, whatever the engine
allows. -/
theorem reading_never_changes_files :
    (∀ (tree : OwnedTree) (nspace : Namespace) (inHook : Bool)
      (events : List Event),
        Throughout Session.step (Unchanged tree.fs)
          (install tree nspace false inHook).session events) ∧
    ∀ (start : OwnedSession) (fds : Set Int) (cookies : Set Nat),
      (∀ fd ∈ fds, LockedHandle (fdKey fd) start.session) →
      (∀ cookie ∈ cookies, LockedCookie cookie start.session) →
      ∀ events : List Event, (∀ event ∈ events, event.On fds cookies) →
        Throughout Session.step (KeepsBytes start.session.vfs) start.session
          events := by
  constructor
  · intro tree nspace inHook events
    have readOnly := throughout_of_step readOnly_step events _
      (readOnly_install tree nspace inHook)
    exact readOnly.mono fun _ kept => kept.unchanged
  · intro start fds cookies handles states events on
    have onlyRead := throughout_of_eachStep onlyRead_step events
      start.session (start.onlyRead handles states) (eachStep_of_forall on)
    exact onlyRead.mono fun _ kept => kept.tended.keepsBytes

/-- A libc that answers everything with 7. -/
def idle : Surroundings where
  ambient := .still
  os _ := ⟨7, none, .nothing⟩
  hasher := List.length

/-- A tree with the writable file `/v/a`. -/
def oneFile : OwnedTree :=
  .ofDesk 64 (by decide) [.insertWritable 0 "/v/a".toList]

/-- `open("/v/a", flags)`. -/
def openOne (flags : Flags) : Event :=
  .call idle (.path (.open .open (some [47, 118, 47, 97]) flags 0))

/-- A session that allows writes and has `/v/a` open for reading, as 7. -/
def readerSession : Session :=
  (install oneFile (.fromRoot "/v".toList) true false).session.step
    (openOne 0)

def reader : OwnedSession where
  session := readerSession
  owned file := by
    by_cases same : file = 0
    · subst same
      decide
    · have entries : readerSession.vfs.entries.entries =
          [⟨"/".toList, .dir "/".toList⟩, ⟨"/v".toList, .dir "v".toList⟩,
            ⟨"/v/a".toList, .memFile 0 "a".toList⟩] := by decide
      have tree : readerSession.vfs.treeHolds file = 0 := by
        simp [MemoryFs.treeHolds, Store.total, entries, Node.holds, one, same]
      have held : readerSession.holds file = 0 := by
        change (one 0 + 0 + 0 : Nat → Nat) file = 0
        simp [one, same]
      omega

/-- `O_CREAT | O_TRUNC` without write access on a read-only engine, and a
write to the descriptor 7 of `reader`. -/
theorem reading_never_changes_files_write :
    Throughout Session.step (Unchanged oneFile.fs)
        (install oneFile (.fromRoot "/v".toList) false false).session
        [openOne (O_CREAT ||| O_TRUNC),
          .call idle (.fd (.write 7 (.bytes [1, 2]))),
          .call idle (.fd (.close 7))] ∧
      Throughout Session.step (KeepsBytes reader.session.vfs) reader.session
        [.call idle (.fd (.write 7 (.bytes [1, 2]))),
          .call idle (.fd (.close 7))] := by
  refine ⟨reading_never_changes_files.1 _ _ _ _,
    reading_never_changes_files.2 reader {7} ∅ ?_ ?_ _ ?_⟩
  · rintro fd rfl engine file active hit
    have registered : readerSession.engine.bind
        (fun engine => engine.registry.getFile (fdKey 7)) =
          some ⟨.read (.memory 0 0), "/v/a".toList, false⟩ := by decide
    change readerSession.engine = some engine at active
    rw [active, Option.bind_some, hit] at registered
    cases registered
    rfl
  · rintro cookie none
    exact none.elim
  · intro event member
    simp only [List.mem_cons, List.not_mem_nil, or_false] at member
    rcases member with rfl | rfl
    · exact fun fd only => List.mem_singleton.mp only
    · exact fun fd only => List.mem_singleton.mp only

end Hookfs.Unix
