import Hookfs.Lib.Enumeration
import Hookfs.Memory.Listing
import Hookfs.Unix.Effects
import Hookfs.Unix.Session

/-!
# Directory streams

`opendir` takes a snapshot of a directory, and every `readdir` on its `DIR*`
hands out the next entry of that snapshot, whatever the process does in
between.
-/

namespace Hookfs.Unix

open Hookfs.Lib Hookfs.Vfs Hookfs.Posix Hookfs.Router Hookfs.Memory

variable {Ambient State Stream : Type}

/-- The directory stream behind a pointer, in a process with an active engine
and outside of a hook. -/
def Process.listingAt (key : Nat) (process : Process State Stream) :
    Option (Enumeration DirEntry) :=
  if process.inHook then none
  else process.engine.bind fun engine =>
    (engine.registry.getDir key).map fun dir => ⟨dir.entries, dir.next⟩

/-- The occurrence asks for the next entry of this stream. -/
def asksEntry (key : Nat) : Occurrence Ambient State Stream → Bool
  | .call _ (.dir (.readdir _ dirp)) => dirp == key
  | _ => false

/-- The pointer is not handed out again, and nobody closes it. -/
def SparesListing (key : Nat) : Occurrence Ambient State Stream → Prop
  | .call machine (.path (.opendir _)) =>
      fdKey (machine.os .newDir).ret ≠ key
  | .call _ (.dir (.closedir dirp)) => dirp ≠ key
  | _ => True

/-- The reply to a `readdir` that is to report this entry; the record counts
its place. -/
def entryReply (hasher : Text → Nat) (dirp index : Nat) :
    Option DirEntry → Reply
  | some entry => ⟨dirp, none, .dirent (fillDirent hasher entry index)⟩
  | none => ⟨0, none, .nothing⟩

/-- What an occurrence that asks is told. -/
def entryAnswer (occurrence : Occurrence Ambient State Stream)
    (found : Option DirEntry) (index : Nat) : Reply :=
  match occurrence with
  | .call machine (.dir (.readdir _ dirp)) =>
      entryReply machine.hasher dirp index found
  | _ => ⟨0, none, .nothing⟩

section Steps

variable {process : Process State Stream} {tables : Tables Stream}
  {key : Nat}

theorem listingAt_of_active {engine : Engine Stream}
    (outside : process.inHook = false)
    (active : process.engine = some engine) :
    process.listingAt key = (engine.registry.getDir key).map fun dir =>
      ⟨dir.entries, dir.next⟩ := by
  unfold Process.listingAt
  rw [outside, active]
  rfl

theorem listingAt_putDir {engine : Engine Stream}
    (outside : process.inHook = false) (dir : VirtualDir) :
    (process.withEngine
        { engine with
          registry := engine.registry.putDir key dir }).listingAt key =
      some ⟨dir.entries, dir.next⟩ := by
  have stored : (engine.registry.putDir key dir).getDir key = some dir :=
    AList.lookup_insert _
  rw [listingAt_of_active
    (show (process.withEngine { engine with
      registry := engine.registry.putDir key dir }).inHook = false
      from outside) rfl]
  simp only [stored, Option.map_some]

/-- A directory stream is only there outside of a hook and behind an
engine. -/
theorem exists_of_listingAt {found : Enumeration DirEntry}
    (here : process.listingAt key = some found) :
    process.inHook = false ∧ ∃ engine, process.engine = some engine ∧
      engine.registry.getDir key = some ⟨found.items, found.next⟩ := by
  unfold Process.listingAt at here
  split at here
  · cases here
  · next outside =>
    obtain ⟨engine, active, hit⟩ := Option.bind_eq_some_iff.mp here
    obtain ⟨dir, stored, rfl⟩ := Option.map_eq_some_iff.mp hit
    exact ⟨Bool.eq_false_iff.mpr outside, engine, active, stored⟩

theorem getDir_putDir {key other : Nat} (dir : VirtualDir)
    (registry : Registry Stream) (different : other ≠ key) :
    (registry.putDir other dir).getDir key = registry.getDir key :=
  AList.lookup_insert_ne fun same => different same.symm

theorem getDir_removeDir {key other : Nat} (registry : Registry Stream)
    (different : other ≠ key) :
    (registry.removeDir other).getDir key = registry.getDir key :=
  AList.lookup_erase_ne fun same => different same.symm

theorem getDir_pathEffect {machine : Machine Ambient State Stream}
    {call : PathCall} {next : Tables Stream}
    (effect : PathEffect machine tables call next)
    (spares : SparesListing key (.call machine (.path call))) :
    next.engine.registry.getDir key = tables.engine.registry.getDir key := by
  cases effect with
  | unchanged =>
      rfl
  | opened file valid =>
      rfl
  | cookie state valid =>
      rfl
  | listed dir =>
      exact getDir_putDir dir tables.engine.registry spares
  | changed cwd =>
      rfl

theorem getDir_dirEffect {machine : Machine Ambient State Stream}
    {call : DirCall} {next : Tables Stream}
    (effect : DirEffect tables call next)
    (spares : SparesListing key (.call machine (.dir call)))
    (other : asksEntry key (.call machine (.dir call)) = false) :
    next.engine.registry.getDir key = tables.engine.registry.getDir key := by
  cases effect with
  | unchanged =>
      rfl
  | read hit =>
      exact getDir_putDir _ tables.engine.registry
        (beq_eq_false_iff_ne.mp other)
  | closed hit =>
      exact getDir_removeDir tables.engine.registry spares

theorem getDir_callEffect {machine : Machine Ambient State Stream}
    {call : Call} {next : Tables Stream}
    (effect : CallEffect machine tables call next)
    (spares : SparesListing key (.call machine call))
    (other : asksEntry key (.call machine call) = false) :
    next.engine.registry.getDir key = tables.engine.registry.getDir key := by
  cases effect with
  | path effect =>
      exact getDir_pathEffect effect spares
  | two call =>
      rfl
  | fd effect =>
      cases effect with
      | unchanged =>
          rfl
      | moved stream about hit =>
          rfl
      | closed hit =>
          rfl
  | dir effect =>
      exact getDir_dirEffect effect spares other

/-- The call on a registered stream, served from its snapshot. -/
theorem readdir_served {machine : Machine Ambient State Stream}
    {sym : ReaddirSym} {dirp : Nat} {found : Enumeration DirEntry}
    (here : process.listingAt dirp = some found) :
    (shimReaddir machine sym dirp process).reply =
        entryAnswer (.call machine (.dir (.readdir sym dirp)))
          found.current found.next ∧
      (shimReaddir machine sym dirp process).process.listingAt dirp =
        some found.advance := by
  obtain ⟨outside, engine, active, hit⟩ := exists_of_listingAt here
  cases current : found.current with
  | some entry =>
      have inside : found.items[found.next]? = some entry := current
      have served : shimReaddir machine sym dirp process =
          succeed dirp (.dirent (fillDirent machine.hasher entry found.next))
            (process.withEngine
              { engine with
                registry := engine.registry.putDir dirp
                  ⟨found.items, found.next + 1⟩ }) := by
        simp only [shimReaddir, withDir, outside, active, hit, inside]
        rfl
      rw [served, Enumeration.advance_of_current current]
      refine ⟨rfl, ?_⟩
      exact listingAt_putDir outside _
  | none =>
      have beyond : found.items[found.next]? = none := current
      have served : shimReaddir machine sym dirp process =
          succeed 0 .nothing process := by
        simp only [shimReaddir, withDir, outside, active, hit, beyond]
        rfl
      rw [served, Enumeration.advance_of_none current]
      exact ⟨rfl, here⟩

/-- A directory stream is an enumeration of its snapshot. -/
theorem enumerates_listing (key : Nat) :
    Enumerates (Process.occur : Process State Stream →
          Occurrence Ambient State Stream → Reply × Process State Stream)
        (Process.listingAt key) (asksEntry key)
      (SparesListing key) entryAnswer where
  asked process occurrence found here _ asking := by
    cases occurrence with
    | cookie machine call =>
        cases asking
    | call machine call =>
        cases call with
        | dir asked =>
            cases asked with
            | readdir sym dirp =>
                have about : dirp = key := beq_iff_eq.mp asking
                subst about
                exact readdir_served here
            | closedir dirp =>
                cases asking
            | getcwd buf size =>
                cases asking
        | _ => cases asking
  other process occurrence found here spares other := by
    obtain ⟨outside, engine, active, hit⟩ := exists_of_listingAt here
    cases occurrence with
    | cookie machine call =>
        have kept : OnEngine engine false
            (cookieCall machine call process).process :=
          onEngine_cookieCall ⟨active, outside⟩ call
        refine (listingAt_of_active kept.2 kept.1).trans ?_
        rw [hit, Option.map_some]
    | call machine call =>
        have has : Has ⟨engine, process.cookies⟩ false process :=
          ⟨active, rfl, outside⟩
        obtain ⟨next, effect, after⟩ : Reaches
            (CallEffect machine ⟨engine, process.cookies⟩ call) false
            (shim machine call process).process := reaches_shim has call
        refine (listingAt_of_active after.side after.active).trans ?_
        rw [getDir_callEffect effect spares other, hit, Option.map_some]

end Steps

/-! ## From `opendir` on -/

section Directory

variable {around : Surroundings} {session : Session}
  {engine : Engine MemoryFs.Stream}

/-- An `opendir` of a directory that the provider lists. -/
theorem opendir_served (around : Surroundings) {path : CStr} {dirPath : Text}
    {listed : List DirEntry}
    (arrives : Arrives path session engine (.virtual dirPath))
    (listing : session.vfs.readDir dirPath = some (.ok listed)) :
    (shimOpendir around.machine path session).process.listingAt
        (fdKey (around.os .newDir).ret) = some ⟨listed, 0⟩ := by
  have opened : shimOpendir around.machine path session =
      { reply := ⟨(around.os .newDir).ret, none, .nothing⟩
        calls := [.newDir]
        process := (session.withVfs session.vfs).withEngine
          { engine with
            registry := engine.registry.putDir
              (fdKey (around.os .newDir).ret) ⟨listed, 0⟩ } } := by
    unfold shimOpendir
    rw [routed_virtual (show Arrives (PathCall.opendir path).path session
      engine (.virtual dirPath) from arrives)]
    simp only [Surroundings.machine, MemoryFs.provider, listing]
  rw [opened]
  exact listingAt_putDir
    (show (session.withVfs session.vfs).inHook = false from arrives.outside) _

end Directory

/-- An engine over `/v`, with a file and a directory below `/v/d`. -/
def listedSession : Session where
  vfs := (run Desk.step (Desk.start 8)
    [.insertWritable 1 "/v/d/b".toList, .createDir "/v/d/a".toList]).fs
  engine := some (.new (.fromRoot "/v".toList) true)
  cookies := ∅
  inHook := false

/-- A libc that answers everything with 7. -/
def listedSurroundings : Surroundings where
  ambient := .still
  os _ := ⟨7, none, .nothing⟩
  hasher := List.length

end Hookfs.Unix
