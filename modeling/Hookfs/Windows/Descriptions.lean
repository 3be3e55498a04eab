import Hookfs.Windows.Files

/-!
# Handles against inodes

A process over an in-memory tree has inodes and open file descriptions, and
the shims of the file handles answer every sequence of calls as these do.
-/

namespace Hookfs.Windows

open Hookfs.Lib Hookfs.Vfs Hookfs.Memory

open MemoryFs (Stream)

/-- The registry's entry for a description. -/
def openFileOf (description : Description Origin) : OpenFile Stream :=
  ⟨description.stream, description.tag.path, description.writes,
    description.tag.overlapped⟩

/-- The `Arc`s behind the handles of a registry. -/
def handleHolds (registry : Registry Stream) : Nat → Nat :=
  Store.total (fun _ file => file.stream.inner.holds) registry.files

/-- The process has these files, outside of a hook and behind an engine, and
its volume is accounted for. -/
structure Mirrors (limit : Nat) (process : Process MemoryFs Stream)
    (engine : Engine Stream) (files : Files) : Prop where
  active : process.engine = some engine
  outside : process.inHook = false
  stores : Stores process.vfs files
  handles : ∀ key, engine.registry.files.lookup key =
    (files.opened key).map openFileOf
  words : ∀ key description, files.opened key = some description →
    description.pos < 2 ^ 64
  charged : MemoryFs.Leaky (MemoryFs.Counted limit) process.vfs
    (handleHolds engine.registry)

/-- What the files see of the system. -/
def System.outside (system : System Memory.Ambient MemoryFs Stream) :
    Outside where
  original := system.original
  fileId := stableFileId system

/-- The shim answers as the files do, and leaves the process with them. -/
def AnswersAs (limit : Nat) (result : HandleResult MemoryFs Stream)
    (answer : HandleReply × Files) : Prop :=
  result.reply = answer.1 ∧
    ∃ engine, Mirrors limit result.process engine answer.2

section Agreement

variable {limit : Nat} {process : Process MemoryFs Stream}
  {engine : Engine Stream} {files next : Files} {handle : Int}
  {description : Description Origin} {content : MemFile} {fs : MemoryFs}
  {pos : Nat}

theorem holds_openFileOf (description : Description Origin) (pos : Nat) :
    (description.streamAt pos).inner.holds = one description.inode := by
  rw [inner_streamAt]
  rfl

/-- The `Arc` of an open handle, and the others. -/
theorem Mirrors.splitHolds (mirrors : Mirrors limit process engine files)
    (here : files.opened (handleKey handle) = some description) :
    handleHolds engine.registry =
      one description.inode + handleHolds
        (engine.registry.removeFile (handleKey handle)) := by
  have registered : engine.registry.files.lookup (handleKey handle) =
      some (openFileOf description) := by
    rw [mirrors.handles, here, Option.map_some]
  have split := Store.total_erase_of_lookup
    (fun _ (file : OpenFile Stream) => file.stream.inner.holds) registered
  rw [show (openFileOf description).stream.inner.holds =
    one description.inode from holds_openFileOf _ _] at split
  exact split

/-- The file of an open handle is in the volume. -/
theorem Mirrors.sited (mirrors : Mirrors limit process engine files)
    (here : files.opened (handleKey handle) = some description) :
    ∃ content, Sited limit process.vfs description.inode content := by
  have counted := mirrors.charged
  rw [mirrors.splitHolds here, add_comm] at counted
  obtain ⟨content, present⟩ :=
    (MemoryFs.accounts_counted limit).leaky.present counted
  exact ⟨content, sited_of_leaky counted present⟩

/-- The cursor of a handle moves, and the volume may change. -/
theorem Mirrors.keepStream (mirrors : Mirrors limit process engine files)
    (here : files.opened (handleKey handle) = some description)
    (stores : Stores fs next) (same : next.opened = files.opened)
    (charged : MemoryFs.Leaky (MemoryFs.Counted limit) fs
      (handleHolds engine.registry)) (word : pos < 2 ^ 64) :
    ∃ after, Mirrors limit
      (keepStream handle engine (openFileOf description)
        (description.streamAt pos) fs process) after
      (next.moveTo (handleKey handle) description pos) := by
  refine ⟨{ engine with
    registry := engine.registry.putFile (handleKey handle)
      { openFileOf description with
        stream := description.streamAt pos } }, rfl, mirrors.outside,
    stores.reopened _, fun key => ?_, fun key other found => ?_, ?_⟩
  · unfold Registry.putFile
    by_cases this : key = handleKey handle
    · subst this
      rw [AList.lookup_insert, Shelf.opened_moveTo_self]
      rfl
    · rw [AList.lookup_insert_ne this, Shelf.opened_moveTo_of_ne this, same]
      exact mirrors.handles key
  · by_cases this : key = handleKey handle
    · subst this
      rw [Shelf.opened_moveTo_self] at found
      rw [← Option.some.inj found]
      exact word
    · rw [Shelf.opened_moveTo_of_ne this, same] at found
      exact mirrors.words key other found
  · have held : handleHolds (engine.registry.putFile (handleKey handle)
        { openFileOf description with
          stream := description.streamAt pos }) =
        handleHolds engine.registry := by
      rw [mirrors.splitHolds here, ← holds_openFileOf description pos]
      exact Store.total_insert _ _ _ _
    change MemoryFs.Leaky _ fs (handleHolds (engine.registry.putFile _ _))
    rw [held]
    exact charged

/-- A handle is closed, and its stream dropped. -/
theorem Mirrors.closed (mirrors : Mirrors limit process engine files)
    (here : files.opened (handleKey handle) = some description) :
    ∃ after, Mirrors limit
      ((process.withEngine
        { engine with
          registry := engine.registry.removeFile
            (handleKey handle) }).withVfs
        (process.vfs.dropFile description.inode)) after
      (files.close (handleKey handle) description) := by
  have dropped := mirrors.stores.dropFile description.inode
  refine ⟨{ engine with
    registry := engine.registry.removeFile (handleKey handle) }, rfl,
    mirrors.outside, dropped.reopened _, fun key => ?_,
    fun key other found => ?_, ?_⟩
  · unfold Registry.removeFile
    by_cases this : key = handleKey handle
    · subst this
      rw [AList.lookup_erase, Shelf.opened_close_self]
      rfl
    · rw [AList.lookup_erase_ne this, Shelf.opened_close_of_ne this]
      exact mirrors.handles key
  · by_cases this : key = handleKey handle
    · subst this
      rw [Shelf.opened_close_self] at found
      cases found
    · rw [Shelf.opened_close_of_ne this] at found
      exact mirrors.words key other found
  · have counted := mirrors.charged
    rw [mirrors.splitHolds here, add_comm] at counted
    exact (MemoryFs.accounts_counted limit).leaky.dropFile counted

/-! ## Through a handle -/

variable (system : System Memory.Ambient MemoryFs Stream)

/-- A call on a handle is answered alike if it is on an open one. -/
theorem answers_onHandle (mirrors : Mirrors limit process engine files)
    {call : HandleCall}
    {served : Engine Stream → OpenFile Stream → Process MemoryFs Stream →
      HandleResult MemoryFs Stream}
    {meant : Description Origin → Inode → HandleReply × Files}
    (alike : ∀ description content,
      files.opened (handleKey handle) = some description →
        Sited limit process.vfs description.inode content →
          AnswersAs limit (served engine (openFileOf description) process)
            (meant description content.inode)) :
    AnswersAs limit (withFile system call handle served process)
      (files.onHandle system.outside call handle meant) := by
  have looked := mirrors.handles (handleKey handle)
  unfold Files.onHandle Shelf.through withFile withEngine
  rw [mirrors.outside, mirrors.active]
  simp only [Bool.false_eq_true, if_false]
  rw [looked]
  cases here : files.opened (handleKey handle) with
  | none =>
      exact ⟨rfl, engine, mirrors⟩
  | some description =>
      obtain ⟨content, sited⟩ := mirrors.sited here
      simp only [Option.map_some, mirrors.stores.found sited.present]
      exact alike description content here sited

theorem answers_same (mirrors : Mirrors limit process engine files)
    (ret : Int) (error : Nat) (writes : List (Nat × Cell)) :
    AnswersAs limit (answerHandle ret error writes process)
      (⟨ret, some error, writes⟩, files) :=
  ⟨rfl, engine, mirrors⟩

/-- The stream comes back at another position, with this answer. -/
theorem answers_moved (mirrors : Mirrors limit process engine files)
    (here : files.opened (handleKey handle) = some description)
    (stores : Stores fs next) (same : next.opened = files.opened)
    (charged : MemoryFs.Leaky (MemoryFs.Counted limit) fs
      (handleHolds engine.registry)) (word : pos < 2 ^ 64)
    (ret : Int) (error : Nat) (writes : List (Nat × Cell)) :
    AnswersAs limit
      (answerHandle ret error writes
        (keepStream handle engine (openFileOf description)
          (description.streamAt pos) fs process))
      (⟨ret, some error, writes⟩,
        next.moveTo (handleKey handle) description pos) :=
  ⟨rfl, mirrors.keepStream here stores same charged word⟩

/-- The stream comes back where it was, with this answer. -/
theorem answers_stayed (mirrors : Mirrors limit process engine files)
    (here : files.opened (handleKey handle) = some description)
    (stores : Stores fs next) (same : next.opened = files.opened)
    (charged : MemoryFs.Leaky (MemoryFs.Counted limit) fs
      (handleHolds engine.registry))
    (ret : Int) (error : Nat) (writes : List (Nat × Cell)) :
    AnswersAs limit
      (answerHandle ret error writes
        (keepStream handle engine (openFileOf description)
          description.stream fs process))
      (⟨ret, some error, writes⟩, next) := by
  have moved := answers_moved mirrors here stores same charged
    (mirrors.words _ _ here) ret error writes
  rw [Shelf.moveTo_self (by rw [same]; exact here)] at moved
  exact moved

end Agreement

end Hookfs.Windows
