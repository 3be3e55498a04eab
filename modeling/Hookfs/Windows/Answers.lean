import Hookfs.Memory.Exact
import Hookfs.Windows.Descriptions
import Hookfs.Windows.FailClosed

/-!
# Every call on a handle is answered as its description answers

The shims of the file handles, call by call and in every sequence.
-/

namespace Hookfs.Windows

open Hookfs.Lib Hookfs.Vfs Hookfs.Memory

open MemoryFs (Stream)

/-! ## The calls -/

section Words

theorem start_lt (words : Overlapped) : words.start < 2 ^ 64 := by
  have low := words.offset.isLt
  have high := words.offsetHigh.isLt
  unfold Overlapped.start
  refine Nat.or_lt_two_pow ?_ (by omega)
  rw [Nat.shiftLeft_eq]
  omega

theorem placeOf_lt {description : Description Origin}
    (word : description.pos < 2 ^ 64) (overlapped : Option Overlapped) :
    Files.placeOf overlapped description < 2 ^ 64 := by
  cases overlapped with
  | none =>
      exact word
  | some words =>
      exact start_lt words

theorem countDword_of_le {count : Dword} {done : Nat}
    (within : done ≤ count.toNat) : countDword count done = done := by
  have small := count.isLt
  unfold countDword
  rw [if_pos (by omega)]

theorem clampLarge_of_short {value : Nat} (short : value < 2 ^ 63) :
    clampLarge value = value := by
  unfold clampLarge
  omega

end Words

section Calls

variable {system : System Memory.Ambient MemoryFs Stream} {limit : Nat}
  {process : Process MemoryFs Stream} {engine : Engine Stream}
  {files : Files} {handle : Int} {description : Description Origin}
  {content : MemFile}
  (streams : StreamsInMemory system.provider)
  (mirrors : Mirrors limit process engine files)

include streams

/-- A transfer starts at its place. -/
theorem seekOverlapped_eq
    (sited : Sited limit process.vfs description.inode content)
    (overlapped : Option Overlapped) :
    seekOverlapped system overlapped (description.streamAt description.pos)
        process.vfs =
      (.ok (), description.streamAt (Files.placeOf overlapped description),
        process.vfs) := by
  cases overlapped with
  | none =>
      rfl
  | some words =>
      have small := start_lt words
      have aimed := seek_streamAt streams system.ambient sited
        description.pos (.start words.start)
      have reached : Reference.seek content.data.length description.pos
          (.start words.start) = .ok words.start := by
        unfold Reference.seek
        have start : Reference.sought content.data.length description.pos
            (.start words.start) = words.start := rfl
        rw [start, if_neg (by omega), if_pos (by omega), Int.toNat_natCast]
      rw [reached] at aimed
      unfold seekOverlapped
      simp only [aimed]
      rfl

include mirrors

/-- A transfer is answered alike if what it does at its place is. -/
theorem answers_transfer {Value : Type}
    (here : files.opened (handleKey handle) = some description)
    (sited : Sited limit process.vfs description.inode content)
    (count : Dword) (base done : Nat) (overlapped : Option Overlapped)
    {operate : OpenStream Stream → MemoryFs →
      Except IoError Value × OpenStream Stream × MemoryFs}
    {succeeded : Value → Int × List (Nat × Cell)}
    {meant : Nat → HandleReply × Nat × Files}
    (alike : ∀ place, place < 2 ^ 64 →
      AnswersAs limit
        (answerStream handle engine (openFileOf description) process 0
          succeeded (operate (description.streamAt place) process.vfs))
        ((meant place).1, (meant place).2.2.moveTo (handleKey handle)
          description (meant place).2.1)) :
    AnswersAs limit
      (transfer system handle engine (openFileOf description) count base done
        overlapped operate succeeded process)
      (files.transferAt handle count base done overlapped description
        meant) := by
  have word := mirrors.words _ _ here
  have place := placeOf_lt word overlapped
  have stream : (openFileOf description).stream =
      description.streamAt description.pos := rfl
  unfold transfer Files.transferAt
  rw [stream, seekOverlapped_eq streams sited]
  simp only
  split
  · exact answers_moved mirrors here mirrors.stores rfl mirrors.charged place
      _ _ _
  · split
    · exact answers_moved mirrors here mirrors.stores rfl mirrors.charged
        place _ _ _
    · exact alike _ place

theorem answers_readFile (buffer : Nat) (count : Dword) (read : Nat)
    (overlapped : Option Overlapped) :
    AnswersAs limit
      (shimReadFile system handle buffer count read overlapped process)
      (files.serve system.outside
        (.readFile handle buffer count read overlapped)) := by
  refine answers_onHandle system mirrors
    fun description content here sited => ?_
  have kind : (openFileOf description).overlapped =
      description.tag.overlapped := rfl
  rw [kind]
  split
  · exact answers_same mirrors _ _ _
  · refine answers_transfer streams mirrors here sited count buffer read
      overlapped fun place word => ?_
    have within : (content.inode.read place count.toNat).length ≤
        count.toNat := List.length_take_le _ _
    rw [readBytes_streamAt streams _ sited word]
    simp only [answerStream, countDword_of_le within]
    exact answers_moved mirrors here mirrors.stores rfl mirrors.charged
      (cursor_read_word sited word _) _ _ _

omit streams in
theorem answers_readFileEx (buffer : Nat) (count : Dword)
    (overlapped : Option Overlapped) (routine : Nat) :
    AnswersAs limit
      (shimReadFileEx system handle buffer count overlapped routine process)
      (files.serve system.outside
        (.readFileEx handle buffer count overlapped routine)) :=
  answers_onHandle system mirrors
    fun _ _ _ _ => answers_same mirrors _ _ _

theorem answers_writeFile (buffer : Buffer) (count : Dword) (written : Nat)
    (overlapped : Option Overlapped) :
    AnswersAs limit
      (shimWriteFile system handle buffer count written overlapped process)
      (files.serve system.outside
        (.writeFile handle buffer count written overlapped)) := by
  refine answers_onHandle system mirrors
    fun description content here sited => ?_
  have kind : (openFileOf description).overlapped =
      description.tag.overlapped := rfl
  have access : (openFileOf description).writable =
      description.writes := rfl
  rw [kind, access]
  by_cases writes : description.writes = true
  · rw [writes]
    simp only [Bool.not_true, Bool.false_eq_true, if_false]
    split
    · exact answers_same mirrors _ _ _
    · refine answers_transfer streams mirrors here sited count buffer.base
        written overlapped fun place word => ?_
      obtain ⟨next, does, stored⟩ := writeBytes_streamAt streams
        system.ambient sited mirrors.stores word writes
        (buffer.data.take count.toNat)
      have counted := leaky_writeBytes streams system.ambient description
        place mirrors.charged (buffer.data.take count.toNat)
      have further := cursor_write_word files description word (buffer.data.take count.toNat)
        content.inode
      have same := Shelf.opened_write place (buffer.data.take count.toNat)
        description.inode content.inode files
      have length : (buffer.data.take count.toNat).length ≤ count.toNat :=
        List.length_take_le _ _
      rw [does] at counted ⊢
      rcases outcome : files.write place (buffer.data.take count.toNat)
        description.inode content.inode with ⟨result, shelf⟩
      rw [outcome] at stored further same
      cases result with
      | error error =>
          exact answers_moved mirrors here stored same counted word _ _ _
      | ok placed =>
          have within : placed ≤ count.toNat := by
            have few := Shelf.write_le outcome
            omega
          simp only [answerStream, countDword_of_le within]
          exact answers_moved mirrors here stored same counted further _ _ _
  · have refused : description.writes = false := by
      simpa using writes
    rw [refused]
    exact answers_same mirrors _ _ _

omit streams in
theorem answers_writeFileEx (buffer : Buffer) (count : Dword)
    (overlapped : Option Overlapped) (routine : Nat) :
    AnswersAs limit
      (shimWriteFileEx system handle buffer count overlapped routine process)
      (files.serve system.outside
        (.writeFileEx handle buffer count overlapped routine)) :=
  answers_onHandle system mirrors
    fun _ _ _ _ => answers_same mirrors _ _ _

/-- Both `SetFilePointer`s are answered alike. -/
theorem answers_setPointer {call : HandleCall} (method : Dword)
    (distance ret : Int) (told : Nat → Int × List (Nat × Cell)) :
    AnswersAs limit
      (setPointer system call handle method distance ret told process)
      (files.onHandle system.outside call handle fun description inode =>
        files.seekTo handle method distance ret told description inode) := by
  refine answers_onHandle system mirrors
    fun description content here sited => ?_
  have stream : (openFileOf description).stream =
      description.streamAt description.pos := rfl
  cases aimed : seekFrom method distance with
  | none =>
      simp only [Files.seekTo, aimed]
      exact answers_same mirrors _ _ _
  | some target =>
      have does := seek_streamAt streams system.ambient sited
        description.pos target
      have bytes : content.inode.data = content.data := rfl
      simp only [Files.seekTo, aimed]
      rw [stream, does, bytes]
      cases reached : Reference.seek content.data.length description.pos
          target with
      | error error =>
          exact answers_stayed mirrors here mirrors.stores rfl
            mirrors.charged _ _ _
      | ok pos =>
          exact answers_moved mirrors here mirrors.stores rfl
            mirrors.charged (Reference.seek_word reached) _ _ _

/-- Both `GetFileSize`s are answered alike; no file has more than `i64::MAX`
bytes. -/
theorem answers_size {call : HandleCall} {ret : Int}
    {told : Nat → Int × List (Nat × Cell)}
    (meant : Nat → Int × List (Nat × Cell))
    (alike : ∀ len, len < 2 ^ 63 → told len = meant len) :
    AnswersAs limit
      (withFile system call handle (fun engine file process =>
        answerStream handle engine file process ret told
          (file.stream.size system.provider system.ambient process.vfs))
        process)
      (files.onHandle system.outside call handle fun _ inode =>
        (Files.granted (meant inode.data.length).1
          (meant inode.data.length).2, files)) := by
  refine answers_onHandle system mirrors
    fun description content here sited => ?_
  have stream : (openFileOf description).stream =
      description.streamAt description.pos := rfl
  have bytes : content.inode.data = content.data := rfl
  rw [stream, size_streamAt streams _ sited, bytes, ← alike _ sited.short]
  exact answers_stayed mirrors here mirrors.stores rfl mirrors.charged _ _ _

theorem answers_getFileSizeEx (size : Nat) :
    AnswersAs limit (shimGetFileSizeEx system handle size process)
      (files.serve system.outside (.getFileSizeEx handle size)) := by
  refine answers_size streams mirrors
    (fun len => (1, through size (.large len))) fun len short => ?_
  rw [clampLarge_of_short short]

theorem answers_getFileSize (high : Nat) :
    AnswersAs limit (shimGetFileSize system handle high process)
      (files.serve system.outside (.getFileSize handle high)) :=
  answers_size streams mirrors
    (fun len => ((splitHiLo len).2,
      through high (.dword (splitHiLo len).1))) fun _ _ => rfl

omit streams in
theorem answers_getFileType :
    AnswersAs limit (shimGetFileType system handle process)
      (files.serve system.outside (.getFileType handle)) :=
  answers_onHandle system mirrors
    fun _ _ _ _ => answers_same mirrors _ _ _

omit mirrors in
/-- The size that the two queries for information tell. -/
theorem sizeOrZero_eq
    (sited : Sited limit process.vfs description.inode content) :
    sizeOrZero system (openFileOf description) process.vfs =
      (content.data.length, description.stream, process.vfs) := by
  have stream : (openFileOf description).stream =
      description.streamAt description.pos := rfl
  unfold sizeOrZero
  rw [stream, size_streamAt streams _ sited]
  rfl

theorem answers_information (info : Nat) :
    AnswersAs limit
      (shimGetFileInformationByHandle system handle info process)
      (files.serve system.outside
        (.getFileInformationByHandle handle info)) := by
  refine answers_onHandle system mirrors
    fun description content here sited => ?_
  split
  · exact answers_same mirrors _ _ _
  · rw [sizeOrZero_eq streams sited]
    exact answers_stayed mirrors here mirrors.stores rfl mirrors.charged
      _ _ _

theorem answers_informationEx (level : Dword) (info : Nat) (size : Dword) :
    AnswersAs limit
      (shimGetFileInformationByHandleEx system handle level info size
        process)
      (files.serve system.outside
        (.getFileInformationByHandleEx handle level info size)) := by
  refine answers_onHandle system mirrors
    fun description content here sited => ?_
  have stayed := answers_stayed mirrors here mirrors.stores rfl
    mirrors.charged
  rw [sizeOrZero_eq streams sited]
  unfold Files.informationEx
  simp only
  split
  · split
    · exact stayed _ _ _
    · exact stayed _ _ _
  · split
    · split
      · exact stayed _ _ _
      · rw [clampLarge_of_short sited.short]
        exact stayed _ _ _
    · exact stayed _ _ _

theorem answers_flush :
    AnswersAs limit (shimFlushFileBuffers system handle process)
      (files.serve system.outside (.flushFileBuffers handle)) := by
  refine answers_onHandle system mirrors
    fun description content here sited => ?_
  have stream : (openFileOf description).stream =
      description.streamAt description.pos := rfl
  rw [stream, flush_streamAt streams]
  exact answers_stayed mirrors here mirrors.stores rfl mirrors.charged _ _ _

/-- The end of the file moves to the cursor, and the cursor stays. -/
theorem answers_setEndOfFile :
    AnswersAs limit (shimSetEndOfFile system handle process)
      (files.serve system.outside (.setEndOfFile handle)) := by
  refine answers_onHandle system mirrors
    fun description content here sited => ?_
  have stream : (openFileOf description).stream =
      description.streamAt description.pos := rfl
  have access : (openFileOf description).writable =
      description.writes := rfl
  rw [access]
  by_cases writes : description.writes = true
  · rw [writes]
    simp only [Bool.not_true, Bool.false_eq_true, if_false]
    obtain ⟨next, does, stored⟩ := setLen_streamAt streams system.ambient
      sited description.pos mirrors.stores writes description.pos
    have counted := leaky_setLen streams system.ambient description
      description.pos mirrors.charged description.pos
    have same := Shelf.opened_setLen description.pos description.inode
      content.inode files
    rw [stream, streamPosition_streamAt streams]
    rw [does] at counted
    simp only
    rw [does]
    rcases outcome : files.setLen description.pos description.inode
      content.inode with ⟨result, shelf⟩
    rw [outcome] at stored same
    cases result with
    | error error =>
        exact answers_stayed mirrors here stored same counted _ _ _
    | ok done =>
        exact answers_stayed mirrors here stored same counted _ _ _
  · have refused : description.writes = false := by
      simpa using writes
    rw [refused]
    exact answers_same mirrors _ _ _

theorem answers_close :
    AnswersAs limit (shimCloseHandle system handle process)
      (files.serve system.outside (.closeHandle handle)) := by
  refine answers_onHandle system mirrors
    fun description content here sited => ?_
  have inner : (openFileOf description).stream.inner =
      .memory description.inode description.pos := inner_streamAt _ _
  rw [inner, streams.drop]
  exact ⟨rfl, mirrors.closed here⟩

end Calls

/-! ## Runs -/

/-- The calls on file handles. -/
def HandleCall.IsFile : HandleCall → Prop
  | .findNextFileW _ _ => False
  | .findClose _ => False
  | .getCurrentDirectoryW _ _ => False
  | _ => True

/-- A call on a file handle, over the streams of an in-memory tree. -/
structure FileEvent where
  system : System Memory.Ambient MemoryFs Stream
  streams : StreamsInMemory system.provider
  call : HandleCall
  isFile : call.IsFile

def Process.serve (process : Process MemoryFs Stream) (event : FileEvent) :
    HandleReply × Process MemoryFs Stream :=
  let result := shimHandle event.system event.call process
  (result.reply, result.process)

def Files.serveEvent (files : Files) (event : FileEvent) :
    HandleReply × Files :=
  files.serve event.system.outside event.call

theorem answers_handle {limit : Nat} {process : Process MemoryFs Stream}
    {engine : Engine Stream} {files : Files}
    (mirrors : Mirrors limit process engine files) (event : FileEvent) :
    AnswersAs limit (shimHandle event.system event.call process)
      (files.serve event.system.outside event.call) := by
  obtain ⟨system, streams, call, isFile⟩ := event
  cases call with
  | readFile handle buffer count read overlapped =>
      exact answers_readFile streams mirrors buffer count read overlapped
  | readFileEx handle buffer count overlapped routine =>
      exact answers_readFileEx mirrors buffer count overlapped routine
  | writeFile handle buffer count written overlapped =>
      exact answers_writeFile streams mirrors buffer count written overlapped
  | writeFileEx handle buffer count overlapped routine =>
      exact answers_writeFileEx mirrors buffer count overlapped routine
  | setFilePointerEx handle distance position method =>
      exact answers_setPointer streams mirrors method _ _ _
  | setFilePointer handle distance high method =>
      exact answers_setPointer streams mirrors method _ _ _
  | getFileSizeEx handle size =>
      exact answers_getFileSizeEx streams mirrors size
  | getFileSize handle high =>
      exact answers_getFileSize streams mirrors high
  | getFileType handle =>
      exact answers_getFileType mirrors
  | getFileInformationByHandle handle info =>
      exact answers_information streams mirrors info
  | getFileInformationByHandleEx handle level info size =>
      exact answers_informationEx streams mirrors level info size
  | flushFileBuffers handle =>
      exact answers_flush streams mirrors
  | setEndOfFile handle =>
      exact answers_setEndOfFile streams mirrors
  | closeHandle object =>
      exact answers_close streams mirrors
  | findNextFileW find data =>
      exact isFile.elim
  | findClose find =>
      exact isFile.elim
  | getCurrentDirectoryW length buffer =>
      exact isFile.elim

/-- A volume of four bytes with a file, open once. -/
def heldDesk : Desk :=
  run Desk.step (Desk.start 4)
    [.insertWritable 0 "/a".toList,
      .openWrite 0 "/a".toList ⟨true, true, false, false, false, false⟩]

/-- The file behind the handle 8. -/
def heldRegistry : Registry Stream :=
  (⟨∅, ∅⟩ : Registry Stream).putFile 8
    ⟨.write (.memory 0 0), "C:\\v\\a".toList, true, false⟩

def heldEngine : Engine Stream :=
  { idleEngine with registry := heldRegistry }

def heldProcess : Process MemoryFs Stream :=
  ⟨heldDesk.fs, some heldEngine, false⟩

def heldFiles : Files where
  capacity := 4
  used := 0
  inodes := Function.update (fun _ => none) 0 (some ⟨[], 2⟩)
  opened := Function.update (fun _ => none) 8
    (some ⟨0, 0, true, ⟨"C:\\v\\a".toList, false⟩⟩)

theorem charged_heldDesk :
    MemoryFs.Leaky (MemoryFs.Counted 4) heldDesk.fs
      (handleHolds heldRegistry) := by
  have balanced : heldDesk.Balanced 4 :=
    run_of_allowed (Desk.Balanced 4)
      (fun desk op here _ => Desk.step_balanced desk op here)
      (fun _ _ => trivial) (Desk.balanced_start (by decide))
  have same : heldDesk.handleHolds = handleHolds heldRegistry := rfl
  refine ⟨0, ?_⟩
  rw [add_zero, ← same]
  exact balanced.counted

theorem mirrors_heldFiles :
    Mirrors 4 heldProcess heldEngine heldFiles := by
  refine ⟨rfl, rfl, ⟨rfl, rfl, fun id => ?_⟩, fun key => ?_,
    fun key description found => ?_, charged_heldDesk⟩
  · by_cases first : id = 0
    · subst first
      rfl
    · have nothing : heldProcess.vfs.files.lookup id = none := by
        have keys : heldProcess.vfs.files.keys = [0] := by decide
        rw [AList.lookup_eq_none, AList.mem_keys, keys]
        exact fun inside => first (List.mem_singleton.mp inside)
      simp only [heldFiles, Function.update_of_ne first, nothing,
        Option.map_none]
  · by_cases opened : key = 8
    · subst opened
      rfl
    · simp only [heldFiles, Function.update_of_ne opened, Option.map_none]
      exact (AList.lookup_insert_ne opened).trans rfl
  · by_cases opened : key = 8
    · subst opened
      injection found with same
      subst same
      exact Nat.two_pow_pos 64
    · simp only [heldFiles, Function.update_of_ne opened] at found
      cases found

/-- KERNEL32 fails every call, and the tree is as it is. -/
def heldSystem : System Memory.Ambient MemoryFs Stream :=
  { idleMachine with
    original := fun _ => ⟨0, none, []⟩
    hasher := List.length }

def heldEvent (call : HandleCall) (isFile : call.IsFile) : FileEvent where
  system := heldSystem
  streams := ⟨rfl, rfl, rfl, rfl, rfl, rfl, rfl, rfl⟩
  call := call
  isFile := isFile

end Hookfs.Windows
