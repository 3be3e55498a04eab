import Hookfs.Unix.Descriptions

/-!
# Every call on a descriptor is answered as its description answers

The shims and the callbacks of `FILE*`s, call by call and in every sequence.
-/

namespace Hookfs.Unix

open Hookfs.Lib Hookfs.Vfs Hookfs.Posix Hookfs.Router Hookfs.Memory

open MemoryFs (Stream)

/-! ## The calls -/

section Calls

variable {around : Surroundings} {session : Session}
  {engine : Engine Stream} {files : Files} {limit : Nat}
  (charged : OwnedBy (MemoryFs.Leaky (MemoryFs.Counted limit)) session)
  (mirrors : Mirrors session engine files)

include mirrors

theorem answers_same (reply : Reply) :
    AnswersAs ⟨reply, [], session⟩ (reply, files) :=
  ⟨rfl, engine, mirrors⟩

/-- The stream comes back at another position. -/
theorem answers_moved {fd : Int} {description : Description Text}
    {reply : Reply} {pos : Nat} {fs : MemoryFs} {next : Files}
    (stores : Stores fs next) (same : next.opened = files.opened)
    (word : pos < 2 ^ 64) :
    AnswersAs
      (answerStream fd engine (openFileOf description) session
        (reply, description.streamAt pos, fs))
      (reply, next.moveTo (.fd (fdKey fd)) description pos) :=
  ⟨rfl, mirrors.keepStream stores same word⟩

/-- The stream comes back where it was. -/
theorem answers_stayed {fd : Int} {description : Description Text}
    {reply : Reply} {fs : MemoryFs} {next : Files}
    (here : files.opened (.fd (fdKey fd)) = some description)
    (stores : Stores fs next) (same : next.opened = files.opened) :
    AnswersAs
      (answerStream fd engine (openFileOf description) session
        (reply, description.stream, fs))
      (reply, next) := by
  have moved : AnswersAs
      (answerStream fd engine (openFileOf description) session
        (reply, description.streamAt description.pos, fs))
      (reply, next.moveTo (.fd (fdKey fd)) description description.pos) :=
    answers_moved mirrors stores same (mirrors.words _ _ here)
  rw [Shelf.moveTo_self (by rw [same]; exact here)] at moved
  exact moved

theorem answers_cookieMoved {key : Nat} {description : Description Text}
    {reply : Reply} {pos : Nat} {fs : MemoryFs} {next : Files}
    (stores : Stores fs next) (same : next.opened = files.opened)
    (word : pos < 2 ^ 64) :
    AnswersAs
      (answerCookie key (cookieOf description) session
        (reply, description.streamAt pos, fs))
      (reply, next.moveTo (.file key) description pos) :=
  ⟨rfl, engine, mirrors.keepCookie stores same word⟩

theorem answers_cookieStayed {key : Nat} {description : Description Text}
    {reply : Reply} {fs : MemoryFs}
    (here : files.opened (.file key) = some description)
    (stores : Stores fs files) :
    AnswersAs
      (answerCookie key (cookieOf description) session
        (reply, description.stream, fs))
      (reply, files) := by
  have moved : AnswersAs
      (answerCookie key (cookieOf description) session
        (reply, description.streamAt description.pos, fs))
      (reply, files.moveTo (.file key) description description.pos) :=
    answers_cookieMoved mirrors stores rfl (mirrors.words _ _ here)
  rw [Shelf.moveTo_self here] at moved
  exact moved

include charged

theorem answers_read (fd : Int) (buf : Sink) :
    AnswersAs (shimRead around.machine fd buf session)
      (files.serveFd around.outside (.read fd buf)) := by
  refine answers_onFd around charged mirrors
    fun description content here sited => ?_
  have word := mirrors.words _ _ here
  have stream : (openFileOf description).stream =
      description.streamAt description.pos := rfl
  split
  · exact answers_same mirrors _
  · split
    · exact answers_same mirrors _
    · rw [stream, readBytes_streamAt around.streams _ sited word]
      exact answers_moved mirrors mirrors.stores rfl
        (cursor_read_word sited word _)

theorem answers_readv (fd : Int) (iov : Option (List Sink))
    (iovcnt : Int) :
    AnswersAs (shimReadv around.machine fd iov iovcnt session)
      (files.serveFd around.outside (.readv fd iov iovcnt)) := by
  refine answers_onFd around charged mirrors
    fun description content here sited => ?_
  have word := mirrors.words _ _ here
  have stream : (openFileOf description).stream =
      description.streamAt description.pos := rfl
  cases iov with
  | none =>
      exact answers_same mirrors _
  | some sinks =>
      simp only
      split
      · exact answers_same mirrors _
      · rw [stream, readvLoop_streamAt sited _ word]
        simp only [Nat.zero_add, List.nil_append]
        exact answers_moved mirrors mirrors.stores rfl
          (cursor_read_word sited word _)

theorem answers_pread (fd : Int) (buf : Sink) (offset : Int) :
    AnswersAs (shimPread around.machine fd buf offset session)
      (files.serveFd around.outside (.pread fd buf offset)) := by
  refine answers_onFd around charged mirrors
    fun description content here sited => ?_
  have word := mirrors.words _ _ here
  have stream : (openFileOf description).stream =
      description.streamAt description.pos := rfl
  split
  · exact answers_same mirrors _
  · split
    · exact answers_same mirrors _
    · split
      · exact answers_same mirrors _
      · rw [stream]
        have positioned := positioned_streamAt sited around
          (movesOnly_readBytes around buf.len) word offset.toNat
        cases placed : Files.placeAt description content.inode
            offset.toNat with
        | error error =>
            have refused : Reference.seek content.data.length
              description.pos (.start offset.toNat) = .error error := placed
            rw [refused] at positioned
            rw [positioned]
            exact answers_stayed mirrors here mirrors.stores rfl
        | ok place =>
            have found : Reference.seek content.data.length
              description.pos (.start offset.toNat) = .ok place := placed
            have read := readBytes_streamAt
              around.streams around.machine.ambient sited
              (Reference.seek_word found) buf.len
            rw [found] at positioned
            simp only [read] at positioned
            rw [positioned]
            exact answers_stayed mirrors here mirrors.stores rfl

theorem answers_lseek (sym : LseekSym) (fd offset whence : Int) :
    AnswersAs (shimLseek around.machine sym fd offset whence session)
      (files.serveFd around.outside (.lseek sym fd offset whence)) := by
  refine answers_onFd around charged mirrors
    fun description content here sited => ?_
  have stream : (openFileOf description).stream =
      description.streamAt description.pos := rfl
  cases seekFrom whence offset with
  | none =>
      exact answers_same mirrors _
  | some target =>
      have does := seek_streamAt around.streams around.machine.ambient sited
        description.pos target
      have bytes : content.inode.data = content.data := rfl
      simp only [Files.seekTo]
      rw [stream, does, bytes]
      cases aimed : Reference.seek content.data.length description.pos
          target with
      | error error =>
          exact answers_stayed mirrors here mirrors.stores rfl
      | ok reached =>
          exact answers_moved mirrors mirrors.stores rfl
            (Reference.seek_word aimed)

/-- Where the reference of an open descriptor is counted. -/
theorem charged_fd {fd : Int} {description : Description Text}
    (here : files.opened (.fd (fdKey fd)) = some description) :
    ∃ outside, MemoryFs.Leaky (MemoryFs.Counted limit) session.vfs
      (outside + one description.inode) := by
  have registered : engine.registry.getFile (fdKey fd) =
      some (openFileOf description) := by
    rw [mirrors.fds, here, Option.map_some]
  have held : (openFileOf description).stream.inner.holds =
      one description.inode := by
    rw [inner_openFileOf]
    rfl
  have counted := holds_closedFd session.vfs mirrors.active registered
  rw [held] at counted
  have whole : MemoryFs.Leaky (MemoryFs.Counted limit) session.vfs
    session.holds := charged
  rw [counted] at whole
  exact ⟨_, whole⟩

theorem answers_write (fd : Int) (buf : Source) :
    AnswersAs (shimWrite around.machine fd buf session)
      (files.serveFd around.outside (.write fd buf)) := by
  refine answers_onWritable around charged mirrors
    fun description content here writes sited => ?_
  have word := mirrors.words _ _ here
  have stream : (openFileOf description).stream =
      description.streamAt description.pos := rfl
  split
  · exact answers_same mirrors _
  · cases buf with
    | null count =>
        exact answers_same mirrors _
    | bytes data =>
        obtain ⟨next, does, stored⟩ := writeBytes_streamAt
          around.streams around.machine.ambient
          sited mirrors.stores word writes data
        simp only
        rw [stream, does]
        exact answers_moved mirrors stored (Shelf.opened_write _ _ _ _ _)
          (cursor_write_word _ _ word data _)

theorem answers_writev (fd : Int) (iov : Option (List Source))
    (iovcnt : Int) :
    AnswersAs (shimWritev around.machine fd iov iovcnt session)
      (files.serveFd around.outside (.writev fd iov iovcnt)) := by
  refine answers_onWritable around charged mirrors
    fun description content here writes sited => ?_
  have word := mirrors.words _ _ here
  have stream : (openFileOf description).stream =
      description.streamAt description.pos := rfl
  cases iov with
  | none =>
      exact answers_same mirrors _
  | some sources =>
      simp only
      split
      · exact answers_same mirrors _
      · obtain ⟨outside, counted⟩ := charged_fd charged mirrors here
        obtain ⟨next, does, stored, further⟩ := writevLoop_streamAt
          around (sources.take iovcnt.toNat) counted
          mirrors.stores word writes 0
        rw [stream, does]
        exact answers_moved mirrors stored (opened_writeEach _ _ _ _ _)
          further

theorem answers_pwrite (fd : Int) (buf : Source) (offset : Int) :
    AnswersAs (shimPwrite around.machine fd buf offset session)
      (files.serveFd around.outside (.pwrite fd buf offset)) := by
  refine answers_onWritable around charged mirrors
    fun description content here writes sited => ?_
  have word := mirrors.words _ _ here
  have stream : (openFileOf description).stream =
      description.streamAt description.pos := rfl
  split
  · exact answers_same mirrors _
  · cases buf with
    | null count =>
        exact answers_same mirrors _
    | bytes data =>
        simp only
        split
        · exact answers_same mirrors _
        · rw [stream]
          have positioned := positioned_streamAt sited around
            (movesOnly_writeBytes around data) word offset.toNat
          cases placed : Files.placeAt description content.inode
              offset.toNat with
          | error error =>
              have refused : Reference.seek content.data.length
                description.pos (.start offset.toNat) =
                  .error error := placed
              rw [refused] at positioned
              rw [positioned]
              exact answers_stayed mirrors here mirrors.stores rfl
          | ok place =>
              have found : Reference.seek content.data.length
                description.pos (.start offset.toNat) = .ok place := placed
              obtain ⟨next, does, stored⟩ := writeBytes_streamAt
                around.streams around.machine.ambient sited mirrors.stores
                (Reference.seek_word found) writes data
              rw [found] at positioned
              simp only [does] at positioned
              rw [positioned]
              exact answers_stayed mirrors here stored
                (Shelf.opened_write _ _ _ _ _)

theorem answers_ftruncate (sym : FtruncateSym) (fd length : Int) :
    AnswersAs (shimFtruncate around.machine sym fd length session)
      (files.serveFd around.outside (.ftruncate sym fd length)) := by
  refine answers_onWritable around charged mirrors
    fun description content here writes sited => ?_
  have stream : (openFileOf description).stream =
      description.streamAt description.pos := rfl
  split
  · exact answers_same mirrors _
  · obtain ⟨next, does, stored⟩ := setLen_streamAt
      around.streams around.machine.ambient sited description.pos
      mirrors.stores writes length.toNat
    rw [stream, does]
    exact answers_stayed mirrors here stored (Shelf.opened_setLen _ _ _ _)

theorem answers_fsync (fd : Int) :
    AnswersAs (shimFsync around.machine fd session)
      (files.serveFd around.outside (.fsync fd)) := by
  refine answers_onFd around charged mirrors
    fun description content here sited => ?_
  have stream : (openFileOf description).stream =
      description.streamAt description.pos := rfl
  rw [stream, flush_streamAt around.streams]
  exact answers_stayed mirrors here mirrors.stores rfl

theorem answers_fstat (sym : FstatSym) (fd : Int) (buf : Nat) :
    AnswersAs (fstatFd around.machine sym fd buf session)
      (files.serveFd around.outside (.fstat sym fd buf)) := by
  refine answers_onFd around charged mirrors
    fun description content here sited => ?_
  have stream : (openFileOf description).stream =
      description.streamAt description.pos := rfl
  rw [stream, size_streamAt around.streams _ sited]
  exact answers_stayed mirrors here mirrors.stores rfl

theorem answers_fstatvfs (fd : Int) (buf : Nat) :
    AnswersAs (shimFstatvfs around.machine fd buf session)
      (files.serveFd around.outside (.fstatvfs fd buf)) := by
  refine answers_onFd around charged mirrors
    fun description content here sited => ?_
  have same : (session.withVfs session.vfs) = session := rfl
  have info : MemoryFs.volumeInfo session.vfs =
      some ⟨files.capacity, files.capacity - files.used, 4096⟩ := by
    rw [← mirrors.stores.capacity, ← mirrors.stores.used]
    rfl
  refine ⟨?_, engine, mirrors⟩
  change Reply.mk 0 none (if buf = 0 then .nothing
    else .statvfs (fillStatvfs (MemoryFs.volumeInfo session.vfs))) = _
  rw [info]

theorem answers_fdopendir (fd : Int) :
    AnswersAs (shimFdopendir around.machine fd session)
      (files.serveFd around.outside (.fdopendir fd)) :=
  answers_onFd around charged mirrors
    fun _ _ _ _ => answers_same mirrors _

theorem answers_sendfile (outFd inFd : Int) (offset count : Nat) :
    AnswersAs (shimSendfile around.machine outFd inFd offset count session)
      (files.serveFd around.outside
        (.sendfile outFd inFd offset count)) :=
  answers_onFd around charged mirrors
    fun _ _ _ _ => answers_same mirrors _

theorem answers_close (fd : Int) :
    AnswersAs (shimClose around.machine fd session)
      (files.serveFd around.outside (.close fd)) := by
  refine answers_onFd around charged mirrors
    fun description content here sited => ?_
  rw [inner_openFileOf]
  exact ⟨rfl, mirrors.closedFd⟩

/-- `fchmod` looks at the access mode first, and is libc's otherwise. -/
theorem answers_fchmod (fd : Int) (mode : Flags) :
    AnswersAs (shimFchmod around.machine fd mode session)
      (files.serveFd around.outside (.fchmod fd mode)) := by
  have looked := mirrors.fds (fdKey fd)
  have asked : shimFchmod around.machine fd mode session =
      if denyWriteFd fd engine then fail (-1) Errno.EROFS session
      else pass around.machine (.fd (.fchmod fd mode)) session := by
    unfold shimFchmod
    rw [mirrors.outside, mirrors.active]
    simp only [Bool.false_eq_true, if_false]
  rw [asked]
  simp only [Files.serveFd, Files.onFd, Shelf.through]
  cases here : files.opened (.fd (fdKey fd)) with
  | none =>
      have allows : denyWriteFd fd engine = false := by
        unfold denyWriteFd
        rw [looked, here]
        rfl
      rw [allows]
      exact ⟨rfl, engine, mirrors⟩
  | some description =>
      obtain ⟨content, sited⟩ := Represents.sitedFd charged mirrors here
      have denies : denyWriteFd fd engine = !description.writes := by
        unfold denyWriteFd
        rw [looked, here]
        rfl
      simp only [mirrors.stores.found sited.present]
      rw [denies]
      cases description.writes with
      | false =>
          exact ⟨rfl, engine, mirrors⟩
      | true =>
          exact ⟨rfl, engine, mirrors⟩

theorem answers_fd (around : Surroundings) (call : FdCall) :
    AnswersAs (shimFd around.machine call session)
      (files.serveFd around.outside call) := by
  cases call with
  | read fd buf =>
      exact answers_read charged mirrors fd buf
  | readv fd iov iovcnt =>
      exact answers_readv charged mirrors fd iov iovcnt
  | pread fd buf offset =>
      exact answers_pread charged mirrors fd buf offset
  | lseek sym fd offset whence =>
      exact answers_lseek charged mirrors sym fd offset whence
  | write fd buf =>
      exact answers_write charged mirrors fd buf
  | writev fd iov iovcnt =>
      exact answers_writev charged mirrors fd iov iovcnt
  | pwrite fd buf offset =>
      exact answers_pwrite charged mirrors fd buf offset
  | ftruncate sym fd length =>
      exact answers_ftruncate charged mirrors sym fd length
  | fsync fd =>
      exact answers_fsync charged mirrors fd
  | fchmod fd mode =>
      exact answers_fchmod charged mirrors fd mode
  | fstat sym fd buf =>
      exact answers_fstat charged mirrors sym fd buf
  | fstatvfs fd buf =>
      exact answers_fstatvfs charged mirrors fd buf
  | fdopendir fd =>
      exact answers_fdopendir charged mirrors fd
  | sendfile outFd inFd offset count =>
      exact answers_sendfile charged mirrors outFd inFd offset count
  | close fd =>
      exact answers_close charged mirrors fd

/-! ### Callbacks -/

theorem answers_cookieRead (key : Nat) (buf : Sink) :
    AnswersAs (cookieCall around.machine (.read key buf) session)
      (files.serveFile (.read key buf)) := by
  refine answers_onFile charged mirrors
    fun description content here sited => ?_
  have word := mirrors.words _ _ here
  have stream : (cookieOf description).stream =
      description.streamAt description.pos := rfl
  split
  · exact answers_same mirrors _
  · split
    · exact answers_same mirrors _
    · rw [stream, readBytes_streamAt around.streams _ sited word]
      exact answers_cookieMoved mirrors mirrors.stores rfl
        (cursor_read_word sited word _)

theorem answers_cookieWrite (key : Nat) (buf : Source) :
    AnswersAs (cookieCall around.machine (.write key buf) session)
      (files.serveFile (.write key buf)) := by
  have looked := mirrors.cookies key
  simp only [Files.serveFile, Files.onFile, Shelf.through, cookieCall]
  cases here : files.opened (.file key) with
  | none =>
      rw [here, Option.map_none] at looked
      rw [looked]
      exact answers_same mirrors _
  | some description =>
      rw [here, Option.map_some] at looked
      rw [looked]
      obtain ⟨content, sited⟩ := Represents.sitedFile charged mirrors here
      have word := mirrors.words _ _ here
      have stream : (cookieOf description).stream =
          description.streamAt description.pos := rfl
      have kind : (cookieOf description).writable = description.writes := rfl
      simp only [mirrors.stores.found sited.present]
      rw [kind]
      by_cases writes : description.writes = true
      · unfold cookieWriteFrom withCookie
        rw [if_pos writes, if_pos writes, looked]
        cases buf with
        | null count =>
            simp only
            split
            · exact answers_same mirrors _
            · exact answers_same mirrors _
        | bytes data =>
            simp only
            split
            · exact answers_same mirrors _
            · obtain ⟨next, does, stored⟩ := writeBytes_streamAt
                around.streams around.machine.ambient sited mirrors.stores
                word writes data
              rw [stream, does]
              exact answers_cookieMoved mirrors stored
                (Shelf.opened_write _ _ _ _ _) (cursor_write_word _ _ word data _)
      · rw [if_neg writes, if_neg writes]
        exact answers_same mirrors _

theorem answers_cookieSeek (key : Nat) (offset whence : Int) :
    AnswersAs (cookieCall around.machine (.seek key offset whence) session)
      (files.serveFile (.seek key offset whence)) := by
  refine answers_onFile charged mirrors
    fun description content here sited => ?_
  have stream : (cookieOf description).stream =
      description.streamAt description.pos := rfl
  cases seekFrom whence offset with
  | none =>
      exact answers_same mirrors _
  | some target =>
      have does := seek_streamAt around.streams around.machine.ambient sited
        description.pos target
      have bytes : content.inode.data = content.data := rfl
      simp only [Files.seekTo]
      rw [stream, does, bytes]
      cases aimed : Reference.seek content.data.length description.pos
          target with
      | error error =>
          exact answers_cookieStayed mirrors here mirrors.stores
      | ok reached =>
          exact answers_cookieMoved mirrors mirrors.stores rfl
            (Reference.seek_word aimed)

theorem answers_cookieClose (key : Nat) :
    AnswersAs (cookieCall around.machine (.close key) session)
      (files.serveFile (.close key)) := by
  have looked := mirrors.cookies key
  simp only [Files.serveFile, Files.onFile, Shelf.through, cookieCall,
    cookieCloseState]
  cases here : files.opened (.file key) with
  | none =>
      rw [here, Option.map_none] at looked
      rw [looked]
      exact answers_same mirrors _
  | some description =>
      rw [here, Option.map_some] at looked
      rw [looked]
      obtain ⟨content, sited⟩ := Represents.sitedFile charged mirrors here
      have inner : (cookieOf description).stream.inner =
          .memory description.inode description.pos := inner_streamAt _ _
      simp only [mirrors.stores.found sited.present, inner]
      exact ⟨rfl, engine, mirrors.closedCookie⟩

theorem answers_file (around : Surroundings) (call : CookieCall) :
    AnswersAs (cookieCall around.machine call session)
      (files.serveFile call) := by
  cases call with
  | read key buf =>
      exact answers_cookieRead charged mirrors key buf
  | write key buf =>
      exact answers_cookieWrite charged mirrors key buf
  | seek key offset whence =>
      exact answers_cookieSeek charged mirrors key offset whence
  | close key =>
      exact answers_cookieClose charged mirrors key

end Calls

/-! ## Runs -/

theorem represents_serve {limit : Nat} (session : Session) (files : Files)
    (event : FileEvent) (here : Represents limit session files) :
    (session.serve event).1 = (files.serve event).1 ∧
      Represents limit (session.serve event).2 (files.serve event).2 := by
  obtain ⟨engine, mirrors⟩ := here.mirrors
  have forgiving := MemoryFs.forgiving_leaky
    (MemoryFs.accounts_counted limit)
  cases event with
  | fd around call =>
      obtain ⟨reply, after⟩ := answers_fd here.charged mirrors around call
      exact ⟨reply, after, owned_shimFd around forgiving here.charged call⟩
  | file around call =>
      obtain ⟨reply, after⟩ := answers_file here.charged mirrors around
        call
      exact ⟨reply, after,
        owned_cookieCall around forgiving here.charged call⟩

/-- The file `/v/a` of four bytes at most, open for both as 7. -/
def openedFiles : Files where
  capacity := 4
  used := 0
  inodes := Function.update (fun _ => none) 0 (some ⟨[], 2⟩)
  opened := Function.update (fun _ => none) (.fd 7)
    (some ⟨0, 0, true, "/v/a".toList⟩)

theorem represents_openedFiles :
    Represents 4 openedBoth.session openedFiles := by
  refine ⟨⟨openedEngine, rfl, rfl, ⟨rfl, rfl, fun id => ?_⟩, fun key => ?_,
    fun key => ?_, fun port description found => ?_⟩, openedBoth.charged⟩
  · by_cases first : id = 0
    · subst first
      rfl
    · have nothing : openedBoth.session.vfs.files.lookup id = none := by
        have keys : openedBoth.session.vfs.files.keys = [0] := by decide
        rw [AList.lookup_eq_none, AList.mem_keys, keys]
        exact fun inside => first (List.mem_singleton.mp inside)
      simp only [openedFiles, Function.update_of_ne first, nothing,
        Option.map_none]
  · by_cases opened : key = 7
    · subst opened
      rfl
    · have other : (Port.fd key) ≠ .fd 7 :=
        fun same => opened (Port.fd.inj same)
      simp only [openedFiles, Function.update_of_ne other, Option.map_none]
      exact (AList.lookup_insert_ne opened).trans rfl
  · simp only [openedFiles, Function.update_of_ne
      (show Port.file key ≠ .fd 7 from nofun), Option.map_none]
    rfl
  · by_cases here : port = .fd 7
    · subst here
      injection found with same
      subst same
      exact Nat.two_pow_pos 64
    · simp only [openedFiles, Function.update_of_ne here] at found
      cases found

end Hookfs.Unix
