import Hookfs.Unix.Files
import Hookfs.Unix.Owners
import Hookfs.Unix.Positioned

/-!
# Descriptors and streams against inodes

A session over an in-memory tree has inodes and open file descriptions, and
every operation on a stream of it is one on its description.
-/

namespace Hookfs.Unix

open Hookfs.Lib Hookfs.Vfs Hookfs.Posix Hookfs.Router Hookfs.Memory

open MemoryFs (Stream)

/-! ## The session and its files -/

/-- The registry's entry for a description. -/
def openFileOf (description : Description Text) : OpenFile Stream :=
  ⟨description.stream, description.tag, description.writes⟩

/-- The state behind a `FILE*` for a description. -/
def cookieOf (description : Description Text) : CookieState Stream :=
  ⟨description.stream, description.writes⟩

/-- The session has these files, outside of a hook and behind an engine. -/
structure Mirrors (session : Session) (engine : Engine Stream)
    (files : Files) : Prop where
  active : session.engine = some engine
  outside : session.inHook = false
  stores : Stores session.vfs files
  fds : ∀ key, engine.registry.getFile key =
    (files.opened (.fd key)).map openFileOf
  cookies : ∀ key, session.cookies.lookup key =
    (files.opened (.file key)).map cookieOf
  words : ∀ port description, files.opened port = some description →
    description.pos < 2 ^ 64

/-- The session has these files, and its volume is accounted for. -/
structure Represents (limit : Nat) (session : Session) (files : Files) :
    Prop where
  mirrors : ∃ engine, Mirrors session engine files
  charged : OwnedBy (MemoryFs.Leaky (MemoryFs.Counted limit)) session

/-- The shim answers as the files do, and leaves the session with them. -/
def AnswersAs (result : Result MemoryFs Stream) (answer : Reply × Files) :
    Prop :=
  result.reply = answer.1 ∧
    ∃ engine, Mirrors result.process engine answer.2

section Agreement

variable {session : Session} {engine : Engine Stream} {files : Files}
  {limit : Nat}

theorem opened_writeEach (id : Nat) (sources : List Source)
    (total pos : Nat) (files : Files) :
    (Files.writeEach id sources total pos files).2.2.opened =
      files.opened := by
  induction sources generalizing total pos files with
  | nil =>
      rfl
  | cons source rest inductionHypothesis =>
      cases source with
      | null count =>
          exact inductionHypothesis total pos files
      | bytes data =>
          unfold Files.writeEach
          split
          · exact inductionHypothesis total pos files
          · split
            · rfl
            · next inode _ =>
              have same := Shelf.opened_write pos data id inode files
              split
              · next count next outcome =>
                rw [outcome] at same
                split
                · exact same
                · exact (inductionHypothesis _ _ next).trans same
              · next error next outcome =>
                rw [outcome] at same
                split
                · exact same
                · exact same

/-- The volume changes, and no description. -/
theorem Mirrors.withVfs (mirrors : Mirrors session engine files)
    {fs : MemoryFs} {next : Files} (stores : Stores fs next)
    (same : next.opened = files.opened) :
    Mirrors (session.withVfs fs) engine next where
  active := mirrors.active
  outside := mirrors.outside
  stores := stores
  fds key := by
    rw [same]
    exact mirrors.fds key
  cookies key := by
    rw [same]
    exact mirrors.cookies key
  words port description found := by
    rw [same] at found
    exact mirrors.words port description found

/-- The cursor of a descriptor moves, and the volume may change. -/
theorem Mirrors.keepStream (mirrors : Mirrors session engine files)
    {fs : MemoryFs} {next : Files} (stores : Stores fs next)
    (same : next.opened = files.opened) {fd : Int}
    {description : Description Text} {pos : Nat} (word : pos < 2 ^ 64) :
    ∃ after, Mirrors
      (keepStream fd engine (openFileOf description)
        (description.streamAt pos) fs session) after
      (next.moveTo (.fd (fdKey fd)) description pos) := by
  have changed := mirrors.withVfs stores same
  refine ⟨{ engine with
    registry := engine.registry.putFile (fdKey fd)
      { openFileOf description with
        stream := description.streamAt pos } }, rfl, mirrors.outside,
    stores.reopened _, fun key => ?_, fun key => ?_,
    fun port other found => ?_⟩
  · unfold Registry.putFile Registry.getFile
    by_cases here : key = fdKey fd
    · subst here
      rw [AList.lookup_insert, Shelf.opened_moveTo_self]
      rfl
    · rw [AList.lookup_insert_ne here, Shelf.opened_moveTo_of_ne
        (fun equal => here (Port.fd.inj equal))]
      exact changed.fds key
  · rw [Shelf.opened_moveTo_of_ne
      (show Port.file key ≠ .fd (fdKey fd) from nofun)]
    exact changed.cookies key
  · by_cases here : port = .fd (fdKey fd)
    · subst here
      rw [Shelf.opened_moveTo_self] at found
      rw [← Option.some.inj found]
      exact word
    · rw [Shelf.opened_moveTo_of_ne here] at found
      exact changed.words port other found

/-- The cursor of a `FILE*` moves, and the volume may change. -/
theorem Mirrors.keepCookie (mirrors : Mirrors session engine files)
    {fs : MemoryFs} {next : Files} (stores : Stores fs next)
    (same : next.opened = files.opened) {key : Nat}
    {description : Description Text} {pos : Nat} (word : pos < 2 ^ 64) :
    Mirrors
      (keepCookie key (cookieOf description) (description.streamAt pos) fs
        session) engine
      (next.moveTo (.file key) description pos) := by
  have changed := mirrors.withVfs stores same
  refine ⟨mirrors.active, mirrors.outside, stores.reopened _,
    fun other => ?_, fun other => ?_, fun port other found => ?_⟩
  · rw [Shelf.opened_moveTo_of_ne
      (show Port.fd other ≠ .file key from nofun)]
    exact changed.fds other
  · unfold Unix.keepCookie
    by_cases here : other = key
    · subst here
      rw [AList.lookup_insert, Shelf.opened_moveTo_self]
      rfl
    · rw [AList.lookup_insert_ne here, Shelf.opened_moveTo_of_ne
        (fun equal => here (Port.file.inj equal))]
      exact changed.cookies other
  · by_cases here : port = .file key
    · subst here
      rw [Shelf.opened_moveTo_self] at found
      rw [← Option.some.inj found]
      exact word
    · rw [Shelf.opened_moveTo_of_ne here] at found
      exact changed.words port other found

/-! ### Closing -/

theorem Mirrors.closedFd (mirrors : Mirrors session engine files) {fd : Int}
    {description : Description Text} :
    ∃ after, Mirrors
      (closedFd fd engine (session.vfs.dropFile description.inode) session)
      after (files.close (.fd (fdKey fd)) description) := by
  have dropped := mirrors.stores.dropFile description.inode
  refine ⟨{ engine with
    registry := engine.registry.removeFile (fdKey fd) }, rfl,
    mirrors.outside, dropped.reopened _, fun key => ?_, fun key => ?_,
    fun port other found => ?_⟩
  · unfold Registry.removeFile Registry.getFile
    by_cases here : key = fdKey fd
    · subst here
      rw [AList.lookup_erase, Shelf.opened_close_self]
      rfl
    · rw [AList.lookup_erase_ne here, Shelf.opened_close_of_ne
        (fun equal => here (Port.fd.inj equal))]
      exact mirrors.fds key
  · rw [Shelf.opened_close_of_ne
      (show Port.file key ≠ .fd (fdKey fd) from nofun)]
    exact mirrors.cookies key
  · by_cases here : port = .fd (fdKey fd)
    · subst here
      rw [Shelf.opened_close_self] at found
      cases found
    · rw [Shelf.opened_close_of_ne here] at found
      exact mirrors.words port other found

theorem Mirrors.closedCookie (mirrors : Mirrors session engine files)
    {key : Nat} {description : Description Text} :
    Mirrors
      (closedCookie key (session.vfs.dropFile description.inode) session)
      engine (files.close (.file key) description) := by
  have dropped := mirrors.stores.dropFile description.inode
  refine ⟨mirrors.active, mirrors.outside, dropped.reopened _,
    fun other => ?_, fun other => ?_, fun port other found => ?_⟩
  · rw [Shelf.opened_close_of_ne
      (show Port.fd other ≠ .file key from nofun)]
    exact mirrors.fds other
  · unfold Unix.closedCookie
    by_cases here : other = key
    · subst here
      rw [AList.lookup_erase, Shelf.opened_close_self]
      rfl
    · rw [AList.lookup_erase_ne here, Shelf.opened_close_of_ne
        (fun equal => here (Port.file.inj equal))]
      exact mirrors.cookies other
  · by_cases here : port = .file key
    · subst here
      rw [Shelf.opened_close_self] at found
      cases found
    · rw [Shelf.opened_close_of_ne here] at found
      exact mirrors.words port other found

/-! ### Through a port -/

theorem inner_openFileOf (description : Description Text) :
    (openFileOf description).stream.inner =
      .memory description.inode description.pos :=
  inner_streamAt _ _

/-- The file of an open descriptor is in the volume. -/
theorem Represents.sitedFd (charged : OwnedBy
      (MemoryFs.Leaky (MemoryFs.Counted limit)) session)
    (mirrors : Mirrors session engine files) {fd : Int}
    {description : Description Text}
    (here : files.opened (.fd (fdKey fd)) = some description) :
    ∃ content, Sited limit session.vfs description.inode content := by
  have registered : engine.registry.getFile (fdKey fd) =
      some (openFileOf description) := by
    rw [mirrors.fds, here, Option.map_some]
  obtain ⟨content, present⟩ := charged.present
    (MemoryFs.accounts_counted limit).leaky mirrors.active registered
    (inner_openFileOf description)
  exact ⟨content, sited_of_leaky charged present⟩

/-- So is that of an open `FILE*`. -/
theorem Represents.sitedFile (charged : OwnedBy
      (MemoryFs.Leaky (MemoryFs.Counted limit)) session)
    (mirrors : Mirrors session engine files) {key : Nat}
    {description : Description Text}
    (here : files.opened (.file key) = some description) :
    ∃ content, Sited limit session.vfs description.inode content := by
  have stored : session.cookies.lookup key =
      some (cookieOf description) := by
    rw [mirrors.cookies, here, Option.map_some]
  have held := holds_closedCookie session.vfs stored
  have owned : MemoryFs.Leaky (MemoryFs.Counted limit) session.vfs
      (Session.holds (Unix.closedCookie key session.vfs session) +
        one description.inode) := by
    have inner : (cookieOf description).stream.inner.holds =
        one description.inode := by
      have same : (cookieOf description).stream.inner =
          .memory description.inode description.pos := inner_streamAt _ _
      rw [same]
      rfl
    rw [← inner, ← held]
    exact charged
  obtain ⟨content, present⟩ :=
    (MemoryFs.accounts_counted limit).leaky.present owned
  exact ⟨content, sited_of_leaky charged present⟩

variable (around : Surroundings)

/-- A call on a descriptor is answered alike if it is on an open one. -/
theorem answers_onFd (charged : OwnedBy
      (MemoryFs.Leaky (MemoryFs.Counted limit)) session)
    (mirrors : Mirrors session engine files) {call : FdCall} {fd : Int}
    {served : Engine Stream → OpenFile Stream → Session →
      Result MemoryFs Stream}
    {meant : Description Text → Inode → Reply × Files}
    (alike : ∀ description content,
      files.opened (.fd (fdKey fd)) = some description →
        Sited limit session.vfs description.inode content →
          AnswersAs (served engine (openFileOf description) session)
            (meant description content.inode)) :
    AnswersAs (withFile around.machine call fd served session)
      (files.onFd around.outside call fd meant) := by
  have looked := mirrors.fds (fdKey fd)
  unfold Files.onFd Shelf.through
  cases here : files.opened (.fd (fdKey fd)) with
  | none =>
      rw [here, Option.map_none] at looked
      rw [withFile_miss mirrors.outside mirrors.active looked]
      exact ⟨rfl, engine, mirrors⟩
  | some description =>
      rw [here, Option.map_some] at looked
      rw [withFile_hit mirrors.outside mirrors.active looked]
      obtain ⟨content, sited⟩ := Represents.sitedFd charged mirrors here
      simp only [mirrors.stores.found sited.present]
      exact alike description content here sited

theorem answers_onWritable (charged : OwnedBy
      (MemoryFs.Leaky (MemoryFs.Counted limit)) session)
    (mirrors : Mirrors session engine files) {call : FdCall} {fd : Int}
    {served : Engine Stream → OpenFile Stream → Session →
      Result MemoryFs Stream}
    {meant : Description Text → Inode → Reply × Files}
    (alike : ∀ description content,
      files.opened (.fd (fdKey fd)) = some description →
        description.writes = true →
        Sited limit session.vfs description.inode content →
          AnswersAs (served engine (openFileOf description) session)
            (meant description content.inode)) :
    AnswersAs (withWritable around.machine call fd served session)
      (files.onWritable around.outside call fd meant) := by
  refine answers_onFd around charged mirrors
    fun description content here sited => ?_
  have kind : (openFileOf description).writable = description.writes := rfl
  by_cases writes : description.writes = true
  · rw [kind, if_neg (by rw [writes]; exact Bool.false_ne_true),
      if_pos writes]
    exact alike description content here writes sited
  · rw [kind, if_pos (by simpa using writes), if_neg writes]
    exact ⟨rfl, engine, mirrors⟩

/-- A callback is answered alike if it is of an open `FILE*`. -/
theorem answers_onFile (charged : OwnedBy
      (MemoryFs.Leaky (MemoryFs.Counted limit)) session)
    (mirrors : Mirrors session engine files) {key : Nat}
    {served : CookieState Stream → Session → Result MemoryFs Stream}
    {meant : Description Text → Inode → Reply × Files}
    (alike : ∀ description content,
      files.opened (.file key) = some description →
        Sited limit session.vfs description.inode content →
          AnswersAs (served (cookieOf description) session)
            (meant description content.inode)) :
    AnswersAs (withCookie key served session)
      (files.onFile key (Files.denied Errno.EINVAL) meant) := by
  have looked := mirrors.cookies key
  unfold Files.onFile Shelf.through withCookie
  cases here : files.opened (.file key) with
  | none =>
      rw [here, Option.map_none] at looked
      rw [looked]
      exact ⟨rfl, engine, mirrors⟩
  | some description =>
      rw [here, Option.map_some] at looked
      rw [looked]
      obtain ⟨content, sited⟩ := Represents.sitedFile charged mirrors here
      simp only [mirrors.stores.found sited.present]
      exact alike description content here sited

end Agreement

/-! ## Operations on the stream of a description -/

section Streams

variable {around : Surroundings} {fs : MemoryFs} {files : Files}
  {limit pos : Nat} {description : Description Text} {content : MemFile}
  {outside : Nat → Nat}

/-- The streams of the machine are those of the tree. -/
theorem Surroundings.streams (around : Surroundings) :
    StreamsInMemory around.machine.provider :=
  ⟨rfl, rfl, rfl, rfl, rfl, rfl, rfl, rfl⟩

variable (sited : Sited limit fs description.inode content)
include sited

omit sited in
theorem moved_streamAt (at_ : Nat) :
    moved (description.streamAt pos) at_ = description.streamAt at_ := by
  unfold moved
  rw [inner_streamAt]
  exact replace_streamAt pos at_ description

/-- A positioned operation happens at its place, and the cursor stays. -/
theorem positioned_streamAt (around : Surroundings) {Value : Type}
    {operate : OpenStream Stream → MemoryFs →
      Except IoError Value × OpenStream Stream × MemoryFs}
    (moves : MovesOnly operate) (word : pos < 2 ^ 64) (offset : Nat) :
    positioned around.machine offset operate (description.streamAt pos) fs =
      match Reference.seek content.data.length pos (.start offset) with
      | .error error => (.error error, description.streamAt pos, fs)
      | .ok place =>
          ((operate (description.streamAt place) fs).1,
            description.streamAt pos,
            (operate (description.streamAt place) fs).2.2) := by
  have cursor : (description.streamAt pos).inner.position = pos := by
    rw [inner_streamAt]
    rfl
  have within : pos ≤ wordMax := by
    unfold wordMax
    omega
  have start : Reference.sought content.data.length pos (.start offset) =
      offset := rfl
  by_cases short : offset ≤ wordMax
  · have placed : Reference.seek content.data.length pos (.start offset) =
        .ok offset := by
      unfold wordMax at short
      unfold Reference.seek
      rw [start, if_neg (by omega), if_pos (by omega), Int.toNat_natCast]
    rw [positioned_eq around moves short (by rw [cursor]; exact within),
      moved_streamAt, placed]
  · -- no stream has such a place, and the cursor is put back anyway
    have refused : Reference.seek content.data.length pos (.start offset) =
        .error (.custom .invalidInput "seek offset overflow") := by
      unfold wordMax at short
      unfold Reference.seek
      rw [start, if_neg (by omega), if_neg (by omega)]
    have saved : (description.streamAt pos).streamPosition
        around.machine.provider around.machine.ambient fs =
          (.ok pos, description.streamAt pos, fs) := by
      unfold Description.streamAt
      split
      · rfl
      · rfl
    have aimed := seek_streamAt
      around.streams around.machine.ambient sited pos
      (.start offset)
    rw [refused] at aimed ⊢
    unfold positioned
    simp only [saved, aimed, seek_start_eq around within, moved_streamAt]

/-- The loop of `readv` fills the sinks that are not null from one read. -/
theorem readvLoop_streamAt (sinks : List Sink) (word : pos < 2 ^ 64)
    (pieces : List (Nat × List UInt8)) (total : Nat) :
    readvLoop around.machine sinks pieces total (description.streamAt pos)
        fs =
      (⟨((total + (content.inode.read pos
          (room (Files.usable sinks))).length : Nat) : Int), none,
        .vectors (pieces ++ scatter (Files.usable sinks)
          (content.inode.read pos (room (Files.usable sinks))))⟩,
        description.streamAt (pos + (content.inode.read pos
          (room (Files.usable sinks))).length), fs) := by
  induction sinks generalizing pos pieces total with
  | nil =>
      have nothing : content.inode.read pos (room []) = [] := List.take_zero
      simp only [Files.usable, List.filter_nil, nothing, scatter,
        List.length_nil, List.append_nil, Nat.add_zero]
      rfl
  | cons sink rest inductionHypothesis =>
      by_cases null : sink.base = 0
      · have skipped : Files.usable (sink :: rest) = Files.usable rest := by
          unfold Files.usable
          rw [List.filter_cons_of_neg (by simpa using null)]
        unfold readvLoop
        rw [if_pos (.inr null), skipped]
        exact inductionHypothesis word pieces total
      · have taken : Files.usable (sink :: rest) =
            sink :: Files.usable rest := by
          unfold Files.usable
          rw [List.filter_cons_of_pos (by simpa using null)]
        rw [taken, room_cons]
        by_cases empty : sink.len = 0
        · have skipped (bytes : List UInt8) :
              scatter (sink :: Files.usable rest) bytes =
                scatter (Files.usable rest) bytes := by
            rw [scatter, if_pos (.inl empty)]
          unfold readvLoop
          rw [if_pos (.inl empty), empty, Nat.zero_add, skipped]
          exact inductionHypothesis word pieces total
        · obtain ⟨bytes, bytesEq⟩ : ∃ bytes,
              bytes = content.inode.read pos sink.len := ⟨_, rfl⟩
          have read := readBytes_streamAt
            around.streams around.machine.ambient sited word
            sink.len
          have further := cursor_read_word sited word sink.len
          rw [← bytesEq] at read further
          obtain ⟨others, othersEq⟩ : ∃ others, others =
              content.inode.read (pos + sink.len)
                (room (Files.usable rest)) := ⟨_, rfl⟩
          have joined : content.inode.read pos
              (sink.len + room (Files.usable rest)) = bytes ++ others := by
            rw [bytesEq, othersEq]
            unfold Inode.read
            rw [List.take_add, List.drop_drop]
          have fits : bytes.length ≤ sink.len := by
            rw [bytesEq]
            exact List.length_take_le _ _
          have ended (short : bytes.length < sink.len) : others = [] := by
            rw [bytesEq] at short
            unfold Inode.read at short
            rw [List.length_take, List.length_drop] at short
            rw [othersEq]
            unfold Inode.read
            rw [List.drop_eq_nil_of_le (by omega), List.take_nil]
          rw [joined]
          unfold readvLoop
          rw [if_neg (by omega)]
          simp only [read]
          by_cases none : bytes.length = 0
          · -- the end of the file, before this sink
            have nothing := List.eq_nil_of_length_eq_zero none
            rw [if_pos none, ended (by omega), nothing, List.append_nil,
              scatter_nil, List.append_nil, List.length_nil, Nat.add_zero,
              Nat.add_zero]
          · have some : bytes ≠ [] := by
              intro empty
              exact none (congrArg List.length empty)
            rw [if_neg none]
            by_cases short : bytes.length < sink.len
            · -- the end of the file, inside this sink
              rw [if_pos short, scatter_cons some fits _ others
                  (.inr (ended short)), ended short, scatter_nil,
                List.append_nil]
              rfl
            · have whole : bytes.length = sink.len := by omega
              have later := inductionHypothesis further
                (pieces ++ [(sink.base, bytes)]) (total + bytes.length)
              rw [whole, ← othersEq] at later
              rw [if_neg short, whole, later,
                scatter_cons some fits _ others (.inl whole),
                List.length_append, List.append_assoc, whole]
              simp only [Nat.add_assoc]
              rfl

omit sited in
/-- The loop of `writev` writes the buffers one after the other. -/
theorem writevLoop_streamAt (around : Surroundings) (sources : List Source)
    (charged : MemoryFs.Leaky (MemoryFs.Counted limit) fs
      (outside + one description.inode))
    (stores : Stores fs files) (word : pos < 2 ^ 64)
    (writes : description.writes = true) (total : Nat) :
    ∃ next, writevLoop around.machine sources total
        (description.streamAt pos) fs =
        ((Files.writeEach description.inode sources total pos files).1,
          description.streamAt
            (Files.writeEach description.inode sources total pos files).2.1,
          next) ∧
      Stores next
        (Files.writeEach description.inode sources total pos files).2.2 ∧
      (Files.writeEach description.inode sources total pos files).2.1 <
        2 ^ 64 := by
  induction sources generalizing fs files pos total with
  | nil =>
      exact ⟨fs, rfl, stores, word⟩
  | cons source rest inductionHypothesis =>
      cases source with
      | null count =>
          exact inductionHypothesis charged stores word total
      | bytes data =>
          by_cases empty : data.length = 0
          · have skipped : Files.writeEach description.inode
                (.bytes data :: rest) total pos files =
              Files.writeEach description.inode rest total pos files := by
              rw [Files.writeEach, if_pos empty]
            rw [skipped, writevLoop, if_pos empty]
            exact inductionHypothesis charged stores word total
          · have accounts :=
              (MemoryFs.accounts_counted limit).leaky
            obtain ⟨content, present⟩ := accounts.present charged
            have sited := sited_of_leaky charged present
            obtain ⟨next, does, stored⟩ := writeBytes_streamAt
              around.streams around.machine.ambient sited stores
              word writes data
            have further := cursor_write_word files description word data
              content.inode
            have after := (conserves_writeBytes around.ambient accounts data
              (description.streamAt pos) fs _ charged).1
            have same : OpenStream.writeBytes MemoryFs.provider
                around.ambient data (description.streamAt pos) fs =
                  (_, _, next) := does
            rw [same] at after
            rw [Files.writeEach, if_neg empty, stores.found present,
              writevLoop, if_neg empty, does]
            simp only
            rcases outcome : files.write pos data description.inode
              content.inode with ⟨result, shelf⟩
            rw [outcome] at stored further
            cases result with
            | error error =>
                simp only
                split
                · exact ⟨next, rfl, stored, further⟩
                · exact ⟨next, rfl, stored, further⟩
            | ok count =>
                simp only [cursorAfter] at further ⊢
                split
                · exact ⟨next, rfl, stored, further⟩
                · exact inductionHypothesis after stored further
                    (total + count)

end Streams

end Hookfs.Unix
