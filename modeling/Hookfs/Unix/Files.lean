import Hookfs.Memory.Inodes
import Hookfs.Unix.Vectored

/-!
# Files

What the hooked calls on descriptors and the callbacks of virtual `FILE*`s
mean for inodes and open file descriptions.
-/

namespace Hookfs.Unix

open Hookfs.Lib Hookfs.Vfs Hookfs.Posix Hookfs.Router Hookfs.Memory

open MemoryFs (Stream)

/-! ## What the calls mean -/

/-- Descriptions are behind descriptors and behind `FILE*`s. -/
inductive Port where
  | fd (key : Nat)
  | file (key : Nat)
  deriving DecidableEq, Repr

/-- The files and the descriptions of a process; a description is tagged with
the path of its `open`. -/
abbrev Files := Shelf Port Text

/-- What answers beside the files: libc, and the hasher of inode numbers. -/
structure Outside where
  original : FdCall → Reply
  hasher : Text → Nat

namespace Files

def denied (errno : Nat) : Reply := ⟨-1, some errno, .nothing⟩

def zero : Reply := ⟨0, none, .nothing⟩

/-- A call on a descriptor; libc has those without a description. -/
def onFd (outside : Outside) (call : FdCall) (fd : Int) (files : Files)
    (served : Description Text → Inode → Reply × Files) : Reply × Files :=
  files.through (.fd (fdKey fd)) (outside.original call, files) served

/-- A call that needs write access. -/
def onWritable (outside : Outside) (call : FdCall) (fd : Int) (files : Files)
    (served : Description Text → Inode → Reply × Files) : Reply × Files :=
  files.onFd outside call fd fun description inode =>
    if description.writes then served description inode
    else (denied Errno.EROFS, files)

/-- The sinks that are not null. -/
def usable (sinks : List Sink) : List Sink :=
  sinks.filter fun sink => sink.base ≠ 0

/-- Read from the cursor, which moves behind what was read. -/
def readFrom (port : Port) (description : Description Text) (inode : Inode)
    (len : Nat) (out : List UInt8 → Output) (files : Files) :
    Reply × Files :=
  let bytes := inode.read description.pos len
  (⟨bytes.length, none, out bytes⟩,
    files.moveTo port description (description.pos + bytes.length))

/-- Write at the cursor, which moves behind what was written. -/
def writeTo (port : Port) (description : Description Text) (inode : Inode)
    (data : List UInt8) (files : Files) : Reply × Files :=
  let (result, next) := files.write description.pos data description.inode
    inode
  (countReply (fun _ => .nothing) result,
    next.moveTo port description (cursorAfter description.pos result))

def seekTo (port : Port) (description : Description Text) (inode : Inode)
    (target : SeekFrom) (files : Files) : Reply × Files :=
  match Reference.seek inode.data.length description.pos target with
  | .error error => (positionReply (.error error), files)
  | .ok pos => (positionReply (.ok pos), files.moveTo port description pos)

/-- The place of a transfer that leaves the cursor alone. -/
def placeAt (description : Description Text) (inode : Inode)
    (offset : Nat) : Except IoError Nat :=
  Reference.seek inode.data.length description.pos (.start offset)

/-- Write at a place; the cursor stays. -/
def putAt (pos : Nat) (description : Description Text) (inode : Inode)
    (data : List UInt8) (files : Files) : Reply × Files :=
  let (result, next) := files.write pos data description.inode inode
  (countReply (fun _ => .nothing) result, next)

/-- Write buffers one after the other, until one does not fit; an error
counts if nothing was written. -/
def writeEach (id : Nat) : List Source → Nat → Nat → Files →
    Reply × Nat × Files
  | [], total, pos, files => (⟨total, none, .nothing⟩, pos, files)
  | .null _ :: rest, total, pos, files => writeEach id rest total pos files
  | .bytes data :: rest, total, pos, files =>
      if data.length = 0 then writeEach id rest total pos files
      else
        match files.inodes id with
        | none => (⟨total, none, .nothing⟩, pos, files)
        | some inode =>
            match files.write pos data id inode with
            | (.ok count, next) =>
                if count < data.length then
                  (⟨total + count, none, .nothing⟩, pos + count, next)
                else writeEach id rest (total + count) (pos + count) next
            | (.error error, next) =>
                if total = 0 then (denied (ioToErrno error), pos, next)
                else (⟨total, none, .nothing⟩, pos, next)

/-- The calls on descriptors. -/
def serveFd (outside : Outside) (files : Files) (call : FdCall) :
    Reply × Files :=
  match call with
  | .read fd buf =>
      files.onFd outside call fd fun description inode =>
        if buf.len = 0 then (zero, files)
        else if buf.base = 0 then (denied Errno.EFAULT, files)
        else
          files.readFrom (.fd (fdKey fd)) description inode buf.len .bytes
  | .readv fd iov iovcnt =>
      files.onFd outside call fd fun description inode =>
        match iov with
        | none => (denied Errno.EINVAL, files)
        | some sinks =>
            if iovcnt < 0 then (denied Errno.EINVAL, files)
            else
              let wanted := usable (sinks.take iovcnt.toNat)
              files.readFrom (.fd (fdKey fd)) description inode (room wanted)
                fun bytes => .vectors (scatter wanted bytes)
  | .pread fd buf offset =>
      files.onFd outside call fd fun description inode =>
        if buf.len = 0 then (zero, files)
        else if buf.base = 0 then (denied Errno.EFAULT, files)
        else if offset < 0 then (denied Errno.EINVAL, files)
        else
          match placeAt description inode offset.toNat with
          | .error error => (denied (ioToErrno error), files)
          | .ok pos => (bytesReply (.ok (inode.read pos buf.len)), files)
  | .lseek _ fd offset whence =>
      files.onFd outside call fd fun description inode =>
        match seekFrom whence offset with
        | none => (denied Errno.EINVAL, files)
        | some target =>
            files.seekTo (.fd (fdKey fd)) description inode target
  | .write fd buf =>
      files.onWritable outside call fd fun description inode =>
        if buf.count = 0 then (zero, files)
        else
          match buf with
          | .null _ => (denied Errno.EFAULT, files)
          | .bytes data =>
              files.writeTo (.fd (fdKey fd)) description inode data
  | .writev fd iov iovcnt =>
      files.onWritable outside call fd fun description _ =>
        match iov with
        | none => (denied Errno.EINVAL, files)
        | some sources =>
            if iovcnt < 0 then (denied Errno.EINVAL, files)
            else
              let (reply, pos, next) := writeEach description.inode
                (sources.take iovcnt.toNat) 0 description.pos files
              (reply, next.moveTo (.fd (fdKey fd)) description pos)
  | .pwrite fd buf offset =>
      files.onWritable outside call fd fun description inode =>
        if buf.count = 0 then (zero, files)
        else
          match buf with
          | .null _ => (denied Errno.EFAULT, files)
          | .bytes data =>
              if offset < 0 then (denied Errno.EINVAL, files)
              else
                match placeAt description inode offset.toNat with
                | .error error => (denied (ioToErrno error), files)
                | .ok pos => files.putAt pos description inode data
  | .ftruncate _ fd length =>
      files.onWritable outside call fd fun description inode =>
        if length < 0 then (denied Errno.EINVAL, files)
        else
          let (result, next) := files.setLen length.toNat description.inode
            inode
          (unitReply result, next)
  | .fsync fd => files.onFd outside call fd fun _ _ => (zero, files)
  | .fchmod fd _ =>
      files.onFd outside call fd fun description _ =>
        (if description.writes then outside.original call
          else denied Errno.EROFS, files)
  | .fstat _ fd buf =>
      files.onFd outside call fd fun description inode =>
        (⟨0, none, if buf = 0 then .nothing
          else .stat (fillStat outside.hasher description.tag
            (.file inode.data.length))⟩, files)
  | .fstatvfs fd buf =>
      files.onFd outside call fd fun _ _ =>
        (⟨0, none, if buf = 0 then .nothing
          else .statvfs (fillStatvfs (some
            ⟨files.capacity, files.capacity - files.used, 4096⟩))⟩, files)
  | .fdopendir fd =>
      files.onFd outside call fd fun _ _ =>
        (⟨0, some Errno.ENOTDIR, .nothing⟩, files)
  | .sendfile _ inFd _ _ =>
      files.onFd outside call inFd fun _ _ => (denied Errno.EINVAL, files)
  | .close fd =>
      files.onFd outside call fd fun description _ =>
        (outside.original call, files.close (.fd (fdKey fd)) description)

/-- A callback of a `FILE*`; there is no libc behind it. -/
def onFile (key : Nat) (missing : Reply) (files : Files)
    (served : Description Text → Inode → Reply × Files) : Reply × Files :=
  files.through (.file key) (missing, files) served

/-- The callbacks of `FILE*`s. -/
def serveFile (files : Files) (call : CookieCall) : Reply × Files :=
  match call with
  | .read key buf =>
      files.onFile key (denied Errno.EINVAL) fun description inode =>
        if buf.base = 0 ∧ buf.len ≠ 0 then (denied Errno.EINVAL, files)
        else if buf.len = 0 then (zero, files)
        else files.readFrom (.file key) description inode buf.len .bytes
  | .write key buf =>
      files.onFile key (denied Errno.EINVAL) fun description inode =>
        if description.writes then
          match buf with
          | .null count =>
              (if count ≠ 0 then denied Errno.EINVAL else zero, files)
          | .bytes data =>
              if data.length = 0 then (zero, files)
              else files.writeTo (.file key) description inode data
        else (zero, files)
  | .seek key offset whence =>
      files.onFile key (denied Errno.EINVAL) fun description inode =>
        match seekFrom whence offset with
        | none => (denied Errno.EINVAL, files)
        | some target => files.seekTo (.file key) description inode target
  | .close key =>
      files.onFile key zero fun description _ =>
        (zero, files.close (.file key) description)

end Files

/-! ## The shims -/

/-- A call on a descriptor, or a callback of a `FILE*`. -/
inductive FileEvent where
  | fd (around : Surroundings) (call : FdCall)
  | file (around : Surroundings) (call : CookieCall)

/-- What the files see of the surroundings. -/
def Surroundings.outside (around : Surroundings) : Outside where
  original call := around.os (.original (.fd call))
  hasher := around.hasher

def Session.serve (session : Session) : FileEvent → Reply × Session
  | .fd around call =>
      let result := shimFd around.machine call session
      (result.reply, result.process)
  | .file around call =>
      let result := cookieCall around.machine call session
      (result.reply, result.process)

def Files.serve (files : Files) : FileEvent → Reply × Files
  | .fd around call => files.serveFd around.outside call
  | .file _ call => files.serveFile call

end Hookfs.Unix
