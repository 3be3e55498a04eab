import Hookfs.Router.Engine
import Hookfs.Unix.Libc

/-!
# The shims

Every hooked call of the Linux symbol set as a function of the process
state.  A shim answers by itself or asks libc; what it asks is recorded in
order, and the answers come from the machine around it.
-/

namespace Hookfs.Unix

open Hookfs.Lib Hookfs.Vfs Hookfs.Posix Hookfs.Router

variable {Ambient State Stream : Type}

/-! ## Process and machine -/

/-- `CookieState`: the stream behind a virtual `FILE*`. -/
structure CookieState (Stream : Type) where
  stream : OpenStream Stream
  writable : Bool
  deriving DecidableEq, Repr

/-- One process, on one thread: the provider's state, the active engine, the
cookies by `FILE*`, and the thread's `IN_HOOK` flag. -/
structure Process (State Stream : Type) where
  vfs : State
  engine : Option (Engine Stream)
  cookies : Store Nat (CookieState Stream)
  inHook : Bool

/-- What surrounds one call. -/
structure Machine (Ambient State Stream : Type) where
  provider : VirtualFs Ambient State Stream
  ambient : Ambient
  os : LibcCall → Reply
  hasher : Text → Nat

/-- The outcome of a shim: its reply, what it asked of libc, and the process
afterwards. -/
structure Result (State Stream : Type) where
  reply : Reply
  calls : List LibcCall
  process : Process State Stream

def fail (ret : Int) (errno : Nat) (process : Process State Stream) :
    Result State Stream where
  reply := ⟨ret, some errno, .nothing⟩
  calls := []
  process := process

def succeed (ret : Int) (out : Output) (process : Process State Stream) :
    Result State Stream where
  reply := ⟨ret, none, out⟩
  calls := []
  process := process

/-- Call the original with the caller's arguments. -/
def pass (machine : Machine Ambient State Stream) (call : Call)
    (process : Process State Stream) : Result State Stream where
  reply := machine.os (.original call)
  calls := [.original call]
  process := process

namespace Process

def withVfs (vfs : State) (process : Process State Stream) :
    Process State Stream :=
  { process with vfs := vfs }

def withEngine (engine : Engine Stream) (process : Process State Stream) :
    Process State Stream :=
  { process with engine := some engine }

/-- `route`: `none` without an active engine. -/
def route (decoded : Text) (process : Process State Stream) :
    Option (Engine Stream × Route) :=
  process.engine.map fun engine => (engine, engine.classify decoded)

end Process

section Shims

variable (machine : Machine Ambient State Stream)

/-! ## Routing -/

/-- The beginning of every path-routed shim: outside of a hook and with a
decodable path, the route decides. -/
def routed (call : PathCall)
    (rejected : Process State Stream → Result State Stream)
    (served : Engine Stream → Text → Process State Stream →
      Result State Stream)
    (process : Process State Stream) : Result State Stream :=
  if process.inHook then pass machine (.path call) process
  else
    match decodeCstr call.path with
    | none => pass machine (.path call) process
    | some decoded =>
        match process.route decoded with
        | none => pass machine (.path call) process
        | some (_, .real) => pass machine (.path call) process
        | some (_, .rejected) => rejected process
        | some (engine, .virtual path) => served engine path process

/-- `fd as usize`. -/
def fdKey (fd : Int) : Nat :=
  (fd % 2 ^ 64).toNat

/-- The beginning of every fd-routed shim: outside of a hook, the registry
decides. -/
def withFile (call : FdCall) (fd : Int)
    (served : Engine Stream → OpenFile Stream → Process State Stream →
      Result State Stream)
    (process : Process State Stream) : Result State Stream :=
  if process.inHook then pass machine (.fd call) process
  else
    match process.engine with
    | none => pass machine (.fd call) process
    | some engine =>
        match engine.registry.getFile (fdKey fd) with
        | none => pass machine (.fd call) process
        | some file => served engine file process

/-- Write back the stream of a locked file, and the provider's state. -/
def keepStream (fd : Int) (engine : Engine Stream) (file : OpenFile Stream)
    (stream : OpenStream Stream) (vfs : State)
    (process : Process State Stream) : Process State Stream :=
  (process.withVfs vfs).withEngine
    { engine with
      registry := engine.registry.putFile (fdKey fd)
        { file with stream := stream } }

/-! ## Opening -/

/-- `Registry::insert_file`; a file already behind the handle is dropped. -/
def insertFile (fd : Int) (engine : Engine Stream) (file : OpenFile Stream)
    (process : Process State Stream) : Process State Stream :=
  let kept := process.withEngine
    { engine with registry := engine.registry.putFile (fdKey fd) file }
  match engine.registry.getFile (fdKey fd) with
  | none => kept
  | some old =>
      kept.withVfs
        (machine.provider.drop machine.ambient old.stream.inner kept.vfs)

/-- Whether `open` flags ask for write access. -/
def wantsWrite (flags : Flags) : Bool :=
  flags &&& (O_WRONLY ||| O_RDWR) ≠ 0

/-- The options of `open` flags. -/
def openOptions (flags : Flags) : OpenOptions where
  read := flags &&& O_WRONLY = 0
  write := wantsWrite flags
  create := flags &&& O_CREAT ≠ 0
  createNew := flags &&& (O_CREAT ||| O_EXCL) = O_CREAT ||| O_EXCL
  truncate := flags &&& O_TRUNC ≠ 0
  append := flags &&& O_APPEND ≠ 0

/-- Open a stream for reading or for writing, as the options ask. -/
def openStream (path : Text) (opts : OpenOptions) (vfs : State) :
    Option (Except IoError (OpenStream Stream)) × State :=
  if opts.write then
    let (opened, next) :=
      machine.provider.openWrite machine.ambient path opts vfs
    (opened.map (·.map .write), next)
  else
    let (opened, next) := machine.provider.open machine.ambient path opts vfs
    (opened.map (·.map .read), next)

def openVirtualFd (flags : Flags) (engine : Engine Stream) (path : Text)
    (process : Process State Stream) : Result State Stream :=
  if wantsWrite flags && !engine.allowWrites then
    fail (-1) Errno.EROFS process
  else
    let (opened, vfs) := openStream machine path (openOptions flags)
      process.vfs
    match opened with
    | none => fail (-1) Errno.ENOENT (process.withVfs vfs)
    | some (.error error) =>
        fail (-1) (ioToErrno error) (process.withVfs vfs)
    | some (.ok stream) =>
        let carrier := machine.os .carrier
        if carrier.ret < 0 then
          { reply := ⟨-1, some Errno.EMFILE, .nothing⟩
            calls := [.carrier]
            process := process.withVfs
              (machine.provider.drop machine.ambient stream.inner vfs) }
        else
          { reply := ⟨carrier.ret, none, .nothing⟩
            calls := [.carrier]
            process := insertFile machine carrier.ret engine
              ⟨stream, path, wantsWrite flags⟩ (process.withVfs vfs) }

def openImpl (sym : OpenSym) (path : CStr) (flags mode : Flags) :
    Process State Stream → Result State Stream :=
  routed machine (.open sym path flags mode) (fail (-1) Errno.ENOENT)
    (openVirtualFd machine flags)

def openatEntry (dirfd : Int) (path : CStr) (flags mode : Flags) :
    Process State Stream → Result State Stream :=
  routed machine (.openat dirfd path flags mode) (fail (-1) Errno.ENOENT)
    (openVirtualFd machine flags)

def fopenOptions (mode : Text) : Option OpenOptions :=
  let flags := mode.takeWhile (· ≠ ',')
  let plus := flags.contains '+'
  let createNew := flags.contains 'x'
  match flags.head? with
  | some 'r' => some ⟨true, plus, false, false, false, false⟩
  | some 'w' => some ⟨plus, true, true, createNew, true, false⟩
  | some 'a' => some ⟨plus, true, true, createNew, false, true⟩
  | _ => none

/-- `fopen_virtual` with `prepare_cookie`. -/
def fopenVirtual (mode : CStr) (engine : Engine Stream) (path : Text)
    (process : Process State Stream) : Result State Stream :=
  match decodeCstr mode with
  | none => fail 0 Errno.EINVAL process
  | some decoded =>
      match fopenOptions decoded with
      | none => fail 0 Errno.EINVAL process
      | some opts =>
          if opts.write && !engine.allowWrites then
            fail 0 Errno.EROFS process
          else
            let (opened, vfs) := openStream machine path opts process.vfs
            match opened with
            | none => fail 0 Errno.ENOENT (process.withVfs vfs)
            | some (.error error) =>
                fail 0 (ioToErrno error) (process.withVfs vfs)
            | some (.ok stream) =>
                let cookie := LibcCall.fopencookie mode opts.write
                let file := machine.os cookie
                if file.ret = 0 then
                  { reply := ⟨0, some Errno.EIO, .nothing⟩
                    calls := [cookie]
                    process := process.withVfs
                      (machine.provider.drop machine.ambient stream.inner
                        vfs) }
                else
                  { reply := ⟨file.ret, none, .nothing⟩
                    calls := [cookie]
                    process :=
                      { process.withVfs vfs with
                        cookies := process.cookies.insert (fdKey file.ret)
                          ⟨stream, opts.write⟩ } }

/-- `shim_fopen` and `shim_fopen64`. -/
def shimFopen (sym : FopenSym) (path mode : CStr) :
    Process State Stream → Result State Stream :=
  routed machine (.fopen sym path mode) (fail 0 Errno.ENOENT)
    (fopenVirtual machine mode)

/-! ## Reading -/

/-- A byte count, or `-1` and the error's `errno`. -/
def countReply (out : Nat → Output) : Except IoError Nat → Reply
  | .ok count => ⟨count, none, out count⟩
  | .error error => ⟨-1, some (ioToErrno error), .nothing⟩

def bytesReply : Except IoError (List UInt8) → Reply
  | .ok bytes => ⟨bytes.length, none, .bytes bytes⟩
  | .error error => ⟨-1, some (ioToErrno error), .nothing⟩

def unitReply : Except IoError Unit → Reply
  | .ok _ => ⟨0, none, .nothing⟩
  | .error error => ⟨-1, some (ioToErrno error), .nothing⟩

/-- Answer after an operation on the file's stream. -/
def answerStream (fd : Int) (engine : Engine Stream)
    (file : OpenFile Stream) (process : Process State Stream)
    (outcome : Reply × OpenStream Stream × State) : Result State Stream where
  reply := outcome.1
  calls := []
  process := keepStream fd engine file outcome.2.1 outcome.2.2 process

def shimRead (fd : Int) (buf : Sink) :
    Process State Stream → Result State Stream :=
  withFile machine (.read fd buf) fd fun engine file process =>
    if buf.len = 0 then succeed 0 .nothing process
    else if buf.base = 0 then fail (-1) Errno.EFAULT process
    else
      let (result, stream, vfs) := file.stream.readBytes machine.provider
        machine.ambient buf.len process.vfs
      answerStream fd engine file process (bytesReply result, stream, vfs)

/-- The loop of `shim_readv`. -/
def readvLoop : List Sink → List (Nat × List UInt8) → Nat →
    OpenStream Stream → State → Reply × OpenStream Stream × State
  | [], pieces, total, stream, vfs =>
      (⟨total, none, .vectors pieces⟩, stream, vfs)
  | sink :: rest, pieces, total, stream, vfs =>
      if sink.len = 0 ∨ sink.base = 0 then
        readvLoop rest pieces total stream vfs
      else
        match stream.readBytes machine.provider machine.ambient sink.len
          vfs with
        | (.ok bytes, stream, vfs) =>
            if bytes.length = 0 then
              (⟨total, none, .vectors pieces⟩, stream, vfs)
            else if bytes.length < sink.len then
              (⟨total + bytes.length, none,
                .vectors (pieces ++ [(sink.base, bytes)])⟩, stream, vfs)
            else
              readvLoop rest (pieces ++ [(sink.base, bytes)])
                (total + bytes.length) stream vfs
        | (.error error, stream, vfs) =>
            if total = 0 then
              (⟨-1, some (ioToErrno error), .vectors pieces⟩, stream, vfs)
            else (⟨total, none, .vectors pieces⟩, stream, vfs)

def shimReadv (fd : Int) (iov : Option (List Sink)) (iovcnt : Int) :
    Process State Stream → Result State Stream :=
  withFile machine (.readv fd iov iovcnt) fd fun engine file process =>
    match iov with
    | none => fail (-1) Errno.EINVAL process
    | some sinks =>
        if iovcnt < 0 then fail (-1) Errno.EINVAL process
        else
          answerStream fd engine file process
            (readvLoop machine (sinks.take iovcnt.toNat) [] 0 file.stream
              process.vfs)

/-- Do something at a position and put the cursor back. -/
def positioned {Value : Type} (offset : Nat)
    (operate : OpenStream Stream → State →
      Except IoError Value × OpenStream Stream × State)
    (stream : OpenStream Stream) (vfs : State) :
    Except IoError Value × OpenStream Stream × State :=
  match stream.streamPosition machine.provider machine.ambient vfs with
  | (.error error, stream, vfs) => (.error error, stream, vfs)
  | (.ok saved, stream, vfs) =>
      let (result, stream, vfs) :=
        match stream.seek machine.provider machine.ambient (.start offset)
          vfs with
        | (.error error, stream, vfs) => (Except.error error, stream, vfs)
        | (.ok _, stream, vfs) => operate stream vfs
      let (_, stream, vfs) := stream.seek machine.provider machine.ambient
        (.start saved) vfs
      (result, stream, vfs)

def shimPread (fd : Int) (buf : Sink) (offset : Int) :
    Process State Stream → Result State Stream :=
  withFile machine (.pread fd buf offset) fd fun engine file process =>
    if buf.len = 0 then succeed 0 .nothing process
    else if buf.base = 0 then fail (-1) Errno.EFAULT process
    else if offset < 0 then fail (-1) Errno.EINVAL process
    else
      let (result, stream, vfs) := positioned machine offset.toNat
        (fun stream vfs => stream.readBytes machine.provider machine.ambient
          buf.len vfs) file.stream process.vfs
      answerStream fd engine file process (bytesReply result, stream, vfs)

def seekFrom (whence offset : Int) : Option SeekFrom :=
  if whence = 0 then
    if offset < 0 then none else some (.start offset.toNat)
  else if whence = 1 then some (.current offset)
  else if whence = 2 then some (.end offset)
  else none

/-- An absolute position as the callers report it. -/
def positionReply : Except IoError Nat → Reply
  | .ok pos => ⟨min pos (2 ^ 63 - 1), none, .nothing⟩
  | .error error => ⟨-1, some (ioToErrno error), .nothing⟩

/-- `lseek_common`. -/
def shimLseek (sym : LseekSym) (fd offset whence : Int) :
    Process State Stream → Result State Stream :=
  withFile machine (.lseek sym fd offset whence) fd
    fun engine file process =>
      match seekFrom whence offset with
      | none => fail (-1) Errno.EINVAL process
      | some target =>
          let (result, stream, vfs) := file.stream.seek machine.provider
            machine.ambient target process.vfs
          answerStream fd engine file process
            (positionReply result, stream, vfs)

/-! ## Cookie streams

libc calls back for every virtual `FILE*`; the callbacks have no original to
defer to, so they run inside a hook as well. -/

/-- Write back the stream behind a cookie, and the provider's state. -/
def keepCookie (file : Nat) (state : CookieState Stream)
    (stream : OpenStream Stream) (vfs : State)
    (process : Process State Stream) : Process State Stream :=
  { process.withVfs vfs with
    cookies := process.cookies.insert file { state with stream := stream } }

/-- Answer after an operation on the cookie's stream. -/
def answerCookie (file : Nat) (state : CookieState Stream)
    (process : Process State Stream)
    (outcome : Reply × OpenStream Stream × State) : Result State Stream where
  reply := outcome.1
  calls := []
  process := keepCookie file state outcome.2.1 outcome.2.2 process

/-- The state behind a cookie; there is none behind null. -/
def withCookie (file : Nat)
    (served : CookieState Stream → Process State Stream →
      Result State Stream)
    (process : Process State Stream) : Result State Stream :=
  match process.cookies.lookup file with
  | none => fail (-1) Errno.EINVAL process
  | some state => served state process

def cookieReadInto (file : Nat) (buf : Sink) :
    Process State Stream → Result State Stream :=
  withCookie file fun state process =>
    if buf.base = 0 ∧ buf.len ≠ 0 then fail (-1) Errno.EINVAL process
    else if buf.len = 0 then succeed 0 .nothing process
    else
      let (result, stream, vfs) := state.stream.readBytes machine.provider
        machine.ambient buf.len process.vfs
      answerCookie file state process (bytesReply result, stream, vfs)

def cookieWriteFrom (file : Nat) (buf : Source) :
    Process State Stream → Result State Stream :=
  withCookie file fun state process =>
    match buf with
    | .null count =>
        if count ≠ 0 then fail (-1) Errno.EINVAL process
        else succeed 0 .nothing process
    | .bytes data =>
        if data.length = 0 then succeed 0 .nothing process
        else
          let (result, stream, vfs) := state.stream.writeBytes
            machine.provider machine.ambient data process.vfs
          answerCookie file state process
            (countReply (fun _ => .nothing) result, stream, vfs)

def cookieSeekTo (file : Nat) (offset whence : Int) :
    Process State Stream → Result State Stream :=
  withCookie file fun state process =>
    match seekFrom whence offset with
    | none => fail (-1) Errno.EINVAL process
    | some target =>
        let (result, stream, vfs) := state.stream.seek machine.provider
          machine.ambient target process.vfs
        answerCookie file state process (positionReply result, stream, vfs)

def cookieCloseState (file : Nat) (process : Process State Stream) :
    Result State Stream :=
  match process.cookies.lookup file with
  | none => succeed 0 .nothing process
  | some state =>
      succeed 0 .nothing
        { process with
          cookies := process.cookies.erase file
          vfs := machine.provider.drop machine.ambient state.stream.inner
            process.vfs }

/-- What libc does to a virtual `FILE*`; a cookie that was opened without
write access has no write callback. -/
def cookieCall : CookieCall → Process State Stream → Result State Stream
  | .read file buf, process => cookieReadInto machine file buf process
  | .write file buf, process =>
      match process.cookies.lookup file with
      | none => fail (-1) Errno.EINVAL process
      | some state =>
          if state.writable then cookieWriteFrom machine file buf process
          else succeed 0 .nothing process
  | .seek file offset whence, process =>
      cookieSeekTo machine file offset whence process
  | .close file, process => cookieCloseState machine file process

/-! ## Closing -/

/-- `shim_close`: the entry goes and its stream is dropped, then the carrier
is closed. -/
def shimClose (fd : Int) :
    Process State Stream → Result State Stream :=
  withFile machine (.close fd) fd fun engine file process =>
    pass machine (.fd (.close fd))
      ((process.withEngine
        { engine with registry := engine.registry.removeFile (fdKey fd) }).withVfs
        (machine.provider.drop machine.ambient file.stream.inner
          process.vfs))

/-! ## Writing -/

/-- The shims that need write access deny a file without it. -/
def withWritable (call : FdCall) (fd : Int)
    (served : Engine Stream → OpenFile Stream → Process State Stream →
      Result State Stream) :
    Process State Stream → Result State Stream :=
  withFile machine call fd fun engine file process =>
    if !file.writable then fail (-1) Errno.EROFS process
    else served engine file process

def shimWrite (fd : Int) (buf : Source) :
    Process State Stream → Result State Stream :=
  withWritable machine (.write fd buf) fd fun engine file process =>
    if buf.count = 0 then succeed 0 .nothing process
    else
      match buf with
      | .null _ => fail (-1) Errno.EFAULT process
      | .bytes data =>
          let (result, stream, vfs) := file.stream.writeBytes
            machine.provider machine.ambient data process.vfs
          answerStream fd engine file process
            (countReply (fun _ => .nothing) result, stream, vfs)

/-- The loop of `shim_writev`. -/
def writevLoop : List Source → Nat → OpenStream Stream → State →
    Reply × OpenStream Stream × State
  | [], total, stream, vfs => (⟨total, none, .nothing⟩, stream, vfs)
  | .null _ :: rest, total, stream, vfs => writevLoop rest total stream vfs
  | .bytes data :: rest, total, stream, vfs =>
      if data.length = 0 then writevLoop rest total stream vfs
      else
        match stream.writeBytes machine.provider machine.ambient data
          vfs with
        | (.ok count, stream, vfs) =>
            if count < data.length then
              (⟨total + count, none, .nothing⟩, stream, vfs)
            else writevLoop rest (total + count) stream vfs
        | (.error error, stream, vfs) =>
            if total = 0 then
              (⟨-1, some (ioToErrno error), .nothing⟩, stream, vfs)
            else (⟨total, none, .nothing⟩, stream, vfs)

def shimWritev (fd : Int) (iov : Option (List Source)) (iovcnt : Int) :
    Process State Stream → Result State Stream :=
  withWritable machine (.writev fd iov iovcnt) fd fun engine file process =>
    match iov with
    | none => fail (-1) Errno.EINVAL process
    | some sources =>
        if iovcnt < 0 then fail (-1) Errno.EINVAL process
        else
          answerStream fd engine file process
            (writevLoop machine (sources.take iovcnt.toNat) 0 file.stream
              process.vfs)

def shimPwrite (fd : Int) (buf : Source) (offset : Int) :
    Process State Stream → Result State Stream :=
  withWritable machine (.pwrite fd buf offset) fd
    fun engine file process =>
      if buf.count = 0 then succeed 0 .nothing process
      else
        match buf with
        | .null _ => fail (-1) Errno.EFAULT process
        | .bytes data =>
            if offset < 0 then fail (-1) Errno.EINVAL process
            else
              let (result, stream, vfs) := positioned machine offset.toNat
                (fun stream vfs => stream.writeBytes machine.provider
                  machine.ambient data vfs) file.stream process.vfs
              answerStream fd engine file process
                (countReply (fun _ => .nothing) result, stream, vfs)

/-- `ftruncate_fd`. -/
def shimFtruncate (sym : FtruncateSym) (fd length : Int) :
    Process State Stream → Result State Stream :=
  withWritable machine (.ftruncate sym fd length) fd
    fun engine file process =>
      if length < 0 then fail (-1) Errno.EINVAL process
      else
        let (result, stream, vfs) := file.stream.setLen machine.provider
          machine.ambient length.toNat process.vfs
        answerStream fd engine file process (unitReply result, stream, vfs)

def shimFsync (fd : Int) :
    Process State Stream → Result State Stream :=
  withFile machine (.fsync fd) fd fun engine file process =>
    let (result, stream, vfs) := file.stream.flush machine.provider
      machine.ambient process.vfs
    answerStream fd engine file process (unitReply result, stream, vfs)

def denyWriteFd (fd : Int) (engine : Engine Stream) : Bool :=
  match engine.registry.getFile (fdKey fd) with
  | none => false
  | some file => !file.writable

def shimFchmod (fd : Int) (mode : Flags) (process : Process State Stream) :
    Result State Stream :=
  if process.inHook then pass machine (.fd (.fchmod fd mode)) process
  else
    match process.engine with
    | none => pass machine (.fd (.fchmod fd mode)) process
    | some engine =>
        if denyWriteFd fd engine then fail (-1) Errno.EROFS process
        else pass machine (.fd (.fchmod fd mode)) process

def shimSendfile (outFd inFd : Int) (offset count : Nat) :
    Process State Stream → Result State Stream :=
  withFile machine (.sendfile outFd inFd offset count) inFd
    fun _ _ process => fail (-1) Errno.EINVAL process

/-! ## Mutation by path -/

/-- `mutation_result_errno`, and `ENOENT` where the provider declines. -/
def mutationReply : Option (Except IoError Unit) → Reply
  | none => ⟨-1, some Errno.ENOENT, .nothing⟩
  | some result => unitReply result

def denyMutatePath (call : PathCall) :
    Process State Stream → Result State Stream :=
  routed machine call (fail (-1) Errno.EROFS)
    fun _ _ process => fail (-1) Errno.EROFS process

def mutatePath (call : PathCall)
    (operate : Text → State → Option (Except IoError Unit) × State) :
    Process State Stream → Result State Stream :=
  routed machine call (fail (-1) Errno.ENOENT) fun engine path process =>
    if !engine.allowWrites then fail (-1) Errno.EROFS process
    else
      let (result, vfs) := operate path process.vfs
      { reply := mutationReply result
        calls := []
        process := process.withVfs vfs }

def shimTruncate (path : CStr) (length : Int) :
    Process State Stream → Result State Stream :=
  mutatePath machine (.truncate path length) fun path vfs =>
    if length < 0 then (some (.error (.os Errno.EINVAL)), vfs)
    else machine.provider.setLen machine.ambient path length.toNat vfs

def shimMkdir (path : CStr) (mode : Flags) :
    Process State Stream → Result State Stream :=
  mutatePath machine (.mkdir path mode)
    (machine.provider.createDir machine.ambient)

def shimRemove (path : CStr) : Process State Stream → Result State Stream :=
  mutatePath machine (.remove path) (machine.provider.remove machine.ambient)

def shimUnlink (path : CStr) : Process State Stream → Result State Stream :=
  mutatePath machine (.unlink path) (machine.provider.remove machine.ambient)

def shimFchmodat (dirfd : Int) (path : CStr) (mode flags : Flags) :
    Process State Stream → Result State Stream :=
  denyMutatePath machine (.fchmodat dirfd path mode flags)

def shimUtimensat (dirfd : Int) (path : CStr) (times : Nat)
    (flags : Flags) : Process State Stream → Result State Stream :=
  denyMutatePath machine (.utimensat dirfd path times flags)

/-- The path is decodable and routes to the virtual side, safely or not. -/
def touchesVirtual (path : CStr) (process : Process State Stream) : Bool :=
  match decodeCstr path with
  | none => false
  | some decoded =>
      match process.route decoded with
      | some (_, .virtual _) => true
      | some (_, .rejected) => true
      | _ => false

def denyMutateTwo (call : TwoPathCall) (process : Process State Stream) :
    Result State Stream :=
  if process.inHook then pass machine (.two call) process
  else if touchesVirtual call.source process ||
      touchesVirtual call.target process then
    fail (-1) Errno.EROFS process
  else pass machine (.two call) process

/-- The part of `shim_rename` for a real source. -/
def renameReal (source target : CStr) (process : Process State Stream) :
    Result State Stream :=
  if touchesVirtual target process then fail (-1) Errno.EROFS process
  else pass machine (.two (.rename source target)) process

/-- The part of `shim_rename` for a virtual source. -/
def renameVirtual (target : CStr) (engine : Engine Stream) (path : Text)
    (process : Process State Stream) : Result State Stream :=
  if !engine.allowWrites then fail (-1) Errno.EROFS process
  else
    match decodeCstr target with
    | none => fail (-1) Errno.EINVAL process
    | some decoded =>
        match process.route decoded with
        | some (_, .virtual destination) =>
            let (result, vfs) := machine.provider.rename machine.ambient
              path destination process.vfs
            { reply := mutationReply result
              calls := []
              process := process.withVfs vfs }
        | _ => fail (-1) Errno.EROFS process

def shimRename (source target : CStr) (process : Process State Stream) :
    Result State Stream :=
  if process.inHook then
    pass machine (.two (.rename source target)) process
  else
    match decodeCstr source with
    | none => pass machine (.two (.rename source target)) process
    | some decoded =>
        match process.route decoded with
        | none => renameReal machine source target process
        | some (_, .real) => renameReal machine source target process
        | some (_, .rejected) => fail (-1) Errno.ENOENT process
        | some (engine, .virtual path) =>
            renameVirtual machine target engine path process

/-! ## Metadata -/

def virtualMeta (path : Text) (vfs : State) : Option Metadata × State :=
  match machine.provider.metadata machine.ambient path vfs with
  | (some (.ok report), next) => (some report, next)
  | (_, next) => (none, next)

/-- The record a stat function fills in, if its buffer is not null. -/
def statOutput (sym : StatSym) (buf : Nat) (path : Text)
    (report : Metadata) : Output :=
  if buf = 0 then .nothing
  else
    match sym with
    | .statx _ _ _ => .statx (fillStatx machine.hasher path report)
    | _ => .stat (fillStat machine.hasher path report)

def statPath (sym : StatSym) (path : CStr) (buf : Nat) :
    Process State Stream → Result State Stream :=
  routed machine (.stat sym path buf) (fail (-1) Errno.ENOENT)
    fun _ path process =>
      match virtualMeta machine path process.vfs with
      | (some report, vfs) =>
          succeed 0 (statOutput machine sym buf path report)
            (process.withVfs vfs)
      | (none, vfs) => fail (-1) Errno.ENOENT (process.withVfs vfs)

def fstatFd (sym : FstatSym) (fd : Int) (buf : Nat) :
    Process State Stream → Result State Stream :=
  withFile machine (.fstat sym fd buf) fd fun engine file process =>
    let (size, stream, vfs) := file.stream.size machine.provider
      machine.ambient process.vfs
    let report := Metadata.file (match size with
      | .ok size => size
      | .error _ => 0)
    answerStream fd engine file process
      (⟨0, none, if buf = 0 then .nothing
        else .stat (fillStat machine.hasher file.path report)⟩, stream, vfs)

/-- `fill_statvfs` into the caller's buffer. -/
def volumeOutput (buf : Nat) (vfs : State) : Output × State :=
  let (info, next) := machine.provider.volumeInfo machine.ambient vfs
  (if buf = 0 then .nothing else .statvfs (fillStatvfs info), next)

def shimStatvfs (path : CStr) (buf : Nat) :
    Process State Stream → Result State Stream :=
  routed machine (.statvfs path buf) (fail (-1) Errno.ENOENT)
    fun _ _ process =>
      let (out, vfs) := volumeOutput machine buf process.vfs
      succeed 0 out (process.withVfs vfs)

def shimFstatvfs (fd : Int) (buf : Nat) :
    Process State Stream → Result State Stream :=
  withFile machine (.fstatvfs fd buf) fd fun _ _ process =>
    let (out, vfs) := volumeOutput machine buf process.vfs
    succeed 0 out (process.withVfs vfs)

/-! ## Directories -/

def shimOpendir (path : CStr) :
    Process State Stream → Result State Stream :=
  routed machine (.opendir path) (fail 0 Errno.ENOENT)
    fun engine path process =>
      match machine.provider.readDir machine.ambient path process.vfs with
      | (some (.ok entries), vfs) =>
          let dir := machine.os .newDir
          { reply := ⟨dir.ret, none, .nothing⟩
            calls := [.newDir]
            process := (process.withVfs vfs).withEngine
              { engine with
                registry := engine.registry.putDir (fdKey dir.ret)
                  ⟨entries, 0⟩ } }
      | (some (.error error), vfs) =>
          fail 0 (ioToErrno error) (process.withVfs vfs)
      | (none, vfs) => fail 0 Errno.ENOENT (process.withVfs vfs)

def shimFdopendir (fd : Int) :
    Process State Stream → Result State Stream :=
  withFile machine (.fdopendir fd) fd
    fun _ _ process => fail 0 Errno.ENOTDIR process

/-- The beginning of the shims on directory streams. -/
def withDir (call : DirCall) (dirp : Nat)
    (served : Engine Stream → VirtualDir → Process State Stream →
      Result State Stream)
    (process : Process State Stream) : Result State Stream :=
  if process.inHook then pass machine (.dir call) process
  else
    match process.engine with
    | none => pass machine (.dir call) process
    | some engine =>
        match engine.registry.getDir dirp with
        | none => pass machine (.dir call) process
        | some dir => served engine dir process

/-- `shim_readdir` and `shim_readdir64`; the returned pointer is into the
directory object. -/
def shimReaddir (sym : ReaddirSym) (dirp : Nat) :
    Process State Stream → Result State Stream :=
  withDir machine (.readdir sym dirp) dirp fun engine dir process =>
    match dir.entries[dir.next]? with
    | none => succeed 0 .nothing process
    | some entry =>
        succeed dirp (.dirent (fillDirent machine.hasher entry dir.next))
          (process.withEngine
            { engine with
              registry := engine.registry.putDir dirp
                { dir with next := dir.next + 1 } })

def shimClosedir (dirp : Nat) :
    Process State Stream → Result State Stream :=
  withDir machine (.closedir dirp) dirp fun engine _ process =>
    succeed 0 .nothing
      (process.withEngine
        { engine with registry := engine.registry.removeDir dirp })

/-! ## Paths -/

def copyOutPath (path : Text) (resolved : Nat)
    (process : Process State Stream) : Result State Stream :=
  let bytes := Text.utf8 path
  if resolved = 0 then
    let block := LibcCall.malloc (bytes.length + 1)
    let memory := machine.os block
    if memory.ret = 0 then
      { reply := ⟨0, some Errno.ENOMEM, .nothing⟩
        calls := [block]
        process := process }
    else
      { reply := ⟨memory.ret, none, .bytes (bytes ++ [0])⟩
        calls := [block]
        process := process }
  else if pathMax < bytes.length + 1 then
    fail 0 Errno.ENAMETOOLONG process
  else succeed resolved (.bytes (bytes ++ [0])) process

def shimRealpath (path : CStr) (resolved : Nat) :
    Process State Stream → Result State Stream :=
  routed machine (.realpath path resolved) (fail 0 Errno.ENOENT)
    fun _ path process =>
      match virtualMeta machine path process.vfs with
      | (none, vfs) => fail 0 Errno.ENOENT (process.withVfs vfs)
      | (some _, vfs) =>
          copyOutPath machine path resolved (process.withVfs vfs)

def accessCommon (call : PathCall) (mode : Flags) :
    Process State Stream → Result State Stream :=
  routed machine call (fail (-1) Errno.ENOENT) fun engine path process =>
    let (found, vfs) := machine.provider.exists machine.ambient path
      process.vfs
    if found ≠ some true then fail (-1) Errno.ENOENT (process.withVfs vfs)
    else if mode &&& W_OK ≠ 0 ∧ !engine.allowWrites then
      fail (-1) Errno.EROFS (process.withVfs vfs)
    else succeed 0 .nothing (process.withVfs vfs)

def shimAccess (path : CStr) (mode : Flags) :
    Process State Stream → Result State Stream :=
  accessCommon machine (.access path mode) mode

def shimFaccessat (dirfd : Int) (path : CStr) (mode flags : Flags) :
    Process State Stream → Result State Stream :=
  accessCommon machine (.faccessat dirfd path mode flags) mode

/-- Write a text into a block of `cap` bytes, cut to fit. -/
def writeCstr (cap : Nat) (bytes : List UInt8) : Output :=
  .bytes (bytes.take (cap - 1) ++ [0])

def shimGetcwd (buf size : Nat) (process : Process State Stream) :
    Result State Stream :=
  if process.inHook then pass machine (.dir (.getcwd buf size)) process
  else
    match process.engine with
    | none => pass machine (.dir (.getcwd buf size)) process
    | some engine =>
        match engine.cwd with
        | none => pass machine (.dir (.getcwd buf size)) process
        | some cwd =>
            let bytes := Text.utf8 cwd
            let need := bytes.length + 1
            if buf = 0 then
              let cap := if size = 0 then need else size
              if cap < need then fail 0 Errno.ERANGE process
              else
                let block := LibcCall.malloc cap
                let memory := machine.os block
                if memory.ret = 0 then
                  { reply := ⟨0, some Errno.ENOMEM, .nothing⟩
                    calls := [block]
                    process := process }
                else
                  { reply := ⟨memory.ret, none, writeCstr cap bytes⟩
                    calls := [block]
                    process := process }
            else if size < need then fail 0 Errno.ERANGE process
            else succeed buf (writeCstr size bytes) process

def shimChdir (path : CStr) (process : Process State Stream) :
    Result State Stream :=
  if process.inHook then pass machine (.path (.chdir path)) process
  else
    match decodeCstr path with
    | none => pass machine (.path (.chdir path)) process
    | some decoded =>
        match process.route decoded with
        | none => pass machine (.path (.chdir path)) process
        | some (engine, .virtual target) =>
            match machine.provider.metadata machine.ambient target
              process.vfs with
            | (some (.ok report), vfs) =>
                if report.isDir then
                  succeed 0 .nothing ((process.withVfs vfs).withEngine
                    { engine with cwd := some target })
                else fail (-1) Errno.ENOENT (process.withVfs vfs)
            | (_, vfs) => fail (-1) Errno.ENOENT (process.withVfs vfs)
        | some (engine, .real) =>
            pass machine (.path (.chdir path))
              (process.withEngine { engine with cwd := none })
        | some (_, .rejected) => fail (-1) Errno.ENOENT process

def shimReadlink (path : CStr) (buf bufsiz : Nat) :
    Process State Stream → Result State Stream :=
  routed machine (.readlink path buf bufsiz) (fail (-1) Errno.ENOENT)
    fun _ _ process => fail (-1) Errno.EINVAL process

/-! ## Dispatch -/

/-- The shim of every hooked call, as `shim_address` installs it. -/
def shimPath : PathCall → Process State Stream → Result State Stream
  | .open sym path flags mode => openImpl machine sym path flags mode
  | .openat dirfd path flags mode =>
      openatEntry machine dirfd path flags mode
  | .fopen sym path mode => shimFopen machine sym path mode
  | .truncate path length => shimTruncate machine path length
  | .mkdir path mode => shimMkdir machine path mode
  | .remove path => shimRemove machine path
  | .unlink path => shimUnlink machine path
  | .fchmodat dirfd path mode flags =>
      shimFchmodat machine dirfd path mode flags
  | .utimensat dirfd path times flags =>
      shimUtimensat machine dirfd path times flags
  | .stat sym path buf => statPath machine sym path buf
  | .statvfs path buf => shimStatvfs machine path buf
  | .opendir path => shimOpendir machine path
  | .realpath path resolved => shimRealpath machine path resolved
  | .access path mode => shimAccess machine path mode
  | .faccessat dirfd path mode flags =>
      shimFaccessat machine dirfd path mode flags
  | .chdir path => shimChdir machine path
  | .readlink path buf bufsiz => shimReadlink machine path buf bufsiz

def shimTwo : TwoPathCall → Process State Stream → Result State Stream
  | .rename source target => shimRename machine source target
  | .link source target => denyMutateTwo machine (.link source target)
  | .symlink source target => denyMutateTwo machine (.symlink source target)

def shimFd : FdCall → Process State Stream → Result State Stream
  | .read fd buf => shimRead machine fd buf
  | .readv fd iov iovcnt => shimReadv machine fd iov iovcnt
  | .pread fd buf offset => shimPread machine fd buf offset
  | .lseek sym fd offset whence => shimLseek machine sym fd offset whence
  | .write fd buf => shimWrite machine fd buf
  | .writev fd iov iovcnt => shimWritev machine fd iov iovcnt
  | .pwrite fd buf offset => shimPwrite machine fd buf offset
  | .ftruncate sym fd length => shimFtruncate machine sym fd length
  | .fsync fd => shimFsync machine fd
  | .fchmod fd mode => shimFchmod machine fd mode
  | .fstat sym fd buf => fstatFd machine sym fd buf
  | .fstatvfs fd buf => shimFstatvfs machine fd buf
  | .fdopendir fd => shimFdopendir machine fd
  | .sendfile outFd inFd offset count =>
      shimSendfile machine outFd inFd offset count
  | .close fd => shimClose machine fd

def shimDir : DirCall → Process State Stream → Result State Stream
  | .readdir sym dirp => shimReaddir machine sym dirp
  | .closedir dirp => shimClosedir machine dirp
  | .getcwd buf size => shimGetcwd machine buf size

def shim : Call → Process State Stream → Result State Stream
  | .path call => shimPath machine call
  | .two call => shimTwo machine call
  | .fd call => shimFd machine call
  | .dir call => shimDir machine call

/-! ## What routing does

A path arrives at a shim on one of three routes; the path helpers are
described by what they do on each of them. -/

/-- Outside of a hook, a decodable path that the active engine sends on a
route. -/
structure Arrives (path : CStr) (process : Process State Stream)
    (engine : Engine Stream) (route : Route) : Prop where
  outside : process.inHook = false
  active : process.engine = some engine
  classified : (decodeCstr path).map engine.classify = some route

variable {machine} {process : Process State Stream} {engine : Engine Stream}

theorem Arrives.route_eq {path : CStr} {route : Route}
    (arrives : Arrives path process engine route) :
    ∃ decoded, decodeCstr path = some decoded ∧
      process.route decoded = some (engine, route) := by
  have found := arrives.classified
  rw [Option.map_eq_some_iff] at found
  obtain ⟨decoded, read, classified⟩ := found
  refine ⟨decoded, read, ?_⟩
  rw [Process.route, arrives.active, Option.map_some, classified]

section Routed

variable {call : PathCall}
  {rejected : Process State Stream → Result State Stream}
  {served : Engine Stream → Text → Process State Stream →
    Result State Stream}

theorem routed_real (arrives : Arrives call.path process engine .real) :
    routed machine call rejected served process =
      pass machine (.path call) process := by
  obtain ⟨decoded, read, route⟩ := arrives.route_eq
  simp only [routed, arrives.outside, read, route]
  rfl

theorem routed_rejected
    (arrives : Arrives call.path process engine .rejected) :
    routed machine call rejected served process = rejected process := by
  obtain ⟨decoded, read, route⟩ := arrives.route_eq
  simp only [routed, arrives.outside, read, route]
  rfl

theorem routed_virtual {path : Text}
    (arrives : Arrives call.path process engine (.virtual path)) :
    routed machine call rejected served process =
      served engine path process := by
  obtain ⟨decoded, read, route⟩ := arrives.route_eq
  simp only [routed, arrives.outside, read, route]
  rfl

end Routed

/-! ### What every helper keeps

A helper keeps a property of processes if its branches do; a branch that
denies or passes changes nothing. -/

section Keeps

variable {good : Process State Stream → Prop} (here : good process)
include here

theorem routed_keeps {call : PathCall}
    {rejected : Process State Stream → Result State Stream}
    {served : Engine Stream → Text → Process State Stream →
      Result State Stream}
    (denied : (rejected process).process = process)
    (kept : ∀ engine path, process.engine = some engine →
      good (served engine path process).process) :
    good (routed machine call rejected served process).process := by
  unfold routed
  split
  · exact here
  · split
    · exact here
    · next decoded read =>
      cases active : process.engine with
      | none =>
          simp only [Process.route, active]
          exact here
      | some engine =>
          simp only [Process.route, active, Option.map_some]
          cases engine.classify decoded with
          | virtual path =>
              exact kept engine path active
          | rejected =>
              simp only [denied]
              exact here
          | real =>
              exact here

theorem withFile_keeps {call : FdCall} {fd : Int}
    {served : Engine Stream → OpenFile Stream → Process State Stream →
      Result State Stream}
    (kept : ∀ engine file, process.engine = some engine →
      engine.registry.getFile (fdKey fd) = some file →
        good (served engine file process).process) :
    good (withFile machine call fd served process).process := by
  unfold withFile
  split
  · exact here
  · split
    · exact here
    · next engine active =>
      split
      · exact here
      · next file hit =>
        exact kept engine file active hit

theorem withDir_keeps {call : DirCall} {dirp : Nat}
    {served : Engine Stream → VirtualDir → Process State Stream →
      Result State Stream}
    (kept : ∀ engine dir, process.engine = some engine →
      good (served engine dir process).process) :
    good (withDir machine call dirp served process).process := by
  unfold withDir
  split
  · exact here
  · split
    · exact here
    · next engine active =>
      split
      · exact here
      · next dir _ =>
        exact kept engine dir active

theorem withCookie_keeps {file : Nat}
    {served : CookieState Stream → Process State Stream →
      Result State Stream}
    (kept : ∀ state, process.cookies.lookup file = some state →
      good (served state process).process) :
    good (withCookie file served process).process := by
  unfold withCookie
  split
  · exact here
  · next state hit =>
    exact kept state hit

end Keeps

theorem touchesVirtual_eq {path : CStr} {route : Route}
    (arrives : Arrives path process engine route) :
    touchesVirtual path process = decide (route ≠ .real) := by
  obtain ⟨decoded, read, found⟩ := arrives.route_eq
  simp only [touchesVirtual, read, found]
  cases route with
  | virtual absolute =>
      rfl
  | rejected =>
      rfl
  | real =>
      rfl

theorem withFile_hit {call : FdCall} {fd : Int} {file : OpenFile Stream}
    {served : Engine Stream → OpenFile Stream → Process State Stream →
      Result State Stream}
    (outside : process.inHook = false)
    (active : process.engine = some engine)
    (hit : engine.registry.getFile (fdKey fd) = some file) :
    withFile machine call fd served process =
      served engine file process := by
  simp only [withFile, outside, active, hit]
  rfl

theorem withFile_miss {call : FdCall} {fd : Int}
    {served : Engine Stream → OpenFile Stream → Process State Stream →
      Result State Stream}
    (outside : process.inHook = false)
    (active : process.engine = some engine)
    (miss : engine.registry.getFile (fdKey fd) = none) :
    withFile machine call fd served process =
      pass machine (.fd call) process := by
  simp only [withFile, outside, active, miss]
  rfl

end Shims

end Hookfs.Unix
