import Hookfs.Path.Decode
import Hookfs.Path.Posix
import Hookfs.Vfs.Core

/-!
# The hooked part of libc

The calls of the Linux symbol set that reach a shim, with their arguments as
the caller passes them, what a shim can hand back, and the numbers of the
64-bit glibc targets.

A pointer that is only tested for null or handed on is a number, zero for
null; a buffer that is read is given by its bytes.
-/

namespace Hookfs.Unix

open Hookfs.Lib Hookfs.Vfs Hookfs.Posix

/-! ## Numbers -/

namespace Errno

def ENOENT : Nat := 2
def EIO : Nat := 5
def ENOMEM : Nat := 12
def EACCES : Nat := 13
def EFAULT : Nat := 14
def EEXIST : Nat := 17
def ENOTDIR : Nat := 20
def EISDIR : Nat := 21
def EINVAL : Nat := 22
def EMFILE : Nat := 24
def EROFS : Nat := 30
def ERANGE : Nat := 34
def ENAMETOOLONG : Nat := 36
def ENOTEMPTY : Nat := 39

end Errno

def ioToErrno : IoError → Nat
  | .os code => code
  | .simple kind => ofKind kind
  | .custom kind _ => ofKind kind
where
  ofKind : ErrorKind → Nat
    | .notFound => Errno.ENOENT
    | .permissionDenied => Errno.EACCES
    | .alreadyExists => Errno.EEXIST
    | .invalidInput => Errno.EINVAL
    | .directoryNotEmpty => Errno.ENOTEMPTY
    | .notADirectory => Errno.ENOTDIR
    | .isADirectory => Errno.EISDIR
    | .other => Errno.EIO

/-- The bits of a C `int`. -/
abbrev Flags := BitVec 32

def O_WRONLY : Flags := 1
def O_RDWR : Flags := 2
def O_CREAT : Flags := 0x40
def O_EXCL : Flags := 0x80
def O_TRUNC : Flags := 0x200
def O_APPEND : Flags := 0x400

def W_OK : Flags := 2

def pathMax : Nat := 4096

def virtualVolumeSerial : Nat := 0x484F4B46

/-! ## Calls -/

inductive OpenSym where
  | open
  | open64
  deriving DecidableEq, Repr

inductive FopenSym where
  | fopen
  | fopen64
  deriving DecidableEq, Repr

/-- The path-routed stat family. -/
inductive StatSym where
  | stat
  | lstat
  | xstat (ver : Int)
  | lxstat (ver : Int)
  | xstat64 (ver : Int)
  | lxstat64 (ver : Int)
  | fstatat (dirfd : Int) (flags : Flags)
  | statx (dirfd : Int) (flags mask : Flags)
  deriving DecidableEq, Repr

inductive PathCall where
  | open (sym : OpenSym) (path : CStr) (flags mode : Flags)
  | openat (dirfd : Int) (path : CStr) (flags mode : Flags)
  | fopen (sym : FopenSym) (path mode : CStr)
  | truncate (path : CStr) (length : Int)
  | mkdir (path : CStr) (mode : Flags)
  | remove (path : CStr)
  | unlink (path : CStr)
  | fchmodat (dirfd : Int) (path : CStr) (mode flags : Flags)
  | utimensat (dirfd : Int) (path : CStr) (times : Nat) (flags : Flags)
  | stat (sym : StatSym) (path : CStr) (buf : Nat)
  | statvfs (path : CStr) (buf : Nat)
  | opendir (path : CStr)
  | realpath (path : CStr) (resolved : Nat)
  | access (path : CStr) (mode : Flags)
  | faccessat (dirfd : Int) (path : CStr) (mode flags : Flags)
  | chdir (path : CStr)
  | readlink (path : CStr) (buf bufsiz : Nat)
  deriving DecidableEq, Repr

def PathCall.path : PathCall → CStr
  | .open _ path _ _ => path
  | .openat _ path _ _ => path
  | .fopen _ path _ => path
  | .truncate path _ => path
  | .mkdir path _ => path
  | .remove path => path
  | .unlink path => path
  | .fchmodat _ path _ _ => path
  | .utimensat _ path _ _ => path
  | .stat _ path _ => path
  | .statvfs path _ => path
  | .opendir path => path
  | .realpath path _ => path
  | .access path _ => path
  | .faccessat _ path _ _ => path
  | .chdir path => path
  | .readlink path _ _ => path

inductive TwoPathCall where
  | rename (source target : CStr)
  | link (source target : CStr)
  | symlink (source target : CStr)
  deriving DecidableEq, Repr

def TwoPathCall.source : TwoPathCall → CStr
  | .rename path _ => path
  | .link path _ => path
  | .symlink path _ => path

def TwoPathCall.target : TwoPathCall → CStr
  | .rename _ path => path
  | .link _ path => path
  | .symlink _ path => path

inductive LseekSym where
  | lseek
  | lseek64
  deriving DecidableEq, Repr

inductive FtruncateSym where
  | ftruncate
  | ftruncate64
  deriving DecidableEq, Repr

inductive FstatSym where
  | fstat
  | fxstat (ver : Int)
  | fxstat64 (ver : Int)
  deriving DecidableEq, Repr

/-- A buffer to be read: null with a count, or that many bytes. -/
inductive Source where
  | null (count : Nat)
  | bytes (data : List UInt8)
  deriving DecidableEq, Repr

def Source.count : Source → Nat
  | .null count => count
  | .bytes data => data.length

/-- A buffer to be written. -/
structure Sink where
  base : Nat
  len : Nat
  deriving DecidableEq, Repr

/-- The calls on file descriptors.  A vector is null or has its elements. -/
inductive FdCall where
  | read (fd : Int) (buf : Sink)
  | readv (fd : Int) (iov : Option (List Sink)) (iovcnt : Int)
  | pread (fd : Int) (buf : Sink) (offset : Int)
  | lseek (sym : LseekSym) (fd : Int) (offset : Int) (whence : Int)
  | write (fd : Int) (buf : Source)
  | writev (fd : Int) (iov : Option (List Source)) (iovcnt : Int)
  | pwrite (fd : Int) (buf : Source) (offset : Int)
  | ftruncate (sym : FtruncateSym) (fd : Int) (length : Int)
  | fsync (fd : Int)
  | fchmod (fd : Int) (mode : Flags)
  | fstat (sym : FstatSym) (fd : Int) (buf : Nat)
  | fstatvfs (fd : Int) (buf : Nat)
  | fdopendir (fd : Int)
  | sendfile (outFd inFd : Int) (offset count : Nat)
  | close (fd : Int)
  deriving DecidableEq, Repr

def FdCall.fds : FdCall → List Int
  | .read fd _ => [fd]
  | .readv fd _ _ => [fd]
  | .pread fd _ _ => [fd]
  | .lseek _ fd _ _ => [fd]
  | .write fd _ => [fd]
  | .writev fd _ _ => [fd]
  | .pwrite fd _ _ => [fd]
  | .ftruncate _ fd _ => [fd]
  | .fsync fd => [fd]
  | .fchmod fd _ => [fd]
  | .fstat _ fd _ => [fd]
  | .fstatvfs fd _ => [fd]
  | .fdopendir fd => [fd]
  | .sendfile outFd inFd _ _ => [outFd, inFd]
  | .close fd => [fd]

inductive ReaddirSym where
  | readdir
  | readdir64
  deriving DecidableEq, Repr

/-- The calls on directory streams, and `getcwd`. -/
inductive DirCall where
  | readdir (sym : ReaddirSym) (dirp : Nat)
  | closedir (dirp : Nat)
  | getcwd (buf size : Nat)
  deriving DecidableEq, Repr

inductive Call where
  | path (call : PathCall)
  | two (call : TwoPathCall)
  | fd (call : FdCall)
  | dir (call : DirCall)
  deriving DecidableEq, Repr

/-- The callbacks of a cookie stream, by `FILE*`. -/
inductive CookieCall where
  | read (file : Nat) (buf : Sink)
  | write (file : Nat) (buf : Source)
  | seek (file : Nat) (offset whence : Int)
  | close (file : Nat)
  deriving DecidableEq, Repr

def CookieCall.file : CookieCall → Nat
  | .read file _ => file
  | .write file _ => file
  | .seek file _ _ => file
  | .close file => file

/-- What a shim asks of libc: an original function, the carrier (the original
`open` of `/dev/null`), a cookie stream, memory, or the address of a new
directory object. -/
inductive LibcCall where
  | original (call : Call)
  | carrier
  | fopencookie (mode : CStr) (writable : Bool)
  | malloc (size : Nat)
  | newDir
  deriving DecidableEq, Repr

/-! ## Replies -/

/-- `struct stat` and `struct stat64`, as far as the shims set it; the three
times are equal. -/
structure StatRecord where
  dev : Nat
  ino : Nat
  mode : Nat
  nlink : Nat
  size : Nat
  blksize : Nat
  blocks : Nat
  mtime : Nat
  deriving DecidableEq, Repr

/-- `struct statx`, as far as the shims set it. -/
structure StatxRecord where
  mask : Nat
  blksize : Nat
  nlink : Nat
  mode : Nat
  ino : Nat
  size : Nat
  blocks : Nat
  mtime : Nat
  deriving DecidableEq, Repr

/-- `struct statvfs`, as far as the shims set it. -/
structure StatvfsRecord where
  bsize : Nat
  frsize : Nat
  blocks : Nat
  bfree : Nat
  bavail : Nat
  files : Nat
  ffree : Nat
  favail : Nat
  fsid : Nat
  namemax : Nat
  deriving DecidableEq, Repr

/-- `struct dirent` and `struct dirent64`. -/
structure DirentRecord where
  ino : Nat
  off : Nat
  reclen : Nat
  isDir : Bool
  name : List UInt8
  deriving DecidableEq, Repr

/-- What a call leaves in the caller's memory. -/
inductive Output where
  | nothing
  | bytes (data : List UInt8)
  | vectors (pieces : List (Nat × List UInt8))
  | stat (record : StatRecord)
  | statx (record : StatxRecord)
  | statvfs (record : StatvfsRecord)
  | dirent (record : DirentRecord)
  deriving DecidableEq, Repr

/-- The return value (a pointer by its address), the `errno` if it was set,
and the output. -/
structure Reply where
  ret : Int
  errno : Option Nat
  out : Output
  deriving DecidableEq, Repr

/-! ## Records from metadata -/

/-- `stable_ino`, for the standard library's default hasher. -/
def stableIno (hasher : Text → Nat) (path : Text) : Nat :=
  match hasher (normalizeKeyStr path) with
  | 0 => 1
  | id => id

/-- `stat_values`: the mode. -/
def statMode (report : Metadata) : Nat :=
  if report.isDir then 0o40555 else 0o100444

/-- `stat_values`: the size. -/
def statSize (report : Metadata) : Nat :=
  min report.len (2 ^ 63 - 1)

/-- `stat_values`: the modification time. -/
def statMtime (report : Metadata) : Nat :=
  match report.mtime with
  | none => 0
  | some time =>
      if 0 ≤ time ∧ time.toNat < 2 ^ 63 then time.toNat else 0

def blocks512 (size : Nat) : Nat :=
  saturatingAdd size 511 / 512

/-- `fill_stat` and `fill_stat64`. -/
def fillStat (hasher : Text → Nat) (path : Text) (report : Metadata) :
    StatRecord where
  dev := virtualVolumeSerial
  ino := stableIno hasher path
  mode := statMode report
  nlink := 1
  size := statSize report
  blksize := 512
  blocks := blocks512 (statSize report)
  mtime := statMtime report

def fillStatx (hasher : Text → Nat) (path : Text) (report : Metadata) :
    StatxRecord where
  mask := 0x7FF
  blksize := 512
  nlink := 1
  mode := statMode report
  ino := stableIno hasher path
  size := statSize report
  blocks := blocks512 (statSize report)
  mtime := statMtime report

def fillStatvfs (info : Option VolumeInfo) : StatvfsRecord :=
  let (bsize, total, free) :=
    match info with
    | some volume =>
        let bsize := max volume.blockSize 512
        (bsize, volume.capacity / bsize, volume.available / bsize)
    | none => (4096, 2 ^ 32, 2 ^ 31)
  { bsize := bsize
    frsize := bsize
    blocks := total
    bfree := free
    bavail := free
    files := 2 ^ 20
    ffree := 2 ^ 19
    favail := 2 ^ 19
    fsid := virtualVolumeSerial
    namemax := 255 }

/-- `fill_dirent` and `fill_dirent64`; `write_dname` cuts the name to 255
bytes. -/
def fillDirent (hasher : Text → Nat) (entry : DirEntry) (index : Nat) :
    DirentRecord where
  ino := max (stableIno hasher entry.name) 1
  off := index + 1
  reclen := 280
  isDir := entry.metadata.isDir
  name := (Text.utf8 entry.name).take 255

end Hookfs.Unix
