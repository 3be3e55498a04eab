import Hookfs.Path.Decode
import Hookfs.Plthook.Import

/-!
# The PE import walker

`pe::parse_imports` over the mapped range of a loaded image: an RVA is an
offset into it.  Every plain `+` and `*` of the source traps when it leaves a
64-bit word, and every raw read traps outside of the range.
-/

namespace Hookfs.Plthook.Pe

open Hookfs.Lib Hookfs.Posix Hookfs.Plthook

/-! ## Constants -/

def imageOrdinalFlag64 : Nat := 2 ^ 63

def magicPe32Plus : Nat := 0x020B

def magicPe32 : Nat := 0x010B

def directoryEntryImport : Nat := 1

def directoryEntryDelayImport : Nat := 13

def importDescriptorSize : Nat := 20

def delayDescriptorSize : Nat := 32

def thunkSize : Nat := 8

def maxDescriptors : Nat := 8192

def maxThunks : Nat := 2 ^ 20

def maxNameLen : Nat := 8192

/-! ## The mapped range -/

/-- `MappedImage`, with the memory of the process and the machine this engine
is compiled for. -/
structure MappedImage where
  base : Nat
  size : Nat
  memory : Nat → UInt8
  hostMachine : Nat

namespace MappedImage

/-- `copy_nonoverlapping` from an address. -/
def rawRead (image : MappedImage) (address len : Nat) : Parse (List UInt8) :=
  if image.base ≤ address ∧ address + len ≤ image.base + image.size then
    .ok (bytesAt image.memory address len)
  else .error .wildRead

def read (image : MappedImage) (len offset : Nat) : Parse (List UInt8) := do
  let stop ← Checked.require (checkedAdd offset len)
    (.malformed "offset arithmetic overflow")
  Checked.ensure (stop ≤ image.size)
    (.malformed "read past end of mapped image")
  let address ← Checked.require (checkedAdd image.base offset)
    (.malformed "address arithmetic overflow")
  image.rawRead address len

/-- `u16`, `u32_as_usize` and `thunk`, by width. -/
def uint (image : MappedImage) (width offset : Nat) : Parse Nat := do
  let bytes ← image.read width offset
  pure (littleEndian bytes)

def u16 (image : MappedImage) (offset : Nat) : Parse Nat :=
  image.uint 2 offset

def u32AsUsize (image : MappedImage) (offset : Nat) : Parse Nat :=
  image.uint 4 offset

def thunk (image : MappedImage) (offset : Nat) : Parse Nat :=
  image.uint 8 offset

def cstr (image : MappedImage) (offset : Nat) : Parse Text :=
  loop
    (fun (state : Nat × List UInt8) => do
      let read ← image.read 1 state.1
      let byte ← Checked.index read 0
      if byte = 0 then pure (.done (fromUtf8Lossy state.2))
      else do
        let bytes := state.2 ++ [byte]
        Checked.ensure (bytes.length ≤ maxNameLen)
          (.malformed "unterminated import name string")
        let cursor ← Checked.add state.1 1
        pure (.next (cursor, bytes)))
    (maxNameLen + 1) (offset, [])

def slotAddress (image : MappedImage) (rva : Nat) : Parse Nat := do
  let stop ← Checked.require (checkedAdd rva thunkSize)
    (.malformed "slot arithmetic overflow")
  Checked.ensure (stop ≤ image.size)
    (.malformed "import slot past end of mapped image")
  Checked.ensure (rva % 8 = 0)
    (.malformed "import slot is not pointer-aligned")
  Checked.require (checkedAdd image.base rva)
    (.malformed "slot address overflow")

def fieldRva (image : MappedImage) (field : Nat) (usesRva : Bool) :
    Parse Nat :=
  if usesRva then pure field
  else do
    Checked.ensure (image.base ≤ field)
      (.malformed "delay-import absolute VA below module base")
    Checked.ensure (field - image.base < image.size)
      (.malformed "delay-import absolute VA outside mapped image")
    pure (field - image.base)

end MappedImage

/-! ## Headers -/

structure Directories where
  importDir : Option Nat
  delay : Option Nat
  deriving DecidableEq, Repr

namespace MappedImage

/-- The closure `directory` of `parse_headers`. -/
def directory (image : MappedImage) (numberOfRvaAndSizes dataDirBase
    position : Nat) : Parse (Option Nat) :=
  if numberOfRvaAndSizes ≤ position then pure none
  else do
    let offset ← Checked.mul position 8
    let rva ← Checked.add dataDirBase offset >>= image.u32AsUsize
    pure (if rva = 0 then none else some rva)

def parseHeaders (image : MappedImage) : Parse Directories := do
  let dosMagic ← image.u16 0
  Checked.ensure (dosMagic = 0x5A4D)
    (.malformed "missing 'MZ' DOS signature")
  let eLfanew ← image.u32AsUsize 0x3C
  let signature ← image.read 4 eLfanew
  Checked.ensure (signature = [0x50, 0x45, 0, 0])
    (.malformed "missing 'PE\\0\\0' NT signature")
  let fileHeader ← Checked.require (checkedAdd eLfanew 4)
    (.malformed "NT header offset overflow")
  let machine ← image.u16 fileHeader
  let sizeOfOptional ← Checked.add fileHeader 16 >>= image.u16
  let optional ← Checked.require (checkedAdd fileHeader 20)
    (.malformed "optional header offset overflow")
  Checked.ensure (112 ≤ sizeOfOptional)
    (.malformed "optional header too small")
  let magic ← image.u16 optional
  Checked.ensure (magic ≠ magicPe32)
    (.unsupported "PE32 (32-bit) image; only PE32+ is supported at runtime")
  Checked.ensure (magic = magicPe32Plus)
    (.malformed "unrecognized optional-header magic")
  Checked.ensure (machine = image.hostMachine)
    (.unsupported "image machine does not match host process")
  let numberOfRvaAndSizes ← Checked.add optional 108 >>= image.u32AsUsize
  let dataDirBase ← Checked.add optional 112
  let standard ← image.directory numberOfRvaAndSizes dataDirBase
    directoryEntryImport
  let delay ← image.directory numberOfRvaAndSizes dataDirBase
    directoryEntryDelayImport
  pure ⟨standard, delay⟩

end MappedImage

/-! ## Thunks -/

/-- The well-known export ordinals of `WS2_32.DLL`. -/
def winsock2Names : List (Nat × String) :=
  [(1, "accept"), (2, "bind"), (3, "closesocket"), (4, "connect"),
    (5, "getpeername"), (6, "getsockname"), (7, "getsockopt"),
    (8, "htonl"), (9, "htons"), (10, "inet_addr"), (11, "inet_ntoa"),
    (12, "ioctlsocket"), (13, "listen"), (14, "ntohl"), (15, "ntohs"),
    (16, "recv"), (17, "recvfrom"), (18, "select"), (19, "send"),
    (20, "sendto"), (21, "setsockopt"), (22, "shutdown"), (23, "socket"),
    (24, "MigrateWinsockConfiguration"), (51, "gethostbyaddr"),
    (52, "gethostbyname"), (53, "getprotobyname"),
    (54, "getprotobynumber"), (55, "getservbyname"), (56, "getservbyport"),
    (57, "gethostname"), (101, "WSAAsyncSelect"),
    (102, "WSAAsyncGetHostByAddr"), (103, "WSAAsyncGetHostByName"),
    (104, "WSAAsyncGetProtoByNumber"), (105, "WSAAsyncGetProtoByName"),
    (106, "WSAAsyncGetServByPort"), (107, "WSAAsyncGetServByName"),
    (108, "WSACancelAsyncRequest"), (109, "WSASetBlockingHook"),
    (110, "WSAUnhookBlockingHook"), (111, "WSAGetLastError"),
    (112, "WSASetLastError"), (113, "WSACancelBlockingCall"),
    (114, "WSAIsBlocking"), (115, "WSAStartup"), (116, "WSACleanup"),
    (151, "__WSAFDIsSet"), (500, "WEP"), (1000, "WSApSetPostRoutine"),
    (1001, "WsControl"), (1002, "closesockinfo"), (1003, "Arecv"),
    (1004, "Asend"), (1005, "WSHEnumProtocols"), (1100, "inet_network"),
    (1101, "getnetbyname"), (1102, "rcmd"), (1103, "rexec"),
    (1104, "rresvport"), (1105, "sethostname"), (1106, "dn_expand"),
    (1107, "WSARecvEx"), (1108, "s_perror"), (1109, "GetAddressByNameA"),
    (1110, "GetAddressByNameW"), (1111, "EnumProtocolsA"),
    (1112, "EnumProtocolsW"), (1113, "GetTypeByNameA"),
    (1114, "GetTypeByNameW"), (1115, "GetNameByTypeA"),
    (1116, "GetNameByTypeW"), (1117, "SetServiceA"), (1118, "SetServiceW"),
    (1119, "GetServiceA"), (1120, "GetServiceW"),
    (1130, "NPLoadNameSpaces"), (1131, "NSPStartup"),
    (1140, "TransmitFile"), (1141, "AcceptEx"),
    (1142, "GetAcceptExSockaddrs")]

/-- `winsock2_ordinal2name`. -/
def winsock2Ordinal2name (ordinal : Nat) : Option Text :=
  (winsock2Names.lookup ordinal).map String.toList

/-- `library.eq_ignore_ascii_case("ws2_32.dll")`. -/
def isWinsock2 (library : Text) : Bool :=
  Text.eqIgnoreAsciiCase (Text.utf8 library) (Text.utf8 "ws2_32.dll".toList)

namespace MappedImage

/-- One slot, as `collect_thunks` pushes it. -/
def pushSlot (image : MappedImage) (library : Text) (kind : ImportKind)
    (symbol : Option Symbol) (rva : Nat) (out : List RawImport) :
    Parse (List RawImport) := do
  let slot ← image.slotAddress rva
  pure (out ++ [{
    library := library
    symbol := symbol
    version := none
    slot := slot
    kind := kind
    authenticated := false }])

/-- The symbol of an entry of the name table. -/
def thunkSymbol (image : MappedImage) (library : Text) (entry : Nat) :
    Parse Symbol :=
  if imageOrdinalFlag64 ≤ entry then
    let ordinal := entry % 2 ^ 16
    match (winsock2Ordinal2name ordinal).filter fun _ =>
        isWinsock2 library with
    | some name => pure (.name name)
    | none => pure (.ordinal ordinal)
  else do
    let name ← Checked.add entry 2 >>= image.cstr
    pure (.name name)

def collectThunks (image : MappedImage) (namesRva slotsRva : Nat)
    (library : Text) (kind : ImportKind) (out : List RawImport) :
    Parse (List RawImport) :=
  if namesRva = 0 then
    forRange
      (fun position out => do
        let offset ← Checked.mul position thunkSize
        let entryRva ← Checked.add slotsRva offset
        let entry ← image.thunk entryRva
        if entry = 0 then pure (.done out)
        else do
          let next ← image.pushSlot library kind none entryRva out
          pure (.next next))
      (fun _ => malformed "import address table is not NUL-terminated")
      maxThunks 0 out
  else
    forRange
      (fun position out => do
        let offset ← Checked.mul position thunkSize
        let entry ← Checked.add namesRva offset >>= image.thunk
        if entry = 0 then pure (.done out)
        else do
          let symbol ← image.thunkSymbol library entry
          let slotOffset ← Checked.mul position thunkSize
          let slotRva ← Checked.add slotsRva slotOffset
          let next ← image.pushSlot library kind (some symbol) slotRva out
          pure (.next next))
      (fun _ => malformed "import name table is not NUL-terminated")
      maxThunks 0 out

/-! ## Descriptors -/

def parseStandard (image : MappedImage) (dirRva : Nat) :
    Parse (List RawImport) :=
  forRange
    (fun position out => do
      let offset ← Checked.mul position importDescriptorSize
      let desc ← Checked.add dirRva offset
      let originalFirstThunk ← image.u32AsUsize desc
      let nameRva ← Checked.add desc 12 >>= image.u32AsUsize
      let firstThunk ← Checked.add desc 16 >>= image.u32AsUsize
      if nameRva = 0 then pure (.done out)
      else if firstThunk = 0 then pure (.next out)
      else do
        let library ← image.cstr nameRva
        let next ← image.collectThunks originalFirstThunk firstThunk library
          .standard out
        pure (.next next))
    (fun _ => malformed "import descriptor table is not NUL-terminated")
    maxDescriptors 0 []

/-- The names field of a delay descriptor; zero means there are none. -/
def namesRva (image : MappedImage) (field : Nat) (usesRva : Bool) :
    Parse Nat :=
  if field = 0 then pure 0 else image.fieldRva field usesRva

def parseDelay (image : MappedImage) (dirRva : Nat) :
    Parse (List RawImport) :=
  forRange
    (fun position out => do
      let offset ← Checked.mul position delayDescriptorSize
      let desc ← Checked.add dirRva offset
      let attributes ← image.u32AsUsize desc
      let dllNameRva ← Checked.add desc 4 >>= image.u32AsUsize
      let slotsField ← Checked.add desc 12 >>= image.u32AsUsize
      let namesField ← Checked.add desc 16 >>= image.u32AsUsize
      if dllNameRva = 0 then pure (.done out)
      else do
        let usesRva := attributes % 2 = 1
        let library ← image.cstr dllNameRva
        if library.isEmpty then pure (.next out)
        else if slotsField = 0 then pure (.next out)
        else do
          let namesRva ← image.namesRva namesField usesRva
          let slotsRva ← image.fieldRva slotsField usesRva
          let next ← image.collectThunks namesRva slotsRva library
            .delayLoad out
          pure (.next next))
    (fun _ => malformed "delay-import descriptor table is not NUL-terminated")
    maxDescriptors 0 []

/-- The standard imports, if there is a directory for them. -/
def standardImports (image : MappedImage) (dirs : Directories) :
    Parse (List RawImport) :=
  match dirs.importDir with
  | none => pure []
  | some rva => image.parseStandard rva

/-- The delay imports; a defect in them drops them alone. -/
def delayImports (image : MappedImage) (dirs : Directories) :
    Parse (List RawImport) :=
  match dirs.delay with
  | none => pure []
  | some rva => do
      let outcome ← Checked.attempt (image.parseDelay rva)
      match outcome with
      | .ok delay => pure delay
      | .error _ => pure []

def parseImports (image : MappedImage) : Parse (List RawImport) := do
  let dirs ← image.parseHeaders
  let standard ← image.standardImports dirs
  let delay ← image.delayImports dirs
  pure (standard ++ delay)

end MappedImage

end Hookfs.Plthook.Pe
