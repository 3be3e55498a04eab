import Mathlib.Logic.Function.Basic
import Hookfs.Memory.Held
import Hookfs.Memory.Provider
import Hookfs.Memory.Reference

/-!
# Inodes and open file descriptions

What the files of a volume are for the programs that have them open: inodes
with bytes and a number of references, and descriptions with a cursor, each
behind some port of the process.  Every operation on a stream over the
volume is an operation on its description.
-/

namespace Hookfs.Memory

open Hookfs.Lib Hookfs.Vfs

open MemoryFs (Stream)

/-! ## The model -/

structure Inode where
  data : List UInt8
  refs : Nat
  deriving DecidableEq, Repr

/-- The bytes from a position on, at most so many. -/
def Inode.read (pos len : Nat) (inode : Inode) : List UInt8 :=
  (inode.data.drop pos).take len

/-- An open file description, with what its table keeps beside it. -/
structure Description (Tag : Type) where
  inode : Nat
  pos : Nat
  writes : Bool
  tag : Tag
  deriving DecidableEq, Repr

/-- Inodes under one capacity, and the descriptions behind the ports. -/
structure Shelf (Port Tag : Type) where
  capacity : Nat
  used : Nat
  inodes : Nat → Option Inode
  opened : Port → Option (Description Tag)

namespace Shelf

variable {Port Tag : Type}

/-- New bytes for an inode. -/
def rewrite (id : Nat) (inode : Inode) (data : List UInt8)
    (shelf : Shelf Port Tag) : Shelf Port Tag :=
  { shelf with
    used := shelf.used + data.length - inode.data.length
    inodes := Function.update shelf.inodes id
      (some { inode with data := data }) }

/-- One reference goes; the last one takes the bytes along. -/
def release (id : Nat) (shelf : Shelf Port Tag) : Shelf Port Tag :=
  match shelf.inodes id with
  | none => shelf
  | some inode =>
      if inode.refs ≤ 1 then
        { shelf with
          used := shelf.used - inode.data.length
          inodes := Function.update shelf.inodes id none }
      else
        { shelf with
          inodes := Function.update shelf.inodes id
            (some { inode with refs := inode.refs - 1 }) }

/-- Write at a position: how many bytes are placed, or why none. -/
def write (pos : Nat) (buf : List UInt8) (id : Nat) (inode : Inode)
    (shelf : Shelf Port Tag) : Except IoError Nat × Shelf Port Tag :=
  match Reference.write shelf.capacity shelf.used pos buf inode.data with
  | .error error => (.error error, shelf)
  | .ok (count, data) => (.ok count, shelf.rewrite id inode data)

def setLen (len id : Nat) (inode : Inode) (shelf : Shelf Port Tag) :
    Except IoError Unit × Shelf Port Tag :=
  match Reference.setLen shelf.capacity shelf.used len inode.data with
  | .error error => (.error error, shelf)
  | .ok data => (.ok (), shelf.rewrite id inode data)

theorem opened_write (pos : Nat) (buf : List UInt8) (id : Nat)
    (inode : Inode) (shelf : Shelf Port Tag) :
    (shelf.write pos buf id inode).2.opened = shelf.opened := by
  unfold write
  split
  · rfl
  · rfl

/-- No more bytes are placed than there are. -/
theorem write_le {pos placed id : Nat} {buf : List UInt8} {inode : Inode}
    {shelf next : Shelf Port Tag}
    (wrote : shelf.write pos buf id inode = (.ok placed, next)) :
    placed ≤ buf.length := by
  unfold write Reference.write at wrote
  simp only at wrote
  by_cases empty : buf = []
  · rw [if_pos empty] at wrote
    injection wrote with same
    injection same with same
    omega
  · rw [if_neg empty] at wrote
    split at wrote
    · injection wrote with impossible
      cases impossible
    · next count data outcome =>
      injection wrote with same
      injection same with same
      split at outcome
      · cases outcome
      · split at outcome
        · cases outcome
        · injection outcome with pair
          injection pair with countEq
          omega

theorem opened_setLen (len id : Nat) (inode : Inode)
    (shelf : Shelf Port Tag) :
    (shelf.setLen len id inode).2.opened = shelf.opened := by
  unfold setLen
  split
  · rfl
  · rfl

section Ports

variable [DecidableEq Port]

/-- The description behind a port, somewhere else. -/
def moveTo (port : Port) (description : Description Tag) (pos : Nat)
    (shelf : Shelf Port Tag) : Shelf Port Tag :=
  { shelf with
    opened := Function.update shelf.opened port
      (some { description with pos := pos }) }

/-- The description behind a port goes, and its reference. -/
def close (port : Port) (description : Description Tag)
    (shelf : Shelf Port Tag) : Shelf Port Tag :=
  { shelf.release description.inode with
    opened := Function.update shelf.opened port none }

/-- An operation on the description and the inode behind a port. -/
def through {Reply : Type} (port : Port)
    (missing : Reply × Shelf Port Tag)
    (served : Description Tag → Inode → Reply × Shelf Port Tag)
    (shelf : Shelf Port Tag) : Reply × Shelf Port Tag :=
  match shelf.opened port with
  | none => missing
  | some description =>
      match shelf.inodes description.inode with
      | none => missing
      | some inode => served description inode

@[simp]
theorem opened_moveTo_self (port : Port) (description : Description Tag)
    (pos : Nat) (shelf : Shelf Port Tag) :
    (shelf.moveTo port description pos).opened port =
      some { description with pos := pos } :=
  Function.update_self port _ shelf.opened

theorem opened_moveTo_of_ne {port other : Port} (different : other ≠ port)
    (description : Description Tag) (pos : Nat) (shelf : Shelf Port Tag) :
    (shelf.moveTo port description pos).opened other = shelf.opened other :=
  Function.update_of_ne different _ shelf.opened

@[simp]
theorem opened_close_self (port : Port) (description : Description Tag)
    (shelf : Shelf Port Tag) :
    (shelf.close port description).opened port = none :=
  Function.update_self port _ shelf.opened

theorem opened_close_of_ne {port other : Port} (different : other ≠ port)
    (description : Description Tag) (shelf : Shelf Port Tag) :
    (shelf.close port description).opened other = shelf.opened other :=
  Function.update_of_ne different _ shelf.opened

theorem moveTo_self {port : Port} {description : Description Tag}
    {shelf : Shelf Port Tag}
    (here : shelf.opened port = some description) :
    shelf.moveTo port description description.pos = shelf := by
  have same : Function.update shelf.opened port (some description) =
      shelf.opened := by
    rw [← here]
    exact Function.update_eq_self port shelf.opened
  unfold moveTo
  rw [same]

end Ports

end Shelf

/-- Where a write from a position leaves the cursor. -/
def cursorAfter (pos : Nat) : Except IoError Nat → Nat
  | .ok count => pos + count
  | .error _ => pos

/-! ## The volume of the source -/

section Stores

variable {Port Tag : Type}

/-- The volume has these inodes. -/
structure Stores (fs : MemoryFs) (shelf : Shelf Port Tag) : Prop where
  capacity : fs.volume.capacity = shelf.capacity
  used : fs.volume.used = shelf.used
  inodes : ∀ id, shelf.inodes id =
    (fs.files.lookup id).map fun content => ⟨content.data, content.strong⟩

/-- The inode of a file. -/
def MemFile.inode (content : MemFile) : Inode :=
  ⟨content.data, content.strong⟩

variable {fs : MemoryFs} {shelf : Shelf Port Tag} {id : Nat}
  {content next : MemFile}

theorem Stores.found (stores : Stores fs shelf)
    (present : fs.files.lookup id = some content) :
    shelf.inodes id = some content.inode := by
  rw [stores.inodes, present]
  rfl

/-- Ports do not matter for the volume. -/
theorem Stores.reopened (stores : Stores fs shelf)
    (opened : Port → Option (Description Tag)) :
    Stores fs { shelf with opened := opened } :=
  ⟨stores.capacity, stores.used, stores.inodes⟩

/-- A file is stored back as it was. -/
theorem Stores.kept (stores : Stores fs shelf)
    (present : fs.files.lookup id = some content) :
    Stores { fs with files := fs.files.insert id content } shelf := by
  refine ⟨stores.capacity, stores.used, fun other => ?_⟩
  rw [stores.inodes]
  by_cases same : other = id
  · subst same
    rw [AList.lookup_insert, present]
  · rw [AList.lookup_insert_ne same]

/-- New bytes for a file, charged to the volume. -/
theorem Stores.rewritten (stores : Stores fs shelf)
    (strong : next.strong = content.strong) :
    Stores { fs with
        files := fs.files.insert id next
        volume := fs.volume.charge content.data.length next.data.length }
      (shelf.rewrite id content.inode next.data) := by
  refine ⟨stores.capacity, ?_, fun other => ?_⟩
  · change fs.volume.used + next.data.length - content.data.length =
      shelf.used + next.data.length - content.data.length
    rw [stores.used]
  · unfold Shelf.rewrite
    by_cases same : other = id
    · subst same
      rw [AList.lookup_insert]
      simp only [Function.update_self, Option.map_some, MemFile.inode, strong]
    · rw [AList.lookup_insert_ne same]
      simp only [Function.update_of_ne same]
      exact stores.inodes other

theorem Stores.dropFile (stores : Stores fs shelf) (id : Nat) :
    Stores (fs.dropFile id) (shelf.release id) := by
  unfold MemoryFs.dropFile Shelf.release
  rw [stores.inodes]
  cases present : fs.files.lookup id with
  | none =>
      exact stores
  | some content =>
      simp only [Option.map_some]
      split
      · refine ⟨stores.capacity, ?_, fun other => ?_⟩
        · change fs.volume.used - content.data.length =
            shelf.used - content.data.length
          rw [stores.used]
        · by_cases same : other = id
          · subst same
            rw [AList.lookup_erase]
            simp only [Function.update_self, Option.map_none]
          · rw [AList.lookup_erase_ne same]
            simp only [Function.update_of_ne same]
            exact stores.inodes other
      · refine ⟨stores.capacity, stores.used, fun other => ?_⟩
        by_cases same : other = id
        · subst same
          rw [AList.lookup_insert]
          simp only [Function.update_self, Option.map_some]
        · rw [AList.lookup_insert_ne same]
          simp only [Function.update_of_ne same]
          exact stores.inodes other

end Stores

/-! ## Streams as descriptions -/

section Streams

variable {Port Tag : Type} {fs : MemoryFs} {shelf : Shelf Port Tag}
  {id pos limit : Nat} {content : MemFile} {outside : Nat → Nat}

/-- The stream of a description at a position. -/
def Description.streamAt (pos : Nat) (description : Description Tag) :
    OpenStream Stream :=
  if description.writes then .write (.memory description.inode pos)
  else .read (.memory description.inode pos)

def Description.stream (description : Description Tag) : OpenStream Stream :=
  description.streamAt description.pos

theorem inner_streamAt (pos : Nat) (description : Description Tag) :
    (description.streamAt pos).inner = .memory description.inode pos := by
  unfold Description.streamAt
  split
  · rfl
  · rfl

theorem replace_streamAt (pos next : Nat)
    (description : Description Tag) :
    (description.streamAt pos).replace (.memory description.inode next) =
      description.streamAt next := by
  unfold Description.streamAt
  split
  · rfl
  · rfl

/-- A volume whose accounts are in order, with a file in it. -/
structure Sited (limit : Nat) (fs : MemoryFs) (id : Nat)
    (content : MemFile) : Prop where
  present : fs.files.lookup id = some content
  sound : MemoryFs.Sound content fs.volume
  short : content.data.length < 2 ^ 63

theorem sited_of_leaky
    (charged : MemoryFs.Leaky (MemoryFs.Counted limit) fs outside)
    (present : fs.files.lookup id = some content) :
    Sited limit fs id content := by
  obtain ⟨leaked, counted⟩ := charged
  have sound := counted.sound present
  have enough := sound.enough
  have within := sound.within
  have small := sound.small
  exact ⟨present, sound, by omega⟩

variable (sited : Sited limit fs id content) (ambient : Ambient)
include sited

/-- A read hands out the bytes behind the cursor and moves it behind them. -/
theorem read_sited (word : pos < 2 ^ 64) (len : Nat) :
    MemoryFs.provider.read ambient len (.memory id pos) fs =
      (.ok (content.inode.read pos len),
        .memory id (pos + (content.inode.read pos len).length), fs) := by
  have reached : pos + (content.inode.read pos len).length < 2 ^ 64 := by
    have short := sited.short
    have bytes : content.inode.data = content.data := rfl
    unfold Inode.read
    rw [List.length_take, List.length_drop, bytes]
    omega
  have plain : saturatingAdd pos (content.inode.read pos len).length =
      pos + (content.inode.read pos len).length := by
    unfold saturatingAdd wordMax
    omega
  simp only [MemoryFs.provider, Stream.read, sited.present, MemFile.readAt]
  change (_, Stream.memory id
    (saturatingAdd pos (content.inode.read pos len).length), _) = _
  rw [plain]
  rfl

theorem seek_sited (pos : Nat) (target : SeekFrom) :
    MemoryFs.provider.seek ambient target (.memory id pos) fs =
      match Reference.seek content.data.length pos target with
      | .error error => (.error error, .memory id pos, fs)
      | .ok reached => (.ok reached, .memory id reached, fs) := by
  have len : fs.fileLen id = content.data.length := by
    unfold MemoryFs.fileLen
    rw [sited.present]
  simp only [MemoryFs.provider, Stream.seek, Stream.size, Stream.position,
    len, Reference.seekTo_eq_seek]
  cases Reference.seek content.data.length pos target with
  | error error =>
      rfl
  | ok reached =>
      rfl

theorem size_sited :
    MemoryFs.provider.size ambient (.memory id pos) fs =
      (.ok content.data.length, .memory id pos, fs) := by
  simp only [MemoryFs.provider, Stream.size, MemoryFs.fileLen, sited.present]

/-- A write does to the volume what it does to the inodes. -/
theorem write_sited (stores : Stores fs shelf) (word : pos < 2 ^ 64)
    (buf : List UInt8) :
    ∃ next, MemoryFs.provider.write ambient buf (.memory id pos) fs =
        ((shelf.write pos buf id content.inode).1,
          .memory id (cursorAfter pos (shelf.write pos buf id content.inode).1),
          next) ∧
      Stores next (shelf.write pos buf id content.inode).2 := by
  have spec := content.writeAt_eq sited.sound ambient.now pos buf
  rw [stores.capacity, stores.used] at spec
  unfold Shelf.write MemFile.inode
  simp only
  cases outcome : Reference.write shelf.capacity shelf.used pos buf
      content.data with
  | error error =>
      rw [outcome] at spec
      simp only at spec
      simp only [MemoryFs.provider, Stream.write, MemoryFs.writeHandle,
        MemoryFs.writeFile, sited.present, spec]
      exact ⟨_, rfl, stores.kept sited.present⟩
  | ok placed =>
      obtain ⟨count, data⟩ := placed
      rw [outcome] at spec
      obtain ⟨-, -, bound⟩ := Reference.length_write outcome
      have reached := bound word
      have plain : saturatingAdd pos count = pos + count := by
        unfold saturatingAdd wordMax
        omega
      simp only [MemoryFs.provider, Stream.write, MemoryFs.writeHandle,
        MemoryFs.writeFile, sited.present, spec, plain]
      exact ⟨_, rfl, stores.rewritten rfl⟩

theorem setLen_sited (pos : Nat) (stores : Stores fs shelf) (len : Nat) :
    ∃ next, MemoryFs.provider.streamSetLen ambient len (.memory id pos) fs =
        ((shelf.setLen len id content.inode).1, .memory id pos, next) ∧
      Stores next (shelf.setLen len id content.inode).2 := by
  have spec := content.setLen_eq sited.sound ambient.now len
  rw [stores.capacity, stores.used] at spec
  unfold Shelf.setLen MemFile.inode
  simp only
  cases outcome : Reference.setLen shelf.capacity shelf.used len
      content.data with
  | error error =>
      rw [outcome] at spec
      simp only at spec
      simp only [MemoryFs.provider, Stream.setLen, MemoryFs.setFileLen,
        sited.present, spec]
      exact ⟨_, rfl, stores.kept sited.present⟩
  | ok data =>
      rw [outcome] at spec
      simp only at spec
      simp only [MemoryFs.provider, Stream.setLen, MemoryFs.setFileLen,
        sited.present, spec]
      exact ⟨_, rfl, stores.rewritten rfl⟩

end Streams

/-! ## Through either kind of stream -/

/-- A provider with the streams of the in-memory tree. -/
structure StreamsInMemory
    (provider : VirtualFs Ambient MemoryFs Stream) : Prop where
  read : provider.read = MemoryFs.provider.read
  write : provider.write = MemoryFs.provider.write
  seek : provider.seek = MemoryFs.provider.seek
  streamPosition : provider.streamPosition = MemoryFs.provider.streamPosition
  size : provider.size = MemoryFs.provider.size
  streamSetLen : provider.streamSetLen = MemoryFs.provider.streamSetLen
  flush : provider.flush = MemoryFs.provider.flush
  drop : provider.drop = MemoryFs.provider.drop

section Opened

variable {Port Tag : Type} {fs : MemoryFs} {shelf : Shelf Port Tag}
  {description : Description Tag} {pos limit : Nat} {content : MemFile}
  {provider : VirtualFs Ambient MemoryFs Stream}

/-- A method of the stream of a description, through either kind of stream. -/
theorem both_streamAt (description : Description Tag) {pos : Nat}
    {Value : Type} {method : Stream → MemoryFs → Value × Stream × MemoryFs} {value : Value}
    {reached : Nat} {next : MemoryFs}
    (does : method (.memory description.inode pos) fs =
      (value, .memory description.inode reached, next)) :
    OpenStream.both method (description.streamAt pos) fs =
      (value, description.streamAt reached, next) := by
  unfold OpenStream.both
  rw [inner_streamAt, does]
  simp only [replace_streamAt]

theorem cursor_write_word (shelf : Shelf Port Tag)
    (description : Description Tag) (word : pos < 2 ^ 64) (data : List UInt8)
    (inode : Inode) :
    cursorAfter pos (shelf.write pos data description.inode inode).1 <
      2 ^ 64 := by
  unfold Shelf.write
  cases outcome : Reference.write shelf.capacity shelf.used pos data
      inode.data with
  | error error =>
      exact word
  | ok placed =>
      exact (Reference.length_write outcome).2.2 word

variable (streams : StreamsInMemory provider) (ambient : Ambient)
include streams

theorem flush_streamAt :
    (description.streamAt pos).flush provider ambient fs =
      (.ok (), description.streamAt pos, fs) := by
  cases kind : description.streamAt pos with
  | read stream =>
      rfl
  | write stream =>
      unfold OpenStream.flush
      rw [streams.flush]
      rfl

theorem streamPosition_streamAt :
    (description.streamAt pos).streamPosition provider ambient fs =
      (.ok pos, description.streamAt pos, fs) := by
  unfold OpenStream.streamPosition
  rw [streams.streamPosition]
  exact both_streamAt _ rfl

/-- A write leaves the accounts in order. -/
theorem leaky_writeBytes (description : Description Tag) (pos : Nat)
    {outside : Nat → Nat}
    (charged : MemoryFs.Leaky (MemoryFs.Counted limit) fs outside)
    (data : List UInt8) :
    MemoryFs.Leaky (MemoryFs.Counted limit)
      ((description.streamAt pos).writeBytes provider ambient data fs).2.2
      outside := by
  unfold Description.streamAt
  split
  · unfold OpenStream.writeBytes
    rw [streams.write]
    exact (MemoryFs.accounts_counted limit).leaky.writeHandle charged
      ambient.now description.inode pos data
  · exact charged

theorem leaky_setLen (description : Description Tag) (pos : Nat)
    {outside : Nat → Nat}
    (charged : MemoryFs.Leaky (MemoryFs.Counted limit) fs outside)
    (len : Nat) :
    MemoryFs.Leaky (MemoryFs.Counted limit)
      ((description.streamAt pos).setLen provider ambient len fs).2.2
      outside := by
  unfold Description.streamAt
  split
  · unfold OpenStream.setLen
    rw [streams.streamSetLen]
    exact (MemoryFs.accounts_counted limit).leaky.setFileLen ambient.now
      description.inode len charged
  · exact charged

variable (sited : Sited limit fs description.inode content)
include sited

theorem readBytes_streamAt (word : pos < 2 ^ 64) (len : Nat) :
    (description.streamAt pos).readBytes provider ambient len fs =
      (.ok (content.inode.read pos len),
        description.streamAt (pos + (content.inode.read pos len).length),
        fs) := by
  unfold OpenStream.readBytes
  rw [streams.read]
  exact both_streamAt _ (read_sited sited ambient word len)

theorem seek_streamAt (pos : Nat) (target : SeekFrom) :
    (description.streamAt pos).seek provider ambient target fs =
      match Reference.seek content.data.length pos target with
      | .error error => (.error error, description.streamAt pos, fs)
      | .ok reached => (.ok reached, description.streamAt reached, fs) := by
  have does := seek_sited sited ambient pos target
  unfold OpenStream.seek
  rw [streams.seek]
  cases aimed : Reference.seek content.data.length pos target with
  | error error =>
      rw [aimed] at does
      exact both_streamAt _ does
  | ok reached =>
      rw [aimed] at does
      exact both_streamAt _ does

theorem size_streamAt :
    (description.streamAt pos).size provider ambient fs =
      (.ok content.data.length, description.streamAt pos, fs) := by
  unfold OpenStream.size
  rw [streams.size]
  exact both_streamAt _ (size_sited sited ambient)

theorem writeBytes_streamAt (stores : Stores fs shelf) (word : pos < 2 ^ 64)
    (writes : description.writes = true) (data : List UInt8) :
    ∃ next, (description.streamAt pos).writeBytes provider ambient data fs =
        ((shelf.write pos data description.inode content.inode).1,
          description.streamAt (cursorAfter pos
            (shelf.write pos data description.inode content.inode).1),
          next) ∧
      Stores next
        (shelf.write pos data description.inode content.inode).2 := by
  obtain ⟨next, does, stored⟩ := write_sited sited ambient stores word data
  refine ⟨next, ?_, stored⟩
  have kind : ∀ at_, description.streamAt at_ =
      .write (.memory description.inode at_) := fun at_ => if_pos writes
  have moved := both_streamAt description does
  rw [kind] at moved ⊢
  unfold OpenStream.writeBytes
  rw [streams.write]
  exact moved

theorem setLen_streamAt (pos : Nat) (stores : Stores fs shelf)
    (writes : description.writes = true) (len : Nat) :
    ∃ next, (description.streamAt pos).setLen provider ambient len fs =
        ((shelf.setLen len description.inode content.inode).1,
          description.streamAt pos, next) ∧
      Stores next
        (shelf.setLen len description.inode content.inode).2 := by
  obtain ⟨next, does, stored⟩ := setLen_sited sited ambient pos
    stores len
  refine ⟨next, ?_, stored⟩
  have kind : ∀ at_, description.streamAt at_ =
      .write (.memory description.inode at_) := fun at_ => if_pos writes
  have moved := both_streamAt description does
  rw [kind] at moved ⊢
  unfold OpenStream.setLen
  rw [streams.streamSetLen]
  exact moved

omit streams in
theorem cursor_read_word (word : pos < 2 ^ 64) (len : Nat) :
    pos + (content.inode.read pos len).length < 2 ^ 64 := by
  have short := sited.short
  have bytes : content.inode.data = content.data := rfl
  unfold Inode.read
  rw [List.length_take, List.length_drop, bytes]
  omega

end Opened

end Hookfs.Memory
