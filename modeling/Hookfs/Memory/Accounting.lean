import Mathlib.Algebra.Group.Pi.Lemmas
import Hookfs.Lib.Runs
import Hookfs.Memory.Handles
import Hookfs.Memory.Tree

/-!
# Exact accounting

Every `Arc` of a writable file is held by an entry of the tree, by an open
handle, or by the operation under way.  `Counted` says that the counts
match, with the holders outside the tree as a parameter, and that the volume
has charged exactly the bytes of the files that are held, within its limit.
-/

namespace Hookfs.Memory

open Hookfs.Lib Hookfs.Vfs

/-! ## Holders -/

/-- One `Arc` of a file. -/
def one (file : Nat) : Nat → Nat := fun other => if other = file then 1 else 0

def Node.holds : Node → Nat → Nat
  | .memFile id _ => one id
  | .file _ _ _ => 0
  | .dir _ => 0

def MemoryFs.Stream.holds : MemoryFs.Stream → Nat → Nat
  | .memory file _ => one file
  | .source _ _ => 0

theorem Node.holds_rename (name : Text) (node : Node) :
    (node.rename name).holds = node.holds := by
  cases node with
  | file source old mtime =>
      rfl
  | memFile file old =>
      rfl
  | dir old =>
      rfl

namespace MemoryFs

/-- The `Arc`s the tree holds. -/
def treeHolds (fs : MemoryFs) : Nat → Nat :=
  Store.total (fun _ node => node.holds) fs.entries

/-- The strong count of a file, zero once it is gone. -/
def strong (fs : MemoryFs) (file : Nat) : Nat :=
  match fs.files.lookup file with
  | none => 0
  | some content => content.strong

/-- The bytes of all files. -/
def bytes (fs : MemoryFs) : Nat :=
  Store.total (fun _ content => content.data.length) fs.files

/-- Every `Arc` is held by the tree or `outside` of it, and the volume has
charged every file once. -/
structure Counted (limit : Nat) (fs : MemoryFs) (outside : Nat → Nat) :
    Prop where
  balance : fs.strong = fs.treeHolds + outside
  alive : ∀ file content, fs.files.lookup file = some content →
    0 < content.strong
  fresh : ∀ file, fs.nextFile ≤ file → fs.files.lookup file = none
  used : fs.volume.used = fs.bytes
  within : fs.volume.used ≤ fs.volume.capacity
  capacity : fs.volume.capacity = limit
  small : limit < 2 ^ 63
  exact : fs.volume.saturated = false

variable {limit : Nat} {fs : MemoryFs} {outside : Nat → Nat}

theorem strong_of_lookup {file : Nat} {content : MemFile}
    (present : fs.files.lookup file = some content) :
    fs.strong file = content.strong := by
  unfold strong
  rw [present]

theorem bytes_of_lookup {file : Nat} {content : MemFile}
    (present : fs.files.lookup file = some content) :
    fs.bytes = content.data.length +
      Store.total (fun _ other => other.data.length)
        (fs.files.erase file) :=
  Store.total_erase_of_lookup _ present

/-- A file somebody holds is there. -/
theorem Counted.present {file : Nat}
    (counted : fs.Counted limit (outside + one file)) :
    ∃ content, fs.files.lookup file = some content := by
  cases found : fs.files.lookup file with
  | some content =>
      exact ⟨content, rfl⟩
  | none =>
      have balance := congrFun counted.balance file
      simp [strong, found, one] at balance

/-- Changing entries so that the tree and the outside together hold the same
keeps the counts. -/
theorem Counted.reheld {entries : Store Text Node} {others : Nat → Nat}
    (counted : fs.Counted limit outside)
    (same : fs.treeHolds + outside =
      Store.total (fun _ node => node.holds) entries + others) :
    Counted limit { fs with entries := entries } others where
  balance := counted.balance.trans same
  alive := counted.alive
  fresh := counted.fresh
  used := counted.used
  within := counted.within
  capacity := counted.capacity
  small := counted.small
  exact := counted.exact

/-! ## Reference counts -/

theorem Counted.newFile (counted : fs.Counted limit outside) (now : Time) :
    (fs.newFile now).2.Counted limit (outside + one (fs.newFile now).1) := by
  have absent := counted.fresh fs.nextFile (Nat.le_refl _)
  refine ⟨?_, ?_, ?_, ?_, counted.within, counted.capacity, counted.small,
    counted.exact⟩
  · funext other
    have balance := congrFun counted.balance other
    by_cases same : other = fs.nextFile
    · subst same
      simp only [strong, absent, Pi.add_apply] at balance
      simp only [MemoryFs.newFile, strong, AList.lookup_insert, treeHolds,
        one, if_true, Pi.add_apply] at balance ⊢
      omega
    · simp only [MemoryFs.newFile, strong, AList.lookup_insert_ne same,
        treeHolds, one, if_neg same, Pi.add_apply] at balance ⊢
      omega
  · intro other content present
    by_cases same : other = fs.nextFile
    · subst same
      simp only [MemoryFs.newFile, AList.lookup_insert,
        Option.some.injEq] at present
      rw [← present]
      exact Nat.one_pos
    · simp only [MemoryFs.newFile, AList.lookup_insert_ne same] at present
      exact counted.alive other content present
  · intro other above
    have different : other ≠ fs.nextFile := by
      intro same
      simp only [MemoryFs.newFile] at above
      omega
    simp only [MemoryFs.newFile] at above ⊢
    rw [AList.lookup_insert_ne different]
    exact counted.fresh other (by omega)
  · have bytes : (fs.newFile now).2.bytes = 0 + fs.bytes :=
      Store.total_insert_of_none _ absent
    rw [bytes, Nat.zero_add]
    exact counted.used

/-- Changing what the map has for one file, with its strong count and its
length in step with the holders and the volume. -/
theorem Counted.update {file : Nat} {before after : MemFile}
    {volume : Volume} {others : Nat → Nat} (counted : fs.Counted limit outside)
    (present : fs.files.lookup file = some before)
    (alive : 0 < after.strong)
    (held : others file + before.strong = outside file + after.strong)
    (elsewhere : ∀ other, other ≠ file → others other = outside other)
    (charged : volume.used + before.data.length =
      fs.volume.used + after.data.length)
    (within : volume.used ≤ volume.capacity)
    (capacity : volume.capacity = fs.volume.capacity)
    (unclamped : volume.saturated = false) :
    Counted limit { fs with
      files := fs.files.insert file after
      volume := volume } others where
  balance := by
    funext other
    have balance := congrFun counted.balance other
    by_cases same : other = file
    · subst same
      simp only [strong, present, AList.lookup_insert, treeHolds,
        Pi.add_apply] at balance ⊢
      omega
    · simp only [strong, AList.lookup_insert_ne same, treeHolds,
        Pi.add_apply, elsewhere other same] at balance ⊢
      exact balance
  alive := by
    intro other content found
    by_cases same : other = file
    · subst same
      rw [AList.lookup_insert, Option.some.injEq] at found
      rwa [← found]
    · rw [AList.lookup_insert_ne same] at found
      exact counted.alive other content found
  fresh := by
    intro other above
    have absent := counted.fresh other above
    have different : other ≠ file := by
      rintro rfl
      rw [present] at absent
      cases absent
    rw [AList.lookup_insert_ne different, absent]
  used := by
    have old := bytes_of_lookup present
    have new := Store.total_insert
      (fun _ (other : MemFile) => other.data.length) fs.files file after
    have used := counted.used
    simp only [bytes] at old used ⊢
    rw [new]
    omega
  within := within
  capacity := capacity.trans counted.capacity
  small := counted.small
  exact := unclamped

theorem Counted.cloneFile {file : Nat} {content : MemFile}
    (counted : fs.Counted limit outside)
    (present : fs.files.lookup file = some content) :
    (fs.cloneFile file).Counted limit (outside + one file) := by
  unfold MemoryFs.cloneFile
  rw [present]
  apply counted.update present
  · exact Nat.succ_pos _
  · simp only [one, Pi.add_apply, if_true]
    omega
  · intro other different
    simp [one, different]
  · rfl
  · exact counted.within
  · rfl
  · exact counted.exact

/-- The volume charges at least the bytes of every file. -/
theorem Counted.length_le {file : Nat} {content : MemFile}
    (counted : fs.Counted limit outside)
    (present : fs.files.lookup file = some content) :
    content.data.length ≤ fs.volume.used := by
  rw [counted.used, bytes_of_lookup present]
  exact Nat.le_add_right _ _

theorem Counted.dropFile {file : Nat}
    (counted : fs.Counted limit (outside + one file)) :
    (fs.dropFile file).Counted limit outside := by
  obtain ⟨content, present⟩ := counted.present
  have holders := congrFun counted.balance file
  rw [strong_of_lookup present] at holders
  simp only [one, Pi.add_apply, if_true] at holders
  have enough := counted.length_le present
  unfold MemoryFs.dropFile
  rw [present]
  simp only
  split
  · -- the last `Arc`: the file goes and its bytes are returned
    refine ⟨?_, ?_, ?_, ?_, ?_, counted.capacity, counted.small, ?_⟩
    · funext other
      have balance := congrFun counted.balance other
      by_cases same : other = file
      · subst same
        simp only [strong, AList.lookup_erase, Pi.add_apply, treeHolds]
          at holders ⊢
        omega
      · simp only [strong, AList.lookup_erase_ne same, treeHolds,
          Pi.add_apply, one, if_neg same, Nat.add_zero] at balance ⊢
        exact balance
    · intro other found otherPresent
      by_cases same : other = file
      · subst same
        rw [AList.lookup_erase] at otherPresent
        cases otherPresent
      · rw [AList.lookup_erase_ne same] at otherPresent
        exact counted.alive other found otherPresent
    · intro other above
      by_cases same : other = file
      · subst same
        exact AList.lookup_erase _ _
      · rw [AList.lookup_erase_ne same]
        exact counted.fresh other above
    · have old := bytes_of_lookup present
      have used := counted.used
      simp only [Volume.release, Volume.subUsed, bytes] at old used ⊢
      omega
    · have within := counted.within
      simp only [Volume.release, Volume.subUsed]
      omega
    · simp only [Volume.release, Volume.subUsed, counted.exact,
        Bool.false_or, decide_eq_false_iff_not]
      omega
  · rename_i shared
    apply counted.update present
    · simp only
      omega
    · simp only [one, Pi.add_apply, if_true]
      omega
    · intro other different
      simp [one, different]
    · rfl
    · exact counted.within
    · rfl
    · exact counted.exact

/-! ## Contents -/

/-- An operation on one file that keeps its volume in step. -/
structure Recharged (before after : MemFile) (volume next : Volume) :
    Prop where
  strong : after.strong = before.strong
  charged : next.used + before.data.length =
    volume.used + after.data.length
  within : next.used ≤ next.capacity
  capacity : next.capacity = volume.capacity
  exact : next.saturated = false

/-- What the operations on one file rely on. -/
structure Sound (content : MemFile) (volume : Volume) : Prop where
  enough : content.data.length ≤ volume.used
  within : volume.used ≤ volume.capacity
  small : volume.capacity < 2 ^ 63
  exact : volume.saturated = false

theorem Counted.sound {file : Nat} {content : MemFile}
    (counted : fs.Counted limit outside)
    (present : fs.files.lookup file = some content) :
    Sound content fs.volume :=
  ⟨counted.length_le present, counted.within,
    counted.capacity ▸ counted.small, counted.exact⟩

theorem recharged_refl {content : MemFile} {volume : Volume}
    (sound : Sound content volume) :
    Recharged content content volume volume :=
  ⟨rfl, rfl, sound.within, rfl, sound.exact⟩

theorem length_resizeBytes (len : Nat) (data : List UInt8) :
    (resizeBytes len data).length = len := by
  unfold resizeBytes
  rw [List.length_append, List.length_take, List.length_replicate]
  omega

theorem length_overwrite {start : Nat} {bytes data : List UInt8}
    (fits : start + bytes.length ≤ data.length) :
    (overwrite start bytes data).length = data.length := by
  unfold overwrite
  simp only [List.length_append, List.length_take, List.length_drop]
  omega

/-- A resize that passes charges the difference. -/
theorem resize_ok {new : Nat} {content : MemFile} {volume resized : Volume}
    (sound : Sound content volume)
    (passed : volume.resize content.data.length new = (.ok (), resized)) :
    resized.used + content.data.length = volume.used + new ∧
      resized.used ≤ resized.capacity ∧
      resized.capacity = volume.capacity ∧ resized.saturated = false := by
  obtain ⟨enough, within, small, exact⟩ := sound
  unfold Volume.resize at passed
  split at passed
  · rename_i growing
    split at passed
    · cases passed
    · rename_i fits
      -- the saturating sum stays below the capacity, so nothing saturates
      have sum : volume.used + (new - content.data.length) ≤
          volume.capacity := by
        unfold saturatingAdd wordMax at fits
        omega
      have plain : wrappingAdd volume.used (new - content.data.length) =
          volume.used + (new - content.data.length) := by
        apply wrappingAdd_eq
        unfold wordMax
        omega
      injection passed with _ same
      subst same
      simp only [plain]
      exact ⟨by omega, sum, trivial, exact⟩
  · injection passed with _ same
    subst same
    simp only [Volume.subUsed, exact, Bool.false_or,
      decide_eq_false_iff_not]
    exact ⟨by omega, by omega, trivial, by omega⟩

theorem resize_error {old new : Nat} {volume resized : Volume}
    {error : IoError}
    (failed : volume.resize old new = (.error error, resized)) :
    resized = volume := by
  unfold Volume.resize at failed
  split at failed
  · split at failed
    · injection failed with _ same
      exact same.symm
    · cases failed
  · cases failed

/-- `set_len` charges the change of length, or changes nothing. -/
theorem recharged_setLen {content : MemFile} {volume : Volume}
    (sound : Sound content volume) (now : Time) (len : Nat) :
    Recharged content (content.setLen now len volume).2.1 volume
      (content.setLen now len volume).2.2 := by
  unfold MemFile.setLen
  split
  · rename_i error kept failed
    rw [resize_error failed]
    exact recharged_refl sound
  · rename_i resized passed
    obtain ⟨charged, within, capacity, exact⟩ := resize_ok sound passed
    refine ⟨rfl, ?_, within, capacity, exact⟩
    simp only [length_resizeBytes]
    exact charged

/-- What `reserve` grants, without the word arithmetic. -/
theorem reserve_eq {content : MemFile} {volume : Volume}
    (sound : Sound content volume) (desired : Nat) :
    ∃ grant, grant ≤ desired - content.data.length ∧
      volume.used + grant ≤ volume.capacity ∧
      volume.reserve content.data.length desired =
        (content.data.length + grant,
          { volume with used := volume.used + grant }) := by
  obtain ⟨enough, within, small, -⟩ := sound
  refine ⟨min (desired - content.data.length)
    (volume.capacity - volume.used), by omega, by omega, ?_⟩
  unfold Volume.reserve
  simp only
  rw [wrappingAdd_eq, wrappingAdd_eq]
  · unfold wordMax
    omega
  · unfold wordMax
    omega

/-- `write_at` charges the growth it uses and returns what it reserved in
vain. -/
theorem recharged_writeAt {content : MemFile} {volume : Volume}
    (sound : Sound content volume) (now : Time) (pos : Nat)
    (buf : List UInt8) :
    Recharged content (content.writeAt now pos buf volume).2.1 volume
      (content.writeAt now pos buf volume).2.2 := by
  unfold MemFile.writeAt
  split
  · exact recharged_refl sound
  · simp only
    split
    · exact recharged_refl sound
    · rename_i desiredEnd _
      obtain ⟨grant, -, fits, reserved⟩ := reserve_eq sound
        (max desiredEnd content.data.length)
      simp only [reserved]
      split
      · -- not one byte fits: the reservation is handed back
        have back : content.data.length + grant - content.data.length =
            grant := by omega
        refine ⟨rfl, ?_, ?_, rfl, ?_⟩
        · simp only [Volume.release, Volume.subUsed, back]
          omega
        · simp only [Volume.release, Volume.subUsed, back]
          omega
        · simp only [Volume.release, Volume.subUsed, back, sound.exact,
            Bool.false_or, decide_eq_false_iff_not]
          omega
      · rename_i some
        generalize grownEq : (if content.data.length <
            content.data.length + grant then
          resizeBytes (content.data.length + grant) content.data
          else content.data) = grown
        have grownLength : grown.length = content.data.length + grant := by
          rw [← grownEq]
          split
          · exact length_resizeBytes _ _
          · omega
        have room : pos + (buf.take (min
            (content.data.length + grant - pos) buf.length)).length ≤
              grown.length := by
          rw [grownLength, List.length_take]
          omega
        refine ⟨rfl, ?_, fits, rfl, sound.exact⟩
        simp only [length_overwrite room, grownLength]
        omega

/-- Putting a recharged file back keeps the counts. -/
theorem Counted.recharge {file : Nat} {before after : MemFile}
    {volume : Volume} (counted : fs.Counted limit outside)
    (present : fs.files.lookup file = some before)
    (recharged : Recharged before after fs.volume volume) :
    Counted limit { fs with
      files := fs.files.insert file after
      volume := volume } outside := by
  apply counted.update present
  · rw [recharged.strong]
    exact counted.alive file before present
  · rw [recharged.strong]
  · exact fun _ _ => rfl
  · exact recharged.charged
  · exact recharged.within
  · exact recharged.capacity
  · exact recharged.exact

theorem Counted.setFileLen (counted : fs.Counted limit outside) (now : Time)
    (file len : Nat) : (fs.setFileLen now file len).2.Counted limit outside := by
  unfold MemoryFs.setFileLen
  split
  · exact counted
  · rename_i content present
    exact counted.recharge present
      (recharged_setLen (counted.sound present) now len)

theorem Counted.writeFile (counted : fs.Counted limit outside) (now : Time)
    (file pos : Nat) (buf : List UInt8) :
    (fs.writeFile now file pos buf).2.Counted limit outside := by
  unfold MemoryFs.writeFile
  split
  · exact counted
  · rename_i content present
    exact counted.recharge present
      (recharged_writeAt (counted.sound present) now pos buf)

theorem cloneFile_data (file other : Nat) (fs : MemoryFs) :
    ((fs.cloneFile file).files.lookup other).map MemFile.data =
      (fs.files.lookup other).map MemFile.data := by
  unfold cloneFile
  split
  · rfl
  · rename_i content present
    by_cases same : other = file
    · subst same
      rw [AList.lookup_insert, present]
      rfl
    · rw [AList.lookup_insert_ne same]

/-! ## What accounts for the primitive operations

Every other operation on the tree is made of a few that touch `Arc`s, so a
property of the tree and of the holders outside of it survives them all once
it survives these. -/

/-- A property of a tree and of the `Arc`s held outside of it that the
primitive operations keep. -/
structure Accounts (kept : MemoryFs → (Nat → Nat) → Prop) : Prop where
  present : ∀ {fs : MemoryFs} {outside : Nat → Nat} {file : Nat},
    kept fs (outside + one file) →
      ∃ content, fs.files.lookup file = some content
  reheld : ∀ {fs : MemoryFs} {outside others : Nat → Nat}
    {entries : Store Text Node}, kept fs outside →
      fs.treeHolds + outside =
        Store.total (fun _ node => node.holds) entries + others →
      kept { fs with entries := entries } others
  newFile : ∀ {fs : MemoryFs} {outside : Nat → Nat} (now : Time),
    kept fs outside →
      kept (fs.newFile now).2 (outside + one (fs.newFile now).1)
  cloneFile : ∀ {fs : MemoryFs} {outside : Nat → Nat} {file : Nat}
    {content : MemFile}, kept fs outside →
      fs.files.lookup file = some content →
      kept (fs.cloneFile file) (outside + one file)
  dropFile : ∀ {fs : MemoryFs} {outside : Nat → Nat} {file : Nat},
    kept fs (outside + one file) → kept (fs.dropFile file) outside
  setFileLen : ∀ {fs : MemoryFs} {outside : Nat → Nat} (now : Time)
    (file len : Nat), kept fs outside →
      kept (fs.setFileLen now file len).2 outside
  writeFile : ∀ {fs : MemoryFs} {outside : Nat → Nat} (now : Time)
    (file pos : Nat) (buf : List UInt8), kept fs outside →
      kept (fs.writeFile now file pos buf).2 outside

theorem total_orInsert (key name : Text) (entries : Store Text Node) :
    Store.total (fun _ node => node.holds)
        (orInsert key (.dir name) entries) =
      Store.total (fun _ node => node.holds) entries := by
  unfold orInsert
  split
  · rfl
  · rename_i absent
    rw [Option.not_isSome_iff_eq_none] at absent
    rw [Store.total_insert_of_none _ absent, Node.holds, zero_add]

theorem total_ancestorLoop :
    ∀ (rounds : Nat) (dir : Option Text) (entries : Store Text Node),
      Store.total (fun _ node => node.holds)
          (ancestorLoop rounds dir entries) =
        Store.total (fun _ node => node.holds) entries
  | 0, _, _ => rfl
  | _ + 1, none, _ => rfl
  | rounds + 1, some dir, entries => by
      unfold ancestorLoop
      split
      · rfl
      · simp only
        split
        · exact total_orInsert _ _ entries
        · rw [total_ancestorLoop rounds, total_orInsert]

/-- The `Arc`s that the stream of an open holds. -/
def openedHolds : Option (Except IoError Stream) → Nat → Nat
  | some (.ok stream) => stream.holds
  | some (.error _) => 0
  | none => 0

section Accounts

variable {kept : MemoryFs → (Nat → Nat) → Prop} (accounts : Accounts kept)
include accounts

namespace Accounts

/-! ### Entries -/

theorem dropNode {node : Node} (here : kept fs (outside + node.holds)) :
    kept (fs.dropNode node) outside := by
  cases node with
  | memFile id name =>
      exact accounts.dropFile here
  | file source name mtime =>
      rw [Node.holds, add_zero] at here
      exact here
  | dir name =>
      rw [Node.holds, add_zero] at here
      exact here

/-- Taking a node out of the map hands its `Arc` to the operation. -/
theorem take {key : Text} {node : Node} (here : kept fs outside)
    (found : fs.entries.lookup key = some node) :
    kept { fs with entries := fs.entries.erase key }
      (outside + node.holds) := by
  apply accounts.reheld here
  rw [treeHolds, Store.total_erase_of_lookup _ found]
  abel

theorem evict (here : kept fs outside) (key : Text) :
    kept (fs.evict key) outside := by
  unfold MemoryFs.evict
  split
  · exact here
  · rename_i node found
    exact accounts.dropNode (accounts.take here found)

/-- Placing a node hands its `Arc` to the map. -/
theorem place (node : Node) (here : kept fs (outside + node.holds))
    (key : Text) : kept (fs.place key node) outside := by
  have cleared := accounts.evict here key
  apply accounts.reheld cleared
  have absent : (fs.evict key).entries.lookup key = none := by
    rw [lookup_evict, if_pos rfl]
  rw [Store.total_insert_of_none _ absent, treeHolds]
  abel

theorem place_plain {node : Node} (plain : node.holds = 0)
    (here : kept fs outside) (key : Text) :
    kept (fs.place key node) outside := by
  apply accounts.place node
  rwa [plain, add_zero]

theorem insertAncestorDirs (here : kept fs outside) (path : Text) :
    kept (fs.insertAncestorDirs path) outside := by
  apply accounts.reheld here
  rw [total_ancestorLoop, treeHolds]

theorem foldl_evict :
    ∀ (keys : List Text) {fs : MemoryFs}, kept fs outside →
      kept (keys.foldl (fun current key => current.evict key) fs) outside
  | [], _, here => here
  | key :: rest, _, here => foldl_evict rest (accounts.evict here key)

theorem pruneLoop :
    ∀ (rounds : Nat) (dir : Option Text) {fs : MemoryFs},
      kept fs outside → kept (pruneLoop rounds dir fs) outside
  | 0, _, _, here => here
  | _ + 1, none, _, here => here
  | rounds + 1, some dir, fs, here => by
      unfold MemoryFs.pruneLoop
      split
      · split
        · exact here
        · exact pruneLoop rounds _ (accounts.evict here dir)
      · exact here

theorem removeSubtree (here : kept fs outside) (key : Text) :
    kept (fs.removeSubtree key) outside :=
  accounts.pruneLoop _ _ (accounts.foldl_evict _ here)

theorem moveLoop (source target name : Text) :
    ∀ (keys : List Text) {fs : MemoryFs}, kept fs outside →
      kept (moveLoop source target name keys fs) outside
  | [], _, here => here
  | key :: rest, fs, here => by
      unfold MemoryFs.moveLoop
      split
      · exact moveLoop source target name rest here
      · rename_i node found
        apply moveLoop source target name rest
        apply accounts.place
        have taken := accounts.take here found
        split
        · rw [Node.holds_rename]
          exact taken
        · exact taken

theorem clearDestination {kind : Bool} {key : Text} {cleared : MemoryFs}
    (here : kept fs outside)
    (passed : clearDestination kind key fs = .ok cleared) :
    kept cleared outside := by
  unfold MemoryFs.clearDestination at passed
  split at passed
  · injection passed with same
    exact same ▸ here
  · split at passed
    · cases passed
    · cases passed
    · split at passed
      · cases passed
      · injection passed with same
        exact same ▸ accounts.evict here key
    · injection passed with same
      exact same ▸ accounts.evict here key

theorem rename (here : kept fs outside) (hash : HashOrder)
    (source target : Text) :
    kept (fs.rename hash source target).2 outside := by
  unfold MemoryFs.rename
  simp only
  split
  · exact here
  · split
    · exact here
    · split
      · exact here
      · split
        · exact here
        · rename_i cleared passed
          have ready := accounts.clearDestination here passed
          exact accounts.insertAncestorDirs
            (accounts.moveLoop _ _ _ _ ready) target

/-! ### Opening and inserting -/

/-- A file in the tree is there. -/
theorem present_of_entry {key name : Text} {file : Nat}
    (here : kept fs outside)
    (entry : fs.entries.lookup key = some (.memFile file name)) :
    ∃ content, fs.files.lookup file = some content := by
  let rest : MemoryFs := { fs with entries := fs.entries.erase key }
  have taken : kept rest (outside + one file) := accounts.take here entry
  have held : ∃ content, rest.files.lookup file = some content :=
    accounts.present taken
  exact held

theorem «open» (here : kept fs outside) (path : Text)
    (opts : OpenOptions) :
    kept (fs.open path opts).2
      (outside + openedHolds (fs.open path opts).1) := by
  unfold MemoryFs.open
  split
  · rwa [openedHolds, add_zero]
  · rwa [openedHolds, Stream.holds, add_zero]
  · rename_i file name entry
    obtain ⟨content, found⟩ := accounts.present_of_entry here entry
    exact accounts.cloneFile here found
  · rwa [openedHolds, add_zero]

theorem finishOpenWrite {file : Nat}
    (here : kept fs (outside + one file)) (now : Time)
    (opts : OpenOptions) :
    kept (fs.finishOpenWrite now opts file).2
      (outside + openedHolds (fs.finishOpenWrite now opts file).1) := by
  unfold MemoryFs.finishOpenWrite
  have truncated : kept (if opts.truncate then fs.setFileLen now file 0
      else (.ok (), fs)).2 (outside + one file) := by
    split
    · exact accounts.setFileLen now file 0 here
    · exact here
  simp only
  split
  · rw [openedHolds, add_zero]
    exact accounts.dropFile truncated
  · exact truncated

/-- A file that is made has two `Arc`s: one goes to the tree, one to its
handle. -/
theorem created (here : kept fs outside) (now : Time) (key name : Text) :
    kept (((fs.newFile now).2.cloneFile (fs.newFile now).1).place key
      (.memFile (fs.newFile now).1 name))
        (outside + one (fs.newFile now).1) := by
  have made := accounts.newFile now here
  obtain ⟨content, found⟩ := accounts.present made
  exact accounts.place (.memFile (fs.newFile now).1 name)
    (accounts.cloneFile made found) key

theorem openWrite (here : kept fs outside) (now : Time) (path : Text)
    (opts : OpenOptions) :
    kept (fs.openWrite now path opts).2
      (outside + openedHolds (fs.openWrite now path opts).1) := by
  unfold MemoryFs.openWrite
  simp only
  split
  · rwa [openedHolds, add_zero]
  · rwa [openedHolds, add_zero]
  · rename_i file name entry
    split
    · rwa [openedHolds, add_zero]
    · obtain ⟨content, found⟩ := accounts.present_of_entry here entry
      exact accounts.finishOpenWrite (accounts.cloneFile here found) now opts
  · split
    · have made := accounts.created here now (Posix.normalizeKeyStr path)
        (Posix.finalComponent path)
      exact accounts.finishOpenWrite (accounts.insertAncestorDirs made path)
        now opts
    · rwa [openedHolds, add_zero]

theorem insertFile (here : kept fs outside) (path : Text)
    (source : SharedSource) (mtime : Option Time) :
    kept (fs.insertFile path source mtime).2 outside :=
  accounts.insertAncestorDirs (accounts.place_plain rfl here _) path

theorem insertWritable (here : kept fs outside) (now : Time)
    (path : Text) : kept (fs.insertWritable now path).2 outside :=
  accounts.insertAncestorDirs
    (accounts.place (.memFile (fs.newFile now).1 (Posix.finalComponent path))
      (accounts.newFile now here) _) path

theorem createDir (here : kept fs outside) (path : Text) :
    kept (fs.createDir path).2 outside := by
  unfold MemoryFs.createDir
  simp only
  split
  · exact here
  · exact accounts.insertAncestorDirs (accounts.place_plain rfl here _) path

theorem remove (here : kept fs outside) (path : Text) :
    kept (fs.remove path).2 outside := by
  unfold MemoryFs.remove
  simp only
  split
  · exact here
  · split
    · exact here
    · exact accounts.evict here _
  · exact accounts.evict here _

theorem setLen (here : kept fs outside) (now : Time) (path : Text)
    (len : Nat) : kept (fs.setLen now path len).2 outside := by
  unfold MemoryFs.setLen
  split
  · exact accounts.setFileLen now _ len here
  · exact here
  · exact here

/-! ### Streams -/

theorem dropStream {stream : Stream}
    (here : kept fs (outside + stream.holds)) :
    kept (stream.drop fs) outside := by
  cases stream with
  | source origin pos =>
      rw [Stream.holds, add_zero] at here
      exact here
  | memory file pos =>
      exact accounts.dropFile here

theorem writeHandle (here : kept fs outside) (now : Time) (file pos : Nat)
    (buf : List UInt8) :
    kept (fs.writeHandle now file pos buf).2.2 outside := by
  have written := accounts.writeFile now file pos buf here
  unfold MemoryFs.writeHandle
  split
  · rename_i result
    rw [result] at written
    exact written
  · rename_i result
    rw [result] at written
    exact written

end Accounts

end Accounts

/-! ## The counts account for everything -/

theorem accounts_counted (limit : Nat) : Accounts (Counted limit) where
  present counted := counted.present
  reheld counted same := counted.reheld same
  newFile now counted := counted.newFile now
  cloneFile counted present := counted.cloneFile present
  dropFile counted := counted.dropFile
  setFileLen now file len counted := counted.setFileLen now file len
  writeFile now file pos buf counted := counted.writeFile now file pos buf

/-- A file in the tree is there. -/
theorem Counted.present_of_entry {key name : Text} {file : Nat}
    (counted : fs.Counted limit outside)
    (entry : fs.entries.lookup key = some (.memFile file name)) :
    ∃ content, fs.files.lookup file = some content :=
  (accounts_counted limit).present_of_entry counted entry

/-! ## What a stream holds -/

theorem holds_moveTo (pos : Nat) (stream : Stream) :
    (stream.moveTo pos).holds = stream.holds := by
  cases stream with
  | source origin old =>
      rfl
  | memory file old =>
      rfl

theorem holds_read (physical : Physical) (len : Nat) (fs : MemoryFs)
    (stream : Stream) :
    (stream.read physical len fs).2.holds = stream.holds := by
  cases stream with
  | source origin pos =>
      simp only [Stream.read]
      split
      · rfl
      · split
        · rfl
        · rfl
  | memory file pos =>
      simp only [Stream.read]
      split
      · rfl
      · rfl

theorem holds_seek (target : SeekFrom) (fs : MemoryFs) (stream : Stream) :
    (stream.seek target fs).2.holds = stream.holds := by
  unfold Stream.seek
  split
  · rfl
  · exact holds_moveTo _ stream

theorem holds_writeHandle (now : Time) (file pos : Nat) (buf : List UInt8)
    (fs : MemoryFs) :
    (fs.writeHandle now file pos buf).2.1.holds = one file := by
  unfold writeHandle
  split
  · rfl
  · rfl

end MemoryFs

end Hookfs.Memory
