import Hookfs.Memory.Provider
import Hookfs.Vfs.Overlay

/-!
# Overlays of in-memory trees

Which layer of an overlay of `MemoryFs` layers a path belongs to is decided
by `metadata`.  `open` and `read_dir` go to that layer.  The mutating methods
of a layer that does not have the path answer `NotFound` instead of
declining, so they reach that layer only if it is the first one.
-/

namespace Hookfs.Memory

open Hookfs.Lib Hookfs.Vfs Hookfs.Posix

/-- The calls on an existing path. -/
inductive PathCall where
  | «open» (opts : OpenOptions)
  | readDir
  | remove
  | setLen (len : Nat)
  | rename (target : Text)
  | openWrite (opts : OpenOptions)

namespace PathCall

/-- The answer to a call. -/
inductive Reply (Stream : Type) where
  | opened (result : Except IoError Stream)
  | listed (result : Except IoError (List DirEntry))
  | done (result : Except IoError Unit)
  deriving DecidableEq

/-- The stream of an answer of one layer, as the overlay hands it out. -/
def Reply.ofLayer {Stream : Type} (index : Nat) :
    Reply Stream → Reply (Nat × Stream)
  | .opened result => .opened (result.map fun stream => (index, stream))
  | .listed result => .listed result
  | .done result => .done result

def answer {Value State Reply : Type} (wrap : Value → Reply)
    (asked : Option Value × State) : Option Reply × State :=
  (asked.1.map wrap, asked.2)

/-- Issue a call to a provider. -/
def issue {State Stream : Type} (provider : VirtualFs Ambient State Stream)
    (ambient : Ambient) (path : Text) (state : State) :
    PathCall → Option (Reply Stream) × State
  | .open opts => answer .opened (provider.open ambient path opts state)
  | .readDir => answer .listed (provider.readDir ambient path state)
  | .remove => answer .done (provider.remove ambient path state)
  | .setLen len => answer .done (provider.setLen ambient path len state)
  | .rename target =>
      answer .done (provider.rename ambient path target state)
  | .openWrite opts =>
      answer .opened (provider.openWrite ambient path opts state)

/-- `read_dir` is asked of a directory, and `open_write` without a create
option. -/
def Proper (owned : Metadata) : PathCall → Prop
  | .readDir => owned.isDir = true
  | .openWrite opts => opts.creates = false
  | _ => True

/-- `open` and `read_dir`, which only read. -/
def Reads : PathCall → Prop
  | .open _ => True
  | .readDir => True
  | _ => False

end PathCall

namespace MemoryFs

variable {fs : MemoryFs} {path : Text}

/-! ## What one layer answers -/

theorem metadata_none_iff :
    fs.metadata path = none ↔
      fs.entries.lookup (normalizeKeyStr path) = none := by
  unfold metadata
  rw [Option.map_eq_none_iff]

theorem metadata_ok {owned : Metadata}
    (owns : fs.metadata path = some (.ok owned)) :
    ∃ node, fs.entries.lookup (normalizeKeyStr path) = some node ∧
      owned = fs.nodeMetadata node := by
  unfold metadata at owns
  rw [Option.map_eq_some_iff] at owns
  obtain ⟨node, present, same⟩ := owns
  injection same with same
  exact ⟨node, present, same.symm⟩

theorem setLen_error {file : MemFile} {volume : Volume} {now : Time}
    {len : Nat} {error : IoError}
    (failed : (file.setLen now len volume).1 = .error error) :
    error = noSpace := by
  unfold MemFile.setLen at failed
  cases outcome : volume.resize file.data.length len with
  | mk result next =>
      rw [outcome] at failed
      cases result with
      | ok done =>
          cases failed
      | error cause =>
          injection failed with same
          unfold Volume.resize at outcome
          split at outcome
          · split at outcome
            · injection outcome with refused
              injection refused with space
              rw [← same, space]
            · cases outcome
          · cases outcome

theorem setFileLen_error {now : Time} {file len : Nat} {error : IoError}
    (failed : (fs.setFileLen now file len).1 = .error error) :
    error = noSpace := by
  unfold setFileLen at failed
  split at failed
  · cases failed
  · exact setLen_error failed

/-- An answer other than `NotFound`. -/
def Finds {Value : Type} (answer : Option (Except IoError Value)) : Prop :=
  ∃ result, answer = some result ∧ result ≠ .error (.simple .notFound)

theorem remove_finds {node : Node}
    (present : fs.entries.lookup (normalizeKeyStr path) = some node) :
    Finds (fs.remove path).1 := by
  unfold MemoryFs.remove
  simp only [present]
  cases node with
  | dir name =>
      simp only
      split
      · exact ⟨_, rfl, by decide⟩
      · exact ⟨_, rfl, by decide⟩
  | file source name mtime =>
      exact ⟨_, rfl, by decide⟩
  | memFile file name =>
      exact ⟨_, rfl, by decide⟩

theorem setFileLen_finds (now : Time) (file len : Nat) :
    (fs.setFileLen now file len).1 ≠ .error (.simple .notFound) := by
  intro failed
  exact absurd (setFileLen_error failed) (by decide)

theorem setLen_finds {node : Node} (now : Time) (len : Nat)
    (present : fs.entries.lookup (normalizeKeyStr path) = some node) :
    Finds (fs.setLen now path len).1 := by
  unfold MemoryFs.setLen
  simp only [present]
  cases node with
  | dir name =>
      exact ⟨_, rfl, by decide⟩
  | file source name mtime =>
      exact ⟨_, rfl, by decide⟩
  | memFile file name =>
      exact ⟨_, rfl, setFileLen_finds now file len⟩

theorem clearDestination_finds {sourceIsDir : Bool} {key : Text}
    {error : IoError}
    (failed : clearDestination sourceIsDir key fs = .error error) :
    error ≠ .simple .notFound := by
  unfold clearDestination at failed
  split at failed
  · cases failed
  · split at failed
    · injection failed with same
      rw [← same]
      decide
    · injection failed with same
      rw [← same]
      decide
    · split at failed
      · injection failed with same
        rw [← same]
        decide
      · cases failed
    · cases failed

theorem rename_finds {node : Node} (hash : HashOrder) (target : Text)
    (present : fs.entries.lookup (normalizeKeyStr path) = some node) :
    Finds (fs.rename hash path target).1 := by
  unfold MemoryFs.rename
  simp only [present]
  split
  · exact ⟨_, rfl, by decide⟩
  · split
    · exact ⟨_, rfl, by decide⟩
    · split
      · rename_i error failed
        refine ⟨_, rfl, ?_⟩
        intro same
        injection same with same
        exact clearDestination_finds failed same
      · exact ⟨_, rfl, by simp⟩

theorem finishOpenWrite_finds (now : Time) (opts : OpenOptions) (file : Nat) :
    Finds (fs.finishOpenWrite now opts file).1 := by
  unfold finishOpenWrite
  simp only
  split
  · rename_i error failed
    refine ⟨_, rfl, ?_⟩
    intro same
    injection same with same
    subst same
    split at failed
    · exact setFileLen_finds now file 0 failed
    · cases failed
  · exact ⟨_, rfl, by simp⟩

theorem openWrite_finds {node : Node} (now : Time) (opts : OpenOptions)
    (present : fs.entries.lookup (normalizeKeyStr path) = some node) :
    Finds (fs.openWrite now path opts).1 := by
  unfold MemoryFs.openWrite
  simp only [present]
  cases node with
  | dir name =>
      exact ⟨_, rfl, by decide⟩
  | file source name mtime =>
      exact ⟨_, rfl, by decide⟩
  | memFile file name =>
      simp only
      split
      · exact ⟨_, rfl, by decide⟩
      · exact finishOpenWrite_finds now opts file

end MemoryFs

namespace PathCall

open MemoryFs

variable {fs : MemoryFs} {path : Text} (ambient : Ambient)

/-- How a layer without the path answers a call that does not only read. -/
def missing {Stream : Type} : PathCall → Reply Stream
  | .openWrite _ => .opened (.error (.simple .notFound))
  | _ => .done (.error (.simple .notFound))

theorem issue_read_missing {asked : PathCall} (reads : asked.Reads)
    (absent : fs.entries.lookup (normalizeKeyStr path) = none) :
    asked.issue MemoryFs.provider ambient path fs = (none, fs) := by
  cases asked with
  | «open» opts =>
      simp only [issue, answer, provider, MemoryFs.open, absent,
        Option.map_none]
  | readDir =>
      simp only [issue, answer, provider, MemoryFs.readDir, absent,
        Option.map_none]
  | _ =>
      cases reads

theorem issue_missing {asked : PathCall} {owned : Metadata}
    (writes : ¬ asked.Reads) (proper : asked.Proper owned)
    (absent : fs.entries.lookup (normalizeKeyStr path) = none) :
    asked.issue MemoryFs.provider ambient path fs =
      (some asked.missing, fs) := by
  cases asked with
  | «open» opts =>
      exact absurd trivial writes
  | readDir =>
      exact absurd trivial writes
  | remove =>
      simp only [issue, answer, provider, MemoryFs.remove, absent]
      rfl
  | setLen len =>
      simp only [issue, answer, provider, MemoryFs.setLen, absent]
      rfl
  | rename target =>
      simp only [issue, answer, provider, MemoryFs.rename, absent]
      rfl
  | openWrite opts =>
      have creates : opts.creates = false := proper
      simp only [issue, answer, provider, MemoryFs.openWrite, absent, creates]
      rfl

/-- A layer that has the path answers, and never with `NotFound`. -/
theorem issue_owned {asked : PathCall} {owned : Metadata}
    (proper : asked.Proper owned)
    (owns : fs.metadata path = some (.ok owned)) :
    ∃ reply, (asked.issue MemoryFs.provider ambient path fs).1 =
      some reply ∧ reply ≠ asked.missing := by
  obtain ⟨node, present, same⟩ := metadata_ok owns
  cases asked with
  | «open» opts =>
      cases node <;>
        simp [issue, answer, provider, MemoryFs.open, present, missing]
  | readDir =>
      cases node with
      | dir name =>
          simp [issue, answer, provider, MemoryFs.readDir, present, missing]
      | file source name mtime =>
          rw [same] at proper
          cases proper
      | memFile file name =>
          rw [same] at proper
          cases proper
  | remove =>
      obtain ⟨result, answered, found⟩ := remove_finds present
      refine ⟨.done result, congrArg (Option.map Reply.done) answered, ?_⟩
      exact fun equal => found (Reply.done.inj equal)
  | setLen len =>
      obtain ⟨result, answered, found⟩ :=
        setLen_finds ambient.now len present
      refine ⟨.done result, congrArg (Option.map Reply.done) answered, ?_⟩
      exact fun equal => found (Reply.done.inj equal)
  | rename target =>
      obtain ⟨result, answered, found⟩ :=
        rename_finds ambient.hash target present
      refine ⟨.done result, congrArg (Option.map Reply.done) answered, ?_⟩
      exact fun equal => found (Reply.done.inj equal)
  | openWrite opts =>
      obtain ⟨result, answered, found⟩ :=
        openWrite_finds ambient.now opts present
      refine ⟨.opened result, congrArg (Option.map Reply.opened) answered, ?_⟩
      exact fun equal => found (Reply.opened.inj equal)

/-- An overlay asks its layers for the whole call. -/
theorem issue_overlay (asked : PathCall) (layers : List MemoryFs) :
    asked.issue (OverlayFs.provider MemoryFs.provider) ambient path layers =
      ((OverlayFs.findMap (fun layer =>
          asked.issue MemoryFs.provider ambient path layer) layers).1.map
          fun answer => answer.2.ofLayer answer.1,
        (OverlayFs.findMap (fun layer =>
          asked.issue MemoryFs.provider ambient path layer) layers).2) := by
  cases asked <;>
    simp only [issue, answer, OverlayFs.provider, OverlayFs.first,
      OverlayFs.firstStream, OverlayFs.findMap_wrapped, Option.map_map] <;>
    rfl

/-- What the owning layer answers, and only that layer changed. -/
def FromOwner (ambient : Ambient) (path : Text) (asked : PathCall)
    (layers : List MemoryFs) (index : Nat) (layer : MemoryFs) : Prop :=
  asked.issue (OverlayFs.provider MemoryFs.provider) ambient path layers =
    ((asked.issue MemoryFs.provider ambient path layer).1.map
        (Reply.ofLayer index),
      layers.set index (asked.issue MemoryFs.provider ambient path layer).2)

theorem ofLayer_missing {Stream : Type} {asked : PathCall}
    {reply : Reply Stream} {index : Nat}
    (missed : reply.ofLayer index = asked.missing) :
    reply = asked.missing := by
  cases reply with
  | opened result =>
      cases result with
      | error error =>
          cases asked <;> simp_all [Reply.ofLayer, missing, Except.map]
      | ok stream =>
          cases asked <;> simp [Reply.ofLayer, missing, Except.map] at missed
  | listed result =>
      cases asked <;> simp [Reply.ofLayer, missing] at missed
  | done result =>
      cases asked <;> simp_all [Reply.ofLayer, missing]

/-- In an overlay of in-memory trees a call on a path goes to the layer that
has it exactly when the call only reads, or that layer is the first. -/
theorem overlay_fromOwner_iff (ambient : Ambient) (path : Text)
    (layers : List MemoryFs) (index : Nat) (layer : MemoryFs)
    (owned : Metadata) (asked : PathCall)
    (present : layers[index]? = some layer)
    (before : ∀ earlier other, earlier < index →
      layers[earlier]? = some other → other.metadata path = none)
    (owns : layer.metadata path = some (.ok owned))
    (proper : asked.Proper owned) :
    FromOwner ambient path asked layers index layer ↔
      asked.Reads ∨ index = 0 := by
  obtain ⟨reply, answered, found⟩ := issue_owned ambient proper owns
  have answers : asked.issue MemoryFs.provider ambient path layer =
      (some reply, (asked.issue MemoryFs.provider ambient path layer).2) := by
    rw [← answered]
  unfold FromOwner
  rw [issue_overlay, answered]
  constructor
  · intro fromOwner
    by_contra neither
    rw [not_or] at neither
    obtain ⟨writes, later⟩ := neither
    -- the first layer does not have the path, and says so itself
    obtain ⟨head, rest, rfl⟩ : ∃ head rest, layers = head :: rest := by
      cases layers with
      | nil =>
          simp at present
      | cons head rest =>
          exact ⟨head, rest, rfl⟩
    have absent := metadata_none_iff.mp
      (before 0 head (Nat.pos_of_ne_zero later) rfl)
    have missed := issue_missing ambient writes proper absent
    rw [OverlayFs.findMap_of_head missed] at fromOwner
    injection fromOwner with same _
    simp only [Option.map_some, Option.some.injEq] at same
    have first : Reply.ofLayer 0 (asked.missing : Reply Stream) =
        (asked.missing : Reply (Nat × Stream)) := by
      cases asked <;> rfl
    rw [first] at same
    exact found (ofLayer_missing same.symm)
  · intro reached
    have alone : ∀ earlier other, earlier < index →
        layers[earlier]? = some other → OverlayFs.Declines (fun layer =>
          asked.issue MemoryFs.provider ambient path layer) other := by
      intro earlier other below there
      rcases reached with reads | first
      · exact issue_read_missing ambient reads
          (metadata_none_iff.mp (before earlier other below there))
      · omega
    rw [OverlayFs.findMap_of_declines present alone answers]
    rfl

/-- An empty tree, and one with a writable file. -/
def twoLayers : List MemoryFs :=
  [.withCapacity 8,
    ((MemoryFs.withCapacity 8).insertWritable 0 ['/', 'f']).2]

/-- The file of the second layer is there for `metadata` and `open`, and not
for `remove`. -/
theorem overlay_remove_notFound :
    ((OverlayFs.provider MemoryFs.provider).metadata .still ['/', 'f']
        twoLayers).1 = some (.ok ⟨0, false, false, some 0⟩) ∧
      ((OverlayFs.provider MemoryFs.provider).remove .still ['/', 'f']
        twoLayers).1 = some (.error (.simple .notFound)) ∧
      ¬ FromOwner .still ['/', 'f'] .remove twoLayers 1
        ((MemoryFs.withCapacity 8).insertWritable 0 ['/', 'f']).2 := by
  refine ⟨by decide, by decide, ?_⟩
  intro fromOwner
  have answer := congrArg Prod.fst fromOwner
  exact absurd answer (by decide)

theorem overlay_fromOwner_iff_open :
    FromOwner .still ['/', 'f'] (.open .readOnly) twoLayers 1
      ((MemoryFs.withCapacity 8).insertWritable 0 ['/', 'f']).2 :=
  (overlay_fromOwner_iff .still ['/', 'f'] twoLayers 1 _
    ⟨0, false, false, some 0⟩ (.open .readOnly) rfl
    (by
      intro earlier other below there
      have first : earlier = 0 := by omega
      subst first
      injection there with same
      subst same
      decide)
    (by decide) trivial).mpr (Or.inl trivial)

end PathCall

end Hookfs.Memory
