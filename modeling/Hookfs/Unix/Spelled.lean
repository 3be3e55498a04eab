import Hookfs.Path.Utf8
import Hookfs.Unix.Chdir
import Hookfs.Unix.Effects

/-!
# Relative paths spelled out

A program that changes into the virtual tree and uses relative paths, and one
that puts the working directory in front of each of them, do the same.
-/

namespace Hookfs.Unix

open Hookfs.Lib Hookfs.Vfs Hookfs.Posix Hookfs.Router

variable {Ambient State Stream : Type}

/-! ## Spelling out -/

/-- The bytes of a path with the working directory in front. -/
def spellBytes (cwd : Text) (bytes : List UInt8) : List UInt8 :=
  if bytes.head? = some 0x2F then bytes
  else if cwd.getLast? = some '/' then Text.utf8 cwd ++ bytes
  else Text.utf8 cwd ++ 0x2F :: bytes

def spellPath (cwd : Option Text) (path : CStr) : CStr :=
  match cwd, path with
  | some cwd, some bytes => some (spellBytes cwd bytes)
  | _, _ => path

/-- The same call on another spelling of its path. -/
def PathCall.spell (spelling : CStr → CStr) : PathCall → PathCall
  | .open sym path flags mode => .open sym (spelling path) flags mode
  | .openat dirfd path flags mode => .openat dirfd (spelling path) flags mode
  | .fopen sym path mode => .fopen sym (spelling path) mode
  | .truncate path length => .truncate (spelling path) length
  | .mkdir path mode => .mkdir (spelling path) mode
  | .remove path => .remove (spelling path)
  | .unlink path => .unlink (spelling path)
  | .fchmodat dirfd path mode flags =>
      .fchmodat dirfd (spelling path) mode flags
  | .utimensat dirfd path times flags =>
      .utimensat dirfd (spelling path) times flags
  | .stat sym path buf => .stat sym (spelling path) buf
  | .statvfs path buf => .statvfs (spelling path) buf
  | .opendir path => .opendir (spelling path)
  | .realpath path resolved => .realpath (spelling path) resolved
  | .access path mode => .access (spelling path) mode
  | .faccessat dirfd path mode flags =>
      .faccessat dirfd (spelling path) mode flags
  | .chdir path => .chdir (spelling path)
  | .readlink path buf bufsiz => .readlink (spelling path) buf bufsiz

def TwoPathCall.spell (spelling : CStr → CStr) : TwoPathCall → TwoPathCall
  | .rename source target => .rename (spelling source) (spelling target)
  | .link source target => .link (spelling source) (spelling target)
  | .symlink source target => .symlink (spelling source) (spelling target)

def Call.spell (spelling : CStr → CStr) : Call → Call
  | .path call => .path (call.spell spelling)
  | .two call => .two (call.spell spelling)
  | call => call

/-- The virtual working directory of a process. -/
def Process.directory (process : Process State Stream) : Option Text :=
  process.engine.bind (·.cwd)

namespace Occurrence

/-- The same occurrence, with every relative path spelled out. -/
def spell (process : Process State Stream) :
    Occurrence Ambient State Stream → Occurrence Ambient State Stream
  | .call machine asked =>
      .call machine (asked.spell (spellPath process.directory))
  | occurrence => occurrence

/-- The paths of a call. -/
def paths : Occurrence Ambient State Stream → List CStr
  | .call _ asked => asked.paths
  | .cookie _ _ => []

end Occurrence

/-- What an occurrence answers, what it asks of libc, and what it leaves. -/
def Process.attend (process : Process State Stream) :
    Occurrence Ambient State Stream →
      (Reply × List LibcCall) × Process State Stream
  | .call machine call =>
      let result := shim machine call process
      ((result.reply, result.calls), result.process)
  | .cookie machine call =>
      let result := cookieCall machine call process
      ((result.reply, result.calls), result.process)

/-- The program that spells its paths out. -/
def spelledOut :
    Process State Stream → List (Occurrence Ambient State Stream) →
      List (Occurrence Ambient State Stream)
  | _, [] => []
  | process, occurrence :: rest =>
      occurrence.spell process ::
        spelledOut (process.attend occurrence).2 rest

/-! ## What the spelling means -/

theorem utf8_append (left right : Text) :
    Text.utf8 (left ++ right) = Text.utf8 left ++ Text.utf8 right :=
  List.flatMap_append

/-- Only the separator is decoded as the separator. -/
theorem eq_sep_of_firstChar {first : UInt8} {rest : List UInt8}
    (decoded : (firstChar first rest).1 = '/') : first = 0x2F := by
  obtain ⟨positive, -, read⟩ := takes_firstChar first rest
  rw [decoded] at read
  rcases read with replaced | ⟨code, spells, charEq⟩
  · exact absurd replaced (by decide)
  · have codeEq : code = 0x2F := by
      rw [← toNat_ofNat_of_valid spells.isValidChar, ← charEq]
      rfl
    have slash : Spells [0x2F] 0x2F := .one (by decide)
    have shape := spells.unique slash codeEq
    obtain ⟨less, lessEq⟩ := Nat.exists_eq_add_of_le' positive
    rw [lessEq, List.take_succ_cons, List.cons.injEq] at shape
    exact shape.1

theorem isAbsolute_fromUtf8Lossy {bytes : List UInt8}
    (relative : bytes.head? ≠ some 0x2F) :
    isAbsolute (fromUtf8Lossy bytes) = false := by
  cases bytes with
  | nil =>
      rfl
  | cons first rest =>
      rw [fromUtf8Lossy_cons, isAbsolute, List.head?_cons,
        decide_eq_false_iff_not, Option.some.injEq]
      intro decoded
      exact relative (congrArg some (eq_sep_of_firstChar decoded))

/-- The bytes spelled out are decoded as the joined path. -/
theorem fromUtf8Lossy_spellBytes {cwd : Text} {bytes : List UInt8}
    (nonempty : cwd ≠ []) (relative : bytes.head? ≠ some 0x2F) :
    fromUtf8Lossy (spellBytes cwd bytes) = join cwd (fromUtf8Lossy bytes) := by
  have below : ¬ isAbsolute (fromUtf8Lossy bytes) = true :=
    Bool.eq_false_iff.mp (isAbsolute_fromUtf8Lossy relative)
  unfold spellBytes join
  rw [if_neg relative, if_neg below]
  by_cases ended : cwd.getLast? = some '/'
  · rw [if_pos ended, if_pos (Or.inr ended)]
    obtain ⟨front, rfl⟩ := List.getLast?_eq_some_iff.mp ended
    have slash : Text.utf8 ['/'] = [0x2F] := by decide
    rw [utf8_append, slash, List.append_assoc, List.singleton_append,
      fromUtf8Lossy_append, fromUtf8Lossy_utf8, List.append_assoc,
      List.singleton_append]
  · have neither : ¬ (cwd = [] ∨ cwd.getLast? = some '/') := by
      rintro (empty | last)
      · exact nonempty empty
      · exact ended last
    rw [if_neg ended, if_neg neither, fromUtf8Lossy_append, fromUtf8Lossy_utf8]

theorem suffix_spellBytes (cwd : Text) (bytes : List UInt8) :
    bytes <:+ spellBytes cwd bytes := by
  unfold spellBytes
  split
  · exact List.suffix_rfl
  · split
    · exact List.suffix_append _ _
    · exact (List.suffix_cons _ _).trans (List.suffix_append _ _)

theorem ne_nil_of_absolute {cwd : Text} (absolute : isAbsolute cwd = true) :
    cwd ≠ [] := by
  rintro rfl
  cases absolute

/-! ## Where a spelled path arrives -/

/-- The virtual directory is unset, or an absolute path inside. -/
structure Lodged (root : Text) (engine : Engine Stream) : Prop where
  nspace : engine.nspace = .fromRoot root
  absolute : ∀ cwd, engine.cwd = some cwd → isAbsolute cwd = true
  within : ∀ cwd, engine.cwd = some cwd → Within root cwd

section Arriving

variable {root : Text} {engine : Engine Stream}
  {process : Process State Stream}

theorem classify_congr {left right : Text}
    (same : engine.resolve left = engine.resolve right) :
    engine.classify left = engine.classify right := by
  unfold Engine.classify
  rw [same]

/-- A relative path and the joined one mean the same, on the virtual side. -/
theorem Lodged.classify_join (lodged : Lodged root engine)
    (proper : normalizeKeyStr root ≠ ['/']) {cwd decoded : Text}
    (set : engine.cwd = some cwd) (relative : isAbsolute decoded = false) :
    engine.classify (join cwd decoded) = engine.classify decoded ∧
      engine.classify decoded ≠ .real := by
  have resolved : engine.resolve decoded = some (join cwd decoded) := by
    rw [resolve_relative relative, set, Option.map_some]
  have absolute : isAbsolute (join cwd decoded) = true :=
    isAbsolute_join (lodged.absolute cwd set)
  constructor
  · refine classify_congr ?_
    rw [resolved, Engine.resolve, if_pos absolute]
  · have within := within_join proper (lodged.absolute cwd set)
      (lodged.within cwd set) relative
    intro real
    have missed := classify_eq_real_iff.mp real _ resolved
    rw [lodged.nspace, (isVirtual_fromRoot _).mpr within] at missed
    cases missed

/-- Another spelling of a path, that arrives where the path arrives. -/
inductive SpeltAs (process : Process State Stream) (engine : Engine Stream)
    (path : CStr) : CStr → Prop
  | same : SpeltAs process engine path path
  | alike {spelling : CStr} {route : Route} (served : route ≠ .real)
      (arrives : Arrives path process engine route)
      (arrivesToo : Arrives spelling process engine route) :
      SpeltAs process engine path spelling

/-- The spelling from the virtual directory is one. -/
theorem Lodged.speltAs (lodged : Lodged root engine)
    (proper : normalizeKeyStr root ≠ ['/'])
    (active : process.engine = some engine)
    (outside : process.inHook = false) {path : CStr}
    (terminated : Terminated (spellPath engine.cwd path)) :
    SpeltAs process engine path (spellPath engine.cwd path) := by
  cases set : engine.cwd with
  | none =>
      exact .same
  | some cwd =>
      cases path with
      | none =>
          exact .same
      | some bytes =>
          rw [set] at terminated
          by_cases slash : bytes.head? = some 0x2F
          · have same : spellBytes cwd bytes = bytes := if_pos slash
            unfold spellPath
            simp only [same]
            exact .same
          · obtain ⟨_, same, free, short⟩ := terminated
            obtain rfl := Option.some.inj same
            have ends := suffix_spellBytes cwd bytes
            have longer := ends.length_le
            have spelt : decodeCstr (some (spellBytes cwd bytes)) =
                some (join cwd (fromUtf8Lossy bytes)) := by
              rw [decodeCstr_eq free short, fromUtf8Lossy_spellBytes
                (ne_nil_of_absolute (lodged.absolute cwd set)) slash]
            obtain ⟨same, served⟩ := lodged.classify_join proper set
              (isAbsolute_fromUtf8Lossy slash)
            refine .alike served ⟨outside, active, ?_⟩ ⟨outside, active, ?_⟩
            · rw [decodeCstr_eq (fun member => free (ends.subset member))
                (by omega)]
              rfl
            · rw [← same]
              exact congrArg (Option.map engine.classify) spelt

end Arriving

/-! ## One call -/

section Calls

variable {machine : Machine Ambient State Stream}
  {process : Process State Stream} {engine : Engine Stream}

theorem routed_spelt (call : CStr → PathCall)
    (about : ∀ path, (call path).path = path)
    {rejected : Process State Stream → Result State Stream}
    {served : Engine Stream → Text → Process State Stream →
      Result State Stream} {path spelling : CStr}
    (spelt : SpeltAs process engine path spelling) :
    routed machine (call spelling) rejected served process =
      routed machine (call path) rejected served process := by
  cases spelt with
  | same =>
      rfl
  | @alike _ route unreal arrives arrivesToo =>
      rw [← about path] at arrives
      rw [← about spelling] at arrivesToo
      cases route with
      | virtual absolute =>
          rw [routed_virtual arrives, routed_virtual arrivesToo]
      | rejected =>
          rw [routed_rejected arrives, routed_rejected arrivesToo]
      | real =>
          exact absurd rfl unreal

theorem shimChdir_spelt {path spelling : CStr}
    (spelt : SpeltAs process engine path spelling) :
    shimChdir machine spelling process = shimChdir machine path process := by
  cases spelt with
  | same =>
      rfl
  | @alike _ route unreal arrives arrivesToo =>
      obtain ⟨decoded, read, found⟩ := arrives.route_eq
      obtain ⟨decodedToo, readToo, foundToo⟩ := arrivesToo.route_eq
      unfold shimChdir
      simp only [read, found, readToo, foundToo, arrives.outside,
        Bool.false_eq_true, if_false]
      cases route with
      | virtual absolute =>
          rfl
      | rejected =>
          rfl
      | real =>
          exact absurd rfl unreal

theorem mutatePath_spelt (call : CStr → PathCall)
    (about : ∀ path, (call path).path = path)
    {operate : Text → State → Option (Except IoError Unit) × State}
    {path spelling : CStr} (spelt : SpeltAs process engine path spelling) :
    mutatePath machine (call spelling) operate process =
      mutatePath machine (call path) operate process := by
  unfold mutatePath
  exact routed_spelt call about spelt

theorem accessCommon_spelt (call : CStr → PathCall)
    (about : ∀ path, (call path).path = path) {mode : Flags}
    {path spelling : CStr} (spelt : SpeltAs process engine path spelling) :
    accessCommon machine (call spelling) mode process =
      accessCommon machine (call path) mode process := by
  unfold accessCommon
  exact routed_spelt call about spelt

/-- A call on one path does not depend on how the path is spelled. -/
theorem shimPath_spelt {call : PathCall} {spelling : CStr → CStr}
    (spelt : SpeltAs process engine call.path (spelling call.path)) :
    shimPath machine (call.spell spelling) process =
      shimPath machine call process := by
  cases call with
  | «open» sym path flags mode =>
      exact routed_spelt (.open sym · flags mode) (fun _ => rfl) spelt
  | openat dirfd path flags mode =>
      exact routed_spelt (.openat dirfd · flags mode) (fun _ => rfl) spelt
  | fopen sym path mode =>
      exact routed_spelt (.fopen sym · mode) (fun _ => rfl) spelt
  | truncate path length =>
      simp only [PathCall.spell, shimPath, shimTruncate]
      exact mutatePath_spelt (.truncate · length) (fun _ => rfl) spelt
  | mkdir path mode =>
      exact mutatePath_spelt (.mkdir · mode) (fun _ => rfl) spelt
  | remove path =>
      exact mutatePath_spelt .remove (fun _ => rfl) spelt
  | unlink path =>
      exact mutatePath_spelt .unlink (fun _ => rfl) spelt
  | fchmodat dirfd path mode flags =>
      exact routed_spelt (.fchmodat dirfd · mode flags) (fun _ => rfl) spelt
  | utimensat dirfd path times flags =>
      exact routed_spelt (.utimensat dirfd · times flags) (fun _ => rfl) spelt
  | stat sym path buf =>
      simp only [PathCall.spell, shimPath, statPath]
      exact routed_spelt (.stat sym · buf) (fun _ => rfl) spelt
  | statvfs path buf =>
      simp only [PathCall.spell, shimPath, shimStatvfs]
      exact routed_spelt (.statvfs · buf) (fun _ => rfl) spelt
  | opendir path =>
      simp only [PathCall.spell, shimPath, shimOpendir]
      exact routed_spelt .opendir (fun _ => rfl) spelt
  | realpath path resolved =>
      simp only [PathCall.spell, shimPath, shimRealpath]
      exact routed_spelt (.realpath · resolved) (fun _ => rfl) spelt
  | access path mode =>
      exact accessCommon_spelt (.access · mode) (fun _ => rfl) spelt
  | faccessat dirfd path mode flags =>
      exact accessCommon_spelt (.faccessat dirfd · mode flags) (fun _ => rfl)
        spelt
  | chdir path =>
      exact shimChdir_spelt spelt
  | readlink path buf bufsiz =>
      exact routed_spelt (.readlink · buf bufsiz) (fun _ => rfl) spelt

/-! ### Calls on two paths -/

theorem SpeltAs.touches {path spelling : CStr}
    (spelt : SpeltAs process engine path spelling) :
    spelling = path ∨ touchesVirtual path process = true ∧
      touchesVirtual spelling process = true := by
  cases spelt with
  | same =>
      exact Or.inl rfl
  | @alike _ route unreal arrives arrivesToo =>
      rw [touchesVirtual_eq arrives, touchesVirtual_eq arrivesToo]
      exact Or.inr ⟨decide_eq_true unreal, decide_eq_true unreal⟩

section TwoPaths

variable (outside : process.inHook = false)
  (active : process.engine = some engine) {source target : CStr}
  {sourceSpelling targetSpelling : CStr}
  (sourceSpelt : SpeltAs process engine source sourceSpelling)
  (targetSpelt : SpeltAs process engine target targetSpelling)

include outside sourceSpelt targetSpelt in
theorem denyMutateTwo_spelt (call : CStr → CStr → TwoPathCall)
    (sources : ∀ source target, (call source target).source = source)
    (targets : ∀ source target, (call source target).target = target) :
    denyMutateTwo machine (call sourceSpelling targetSpelling) process =
      denyMutateTwo machine (call source target) process := by
  have denied : ∀ one other, (touchesVirtual one process ||
      touchesVirtual other process) = true →
      denyMutateTwo machine (call one other) process =
        fail (-1) Errno.EROFS process := by
    intro one other touches
    unfold denyMutateTwo
    rw [outside, sources, targets, if_neg Bool.false_ne_true, if_pos touches]
  rcases sourceSpelt.touches with same | ⟨touches, touchesToo⟩
  · rcases targetSpelt.touches with sameToo | ⟨touches, touchesToo⟩
    · rw [same, sameToo]
    · rw [denied _ _ (by rw [touchesToo, Bool.or_true]),
        denied _ _ (by rw [touches, Bool.or_true])]
  · rw [denied _ _ (by rw [touchesToo, Bool.true_or]),
      denied _ _ (by rw [touches, Bool.true_or])]

include targetSpelt in
theorem renameReal_spelt (source : CStr) :
    renameReal machine source targetSpelling process =
      renameReal machine source target process := by
  unfold renameReal
  rcases targetSpelt.touches with same | ⟨touches, touchesToo⟩
  · rw [same]
  · rw [if_pos touches, if_pos touchesToo]

include targetSpelt in
theorem renameVirtual_spelt (path : Text) :
    renameVirtual machine targetSpelling engine path process =
      renameVirtual machine target engine path process := by
  cases targetSpelt with
  | same =>
      rfl
  | @alike _ route unreal arrives arrivesToo =>
      obtain ⟨decoded, read, found⟩ := arrives.route_eq
      obtain ⟨decodedToo, readToo, foundToo⟩ := arrivesToo.route_eq
      unfold renameVirtual
      simp only [read, found, readToo, foundToo]

include outside active sourceSpelt targetSpelt in
theorem shimRename_spelt (reads : (decodeCstr source).isSome = true) :
    shimRename machine sourceSpelling targetSpelling process =
      shimRename machine source target process := by
  obtain ⟨decoded, read⟩ := Option.isSome_iff_exists.mp reads
  have found : process.route decoded =
      some (engine, engine.classify decoded) := by
    rw [Process.route, active, Option.map_some]
  have arrives : ∀ path decoded, decodeCstr path = some decoded →
      process.route decoded = some (engine, engine.classify decoded) := by
    intro path decoded _
    rw [Process.route, active, Option.map_some]
  have after : ∀ other, decodeCstr sourceSpelling = some other →
      engine.classify other = engine.classify decoded →
      (engine.classify decoded = .real → sourceSpelling = source) →
      shimRename machine sourceSpelling targetSpelling process =
        shimRename machine source target process := by
    intro other readToo same real
    unfold shimRename
    simp only [outside, read, readToo, found, arrives _ _ readToo, same,
      Bool.false_eq_true, if_false]
    cases route : engine.classify decoded with
    | virtual path =>
        exact renameVirtual_spelt targetSpelt path
    | rejected =>
        rfl
    | real =>
        rw [real route]
        exact renameReal_spelt targetSpelt source
  cases sourceSpelt with
  | same =>
      exact after decoded read rfl fun _ => rfl
  | @alike _ route unreal arrived arrivedToo =>
      have means := arrived.classified
      rw [read, Option.map_some, Option.some.injEq] at means
      obtain ⟨other, readToo, foundToo⟩ :=
        Option.map_eq_some_iff.mp arrivedToo.classified
      refine after other readToo (foundToo.trans means.symm) fun real => ?_
      exact absurd (means.symm.trans real) unreal

end TwoPaths

theorem SpeltAs.reads {path spelling : CStr}
    (spelt : SpeltAs process engine path spelling)
    (terminated : Terminated spelling) :
    (decodeCstr path).isSome = true := by
  cases spelt with
  | same =>
      obtain ⟨bytes, rfl, free, short⟩ := terminated
      rw [decodeCstr_eq free short]
      rfl
  | alike unreal arrives arrivesToo =>
      obtain ⟨decoded, read, -⟩ := arrives.route_eq
      rw [read]
      rfl

/-- A call does not depend on whether its paths are spelled out. -/
theorem shim_spelt {root : Text} (lodged : Lodged root engine)
    (proper : normalizeKeyStr root ≠ ['/'])
    (active : process.engine = some engine)
    (outside : process.inHook = false) {call : Call}
    (terminated : ∀ path ∈ call.paths,
      Terminated (spellPath engine.cwd path)) :
    shim machine (call.spell (spellPath engine.cwd)) process =
      shim machine call process := by
  have spelt : ∀ path ∈ call.paths,
      SpeltAs process engine path (spellPath engine.cwd path) :=
    fun path member =>
      lodged.speltAs proper active outside (terminated path member)
  cases call with
  | path asked =>
      exact shimPath_spelt (spelt _ List.mem_cons_self)
  | two asked =>
      have source := spelt asked.source List.mem_cons_self
      have target := spelt asked.target
        (List.mem_cons_of_mem _ List.mem_cons_self)
      cases asked with
      | rename one other =>
          exact shimRename_spelt outside active source target
            (source.reads (terminated _ List.mem_cons_self))
      | link one other =>
          exact denyMutateTwo_spelt outside source target .link
            (fun _ _ => rfl) (fun _ _ => rfl)
      | symlink one other =>
          exact denyMutateTwo_spelt outside source target .symlink
            (fun _ _ => rfl) (fun _ _ => rfl)
  | fd asked =>
      rfl
  | dir asked =>
      rfl

end Calls

/-! ## Runs -/

section Runs

variable {root : Text}

/-- Outside of a hook, behind an engine that stays inside. -/
def Housed (root : Text) (process : Process State Stream) : Prop :=
  process.inHook = false ∧
    ∃ engine, process.engine = some engine ∧ Lodged root engine

theorem Lodged.congr {engine other : Engine Stream}
    (lodged : Lodged root engine) (nspace : other.nspace = engine.nspace)
    (cwd : other.cwd = engine.cwd) : Lodged root other where
  nspace := nspace.trans lodged.nspace
  absolute dir set := lodged.absolute dir (cwd ▸ set)
  within dir set := lodged.within dir (cwd ▸ set)

theorem lodged_unset {engine : Engine Stream}
    (nspace : engine.nspace = .fromRoot root) (unset : engine.cwd = none) :
    Lodged root engine where
  nspace := nspace
  absolute dir set := by
    rw [unset] at set
    cases set
  within dir set := by
    rw [unset] at set
    cases set

/-- What a lodged engine resolves to is absolute. -/
theorem Lodged.isAbsolute_resolve {engine : Engine Stream}
    (lodged : Lodged root engine) {decoded target : Text}
    (resolved : engine.resolve decoded = some target) :
    isAbsolute target = true := by
  unfold Engine.resolve at resolved
  split at resolved
  · next already =>
    cases resolved
    exact already
  · obtain ⟨cwd, set, rfl⟩ := Option.map_eq_some_iff.mp resolved
    exact isAbsolute_join (lodged.absolute cwd set)

theorem housed_shimChdir (machine : Machine Ambient State Stream)
    (path : CStr) {process : Process State Stream} {engine : Engine Stream}
    (active : process.engine = some engine) (lodged : Lodged root engine) :
    ∃ next, (shimChdir machine path process).process.engine = some next ∧
      Lodged root next := by
  rcases shimChdir_cases machine path active with same | ⟨-, left⟩ |
    ⟨target, report, next, arrives, -, -, entered⟩
  · exact ⟨engine, same, lodged⟩
  · rw [left]
    exact ⟨_, rfl, lodged_unset lodged.nspace rfl⟩
  · rw [entered]
    obtain ⟨decoded, -, virtual⟩ :=
      Option.map_eq_some_iff.mp arrives.classified
    obtain ⟨resolved, member, -⟩ := classify_virtual virtual
    rw [lodged.nspace] at member
    refine ⟨_, rfl, lodged.nspace, fun cwd set => ?_, fun cwd set => ?_⟩
    · cases set
      exact lodged.isAbsolute_resolve resolved
    · cases set
      exact (isVirtual_fromRoot target).mp member

theorem housed_shim (machine : Machine Ambient State Stream) (call : Call)
    {process : Process State Stream} (housed : Housed root process) :
    Housed root (shim machine call process).process := by
  obtain ⟨outside, engine, active, lodged⟩ := housed
  have has : Has ⟨engine, process.cookies⟩ false process :=
    ⟨active, rfl, outside⟩
  obtain ⟨tables, effect, after⟩ : Reaches (CallEffect machine _ call) false
      (shim machine call process).process := reaches_shim has call
  refine ⟨after.side, tables.engine, after.active, ?_⟩
  cases effect with
  | path effect =>
      cases effect with
      | unchanged | opened | cookie | listed =>
          exact lodged.congr rfl rfl
      | @changed path cwd =>
          obtain ⟨next, now, kept⟩ := housed_shimChdir machine path active
            lodged
          have same := Option.some.inj (now.symm.trans after.active)
          exact same ▸ kept
  | two asked =>
      exact lodged
  | fd effect =>
      cases effect with
      | unchanged | moved | closed =>
          exact lodged.congr rfl rfl
  | dir effect =>
      cases effect with
      | unchanged | read | closed =>
          exact lodged.congr rfl rfl

theorem housed_attend {process : Process State Stream}
    (housed : Housed root process)
    (occurrence : Occurrence Ambient State Stream) :
    Housed root (process.attend occurrence).2 := by
  cases occurrence with
  | call machine asked =>
      exact housed_shim machine asked housed
  | cookie machine asked =>
      obtain ⟨outside, engine, active, lodged⟩ := housed
      have same : OnEngine engine false
          (cookieCall machine asked process).process :=
        onEngine_cookieCall ⟨active, outside⟩ asked
      exact ⟨same.2, engine, same.1, lodged⟩

theorem attend_spell (proper : normalizeKeyStr root ≠ ['/'])
    {process : Process State Stream} (housed : Housed root process)
    {occurrence : Occurrence Ambient State Stream}
    (terminated : ∀ path ∈ occurrence.paths,
      Terminated (spellPath process.directory path)) :
    process.attend (occurrence.spell process) =
      process.attend occurrence := by
  obtain ⟨outside, engine, active, lodged⟩ := housed
  have directory : process.directory = engine.cwd := by
    rw [Process.directory, active]
    rfl
  rw [directory] at terminated
  cases occurrence with
  | call machine asked =>
      have same : shim machine (asked.spell (spellPath engine.cwd)) process =
          shim machine asked process :=
        shim_spelt lodged proper active outside terminated
      unfold Occurrence.spell Process.attend
      simp only [directory, same]
  | cookie machine asked =>
      rfl

/-- An absolute path. -/
def FromTop (path : CStr) : Prop :=
  ∃ bytes, path = some bytes ∧ bytes.head? = some 0x2F

theorem head_utf8 {cwd : Text} (absolute : isAbsolute cwd = true) :
    (Text.utf8 cwd).head? = some 0x2F := by
  obtain ⟨rest, rfl⟩ := exists_eq_sep_cons absolute
  rfl

/-- Behind a virtual directory a spelled path is absolute. -/
theorem fromTop_spellPath {cwd : Text} {path : CStr}
    (absolute : isAbsolute cwd = true)
    (terminated : Terminated (spellPath (some cwd) path)) :
    FromTop (spellPath (some cwd) path) := by
  obtain ⟨bytes, same, -⟩ := terminated
  refine ⟨bytes, same, ?_⟩
  cases path with
  | none =>
      cases same
  | some tail =>
      obtain rfl := Option.some.inj same
      unfold spellBytes
      split
      · assumption
      · split
        · rw [List.head?_append, head_utf8 absolute]
          rfl
        · rw [List.head?_append, head_utf8 absolute]
          rfl

theorem paths_spell (call : Call) (spelling : CStr → CStr) :
    (call.spell spelling).paths = call.paths.map spelling := by
  cases call with
  | path asked =>
      cases asked with
      | _ =>
          rfl
  | two asked =>
      cases asked with
      | _ =>
          rfl
  | fd asked =>
      rfl
  | dir asked =>
      rfl

theorem fromTop_spell {process : Process State Stream}
    (housed : Housed root process)
    {occurrence : Occurrence Ambient State Stream}
    (terminated : ∀ path ∈ occurrence.paths,
      Terminated (spellPath process.directory path))
    (set : process.directory.isSome = true) :
    ∀ path ∈ (occurrence.spell process).paths, FromTop path := by
  obtain ⟨outside, engine, active, lodged⟩ := housed
  have directory : process.directory = engine.cwd := by
    rw [Process.directory, active]
    rfl
  obtain ⟨cwd, here⟩ := Option.isSome_iff_exists.mp set
  have absolute := lodged.absolute cwd (directory.symm.trans here)
  cases occurrence with
  | call machine asked =>
      intro path member
      have among : path ∈
          asked.paths.map (spellPath process.directory) := by
        rw [← paths_spell]
        exact member
      obtain ⟨before, inside, rfl⟩ := List.mem_map.mp among
      have ends := terminated before inside
      rw [here] at ends ⊢
      exact fromTop_spellPath absolute ends
  | cookie machine asked =>
      nofun

/-- A program's paths, spelled out from its working directory, are C strings
that are scanned to their ends. -/
def Spellable (process : Process State Stream)
    (occurrence : Occurrence Ambient State Stream) : Prop :=
  ∀ path ∈ occurrence.paths, Terminated (spellPath process.directory path)

theorem spelled_run (proper : normalizeKeyStr root ≠ ['/'])
    (occurrences : List (Occurrence Ambient State Stream)) :
    ∀ process : Process State Stream, Housed root process →
      EachStep (fun process occurrence => (process.attend occurrence).2)
        Spellable process occurrences →
      serveAll Process.attend process (spelledOut process occurrences) =
          serveAll Process.attend process occurrences ∧
        EachStep (fun process occurrence => (process.attend occurrence).2)
          (fun process occurrence => process.directory.isSome = true →
            ∀ path ∈ occurrence.paths, FromTop path)
          process (spelledOut process occurrences) := by
  induction occurrences with
  | nil =>
      intro process housed spellable
      exact ⟨rfl, trivial⟩
  | cons occurrence rest inductionHypothesis =>
      intro process housed spellable
      obtain ⟨here, later⟩ := spellable
      have same := attend_spell proper housed here
      obtain ⟨replies, absolute⟩ := inductionHypothesis
        (process.attend occurrence).2 (housed_attend housed occurrence) later
      constructor
      · simp only [spelledOut, serveAll]
        rw [same, replies]
      · refine ⟨fromTop_spell housed here, ?_⟩
        simp only [same]
        exact absolute

end Runs

end Hookfs.Unix
