import Hookfs.Unix.FailClosed
import Hookfs.Unix.Orderly

/-!
# Calls that nobody interrupts

When every call runs to its end before the next one begins, the threads do
what the shims do one after the other.
-/

namespace Hookfs.Unix

open Hookfs.Lib Hookfs.Vfs Hookfs.Router

variable {Ambient State Stream : Type}

/-! ## Whole calls -/

/-- A call on descriptors, with what the kernel answers. -/
inductive Task (State Stream : Type) where
  | «open» (carrier : Reply) (flags : Flags) (path : Text)
  | serve (fd : Int)
      (apply : OpenStream Stream → State → OpenStream Stream × State)
  | close (fd : Int)

namespace Task

variable (machine : Machine Ambient State Stream) (allowWrites : Bool)

/-- The steps of a call. -/
def moves : Task State Stream → List (Move State Stream)
  | .open carrier flags path =>
      if wantsWrite flags && !allowWrites then []
      else
        [.open (openStream machine path (openOptions flags)) path
            (wantsWrite flags),
          .fetch (if carrier.ret < 0 then none else some (fdKey carrier.ret)),
          .register]
  | .serve fd apply =>
      [.lookUp (fdKey fd), .lock, .operate apply, .unlock, .release]
  | .close fd => [.remove (fdKey fd), .dropFile, .closeOriginal]

/-- What the shim of a call leaves behind. -/
def process (process : Process State Stream) :
    Task State Stream → Process State Stream
  | .open carrier flags path =>
      match process.engine with
      | none => process
      | some engine =>
          (openVirtualFd { machine with os := fun _ => carrier } flags engine
            path process).process
  | .serve fd apply =>
      match process.engine with
      | none => process
      | some engine =>
          match engine.registry.getFile (fdKey fd) with
          | none => process
          | some file =>
              let (stream, vfs) := apply file.stream process.vfs
              keepStream fd engine file stream vfs process
  | .close fd => (shimClose machine fd process).process

end Task

/-! ## The threads show a process -/

/-- The file behind a descriptor. -/
def Traffic.getFile (fd : Nat) (traffic : Traffic State Stream) :
    Option (OpenFile Stream) :=
  (traffic.files.lookup fd).bind fun arc =>
    (traffic.arcs.lookup arc).map Arc.file

/-- No thread is in a call, and what they share is a process's. -/
structure Shows (allowWrites : Bool) (traffic : Traffic State Stream)
    (process : Process State Stream) : Prop where
  quiet : ∀ thread, traffic.stage thread = .outside
  vfs : process.vfs = traffic.vfs
  inHook : process.inHook = false
  engine : ∃ engine, process.engine = some engine ∧
    engine.allowWrites = allowWrites ∧
      ∀ fd, engine.registry.getFile fd = traffic.getFile fd

/-! ## The steps of one thread -/

namespace Traffic

section Alone

variable {drop : Stream → State → State} {traffic : Traffic State Stream}
  {thread fd arc : Nat} {content : Arc Stream} {file : OpenFile Stream}

@[simp]
theorem stage_goTo_self (stage : Stage Stream) :
    (traffic.goTo thread stage).stage thread = stage :=
  stageOf_insert_self stage

theorem stage_goTo_of_ne {other : Nat} (different : other ≠ thread)
    (stage : Stage Stream) :
    (traffic.goTo thread stage).stage other = traffic.stage other :=
  stageOf_insert_of_ne different stage

/-- A thread that ends its call leaves all of them outside. -/
theorem quiet_goTo {after : Traffic State Stream}
    (quiet : ∀ other, other ≠ thread → after.stage other = .outside)
    (other : Nat) : (after.goTo thread .outside).stage other = .outside := by
  by_cases same : other = thread
  · rw [same]
    exact stage_goTo_self .outside
  · rw [stage_goTo_of_ne same]
    exact quiet other same

/-- A move that belongs to another stage of a call. -/
def Late : Move State Stream → Prop
  | .open .. | .openReal _ | .lookUp _ | .remove _ | .elsewhere _ => False
  | _ => True

theorem step_late {move : Move State Stream} (late : Late move)
    (here : traffic.stage thread = .outside) :
    traffic.step drop (thread, move) = traffic := by
  cases move with
  | «open» | openReal | lookUp | remove | elsewhere =>
      exact absurd late id
  | fetch carrier =>
      unfold step
      cases carrier with
      | none =>
          simp only [here]
      | some fd =>
          simp only [here]
  | register | skip | lock | operate | unlock | release | dropFile
  | closeOriginal =>
      unfold step
      simp only [here]

/-- Nothing comes of the rest of a call that has ended. -/
theorem run_late {moves : List (Move State Stream)}
    (late : ∀ move ∈ moves, Late move)
    (here : traffic.stage thread = .outside) :
    run (step drop) traffic (moves.map (thread, ·)) = traffic := by
  induction moves with
  | nil =>
      rfl
  | cons move rest inductionHypothesis =>
      obtain ⟨first, others⟩ := List.forall_mem_cons.mp late
      rw [List.map_cons, run_cons, step_late first here]
      exact inductionHypothesis others

theorem cloneArc_of_live (live : traffic.arcs.lookup arc = some content) :
    traffic.cloneArc arc =
      traffic.putArc arc { content with strong := content.strong + 1 } := by
  unfold cloneArc
  rw [live]

theorem dropArc_of_shared (live : traffic.arcs.lookup arc = some content)
    (shared : 1 < content.strong) : traffic.dropArc drop arc =
      traffic.putArc arc { content with strong := content.strong - 1 } := by
  unfold dropArc
  rw [live]
  exact if_neg (Nat.not_le_of_gt shared)

theorem dropArc_of_last (live : traffic.arcs.lookup arc = some content)
    (last : content.strong = 1) : traffic.dropArc drop arc =
      { traffic with
        vfs := drop content.file.stream.inner traffic.vfs
        arcs := traffic.arcs.erase arc
        dropped := traffic.dropped ++ [arc] } := by
  unfold dropArc
  rw [live]
  exact if_pos (Nat.le_of_eq last)

theorem step_open {ask : State →
      Option (Except IoError (OpenStream Stream)) × State} {path : Text}
    {writable : Bool} {stream : OpenStream Stream} {vfs : State}
    (here : traffic.stage thread = .outside)
    (asked : ask traffic.vfs = (some (.ok stream), vfs)) :
    traffic.step drop (thread, .open ask path writable) =
      (traffic.withVfs vfs).goTo thread (.opened ⟨stream, path, writable⟩) := by
  unfold step
  simp only [here, asked]

theorem step_open_none {ask : State →
      Option (Except IoError (OpenStream Stream)) × State} {path : Text}
    {writable : Bool} {vfs : State} (here : traffic.stage thread = .outside)
    (asked : ask traffic.vfs = (none, vfs)) :
    traffic.step drop (thread, .open ask path writable) =
      traffic.withVfs vfs := by
  unfold step
  simp only [here, asked]

theorem step_open_error {ask : State →
      Option (Except IoError (OpenStream Stream)) × State} {path : Text}
    {writable : Bool} {error : IoError} {vfs : State}
    (here : traffic.stage thread = .outside)
    (asked : ask traffic.vfs = (some (.error error), vfs)) :
    traffic.step drop (thread, .open ask path writable) =
      traffic.withVfs vfs := by
  unfold step
  simp only [here, asked]

theorem descriptors_step_open (ask : State →
      Option (Except IoError (OpenStream Stream)) × State) (path : Text)
    (writable : Bool) :
    (traffic.step drop (thread, .open ask path writable)).descriptors =
      traffic.descriptors := by
  cases here : traffic.stage thread with
  | outside =>
      cases asked : ask traffic.vfs with
      | mk opened vfs =>
      cases opened with
      | none =>
          rw [step_open_none here asked]
          rfl
      | some outcome =>
          cases outcome with
          | error error =>
              rw [step_open_error here asked]
              rfl
          | ok stream =>
              rw [step_open here asked]
              rfl
  | opened | carried | found | locked | served | removed | closing =>
      unfold step
      simp only [here]

theorem insertFile_of_free (free : traffic.files.lookup fd = none) :
    traffic.insertFile drop fd file =
      { traffic with
        files := traffic.files.insert fd traffic.nextArc
        arcs := traffic.arcs.insert traffic.nextArc ⟨1, file, false⟩
        nextArc := traffic.nextArc + 1 } := by
  unfold insertFile
  simp only [free]

theorem step_lookUp (here : traffic.stage thread = .outside)
    (entry : traffic.files.lookup fd = some arc) :
    traffic.step drop (thread, .lookUp fd) =
      (traffic.cloneArc arc).goTo thread (.found arc) := by
  unfold step
  simp only [here, entry]

theorem step_lookUp_none (here : traffic.stage thread = .outside)
    (missing : traffic.files.lookup fd = none) :
    traffic.step drop (thread, .lookUp fd) = traffic := by
  unfold step
  simp only [here, missing]

theorem step_lock (here : traffic.stage thread = .found arc)
    (live : traffic.arcs.lookup arc = some content)
    (free : content.locked = false) :
    traffic.step drop (thread, .lock) =
      (traffic.putArc arc { content with locked := true }).goTo thread
        (.locked arc) := by
  unfold step
  simp only [here, live, free]
  rfl

theorem step_operate (here : traffic.stage thread = .locked arc)
    (live : traffic.arcs.lookup arc = some content)
    (apply : OpenStream Stream → State → OpenStream Stream × State) :
    traffic.step drop (thread, .operate apply) =
      (traffic.withVfs (apply content.file.stream traffic.vfs).2).putArc arc
        { content with
          file := { content.file with
            stream := (apply content.file.stream traffic.vfs).1 } } := by
  unfold step
  simp only [here, live]

theorem step_unlock (here : traffic.stage thread = .locked arc)
    (live : traffic.arcs.lookup arc = some content) :
    traffic.step drop (thread, .unlock) =
      (traffic.putArc arc { content with locked := false }).goTo thread
        (.served arc) := by
  unfold step
  simp only [here, live]

theorem step_release (here : traffic.stage thread = .served arc) :
    traffic.step drop (thread, .release) =
      (traffic.dropArc drop arc).goTo thread .outside := by
  unfold step
  simp only [here]

theorem step_remove (here : traffic.stage thread = .outside)
    (entry : traffic.files.lookup fd = some arc) :
    traffic.step drop (thread, .remove fd) =
      ((traffic.takeFile fd).takeBack fd).goTo thread (.removed arc fd) := by
  unfold step
  simp only [here, entry]

theorem step_remove_none (here : traffic.stage thread = .outside)
    (missing : traffic.files.lookup fd = none) :
    traffic.step drop (thread, .remove fd) =
      (traffic.takeBack fd).goTo thread (.closing fd) := by
  unfold step
  simp only [here, missing]

theorem step_dropFile (here : traffic.stage thread = .removed arc fd) :
    traffic.step drop (thread, .dropFile) =
      (traffic.dropArc drop arc).goTo thread (.closing fd) := by
  unfold step
  simp only [here]

theorem step_dropFile_none (here : traffic.stage thread = .closing fd) :
    traffic.step drop (thread, .dropFile) = traffic := by
  unfold step
  simp only [here]

theorem step_closeOriginal (here : traffic.stage thread = .closing fd) :
    traffic.step drop (thread, .closeOriginal) =
      (traffic.closeFd fd).goTo thread .outside := by
  unfold step
  simp only [here]

theorem step_fetch (here : traffic.stage thread = .opened file) :
    traffic.step drop (thread, .fetch (some fd)) =
      (traffic.openFd fd).goTo thread (.carried file fd) := by
  unfold step
  simp only [here]

theorem step_fetch_none (here : traffic.stage thread = .opened file) :
    traffic.step drop (thread, .fetch none) =
      (traffic.withVfs (drop file.stream.inner traffic.vfs)).goTo thread
        .outside := by
  unfold step
  simp only [here]

theorem step_register (here : traffic.stage thread = .carried file fd) :
    traffic.step drop (thread, .register) =
      ((traffic.insertFile drop fd file).give fd).goTo thread .outside := by
  unfold step
  simp only [here]

theorem lookup_putArc (arc : Nat) (content : Arc Stream)
    (traffic : Traffic State Stream) :
    (traffic.putArc arc content).arcs.lookup arc = some content :=
  AList.lookup_insert traffic.arcs

theorem lookup_goTo_putArc (arc thread : Nat) (content : Arc Stream)
    (stage : Stage Stream) (traffic : Traffic State Stream) :
    ((traffic.putArc arc content).goTo thread stage).arcs.lookup arc =
      some content :=
  AList.lookup_insert traffic.arcs

theorem stage_operated (arc : Nat) (content : Arc Stream) (vfs : State)
    (stage : Stage Stream) (traffic : Traffic State Stream) :
    (((traffic.goTo thread stage).withVfs vfs).putArc arc content).stage
      thread = stage :=
  stageOf_insert_self stage

/-- A call on a registered file, from the lookup to the return. -/
theorem run_serve (drop : Stream → State → State)
    (here : traffic.stage thread = .outside)
    (entry : traffic.files.lookup fd = some arc)
    (live : traffic.arcs.lookup arc = some content)
    (strong : content.strong = 1) (free : content.locked = false)
    (apply : OpenStream Stream → State → OpenStream Stream × State) :
    ∃ arcs stages, run (step drop) traffic
        ([.lookUp fd, .lock, .operate apply, .unlock, .release].map
          (thread, ·)) =
      { traffic with
        vfs := (apply content.file.stream traffic.vfs).2
        arcs := arcs
        stages := stages.insert thread .outside } ∧
      (∀ other, other ≠ thread → stageOf .outside stages other =
        traffic.stage other) ∧
      arcs.lookup arc = some { content with
        file := { content.file with
          stream := (apply content.file.stream traffic.vfs).1 } } ∧
      ∀ other, other ≠ arc → arcs.lookup other = traffic.arcs.lookup other := by
  have shared : 1 < content.strong + 1 := by
    omega
  have unlocked : ({ content with strong := content.strong + 1 } :
      Arc Stream).locked = false := free
  simp only [List.map_cons, List.map_nil, run_cons]
  rw [step_lookUp here entry, cloneArc_of_live live,
    step_lock (stage_goTo_self _) (lookup_goTo_putArc _ _ _ _ _) unlocked,
    step_operate (stage_goTo_self _) (lookup_goTo_putArc _ _ _ _ _),
    step_unlock (stage_operated _ _ _ _ _) (lookup_putArc _ _ _),
    step_release (stage_goTo_self _),
    dropArc_of_shared (lookup_goTo_putArc _ _ _ _ _) shared]
  refine ⟨_, _, rfl, fun other different => ?_, ?_, fun other different => ?_⟩
  · change stageOf .outside (AList.insert thread _ (AList.insert thread _
      (AList.insert thread _ traffic.stages))) other = _
    rw [stageOf_insert_of_ne different, stageOf_insert_of_ne different,
      stageOf_insert_of_ne different]
    rfl
  · refine (AList.lookup_insert _).trans ?_
    rw [Nat.add_sub_cancel, free]
    rfl
  · simp only [putArc, goTo, withVfs, AList.lookup_insert_ne different]

end Alone

end Traffic

/-! ## One call -/

section Calls

variable {machine : Machine Ambient State Stream} {allowWrites : Bool}
  {traffic : Traffic State Stream} {process : Process State Stream}
  {thread : Nat}

/-- When no thread is in a call, only the entries hold the files. -/
theorem Sound.quiet_entry (sound : Sound traffic)
    (quiet : ∀ thread, traffic.stage thread = .outside) {fd arc : Nat}
    (entry : traffic.files.lookup fd = some arc) :
    ∃ content, traffic.arcs.lookup arc = some content ∧
      content.strong = 1 ∧ content.locked = false := by
  have nothing : ∀ {share : Stage Stream → Nat → Nat} (thing : Nat),
      share .outside = 0 → holding share traffic.stages thing = 0 := by
    intro share thing none
    refine Nat.eq_zero_of_not_pos fun positive => ?_
    obtain ⟨party, some⟩ := (holding_pos_iff none).mp positive
    have here : stageOf .outside traffic.stages party = .outside := quiet party
    rw [here, none] at some
    exact absurd some (Nat.lt_irrefl 0)
  obtain ⟨content, live⟩ := sound.counted.entry_live entry
  have balance := sound.counted.balance arc
  have single := sound.counted.single arc
  have registered := registered_pos_iff.mpr ⟨fd, entry⟩
  have unlocked := sound.locks arc content live
  rw [strongs_of_lookup live, nothing arc Stage.arcs_outside] at balance
  rw [nothing arc Stage.locks_outside] at unlocked
  refine ⟨content, live, by omega, ?_⟩
  cases locked : content.locked with
  | false =>
      rfl
  | true =>
      rw [locked, if_pos rfl] at unlocked
      cases unlocked

theorem Traffic.getFile_of_entry {fd arc : Nat} {content : Arc Stream}
    (entry : traffic.files.lookup fd = some arc)
    (live : traffic.arcs.lookup arc = some content) :
    traffic.getFile fd = some content.file := by
  unfold Traffic.getFile
  rw [entry, Option.bind_some, live]
  rfl

theorem Traffic.getFile_of_missing {fd : Nat}
    (missing : traffic.files.lookup fd = none) : traffic.getFile fd = none := by
  unfold Traffic.getFile
  rw [missing]
  rfl

/-- Another descriptor is for another file. -/
theorem Sound.getFile_of_ne (sound : Sound traffic)
    {arcs : Store Nat (Arc Stream)} {fd other arc : Nat}
    (entry : traffic.files.lookup fd = some arc) (different : other ≠ fd)
    (others : ∀ held, held ≠ arc →
      arcs.lookup held = traffic.arcs.lookup held) :
    ((traffic.files.lookup other).bind fun held =>
      (arcs.lookup held).map Arc.file) = traffic.getFile other := by
  unfold Traffic.getFile
  cases found : traffic.files.lookup other with
  | none =>
      rfl
  | some held =>
      have apart : held ≠ arc := by
        intro same
        rw [same] at found
        exact different (sound.counted.entry_unique entry found)
      rw [Option.bind_some, Option.bind_some, others held apart]

/-- A new file is nobody's so far. -/
theorem Sound.getFile_insert (sound : Sound traffic) (new : Arc Stream)
    (other : Nat) :
    ((traffic.files.lookup other).bind fun held =>
      ((traffic.arcs.insert traffic.nextArc new).lookup held).map
        Arc.file) = traffic.getFile other := by
  unfold Traffic.getFile
  cases found : traffic.files.lookup other with
  | none =>
      rfl
  | some held =>
      obtain ⟨content, live⟩ := sound.counted.entry_live found
      have apart : held ≠ traffic.nextArc := by
        intro same
        have fresh := sound.counted.fresh _ (Nat.le_refl traffic.nextArc)
        rw [same, fresh] at live
        cases live
      rw [Option.bind_some, Option.bind_some, AList.lookup_insert_ne apart]

theorem shows_serve (fd : Int)
    (apply : OpenStream Stream → State → OpenStream Stream × State)
    (sound : Sound traffic) (shows : Shows allowWrites traffic process) :
    Shows allowWrites
      (run (Traffic.step (machine.provider.drop machine.ambient)) traffic
        (((Task.serve fd apply).moves machine allowWrites).map (thread, ·)))
      ((Task.serve fd apply).process machine process) := by
  obtain ⟨engine, active, writes, files⟩ := shows.engine
  have moves : (Task.serve fd apply).moves machine allowWrites =
      [Move.lookUp (fdKey fd), .lock, .operate apply, .unlock, .release] := rfl
  have known := files (fdKey fd)
  have here := shows.quiet thread
  rw [moves]
  cases entry : traffic.files.lookup (fdKey fd) with
  | none =>
      rw [Traffic.getFile_of_missing entry] at known
      have passed : (Task.serve fd apply).process machine process =
          process := by
        unfold Task.process
        simp only [active, known]
      have rest : ∀ move ∈ [Move.lock, .operate apply, .unlock, .release],
          Traffic.Late move := by
        simp only [List.forall_mem_cons, Traffic.Late, true_and]
        exact nofun
      rw [passed, List.map_cons, run_cons,
        Traffic.step_lookUp_none here entry, Traffic.run_late rest here]
      exact shows
  | some arc =>
      obtain ⟨content, live, strong, free⟩ :=
        sound.quiet_entry shows.quiet entry
      rw [Traffic.getFile_of_entry entry live] at known
      obtain ⟨arcs, stages, ran, outside, put, others⟩ :=
        Traffic.run_serve (machine.provider.drop machine.ambient) here entry
          live strong free apply
      have served : (Task.serve fd apply).process machine process =
          keepStream fd engine content.file
            (apply content.file.stream process.vfs).1
            (apply content.file.stream process.vfs).2 process := by
        unfold Task.process
        simp only [active, known]
      rw [ran, served, shows.vfs]
      refine ⟨fun other => ?_, rfl, shows.inHook, _, rfl, writes,
        fun other => ?_⟩
      · by_cases same : other = thread
        · rw [same]
          exact stageOf_insert_self _
        · refine (stageOf_insert_of_ne same _).trans ?_
          rw [outside other same, shows.quiet other]
      · by_cases same : other = fdKey fd
        · rw [same]
          refine (AList.lookup_insert _).trans ?_
          change _ = (traffic.files.lookup (fdKey fd)).bind fun held =>
            (arcs.lookup held).map Arc.file
          rw [entry, Option.bind_some, put]
          rfl
        · refine (AList.lookup_insert_ne same).trans ?_
          exact (files other).trans
            (sound.getFile_of_ne entry same others).symm

theorem shows_close (fd : Int) (sound : Sound traffic)
    (shows : Shows allowWrites traffic process) :
    Shows allowWrites
      (run (Traffic.step (machine.provider.drop machine.ambient)) traffic
        (((Task.close fd).moves machine allowWrites).map (thread, ·)))
      ((Task.close fd).process machine process) := by
  obtain ⟨engine, active, writes, files⟩ := shows.engine
  have moves : (Task.close fd).moves machine allowWrites =
      [(.remove (fdKey fd) : Move State Stream), .dropFile,
        .closeOriginal] := rfl
  have known := files (fdKey fd)
  have here := shows.quiet thread
  rw [moves]
  simp only [List.map_cons, List.map_nil, run_cons]
  cases entry : traffic.files.lookup (fdKey fd) with
  | none =>
      rw [Traffic.getFile_of_missing entry] at known
      have passed : (Task.close fd).process machine process = process := by
        unfold Task.process shimClose withFile
        simp only [shows.inHook, active, known]
        rfl
      rw [passed, Traffic.step_remove_none here entry,
        Traffic.step_dropFile_none (Traffic.stage_goTo_self _),
        Traffic.step_closeOriginal (Traffic.stage_goTo_self _)]
      refine ⟨Traffic.quiet_goTo fun other different => ?_, shows.vfs,
        shows.inHook, engine, active, writes, files⟩
      exact (Traffic.stage_goTo_of_ne different _).trans (shows.quiet other)
  | some arc =>
      obtain ⟨content, live, strong, free⟩ :=
        sound.quiet_entry shows.quiet entry
      rw [Traffic.getFile_of_entry entry live] at known
      have closed : (Task.close fd).process machine process =
          (process.withEngine { engine with
            registry := engine.registry.removeFile (fdKey fd) }).withVfs
            (machine.provider.drop machine.ambient content.file.stream.inner
              process.vfs) := by
        unfold Task.process shimClose withFile
        simp only [shows.inHook, active, known]
        rfl
      have still : (((traffic.takeFile (fdKey fd)).takeBack (fdKey fd)).goTo
          thread (.removed arc (fdKey fd))).arcs.lookup arc = some content :=
        live
      rw [closed, Traffic.step_remove here entry,
        Traffic.step_dropFile (Traffic.stage_goTo_self _),
        Traffic.step_closeOriginal (Traffic.stage_goTo_self _),
        Traffic.dropArc_of_last still strong, shows.vfs]
      refine ⟨Traffic.quiet_goTo fun other different => ?_, rfl,
        shows.inHook, _, rfl, writes, fun other => ?_⟩
      · change stageOf .outside (AList.insert thread _ (AList.insert thread _
          traffic.stages)) other = _
        rw [stageOf_insert_of_ne different, stageOf_insert_of_ne different]
        exact shows.quiet other
      · by_cases same : other = fdKey fd
        · rw [same]
          refine (AList.lookup_erase _ _).trans ?_
          symm
          exact Traffic.getFile_of_missing (AList.lookup_erase _ _)
        · have others : ∀ held, held ≠ arc →
              (traffic.arcs.erase arc).lookup held =
                traffic.arcs.lookup held :=
            fun held apart => AList.lookup_erase_ne apart
          refine (AList.lookup_erase_ne same).trans ((files other).trans ?_)
          rw [← sound.getFile_of_ne entry same others]
          change _ = ((traffic.files.erase (fdKey fd)).lookup other).bind _
          rw [AList.lookup_erase_ne same]
          rfl

/-- Only the provider's state changes. -/
theorem Shows.withVfs (shows : Shows allowWrites traffic process)
    (vfs : State) :
    Shows allowWrites (traffic.withVfs vfs) (process.withVfs vfs) :=
  ⟨shows.quiet, rfl, shows.inHook, shows.engine⟩

theorem shows_open (carrier : Reply) (flags : Flags) (path : Text)
    (sound : Sound traffic) (shows : Shows allowWrites traffic process)
    (fair : EachStep (Traffic.step (machine.provider.drop machine.ambient))
      (fun traffic turn => turn.2.Fair traffic) traffic
      (((Task.open carrier flags path).moves machine allowWrites).map
        (thread, ·))) :
    Shows allowWrites
      (run (Traffic.step (machine.provider.drop machine.ambient)) traffic
        (((Task.open carrier flags path).moves machine allowWrites).map
          (thread, ·)))
      ((Task.open carrier flags path).process machine process) := by
  obtain ⟨engine, active, writes, files⟩ := shows.engine
  have here := shows.quiet thread
  have rest : ∀ fetched, ∀ move ∈
      [(.fetch fetched : Move State Stream), .register],
        Traffic.Late move := by
    intro fetched
    simp only [List.forall_mem_cons, Traffic.Late, true_and]
    exact nofun
  have last : Traffic.Late (.register : Move State Stream) := trivial
  simp only [Task.moves] at fair ⊢
  unfold Task.process
  simp only [active]
  unfold openVirtualFd
  rw [writes]
  by_cases denied : wantsWrite flags && !allowWrites
  · rw [if_pos denied, if_pos denied]
    exact shows
  · rw [if_neg denied, if_neg denied, List.map_cons, run_cons]
    have same : openStream { machine with os := fun _ => carrier } path
        (openOptions flags) process.vfs =
          openStream machine path (openOptions flags) traffic.vfs := by
      rw [shows.vfs]
      rfl
    rw [same]
    cases asked : openStream machine path (openOptions flags) traffic.vfs with
    | mk opened vfs =>
    have still : (traffic.withVfs vfs).stage thread = .outside := here
    cases opened with
    | none =>
        rw [Traffic.step_open_none here asked, Traffic.run_late (rest _) still]
        exact shows.withVfs vfs
    | some outcome =>
        cases outcome with
        | error error =>
            rw [Traffic.step_open_error here asked,
              Traffic.run_late (rest _) still]
            exact shows.withVfs vfs
        | ok stream =>
            rw [Traffic.step_open here asked]
            simp only [List.map_cons, List.map_nil, run_cons]
            by_cases refused : carrier.ret < 0
            · rw [if_pos refused, if_pos refused,
                Traffic.step_fetch_none (Traffic.stage_goTo_self _),
                Traffic.step_late last (Traffic.stage_goTo_self _)]
              refine ⟨Traffic.quiet_goTo fun other different => ?_, rfl,
                shows.inHook, engine, active, writes, files⟩
              exact (Traffic.stage_goTo_of_ne different _).trans
                (shows.quiet other)
            · rw [if_neg denied, if_neg refused] at fair
              have closed : fdKey carrier.ret ∉ traffic.descriptors := by
                rw [← Traffic.descriptors_step_open]
                exact fair.2.1
              have free := sound.kept.free_of_not_owned
                (sound.kept.closed closed).2
              have known := files (fdKey carrier.ret)
              rw [Traffic.getFile_of_missing free] at known
              rw [if_neg refused, if_neg refused,
                Traffic.step_fetch (Traffic.stage_goTo_self _),
                Traffic.step_register (Traffic.stage_goTo_self _)]
              rw [Traffic.insertFile_of_free (by exact free)]
              unfold insertFile
              simp only [known]
              refine ⟨Traffic.quiet_goTo fun other different => ?_, rfl,
                shows.inHook, _, rfl, writes, fun other => ?_⟩
              · change stageOf .outside (AList.insert thread _
                  (AList.insert thread _ traffic.stages)) other = _
                rw [stageOf_insert_of_ne different,
                  stageOf_insert_of_ne different]
                exact shows.quiet other
              · change _ = ((traffic.files.insert (fdKey carrier.ret)
                  traffic.nextArc).lookup other).bind fun held =>
                    ((traffic.arcs.insert traffic.nextArc ⟨1, ⟨stream, path,
                      wantsWrite flags⟩, false⟩).lookup held).map Arc.file
                by_cases same : other = fdKey carrier.ret
                · rw [same, AList.lookup_insert, Option.bind_some,
                    AList.lookup_insert]
                  exact AList.lookup_insert _
                · rw [AList.lookup_insert_ne same]
                  refine (AList.lookup_insert_ne same).trans ?_
                  exact (files other).trans (sound.getFile_insert _ other).symm

theorem shows_call (call : Nat × Task State Stream) (sound : Sound traffic)
    (shows : Shows allowWrites traffic process)
    (fair : EachStep (Traffic.step (machine.provider.drop machine.ambient))
      (fun traffic turn => turn.2.Fair traffic) traffic
      ((call.2.moves machine allowWrites).map (call.1, ·))) :
    Shows allowWrites
      (run (Traffic.step (machine.provider.drop machine.ambient)) traffic
        ((call.2.moves machine allowWrites).map (call.1, ·)))
      (call.2.process machine process) := by
  obtain ⟨thread, task⟩ := call
  cases task with
  | «open» carrier flags path =>
      exact shows_open carrier flags path sound shows fair
  | serve fd apply =>
      exact shows_serve fd apply sound shows
  | close fd =>
      exact shows_close fd sound shows

end Calls

/-! ## Calls one after the other -/

section Turns

variable (machine : Machine Ambient State Stream) (allowWrites : Bool)

/-- The turns of calls that are not interrupted. -/
def inTurn (calls : List (Nat × Task State Stream)) :
    List (Nat × Move State Stream) :=
  calls.flatMap fun call =>
    (call.2.moves machine allowWrites).map (call.1, ·)

/-- The process that calls the shims one after the other. -/
def serially (process : Process State Stream)
    (calls : List (Nat × Task State Stream)) : Process State Stream :=
  run (fun process call => call.2.process machine process) process calls

/-- A process with a new engine. -/
def freshProcess (nspace : Namespace) (vfs : State) :
    Process State Stream where
  vfs := vfs
  engine := some (.new nspace allowWrites)
  cookies := ∅
  inHook := false

theorem shows_start (nspace : Namespace) (vfs : State) (owned : Finset Nat) :
    Shows allowWrites (Traffic.start vfs owned : Traffic State Stream)
      (freshProcess allowWrites nspace vfs) :=
  ⟨fun _ => rfl, rfl, rfl, _, rfl, rfl, fun _ => rfl⟩

theorem shows_calls :
    ∀ {calls : List (Nat × Task State Stream)}
      {traffic : Traffic State Stream} {process : Process State Stream},
      Sound traffic → Shows allowWrites traffic process →
      EachStep (Traffic.step (machine.provider.drop machine.ambient))
        (fun traffic turn => turn.2.Fair traffic) traffic
        (inTurn machine allowWrites calls) →
      Shows allowWrites
        (run (Traffic.step (machine.provider.drop machine.ambient)) traffic
          (inTurn machine allowWrites calls))
        (serially machine process calls) := by
  intro calls
  induction calls with
  | nil =>
      intro traffic process _ shows _
      exact shows
  | cons call rest inductionHypothesis =>
      intro traffic process sound shows fair
      unfold inTurn at fair ⊢
      rw [List.flatMap_cons] at fair ⊢
      rw [eachStep_append] at fair
      rw [run_append]
      have next := throughout_of_eachStep sound_step _ _ sound fair.1
      exact inductionHypothesis next.run (shows_call call sound shows fair.1)
        fair.2

end Turns

/-- Thread 1 creates and closes a file that thread 2 writes. -/
def createWriteClose :
    List (Nat × Task Memory.MemoryFs Memory.MemoryFs.Stream) :=
  [(1, .open ⟨7, none, .nothing⟩ (O_RDWR ||| O_CREAT) "/v/a".toList),
    (2, .serve 7 fun stream vfs =>
      (stream.writeBytes Memory.MemoryFs.provider .still [1, 2, 3] vfs).2),
    (1, .close 7)]

end Hookfs.Unix
