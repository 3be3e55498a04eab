import Hookfs.Lib.Runs
import Hookfs.Unix.Accounts

/-!
# Threads keep descriptors in order

However the steps of several threads are interleaved: no entry of the registry
is displaced, a registered descriptor is open, an original `close` closes an
open descriptor that nobody else has, one thread at a time works on a file,
and every stream is dropped once, when nothing refers to it any more.
-/

namespace Hookfs.Unix

open Hookfs.Lib Hookfs.Vfs Hookfs.Router

variable {State Stream : Type}

/-! ## One turn -/

/-- What the kernel and the program do not do: a descriptor that is open is
not handed out again, and only a descriptor that the program has is closed. -/
def Move.Fair (traffic : Traffic State Stream) :
    Move State Stream → Prop
  | .fetch (some fd) => fd ∉ traffic.descriptors
  | .openReal fd => fd ∉ traffic.descriptors
  | .remove fd => fd ∈ traffic.owned
  | _ => True

/-- What a turn of a thread can come to. -/
inductive Turned (drop : Stream → State → State)
    (traffic : Traffic State Stream) (thread : Nat) :
    Move State Stream → Traffic State Stream → Prop
  | stays (move : Move State Stream) : Turned drop traffic thread move traffic
  | tree (move : Move State Stream) (vfs : State) :
      Turned drop traffic thread move (traffic.withVfs vfs)
  | opened {ask : State →
        Option (Except IoError (OpenStream Stream)) × State}
      {path : Text} {writable : Bool} (file : OpenFile Stream) (vfs : State)
      (here : traffic.stage thread = .outside) :
      Turned drop traffic thread (.open ask path writable)
        ((traffic.withVfs vfs).goTo thread (.opened file))
  | refused {file : OpenFile Stream} (vfs : State)
      (here : traffic.stage thread = .opened file) :
      Turned drop traffic thread (.fetch none)
        ((traffic.withVfs vfs).goTo thread .outside)
  | fetched {file : OpenFile Stream} (fd : Nat)
      (here : traffic.stage thread = .opened file) :
      Turned drop traffic thread (.fetch (some fd))
        ((traffic.openFd fd).goTo thread (.carried file fd))
  | registered {file : OpenFile Stream} {fd : Nat}
      (here : traffic.stage thread = .carried file fd) :
      Turned drop traffic thread .register
        (((traffic.insertFile drop fd file).give fd).goTo thread .outside)
  | openedReal (fd : Nat) (here : traffic.stage thread = .outside) :
      Turned drop traffic thread (.openReal fd)
        ((traffic.openFd fd).give fd)
  | found {fd arc : Nat} (entry : traffic.files.lookup fd = some arc)
      (here : traffic.stage thread = .outside) :
      Turned drop traffic thread (.lookUp fd)
        ((traffic.cloneArc arc).goTo thread (.found arc))
  | skipped {arc : Nat} (here : traffic.stage thread = .found arc) :
      Turned drop traffic thread .skip (traffic.goTo thread (.served arc))
  | locked {arc : Nat} {content : Arc Stream}
      (here : traffic.stage thread = .found arc)
      (live : traffic.arcs.lookup arc = some content)
      (free : content.locked = false) :
      Turned drop traffic thread .lock
        ((traffic.putArc arc { content with locked := true }).goTo thread
          (.locked arc))
  | operated {arc : Nat} {content : Arc Stream}
      {apply : OpenStream Stream → State → OpenStream Stream × State}
      (stream : OpenStream Stream) (vfs : State)
      (here : traffic.stage thread = .locked arc)
      (live : traffic.arcs.lookup arc = some content) :
      Turned drop traffic thread (.operate apply)
        ((traffic.withVfs vfs).putArc arc
          { content with file := { content.file with stream := stream } })
  | unlocked {arc : Nat} {content : Arc Stream}
      (here : traffic.stage thread = .locked arc)
      (live : traffic.arcs.lookup arc = some content) :
      Turned drop traffic thread .unlock
        ((traffic.putArc arc { content with locked := false }).goTo thread
          (.served arc))
  | released {arc : Nat} (here : traffic.stage thread = .served arc) :
      Turned drop traffic thread .release
        ((traffic.dropArc drop arc).goTo thread .outside)
  | forwarded {fd : Nat} (missing : traffic.files.lookup fd = none)
      (here : traffic.stage thread = .outside) :
      Turned drop traffic thread (.remove fd)
        ((traffic.takeBack fd).goTo thread (.closing fd))
  | removed {fd arc : Nat} (entry : traffic.files.lookup fd = some arc)
      (here : traffic.stage thread = .outside) :
      Turned drop traffic thread (.remove fd)
        (((traffic.takeFile fd).takeBack fd).goTo thread (.removed arc fd))
  | dropped {arc fd : Nat} (here : traffic.stage thread = .removed arc fd) :
      Turned drop traffic thread .dropFile
        ((traffic.dropArc drop arc).goTo thread (.closing fd))
  | closed {fd : Nat} (here : traffic.stage thread = .closing fd) :
      Turned drop traffic thread .closeOriginal
        ((traffic.closeFd fd).goTo thread .outside)

theorem step_turned (drop : Stream → State → State)
    (traffic : Traffic State Stream) (thread : Nat)
    (move : Move State Stream) :
    Turned drop traffic thread move (traffic.step drop (thread, move)) := by
  fun_cases Traffic.step drop traffic (thread, move) with
  | case1 ask path writable here asked stream vfs opens =>
      cases asked
      exact .opened _ vfs here
  | case2 ask path writable here asked outcome vfs =>
      exact .tree move vfs
  | case3 file here asked =>
      cases asked
      exact .refused _ here
  | case4 fd file here asked =>
      cases asked
      exact .fetched fd here
  | case5 file fd here asked =>
      cases asked
      exact .registered here
  | case6 fd here asked =>
      cases asked
      exact .openedReal fd here
  | case7 =>
      exact .stays move
  | case8 fd here asked arc entry =>
      cases asked
      exact .found entry here
  | case9 arc here asked =>
      cases asked
      exact .skipped here
  | case10 | case11 =>
      exact .stays move
  | case12 arc here asked content live taken =>
      cases asked
      exact .locked here live (Bool.not_eq_true _ ▸ taken)
  | case13 =>
      exact .stays move
  | case14 apply arc here asked content live stream vfs =>
      cases asked
      exact .operated stream vfs here live
  | case15 =>
      exact .stays move
  | case16 arc here asked content live =>
      cases asked
      exact .unlocked here live
  | case17 arc here asked =>
      cases asked
      exact .released here
  | case18 fd here asked missing =>
      cases asked
      exact .forwarded missing here
  | case19 fd here asked arc entry =>
      cases asked
      exact .removed entry here
  | case20 arc fd here asked =>
      cases asked
      exact .dropped here
  | case21 fd here asked =>
      cases asked
      exact .closed here
  | case22 apply =>
      exact .tree move _
  | case23 =>
      exact .stays move

/-! ## The invariant -/

section Steps

variable {traffic : Traffic State Stream} {thread : Nat}
  {stage : Stage Stream}

/-- What all threads hold, when one goes on. -/
theorem holding_goTo {share : Stage Stream → Nat → Nat}
    (nothing : share .outside = 0) (here : traffic.stage thread = stage)
    (next : Stage Stream) {after : Traffic State Stream}
    (same : after.stages = traffic.stages) :
    holding share (after.goTo thread next).stages + share stage =
      holding share traffic.stages + share next := by
  have counted := holding_insert nothing traffic.stages thread next
  change holding share (after.stages.insert thread next) + share stage = _
  rw [same, ← here]
  exact counted

/-- A thread goes on, and what it had and has is accounted for. -/
theorem sound_goTo {next : Stage Stream} {after : Traffic State Stream}
    (here : traffic.stage thread = stage)
    (same : after.stages = traffic.stages)
    (counted : ∀ arcs, arcs + stage.arcs =
        holding Stage.arcs traffic.stages + next.arcs →
      Counted after.files after.arcs after.nextArc after.dropped arcs)
    (locks : ∀ locks, locks + stage.locks =
        holding Stage.locks traffic.stages + next.locks →
      LocksAgree after.arcs locks)
    (kept : ∀ pending, pending + stage.fds =
        holding Stage.fds traffic.stages + next.fds →
      Kept after.files after.descriptors after.owned pending) :
    Sound (after.goTo thread next) where
  counted := counted _ (holding_goTo rfl here next same)
  locks := locks _ (holding_goTo rfl here next same)
  kept := kept _ (holding_goTo rfl here next same)

/-- A thread goes on with what it had. -/
theorem sound_goTo_same {next : Stage Stream} {after : Traffic State Stream}
    (here : traffic.stage thread = stage)
    (same : after.stages = traffic.stages)
    (arcs : next.arcs = stage.arcs) (locks : next.locks = stage.locks)
    (fds : next.fds = stage.fds)
    (counted : Counted after.files after.arcs after.nextArc after.dropped
      (holding Stage.arcs traffic.stages))
    (agree : LocksAgree after.arcs (holding Stage.locks traffic.stages))
    (kept : Kept after.files after.descriptors after.owned
      (holding Stage.fds traffic.stages)) :
    Sound (after.goTo thread next) := by
  refine sound_goTo here same (fun _ total => ?_) (fun _ total => ?_)
    (fun _ total => ?_)
  · rw [arcs] at total
    rw [add_right_cancel total]
    exact counted
  · rw [locks] at total
    rw [add_right_cancel total]
    exact agree
  · rw [fds] at total
    rw [add_right_cancel total]
    exact kept

/-- Who has locked a file has its `Arc`. -/
theorem locks_le_arcs (stages : Store Nat (Stage Stream)) (arc : Nat) :
    holding Stage.locks stages arc ≤ holding Stage.arcs stages arc := by
  refine holding_mono fun stage => ?_
  cases stage with
  | locked other =>
      exact Nat.le_refl _
  | _ => exact Nat.zero_le _

/-- An `Arc` that is not live is locked by nobody. -/
theorem Sound.unlocked_of_missing (sound : Sound traffic) {arc : Nat}
    (missing : traffic.arcs.lookup arc = none) :
    holding Stage.locks traffic.stages arc = 0 := by
  have balance := sound.counted.balance arc
  have less := locks_le_arcs traffic.stages arc
  unfold strongs at balance
  rw [missing, Option.elim_none] at balance
  omega

/-- What a thread holds at its stage is held. -/
theorem held_of_stage {share : Stage Stream → Nat → Nat}
    (nothing : share .outside = 0) (here : traffic.stage thread = stage)
    (thing : Nat) : share stage thing ≤ holding share traffic.stages thing := by
  rw [← here]
  exact share_le_holding nothing traffic.stages thread thing

theorem sound_turned {drop : Stream → State → State}
    {move : Move State Stream} {after : Traffic State Stream}
    (sound : Sound traffic) (fair : move.Fair traffic)
    (turned : Turned drop traffic thread move after) : Sound after := by
  obtain ⟨counted, agree, kept⟩ := sound
  cases turned with
  | stays =>
      exact ⟨counted, agree, kept⟩
  | tree _ vfs =>
      exact ⟨counted, agree, kept⟩
  | opened file vfs here =>
      exact sound_goTo_same here rfl rfl rfl rfl counted agree kept
  | refused vfs here =>
      exact sound_goTo_same here rfl rfl rfl rfl counted agree kept
  | fetched fd here =>
      refine sound_goTo here rfl (fun arcs total => ?_)
        (fun locks total => ?_) (fun pending total => ?_)
      · rw [add_right_cancel total]
        exact counted
      · rw [add_right_cancel total]
        exact agree
      · have more : pending =
            holding Stage.fds traffic.stages + oneOf fd := total
        rw [more]
        exact kept.fetch fair
  | @registered file fd here =>
      have mine : (Stage.carried file fd).fds fd ≤
          holding Stage.fds traffic.stages fd := held_of_stage rfl here fd
      rw [Stage.fds, oneOf_self] at mine
      obtain ⟨_, foreign⟩ := kept.pending_eq mine
      have free := kept.free_of_not_owned foreign
      have unused := counted.fresh _ (Nat.le_refl _)
      have unlocked := Sound.unlocked_of_missing ⟨counted, agree, kept⟩ unused
      refine sound_goTo here (Traffic.stages_insertFile _ _ _ _)
        (fun arcs total => ?_) (fun locks total => ?_)
        (fun pending total => ?_)
      · rw [add_right_cancel total]
        exact counted.insertFile drop _ free
      · rw [add_right_cancel total]
        exact agree.insertFile drop _ _ unlocked
      · have less : pending + oneOf _ = holding Stage.fds traffic.stages :=
          total
        rw [← less] at kept
        change Kept (traffic.insertFile drop _ _).files
          (traffic.insertFile drop _ _).descriptors
          (insert _ (traffic.insertFile drop _ _).owned) pending
        rw [Traffic.files_insertFile, Traffic.descriptors_insertFile,
          Traffic.owned_insertFile]
        exact kept.give.insert _ (Finset.mem_insert_self _ _)
  | openedReal fd here =>
      exact ⟨counted, agree, (kept.fetch fair).give⟩
  | found entry here =>
      obtain ⟨content, live⟩ := counted.entry_live entry
      refine sound_goTo here (Traffic.stages_cloneArc _ _)
        (fun arcs total => ?_) (fun locks total => ?_)
        (fun pending total => ?_)
      · have more : arcs = holding Stage.arcs traffic.stages + oneOf _ :=
          total
        rw [more]
        exact counted.clone live
      · rw [add_right_cancel total]
        exact agree.cloneArc
      · rw [add_right_cancel total, Traffic.files_cloneArc,
          Traffic.descriptors_cloneArc, Traffic.owned_cloneArc]
        exact kept
  | skipped here =>
      exact sound_goTo_same here rfl rfl rfl rfl counted agree kept
  | @locked arc content here live free =>
      refine sound_goTo here rfl (fun arcs total => ?_)
        (fun locks total => ?_) (fun pending total => ?_)
      · rw [add_right_cancel total]
        exact counted.same live rfl
      · have more : locks = holding Stage.locks traffic.stages + oneOf arc :=
          total
        have none := agree arc content live
        rw [free, if_neg Bool.false_ne_true] at none
        refine agree.put ?_ fun other different => ?_
        · rw [more, Pi.add_apply, none, oneOf_self]
          rfl
        · rw [more, Pi.add_apply, oneOf_of_ne different, Nat.add_zero]
      · rw [add_right_cancel total]
        exact kept
  | operated stream vfs here live =>
      exact ⟨counted.same live rfl, agree.same live rfl, kept⟩
  | @unlocked arc content here live =>
      refine sound_goTo here rfl (fun arcs total => ?_)
        (fun locks total => ?_) (fun pending total => ?_)
      · rw [add_right_cancel total]
        exact counted.same live rfl
      · have less : locks + oneOf arc = holding Stage.locks traffic.stages :=
          total
        have once := agree arc content live
        have others := congrFun less arc
        rw [Pi.add_apply, oneOf_self, once] at others
        refine agree.put ?_ fun other different => ?_
        · rw [if_neg Bool.false_ne_true]
          split at others
          · omega
          · omega
        · rw [← less, Pi.add_apply, oneOf_of_ne different, Nat.add_zero]
      · rw [add_right_cancel total]
        exact kept
  | released here =>
      refine sound_goTo here (Traffic.stages_dropArc _ _ _)
        (fun arcs total => ?_) (fun locks total => ?_)
        (fun pending total => ?_)
      · have less : arcs + oneOf _ = holding Stage.arcs traffic.stages :=
          total
        rw [← less] at counted
        exact counted.drop drop
      · rw [add_right_cancel total]
        exact agree.dropArc drop
      · rw [add_right_cancel total, Traffic.files_dropArc,
          Traffic.descriptors_dropArc, Traffic.owned_dropArc]
        exact kept
  | forwarded missing here =>
      refine sound_goTo here rfl (fun arcs total => ?_)
        (fun locks total => ?_) (fun pending total => ?_)
      · rw [add_right_cancel total]
        exact counted
      · rw [add_right_cancel total]
        exact agree
      · have more : pending =
            holding Stage.fds traffic.stages + oneOf _ := total
        rw [more]
        exact kept.takeBack fair missing
  | removed entry here =>
      refine sound_goTo here rfl (fun arcs total => ?_)
        (fun locks total => ?_) (fun pending total => ?_)
      · have more : arcs = holding Stage.arcs traffic.stages + oneOf _ :=
          total
        rw [more]
        exact counted.takeFile entry
      · rw [add_right_cancel total]
        exact agree
      · have more : pending =
            holding Stage.fds traffic.stages + oneOf _ := total
        rw [more]
        exact (kept.erase).takeBack fair (AList.lookup_erase _ _)
  | dropped here =>
      refine sound_goTo here (Traffic.stages_dropArc _ _ _)
        (fun arcs total => ?_) (fun locks total => ?_)
        (fun pending total => ?_)
      · have less : arcs + oneOf _ = holding Stage.arcs traffic.stages :=
          total
        rw [← less] at counted
        exact counted.drop drop
      · rw [add_right_cancel total]
        exact agree.dropArc drop
      · rw [add_right_cancel total, Traffic.files_dropArc,
          Traffic.descriptors_dropArc, Traffic.owned_dropArc]
        exact kept
  | closed here =>
      refine sound_goTo here rfl (fun arcs total => ?_)
        (fun locks total => ?_) (fun pending total => ?_)
      · rw [add_right_cancel total]
        exact counted
      · rw [add_right_cancel total]
        exact agree
      · have less : pending + oneOf _ = holding Stage.fds traffic.stages :=
          total
        rw [← less] at kept
        exact kept.close

theorem sound_step {drop : Stream → State → State}
    (traffic : Traffic State Stream) (turn : Nat × Move State Stream)
    (sound : Sound traffic) (fair : turn.2.Fair traffic) :
    Sound (traffic.step drop turn) :=
  sound_turned sound fair (step_turned drop traffic turn.1 turn.2)

theorem sound_start (vfs : State) (owned : Finset Nat) :
    Sound (Traffic.start vfs owned : Traffic State Stream) where
  counted := by
    refine ⟨fun _ => rfl, nofun, fun _ _ => rfl, fun arc => ?_,
      List.nodup_nil, fun _ => Nat.zero_le 1⟩
    exact iff_of_false List.not_mem_nil
      (fun both => Nat.not_lt_zero arc both.1)
  locks := nofun
  kept := by
    refine ⟨nofun, fun fd => ?_⟩
    change 0 + (if fd ∈ owned then 1 else 0) = if fd ∈ owned then 1 else 0
    rw [Nat.zero_add]

end Steps

/-! ## In order -/

namespace Traffic

/-- A thread has an `Arc`. -/
def Has (thread arc : Nat) (traffic : Traffic State Stream) : Prop :=
  0 < (traffic.stage thread).arcs arc

/-- A thread is about to return a descriptor, or to close it. -/
def Minds (thread fd : Nat) (traffic : Traffic State Stream) : Prop :=
  0 < (traffic.stage thread).fds fd

/-- What the program can rely on between any two steps. -/
structure InOrder (traffic : Traffic State Stream) : Prop where
  /-- A registered descriptor is open, with the program, and no other is
  registered for its file. -/
  entries : ∀ fd arc, traffic.files.lookup fd = some arc →
    fd ∈ traffic.descriptors ∧ fd ∈ traffic.owned ∧
      ∀ other, traffic.files.lookup other = some arc → other = fd
  /-- The open descriptors are those of the program and of the calls. -/
  descriptors : ∀ fd, fd ∈ traffic.descriptors ↔
    fd ∈ traffic.owned ∨ ∃ thread, traffic.Minds thread fd
  /-- What a call is about to close is not with the program, and with no
  other call. -/
  minded : ∀ thread fd, traffic.Minds thread fd → fd ∉ traffic.owned ∧
    ∀ other, traffic.Minds other fd → other = thread
  /-- One thread at a time has locked a file. -/
  exclusive : ∀ first second arc, traffic.stage first = .locked arc →
    traffic.stage second = .locked arc → second = first
  /-- A stream was dropped if nothing refers to it any more, -/
  dropped : ∀ arc, arc ∈ traffic.dropped ↔ arc < traffic.nextArc ∧
    (∀ fd, traffic.files.lookup fd ≠ some arc) ∧
      ∀ thread, ¬ traffic.Has thread arc
  /-- and once. -/
  once : traffic.dropped.Nodup

/-- What the steps of a thread leave to the others. -/
structure Steady (drop : Stream → State → State)
    (traffic : Traffic State Stream) (turn : Nat × Move State Stream) :
    Prop where
  /-- An entry stays until its descriptor is closed. -/
  entries : ∀ fd arc, traffic.files.lookup fd = some arc →
    turn.2 ≠ .remove fd →
      (traffic.step drop turn).files.lookup fd = some arc
  /-- A stream moves only in the hands of the thread that has locked it. -/
  files : ∀ arc content after, traffic.arcs.lookup arc = some content →
    (traffic.step drop turn).arcs.lookup arc = some after →
      traffic.stage turn.1 ≠ .locked arc → after.file = content.file

end Traffic

section Order

variable {traffic : Traffic State Stream}

theorem registered_pos_iff {files : Store Nat Nat} {arc : Nat} :
    0 < registered files arc ↔ ∃ fd, files.lookup fd = some arc := by
  unfold registered
  rw [Store.total_apply, Store.total_pos_iff]
  constructor
  · rintro ⟨fd, other, found, positive⟩
    refine ⟨fd, ?_⟩
    by_cases same : arc = other
    · rw [found, same]
    · rw [oneOf_of_ne same] at positive
      exact absurd positive (Nat.lt_irrefl 0)
  · rintro ⟨fd, found⟩
    refine ⟨fd, arc, found, ?_⟩
    rw [oneOf_self]
    exact Nat.one_pos

/-- A file is registered under one descriptor. -/
theorem Counted.entry_unique {files : Store Nat Nat}
    {arcs : Store Nat (Arc Stream)} {nextArc arc fd other : Nat}
    {dropped : List Nat} {outside : Nat → Nat}
    (counted : Counted files arcs nextArc dropped outside)
    (found : files.lookup fd = some arc)
    (again : files.lookup other = some arc) : other = fd := by
  by_contra different
  have single := counted.single arc
  have split : registered files arc =
      oneOf arc arc + registered (files.erase fd) arc := by
    unfold registered
    rw [Store.total_erase_of_lookup _ found]
    rfl
  have more : 0 < registered (files.erase fd) arc := by
    refine registered_pos_iff.mpr ⟨other, ?_⟩
    rw [AList.lookup_erase_ne different]
    exact again
  rw [oneOf_self] at split
  omega

/-- What is locked is locked once. -/
theorem Sound.locks_le_one (sound : Sound traffic) (arc : Nat) :
    holding Stage.locks traffic.stages arc ≤ 1 := by
  cases found : traffic.arcs.lookup arc with
  | none =>
      rw [sound.unlocked_of_missing found]
      exact Nat.zero_le 1
  | some content =>
      rw [sound.locks arc content found]
      split
      · exact Nat.le_refl 1
      · exact Nat.zero_le 1

theorem Sound.pending_le_one (sound : Sound traffic) (fd : Nat) :
    holding Stage.fds traffic.stages fd ≤ 1 := by
  have once := sound.kept.once fd
  split at once
  · split at once
    · omega
    · omega
  · split at once
    · omega
    · omega

theorem Sound.dropped_iff (sound : Sound traffic) (arc : Nat) :
    arc ∈ traffic.dropped ↔ arc < traffic.nextArc ∧
      (∀ fd, traffic.files.lookup fd ≠ some arc) ∧
        ∀ thread, ¬ traffic.Has thread arc := by
  have balance := sound.counted.balance arc
  rw [sound.counted.gone arc]
  refine and_congr_right fun _ => ?_
  constructor
  · intro missing
    unfold strongs at balance
    rw [missing, Option.elim_none] at balance
    refine ⟨fun fd found => ?_, fun thread has => ?_⟩
    · have some := registered_pos_iff.mpr ⟨fd, found⟩
      omega
    · have some : 0 < holding Stage.arcs traffic.stages arc :=
        (holding_pos_iff Stage.arcs_outside).mpr ⟨thread, has⟩
      omega
  · rintro ⟨entries, threads⟩
    cases found : traffic.arcs.lookup arc with
    | none =>
        rfl
    | some content =>
        have alive := sound.counted.alive arc content found
        rw [strongs_of_lookup found] at balance
        have some : 0 < registered traffic.files arc ∨
            0 < holding Stage.arcs traffic.stages arc := by
          omega
        rcases some with entry | clone
        · obtain ⟨fd, here⟩ := registered_pos_iff.mp entry
          exact absurd here (entries fd)
        · obtain ⟨thread, here⟩ := (holding_pos_iff Stage.arcs_outside).mp clone
          exact absurd here (threads thread)

theorem Sound.inOrder (sound : Sound traffic) : traffic.InOrder where
  entries fd arc found := by
    have program := sound.kept.registered fd arc found
    exact ⟨sound.kept.open_of_owned program, program,
      fun other again => sound.counted.entry_unique found again⟩
  descriptors fd := by
    have once := sound.kept.once fd
    have some : 0 < holding Stage.fds traffic.stages fd ↔
        ∃ thread, traffic.Minds thread fd :=
      holding_pos_iff Stage.fds_outside
    rw [← some]
    constructor
    · intro there
      rw [if_pos there] at once
      by_cases program : fd ∈ traffic.owned
      · exact .inl program
      · rw [if_neg program] at once
        exact .inr (by omega)
    · rintro (program | taken)
      · exact sound.kept.open_of_owned program
      · exact (sound.kept.pending_eq taken).1
  minded thread fd minds := by
    have taken : 0 < holding Stage.fds traffic.stages fd :=
      (holding_pos_iff Stage.fds_outside).mpr ⟨thread, minds⟩
    exact ⟨(sound.kept.pending_eq taken).2, fun other also =>
      party_unique Stage.fds_outside (sound.pending_le_one fd) minds also⟩
  exclusive first second arc locked also := by
    refine party_unique Stage.locks_outside (sound.locks_le_one arc) ?_ ?_
    · change 0 < (traffic.stage first).locks arc
      rw [locked, Stage.locks, oneOf_self]
      exact Nat.one_pos
    · change 0 < (traffic.stage second).locks arc
      rw [also, Stage.locks, oneOf_self]
      exact Nat.one_pos
  dropped := sound.dropped_iff
  once := sound.counted.once

end Order

/-! ## What others see -/

section Others

variable {traffic : Traffic State Stream} {arcs : Store Nat (Arc Stream)}
  {arc : Nat} {content next : Arc Stream}

/-- What is there before and after has the same stream. -/
def SameFiles (before after : Store Nat (Arc Stream)) : Prop :=
  ∀ arc content next, before.lookup arc = some content →
    after.lookup arc = some next → next.file = content.file

theorem SameFiles.refl (arcs : Store Nat (Arc Stream)) :
    SameFiles arcs arcs := by
  intro arc content next found after
  rw [found] at after
  rw [Option.some.inj after]

/-- Only the count or the lock of an `Arc` changes. -/
theorem SameFiles.insert (found : arcs.lookup arc = some content)
    (file : next.file = content.file) :
    SameFiles arcs (arcs.insert arc next) := by
  intro other stored later before after
  by_cases same : other = arc
  · subst same
    rw [AList.lookup_insert] at after
    rw [found] at before
    rw [← Option.some.inj after, ← Option.some.inj before]
    exact file
  · rw [AList.lookup_insert_ne same, before] at after
    rw [Option.some.inj after]

/-- The stream of one `Arc` changes. -/
theorem SameFiles.insert_other {other : Nat} {stored later : Arc Stream}
    (different : other ≠ arc) (before : arcs.lookup other = some stored)
    (after : (arcs.insert arc next).lookup other = some later) :
    later.file = stored.file := by
  rw [AList.lookup_insert_ne different, before] at after
  rw [Option.some.inj after]

theorem SameFiles.cloneArc (arc : Nat) (traffic : Traffic State Stream) :
    SameFiles traffic.arcs (traffic.cloneArc arc).arcs := by
  unfold Traffic.cloneArc
  split
  · exact .refl _
  · next content found =>
    exact .insert found rfl

theorem SameFiles.dropArc (drop : Stream → State → State) (arc : Nat)
    (traffic : Traffic State Stream) :
    SameFiles traffic.arcs (traffic.dropArc drop arc).arcs := by
  unfold Traffic.dropArc
  split
  · exact .refl _
  · next content found =>
    split
    · intro other stored later before after
      by_cases same : other = arc
      · subst same
        rw [AList.lookup_erase] at after
        cases after
      · rw [AList.lookup_erase_ne same, before] at after
        rw [Option.some.inj after]
    · exact .insert found rfl

/-- A new `Arc` has a number of its own. -/
theorem SameFiles.insertFile (drop : Stream → State → State) (fd : Nat)
    (file : OpenFile Stream) {traffic : Traffic State Stream}
    (fresh : traffic.arcs.lookup traffic.nextArc = none) :
    SameFiles traffic.arcs (traffic.insertFile drop fd file).arcs := by
  intro other stored later before after
  have different : other ≠ traffic.nextArc := by
    intro same
    rw [same, fresh] at before
    cases before
  unfold Traffic.insertFile at after
  simp only at after
  split at after
  · exact SameFiles.insert_other different before after
  · refine SameFiles.dropArc drop _ _ other stored later ?_ after
    rw [AList.lookup_insert_ne different]
    exact before

theorem Turned.sameFiles {drop : Stream → State → State}
    {move : Move State Stream} {thread : Nat}
    {after : Traffic State Stream} (sound : Sound traffic)
    (turned : Turned drop traffic thread move after) :
    ∀ arc content next, traffic.arcs.lookup arc = some content →
      after.arcs.lookup arc = some next →
        traffic.stage thread ≠ .locked arc → next.file = content.file := by
  intro arc content next before there unlocked
  cases turned with
  | stays | tree | opened | refused | fetched | openedReal | skipped
  | forwarded | removed | closed =>
      exact SameFiles.refl _ arc content next before there
  | registered here =>
      have fresh := sound.counted.fresh _ (Nat.le_refl traffic.nextArc)
      exact SameFiles.insertFile drop _ _ fresh arc content next before there
  | found entry here =>
      exact SameFiles.cloneArc _ traffic arc content next before there
  | @locked held stored here live free =>
      have same : SameFiles traffic.arcs
          (traffic.arcs.insert held { stored with locked := true }) :=
        .insert live rfl
      exact same arc content next before there
  | @operated held _ _ stream vfs here live =>
      refine SameFiles.insert_other ?_ before there
      intro same
      rw [same] at unlocked
      exact unlocked here
  | @unlocked held stored here live =>
      have same : SameFiles traffic.arcs
          (traffic.arcs.insert held { stored with locked := false }) :=
        .insert live rfl
      exact same arc content next before there
  | released here =>
      exact SameFiles.dropArc drop _ traffic arc content next before there
  | dropped here =>
      exact SameFiles.dropArc drop _ traffic arc content next before there

theorem Turned.entry_stays {drop : Stream → State → State}
    {move : Move State Stream} {thread fd : Nat}
    {after : Traffic State Stream} (sound : Sound traffic)
    (turned : Turned drop traffic thread move after)
    (found : traffic.files.lookup fd = some arc)
    (other : move ≠ .remove fd) : after.files.lookup fd = some arc := by
  cases turned with
  | stays | tree | opened | refused | fetched | openedReal | skipped
  | forwarded | closed | locked | operated | unlocked =>
      exact found
  | @registered file taken here =>
      have mine : (Stage.carried file taken).fds taken ≤
          holding Stage.fds traffic.stages taken := held_of_stage rfl here taken
      rw [Stage.fds, oneOf_self] at mine
      have free := sound.kept.free_of_not_owned (sound.kept.pending_eq mine).2
      have different : fd ≠ taken := by
        intro same
        rw [same, free] at found
        cases found
      change (traffic.insertFile drop taken file).files.lookup fd = some arc
      rw [Traffic.files_insertFile, AList.lookup_insert_ne different]
      exact found
  | found entry here =>
      change (traffic.cloneArc _).files.lookup fd = some arc
      rw [Traffic.files_cloneArc]
      exact found
  | @removed taken _ entry here =>
      have different : fd ≠ taken := fun same => other (by rw [same])
      change (traffic.files.erase taken).lookup fd = some arc
      rw [AList.lookup_erase_ne different]
      exact found
  | released here =>
      change (traffic.dropArc drop _).files.lookup fd = some arc
      rw [Traffic.files_dropArc]
      exact found
  | dropped here =>
      change (traffic.dropArc drop _).files.lookup fd = some arc
      rw [Traffic.files_dropArc]
      exact found

theorem Sound.steady (drop : Stream → State → State) (sound : Sound traffic)
    (turn : Nat × Move State Stream) : traffic.Steady drop turn where
  entries _ _ found other :=
    (step_turned drop traffic turn.1 turn.2).entry_stays sound found other
  files := (step_turned drop traffic turn.1 turn.2).sameFiles sound

end Others

/-- Thread 1 closes what it opened, while thread 2 has yet to read it. -/
def closeWhileReading : List (Nat × Move Nat Unit) :=
  [(1, .open (fun vfs => (some (.ok (.read ())), vfs)) ['f'] false),
    (1, .fetch (some 3)), (1, .register), (2, .lookUp 3), (1, .remove 3),
    (1, .dropFile), (2, .lock), (1, .closeOriginal),
    (2, .operate fun stream vfs => (stream, vfs + 1)), (2, .unlock),
    (2, .release)]

end Hookfs.Unix
