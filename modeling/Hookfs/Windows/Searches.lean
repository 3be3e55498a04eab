import Hookfs.Lib.Enumeration
import Hookfs.Windows.Sessions

/-!
# Searches

`FindFirstFile` takes a snapshot of what matches, and every `FindNextFileW`
on its handle hands out the next match of that snapshot, whatever the
process does in between.
-/

namespace Hookfs.Windows

open Hookfs.Lib Hookfs.Vfs
open Hookfs.Router (Route Namespace)

variable {Ambient State Stream : Type}

/-- The two calls that begin a search, with their data pointer. -/
def PathCall.search : PathCall → Option Nat
  | .findFirstFileExW _ _ data _ _ _ => some data
  | .findFirstFileW _ data => some data
  | _ => none

namespace FindState

def enumeration (find : FindState) : Enumeration DirEntry :=
  ⟨find.entries, find.next⟩

end FindState

namespace Registry

def searchAt (key : Nat) (registry : Registry Stream) :
    Option (Enumeration DirEntry) :=
  (registry.finds.lookup key).map FindState.enumeration

theorem searchAt_putFind {key other : Nat} (find : FindState)
    (registry : Registry Stream) (different : other ≠ key) :
    (registry.putFind other find).searchAt key = registry.searchAt key := by
  unfold searchAt putFind
  rw [AList.lookup_insert_ne (fun same => different same.symm)]

theorem searchAt_putFind_self (key : Nat) (find : FindState)
    (registry : Registry Stream) :
    (registry.putFind key find).searchAt key = some find.enumeration := by
  unfold searchAt putFind
  rw [AList.lookup_insert, Option.map_some]

theorem searchAt_removeFind {key other : Nat} (registry : Registry Stream)
    (different : other ≠ key) :
    (registry.removeFind other).searchAt key = registry.searchAt key := by
  unfold searchAt removeFind
  rw [AList.lookup_erase_ne (fun same => different same.symm)]

end Registry

/-- The search behind a handle, in a process with an active engine and
outside of a hook. -/
def Process.searchAt (key : Nat) (process : Process State Stream) :
    Option (Enumeration DirEntry) :=
  if process.inHook then none
  else process.engine.bind fun engine => engine.registry.searchAt key

/-- The event asks for the next match of this search. -/
def asksNext (key : Nat) : Event Ambient State Stream → Bool
  | .handle _ (.findNextFileW handle _) => handleKey handle == key
  | _ => false

/-- KERNEL32 does not hand out the handle again, and nobody closes it. -/
def SparesSearch (key : Nat) : Event Ambient State Stream → Prop
  | .path machine _ => handleKey (machine.os .carrierFind).ret ≠ key
  | .handle _ (.findClose handle) => handleKey handle ≠ key
  | .handle _ _ => True

/-- The reply to a `FindNextFileW` that is to report this match. -/
def nextReply (data : Nat) : Option DirEntry → HandleReply
  | some entry =>
      ⟨1, some WinError.SUCCESS, through data (.find (fillFindData entry))⟩
  | none => ⟨0, some WinError.NO_MORE_FILES, []⟩

/-- What an event that asks is told. -/
def nextAnswer (event : Event Ambient State Stream)
    (found : Option DirEntry) : Answer :=
  match event with
  | .handle _ (.findNextFileW _ data) => .handle (nextReply data found)
  | _ => .handle ⟨0, none, []⟩

section Steps

variable {process : Process State Stream} {engine : Engine Stream}
  {key : Nat}

theorem searchAt_of_active (outside : process.inHook = false)
    (active : process.engine = some engine) :
    process.searchAt key = engine.registry.searchAt key := by
  unfold Process.searchAt
  rw [outside, active]
  rfl

theorem searchAt_withEngine (outside : process.inHook = false) :
    (process.withEngine engine).searchAt key = engine.registry.searchAt key :=
  searchAt_of_active outside rfl

/-- A search is only there outside of a hook and behind an engine. -/
theorem exists_of_searchAt {found : Enumeration DirEntry}
    (here : process.searchAt key = some found) :
    process.inHook = false ∧ ∃ engine, process.engine = some engine ∧
      engine.registry.searchAt key = some found := by
  unfold Process.searchAt at here
  split at here
  · cases here
  · next outside =>
    obtain ⟨engine, active, hit⟩ := Option.bind_eq_some_iff.mp here
    exact ⟨Bool.eq_false_iff.mpr outside, engine, active, hit⟩

theorem searchAt_follows {effect : Registry Stream → Prop}
    {next : Process State Stream} {found : Enumeration DirEntry}
    (outside : process.inHook = false)
    (follows : Follows effect engine process next)
    (kept : ∀ registry, effect registry →
      registry.searchAt key = some found) :
    next.searchAt key = some found := by
  obtain ⟨registry, allowed, active⟩ := follows.active
  rw [searchAt_of_active (by rw [follows.outside, outside]) active]
  exact kept registry allowed

theorem searchAt_pathEffect {machine : Machine Ambient State Stream}
    {registry next : Registry Stream} {calls : List KernelCall}
    (effect : PathEffect machine registry calls next)
    (fresh : handleKey (machine.os .carrierFind).ret ≠ key) :
    next.searchAt key = registry.searchAt key := by
  cases effect with
  | searched find valid =>
      exact Registry.searchAt_putFind find registry fresh
  | _ => rfl

theorem searchAt_handleEffect {system : System Ambient State Stream}
    {call : HandleCall} {registry next : Registry Stream}
    (effect : HandleEffect registry call next)
    (spares : SparesSearch key (.handle system call))
    (other : asksNext key (.handle system call) = false) :
    next.searchAt key = registry.searchAt key := by
  cases effect with
  | unchanged =>
      rfl
  | moved stream about hit =>
      rfl
  | closed hit =>
      rfl
  | found hit =>
      exact Registry.searchAt_putFind _ registry (beq_eq_false_iff_ne.mp other)
  | ended hit =>
      exact Registry.searchAt_removeFind registry spares

/-- The call of a registered search, served from its snapshot. -/
theorem findNext_served (system : System Ambient State Stream) {handle : Int}
    (data : Nat) {found : Enumeration DirEntry}
    (here : process.searchAt (handleKey handle) = some found) :
    (shimFindNextFileW system handle data process).reply =
        nextReply data found.current ∧
      (shimFindNextFileW system handle data process).process.searchAt
        (handleKey handle) = some found.advance := by
  obtain ⟨outside, engine, active, hit⟩ := exists_of_searchAt here
  obtain ⟨find, stored, rfl⟩ := Option.map_eq_some_iff.mp hit
  have served : shimFindNextFileW system handle data process =
      match find.entries[find.next]? with
      | some entry =>
          answerHandle 1 WinError.SUCCESS
            (through data (.find (fillFindData entry)))
            (process.withEngine
              { engine with
                registry := engine.registry.putFind (handleKey handle)
                  { find with next := find.next + 1 } })
      | none => failHandle WinError.NO_MORE_FILES process := by
    simp only [shimFindNextFileW, withFind, withEngine, outside, active,
      stored]
    rfl
  rw [served]
  cases current : find.enumeration.current with
  | some entry =>
      have at_next : find.entries[find.next]? = some entry := current
      rw [at_next, Enumeration.advance_of_current current]
      refine ⟨rfl, ?_⟩
      exact (searchAt_withEngine outside).trans
        (Registry.searchAt_putFind_self _ _ _)
  | none =>
      have at_end : find.entries[find.next]? = none := current
      rw [at_end, Enumeration.advance_of_none current]
      exact ⟨rfl, here⟩

/-- The search behind a handle is an enumeration of its snapshot. -/
theorem enumerates_search (key : Nat) :
    Enumerates (Process.step : Process State Stream →
          Event Ambient State Stream → Answer × Process State Stream)
        (Process.searchAt key) (asksNext key)
      (SparesSearch key) fun event found _ => nextAnswer event found where
  asked process event found here _ asking := by
    cases event with
    | path machine call =>
        cases asking
    | handle system call =>
        cases call with
        | findNextFileW handle data =>
            have about : handleKey handle = key := beq_iff_eq.mp asking
            subst about
            have served := findNext_served system data here
            exact ⟨congrArg Answer.handle served.1, served.2⟩
        | _ => cases asking
  other process event found here spares other := by
    obtain ⟨outside, engine, active, hit⟩ := exists_of_searchAt here
    cases event with
    | path machine call =>
        refine searchAt_follows outside (followsCall_shim active call)
          fun registry effect => ?_
        rw [searchAt_pathEffect effect spares, hit]
    | handle system call =>
        refine searchAt_follows outside (follows_shimHandle active call)
          fun registry effect => ?_
        rw [searchAt_handleEffect effect spares other, hit]

end Steps

/-! ## From the first match to the last -/

section Search

variable {machine : Machine Ambient State Stream}
  {process : Process State Stream} {engine : Engine Stream}

/-- A search that finds something and gets its handle. -/
theorem shimPath_search {call : PathCall} {data : Nat} {pattern : Text}
    {first : DirEntry} {rest : List DirEntry}
    (outside : process.inHook = false)
    (active : process.engine = some engine)
    (begins : call.search = some data)
    (routes : routeOf engine call.path = some (.virtual pattern))
    (found : (findMatches machine pattern process.vfs).1 = first :: rest)
    (valid : isHandle (machine.os .carrierFind).ret = true) :
    (shimPath machine call process).reply =
        ⟨(machine.os .carrierFind).ret, some WinError.SUCCESS,
          if data = 0 then .nothing else .data (fillFindData first)⟩ ∧
      (shimPath machine call process).process.searchAt
          (handleKey (machine.os .carrierFind).ret) =
        some ⟨rest, 0⟩ := by
  obtain ⟨decoded, read, classified⟩ := Option.map_eq_some_iff.mp routes
  have same : shimPath machine call process =
      findFirstFile machine call data process := by
    cases call with
    | findFirstFileExW name level pointer searchOp filter flags =>
        injection begins with pointers
        subst pointers
        rfl
    | findFirstFileW name pointer =>
        injection begins with pointers
        subst pointers
        rfl
    | _ => cases begins
  have split : findMatches machine pattern process.vfs =
      (first :: rest, (findMatches machine pattern process.vfs).2) :=
    Prod.ext found rfl
  rw [same]
  simp only [findFirstFile, routed, outside, read, Process.route, active,
    Option.map_some, classified]
  rw [split]
  simp only [valid]
  refine ⟨rfl, ?_⟩
  exact (searchAt_withEngine outside).trans
    (Registry.searchAt_putFind_self _ ⟨rest, 0⟩ engine.registry)

/-- A search reports every match of its snapshot once and in order: the
first one with the handle, the later ones to the calls that ask for them,
and after the last one that there are no more. -/
theorem search_reports_every_match
    (machine : Machine Ambient State Stream) (process : Process State Stream)
    {engine : Engine Stream} {call : PathCall} {data : Nat} (pattern : Text)
    (first : DirEntry) (rest : List DirEntry)
    (outside : process.inHook = false)
    (active : process.engine = some engine)
    (begins : call.search = some data)
    (routes : routeOf engine call.path = some (.virtual pattern))
    (found : (findMatches machine pattern process.vfs).1 = first :: rest)
    (valid : isHandle (machine.os .carrierFind).ret = true)
    (events : List (Event Ambient State Stream))
    (spared : ∀ event ∈ events,
      SparesSearch (handleKey (machine.os .carrierFind).ret) event) :
    (process.step (.path machine (.path call))).1 =
        .path ⟨(machine.os .carrierFind).ret, some WinError.SUCCESS,
          if data = 0 then .nothing else .data (fillFindData first)⟩ ∧
      heard Process.step
          (asksNext (handleKey (machine.os .carrierFind).ret))
          (process.step (.path machine (.path call))).2 events =
        (events.filter
          (asksNext (handleKey (machine.os .carrierFind).ret))).mapIdx
            fun index event => nextAnswer event rest[index]? := by
  obtain ⟨reply, stored⟩ := shimPath_search outside active begins routes
    found valid
  refine ⟨congrArg Answer.path reply, ?_⟩
  have told := (enumerates_search _).heard_eq (fun _ _ _ => rfl) events _ _
    stored spared
  simp only [Enumeration.told, Nat.zero_add] at told
  exact told

end Search

/-- A machine over a provider that lists two files in every directory. -/
def listedMachine :
    Machine Memory.Ambient Memory.MemoryFs Memory.MemoryFs.Stream :=
  { idleMachine with
    provider :=
      { Memory.MemoryFs.provider with
        readDir := fun _ _ fs =>
          (some (.ok [⟨['a'], Metadata.dir⟩, ⟨['b'], Metadata.dir⟩]), fs) } }

/-- The originals of the handle calls, all of them failing. -/
def listedSystem :
    System Memory.Ambient Memory.MemoryFs Memory.MemoryFs.Stream :=
  { listedMachine with
    original := fun _ => ⟨0, none, []⟩
    hasher := List.length }

/-- `FindFirstFileW("C:\v\*")`, then two requests with a deletion in
between. -/
theorem search_reports_every_match_two :
    heard Process.step (asksNext 7)
        (idleProcess.step (.path listedMachine
          (.path (.findFirstFileW (some [67, 58, 92, 118, 92, 42]) 1)))).2
        [.handle listedSystem (.findNextFileW 7 1),
          .path { listedMachine with os := fun _ => ⟨9, none, .nothing⟩ }
            (.path (.deleteFileW (some [67, 58, 92, 118, 92, 98]))),
          .handle listedSystem (.findNextFileW 7 1)] =
      [.handle ⟨1, some 0, [(1, .find ⟨0x10, 0, 0, [98]⟩)]⟩,
        .handle ⟨0, some 18, []⟩] := by
  refine (search_reports_every_match listedMachine idleProcess
    "C:\\v\\*".toList ⟨['a'], Metadata.dir⟩ [⟨['b'], Metadata.dir⟩]
    rfl rfl rfl (by decide) (by decide) (by decide) _ ?_).2
  intro event member
  simp only [List.mem_cons, List.not_mem_nil, or_false] at member
  rcases member with rfl | rfl | rfl
  · trivial
  · change handleKey 9 ≠ 7
    decide
  · trivial

end Hookfs.Windows
