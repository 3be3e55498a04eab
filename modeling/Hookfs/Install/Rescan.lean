import Mathlib.Data.Finset.Card
import Hookfs.Lib.Runs
import Hookfs.Path.Posix

/-!
# What rescans keep count of

An installation records the base of every module it has tried to hook, and
one guard for every module it did hook.  Modules come and go between rescans,
and a base may be used again, so the recorded bases and the modules that are
hooked can part.

Whether `plthook::install` succeeds on a module is decided by the step.
-/

namespace Hookfs.Install

open Hookfs.Lib Hookfs.Posix

/-- A module while it is loaded; `load` tells apart two modules that were
loaded at one base after another. -/
structure LoadedModule where
  base : Nat
  size : Nat
  load : Nat
  name : Text
  path : Text
  deriving DecidableEq, Repr

/-- The modules loaded at one moment, each at its own base. -/
structure ModuleSet where
  modules : List LoadedModule
  apart : (modules.map (·.base)).Nodup

namespace ModuleSet

/-- `Module::from_address`. -/
def fromAddress (loaded : ModuleSet) (address : Nat) : Option LoadedModule :=
  loaded.modules.find? fun module =>
    module.base ≤ address && address < module.base + module.size

/-- Two loaded modules at one base are one. -/
theorem eq_of_base_eq (loaded : ModuleSet) {left right : LoadedModule}
    (leftMember : left ∈ loaded.modules) (rightMember : right ∈ loaded.modules)
    (same : left.base = right.base) : left = right :=
  List.inj_on_of_nodup_map loaded.apart leftMember rightMember same

end ModuleSet

inductive Scope where
  | module (address : Nat)
  | allModules
  | only (names : List Text)
  | exclude (names : List Text)
  deriving DecidableEq, Repr

def nameEq (actual wanted : Text) : Bool :=
  Text.eqIgnoreAsciiCase (Text.utf8 actual) (Text.utf8 wanted)

def moduleDirKey (module : LoadedModule) : Text :=
  normalizeKeyStr ((parent module.path).getD module.path)

/-- `resolve_modules`, when the modules can be enumerated. -/
def resolveModules (scope : Scope) (loaded : ModuleSet) :
    Option (List LoadedModule) :=
  match scope with
  | .module address => (loaded.fromAddress address).map ([·])
  | .allModules => some loaded.modules
  | .only names => some (loaded.modules.filter fun module =>
      names.any (nameEq module.name))
  | .exclude names => some (loaded.modules.filter fun module =>
      !names.any (nameEq module.name))

def anchorDir (scope : Scope) (loaded : ModuleSet) : Option Text :=
  match scope with
  | .module address => (loaded.fromAddress address).map moduleDirKey
  | _ => none

/-- The part of `Installer` that rescans use: a guard is known by the module
it was installed in. -/
structure Bookkeeping where
  scope : Scope
  sdkDir : Option Text
  guards : List LoadedModule
  hookedBases : Finset Nat

namespace Bookkeeping

/-- The loop of `install_with_namespace` over the modules: the first failure
undoes the installation. -/
def installLoop (succeeds : LoadedModule → Bool) :
    List LoadedModule → Bookkeeping → Option Bookkeeping
  | [], books => some books
  | module :: rest, books =>
      if succeeds module then
        installLoop succeeds rest
          { books with
            guards := books.guards ++ [module]
            hookedBases := insert module.base books.hookedBases }
      else none

/-- `install_with_namespace`, as far as the books go. -/
def install (scope : Scope) (loaded : ModuleSet)
    (succeeds : LoadedModule → Bool) : Option Bookkeeping :=
  match resolveModules scope loaded with
  | none => none
  | some modules =>
      if modules.isEmpty then none
      else installLoop succeeds modules
        ⟨scope, anchorDir scope loaded, [], ∅⟩

def shouldRescanHook (books : Bookkeeping) (module : LoadedModule) : Bool :=
  match books.scope with
  | .module _ => books.sdkDir.any fun dir => moduleDirKey module = dir
  | .allModules => true
  | .only names => names.any (nameEq module.name)
  | .exclude names => !names.any (nameEq module.name)

/-- The loop of `Installer::rescan`, with the number of newly hooked
modules. -/
def rescanLoop (succeeds : LoadedModule → Bool) :
    List LoadedModule → Bookkeeping → Nat × Bookkeeping
  | [], books => (0, books)
  | module :: rest, books =>
      if books.shouldRescanHook module then
        if module.base ∈ books.hookedBases then
          rescanLoop succeeds rest books
        else
          let recorded := { books with
            hookedBases := insert module.base books.hookedBases }
          if succeeds module then
            let (count, last) := rescanLoop succeeds rest
              { recorded with guards := books.guards ++ [module] }
            (count + 1, last)
          else rescanLoop succeeds rest recorded
      else rescanLoop succeeds rest books

def hookedModuleCount (books : Bookkeeping) : Nat :=
  books.hookedBases.card

end Bookkeeping

/-- One rescan: the modules that are loaded by then, whether they can be
enumerated, and how `plthook::install` would fare on each. -/
structure Rescan where
  loaded : ModuleSet
  enumerates : Bool
  succeeds : LoadedModule → Bool

namespace Bookkeeping

/-- `Installer::rescan`. -/
def rescan (books : Bookkeeping) (op : Rescan) : Option Nat × Bookkeeping :=
  if op.enumerates then
    let (count, next) := rescanLoop op.succeeds op.loaded.modules books
    (some count, next)
  else (none, books)

def step (books : Bookkeeping) (op : Rescan) : Bookkeeping :=
  (books.rescan op).2

/-- The count is that of the loaded modules with a guard. -/
def Counts (books : Bookkeeping) (loaded : ModuleSet) : Prop :=
  books.hookedModuleCount =
    (loaded.modules.filter fun module => module ∈ books.guards).length

/-- After the rescan the count is true, and if it returned `Ok`, every loaded
module in scope that can be hooked is. -/
def Truthful (books : Bookkeeping) (op : Rescan) : Prop :=
  (books.step op).Counts op.loaded ∧
    ((books.rescan op).1.isSome →
      ∀ module ∈ op.loaded.modules, books.shouldRescanHook module →
        op.succeeds module → module ∈ (books.step op).guards)

/-- No hooked module has been unloaded, and no install that the rescan
attempts fails. -/
def Undisturbed (books : Bookkeeping) (op : Rescan) : Prop :=
  (∀ module ∈ books.guards, module ∈ op.loaded.modules) ∧
    (op.enumerates →
      ∀ module ∈ op.loaded.modules, books.shouldRescanHook module →
        module.base ∉ books.hookedBases → op.succeeds module)

/-! ## What the loops leave -/

variable {books : Bookkeeping}

/-- The modules a rescan tries to hook. -/
def fresh (books : Bookkeeping) (modules : List LoadedModule) :
    List LoadedModule :=
  modules.filter fun module =>
    books.shouldRescanHook module && module.base ∉ books.hookedBases

theorem installLoop_books (succeeds : LoadedModule → Bool) :
    ∀ (modules : List LoadedModule) {books next : Bookkeeping},
      installLoop succeeds modules books = some next →
        next.guards = books.guards ++ modules ∧
          next.hookedBases = books.hookedBases ∪
            (modules.map (·.base)).toFinset
  | [], books, next, done => by
      injection done with same
      subst same
      simp
  | module :: rest, books, next, done => by
      unfold installLoop at done
      split at done
      · obtain ⟨guards, bases⟩ := installLoop_books succeeds rest done
        refine ⟨?_, ?_⟩
        · rw [guards, List.append_assoc]
          rfl
        · rw [bases, List.map_cons, List.toFinset_cons,
            Finset.insert_union, Finset.union_insert]
      · cases done

theorem fresh_recorded {module : LoadedModule} {rest : List LoadedModule}
    {guards : List LoadedModule}
    (apart : module.base ∉ rest.map (·.base)) :
    fresh { books with
      guards := guards
      hookedBases := insert module.base books.hookedBases } rest =
      fresh books rest := by
  unfold fresh
  apply List.filter_congr
  intro other member
  have different : other.base ≠ module.base := by
    intro same
    apply apart
    rw [← same]
    exact List.mem_map_of_mem member
  simp [shouldRescanHook, different]

theorem rescanLoop_books (succeeds : LoadedModule → Bool) :
    ∀ (modules : List LoadedModule) (books : Bookkeeping),
      (modules.map (·.base)).Nodup →
        (rescanLoop succeeds modules books).2 =
          { books with
            guards := books.guards ++ (fresh books modules).filter succeeds
            hookedBases := books.hookedBases ∪
              ((fresh books modules).map (·.base)).toFinset }
  | [], books, _ => by
      simp [rescanLoop, fresh]
  | module :: rest, books, distinct => by
      rw [List.map_cons, List.nodup_cons] at distinct
      obtain ⟨apart, later⟩ := distinct
      unfold rescanLoop
      by_cases covered : books.shouldRescanHook module
      · by_cases known : module.base ∈ books.hookedBases
        · have skipped : fresh books (module :: rest) = fresh books rest := by
            unfold fresh
            rw [List.filter_cons_of_neg (by simp [known])]
          rw [if_pos covered, if_pos known, skipped]
          exact rescanLoop_books succeeds rest books later
        · have tried : fresh books (module :: rest) =
              module :: fresh books rest := by
            unfold fresh
            rw [List.filter_cons_of_pos (by simp [covered, known])]
          rw [if_pos covered, if_neg known, tried]
          by_cases passes : succeeds module
          · simp only [if_pos passes]
            rw [rescanLoop_books succeeds rest _ later,
              fresh_recorded apart, List.filter_cons_of_pos passes]
            simp [List.append_assoc]
          · simp only [if_neg passes]
            rw [rescanLoop_books succeeds rest _ later,
              fresh_recorded apart, List.filter_cons_of_neg passes]
            simp
      · have skipped : fresh books (module :: rest) = fresh books rest := by
          unfold fresh
          rw [List.filter_cons_of_neg (by simp [covered])]
        rw [if_neg covered, skipped]
        exact rescanLoop_books succeeds rest books later

/-! ## Counting -/

/-- The recorded bases are those of the hooked modules, one each. -/
structure Faithful (books : Bookkeeping) : Prop where
  bases : books.hookedBases = (books.guards.map (·.base)).toFinset
  distinct : (books.guards.map (·.base)).Nodup

/-- The loaded modules among distinct guards are all of them exactly when no
guard's module is missing. -/
theorem length_loaded_filter (loaded : ModuleSet)
    {guards : List LoadedModule} (distinct : guards.Nodup) :
    (loaded.modules.filter fun module => module ∈ guards).length ≤
        guards.length ∧
      ((loaded.modules.filter fun module => module ∈ guards).length =
          guards.length ↔
        ∀ module ∈ guards, module ∈ loaded.modules) := by
  have once : loaded.modules.Nodup := List.Nodup.of_map _ loaded.apart
  have within : (loaded.modules.filter fun module =>
      module ∈ guards).Subperm guards := by
    apply (once.filter _).subperm
    intro module member
    simpa using (List.mem_filter.mp member).2
  refine ⟨within.length_le, ?_⟩
  constructor
  · intro full module member
    have found := (within.perm_of_length_le (by omega)).mem_iff.mpr member
    exact (List.mem_filter.mp found).1
  · intro all
    apply Nat.le_antisymm within.length_le
    apply (distinct.subperm _).length_le
    intro module member
    rw [List.mem_filter]
    exact ⟨all module member, by simpa using member⟩

theorem mem_fresh {modules : List LoadedModule} {module : LoadedModule} :
    module ∈ books.fresh modules ↔
      module ∈ modules ∧ books.shouldRescanHook module = true ∧
        module.base ∉ books.hookedBases := by
  unfold fresh
  rw [List.mem_filter]
  simp

/-- The bases of the hooked modules and of those to be tried are apart. -/
theorem Faithful.nodup_append_fresh (faithful : books.Faithful)
    (loaded : ModuleSet) :
    ((books.guards ++ books.fresh loaded.modules).map (·.base)).Nodup := by
  rw [List.map_append, List.nodup_append]
  refine ⟨faithful.distinct, ?_, ?_⟩
  · exact List.Nodup.sublist (List.Sublist.map _ List.filter_sublist)
      loaded.apart
  · intro old oldMember new newMember same
    obtain ⟨module, member, rfl⟩ := List.mem_map.mp newMember
    apply (mem_fresh.mp member).2.2
    rw [faithful.bases, List.mem_toFinset, ← same]
    exact oldMember

theorem Faithful.card_union_fresh (faithful : books.Faithful)
    (loaded : ModuleSet) :
    (books.hookedBases ∪
      ((books.fresh loaded.modules).map (·.base)).toFinset).card =
        books.guards.length + (books.fresh loaded.modules).length := by
  have distinct := faithful.nodup_append_fresh loaded
  rw [faithful.bases, ← List.toFinset_append, ← List.map_append,
    List.toFinset_card_of_nodup distinct, List.length_map,
    List.length_append]

theorem Faithful.step_books (op : Rescan) (enumerates : op.enumerates = true) :
    books.step op =
      { books with
        guards := books.guards ++
          (books.fresh op.loaded.modules).filter op.succeeds
        hookedBases := books.hookedBases ∪
          ((books.fresh op.loaded.modules).map (·.base)).toFinset } := by
  unfold step rescan
  rw [if_pos enumerates]
  exact rescanLoop_books op.succeeds op.loaded.modules books op.loaded.apart

/-- After a rescan the count is true exactly when no hooked module is gone
and no attempt failed. -/
theorem Faithful.counts_iff (faithful : books.Faithful) (op : Rescan) :
    (books.step op).Counts op.loaded ↔ books.Undisturbed op := by
  by_cases enumerates : op.enumerates = true
  · have apart := List.Nodup.of_map _ (faithful.nodup_append_fresh op.loaded)
    have distinct : (books.guards ++
        (books.fresh op.loaded.modules).filter op.succeeds).Nodup :=
      apart.sublist (List.Sublist.append_left List.filter_sublist _)
    obtain ⟨atMost, full⟩ := length_loaded_filter op.loaded distinct
    have fewer := List.length_filter_le op.succeeds
      (books.fresh op.loaded.modules)
    have allPass := List.length_filter_eq_length_iff
      (p := op.succeeds) (l := books.fresh op.loaded.modules)
    have here : ∀ module ∈ (books.fresh op.loaded.modules).filter op.succeeds,
        module ∈ op.loaded.modules := by
      intro module member
      exact (mem_fresh.mp (List.mem_filter.mp member).1).1
    rw [List.length_append] at atMost full
    unfold Counts hookedModuleCount Undisturbed
    rw [Faithful.step_books op enumerates]
    simp only
    rw [faithful.card_union_fresh op.loaded]
    constructor
    · intro same
      have everyone := full.mp (by omega)
      have passed := allPass.mp (by omega)
      refine ⟨?_, ?_⟩
      · intro module member
        exact everyone module (List.mem_append_left _ member)
      · intro _ module member covered unknown
        exact passed module (mem_fresh.mpr ⟨member, covered, unknown⟩)
    · rintro ⟨stays, passes⟩
      have everyone := full.mpr (by
        intro module member
        rcases List.mem_append.mp member with old | new
        · exact stays module old
        · exact here module new)
      have passed := allPass.mpr (by
        intro module member
        obtain ⟨inside, covered, unknown⟩ := mem_fresh.mp member
        exact passes enumerates module inside covered unknown)
      omega
  · have kept : books.step op = books := by
      unfold step rescan
      rw [if_neg enumerates]
    obtain ⟨-, full⟩ := length_loaded_filter op.loaded
      (List.Nodup.of_map _ faithful.distinct)
    have count : books.hookedModuleCount = books.guards.length := by
      unfold hookedModuleCount
      rw [faithful.bases, List.toFinset_card_of_nodup faithful.distinct,
        List.length_map]
    unfold Counts Undisturbed
    rw [kept, count, eq_comm, full]
    constructor
    · intro stays
      exact ⟨stays, fun enumerated => absurd enumerated enumerates⟩
    · exact And.left

theorem Faithful.step {op : Rescan} (faithful : books.Faithful)
    (calm : books.Undisturbed op) : (books.step op).Faithful := by
  by_cases enumerates : op.enumerates = true
  · have everything : (books.fresh op.loaded.modules).filter op.succeeds =
        books.fresh op.loaded.modules := by
      rw [List.filter_eq_self]
      intro module member
      obtain ⟨inside, covered, unknown⟩ := mem_fresh.mp member
      exact calm.2 enumerates module inside covered unknown
    rw [Faithful.step_books op enumerates, everything]
    refine ⟨?_, faithful.nodup_append_fresh op.loaded⟩
    simp only
    rw [faithful.bases, List.map_append, List.toFinset_append]
  · unfold Bookkeeping.step rescan
    rw [if_neg enumerates]
    exact faithful

/-- A module at a recorded base is the hooked one, as long as that one is
still there. -/
theorem Faithful.covers {op : Rescan} (faithful : books.Faithful)
    (calm : books.Undisturbed op) (enumerates : op.enumerates = true)
    {module : LoadedModule} (inside : module ∈ op.loaded.modules)
    (covered : books.shouldRescanHook module = true)
    (passes : op.succeeds module = true) :
    module ∈ (books.step op).guards := by
  rw [Faithful.step_books op enumerates]
  simp only
  rw [List.mem_append, List.mem_filter]
  by_cases known : module.base ∈ books.hookedBases
  · rw [faithful.bases, List.mem_toFinset, List.mem_map] at known
    obtain ⟨hooked, member, same⟩ := known
    have one := op.loaded.eq_of_base_eq (calm.1 hooked member) inside same
    rw [← one]
    exact Or.inl member
  · exact Or.inr ⟨mem_fresh.mpr ⟨inside, covered, known⟩, passes⟩

theorem Faithful.truthful_iff (faithful : books.Faithful) (op : Rescan) :
    books.Truthful op ↔ books.Undisturbed op := by
  unfold Truthful
  rw [faithful.counts_iff op]
  constructor
  · exact And.left
  · intro calm
    refine ⟨calm, ?_⟩
    intro returned module inside covered passes
    have enumerates : op.enumerates = true := by
      by_contra failed
      unfold rescan at returned
      rw [if_neg failed] at returned
      cases returned
    exact faithful.covers calm enumerates inside covered passes

/-! ## One install and its rescans -/

theorem resolveModules_sublist {scope : Scope} {loaded : ModuleSet}
    {modules : List LoadedModule}
    (resolved : resolveModules scope loaded = some modules) :
    modules.Sublist loaded.modules := by
  unfold resolveModules at resolved
  split at resolved
  · obtain ⟨module, found, rfl⟩ := Option.map_eq_some_iff.mp resolved
    exact List.singleton_sublist.mpr (List.mem_of_find?_eq_some found)
  · injection resolved with same
    rw [← same]
  · injection resolved with same
    rw [← same]
    exact List.filter_sublist
  · injection resolved with same
    rw [← same]
    exact List.filter_sublist

/-- A successful install hooks the modules it resolved, all of them
loaded. -/
theorem install_books {scope : Scope} {loaded : ModuleSet}
    {succeeds : LoadedModule → Bool}
    (installed : install scope loaded succeeds = some books) :
    books.Faithful ∧ ∀ module ∈ books.guards, module ∈ loaded.modules := by
  unfold install at installed
  split at installed
  · cases installed
  · rename_i modules resolved
    split at installed
    · cases installed
    · obtain ⟨guards, bases⟩ := installLoop_books succeeds modules installed
      have sublist := resolveModules_sublist resolved
      simp only [List.nil_append, Finset.empty_union] at guards bases
      refine ⟨⟨?_, ?_⟩, ?_⟩
      · rw [bases, guards]
      · rw [guards]
        exact loaded.apart.sublist (sublist.map _)
      · intro module member
        rw [guards] at member
        exact sublist.subset member

/-- After an install the count is true, and it stays true, with every
hookable module in scope hooked, exactly as long as no hooked module is
unloaded and no rescan attempts an install that fails. -/
theorem rescans_truthful_iff (scope : Scope) (loaded : ModuleSet)
    (succeeds : LoadedModule → Bool) (books : Bookkeeping)
    (installed : install scope loaded succeeds = some books)
    (ops : List Rescan) :
    books.Counts loaded ∧
      (EachStep step Truthful books ops ↔
        EachStep step Undisturbed books ops) := by
  obtain ⟨faithful, inside⟩ := install_books installed
  refine ⟨?_, ?_⟩
  · obtain ⟨-, full⟩ := length_loaded_filter loaded
      (List.Nodup.of_map _ faithful.distinct)
    unfold Counts hookedModuleCount
    rw [full.mpr inside, faithful.bases,
      List.toFinset_card_of_nodup faithful.distinct, List.length_map]
  · exact eachStep_iff Faithful (fun _ _ before calm => before.step calm)
      (fun _ op before => before.truthful_iff op) ops books faithful

/-- A host module, and plugins that are loaded after the installation. -/
def hostModule : LoadedModule := ⟨4096, 4096, 0, ['h'], ['/', 'h']⟩

def latePlugin : LoadedModule := ⟨8192, 4096, 1, ['p'], ['/', 'p']⟩

def reusedBase : LoadedModule := ⟨4096, 4096, 2, ['q'], ['/', 'q']⟩

/-- The books of an installation in the host module alone. -/
def hostBooks : Bookkeeping := ⟨.allModules, none, [hostModule], {4096}⟩

/-- A rescan on a module that cannot be hooked counts it; a module at the
base of one that was unloaded is never hooked. -/
theorem rescan_miscounts :
    install .allModules ⟨[hostModule], by decide⟩ (fun _ => true) =
        some hostBooks ∧
      ¬ EachStep step Truthful hostBooks
        [⟨⟨[hostModule, latePlugin], by decide⟩, true, fun _ => false⟩] ∧
      ¬ EachStep step Truthful hostBooks
        [⟨⟨[reusedBase], by decide⟩, true, fun _ => true⟩] := by
  refine ⟨rfl, ?_, ?_⟩
  · rintro ⟨⟨counts, -⟩, -⟩
    exact absurd counts (by unfold Counts; decide)
  · rintro ⟨⟨-, hooked⟩, -⟩
    have missing := hooked rfl reusedBase (by decide) rfl rfl
    exact absurd missing (by decide)

theorem rescans_truthful_iff_plugin :
    EachStep step Truthful hostBooks
      [⟨⟨[hostModule, latePlugin], by decide⟩, true, fun _ => true⟩] := by
  refine ((rescans_truthful_iff .allModules ⟨[hostModule], by decide⟩
    (fun _ => true) hostBooks rfl _).2).mpr ⟨⟨?_, ?_⟩, trivial⟩
  · decide
  · intro _ _ _ _ _
    rfl

end Bookkeeping

end Hookfs.Install
