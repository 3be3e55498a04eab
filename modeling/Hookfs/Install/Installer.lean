import Hookfs.Plthook.Interleaving

/-!
# Installations and their lifetimes

The process-wide state of `dispatch` and the installers of `install`: which
installation is active, the rescan callback, and for every installation the
guards it has collected.  A triggered rescan clones the callback and with it
an `Arc` of its installer, so an installer can outlive its `InstallGuard`.

Every step below may interleave with the steps of other threads.  A step that
is not enabled changes nothing.
-/

namespace Hookfs.Install

open Hookfs.Lib Hookfs.Plthook

/-- The candidate hooks of a platform: `dispatch::ALL` by name, which of them
are loader shims, the library filter, and `shim_address`. -/
structure Hooks where
  all : List Text
  isLoader : Text → Bool
  library : Option (List UInt8)
  shimAddress : Text → Nat

/-- `build_replacements`: the loader shims only with `auto_rescan`. -/
def Hooks.buildReplacements (hooks : Hooks) (autoRescan : Bool) :
    List Replacement :=
  (hooks.all.filter fun name => autoRescan || !hooks.isLoader name).map
    fun name =>
      { library := hooks.library
        symbol := .name name
        replacement := hooks.shimAddress name
        required := false }

/-- Where the thread that installs, or that drops the guard, has got to. -/
inductive Stage where
  /-- Between `try_activate` and the end of the loop over the modules. -/
  | installing
  /-- The loop is done and `set_rescan` comes next. -/
  | publishing
  /-- `install` has returned `Ok`; the guard is live. -/
  | installed
  /-- A module failed, `uninstall_all` comes next. -/
  | aborting
  /-- The guard is being dropped, `clear_rescan` has run. -/
  | dropping
  /-- `uninstall_all` has run, `deactivate` comes next. -/
  | uninstalled
  /-- `deactivate` has run and the guard's `Arc` is gone. -/
  | released
  /-- The last `Arc` is gone. -/
  | freed
  deriving DecidableEq, Repr

/-- `Installer`.  The scope is left to the steps, which may offer any
module. -/
structure Installer where
  autoRescan : Bool
  guards : List HookGuard
  hookedBases : List Nat
  stage : Stage

/-- The machine, `ACTIVE`, `RESCAN`, every installer by its number, and the
owners of the rescans that are running. -/
structure State where
  machine : Machine
  active : Option Nat
  callback : Option Nat
  installers : List Installer
  running : List Nat

inductive Step where
  | tryActivate (autoRescan : Bool)
  | installModule (id : Nat) (module : Module)
  | finishModules (id : Nat)
  | setRescan (id : Nat)
  | triggerRescan
  | rescanModule (id : Nat) (module : Module)
  | endRescan (id : Nat)
  | clearRescan (id : Nat)
  | uninstallAll (id : Nat)
  | deactivate (id : Nat)
  | dropLast (id : Nat)

/-- `HookGuard::uninstall`, with the `Drop` of the consumed guard. -/
def uninstallGuard (sys : Sys) (machine : Machine) (guard : HookGuard) :
    Machine :=
  let (_, spent, next) := guard.restore sys machine
  (spent.restore sys next).2.2

def dropGuard (sys : Sys) (machine : Machine) (guard : HookGuard) :
    Machine :=
  (guard.restore sys machine).2.2

namespace State

def put (state : State) (id : Nat) (installer : Installer) : State :=
  { state with installers := state.installers.set id installer }

/-- Move an installer to another stage if it is at the expected one. -/
def advance (state : State) (id : Nat) (expected next : Stage) : State :=
  match state.installers[id]? with
  | none => state
  | some installer =>
      if installer.stage = expected then
        state.put id { installer with stage := next }
      else state

/-- `try_activate`: refused while another installation is active. -/
def tryActivate (state : State) (autoRescan : Bool) : State :=
  match state.active with
  | some _ => state
  | none =>
      { state with
        active := some state.installers.length
        installers := state.installers ++ [⟨autoRescan, [], [], .installing⟩] }

/-- One module of the loop of `install_with_namespace`. -/
def installModule (sys : Sys) (hooks : Hooks) (state : State) (id : Nat)
    (module : Module) : State :=
  match state.installers[id]? with
  | none => state
  | some installer =>
      if installer.stage = .installing then
        match install sys module
            (hooks.buildReplacements installer.autoRescan)
            state.machine with
        | (.ok guard, machine) =>
            { state with machine := machine }.put id
              { installer with
                guards := installer.guards ++ [guard]
                hookedBases := module.base :: installer.hookedBases }
        | (.error _, machine) =>
            { state with machine := machine }.put id
              { installer with stage := .aborting }
      else state

/-- One module of `Installer::rescan`, for a running rescan or one the live
guard was asked for. -/
def rescanModule (sys : Sys) (hooks : Hooks) (state : State) (id : Nat)
    (module : Module) : State :=
  match state.installers[id]? with
  | none => state
  | some installer =>
      if id ∈ state.running ∨ installer.stage = .installed then
        if module.base ∈ installer.hookedBases then state
        else
          match install sys module
              (hooks.buildReplacements installer.autoRescan)
              state.machine with
          | (.ok guard, machine) =>
              { state with machine := machine }.put id
                { installer with
                  guards := installer.guards ++ [guard]
                  hookedBases := module.base :: installer.hookedBases }
          | (.error _, machine) =>
              { state with machine := machine }.put id
                { installer with
                  hookedBases := module.base :: installer.hookedBases }
      else state

/-- `Installer::uninstall_all`: from the failed loop, or from the drop of the
guard. -/
def uninstallAll (sys : Sys) (state : State) (id : Nat) : State :=
  match state.installers[id]? with
  | none => state
  | some installer =>
      if installer.stage = .aborting ∨ installer.stage = .dropping then
        { state with
          machine := installer.guards.foldl (uninstallGuard sys)
            state.machine }.put id
          { installer with guards := [], stage := .uninstalled }
      else state

/-- `deactivate`, only for the owner of `ACTIVE`; the guard's `Arc` goes with
it. -/
def deactivate (state : State) (id : Nat) : State :=
  match state.installers[id]? with
  | none => state
  | some installer =>
      if installer.stage = .uninstalled then
        { state with
          active := if state.active = some id then none else state.active
          }.put id { installer with stage := .released }
      else state

/-- The last `Arc<Installer>` goes away: the guards still collected are
dropped. -/
def dropLast (sys : Sys) (state : State) (id : Nat) : State :=
  match state.installers[id]? with
  | none => state
  | some installer =>
      if installer.stage = .released ∧ state.callback ≠ some id ∧
          id ∉ state.running then
        { state with
          machine := installer.guards.foldl (dropGuard sys)
            state.machine }.put id
          { installer with guards := [], stage := .freed }
      else state

def step (sys : Sys) (hooks : Hooks) (state : State) : Step → State
  | .tryActivate autoRescan => state.tryActivate autoRescan
  | .installModule id module => state.installModule sys hooks id module
  | .finishModules id =>
      match state.installers[id]? with
      | none => state
      | some installer =>
          state.advance id .installing
            (if installer.autoRescan then .publishing else .installed)
  | .setRescan id =>
      match state.installers[id]? with
      | none => state
      | some installer =>
          if installer.stage = .publishing then
            { state with callback := some id }.put id
              { installer with stage := .installed }
          else state
  | .triggerRescan =>
      match state.callback with
      | none => state
      | some id => { state with running := id :: state.running }
  | .rescanModule id module => state.rescanModule sys hooks id module
  | .endRescan id => { state with running := state.running.erase id }
  | .clearRescan id =>
      match state.installers[id]? with
      | none => state
      | some installer =>
          if installer.stage = .installed then
            { state with callback := none }.put id
              { installer with stage := .dropping }
          else state
  | .uninstallAll id => state.uninstallAll sys id
  | .deactivate id => state.deactivate id
  | .dropLast id => state.dropLast sys id

def initial (machine : Machine) : State :=
  ⟨machine, none, none, [], []⟩

end State

end Hookfs.Install
