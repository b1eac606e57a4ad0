import TunnelKeeper.Control.Server
import TunnelKeeper.Daemon.Arguments
import TunnelKeeper.Settings.Service
import TunnelKeeper.Store.FileStore

/-!
# Startup — from a command line to a running service

The daemon reads its settings, opens the state of the last run, builds the service, and takes a
place for its clients.  Each step can fail, and how the daemon then ends is an `Ending`.  It takes
the tunnel down before it ends in an orderly way.
-/

namespace TunnelKeeper.Daemon

open Files (Directory Path)
open Settings (ServiceSettings)
open Service (Work Limits)
open Store (FileStore)

/-- How the daemon ends. -/
inductive Ending where
  /-- In an orderly way, or because only help was asked for. -/
  | orderly
  /-- The settings, the state or the place for clients cannot be had. -/
  | failed
  /-- The command line is wrong. -/
  | misused
  /-- The service cannot be built. -/
  | broken
deriving DecidableEq, Repr

/-- The number that tells the caller how the daemon ended. -/
def Ending.exitCode : Ending → Nat
  | orderly => 0
  | failed => 1
  | misused => 2
  | broken => 101

/-- The parts of a service that settings determine. -/
structure Assembly where
  pool : Pool Work Bool
  limits : Limits
  /-- How long it is from one look at the route to the next, in milliseconds. -/
  pollMs : Nat
  pollMs_pos : 0 < pollMs

/-- Builds the parts of a service.  There is no pool beyond a certain size and no timer without a
span. -/
def assemble? (s : ServiceSettings) : Option Assembly := do
  let pool ← Pool.ofSize? s.poolSize
  if h : 0 < s.route.intervalMs then
    return ⟨pool, ⟨s.proxyStartTimeoutMs, s.probeTimeoutMs⟩, s.route.intervalMs, h⟩
  else none

/-- A daemon that is ready to serve. -/
structure Startup where
  settings : ServiceSettings
  store : FileStore
  assembly : Assembly
  autostart : Bool

namespace Startup

/-- The settings that a command line asks for. -/
def settings? (a : Arguments) (dir : Directory) : Option ServiceSettings := do
  let s ← match a.config with
    | none => pure {}
    | some name =>
      match ServiceSettings.ofFile name (dir.read (Path.ofText name)).toOption with
      | .ok s => pure s
      | .error _ => none
  return { s with controlAddr := a.control.getD s.controlAddr }

/-- Makes the daemon ready, in a directory and where `binds` says which addresses are free. -/
def prepare (words : List String) (dir : Directory) (binds : SocketAddress → Bool) :
    Except Ending Startup := do
  let a ← match Arguments.read words with
    | .ok a => pure a
    | .error .misuse => throw .misused
    | .error _ => throw .orderly
  match settings? a dir with
  | none => throw .failed
  | some settings =>
    match FileStore.open? dir (Path.ofText settings.statePath) with
    | .error _ => throw .failed
    | .ok store =>
      match assemble? settings with
      | none => throw .broken
      | some assembly =>
        if binds settings.controlAddr then return ⟨settings, store, assembly, a.autostart⟩
        else throw .failed

/-- The server of a daemon whose collaborators follow a script. -/
def server (s : Startup) (script : Service.Script) : Control.Server where
  service :=
    let world : Service.World := { store := s.store.state }
    { machine := { limits := s.assembly.limits, pool := s.assembly.pool, world }, script }

/-- Brings the last tunnel back, if that is asked for; also gives whether the daemon goes on. -/
def autostartOn (s : Startup) (server : Control.Server) : Control.Server × Bool :=
  if s.autostart then
    match server.perform .resume with
    | (server, .reply (.resumed none)) => (server, false)
    | (server, _) => (server, true)
  else (server, true)

/-- The directory after the tunnel was taken down and the state was written. -/
def shutDown (s : Startup) (server : Control.Server) (dir : Directory) : Directory :=
  let state := (server.perform .destroy).1.service.machine.world.store
  (Files.runSteps none (s.store.writeSteps state) dir).1

/-- Serves one client and shuts down: what the client was told, and the directory afterwards. -/
def serve (s : Startup) (script : Service.Script) (input : List UInt8) (dir : Directory) :
    List Control.Message × Directory :=
  let (server, goesOn) := s.autostartOn (s.server script)
  let server := server.accept.receive 0 (if goesOn then input else []) true
  (server.connections.flatMap (·.output), s.shutDown server dir)

end Startup

end TunnelKeeper.Daemon
