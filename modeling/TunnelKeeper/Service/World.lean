import TunnelKeeper.Route.Channel
import TunnelKeeper.Service.Reactor

/-!
# Worlds — what operations share

The session, what is visible of it from outside, the store, the channels of network events and the
log of all calls of collaborators.  How collaborators answer is left to the surroundings
(`Surroundings`); the world only decides what follows from what was written before: a store answers
with what it holds, and a write that fails changes nothing.
-/

namespace TunnelKeeper.Service

/-- The number of a task, in the order of beginning. -/
abbrev TaskId := Nat

/-- How collaborators answer at one moment. -/
structure Surroundings where
  proxyAddress : SocketAddress := .ofV4 127 0 0 1 1081
  establishes : Bool := true
  connects : Bool := true
  binds : Bool := true
  prepared : Bool := true
  /-- The store can be read. -/
  loads : Bool := true
  /-- A write to the store works. -/
  writes : Store.Update → Bool := fun _ => true
  registers : Bool := true
  unregisters : Bool := true
  networkState : NetworkId → Option NetworkState := fun _ => none
  activeNetwork : Option NetworkState := none

/-- An entry of the log. -/
inductive Entry where
  /-- A task called a collaborator. -/
  | called (task : TaskId) (c : Call) (answer : c.Answer)
  /-- A unit of work began. -/
  | began (id : UnitId) (work : Work)
  /-- A unit of work ended with a result, or without one. -/
  | ended (id : UnitId) (work : Work) (result : Option Bool)

/-- What operations share. -/
structure World where
  session : Session := {}
  visibleActive : Option Descriptor := none
  visibleStatus : Status := .disconnected
  store : Store.Persisted := {}
  /-- The channel of each registration. -/
  channels : List Channel := []
  /-- Oldest entry first. -/
  log : List Entry := []
  clock : Time := 0

namespace World

/-- What a collaborator answers. -/
def answer (w : World) (around : Surroundings) : (c : Call) → c.Answer
  | .stopProxy => ()
  | .proxyAddress => around.proxyAddress
  | .establish => around.establishes
  | .connect _ _ => around.connects
  | .disconnect => ()
  | .tearDown => ()
  | .bindNetwork _ => around.binds
  | .isPrepared => around.prepared
  | .present _ => ()
  | .emit _ => ()
  | .load => if around.loads then w.store.load else .error .io
  | .udpSupported => w.store.udpSupported
  | .write u => around.writes u
  | .register => around.registers
  | .unregister => around.unregisters
  | .networkState network => around.networkState network
  | .activeNetwork => around.activeNetwork
  | .requestExit => ()

/-- Changes a channel. -/
def changeChannel (w : World) (registration : Nat) (change : Channel → Channel) : World :=
  { w with channels := w.channels.modify registration change }

/-- What a call changes. -/
def afterCall (w : World) : (c : Call) → c.Answer → World
  | .write u, true => { w with store := w.store.apply u }
  | .register, true => { w with channels := w.channels ++ [{}] }
  | .unregister, true => w.changeChannel (w.channels.length - 1) .closeWriter
  | _, _ => w

/-- Carries out a call and writes it to the log. -/
def perform (w : World) (task : TaskId) (around : Surroundings) (c : Call) : c.Answer × World :=
  let a := w.answer around c
  let w := w.afterCall c a
  (a, { w with log := w.log ++ [.called task c a] })

/-- Adds an entry to the log. -/
def note (w : World) (e : Entry) : World := { w with log := w.log ++ [e] }

end World

end TunnelKeeper.Service
