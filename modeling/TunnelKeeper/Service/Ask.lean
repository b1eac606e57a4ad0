import TunnelKeeper.Dialogue
import TunnelKeeper.Route.Table
import TunnelKeeper.Store.Persisted
import TunnelKeeper.Tunnel.Event
import TunnelKeeper.Tunnel.Presenter
import TunnelKeeper.Workers.Pool

/-!
# Asks — what the service asks of its surroundings

The operations of the service are dialogues.  They ask collaborators (`Call`), they hand work to the
pool of workers (`Work`), and they read and change the session, whose lock they hold meanwhile.
-/

namespace TunnelKeeper.Service

open Pool (Joined)

/-- A point in time or a span of it, in milliseconds. -/
abbrev Time := Nat

/-- A unit of work for the pool. -/
inductive Work where
  /-- Starts the proxy for a tunnel. -/
  | startProxy (config : TunnelConfig)
  /-- Checks whether datagrams are relayed by the proxy at an address. -/
  | checkUdp (proxy : SocketAddress)
  /-- Checks whether a server takes connections. -/
  | checkServer (host : String) (port : UInt16)
  /-- Checks whether the server takes the credentials of the proxy at an address. -/
  | checkCredentials (proxy : SocketAddress)
  /-- Work of somebody else. -/
  | errand (label : String)
deriving Repr

/-- A call of a collaborator. -/
inductive Call where
  | stopProxy
  /-- Where the proxy listens. -/
  | proxyAddress
  /-- Brings the interface up. -/
  | establish
  /-- Routes the interface into the proxy. -/
  | connect (proxy : SocketAddress) (udp : Bool)
  | disconnect
  /-- Brings the interface down. -/
  | tearDown
  /-- Pins traffic to a network, or to none. -/
  | bindNetwork (network : Option NetworkId)
  /-- Whether the interface may be brought up at all. -/
  | isPrepared
  | present (p : Presentation)
  | emit (e : Event)
  /-- Loads the last tunnel that worked. -/
  | load
  /-- Reads whether datagrams worked with it. -/
  | udpSupported
  /-- Writes to the store; the answer says whether that worked. -/
  | write (u : Store.Update)
  /-- Asks for network events; the answer says whether they will come. -/
  | register
  | unregister
  | networkState (network : NetworkId)
  | activeNetwork
  /-- Asks the host to end the service. -/
  | requestExit
deriving Repr

/-- What a collaborator answers. -/
def Call.Answer : Call → Type
  | stopProxy => Unit
  | proxyAddress => SocketAddress
  | establish => Bool
  | connect _ _ => Bool
  | disconnect => Unit
  | tearDown => Unit
  | bindNetwork _ => Bool
  | isPrepared => Bool
  | present _ => Unit
  | emit _ => Unit
  | load => Except Store.StoreError (Option Descriptor)
  | udpSupported => Bool
  | write _ => Bool
  | register => Bool
  | unregister => Bool
  | networkState _ => Option NetworkState
  | activeNetwork => Option NetworkState
  | requestExit => Unit

/-- What the lock protects. -/
structure Session where
  /-- The tunnel that is up or on its way up. -/
  active : Option Descriptor := none
  /-- The reactor to network events is there. -/
  monitored : Bool := false
deriving Repr, Inhabited

/-- A question of an operation. -/
inductive Ask where
  /-- Waits for the lock of the session. -/
  | lock
  | unlock
  /-- Reads the session. -/
  | session
  | setActive (active : Option Descriptor)
  | setMonitored (monitored : Bool)
  /-- Starts a reactor that reads the events of the latest registration. -/
  | spawnReactor
  /-- Makes the active tunnel visible to everybody. -/
  | publishActive (active : Option Descriptor)
  /-- Makes the status visible to everybody. -/
  | publishStatus (status : Status)
  /-- Reads the active tunnel that is visible to everybody. -/
  | visibleActive
  /-- Reads the status that is visible to everybody. -/
  | visibleStatus
  | now
  /-- Hands in a unit of work. -/
  | spawn (work : Work)
  /-- Waits for a unit of work, at most until a time. -/
  | join (id : UnitId) (limit : Option Time)
  /-- Gives up a unit of work. -/
  | abandon (id : UnitId)
  | call (c : Call)
  /-- Waits until the last call of a collaborator has come to its end. -/
  | pause
deriving Repr

/-- The answer to a question. -/
def Ask.Answer : Ask → Type
  | lock => Unit
  | unlock => Unit
  | session => Session
  | setActive _ => Unit
  | setMonitored _ => Unit
  | spawnReactor => Unit
  | publishActive _ => Unit
  | publishStatus _ => Unit
  | visibleActive => Option Descriptor
  | visibleStatus => Status
  | now => Time
  | spawn _ => UnitId
  | join _ _ => Joined Bool
  | abandon _ => Unit
  | call c => c.Answer
  | pause => Unit

/-- A program of the service. -/
abbrev Program := Dialogue Ask Ask.Answer

namespace Program

def lock : Program Unit := .question Ask.lock
def unlock : Program Unit := .question Ask.unlock
def session : Program Session := .question Ask.session
def setMonitored (monitored : Bool) : Program Unit := .question (Ask.setMonitored monitored)
def spawnReactor : Program Unit := .question Ask.spawnReactor
def publishStatus (status : Status) : Program Unit := .question (Ask.publishStatus status)
def visibleActive : Program (Option Descriptor) := .question Ask.visibleActive
def visibleStatus : Program Status := .question Ask.visibleStatus
def now : Program Time := .question Ask.now
def spawn (work : Work) : Program UnitId := .question (Ask.spawn work)
def join (id : UnitId) (limit : Option Time) : Program (Joined Bool) :=
  .question (Ask.join id limit)
def abandon (id : UnitId) : Program Unit := .question (Ask.abandon id)

/-- A call that is answered at once. -/
def call (c : Call) : Program c.Answer := .question (Ask.call c)

/-- A call that takes its time. -/
def slowly (c : Call) : Program c.Answer := do
  let answer ← call c
  .question Ask.pause
  return answer

def proxyAddress : Program SocketAddress := call .proxyAddress
def establish : Program Bool := slowly .establish
def connect (proxy : SocketAddress) (udp : Bool) : Program Bool := slowly (.connect proxy udp)
def isPrepared : Program Bool := call .isPrepared
def udpSupported : Program Bool := call .udpSupported
def register : Program Bool := call .register
def networkState (network : NetworkId) : Program (Option NetworkState) :=
  call (.networkState network)
def activeNetwork : Program (Option NetworkState) := call .activeNetwork

/-- Makes a tunnel the active one, first for everybody to see and then in the session. -/
def setActive (active : Option Descriptor) : Program Unit := do
  .question (Ask.publishActive active)
  .question (Ask.setActive active)

def emit (e : Event) : Program Unit := call (.emit e)

/-- Writes to the store; whether that works makes no difference. -/
def write (u : Store.Update) : Program Unit := do
  let _ ← call (.write u)
  return ()

def display (d : Descriptor) (status : Status) : Program Unit :=
  call (.present (.display d.config.serverName status))

def clear : Program Unit := call (.present .clear)

end Program

end TunnelKeeper.Service
