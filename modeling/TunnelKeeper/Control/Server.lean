import TunnelKeeper.Control.Connection
import TunnelKeeper.Service.Rehearsal

/-!
# Servers — a rehearsed service behind control connections

The service follows a script, its events go to a broadcast, and each connection is served until it
has to wait.  One line is carried out at a time.
-/

namespace TunnelKeeper.Control

open Service (Rehearsal Entry)

/-- A rehearsed service and its clients. -/
structure Server where
  service : Rehearsal
  broadcast : Broadcast := Broadcast.default
  connections : List Connection := []

namespace Server

/-- The events in a part of the log. -/
def eventsOf (entries : List Entry) : List Event :=
  entries.filterMap fun
    | .called _ (.emit e) _ => some e
    | _ => none

/-- Lets the service do something; what it announces goes to the broadcast. -/
def attend {α : Type} (s : Server) (act : Rehearsal → Rehearsal × α) : Server × α :=
  let position := s.service.machine.world.log.length
  let (service, a) := act s.service
  let events := eventsOf (service.logFrom position)
  ({ s with service, broadcast := events.foldl Broadcast.send s.broadcast }, a)

/-- Carries out an operation. -/
def perform (s : Server) (operation : Service.Operation) : Server × Rehearsal.Result :=
  s.attend fun r => r.carryOut (operation.program r.machine.limits)

/-- Carries out a request. -/
def carryOut (s : Server) (request : Request) : Server × Reply :=
  match request.operation with
  | .error e => (s, .failure (.config e))
  | .ok operation =>
    let (s, result) := s.perform operation
    match result with
    | .reply r => (s, .ofOutcome r)
    | _ => (s, { ok := false })

/-- Answers a line. -/
def dispatch (s : Server) (line : String) : Server × Reply :=
  match Request.ofLine? line with
  | some request => s.carryOut request
  | none => (s, .failure .unreadable)

/-- A new client. -/
def accept (s : Server) : Server :=
  { s with connections := s.connections ++ [.connect s.broadcast] }

/-- Replaces a connection. -/
def setConnection (s : Server) (client : Nat) (c : Connection) : Server :=
  { s with connections := s.connections.set client c }

/-- Serves the lines a client has sent, at most so many. -/
def serve : (times : Nat) → Server → (client : Nat) → Server
  | 0, s, _ => s
  | times + 1, s, client =>
    match (s.connections[client]?).bind Connection.read? with
    | none => s
    | some c =>
      let s := s.setConnection client c
      match c.handling with
      | none => serve times s client
      | some line =>
        let (s, reply) := s.dispatch line
        serve times (s.setConnection client ((c.answer? reply).getD c)) client

/-- A client sends bytes, and perhaps nothing after them, and is served. -/
def receive (s : Server) (client : Nat) (bytes : List UInt8) (isLast : Bool) : Server :=
  let s := { s with connections := s.connections.modify client (·.deliver bytes isLast) }
  serve (bytes.length + 3) s client

/-- Every client that may still send lines reads its events. -/
def announce (s : Server) : Server :=
  let listen (c : Connection) : Connection :=
    if c.expectsMore then c.catchUp s.broadcast (s.broadcast.capacity + 2) else c
  { s with connections := s.connections.map listen }

end Server

end TunnelKeeper.Control
