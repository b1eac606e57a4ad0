import TunnelKeeper.Control.Reply
import TunnelKeeper.Text.Blank
import TunnelKeeper.Text.Utf8
import TunnelKeeper.Tunnel.Broadcast

/-!
# Connections — one client of the control connection

A connection reads lines and gives each that is not blank to the service, one after the other.  It
also reads the broadcast of events, but never while a line is with the service: so the reply comes
before the events that the request caused.  `Connection.step?` makes one step, named by a label, of
a connection and the broadcast it reads.
-/

namespace TunnelKeeper.Control

/-- The text of a line whose end was taken off; a return before the end belongs to it. -/
def lineText? (line : List UInt8) : Option String :=
  Utf8.text? (if line.getLast? == some 13 then line.dropLast else line)

/-- What there is in the bytes of a client. -/
structure Reading where
  lines : List String := []
  /-- The bytes behind the last end. -/
  rest : List UInt8 := []
  /-- There was a line that is no text; nothing is read behind it. -/
  isBroken : Bool := false
deriving DecidableEq, Repr

/-- Reads lines, the first of which starts with the bytes `seen`, in reverse.  The last one needs no
end if nothing comes after it. -/
def readLines (isLast : Bool) : (seen : List UInt8) → List UInt8 → Reading
  | seen, [] =>
    if isLast && !seen.isEmpty then
      match Utf8.text? seen.reverse with
      | some line => { lines := [line] }
      | none => { isBroken := true }
    else { rest := seen.reverse }
  | seen, b :: rest =>
    if b == 10 then
      match lineText? seen.reverse with
      | some line =>
        let reading := readLines isLast [] rest
        { reading with lines := line :: reading.lines }
      | none => { isBroken := true }
    else readLines isLast (b :: seen) rest

/-- A client's connection. -/
structure Connection where
  /-- The bytes that were sent and are no whole line yet. -/
  unread : List UInt8 := []
  /-- The lines that were sent and not yet read. -/
  incoming : List String := []
  /-- The line that is with the service. -/
  handling : Option String := none
  /-- The position in the broadcast. -/
  position : Nat
  /-- The messages to the client, oldest first. -/
  output : List Message := []
  /-- The client may still send lines. -/
  expectsMore : Bool := true
  isOpen : Bool := true

/-- The name of a step. -/
inductive Connection.Label where
  /-- The client sends a line. -/
  | send (line : String)
  /-- The client sends nothing more. -/
  | hangUp
  /-- The connection reads a line, or that there will be none. -/
  | read
  /-- The service has carried out the line it was given. -/
  | answer (r : Reply)
  /-- The connection reads the broadcast. -/
  | listen
  /-- An event is sent to everybody. -/
  | emit (e : Event)

namespace Connection

/-- A new connection, which reads the broadcast from now on. -/
def connect (b : Broadcast) : Connection := { position := b.subscribe }

/-- The client sends bytes, and perhaps nothing after them. -/
def deliver (c : Connection) (bytes : List UInt8) (isLast : Bool) : Connection :=
  let reading := readLines isLast c.unread.reverse bytes
  { c with incoming := c.incoming ++ reading.lines, unread := reading.rest
           expectsMore := c.expectsMore && !isLast && !reading.isBroken }

/-- The replies and the events from a place of the output on. -/
def since (c : Connection) (place : Nat) : List Message × List Message :=
  (c.output.drop place).partition Message.isReply

/-- Whether the connection waits for a line or an event. -/
def isIdle (c : Connection) : Bool := c.isOpen && c.handling.isNone

/-- Reads a line; none while there is nothing to read. -/
def read? (c : Connection) : Option Connection :=
  if c.isIdle then
    match c.incoming with
    | line :: incoming =>
      let handling := if Blank.isBlankText line.toList then none else some line
      some { c with incoming, handling }
    | [] => if c.expectsMore then none else some { c with isOpen := false }
  else none

/-- Passes the service's reply on. -/
def answer? (c : Connection) (r : Reply) : Option Connection :=
  match c.handling with
  | some _ => some { c with handling := none, output := c.output ++ [.reply r] }
  | none => none

/-- Reads the broadcast; none while there is nothing to read. -/
def listen? (c : Connection) (b : Broadcast) : Option Connection :=
  if c.isIdle then
    match b.receive c.position with
    | (.event e, position) => some { c with position, output := c.output ++ [.event e] }
    | (.lagged _, position) => some { c with position }
    | (.closed, _) => some { c with isOpen := false }
    | (.empty, _) => none
  else none

/-- One step of a broadcast and a connection, where it is possible. -/
def step? : Broadcast × Connection → Label → Option (Broadcast × Connection)
  | (b, c), .send line =>
    if c.expectsMore then some (b, { c with incoming := c.incoming ++ [line] }) else none
  | (b, c), .hangUp => some (b, { c with expectsMore := false })
  | (b, c), .read => c.read?.map (b, ·)
  | (b, c), .answer r => (c.answer? r).map (b, ·)
  | (b, c), .listen => (c.listen? b).map (b, ·)
  | (b, c), .emit e => some (b.send e, c)

/-- Both after a list of steps, where all of them are possible. -/
def run? (start : Broadcast × Connection) (labels : List Label) : Option (Broadcast × Connection) :=
  labels.foldlM step? start

/-- Reads the broadcast as long as there is something to read, at most so many times. -/
def catchUp (b : Broadcast) : (times : Nat) → Connection → Connection
  | 0, c => c
  | times + 1, c =>
    match c.listen? b with
    | some c => catchUp b times c
    | none => c

end Connection

end TunnelKeeper.Control
