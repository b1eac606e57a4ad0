import TunnelKeeper.Check.Exchange

/-!
# Scenes — a network that answers as it is told

A scene fixes everything that the network does during one exchange: whether the proxy takes the
stream, which bytes it sends on it, when it sends them and whether it closes it afterwards, and
which datagrams the relay sends back.  It records what it was sent.
-/

namespace TunnelKeeper.Check

/-- What the network does and what it was sent. -/
structure Scene where
  /-- The proxy takes the stream. -/
  listens : Bool := true
  /-- What is on its way to the client. -/
  incoming : List UInt8 := []
  /-- What the proxy sends later, each part once it was sent so many bytes. -/
  parts : List (Nat × List UInt8) := []
  /-- The proxy closes the stream behind its bytes; otherwise it falls silent. -/
  closes : Bool := true
  /-- The relay takes datagrams. -/
  relays : Bool := true
  /-- What the relay sends back; the id of the query is filled in. -/
  answers : UInt16 → List (List UInt8) := fun _ => []
  /-- The id that is drawn for the query. -/
  id : UInt16 := 0
  sent : List UInt8 := []
  /-- The datagrams with the addresses they went to. -/
  datagrams : List (SocketAddress × List UInt8) := []
  /-- Whether the socket for datagrams is of the older family. -/
  socket : Option Bool := none
  /-- Where datagrams go. -/
  target : Option SocketAddress := none

namespace Scene

/-- The shortest part at the front that is enough, and the rest. -/
def splitAt (enough : List UInt8 → Bool) : (seen : List UInt8) → List UInt8 →
    Option (List UInt8 × List UInt8)
  | seen, [] => if enough seen.reverse then some (seen.reverse, []) else none
  | seen, b :: rest =>
    if enough seen.reverse then some (seen.reverse, b :: rest) else splitAt enough (b :: seen) rest

/-- The parts that are sent by the time the proxy has got so many bytes, and the other ones. -/
def ready (got : Nat) : List (Nat × List UInt8) → List UInt8 × List (Nat × List UInt8)
  | [] => ([], [])
  | (least, bytes) :: parts =>
    if least ≤ got then
      let (more, parts) := ready got parts
      (bytes ++ more, parts)
    else ([], (least, bytes) :: parts)

/-- What a scripted proxy does at a point of the exchange. -/
inductive Move where
  | send (bytes : List UInt8)
  /-- Sends bytes and closes the stream. -/
  | finish (bytes : List UInt8)
  | close
  /-- Says nothing more and leaves the stream open. -/
  | stall

/-- A scene of moves, each of which comes once the proxy was sent so many bytes. -/
def scripted (s : Scene) : List (Nat × Move) → Scene
  | [] => s
  | (least, .send bytes) :: moves =>
    let s := s.scripted moves
    { s with parts := (least, bytes) :: s.parts }
  | (least, .finish bytes) :: _ => { s with parts := [(least, bytes)], closes := true }
  | (least, .close) :: _ => { s with parts := [(least, [])], closes := true }
  | (_, .stall) :: _ => { s with parts := [], closes := false }

/-- The client waits for bytes. -/
def receive (s : Scene) (enough : List UInt8 → Bool) : Except Error (List UInt8) × Scene :=
  let (more, parts) := ready s.sent.length s.parts
  match splitAt enough [] (s.incoming ++ more) with
  | some (bytes, rest) => (.ok bytes, { s with incoming := rest, parts })
  | none =>
    let error := if parts.isEmpty && s.closes then Error.endOfStream else .timedOut
    (.error error, { s with incoming := [], parts })

/-- How the network answers. -/
def respond (s : Scene) : (q : Ask) → q.Answer × Scene
  | .connect _ => (if s.listens then .ok () else .error .other, s)
  | .connectHost _ _ => (if s.listens then .ok () else .error .other, s)
  | .send bytes => (.ok (), { s with sent := s.sent ++ bytes })
  | .receive enough => s.receive enough
  | .openSocket v4 => (.ok (), { s with socket := some v4 })
  | .aim address => (.ok (), { s with target := some address })
  | .sendDatagram bytes =>
    (.ok (), { s with datagrams := s.datagrams ++ (s.target.map (·, bytes)).toList })
  | .receiveDatagram =>
    if s.relays then
      match s.answers s.id with
      | [] => (.error .timedOut, s)
      | datagram :: _ => (.ok (datagram.take 1500), s)
    else (.error .other, s)
  | .drawId => (s.id, s)

/-- Plays an exchange. -/
def play {α : Type} (s : Scene) (e : Exchange α) : Except Error α × Scene := e.run.run respond s

/-- Whether an exchange goes well. -/
def passes {α : Type} (s : Scene) (e : Exchange α) : Bool := (s.play e).1.isOk

end Scene

example : (({ incoming := [5, 0, 7] } : Scene).play Exchange.greet).2.incoming = [7] := rfl

example : ({ parts := [(3, [5, 0])] } : Scene).passes Exchange.greet = true := rfl

end TunnelKeeper.Check
