import TunnelKeeper.Check.Error
import TunnelKeeper.Dialogue
import TunnelKeeper.Dns.Message
import TunnelKeeper.Http.Response

/-!
# Exchanges — what the checks say to the network

A check is a dialogue with the network.  It opens a stream to the local proxy and negotiates without
a login.  Then it either asks for a relay of datagrams and sends a query through it, or asks for a
connection to a server and sends a request through that.  Any error ends an exchange.
-/

namespace TunnelKeeper.Check

/-- What a check asks of the network. -/
inductive Ask where
  /-- Opens the stream. -/
  | connect (address : SocketAddress)
  /-- Opens the stream to a host. -/
  | connectHost (host : String) (port : UInt16)
  /-- Writes to the stream. -/
  | send (bytes : List UInt8)
  /-- Reads from the stream just as much as is enough. -/
  | receive (enough : List UInt8 → Bool)
  /-- Opens a socket for datagrams of one of the two families. -/
  | openSocket (v4 : Bool)
  /-- Sets where datagrams go. -/
  | aim (address : SocketAddress)
  | sendDatagram (bytes : List UInt8)
  /-- Waits for a datagram, of which only the first bytes are kept. -/
  | receiveDatagram
  /-- Draws the id of a query. -/
  | drawId

/-- What the network answers. -/
def Ask.Answer : Ask → Type
  | connect _ => Except Error Unit
  | connectHost _ _ => Except Error Unit
  | send _ => Except Error Unit
  | receive _ => Except Error (List UInt8)
  | openSocket _ => Except Error Unit
  | aim _ => Except Error Unit
  | sendDatagram _ => Except Error Unit
  | receiveDatagram => Except Error (List UInt8)
  | drawId => UInt16

/-- A dialogue with the network that an error ends. -/
abbrev Exchange := ExceptT Error (Dialogue Ask Ask.Answer)

namespace Exchange

def connect (address : SocketAddress) : Exchange Unit := .mk (.question (Ask.connect address))
def connectHost (host : String) (port : UInt16) : Exchange Unit :=
  .mk (.question (Ask.connectHost host port))
def send (bytes : List UInt8) : Exchange Unit := .mk (.question (Ask.send bytes))
def receiveUntil (enough : List UInt8 → Bool) : Exchange (List UInt8) :=
  .mk (.question (Ask.receive enough))
def openSocket (v4 : Bool) : Exchange Unit := .mk (.question (Ask.openSocket v4))
def aim (address : SocketAddress) : Exchange Unit := .mk (.question (Ask.aim address))
def sendDatagram (bytes : List UInt8) : Exchange Unit := .mk (.question (Ask.sendDatagram bytes))
def receiveDatagram : Exchange (List UInt8) := .mk (.question Ask.receiveDatagram)
def drawId : Exchange UInt16 := .lift (.question Ask.drawId)

/-- Reads so many bytes. -/
def receive (count : Nat) : Exchange (List UInt8) := receiveUntil fun bytes => count ≤ bytes.length

/-- Ends the exchange, because an answer breaks the protocol. -/
def invalid {α : Type} (v : Violation) : Exchange α := throw (.invalid v)

/-- A result, or the violation in its place. -/
def orInvalid {α : Type} : Except Violation α → Exchange α
  | .ok a => pure a
  | .error v => invalid v

/-! ### The proxy's protocol -/

/-- Negotiates without a login. -/
def greet : Exchange Unit := do
  send [5, 1, 0]
  if (← receive 2) == [5, 0] then return () else invalid .methodRejected

/-- Reads the address of a reply; a name counts as no address. -/
def readAddress (kind : UInt8) : Exchange IpAddress := do
  if kind == 1 then
    match ← receive 4 with
    | [a, b, c, d] => return .v4 ⟨a, b, c, d⟩
    | _ => throw .endOfStream
  else if kind == 4 then return .v6 (.ofOctets (← receive 16))
  else if kind == Socks.domainByte then
    match ← receive 1 with
    | [n] =>
      let _ ← receive n.toNat
      return .v4 .unspecified
    | _ => throw .endOfStream
  else invalid .addressType

/-- Reads the reply to a request; gives the address it names. -/
def readReply : Exchange SocketAddress := do
  match ← receive 4 with
  | [version, reply, _, kind] =>
    if version != 5 then invalid .badVersion
    else if reply != 0 then invalid .requestRefused
    else
      let ip ← readAddress kind
      match ← receive 2 with
      | [high, low] => return ⟨ip, Socks.word high low, 0⟩
      | _ => throw .endOfStream
  | _ => throw .endOfStream

/-! ### The checks -/

/-- Where to send datagrams: a relay without an address of its own is on the proxy's host. -/
def relayAddress (reply proxy : SocketAddress) : SocketAddress :=
  if reply.ip.isUnspecified then ⟨proxy.ip, reply.port, 0⟩ else reply

/-- Whether a datagram answers the query with an id. -/
def checkAnswer (codec : Dns.Codec) (id : UInt16) (datagram : List UInt8) :
    Except Violation Unit := do
  match codec.header? (← Socks.stripHeader datagram) with
  | none => .error .malformedAnswer
  | some header => if header.id == id && header.isResponse then .ok () else .error .unexpectedAnswer

/-- The request for a relay, by a client that does not know its own address. -/
def relayRequest : List UInt8 := [5, 3, 0] ++ Socks.encodeAddress (.ofV4 0 0 0 0 0)

/-- Asks the proxy for a relay; gives where to send datagrams. -/
def openRelay (proxy : SocketAddress) : Exchange SocketAddress := do
  connect proxy
  greet
  send relayRequest
  return relayAddress (← readReply) proxy

/-- Sends a query to a relay and waits for its answer. -/
def askRelay (codec : Dns.Codec) (relay server : SocketAddress) (name : String) :
    Exchange Unit := do
  openSocket relay.ip.isV4
  aim relay
  let id ← drawId
  let query ← orInvalid (codec.query id name)
  sendDatagram (Socks.datagram server query)
  orInvalid (checkAnswer codec id (← receiveDatagram))

/-- Sends a query through the proxy's relay and waits for its answer.  The codec says what messages
are. -/
def udpRoundTripBy (codec : Dns.Codec) (proxy server : SocketAddress) (name : String) :
    Exchange Unit := do
  askRelay codec (← openRelay proxy) server name

/-- Sends a query through the proxy's relay and waits for its answer. -/
def udpRoundTrip : (proxy server : SocketAddress) → (name : String) → Exchange Unit :=
  udpRoundTripBy .standard

/-- The request for a connection to a host. -/
def connectRequest (host : List UInt8) (port : UInt16) : List UInt8 :=
  [5, 1, 0, Socks.domainByte, host.length.toUInt8] ++ host ++ Socks.wordBytes port

/-- Asks a host for a page through the proxy; gives the status of its response. -/
def httpStatus (proxy : SocketAddress) (host : String) (port : UInt16) : Exchange Nat := do
  connect proxy
  greet
  if 255 < (Http.bytes host).length then invalid .longProbeHost
  else
    send (connectRequest (Http.bytes host) port)
    let _ ← readReply
    match Http.headRequest? host with
    | none => throw .other
    | some request =>
      send request
      let head ← tryCatch (receiveUntil fun bytes => (Http.Head.read bytes).isDecided) fun e =>
        throw (if e == .timedOut then e else .other)
      match (Http.Head.read head).status? with
      | some status => return status
      | none => throw .other

/-- Opens a stream to a host. -/
def reach (host : String) (port : UInt16) : Exchange Unit := connectHost host port

end Exchange

end TunnelKeeper.Check
