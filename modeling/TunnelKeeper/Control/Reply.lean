import TunnelKeeper.Control.Request

/-!
# Replies — what a client of the control connection is told

Every request has one reply, and events of the service come in between.  Both are messages of one
line of JSON each.  A reply says whether the request went well and holds what is known beyond that;
what it does not hold is left out.
-/

namespace TunnelKeeper.Control

/-- Why a request did not go well. -/
inductive RequestError where
  /-- The line is no request. -/
  | unreadable
  | config (e : ConfigError)
  | tunnel (e : Service.TunnelError)
deriving DecidableEq, Repr

def RequestError.message : RequestError → String
  | unreadable => "Invalid request"
  | config e => e.message
  | tunnel e => e.message

/-- The answer to a request. -/
structure Reply where
  ok : Bool
  error : Option RequestError := none
  errorCode : Option ErrorCode := none
  /-- Whether the tunnel that was asked for is the active one. -/
  active : Option Bool := none
  status : Option Status := none
  /-- The id of the active tunnel. -/
  tunnelId : Option String := none
  /-- Whether datagrams are forwarded. -/
  udpForwarding : Option Bool := none
deriving DecidableEq, Repr

namespace Reply

def failure (e : RequestError) : Reply := { ok := false, error := some e }

/-- The reply to a start with a code. -/
def started (code : ErrorCode) : Reply := { ok := code.isContinuable, errorCode := some code }

/-- The reply to a question for the state. -/
def ofOverview (o : Service.Overview) : Reply :=
  { ok := true, active := o.active, status := some o.status, tunnelId := o.tunnelId
    udpForwarding := some o.udpSupported }

/-- The reply that tells how an operation went. -/
def ofOutcome : Service.Reply → Reply
  | .started (.ok code) => started code
  | .started (.error e) => failure (.tunnel e)
  | .stopped (.error e) => failure (.tunnel e)
  | .overview (.ok o) => ofOverview o
  | .overview (.error e) => failure (.tunnel e)
  | _ => { ok := true }

/-- An entry, if there is something to say. -/
def entry {α : Type} (key : String) (value : Option α) (toJson : α → Json) : List (String × Json) :=
  (value.map fun a => (key, toJson a)).toList

/-- The entries of a reply, in order. -/
def fields (r : Reply) : List (String × Json) :=
  [("ok", .bool r.ok)] ++
  entry "error" r.error (fun e => .text e.message) ++
  entry "error_code" r.errorCode (fun c => .text c.name) ++
  entry "active" r.active .bool ++
  entry "status" r.status (fun s => .text s.name) ++
  entry "tunnel_id" r.tunnelId .text ++
  entry "capabilities" r.udpForwarding
    (fun udp => .object [("udp_forwarding_supported", .bool udp)])

end Reply

/-- What is sent to a client. -/
inductive Message where
  | reply (r : Reply)
  | event (e : Event)
deriving DecidableEq, Repr

namespace Message

/-- The entries of a message, its kind first. -/
def fields : Message → List (String × Json)
  | reply r => ("type", .text "reply") :: r.fields
  | event e => ("type", .text "event") :: e.fields

def isReply : Message → Bool
  | reply _ => true
  | event _ => false

def toJson (m : Message) : Json := .object m.fields

/-- The line of a message, with its end. -/
def line (m : Message) : List Char := m.toJson.compact.toList ++ ['\n']

end Message

end TunnelKeeper.Control
