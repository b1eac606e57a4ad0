import TunnelKeeper.Json.Printer
import TunnelKeeper.Tunnel.Status

/-!
# Events — what the host application learns about the tunnel

An event names what happened, with which outcome, to which tunnel, and for a change of status the
new one.  Its document has the four entries in this order, each of them always present.
-/

namespace TunnelKeeper

/-- What happened. -/
inductive Event.Action where
  /-- A start has ended. -/
  | start
  /-- The tunnel was stopped on request. -/
  | stop
  /-- The connectivity of the active tunnel changed. -/
  | statusChange
deriving DecidableEq, Repr

def Event.Action.name : Event.Action → String
  | start => "start"
  | stop => "stop"
  | statusChange => "status_change"

/-- An event for the host. -/
structure Event where
  action : Event.Action
  errorCode : ErrorCode
  tunnelId : Option String
  status : Option Status
deriving DecidableEq, Repr

namespace Event

/-- A start ended with a code. -/
def started (tunnelId : Option String) (code : ErrorCode) : Event := ⟨.start, code, tunnelId, none⟩

/-- A tunnel was stopped. -/
def stopped (tunnelId : Option String) : Event := ⟨.stop, .noError, tunnelId, none⟩

/-- The status of a tunnel changed. -/
def changed (tunnelId : Option String) (status : Status) : Event :=
  ⟨.statusChange, .noError, tunnelId, some status⟩

/-- A text, or null. -/
def optional : Option String → Json
  | some s => .text s
  | none => .null

/-- The entries of an event, in order. -/
def fields (e : Event) : List (String × Json) :=
  [("action", .text e.action.name), ("error_code", .text e.errorCode.name),
   ("tunnel_id", optional e.tunnelId), ("status", optional (e.status.map Status.name))]

def toJson (e : Event) : Json := .object e.fields

def text (e : Event) : String := e.toJson.compact

end Event

end TunnelKeeper
