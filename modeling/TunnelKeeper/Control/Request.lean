import TunnelKeeper.Json.Record
import TunnelKeeper.Service.Machine

/-!
# Requests — what a client of the control connection asks for

A request is one line of JSON.  As an object it names its command under a key of its own, wherever
that stands; as a list it starts with the command.  The other entries are the fields of a record, so
an object may hold more than is needed and a list may not.  Every part of the line has to have a
meaning, used or not.
-/

namespace TunnelKeeper.Control

/-- What a client asks for. -/
inductive Request where
  /-- Starts a tunnel; null stands for the configuration without entries. -/
  | start (id : String) (config : Json)
  | stop (id : String)
  /-- Asks for the state of the service, and of one tunnel if it is named. -/
  | status (id : Option String)
  /-- Takes the tunnel down as if the permission for it were gone. -/
  | revoke
deriving Repr

namespace Request

open Json (Document)

/-- The key of the command. -/
def commandKey : String := "command"

/-- The command of a document, and what else is in it. -/
def command? : Document → Option (String × Document)
  | .object fields =>
    match fields.filter (·.1 == some commandKey) with
    | [(_, .text (some command))] =>
      some (command, .object (fields.filter (·.1 != some commandKey)))
    | _ => none
  | .list (.text (some command) :: items) => some (command, .list items)
  | _ => none

/-- A configuration that may be left out. -/
def config? : Option Document → Option Json
  | none => some .null
  | some config => config.value? Document.depthLimit

/-- A text that may be left out or null. -/
def optionalText? : Option Document → Option (Option String)
  | none => some none
  | some .null => some none
  | some (.text (some s)) => some (some s)
  | some _ => none

/-- The request with a command, of which `rest` holds the fields. -/
def ofCommand? (command : String) (rest : Document) : Option Request := do
  match command with
  | "start" =>
    match ← rest.record? ["tunnel_id", "config"] with
    | [some (.text (some id)), config] => return .start id (← config? config)
    | _ => none
  | "stop" =>
    match ← rest.record? ["tunnel_id"] with
    | [some (.text (some id))] => return .stop id
    | _ => none
  | "status" =>
    match ← rest.record? ["tunnel_id"] with
    | [id] => return .status (← optionalText? id)
    | _ => none
  | "revoke" => (rest.record? []).map fun _ => .revoke
  | _ => none

/-- The request a document stands for. -/
def ofDocument? (document : Document) : Option Request := do
  let _ ← document.value? Document.depthLimit
  let (command, rest) ← command? document
  ofCommand? command rest

/-- The request of a line. -/
def ofLine? (line : String) : Option Request := (Document.read? line).bind ofDocument?

/-- The operation that carries out a request, if the configuration in it is one. -/
def operation : Request → Except ConfigError Service.Operation
  | start id .null => .ok (.start id .empty)
  | start id config => (TunnelConfig.ofJson config).map (.start id)
  | stop id => .ok (.stop id)
  | status id => .ok (.overview id)
  | revoke => .ok .revoke

end Request

end TunnelKeeper.Control
