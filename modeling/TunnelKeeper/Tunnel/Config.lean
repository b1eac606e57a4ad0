import TunnelKeeper.Json.Value
import TunnelKeeper.Text.Blank
import TunnelKeeper.Text.Digits

/-!
# Tunnel configurations — the endpoint of a tunnel

A configuration is an object with any entries.  Five keys are read here: `host`, `port`,
`password`, `method` and `name`; everything else is passed on untouched.  A port is a whole number
or a numeral in a text (`Port.ofText?`), from 1 to 65535.
-/

namespace TunnelKeeper

/-- What can be wrong with a configuration. -/
inductive ConfigError where
  | missingKey (key : String)
  | invalidValue (key : String)
  | invalidPort
  | notAnObject
deriving DecidableEq, Repr

/-- The words for an error. -/
def ConfigError.message : ConfigError → String
  | missingKey key => "Missing config key: " ++ key
  | invalidValue key => "Invalid value for config key: " ++ key
  | invalidPort => "Invalid server port"
  | notAnObject => "Tunnel config must be a JSON object"

namespace Port

/-- A port is a positive number of sixteen bits. -/
def ofNat? (n : Nat) : Option UInt16 := if 0 < n && n < 65536 then some n.toUInt16 else none

/-- The numeral of a text: blanks around it, one plus sign and leading zeros are allowed. -/
def numeral (s : List Char) : List Char :=
  match Blank.trim s with
  | '+' :: rest => rest
  | rest => rest

/-- The port a text spells. -/
def ofText? (s : String) : Option UInt16 :=
  (Digits.readWord? (numeral s.toList)).bind fun n => ofNat? n.toNat

/-- The port a value stands for. -/
def ofJson? : Json → Option UInt16
  | .number (.natural n) => ofNat? n
  | .text s => ofText? s
  | _ => none

end Port

/-- The configuration of a tunnel. -/
structure TunnelConfig where
  entries : Json.Entries
deriving Repr, Inhabited

namespace TunnelConfig

/-- The name shown for a tunnel that has neither a name nor a host. -/
def defaultServerName : String := "fOS Tunnel"

def empty : TunnelConfig := ⟨[]⟩

/-- The configuration a value is; anything but an object is refused. -/
def ofJson : Json → Except ConfigError TunnelConfig
  | .object entries => .ok ⟨entries⟩
  | _ => .error .notAnObject

/-- Sets a key. -/
def set (config : TunnelConfig) (key : String) (value : Json) : TunnelConfig :=
  ⟨config.entries.insert key value⟩

def get? (config : TunnelConfig) (key : String) : Option Json := config.entries.find? key

def isEmpty (config : TunnelConfig) : Bool := config.entries.isEmpty

/-- The number of keys. -/
def size (config : TunnelConfig) : Nat := config.entries.length

def toJson (config : TunnelConfig) : Json := .object config.entries

/-- Whether two configurations hold the same values. -/
def same (a b : TunnelConfig) : Bool := Json.sameEntries a.entries b.entries

/-- A text under a key that must not be empty. -/
def required (config : TunnelConfig) (key : String) : Except ConfigError String :=
  match config.get? key with
  | some (.text s) => if s.isEmpty then .error (.invalidValue key) else .ok s
  | some _ => .error (.invalidValue key)
  | none => .error (.missingKey key)

/-- The host of the server. -/
def host (config : TunnelConfig) : Except ConfigError String := config.required "host"

/-- The port of the server. -/
def port (config : TunnelConfig) : Except ConfigError UInt16 :=
  match config.get? "port" with
  | none => .error (.missingKey "port")
  | some value =>
    match Port.ofJson? value with
    | some port => .ok port
    | none => .error .invalidPort

def password (config : TunnelConfig) : Except ConfigError String := config.required "password"

/-- The cipher, where the configuration names one. -/
def method? (config : TunnelConfig) : Option String := (config.get? "method").bind Json.text?

/-- The name that is shown: the name, else the host, else a fixed one. -/
def serverName (config : TunnelConfig) : String :=
  match ((config.get? "name").bind Json.text?).filter (!·.isEmpty) with
  | some name => name
  | none =>
    match config.host with
    | .ok host => host
    | .error _ => defaultServerName

/-- Checks the keys every tunnel needs: host, port, password, in this order. -/
def validate (config : TunnelConfig) : Except ConfigError Unit := do
  let _ ← config.host
  let _ ← config.port
  let _ ← config.password
  return ()

/-- Host and port of a complete configuration. -/
def endpoint (config : TunnelConfig) : Except ConfigError (String × UInt16) := do
  config.validate
  return (← config.host, ← config.port)

end TunnelConfig

end TunnelKeeper
