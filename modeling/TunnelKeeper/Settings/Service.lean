import TunnelKeeper.Settings.Parts
import TunnelKeeper.Text.Utf8
import TunnelKeeper.Toml.Reader
import TunnelKeeper.Workers.Pool

/-!
# Service settings — the configuration of the whole service

A document gives some of the settings and the rest keep their defaults, so an empty document is a
valid configuration.  Accepted settings have at least `Pool.leastSize` workers, a proxy program and
a positive route interval (`ServiceSettings.validate`).
-/

namespace TunnelKeeper.Settings

/-- The configuration of the service. -/
structure ServiceSettings where
  /-- How many workers run proxy starts and checks. -/
  poolSize : Nat := Pool.defaultSize
  /-- The file that keeps the last tunnel. -/
  statePath : String := "fos-tunnel-state.json"
  /-- Where clients connect to. -/
  controlAddr : SocketAddress := .ofV4 127 0 0 1 7070
  logLevel : String := "info"
  /-- The limit of each check. -/
  probeTimeoutMs : Option Nat := none
  /-- The limit of a proxy start with its probe. -/
  proxyStartTimeoutMs : Option Nat := none
  proxy : ProxySettings := {}
  checks : CheckSettings := {}
  route : RouteSettings := {}
deriving DecidableEq, Repr

/-- Why there are no settings. -/
inductive SettingsError where
  /-- The file could not be read. -/
  | unreadable
  /-- The document has no meaning. -/
  | malformed
  /-- The pool is too small. -/
  | smallPool (size : Nat)
  /-- There is no proxy program. -/
  | noProgram
  /-- The route is never looked at. -/
  | zeroInterval
deriving DecidableEq, Repr

namespace SettingsError

/-- What is wrong with settings that could be read. -/
def reason? : SettingsError → Option String
  | unreadable => none
  | malformed => none
  | smallPool size =>
    some ("pool_size must be at least " ++ Digits.text Pool.leastSize ++ ", got " ++
      Digits.text size)
  | noProgram => some "proxy.program is empty"
  | zeroInterval => some "route.interval_ms must be positive"

/-- The words for invalid settings. -/
def message? (e : SettingsError) : Option String :=
  e.reason?.map ("Invalid configuration: " ++ ·)

end SettingsError

namespace ServiceSettings

def fieldNames : List String :=
  ["pool_size", "state_path", "control_addr", "log_level", "probe_timeout_ms",
   "proxy_start_timeout_ms", "proxy", "checks", "route"]

/-- The settings a node gives. -/
def ofNode? (node : Node) : Option ServiceSettings := do
  let fields ← node.record? fieldNames
  let fallback : ServiceSettings := {}
  return {
    poolSize := ← fields.get "pool_size" (Node.natural? 64) fallback.poolSize
    statePath := ← fields.get "state_path" Node.text? fallback.statePath
    controlAddr := ← fields.get "control_addr" Node.address? fallback.controlAddr
    logLevel := ← fields.get "log_level" Node.text? fallback.logLevel
    probeTimeoutMs := ← fields.get "probe_timeout_ms" Node.limit? fallback.probeTimeoutMs
    proxyStartTimeoutMs :=
      ← fields.get "proxy_start_timeout_ms" Node.limit? fallback.proxyStartTimeoutMs
    proxy := ← fields.get "proxy" ProxySettings.ofNode? fallback.proxy
    checks := ← fields.get "checks" CheckSettings.ofNode? fallback.checks
    route := ← fields.get "route" RouteSettings.ofNode? fallback.route }

/-- Refuses settings the service cannot run with. -/
def validate (s : ServiceSettings) : Except SettingsError Unit :=
  if s.poolSize < Pool.leastSize then .error (.smallPool s.poolSize)
  else if s.proxy.program.isEmpty then .error .noProgram
  else if s.route.intervalMs == 0 then .error .zeroInterval
  else .ok ()

/-- The settings of a node, if they are valid. -/
def accept (node : Option Node) : Except SettingsError ServiceSettings :=
  match node.bind ofNode? with
  | none => .error .malformed
  | some settings => do
    settings.validate
    return settings

/-- The settings of a TOML text. -/
def ofToml (text : String) : Except SettingsError ServiceSettings :=
  accept ((Toml.read? text).map fun entries => .table (Node.ofTomlEntries entries))

/-- The settings of a JSON text. -/
def ofJson (text : String) : Except SettingsError ServiceSettings :=
  accept ((Json.Document.read? text).map Node.ofDocument)

/-- Whether a file of this name holds JSON: what follows the last point of the name says so, and a
point at the very front does not count. -/
def isJsonName (name : List Char) : Bool :=
  let ending := (name.reverse.takeWhile (· != '.')).reverse
  ending == ['j', 's', 'o', 'n'] && ending.length + 1 < name.length

/-- The settings of a file, given its name and its bytes. -/
def ofFile (name : String) (content : Option (List UInt8)) : Except SettingsError ServiceSettings :=
  match content.bind Utf8.text? with
  | none => .error .unreadable
  | some text => if isJsonName name.toList then ofJson text else ofToml text

/-- A limit as a value. -/
def limitJson : Option Nat → Json
  | some n => naturalJson n
  | none => .null

def toJson (s : ServiceSettings) : Json :=
  .object (Json.Entries.ofList
    [("pool_size", naturalJson s.poolSize), ("state_path", .text s.statePath),
     ("control_addr", .text s.controlAddr.text), ("log_level", .text s.logLevel),
     ("probe_timeout_ms", limitJson s.probeTimeoutMs),
     ("proxy_start_timeout_ms", limitJson s.proxyStartTimeoutMs), ("proxy", s.proxy.toJson),
     ("checks", s.checks.toJson), ("route", s.route.toJson)])

/-- A limit as an entry, where there is one. -/
def limitEntry (key : String) : Option Nat → List (String × Toml.Entry)
  | some n => [(key, .natural n)]
  | none => []

def toSheet (s : ServiceSettings) : Toml.Sheet where
  entries :=
    [("pool_size", .natural s.poolSize), ("state_path", .text s.statePath),
     ("control_addr", .text s.controlAddr.text), ("log_level", .text s.logLevel)] ++
    limitEntry "probe_timeout_ms" s.probeTimeoutMs ++
    limitEntry "proxy_start_timeout_ms" s.proxyStartTimeoutMs
  tables := [("proxy", s.proxy.toSheet), ("checks", s.checks.toSheet), ("route", s.route.toSheet)]

/-- The TOML text of the settings; empty where a number is too large to be written. -/
def toToml (s : ServiceSettings) : String := (s.toSheet.text?).getD ""

end ServiceSettings

end TunnelKeeper.Settings
