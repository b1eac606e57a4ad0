import TunnelKeeper.Json.Value
import TunnelKeeper.Settings.Node
import TunnelKeeper.Toml.Printer

/-!
# Parts — the settings of the proxy, the checks and the route

Each part has default values, is read from a node, and is written as a value and as a table of a
sheet.  Every field may be left out of a document, except the program of the proxy and its
arguments once the proxy is configured at all.
-/

namespace TunnelKeeper.Settings

open Node (Fields)

/-- How the local proxy is launched. -/
structure ProxySettings where
  /-- The program. -/
  program : String := "ss-local"
  /-- Its arguments, in which names between braces stand for parts of the tunnel. -/
  args : List String :=
    ["-s", "\x7bhost\x7d", "-p", "\x7bport\x7d", "-k", "\x7bpassword\x7d", "-m", "\x7bmethod\x7d",
     "-b", "\x7blocal_addr\x7d", "-l", "\x7blocal_port\x7d", "-u"]
  /-- Where it listens. -/
  localAddr : SocketAddress := .ofV4 127 0 0 1 1081
  /-- How long it may take until it listens. -/
  readyTimeoutMs : Nat := 5000
  /-- The cipher of tunnels that name none. -/
  defaultMethod : String := "chacha20-ietf-poly1305"
deriving DecidableEq, Repr

/-- What the checks talk to. -/
structure CheckSettings where
  dnsServer : SocketAddress := .ofV4 1 1 1 1 53
  dnsQueryName : String := "example.com"
  httpProbeHost : String := "example.com"
  httpProbePort : UInt16 := 80
  ioTimeoutMs : Nat := 10000
deriving DecidableEq, Repr

/-- How the default route is watched. -/
structure RouteSettings where
  target : SocketAddress := .ofV4 1 1 1 1 53
  intervalMs : Nat := 2000
deriving DecidableEq, Repr

/-- A number as a value. -/
def naturalJson (n : Nat) : Json := .number (.natural n)

namespace ProxySettings

def fieldNames : List String :=
  ["program", "args", "local_addr", "ready_timeout_ms", "default_method"]

def ofNode? (node : Node) : Option ProxySettings := do
  let fields ← node.record? fieldNames
  let fallback : ProxySettings := {}
  return {
    program := ← Fields.required fields "program" Node.text?
    args := ← Fields.required fields "args" Node.texts?
    localAddr := ← Fields.get fields "local_addr" Node.address? fallback.localAddr
    readyTimeoutMs :=
      ← Fields.get fields "ready_timeout_ms" (Node.natural? 64) fallback.readyTimeoutMs
    defaultMethod := ← Fields.get fields "default_method" Node.text? fallback.defaultMethod }

def toJson (s : ProxySettings) : Json :=
  .object (Json.Entries.ofList
    [("program", .text s.program), ("args", .list (s.args.map .text)),
     ("local_addr", .text s.localAddr.text), ("ready_timeout_ms", naturalJson s.readyTimeoutMs),
     ("default_method", .text s.defaultMethod)])

def toSheet (s : ProxySettings) : List (String × Toml.Entry) :=
  [("program", .text s.program), ("args", .texts s.args), ("local_addr", .text s.localAddr.text),
   ("ready_timeout_ms", .natural s.readyTimeoutMs), ("default_method", .text s.defaultMethod)]

end ProxySettings

namespace CheckSettings

def fieldNames : List String :=
  ["dns_server", "dns_query_name", "http_probe_host", "http_probe_port", "io_timeout_ms"]

def ofNode? (node : Node) : Option CheckSettings := do
  let fields ← node.record? fieldNames
  let fallback : CheckSettings := {}
  return {
    dnsServer := ← Fields.get fields "dns_server" Node.address? fallback.dnsServer
    dnsQueryName := ← Fields.get fields "dns_query_name" Node.text? fallback.dnsQueryName
    httpProbeHost := ← Fields.get fields "http_probe_host" Node.text? fallback.httpProbeHost
    httpProbePort := ← Fields.get fields "http_probe_port" Node.port? fallback.httpProbePort
    ioTimeoutMs := ← Fields.get fields "io_timeout_ms" (Node.natural? 64) fallback.ioTimeoutMs }

def toJson (s : CheckSettings) : Json :=
  .object (Json.Entries.ofList
    [("dns_server", .text s.dnsServer.text), ("dns_query_name", .text s.dnsQueryName),
     ("http_probe_host", .text s.httpProbeHost),
     ("http_probe_port", naturalJson s.httpProbePort.toNat),
     ("io_timeout_ms", naturalJson s.ioTimeoutMs)])

def toSheet (s : CheckSettings) : List (String × Toml.Entry) :=
  [("dns_server", .text s.dnsServer.text), ("dns_query_name", .text s.dnsQueryName),
   ("http_probe_host", .text s.httpProbeHost), ("http_probe_port", .natural s.httpProbePort.toNat),
   ("io_timeout_ms", .natural s.ioTimeoutMs)]

end CheckSettings

namespace RouteSettings

def fieldNames : List String := ["target", "interval_ms"]

def ofNode? (node : Node) : Option RouteSettings := do
  let fields ← node.record? fieldNames
  let fallback : RouteSettings := {}
  return {
    target := ← Fields.get fields "target" Node.address? fallback.target
    intervalMs := ← Fields.get fields "interval_ms" (Node.natural? 64) fallback.intervalMs }

def toJson (s : RouteSettings) : Json :=
  .object (Json.Entries.ofList
    [("target", .text s.target.text), ("interval_ms", naturalJson s.intervalMs)])

def toSheet (s : RouteSettings) : List (String × Toml.Entry) :=
  [("target", .text s.target.text), ("interval_ms", .natural s.intervalMs)]

end RouteSettings

end TunnelKeeper.Settings
