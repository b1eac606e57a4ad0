import TunnelKeeper.Json.Record

/-!
# Statuses and outcomes — the words the host application is told

The state of the one tunnel (`Status`), the outcome of a start (`ErrorCode`) and the verdict of a
probe (`ProbeResult`).  Each status and code has a number and a name for the host, and these never
change.
-/

namespace TunnelKeeper

/-- The state of the tunnel. -/
inductive Status where
  /-- The tunnel is up and traffic flows. -/
  | connected
  /-- No tunnel is active. -/
  | disconnected
  /-- A tunnel is active but the network under it is gone. -/
  | reconnecting
  /-- A start is in progress. -/
  | connecting
deriving DecidableEq, Repr, Inhabited

namespace Status

/-- The number the host is told. -/
def code : Status → Nat
  | connected => 0
  | disconnected => 1
  | reconnecting => 2
  | connecting => 3

/-- The name in documents. -/
def name : Status → String
  | connected => "connected"
  | disconnected => "disconnected"
  | reconnecting => "reconnecting"
  | connecting => "connecting"

/-- The name shown to a person. -/
def title : Status → String
  | connected => "Connected"
  | disconnected => "Disconnected"
  | reconnecting => "Reconnecting"
  | connecting => "Connecting"

def all : List Status := [connected, disconnected, reconnecting, connecting]

def ofName? (name : String) : Option Status := all.find? (·.name == name)

def isConnected (s : Status) : Bool := s == connected

/-- The status a document names. -/
def ofDocument? : Json.Document → Option Status := Json.Document.choice? ofName?

end Status

/-- The outcome of a start. -/
inductive ErrorCode where
  | noError
  | unexpected
  | vpnPermissionNotGranted
  | invalidServerCredentials
  /-- The tunnel works, but for connections only. -/
  | udpRelayNotEnabled
  | serverUnreachable
  | vpnStartFailure
  | illegalServerConfiguration
  | proxyStartFailure
  | configureSystemProxyFailure
deriving DecidableEq, Repr, Inhabited

namespace ErrorCode

/-- The number the host is told. -/
def code : ErrorCode → Nat
  | noError => 0
  | unexpected => 1
  | vpnPermissionNotGranted => 2
  | invalidServerCredentials => 3
  | udpRelayNotEnabled => 4
  | serverUnreachable => 5
  | vpnStartFailure => 6
  | illegalServerConfiguration => 7
  | proxyStartFailure => 8
  | configureSystemProxyFailure => 9

/-- The name in documents. -/
def name : ErrorCode → String
  | noError => "no_error"
  | unexpected => "unexpected"
  | vpnPermissionNotGranted => "vpn_permission_not_granted"
  | invalidServerCredentials => "invalid_server_credentials"
  | udpRelayNotEnabled => "udp_relay_not_enabled"
  | serverUnreachable => "server_unreachable"
  | vpnStartFailure => "vpn_start_failure"
  | illegalServerConfiguration => "illegal_server_configuration"
  | proxyStartFailure => "proxy_start_failure"
  | configureSystemProxyFailure => "configure_system_proxy_failure"

/-- The name shown to a person. -/
def title : ErrorCode → String
  | noError => "NoError"
  | unexpected => "Unexpected"
  | vpnPermissionNotGranted => "VpnPermissionNotGranted"
  | invalidServerCredentials => "InvalidServerCredentials"
  | udpRelayNotEnabled => "UdpRelayNotEnabled"
  | serverUnreachable => "ServerUnreachable"
  | vpnStartFailure => "VpnStartFailure"
  | illegalServerConfiguration => "IllegalServerConfiguration"
  | proxyStartFailure => "ProxyStartFailure"
  | configureSystemProxyFailure => "ConfigureSystemProxyFailure"

def all : List ErrorCode :=
  [noError, unexpected, vpnPermissionNotGranted, invalidServerCredentials, udpRelayNotEnabled,
   serverUnreachable, vpnStartFailure, illegalServerConfiguration, proxyStartFailure,
   configureSystemProxyFailure]

def ofName? (name : String) : Option ErrorCode := all.find? (·.name == name)

/-- The name with the number behind it. -/
def display (c : ErrorCode) : String := c.title ++ "(" ++ Digits.text c.code ++ ")"

/-- Whether a start goes on after this outcome. -/
def isContinuable (c : ErrorCode) : Bool := c == noError || c == udpRelayNotEnabled

/-- The code a document names. -/
def ofDocument? : Json.Document → Option ErrorCode := Json.Document.choice? ofName?

end ErrorCode

/-- The verdict of a probe. -/
inductive ProbeResult where
  /-- Connections and datagrams both work. -/
  | usable
  /-- Connections work, datagrams are not relayed. -/
  | usableNoUdp
  /-- The server answers but rejects the credentials. -/
  | invalidCredentials
  /-- Nothing conclusive; the server counts as unreachable. -/
  | unreachable
deriving DecidableEq, Repr, Inhabited

namespace ProbeResult

def name : ProbeResult → String
  | usable => "usable"
  | usableNoUdp => "usable_no_udp"
  | invalidCredentials => "invalid_credentials"
  | unreachable => "unreachable"

def all : List ProbeResult := [usable, usableNoUdp, invalidCredentials, unreachable]

def ofName? (name : String) : Option ProbeResult := all.find? (·.name == name)

def isUsable (r : ProbeResult) : Bool := r == usable || r == usableNoUdp

/-- The outcome of a start whose probe gave this verdict. -/
def errorCode : ProbeResult → ErrorCode
  | usable => .noError
  | usableNoUdp => .udpRelayNotEnabled
  | invalidCredentials => .invalidServerCredentials
  | unreachable => .serverUnreachable

/-- A start goes on exactly after a usable verdict. -/
theorem isContinuable_errorCode (r : ProbeResult) : r.errorCode.isContinuable = r.isUsable := by
  cases r <;> rfl

end ProbeResult

end TunnelKeeper
