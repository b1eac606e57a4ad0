import TunnelKeeper.Net.Address

/-!
# Route tables — networks by the address of the default route

Every local address the default route has had stands for a network.  Networks are numbered from one
in the order in which they were first seen and keep their number.  A change of the route is told as
events: the new network is available, and then the old one is lost.
-/

namespace TunnelKeeper

/-- The number of a network. -/
abbrev NetworkId := Nat

/-- How a network stands. -/
inductive NetworkState where
  | connecting
  | connected
  | disconnected
deriving DecidableEq, Repr

/-- The name of a state. -/
def NetworkState.name : NetworkState → String
  | connecting => "connecting"
  | connected => "connected"
  | disconnected => "disconnected"

/-- The state of a name. -/
def NetworkState.ofName? (s : String) : Option NetworkState :=
  [connecting, connected, disconnected].find? (·.name == s)

/-- A change of the networks. -/
inductive NetworkEvent where
  | available (id : NetworkId)
  | lost (id : NetworkId)
deriving DecidableEq, Repr

/-- The networks seen so far and the present one. -/
structure RouteTable where
  /-- The addresses in the order in which they were first seen. -/
  known : List IpAddress := []
  current : Option IpAddress := none
deriving DecidableEq, Repr

namespace RouteTable

/-- The number of an address that is known; one beyond the last number otherwise. -/
def idOf (table : RouteTable) (ip : IpAddress) : NetworkId := table.known.idxOf ip + 1

/-- The table that knows an address. -/
def learn (table : RouteTable) (ip : IpAddress) : RouteTable :=
  if table.known.contains ip then table else { table with known := table.known ++ [ip] }

/-- Moves to the next route; gives the events that tell the change. -/
def transition (table : RouteTable) (next : Option IpAddress) : RouteTable × List NetworkEvent :=
  if next = table.current then (table, [])
  else
    let table' := next.elim table table.learn
    let gained := next.elim [] fun ip => [.available (table'.idOf ip)]
    let gone := table.current.elim [] fun ip => [.lost (table'.idOf ip)]
    ({ table' with current := next }, gained ++ gone)

/-- How a network stands; nothing is known about numbers that were not given. -/
def stateOf (table : RouteTable) (id : NetworkId) : Option NetworkState :=
  match id with
  | 0 => none
  | n + 1 =>
    table.known[n]?.map fun ip =>
      if table.current = some ip then .connected else .disconnected

/-- How the present network stands. -/
def activeState (table : RouteTable) : Option NetworkState := table.current.map fun _ => .connected

end RouteTable

end TunnelKeeper
