import TunnelKeeper.Net.Address

/-!
# Direct interfaces — programs use the local proxy themselves

Where no interface of the system is brought up, all there is to keep is the binding to the local
proxy.  Connecting replaces it; disconnecting and tearing down both forget it.
-/

namespace TunnelKeeper

/-- The binding to the local proxy and whether datagrams go through it. -/
structure DirectInterface where
  binding : Option (SocketAddress × Bool) := none
deriving DecidableEq, Repr

namespace DirectInterface

/-- There is nothing to bring up. -/
def establish (_ : DirectInterface) : Bool := true

/-- No permission is needed. -/
def isPrepared (_ : DirectInterface) : Bool := true

/-- Traffic is never pinned to a network. -/
def bindNetwork (_ : DirectInterface) (_network : Option Nat) : Bool := false

def connect (_ : DirectInterface) (proxy : SocketAddress) (udp : Bool) : DirectInterface :=
  ⟨some (proxy, udp)⟩

def disconnect (_ : DirectInterface) : DirectInterface := ⟨none⟩

def tearDown (i : DirectInterface) : DirectInterface := i.disconnect

/-- Where programs find the proxy. -/
def url? (i : DirectInterface) : Option String :=
  i.binding.map fun (proxy, _) => "socks5://" ++ proxy.text

end DirectInterface

end TunnelKeeper
