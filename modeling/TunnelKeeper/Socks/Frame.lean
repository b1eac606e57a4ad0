import TunnelKeeper.Check.Error
import TunnelKeeper.Net.Address

/-!
# Frames — addresses and datagram headers of the SOCKS protocol

An address is a byte for its kind, its octets and the port.  A datagram starts with three bytes
that say nothing here, then an address of one of three kinds, then the payload.
-/

namespace TunnelKeeper.Socks

/-- The bytes of a sixteen-bit number, the high one first. -/
def wordBytes (n : UInt16) : List UInt8 := [(n >>> 8).toUInt8, n.toUInt8]

/-- The number of two bytes, the high one first. -/
def word (high low : UInt8) : UInt16 := (high.toUInt16 <<< 8) ||| low.toUInt16

/-- The byte that says which kind of address follows. -/
def kindByte : IpAddress → UInt8
  | .v4 _ => 1
  | .v6 _ => 4

/-- The byte for a domain name as an address. -/
def domainByte : UInt8 := 3

/-- An address as bytes. -/
def encodeAddress (address : SocketAddress) : List UInt8 :=
  kindByte address.ip :: address.ip.octets ++ wordBytes address.port

/-- How many bytes an address of a kind takes; `next` holds what follows the kind. -/
def addressLength (kind : UInt8) (next : List UInt8) : Except Check.Violation Nat :=
  if kind == 1 then .ok 4
  else if kind == 4 then .ok 16
  else if kind == 3 then
    match next with
    | [] => .error .shortDatagram
    | n :: _ => .ok (1 + n.toNat)
  else .error .addressType

/-- The payload of a datagram. -/
def stripHeader : List UInt8 → Except Check.Violation (List UInt8)
  | _ :: _ :: _ :: kind :: rest => do
    let length := (← addressLength kind rest) + 2
    if length ≤ rest.length then return rest.drop length else .error .shortDatagram
  | _ => .error .shortDatagram

/-- A datagram for an address. -/
def datagram (address : SocketAddress) (payload : List UInt8) : List UInt8 :=
  [0, 0, 0] ++ encodeAddress address ++ payload

example : stripHeader (datagram (.ofV4 1 1 1 1 53) [0xAA]) = .ok [0xAA] := rfl

end TunnelKeeper.Socks
