import TunnelKeeper.Text.Digits

/-!
# Addresses — hosts and sockets of the internet

Addresses of both families as data, with the one text of each: four decimal octets, or eight
hexadecimal groups of which the first longest run of at least two zeros is left out.  An address
of the first family inside the second is shown by its octets.
-/

namespace TunnelKeeper

/-- An address of four octets. -/
structure Ipv4 where
  a : UInt8
  b : UInt8
  c : UInt8
  d : UInt8
deriving DecidableEq, Repr, Inhabited

/-- An address of eight groups of sixteen bits. -/
structure Ipv6 where
  groups : List UInt16
  length_groups : groups.length = 8
deriving DecidableEq, Repr

/-- An address of either family. -/
inductive IpAddress where
  | v4 (ip : Ipv4)
  | v6 (ip : Ipv6)
deriving DecidableEq, Repr

/-- An address with a port.  The scope belongs to the second family and is zero in the first. -/
structure SocketAddress where
  ip : IpAddress
  port : UInt16
  scope : UInt32 := 0
deriving DecidableEq, Repr

namespace Ipv4

def octets (ip : Ipv4) : List UInt8 := [ip.a, ip.b, ip.c, ip.d]

def unspecified : Ipv4 := ⟨0, 0, 0, 0⟩

def chars (ip : Ipv4) : List Char :=
  Digits.ofNat ip.a.toNat ++ '.' :: Digits.ofNat ip.b.toNat ++ '.' :: Digits.ofNat ip.c.toNat ++
    '.' :: Digits.ofNat ip.d.toNat

end Ipv4

namespace Ipv6

/-- The address whose groups are the first eight of the list, with zeros for those that are
missing. -/
def ofGroups (groups : List UInt16) : Ipv6 where
  groups := (groups ++ List.replicate 8 0).take 8
  length_groups := by simp

def unspecified : Ipv6 := ofGroups []

/-- The bytes of a group, the high one first. -/
def groupBytes (g : UInt16) : List UInt8 := [(g >>> 8).toUInt8, g.toUInt8]

def octets (ip : Ipv6) : List UInt8 := ip.groups.flatMap groupBytes

/-- The group of two bytes, the high one first. -/
def group (high low : UInt8) : UInt16 := (high.toUInt16 <<< 8) ||| low.toUInt16

/-- The groups of a list of bytes. -/
def groupsOf : List UInt8 → List UInt16
  | high :: low :: rest => group high low :: groupsOf rest
  | _ => []

/-- The address of sixteen bytes. -/
def ofOctets (bytes : List UInt8) : Ipv6 := ofGroups (groupsOf bytes)

/-- The address of the first family that a mapped address stands for. -/
def mapped? (ip : Ipv6) : Option Ipv4 :=
  match ip.groups with
  | [0, 0, 0, 0, 0, 0xFFFF, g, h] =>
    some ⟨(g >>> 8).toUInt8, g.toUInt8, (h >>> 8).toUInt8, h.toUInt8⟩
  | _ => none

/-- A run of zero groups. -/
structure Run where
  start : Nat
  length : Nat

/-- The first longest run of zeros from `index` on, given the run that ends there and the
longest one before. -/
def longestRun : (index : Nat) → (current longest : Run) → List UInt16 → Run
  | _, _, longest, [] => longest
  | index, current, longest, g :: rest =>
    if g == 0 then
      let current := if current.length == 0 then ⟨index, 1⟩ else ⟨current.start, current.length + 1⟩
      let longest := if longest.length < current.length then current else longest
      longestRun (index + 1) current longest rest
    else longestRun (index + 1) ⟨0, 0⟩ longest rest

/-- Groups with colons between them. -/
def groupsChars : List UInt16 → List Char
  | [] => []
  | [g] => Digits.hexOfNat g.toNat
  | g :: rest => Digits.hexOfNat g.toNat ++ ':' :: groupsChars rest

def chars (ip : Ipv6) : List Char :=
  match ip.mapped? with
  | some v4 => [':', ':', 'f', 'f', 'f', 'f', ':'] ++ v4.chars
  | none =>
    let run := longestRun 0 ⟨0, 0⟩ ⟨0, 0⟩ ip.groups
    if 1 < run.length then
      groupsChars (ip.groups.take run.start) ++ ':' :: ':' ::
        groupsChars (ip.groups.drop (run.start + run.length))
    else groupsChars ip.groups

theorem octets_length (ip : Ipv6) : ip.octets.length = 16 := by
  obtain ⟨groups, h⟩ := ip
  have h2 : ∀ l : List UInt16, (l.flatMap groupBytes).length = 2 * l.length := by
    intro l
    induction l with
    | nil => rfl
    | cons g l ih => simp [List.flatMap_cons, groupBytes, ih]; omega
  simp [octets, h2, h]

end Ipv6

namespace IpAddress

def octets : IpAddress → List UInt8
  | v4 ip => ip.octets
  | v6 ip => ip.octets

def chars : IpAddress → List Char
  | v4 ip => ip.chars
  | v6 ip => ip.chars

def text (ip : IpAddress) : String := String.ofList ip.chars

def isV4 : IpAddress → Bool
  | v4 _ => true
  | v6 _ => false

/-- The address that stands for "any". -/
def isUnspecified : IpAddress → Bool
  | v4 ip => ip == .unspecified
  | v6 ip => ip == .unspecified

end IpAddress

namespace SocketAddress

def chars (address : SocketAddress) : List Char :=
  let port := ':' :: Digits.ofNat address.port.toNat
  match address.ip with
  | .v4 ip => ip.chars ++ port
  | .v6 ip =>
    let scope := if address.scope == 0 then [] else '%' :: Digits.ofNat address.scope.toNat
    '[' :: ip.chars ++ scope ++ ']' :: port

def text (address : SocketAddress) : String := String.ofList address.chars

/-- The address of four octets with a port. -/
def ofV4 (a b c d : UInt8) (port : UInt16) : SocketAddress := ⟨.v4 ⟨a, b, c, d⟩, port, 0⟩

end SocketAddress

end TunnelKeeper
