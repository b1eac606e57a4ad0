import TunnelKeeper.Dns.Name
import TunnelKeeper.Socks.Frame

/-!
# Queries — asking for the address of a name

A query is a message with a header of six numbers and one question.  It asks for recursion, for the
address type and for the internet class.
-/

namespace TunnelKeeper.Dns

open Socks (wordBytes)

/-- The header flags of a query that asks for recursion. -/
def recursionDesired : UInt16 := 0x0100

/-- The type of addresses of four octets, and the class of the internet. -/
def addressType : UInt16 := 1
def internetClass : UInt16 := 1

/-- The bytes of a query for a name. -/
def queryBytes (id : UInt16) (name : Name) : List UInt8 :=
  [id, recursionDesired, 1, 0, 0, 0].flatMap wordBytes ++ name.bytes ++
    [addressType, internetClass].flatMap wordBytes

/-- A query for the name of a text. -/
def query (id : UInt16) (name : String) : Except Check.Violation (List UInt8) :=
  match Name.read? name with
  | none => .error .badQueryName
  | some name =>
    if name.bytes.length ≤ longestName then .ok (queryBytes id name) else .error .longQueryName

end TunnelKeeper.Dns
