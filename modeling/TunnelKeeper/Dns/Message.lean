import TunnelKeeper.Dns.Query

/-!
# Messages — reading an answer

Of an answer only the id and the direction matter, but it has to be a whole message: a header, as
many questions and records as it announces, with names that end and records that hold the data of
their type.  Names may point back to earlier places of the message.
-/

namespace TunnelKeeper.Dns

open Socks (word)

/-- What matters of a message. -/
structure Header where
  id : UInt16
  isResponse : Bool
deriving DecidableEq, Repr

/-- The rest behind a name that starts at the front of `rest`; none where the name does not end or
is too long.  A pointer leads to a place before the name, and the name goes on there. -/
def skipName (whole : List UInt8) : (fuel size : Nat) → (rest : List UInt8) → Option (List UInt8)
  | 0, _, _ => none
  | _, _, [] => none
  | fuel + 1, size, n :: rest =>
    if longestName < size + 1 then none
    else if n == 0 then some rest
    else if n ≤ 63 then
      if n.toNat ≤ rest.length then skipName whole fuel (size + n.toNat + 1) (rest.drop n.toNat)
      else none
    else if 0xC0 ≤ n then
      match rest with
      | low :: rest =>
        let target := ((n &&& 0x3F).toNat <<< 8) + low.toNat
        let position := whole.length - rest.length - 2
        if target < position then
          (skipName whole fuel size (whole.drop target)).map fun _ => rest
        else none
      | [] => none
    else none

/-- The rest behind a question. -/
def skipQuestion (whole rest : List UInt8) : Option (List UInt8) := do
  let rest ← skipName whole (2 * whole.length + 1) 0 rest
  if 4 ≤ rest.length then return rest.drop 4 else none

/-- Whether the data of a record has the length that its type asks for. -/
def fits (type : UInt16) (length : Nat) : Bool :=
  if type == 1 then length == 4 else if type == 28 then length == 16 else true

/-- The rest behind a record. -/
def skipRecord (whole rest : List UInt8) : Option (List UInt8) := do
  match ← skipName whole (2 * whole.length + 1) 0 rest with
  | t₁ :: t₀ :: _ :: _ :: _ :: _ :: _ :: _ :: l₁ :: l₀ :: rest =>
    let length := (word l₁ l₀).toNat
    if length ≤ rest.length && (length == 0 || fits (word t₁ t₀) length) then
      return rest.drop length
    else none
  | _ => none

/-- The rest behind so many parts. -/
def skipMany (skip : List UInt8 → Option (List UInt8)) : Nat → List UInt8 → Option (List UInt8)
  | 0, rest => some rest
  | n + 1, rest => (skip rest).bind (skipMany skip n)

/-- What matters of the message that some bytes are. -/
def Header.read? (whole : List UInt8) : Option Header :=
  match whole with
  | i₁ :: i₀ :: f₁ :: _ :: q₁ :: q₀ :: a₁ :: a₀ :: n₁ :: n₀ :: d₁ :: d₀ :: rest => do
    let records := (word a₁ a₀).toNat + (word n₁ n₀).toNat + (word d₁ d₀).toNat
    let rest ← skipMany (skipQuestion whole) (word q₁ q₀).toNat rest
    let _ ← skipMany (skipRecord whole) records rest
    return ⟨word i₁ i₀, f₁ &&& 0x80 != 0⟩
  | _ => none

/-- What a client has to know of messages: how a query for a name is written, and what matters of
the message that some bytes are. -/
structure Codec where
  query : UInt16 → String → Except Check.Violation (List UInt8)
  header? : List UInt8 → Option Header

/-- Messages as they are described here. -/
def Codec.standard : Codec := ⟨Dns.query, Header.read?⟩

end TunnelKeeper.Dns
