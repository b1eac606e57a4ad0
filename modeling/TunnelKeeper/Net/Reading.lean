import TunnelKeeper.Net.Address

/-!
# Reading addresses — the texts that name an address

Octets are one to three decimal digits without a leading zero, groups one to four hexadecimal
digits.  At most one `::` stands for at least one zero group; the last two groups may be written
as four octets, but not in front of `::`.  A port is any number of digits whose value fits; a
scope likewise.  A text names an address only if the reader uses all of it.
-/

namespace TunnelKeeper.Net

/-- A number of at most `width` digits, where longer runs of digits are refused. -/
def readNarrow (digit? : Char → Option Nat) (base width : Nat) (zeros : Bool) (s : List Char) :
    Option (Nat × List Char) :=
  let digits := s.takeWhile fun c => (digit? c).isSome
  let rest := s.dropWhile fun c => (digit? c).isSome
  if digits.isEmpty || width < digits.length then none
  else if !zeros && digits.head? == some '0' && 1 < digits.length then none
  else
    some (digits.foldl (fun total c => base * total + (digit? c).getD 0) 0, rest)

/-- What a decimal digit is worth. -/
def decimal? (c : Char) : Option Nat := if Digits.isDigit c then some (Digits.worth c) else none

/-- One octet. -/
def readOctet (s : List Char) : Option (UInt8 × List Char) := do
  let (n, rest) ← readNarrow decimal? 10 3 false s
  if n < 256 then return (n.toUInt8, rest) else none

/-- One group. -/
def readGroup (s : List Char) : Option (UInt16 × List Char) := do
  let (n, rest) ← readNarrow Digits.hexWorth? 16 4 true s
  return (n.toUInt16, rest)

/-- The rest after a character that must be there. -/
def expect (c : Char) : List Char → Option (List Char)
  | [] => none
  | d :: rest => if d == c then some rest else none

/-- A number of any length that is below `bound`. -/
def readBelow (bound : Nat) (s : List Char) : Option (Nat × List Char) :=
  let digits := s.takeWhile Digits.isDigit
  let rest := s.dropWhile Digits.isDigit
  if digits.isEmpty then none
  else
    let n := Digits.value digits
    if n < bound then some (n, rest) else none

/-- Four octets with points between them. -/
def readIpv4 (s : List Char) : Option (Ipv4 × List Char) := do
  let (a, s) ← readOctet s
  let (b, s) ← readOctet (← expect '.' s)
  let (c, s) ← readOctet (← expect '.' s)
  let (d, s) ← readOctet (← expect '.' s)
  return (⟨a, b, c, d⟩, s)

/-- A part of an address that starts after a colon, unless it is the first part. -/
def afterColon {α : Type} (first : Bool) (part : List Char → Option α) (s : List Char) : Option α :=
  if first then part s else (expect ':' s).bind part

/-- As many groups as there are, at most `limit`; says whether they end in four octets. -/
def readGroups : (limit : Nat) → (first : Bool) → List Char → List UInt16 × Bool × List Char
  | 0, _, s => ([], false, s)
  | limit + 1, first, s =>
    let octets := if limit == 0 then none else afterColon first readIpv4 s
    match octets with
    | some (ip, rest) => ([Ipv6.group ip.a ip.b, Ipv6.group ip.c ip.d], true, rest)
    | none =>
      match afterColon first readGroup s with
      | none => ([], false, s)
      | some (g, rest) =>
        let (groups, octets, rest) := readGroups limit false rest
        (g :: groups, octets, rest)

/-- Groups, possibly with `::` among them. -/
def readIpv6 (s : List Char) : Option (Ipv6 × List Char) := do
  let (head, octets, s) := readGroups 8 true s
  if head.length == 8 then return (Ipv6.ofGroups head, s)
  else if octets then none
  else
    let s ← expect ':' (← expect ':' s)
    let (tail, _, s) := readGroups (7 - head.length) true s
    let zeros := List.replicate (8 - head.length - tail.length) 0
    return (Ipv6.ofGroups (head ++ zeros ++ tail), s)

/-- A port after its colon. -/
def readPort (s : List Char) : Option (UInt16 × List Char) := do
  let (n, s) ← readBelow 65536 (← expect ':' s)
  return (n.toUInt16, s)

/-- A scope after its mark. -/
def readScope (s : List Char) : Option (UInt32 × List Char) := do
  let (n, s) ← readBelow (Nat.pow 2 32) (← expect '%' s)
  return (n.toUInt32, s)

/-- The first reading that uses the whole of a text; a later one is tried only where the earlier
one does not apply at all. -/
def whole? {α : Type} (first second : List Char → Option (α × List Char)) (s : List Char) :
    Option α :=
  match (first s).orElse fun _ => second s with
  | some (a, []) => some a
  | _ => none

end TunnelKeeper.Net

namespace TunnelKeeper

/-- The host address a text names. -/
def IpAddress.read? (s : String) : Option IpAddress :=
  Net.whole? (fun s => (Net.readIpv4 s).map fun (ip, rest) => (.v4 ip, rest))
    (fun s => (Net.readIpv6 s).map fun (ip, rest) => (.v6 ip, rest)) s.toList

/-- The socket address a text names. -/
def SocketAddress.read? (s : String) : Option SocketAddress :=
  Net.whole?
    (fun s => do
      let (ip, s) ← Net.readIpv4 s
      let (port, s) ← Net.readPort s
      return (⟨.v4 ip, port, 0⟩, s))
    (fun s => do
      let (ip, s) ← Net.readIpv6 (← Net.expect '[' s)
      let (scope, s) := (Net.readScope s).getD (0, s)
      let (port, s) ← Net.readPort (← Net.expect ']' s)
      return (⟨.v6 ip, port, scope⟩, s))
    s.toList

end TunnelKeeper
