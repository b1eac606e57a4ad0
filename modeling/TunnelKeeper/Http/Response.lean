import TunnelKeeper.Text.Utf8

/-!
# HTTP — one request without a body and the head of its response

The request asks for the head of the root page.  A response is read byte by byte (`Head.step`): a
status line of version 1.0 or 1.1 with a status of three digits, fields, and an empty line.  Lines
may end in a line feed alone.  Interim responses are skipped, except the one that switches
protocols.
-/

namespace TunnelKeeper.Http

/-- A character in bytes. -/
def byte (c : Char) : UInt8 := c.toNat.toUInt8

def bytes (s : String) : List UInt8 := Utf8.ofText s

/-- A byte that may stand in a field's value. -/
def isFieldByte (b : UInt8) : Bool := b == 9 || (32 ≤ b && b != 127)

/-- A byte that may stand in a field's name. -/
def isTokenByte (b : UInt8) : Bool :=
  (48 ≤ b && b ≤ 57) || (65 ≤ b && b ≤ 90) || (97 ≤ b && b ≤ 122) ||
    "!#$%&'*+-.^_|~\x60".toList.any fun c => byte c == b

/-- The request, where the host can be named in a field. -/
def headRequest? (host : String) : Option (List UInt8) :=
  if (bytes host).all isFieldByte then
    some (bytes "HEAD / HTTP/1.1\r\nhost: " ++ bytes host ++ bytes "\r\nconnection: close\r\n\r\n")
  else none

/-- Where in the head of a response the reading stands. -/
inductive Head where
  /-- Before the head, where empty lines may be. -/
  | start
  | startReturn
  /-- Within the version, so many bytes of which are read. -/
  | version (count : Nat)
  /-- Behind the version. -/
  | versionEnd
  /-- Within the status. -/
  | status (digits number : Nat)
  /-- Behind the status. -/
  | statusEnd (number : Nat)
  | reason (number : Nat)
  | reasonReturn (number : Nat)
  /-- At the start of a line after the first. -/
  | line (number : Nat)
  | name (number : Nat)
  | value (number : Nat)
  | valueReturn (number : Nat)
  | lastReturn (number : Nat)
  /-- The head is read. -/
  | complete (number : Nat)
  | malformed
deriving DecidableEq, Repr

namespace Head

/-- The bytes that every version starts with. -/
def versionBytes : List UInt8 := bytes "HTTP/1."

/-- A digit. -/
def digit? (b : UInt8) : Option Nat := if 48 ≤ b && b ≤ 57 then some (b.toNat - 48) else none

/-- The reading after one more byte. -/
def step (h : Head) (b : UInt8) : Head :=
  match h with
  | start =>
    if b == 10 then start
    else if b == 13 then startReturn
    else if versionBytes.head? == some b then version 1
    else malformed
  | startReturn => if b == 10 then start else malformed
  | version count =>
    if count < versionBytes.length then
      if versionBytes[count]? == some b then version (count + 1) else malformed
    else if b == 48 || b == 49 then versionEnd
    else malformed
  | versionEnd => if b == 32 then status 0 0 else malformed
  | status digits number =>
    match digit? b with
    | some d =>
      let number := 10 * number + d
      if digits == 2 then statusEnd number else status (digits + 1) number
    | none => malformed
  | statusEnd number =>
    if b == 32 then reason number
    else if b == 13 then reasonReturn number
    else if b == 10 then line number
    else malformed
  | reason number =>
    if b == 13 then reasonReturn number
    else if b == 10 then line number
    else if isFieldByte b then reason number
    else malformed
  | reasonReturn number => if b == 10 then line number else malformed
  | line number =>
    if b == 13 then lastReturn number
    else if b == 10 then complete number
    else if isTokenByte b then name number
    else malformed
  | name number =>
    if b == 58 then value number else if isTokenByte b then name number else malformed
  | value number =>
    if b == 13 then valueReturn number
    else if b == 10 then line number
    else if isFieldByte b then value number
    else malformed
  | valueReturn number => if b == 10 then line number else malformed
  | lastReturn number => if b == 10 then complete number else malformed
  | complete number => complete number
  | malformed => malformed

/-- A response that another one follows. -/
def isInterim (number : Nat) : Bool := 100 ≤ number && number < 200 && number != 101

/-- The reading after one more byte, where interim responses are skipped and a status below one
hundred is none. -/
def stepAll (h : Head) (b : UInt8) : Head :=
  match h.step b with
  | complete number =>
    if isInterim number then start else if number < 100 then malformed else complete number
  | h => h

/-- The reading of some bytes. -/
def read (bytes : List UInt8) : Head := bytes.foldl stepAll start

/-- Whether nothing that follows can change the reading. -/
def isDecided : Head → Bool
  | complete _ => true
  | malformed => true
  | _ => false

/-- The status of a head that is read. -/
def status? : Head → Option Nat
  | complete number => some number
  | _ => none

end Head

example :
    (Head.read (bytes "HTTP/1.1 100 Continue\r\n\r\nHTTP/1.0 204\n\n")).status? = some 204 := by
  decide +kernel

end TunnelKeeper.Http
