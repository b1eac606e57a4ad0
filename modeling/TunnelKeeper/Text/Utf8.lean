/-!
# UTF-8 — characters as bytes

`Utf8.encode` writes every character in one to four bytes.  `Utf8.decode?` accepts exactly the
written forms: no longer form than needed, no surrogate, nothing beyond the last character, no
sequence cut short.
-/

namespace TunnelKeeper.Utf8

/-- A byte that goes on with a character, carrying six bits. -/
def isTail (b : UInt8) : Bool := 0x80 ≤ b && b ≤ 0xBF

/-- The six bits of such a byte. -/
def bits (b : UInt8) : Nat := b.toNat - 0x80

/-- The text of bytes that form one. -/
def decode? : List UInt8 → Option (List Char)
  | [] => some []
  | a :: rest =>
    if a ≤ 0x7F then (decode? rest).map (Char.ofNat a.toNat :: ·)
    else if 0xC2 ≤ a && a ≤ 0xDF then
      match rest with
      | b :: rest =>
        if isTail b then
          (decode? rest).map (Char.ofNat ((a.toNat - 0xC0) * 0x40 + bits b) :: ·)
        else none
      | _ => none
    else if 0xE0 ≤ a && a ≤ 0xEF then
      match rest with
      | b :: c :: rest =>
        let n := (a.toNat - 0xE0) * 0x1000 + bits b * 0x40 + bits c
        if isTail b && isTail c && 0x800 ≤ n && (n < 0xD800 || 0xDFFF < n) then
          (decode? rest).map (Char.ofNat n :: ·)
        else none
      | _ => none
    else if 0xF0 ≤ a && a ≤ 0xF4 then
      match rest with
      | b :: c :: d :: rest =>
        let n := (a.toNat - 0xF0) * 0x40000 + bits b * 0x1000 + bits c * 0x40 + bits d
        if isTail b && isTail c && isTail d && 0x10000 ≤ n && n < 0x110000 then
          (decode? rest).map (Char.ofNat n :: ·)
        else none
      | _ => none
    else none

/-- The bytes of a character. -/
def encodeChar (c : Char) : List UInt8 :=
  let n := c.toNat
  let tail (shift : Nat) : UInt8 := (0x80 + n / Nat.pow 2 shift % 0x40).toUInt8
  if n < 0x80 then [n.toUInt8]
  else if n < 0x800 then [(0xC0 + n / 0x40).toUInt8, tail 0]
  else if n < 0x10000 then [(0xE0 + n / 0x1000).toUInt8, tail 6, tail 0]
  else [(0xF0 + n / 0x40000).toUInt8, tail 12, tail 6, tail 0]

/-- The bytes of a text. -/
def encode (s : List Char) : List UInt8 := s.flatMap encodeChar

/-- The text of bytes that form one. -/
def text? (bytes : List UInt8) : Option String := (decode? bytes).map String.ofList

/-- The bytes of a text. -/
def ofText (s : String) : List UInt8 := encode s.toList

example : decode? (encode ['a', 'é', '日', '😀']) = some ['a', 'é', '日', '😀'] := by decide

example : decode? [0xC0, 0x80] = none ∧ decode? [0xED, 0xA0, 0x80] = none := by decide

end TunnelKeeper.Utf8
