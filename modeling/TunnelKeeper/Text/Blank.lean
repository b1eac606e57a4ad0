/-!
# Blanks — the characters that count as white space

The Unicode property `White_Space` as a table of ranges, and the trimming of texts by it.  The
table has every character that the language's own `Char.isWhitespace` knows and the ones beyond
ASCII as well.
-/

namespace TunnelKeeper.Blank

/-- The ranges of `White_Space`, in order. -/
def ranges : List (Nat × Nat) :=
  [(0x09, 0x0D), (0x20, 0x20), (0x85, 0x85), (0xA0, 0xA0), (0x1680, 0x1680), (0x2000, 0x200A),
   (0x2028, 0x2029), (0x202F, 0x202F), (0x205F, 0x205F), (0x3000, 0x3000)]

/-- A character of the property. -/
def isBlank (c : Char) : Bool :=
  ranges.any fun (low, high) => low ≤ c.toNat && c.toNat ≤ high

/-- Without the blanks at the front. -/
def trimFront (s : List Char) : List Char := s.dropWhile isBlank

/-- Without the blanks at either end. -/
def trim (s : List Char) : List Char := (trimFront (trimFront s).reverse).reverse

/-- Whether a text holds nothing but blanks. -/
def isBlankText (s : List Char) : Bool := s.all isBlank

end TunnelKeeper.Blank
