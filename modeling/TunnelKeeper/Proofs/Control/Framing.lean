import TunnelKeeper.Control.Connection
import TunnelKeeper.Proofs.Text.Numerals
import TunnelKeeper.Proofs.Text.Utf8

/-!
# Framing — one line for each message

The compact text of a value holds no control character: those in its texts are escaped, and the
printer adds none (`Json.legible_chars`).  So of the bytes of a message only the last one ends a
line, and whoever reads lines from the bytes of messages reads the text of one message from each
(`readLines_messages`), whatever characters their texts contain.
-/

namespace TunnelKeeper

/-! ### Texts without control characters -/

/-- A text without control characters. -/
def Legible (s : List Char) : Prop := ∀ c ∈ s, 0x20 ≤ c.toNat

instance (s : List Char) : Decidable (Legible s) :=
  List.decidableBAll (fun c : Char => 0x20 ≤ c.toNat) s

namespace Legible

variable {s t : List Char}

theorem append (hs : Legible s) (ht : Legible t) : Legible (s ++ t) :=
  List.forall_mem_append.2 ⟨hs, ht⟩

theorem cons {c : Char} (hc : 0x20 ≤ c.toNat) (hs : Legible s) : Legible (c :: s) :=
  List.forall_mem_cons.2 ⟨hc, hs⟩

theorem of_subset (hs : Legible s) (h : ∀ c ∈ t, c ∈ s) : Legible t := fun c hc => hs c (h c hc)

theorem replicate {c : Char} (hc : 0x20 ≤ c.toNat) (n : Nat) : Legible (List.replicate n c) := by
  intro d hd
  rw [(List.mem_replicate.1 hd).2]
  exact hc

end Legible

theorem Digits.legible_ofNat (n : Nat) : Legible (Digits.ofNat n) := by
  intro c hc
  have hdigit := Digits.isDigit_of_mem_ofNat hc
  rw [Digits.isDigit, Bool.and_eq_true, decide_eq_true_eq, decide_eq_true_eq] at hdigit
  have hzero : '0'.toNat ≤ c.toNat := hdigit.1
  exact Nat.le_trans (by decide) hzero

namespace Double

theorem legible_positional {digits : List Char} (h : Legible digits) (first : Int) :
    Legible (positional digits first) := by
  unfold positional
  split
  · exact (Legible.replicate (by decide) _).cons (by decide) |>.cons (by decide) |>.append h
  dsimp only
  split
  · exact h.append (.replicate (by decide) _) |>.append (by decide)
  · refine .append (h.of_subset fun c => List.mem_of_mem_take) (.cons (by decide) ?_)
    exact h.of_subset fun c => List.mem_of_mem_drop

theorem legible_scientific {digits : List Char} (h : Legible digits) (first : Int) :
    Legible (scientific digits first) := by
  have power : Legible ((if first < 0 then ['e', '-'] else ['e', '+']) ++
      Digits.ofNat first.natAbs) := by
    refine .append ?_ (Digits.legible_ofNat _)
    split <;> decide
  unfold scientific
  dsimp only
  match digits with
  | [] => exact power
  | [d] => exact .cons (h d List.mem_cons_self) power
  | d :: e :: rest =>
      obtain ⟨hd, hrest⟩ := List.forall_mem_cons.1 h
      exact .append (.cons hd (.cons (by decide) hrest)) power

theorem legible_chars (d : Double) : Legible d.chars := by
  have sign : Legible (if d.negative then ['-'] else []) := by split <;> decide
  unfold chars
  dsimp only
  split
  · exact sign.append (by decide)
  refine sign.append ?_
  split
  · exact legible_positional (Digits.legible_ofNat _) _
  · exact legible_scientific (Digits.legible_ofNat _) _

end Double

namespace Json

/-- Whatever a character is, it is escaped where it has to be. -/
theorem legible_escape (c : Char) : Legible (escape c) := by
  have hex : ∀ n < 0x20, Legible (Digits.hexPadded 4 n) := by decide
  unfold escape
  split
  case h_8 =>
    split
    case isTrue hc => exact .cons (by decide) (.cons (by decide) (hex _ hc))
    case isFalse hc => exact .cons (Nat.le_of_not_lt hc) nofun
  all_goals decide

theorem legible_quoted (s : String) : Legible (quoted s) := by
  refine .append (.cons (by decide) fun c hc => ?_) (by decide)
  obtain ⟨d, -, hc⟩ := List.mem_flatMap.1 hc
  exact legible_escape d c hc

theorem Number.legible_chars (n : Number) : Legible n.chars := by
  cases n with
  | natural n => exact Digits.legible_ofNat n
  | negative size => exact .cons (by decide) (Digits.legible_ofNat size)
  | double d => exact d.legible_chars

mutual

/-- **The compact text of a value holds no control character.** -/
theorem legible_chars (json : Json) : Legible json.chars := by
  match json with
  | .null | .bool true | .bool false =>
      rw [chars]
      decide
  | .number n => exact n.legible_chars
  | .text s => exact legible_quoted s
  | .list items =>
      rw [chars]
      exact .append (.cons (by decide) (legible_items items)) (by decide)
  | .object entries =>
      rw [chars]
      exact .append (.cons (by decide) (legible_entries entries)) (by decide)

theorem legible_items (items : List Json) : Legible (itemsChars items) := by
  match items with
  | [] =>
      rw [itemsChars]
      nofun
  | [item] =>
      rw [itemsChars]
      exact legible_chars item
  | item :: next :: items =>
      rw [itemsChars]
      · exact .append (legible_chars item) (.cons (by decide) (legible_items (next :: items)))
      · exact List.cons_ne_nil _ _

theorem legible_entries (entries : List (String × Json)) : Legible (entriesChars entries) := by
  match entries with
  | [] =>
      rw [entriesChars]
      nofun
  | [(key, value)] =>
      rw [entriesChars]
      exact .append (legible_quoted key) (.cons (by decide) (legible_chars value))
  | (key, value) :: next :: entries =>
      rw [entriesChars]
      · refine .append (.append (legible_quoted key) (.cons (by decide) (legible_chars value))) ?_
        exact .cons (by decide) (legible_entries (next :: entries))
      · exact List.cons_ne_nil _ _

end

theorem legible_compact (json : Json) : Legible json.compact.toList := by
  rw [compact, String.toList_ofList]
  exact json.legible_chars

end Json

/-! ### Bytes -/

namespace Utf8

/-- A character that is no control character has no byte of one. -/
theorem le_of_mem_encodeChar {c : Char} (hc : 0x20 ≤ c.toNat) {b : UInt8} (hb : b ∈ encodeChar c) :
    0x20 ≤ b.toNat := by
  have hvalid : c.toNat < 0x110000 := by
    have hvalid : c.toNat < 0xD800 ∨ 0xDFFF < c.toNat ∧ c.toNat < 0x110000 := c.valid
    omega
  have tail : ∀ m, 0x20 ≤ (0x80 + m % 0x40).toUInt8.toNat := fun m =>
    Nat.le_trans (by decide) (tail_six m).1.1
  have lead : ∀ {n}, 0x20 ≤ n → n < 256 → 0x20 ≤ n.toUInt8.toNat := fun hle hlt =>
    (toNat_toUInt8 hlt).symm ▸ hle
  simp only [encodeChar] at hb
  generalize c.toNat = n at *
  split at hb
  · rw [List.mem_singleton.1 hb]
    exact lead hc (by omega)
  split at hb
  · simp only [List.mem_cons, List.not_mem_nil, or_false] at hb
    rcases hb with rfl | rfl
    · exact lead (by omega) (by omega)
    · exact tail _
  split at hb
  · simp only [List.mem_cons, List.not_mem_nil, or_false] at hb
    rcases hb with rfl | rfl | rfl
    · exact lead (by omega) (by omega)
    · exact tail _
    · exact tail _
  · simp only [List.mem_cons, List.not_mem_nil, or_false] at hb
    rcases hb with rfl | rfl | rfl | rfl
    · exact lead (by omega) (by omega)
    · exact tail _
    · exact tail _
    · exact tail _

theorem le_of_mem_encode {s : List Char} (hs : Legible s) {b : UInt8} (hb : b ∈ encode s) :
    0x20 ≤ b.toNat := by
  obtain ⟨c, hc, hb⟩ := List.mem_flatMap.1 hb
  exact le_of_mem_encodeChar (hs c hc) hb

end Utf8

namespace Control

/-- A line goes up to the first byte that ends one. -/
theorem readLines_append (isLast : Bool) {bytes : List UInt8} (h : 10 ∉ bytes)
    (seen rest : List UInt8) :
    readLines isLast seen (bytes ++ 10 :: rest) =
      readLines isLast (bytes.reverse ++ seen) (10 :: rest) := by
  induction bytes generalizing seen with
  | nil => rfl
  | cons b bytes ih =>
      obtain ⟨hb, hbytes⟩ := not_or.1 (mt List.mem_cons.2 h)
      have hb : (b == 10) = false := beq_eq_false_iff_ne.2 (Ne.symm hb)
      rw [List.cons_append, readLines, hb, List.reverse_cons, List.append_assoc]
      exact ih hbytes (b :: seen)

/-- The bytes of a text without control characters are read as one line. -/
theorem readLines_legible (isLast : Bool) {s : String} (h : Legible s.toList) (rest : List UInt8) :
    readLines isLast [] (Utf8.ofText s ++ 10 :: rest) =
      { readLines isLast [] rest with lines := s :: (readLines isLast [] rest).lines } := by
  have control : ∀ b < 0x20, UInt8.ofNat b ∉ Utf8.ofText s := by
    intro b hlt hb
    have hle := Utf8.le_of_mem_encode h hb
    rw [UInt8.toNat_ofNat_of_lt' (Nat.lt_trans hlt (by decide))] at hle
    omega
  have hline : lineText? (Utf8.ofText s) = some s := by
    have hlast : ((Utf8.ofText s).getLast? == some 13) = false := by
      refine beq_eq_false_iff_ne.2 fun hlast => control 13 (by decide) ?_
      exact List.mem_of_getLast? hlast
    rw [lineText?, hlast]
    exact Utf8.text?_ofText s
  rw [readLines_append isLast (control 10 (by decide)), List.append_nil, readLines,
    List.reverse_reverse, hline]
  rfl

/-- The bytes of a message. -/
def Message.bytes (m : Message) : List UInt8 := Utf8.encode m.line

theorem Message.bytes_eq (m : Message) : m.bytes = Utf8.ofText m.toJson.compact ++ [10] := by
  rw [bytes, line, Utf8.encode, List.flatMap_append]
  rfl

/-- **Each message takes one line**, whatever characters its texts contain: whoever reads lines from
the bytes of messages reads the text of one message from each. -/
theorem readLines_messages (isLast : Bool) (messages : List Message) :
    readLines isLast [] (messages.flatMap Message.bytes) =
      { lines := messages.map fun m => m.toJson.compact } := by
  induction messages with
  | nil => cases isLast <;> rfl
  | cons m messages ih =>
      rw [List.flatMap_cons, m.bytes_eq, List.append_assoc, List.singleton_append,
        readLines_legible isLast m.toJson.legible_compact, ih, List.map_cons]

end Control

end TunnelKeeper
