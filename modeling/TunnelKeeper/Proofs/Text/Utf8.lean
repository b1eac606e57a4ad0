import TunnelKeeper.Text.Utf8

/-!
# UTF-8 — what is written is read, and nothing else

The bytes of a character are read as that character, whatever follows (`decode?_encodeChar`); so the
bytes of a text are read as the text (`text?_ofText`).  For each of the four forms there is a law
that says under which bounds of its bytes the form is read, in terms of the numbers that the bytes
are, and a law that says that within these bounds the bytes are those of the character they are read
as.  So bytes that are read as a text are the bytes of that text (`text?_eq_some`).
-/

namespace TunnelKeeper.Utf8

/-- The bounds of a byte that goes on with a character. -/
def Tail (b : UInt8) : Prop := 0x80 ≤ b.toNat ∧ b.toNat ≤ 0xBF

theorem isTail_iff {b : UInt8} : isTail b = true ↔ Tail b := by
  simp [isTail, Tail, UInt8.le_iff_toNat_le]

theorem toNat_toUInt8 {n : Nat} (h : n < 256) : n.toUInt8.toNat = n := by
  simp [Nat.toUInt8, Nat.mod_eq_of_lt h]

variable {a b c d : UInt8} {rest : List UInt8}

theorem decode?_one (ha : a.toNat ≤ 0x7F) :
    decode? (a :: rest) = (decode? rest).map (Char.ofNat a.toNat :: ·) := by
  rw [decode?.eq_def]
  exact if_pos (UInt8.le_iff_toNat_le.2 ha)

theorem decode?_two (ha : 0xC2 ≤ a.toNat ∧ a.toNat ≤ 0xDF) (hb : Tail b) :
    decode? (a :: b :: rest) =
      (decode? rest).map (Char.ofNat ((a.toNat - 0xC0) * 0x40 + bits b) :: ·) := by
  have hone : ¬ a.toNat ≤ 0x7F := by omega
  rw [decode?.eq_def]
  simp [UInt8.le_iff_toNat_le, hone, ha, isTail_iff.2 hb]

theorem decode?_three (ha : 0xE0 ≤ a.toNat ∧ a.toNat ≤ 0xEF) (hb : Tail b) (hc : Tail c) {n : Nat}
    (hn : n = (a.toNat - 0xE0) * 0x1000 + bits b * 0x40 + bits c) (hleast : 0x800 ≤ n)
    (hvalid : n < 0xD800 ∨ 0xDFFF < n) :
    decode? (a :: b :: c :: rest) = (decode? rest).map (Char.ofNat n :: ·) := by
  have hone : ¬ a.toNat ≤ 0x7F := by omega
  have htwo : ¬ (0xC2 ≤ a.toNat ∧ a.toNat ≤ 0xDF) := by omega
  rw [decode?.eq_def]
  simp [UInt8.le_iff_toNat_le, hone, htwo, ha, isTail_iff.2 hb, isTail_iff.2 hc, ← hn, hleast,
    hvalid]

theorem decode?_four (ha : 0xF0 ≤ a.toNat ∧ a.toNat ≤ 0xF4) (hb : Tail b) (hc : Tail c)
    (hd : Tail d) {n : Nat}
    (hn : n = (a.toNat - 0xF0) * 0x40000 + bits b * 0x1000 + bits c * 0x40 + bits d)
    (hleast : 0x10000 ≤ n) (hvalid : n < 0x110000) :
    decode? (a :: b :: c :: d :: rest) = (decode? rest).map (Char.ofNat n :: ·) := by
  have hone : ¬ a.toNat ≤ 0x7F := by omega
  have htwo : ¬ (0xC2 ≤ a.toNat ∧ a.toNat ≤ 0xDF) := by omega
  have hthree : ¬ (0xE0 ≤ a.toNat ∧ a.toNat ≤ 0xEF) := by omega
  rw [decode?.eq_def]
  simp [UInt8.le_iff_toNat_le, hone, htwo, hthree, ha, isTail_iff.2 hb, isTail_iff.2 hc,
    isTail_iff.2 hd, ← hn, hleast, hvalid]

/-- A byte that goes on with a character, made of six bits of a number. -/
theorem tail_six (m : Nat) :
    Tail (0x80 + m % 0x40).toUInt8 ∧ bits (0x80 + m % 0x40).toUInt8 = m % 0x40 := by
  have hm : m % 0x40 < 0x40 := Nat.mod_lt _ (by decide)
  have hbyte := toNat_toUInt8 (show 0x80 + m % 0x40 < 256 by omega)
  refine ⟨?_, ?_⟩
  · unfold Tail
    omega
  · unfold bits
    omega

/-- The bytes of a character are read as that character. -/
theorem decode?_encodeChar (ch : Char) (rest : List UInt8) :
    decode? (encodeChar ch ++ rest) = (decode? rest).map (ch :: ·) := by
  have hvalid : ch.toNat < 0xD800 ∨ 0xDFFF < ch.toNat ∧ ch.toNat < 0x110000 := ch.valid
  have hch : Char.ofNat ch.toNat = ch := Char.ofNat_toNat ch
  have hpow : Nat.pow 2 0 = 1 ∧ Nat.pow 2 6 = 0x40 ∧ Nat.pow 2 12 = 0x1000 := by decide
  simp only [encodeChar, hpow]
  generalize ch.toNat = n at *
  obtain ⟨tail₀, bits₀⟩ := tail_six (n / 1)
  obtain ⟨tail₁, bits₁⟩ := tail_six (n / 0x40)
  obtain ⟨tail₂, bits₂⟩ := tail_six (n / 0x1000)
  split
  · have hbyte := toNat_toUInt8 (show n < 256 by omega)
    rw [List.singleton_append, decode?_one (by omega), hbyte, hch]
  split
  · have hbyte := toNat_toUInt8 (show 0xC0 + n / 0x40 < 256 by omega)
    rw [List.cons_append, List.singleton_append, decode?_two (by omega) tail₀, hbyte, bits₀,
      show (0xC0 + n / 0x40 - 0xC0) * 0x40 + n / 1 % 0x40 = n by omega, hch]
  split
  · have hbyte := toNat_toUInt8 (show 0xE0 + n / 0x1000 < 256 by omega)
    rw [List.cons_append, List.cons_append, List.singleton_append,
      decode?_three (n := n) (by omega) tail₁ tail₀ (by rw [hbyte, bits₁, bits₀]; omega)
        (by omega) (by omega), hch]
  · have hbyte := toNat_toUInt8 (show 0xF0 + n / 0x40000 < 256 by omega)
    rw [List.cons_append, List.cons_append, List.cons_append, List.singleton_append,
      decode?_four (n := n) (by omega) tail₂ tail₁ tail₀
        (by rw [hbyte, bits₂, bits₁, bits₀]; omega) (by omega) (by omega), hch]

/-- The bytes of a text are read as the text. -/
theorem decode?_encode (s : List Char) : decode? (encode s) = some s := by
  induction s with
  | nil => rfl
  | cons ch s ih =>
    rw [encode, List.flatMap_cons, decode?_encodeChar]
    rw [encode] at ih
    rw [ih, Option.map_some]

theorem text?_ofText (s : String) : text? (ofText s) = some s := by
  rw [text?, ofText, decode?_encode, Option.map_some, String.ofList_toList]

/-! ### What is read was written -/

theorem toUInt8_toNat {n : Nat} (h : n = a.toNat) : n.toUInt8 = a := by
  subst h
  exact UInt8.ofNat_toNat

theorem toNat_ofNat {n : Nat} (hvalid : n < 0xD800 ∨ 0xDFFF < n ∧ n < 0x110000) :
    (Char.ofNat n).toNat = n := by
  rw [Char.ofNat, dif_pos hvalid]
  rfl

theorem bits_of_tail (h : Tail b) : b.toNat = 0x80 + bits b ∧ bits b < 0x40 := by
  unfold bits
  obtain ⟨h1, h2⟩ := h
  omega

theorem encodeChar_one (ha : a.toNat ≤ 0x7F) : encodeChar (Char.ofNat a.toNat) = [a] := by
  have hchar : (Char.ofNat a.toNat).toNat = a.toNat := toNat_ofNat (by omega)
  simp only [encodeChar, hchar]
  rw [if_pos (by omega), toUInt8_toNat rfl]

theorem encodeChar_two (ha : 0xC2 ≤ a.toNat ∧ a.toNat ≤ 0xDF) (hb : Tail b) :
    encodeChar (Char.ofNat ((a.toNat - 0xC0) * 0x40 + bits b)) = [a, b] := by
  obtain ⟨hbyte, hbits⟩ := bits_of_tail hb
  generalize hn : (a.toNat - 0xC0) * 0x40 + bits b = n
  have hchar : (Char.ofNat n).toNat = n := toNat_ofNat (by omega)
  have hpow : Nat.pow 2 0 = 1 := rfl
  simp only [encodeChar, hchar, hpow]
  rw [if_neg (by omega), if_pos (by omega), toUInt8_toNat (a := a) (by omega),
    toUInt8_toNat (a := b) (by omega)]

theorem encodeChar_three (ha : 0xE0 ≤ a.toNat ∧ a.toNat ≤ 0xEF) (hb : Tail b) (hc : Tail c)
    {n : Nat} (hn : n = (a.toNat - 0xE0) * 0x1000 + bits b * 0x40 + bits c) (hleast : 0x800 ≤ n)
    (hvalid : n < 0xD800 ∨ 0xDFFF < n) : encodeChar (Char.ofNat n) = [a, b, c] := by
  obtain ⟨hbyte, hbits⟩ := bits_of_tail hb
  obtain ⟨hbyte', hbits'⟩ := bits_of_tail hc
  have hchar : (Char.ofNat n).toNat = n := toNat_ofNat (by omega)
  have hpow : Nat.pow 2 0 = 1 ∧ Nat.pow 2 6 = 0x40 := ⟨rfl, rfl⟩
  simp only [encodeChar, hchar, hpow]
  rw [if_neg (by omega), if_neg (by omega), if_pos (by omega), toUInt8_toNat (a := a) (by omega),
    toUInt8_toNat (a := b) (by omega), toUInt8_toNat (a := c) (by omega)]

theorem encodeChar_four (ha : 0xF0 ≤ a.toNat ∧ a.toNat ≤ 0xF4) (hb : Tail b) (hc : Tail c)
    (hd : Tail d) {n : Nat}
    (hn : n = (a.toNat - 0xF0) * 0x40000 + bits b * 0x1000 + bits c * 0x40 + bits d)
    (hleast : 0x10000 ≤ n) (hvalid : n < 0x110000) :
    encodeChar (Char.ofNat n) = [a, b, c, d] := by
  obtain ⟨hbyte, hbits⟩ := bits_of_tail hb
  obtain ⟨hbyte', hbits'⟩ := bits_of_tail hc
  obtain ⟨hbyte'', hbits''⟩ := bits_of_tail hd
  have hchar : (Char.ofNat n).toNat = n := toNat_ofNat (by omega)
  have hpow : Nat.pow 2 0 = 1 ∧ Nat.pow 2 6 = 0x40 ∧ Nat.pow 2 12 = 0x1000 := ⟨rfl, rfl, rfl⟩
  simp only [encodeChar, hchar, hpow]
  rw [if_neg (by omega), if_neg (by omega), if_neg (by omega), toUInt8_toNat (a := a) (by omega),
    toUInt8_toNat (a := b) (by omega), toUInt8_toNat (a := c) (by omega),
    toUInt8_toNat (a := d) (by omega)]

/-- Bytes begin with the bytes of a character, and a text is read of the rest. -/
inductive Begins : List UInt8 → List Char → Prop where
  | char {ch : Char} {rest : List UInt8} {t : List Char} (first : UInt8) (more : List UInt8)
      (written : encodeChar ch = first :: more) (read : decode? rest = some t) :
      Begins (first :: more ++ rest) (ch :: t)

theorem Begins.of_map {ch : Char} {s : List Char} (first : UInt8) (more : List UInt8)
    (written : encodeChar ch = first :: more) (h : (decode? rest).map (ch :: ·) = some s) :
    Begins (first :: more ++ rest) s := by
  obtain ⟨t, ht, rfl⟩ := Option.map_eq_some_iff.1 h
  exact .char first more written ht

/-- What is read begins with one of the four forms. -/
theorem begins_of_decode? {s : List Char} (h : decode? (a :: rest) = some s) :
    Begins (a :: rest) s := by
  rw [decode?.eq_def] at h
  dsimp only at h
  split at h
  case isTrue ha =>
    exact .of_map a [] (encodeChar_one (UInt8.le_iff_toNat_le.1 ha)) h
  split at h
  case isTrue ha =>
    simp only [Bool.and_eq_true, decide_eq_true_eq, UInt8.le_iff_toNat_le] at ha
    split at h
    case h_2 => cases h
    case h_1 b rest =>
      obtain ⟨hb, h⟩ := Option.ite_none_right_eq_some.1 h
      exact .of_map a [b] (encodeChar_two ha (isTail_iff.1 hb)) h
  split at h
  case isTrue ha =>
    simp only [Bool.and_eq_true, decide_eq_true_eq, UInt8.le_iff_toNat_le] at ha
    split at h
    case h_2 => cases h
    case h_1 b c rest =>
      obtain ⟨hn, h⟩ := Option.ite_none_right_eq_some.1 h
      simp only [Bool.and_eq_true, Bool.or_eq_true, decide_eq_true_eq, isTail_iff] at hn
      obtain ⟨⟨⟨hb, hc⟩, hleast⟩, hvalid⟩ := hn
      exact .of_map a [b, c] (encodeChar_three ha hb hc rfl hleast hvalid) h
  split at h
  case isFalse => cases h
  case isTrue ha =>
    simp only [Bool.and_eq_true, decide_eq_true_eq, UInt8.le_iff_toNat_le] at ha
    split at h
    case h_2 => cases h
    case h_1 b c d rest =>
      obtain ⟨hn, h⟩ := Option.ite_none_right_eq_some.1 h
      simp only [Bool.and_eq_true, decide_eq_true_eq, isTail_iff] at hn
      obtain ⟨⟨⟨⟨hb, hc⟩, hd⟩, hleast⟩, hvalid⟩ := hn
      exact .of_map a [b, c, d] (encodeChar_four ha hb hc hd rfl hleast hvalid) h

/-- Bytes that are read as a text are the bytes of that text. -/
theorem encode_of_decode? (s : List Char) :
    ∀ bytes : List UInt8, decode? bytes = some s → bytes = encode s := by
  induction s with
  | nil =>
      rintro (_ | ⟨a, rest⟩) h
      · rfl
      · cases begins_of_decode? h
  | cons ch s ih =>
      rintro (_ | ⟨a, rest⟩) h
      · cases h
      · cases begins_of_decode? h with
        | char first more written read =>
            rw [ih _ read, encode, encode, List.flatMap_cons, written]
            rfl

/-- **Bytes are read as a text exactly where they are the bytes of that text.** -/
theorem text?_eq_some {bytes : List UInt8} {s : String} :
    text? bytes = some s ↔ bytes = ofText s := by
  constructor
  · intro h
    obtain ⟨t, ht, rfl⟩ := Option.map_eq_some_iff.1 h
    rw [ofText, String.toList_ofList]
    exact encode_of_decode? t bytes ht
  · rintro rfl
    exact text?_ofText s

end TunnelKeeper.Utf8
