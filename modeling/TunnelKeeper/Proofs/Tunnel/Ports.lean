import Mathlib.Data.List.DropRight
import Mathlib.Data.List.TakeWhile
import TunnelKeeper.Proofs.Text.Numerals
import TunnelKeeper.Tunnel.Config

/-!
# Ports — the values that stand for a port

A text spells a number where it is blanks, a plus sign or none, digits, and blanks (`Spells`).  The
grammar says nothing about how long the digits are or how many zeros they start with, while the
reader holds what it has read in 64 bits and the port in 16.  Neither of them wraps: the reader of
digits gives the number they denote or, where that does not fit, nothing
(`Digits.readWord?_eq_some`), because it tests every step before it takes it; and what it gives is
narrowed behind a test of the range.

So a port is read of exactly the values that stand for a number from 1 to 65535
(`port_parsed_exactly`).
-/

namespace TunnelKeeper

/-! ### Digits in 64 bits -/

namespace Digits

theorem append?_eq_some {total word : UInt64} {c : Char} :
    append? total c = some word ↔ isDigit c = true ∧ 10 * total.toNat + worth c = word.toNat := by
  have hword := word.toNat_lt
  rw [append?, Option.ite_none_right_eq_some, Bool.and_eq_true, decide_eq_true_eq, and_assoc,
    Option.some.injEq]
  refine and_congr_right fun _ => ⟨?_, fun h => ⟨h ▸ hword, UInt64.toNat_inj.1 ?_⟩⟩
  · rintro ⟨hfits, rfl⟩
    have hfits : 10 * total.toNat + worth c < 2 ^ 64 := hfits
    simp only [UInt64.toNat_add, UInt64.toNat_mul, UInt64.toNat_ofNat', UInt64.reduceToNat]
    omega
  · simp only [UInt64.toNat_add, UInt64.toNat_mul, UInt64.toNat_ofNat', UInt64.reduceToNat]
    omega

/-- Reading digit by digit gives the number that the digits denote, as far as 64 bits hold it. -/
theorem foldlM_append? {digits : List Char} {word : UInt64} :
    digits.foldlM append? 0 = some word ↔
      (∀ c ∈ digits, isDigit c = true) ∧ value digits = word.toNat := by
  -- From the back, because the last digit is the one that is read last.
  induction digits using List.reverseRecOn generalizing word with
  | nil =>
      have hzero : (0 : UInt64) = word ↔ 0 = word.toNat := UInt64.toNat_inj.symm
      simpa [value] using hzero
  | append_singleton digits c ih =>
      have hword := word.toNat_lt
      simp only [List.foldlM_append, List.foldlM_cons, List.foldlM_nil, bind_pure,
        Option.bind_eq_bind, Option.bind_eq_some_iff, ih, append?_eq_some, value_append,
        List.forall_mem_append, List.forall_mem_singleton]
      constructor
      · rintro ⟨total, ⟨hdigits, hvalue⟩, hc, htotal⟩
        exact ⟨⟨hdigits, hc⟩, by omega⟩
      · rintro ⟨⟨hdigits, hc⟩, hvalue⟩
        refine ⟨(value digits).toUInt64, ⟨hdigits, ?_⟩, hc, ?_⟩ <;>
          simp only [UInt64.toNat_ofNat'] <;> omega

theorem readWord?_eq_some {digits : List Char} {word : UInt64} :
    readWord? digits = some word ↔
      digits ≠ [] ∧ (∀ c ∈ digits, isDigit c = true) ∧ value digits = word.toNat := by
  rw [readWord?, Option.ite_none_left_eq_some, List.isEmpty_iff, foldlM_append?]

end Digits

/-! ### Texts that spell a number -/

namespace Blank

theorem isBlank_of_isDigit {c : Char} (h : Digits.isDigit c = true) : isBlank c = false := by
  simp only [Digits.isDigit, Bool.and_eq_true, decide_eq_true_eq, Char.le_def,
    UInt32.le_iff_toNat_le] at h
  have hlow : 48 ≤ c.toNat := h.1
  have hhigh : c.toNat ≤ 57 := h.2
  simp only [isBlank, ranges, List.any_cons, List.any_nil, Bool.or_false, Bool.or_eq_false_iff,
    Bool.and_eq_false_iff, decide_eq_false_iff_not]
  omega

/-- A text is what is left of it when it is trimmed, between blanks. -/
theorem exists_trim (s : List Char) : ∃ front back, s = front ++ trim s ++ back ∧
    (∀ c ∈ front, isBlank c = true) ∧ (∀ c ∈ back, isBlank c = true) := by
  refine ⟨s.takeWhile isBlank, ((trimFront s).reverse.takeWhile isBlank).reverse, ?_,
    fun c => List.mem_takeWhile_imp, fun c hc => List.mem_takeWhile_imp (List.mem_reverse.1 hc)⟩
  have hback : trim s ++ ((trimFront s).reverse.takeWhile isBlank).reverse = trimFront s := by
    rw [trim, ← List.reverse_append]
    show (List.takeWhile _ _ ++ List.dropWhile _ _).reverse = _
    rw [List.takeWhile_append_dropWhile, List.reverse_reverse]
  rw [List.append_assoc, hback]
  exact List.takeWhile_append_dropWhile.symm

theorem trimFront_append {front s : List Char} (hfront : ∀ c ∈ front, isBlank c = true) :
    trimFront (front ++ s) = trimFront s :=
  List.dropWhile_append_of_pos hfront

theorem trimFront_of_not_blank {s rest : List Char} (hs : s ≠ [])
    (hblank : ∀ c ∈ s, isBlank c = false) : trimFront (s ++ rest) = s ++ rest := by
  obtain ⟨c, s, rfl⟩ := List.exists_cons_of_ne_nil hs
  exact List.dropWhile_cons_of_neg (by simp [hblank c List.mem_cons_self])

/-- What has no blanks in it is what is left between blanks. -/
theorem trim_between {front s back : List Char} (hs : s ≠ [])
    (hblank : ∀ c ∈ s, isBlank c = false) (hfront : ∀ c ∈ front, isBlank c = true)
    (hback : ∀ c ∈ back, isBlank c = true) : trim (front ++ s ++ back) = s := by
  have hreverse : trimFront (back.reverse ++ s.reverse) = s.reverse := by
    have htrim : trimFront (s.reverse ++ []) = s.reverse ++ [] :=
      trimFront_of_not_blank (List.reverse_ne_nil_iff.2 hs)
        fun c hc => hblank c (List.mem_reverse.1 hc)
    rw [trimFront_append fun c hc => hback c (List.mem_reverse.1 hc)]
    simpa using htrim
  rw [trim, List.append_assoc, trimFront_append hfront, trimFront_of_not_blank hs hblank,
    List.reverse_append, hreverse, List.reverse_reverse]

end Blank

namespace Port

/-- A text spells a number: blanks, one plus sign or none, digits that denote it, and blanks. -/
inductive Spells : List Char → Nat → Prop where
  | intro {front sign digits back : List Char} (front_blank : ∀ c ∈ front, Blank.isBlank c = true)
      (sign_plus : sign = [] ∨ sign = ['+']) (digits_ne_nil : digits ≠ [])
      (digits_digits : ∀ c ∈ digits, Digits.isDigit c = true)
      (back_blank : ∀ c ∈ back, Blank.isBlank c = true) :
      Spells (front ++ (sign ++ digits) ++ back) (Digits.value digits)

/-- A value stands for a number: it is that number, or a text that spells it. -/
inductive StandsFor : Json → Nat → Prop where
  | number (n : Nat) : StandsFor (.number (.natural n)) n
  | text {s : String} {n : Nat} (spells : Spells s.toList n) : StandsFor (.text s) n

theorem numeral_of_plus {s rest : List Char} (h : Blank.trim s = '+' :: rest) :
    numeral s = rest := by
  simp only [numeral, h]

theorem numeral_of_not_plus {s : List Char} (h : (Blank.trim s).head? ≠ some '+') :
    numeral s = Blank.trim s := by
  unfold numeral
  split
  · next hplus => exact absurd (by rw [hplus]; rfl) h
  · rfl

/-- The numeral of a text that spells a number is its digits. -/
theorem Spells.exists_digits {s : List Char} {n : Nat} (h : Spells s n) :
    numeral s ≠ [] ∧ (∀ c ∈ numeral s, Digits.isDigit c = true) ∧
      Digits.value (numeral s) = n := by
  obtain @⟨front, sign, digits, back, hfront, hsign, hnil, hdigits, hback⟩ := h
  have hplus : Digits.isDigit '+' = false := by decide
  have htrim : Blank.trim (front ++ (sign ++ digits) ++ back) = sign ++ digits := by
    refine Blank.trim_between (by simp [hnil]) (fun c hc => ?_) hfront hback
    rcases List.mem_append.1 hc with hc | hc
    · obtain rfl | rfl := hsign
      · cases hc
      · obtain rfl := List.mem_singleton.1 hc
        decide
    · exact Blank.isBlank_of_isDigit (hdigits c hc)
  have hnumeral : numeral (front ++ (sign ++ digits) ++ back) = digits := by
    obtain rfl | rfl := hsign
    · rw [numeral_of_not_plus, htrim, List.nil_append]
      obtain ⟨c, digits, rfl⟩ := List.exists_cons_of_ne_nil hnil
      rw [htrim]
      rintro ⟨⟩
      exact absurd (hdigits '+' List.mem_cons_self) (by decide)
    · exact numeral_of_plus htrim
  rw [hnumeral]
  exact ⟨hnil, hdigits, rfl⟩

theorem spells_of_digits {s : List Char} (hnil : numeral s ≠ [])
    (hdigits : ∀ c ∈ numeral s, Digits.isDigit c = true) :
    Spells s (Digits.value (numeral s)) := by
  obtain ⟨front, back, hs, hfront, hback⟩ := Blank.exists_trim s
  by_cases hplus : (Blank.trim s).head? = some '+'
  · obtain ⟨rest, hrest⟩ := List.head?_eq_some_iff.1 hplus
    rw [numeral_of_plus hrest] at hnil hdigits ⊢
    rw [hs, hrest]
    exact Spells.intro hfront (.inr rfl) hnil hdigits hback
  · rw [numeral_of_not_plus hplus] at hnil hdigits ⊢
    have hspells : Spells (front ++ ([] ++ Blank.trim s) ++ back) (Digits.value (Blank.trim s)) :=
      .intro hfront (.inl rfl) hnil hdigits hback
    rwa [List.nil_append, ← hs] at hspells

theorem spells_iff {s : List Char} {n : Nat} :
    Spells s n ↔ numeral s ≠ [] ∧ (∀ c ∈ numeral s, Digits.isDigit c = true) ∧
      Digits.value (numeral s) = n :=
  ⟨Spells.exists_digits, fun ⟨hnil, hdigits, hvalue⟩ => hvalue ▸ spells_of_digits hnil hdigits⟩

/-- A value stands for one number at most. -/
theorem StandsFor.unique {value : Json} {m n : Nat} (hm : StandsFor value m)
    (hn : StandsFor value n) : m = n := by
  cases hm with
  | number => cases hn; rfl
  | text hm =>
      cases hn with
      | text hn => exact (spells_iff.1 hm).2.2.symm.trans (spells_iff.1 hn).2.2

/-! ### Reading a port -/

theorem ofNat?_eq_some {n : Nat} {port : UInt16} :
    ofNat? n = some port ↔ port.toNat = n ∧ 1 ≤ n := by
  have hport := port.toNat_lt
  rw [ofNat?, Option.ite_none_right_eq_some, Bool.and_eq_true, decide_eq_true_eq,
    decide_eq_true_eq, Option.some.injEq, ← UInt16.toNat_inj]
  simp only [UInt16.toNat_ofNat']
  omega

theorem ofText?_eq_some {s : String} {port : UInt16} :
    ofText? s = some port ↔ Spells s.toList port.toNat ∧ 1 ≤ port.toNat := by
  have hport := port.toNat_lt
  simp only [ofText?, Option.bind_eq_some_iff, Digits.readWord?_eq_some, ofNat?_eq_some,
    spells_iff]
  constructor
  · rintro ⟨word, ⟨hnil, hdigits, hvalue⟩, hword, hpos⟩
    exact ⟨⟨hnil, hdigits, hvalue.trans hword.symm⟩, hword ▸ hpos⟩
  · rintro ⟨⟨hnil, hdigits, hvalue⟩, hpos⟩
    have hword : port.toNat.toUInt64.toNat = port.toNat := by
      simp only [UInt64.toNat_ofNat']
      omega
    exact ⟨port.toNat.toUInt64, ⟨hnil, hdigits, hvalue.trans hword.symm⟩, hword.symm,
      hword.symm ▸ hpos⟩

theorem ofJson?_eq_some {value : Json} {port : UInt16} :
    ofJson? value = some port ↔ StandsFor value port.toNat ∧ 1 ≤ port.toNat := by
  constructor
  · intro h
    unfold ofJson? at h
    split at h
    · next n =>
      obtain ⟨rfl, hpos⟩ := ofNat?_eq_some.1 h
      exact ⟨.number _, hpos⟩
    · obtain ⟨hspells, hpos⟩ := ofText?_eq_some.1 h
      exact ⟨.text hspells, hpos⟩
    · cases h
  · rintro ⟨hvalue, hpos⟩
    generalize hn : port.toNat = n at hvalue
    cases hvalue with
    | number => exact ofNat?_eq_some.2 ⟨hn, hn ▸ hpos⟩
    | text hspells => exact ofText?_eq_some.2 ⟨hn ▸ hspells, hpos⟩

/-- No port is read of a value that stands for no number in the range. -/
theorem ofJson?_eq_none {value : Json} :
    ofJson? value = none ↔ ∀ n, StandsFor value n → n < 1 ∨ 65535 < n := by
  rw [Option.eq_none_iff_forall_ne_some]
  constructor
  · intro h n hn
    by_contra hrange
    have hport : n.toUInt16.toNat = n := by
      simp only [UInt16.toNat_ofNat']
      omega
    exact h n.toUInt16 (ofJson?_eq_some.2 ⟨hport.symm ▸ hn, by omega⟩)
  · intro h port hport
    obtain ⟨hvalue, hpos⟩ := ofJson?_eq_some.1 hport
    have hlt := port.toNat_lt
    have hrange := h _ hvalue
    omega

end Port

/-- **What the port of a configuration is**, by what stands under its key. -/
structure TunnelConfig.PortParsed (config : TunnelConfig) : Prop where
  /-- A port is read of the values that stand for it, from 1 to 65535. -/
  accepted : ∀ port : UInt16, config.port = .ok port ↔
    ∃ value, config.get? "port" = some value ∧ Port.StandsFor value port.toNat ∧
      1 ≤ port.toNat ∧ port.toNat ≤ 65535
  /-- Every other value is an invalid port, -/
  refused : config.port = .error .invalidPort ↔
    ∃ value, config.get? "port" = some value ∧
      ∀ n, Port.StandsFor value n → n < 1 ∨ 65535 < n
  /-- and no value at all is a missing key. -/
  missing : config.port = .error (.missingKey "port") ↔ config.get? "port" = none
  /-- However many digits there are and however many zeros they start with, a port that is read of
  a text is the number that the text spells. -/
  unwrapped : ∀ {s : String} {n : Nat} {port : UInt16}, config.get? "port" = some (.text s) →
    Port.Spells s.toList n → config.port = .ok port → port.toNat = n

/-- **A port is parsed exactly.** -/
theorem port_parsed_exactly (config : TunnelConfig) : config.PortParsed := by
  have haccepted : ∀ port : UInt16, config.port = .ok port ↔
      ∃ value, config.get? "port" = some value ∧ Port.StandsFor value port.toNat ∧
        1 ≤ port.toNat ∧ port.toNat ≤ 65535 := by
    intro port
    have hport := port.toNat_lt
    have hle : port.toNat ≤ 65535 := by omega
    rw [TunnelConfig.port]
    cases config.get? "port" with
    | none => simp
    | some value =>
        simp only [Option.some.injEq, exists_eq_left', hle, and_true, ← Port.ofJson?_eq_some]
        cases Port.ofJson? value <;> simp
  refine ⟨haccepted, ?_, ?_, fun hget hspells hport => ?_⟩
  · rw [TunnelConfig.port]
    cases config.get? "port" with
    | none => simp
    | some value =>
        simp only [Option.some.injEq, exists_eq_left', ← Port.ofJson?_eq_none]
        cases Port.ofJson? value <;> simp
  · rw [TunnelConfig.port]
    cases config.get? "port" with
    | none => simp
    | some value => cases hvalue : Port.ofJson? value <;> simp [hvalue]
  · obtain ⟨value, hvalue, hstands, -⟩ := (haccepted _).1 hport
    cases hget.symm.trans hvalue
    exact hstands.unique (.text hspells)

/-- Zeros in front, a plus sign and blanks of any script are no obstacle, and a number beyond
2 ^ 64 is not taken for what 64 bits keep of it. -/
example : Port.ofText? "\u2003+0000000000000000000000443\n" = some 443 ∧
    Port.ofText? "18446744073709551617" = none ∧ Port.ofText? "65536" = none ∧
    Port.ofText? "+ 443" = none ∧ Port.ofText? "-443" = none := by decide

end TunnelKeeper
