import Mathlib.Data.List.DropRight
import Mathlib.Data.List.TakeDrop
import Mathlib.Data.List.TakeWhile
import TunnelKeeper.Json.Meaning
import TunnelKeeper.Json.Printer

/-!
# Reading — laws of the reader of documents

Each law says what is read of a text that starts in a known way, whatever follows.  A string is read
back from the characters that its own were escaped as (`readString_escaped`).  A number is read
alike wherever what follows does not go on with it (`Ends`, `readValue_number_append`); which
characters spell it does not matter, so the law holds of doubles too.  A list and an object are read
where their items and fields are (`readValue_list`, `readValue_object`), because items never start
with a closing bracket.

Gaps make no difference to what is read: the functions on values, items and fields look at a text
only behind its gap (`readValue_congr`).
-/

namespace TunnelKeeper.Json.Document

/-! ### Gaps -/

theorem skipGap_append {gap : List Char} (h : ∀ c ∈ gap, isGap c = true) (s : List Char) :
    skipGap (gap ++ s) = skipGap s :=
  List.dropWhile_append_of_pos h

theorem isGap_of_mem_newLine {level : Nat} {c : Char} (h : c ∈ newLine level) : isGap c = true := by
  obtain rfl | h := List.mem_cons.1 h
  · rfl
  · rw [List.eq_of_mem_replicate h]
    rfl

theorem skipGap_newLine (level : Nat) (s : List Char) : skipGap (newLine level ++ s) = skipGap s :=
  skipGap_append (fun _ => isGap_of_mem_newLine) s

theorem skipGap_blank (s : List Char) : skipGap (' ' :: s) = skipGap s := rfl

theorem skipGap_quote (s : List Char) : skipGap ('"' :: s) = '"' :: s := rfl

theorem skipGap_skipGap (s : List Char) : skipGap (skipGap s) = skipGap s :=
  List.dropWhile_idempotent _ _

theorem readValue_congr {s t : List Char} (h : skipGap s = skipGap t) (fuel : Nat) :
    readValue fuel s = readValue fuel t := by
  cases fuel with
  | zero => rfl
  | succ fuel => rw [readValue, readValue, h]

theorem readItems_congr {s t : List Char} (h : skipGap s = skipGap t) (fuel : Nat) :
    readItems fuel s = readItems fuel t := by
  cases fuel with
  | zero => rfl
  | succ fuel => rw [readItems, readItems, readValue_congr h]

theorem readFields_congr {s t : List Char} (h : skipGap s = skipGap t) (fuel : Nat) :
    readFields fuel s = readFields fuel t := by
  cases fuel with
  | zero => rfl
  | succ fuel => rw [readFields, readFields, h]

/-! ### Strings -/

/-- The four digits that a control character is escaped with, and the unit that they spell. -/
theorem hexPadded_control : ∀ n < 0x20,
    Digits.hexPadded 4 n = ['0', '0', Digits.hexDigit (n / 16), Digits.hexDigit (n % 16)] ∧
      unit? '0' '0' (Digits.hexDigit (n / 16)) (Digits.hexDigit (n % 16)) = some n := by
  decide

/-- A character is read as it was escaped. -/
theorem readString_escape (seen : List Char) (c : Char) (rest : List Char) :
    readString ⟨some seen, none⟩ (escape c ++ rest) = readString ⟨some (c :: seen), none⟩ rest := by
  unfold escape
  split
  case h_8 hquote hback _ _ _ _ _ =>
    split
    · next hcontrol =>
      obtain ⟨hhex, hunit⟩ := hexPadded_control c.toNat hcontrol
      rw [hhex]
      simp only [List.cons_append, List.nil_append, readString, hunit]
      have hpush : Unit16.pushUnit ⟨some seen, none⟩ c.toNat = ⟨some (c :: seen), none⟩ := by
        simp only [Unit16.pushUnit, Option.map_some, Char.ofNat_toNat]
        rw [if_neg (by simp; omega), if_neg (by simp; omega)]
      rw [hpush]
    · next hprinted =>
      have hplain : (decide (c.toNat < 0x20) || c == '\\') = false := by
        simpa using ⟨Nat.le_of_not_lt hprinted, hback⟩
      rw [List.singleton_append, readString, hplain]
      · rfl
      · exact hquote
      · exact fun _ _ _ _ _ h => absurd h hback
      · exact fun _ _ h => absurd h hback
  all_goals rfl

theorem readString_escaped (seen chars rest : List Char) :
    readString ⟨some seen, none⟩ (chars.flatMap escape ++ '"' :: rest) =
      some (some (String.ofList (seen.reverse ++ chars)), rest) := by
  induction chars generalizing seen with
  | nil => simp [readString, Unit16.finish]
  | cons c chars ih =>
      rw [List.flatMap_cons, List.append_assoc, readString_escape, ih]
      simp

/-! ### Numbers -/

/-- A character that goes on with a number. -/
def continues (c : Char) : Bool := Digits.isDigit c || c == '.' || c == 'e' || c == 'E'

/-- What follows a number: nothing, or a character that does not go on with it. -/
def Ends (rest : List Char) : Prop := ∀ c ∈ rest.head?, continues c = false

theorem Ends.ne_of_cons {c : Char} {rest : List Char} (h : Ends (c :: rest)) :
    Digits.isDigit c = false ∧ c ≠ '.' ∧ c ≠ 'e' ∧ c ≠ 'E' := by
  simpa [continues, and_assoc] using h c rfl

variable {rest : List Char}

theorem digits_append (hend : Ends rest) (s : List Char) :
    digits (s ++ rest) = ((digits s).1, (digits s).2 ++ rest) := by
  simp only [digits, List.span_eq_takeWhile_dropWhile]
  induction s with
  | nil =>
      cases rest with
      | nil => rfl
      | cons c rest => simp [hend.ne_of_cons.1]
  | cons c s ih =>
      cases hc : Digits.isDigit c with
      | false => simp [hc]
      | true => simpa [hc] using ih

theorem readFraction_append (hend : Ends rest) {s fraction left : List Char}
    (h : readFraction s = some (fraction, left)) :
    readFraction (s ++ rest) = some (fraction, left ++ rest) := by
  cases s with
  | nil =>
      cases h
      cases rest with
      | nil => rfl
      | cons c rest =>
          rw [List.nil_append, readFraction]
          exact fun _ heq => hend.ne_of_cons.2.1 (List.cons.inj heq).1
  | cons c s =>
      by_cases hc : c = '.'
      · subst hc
        simp only [List.cons_append, readFraction, digits_append hend] at h ⊢
        split at h
        · cases h
        · next hne =>
          cases h
          rw [if_neg hne]
      · have hpoint : ∀ t, readFraction (c :: t) = some ([], c :: t) := fun t => by
          rw [readFraction]
          exact fun _ heq => hc (List.cons.inj heq).1
        rw [hpoint] at h
        cases h
        exact hpoint (s ++ rest)

/-- The digits of an exponent after its mark and sign. -/
def exponentDigits (down : Bool) (s : List Char) : Option (Option (Bool × List Char) × List Char) :=
  let (ds, rest) := digits s
  if ds.isEmpty then none else some (some (down, ds), rest)

theorem exponentDigits_append (hend : Ends rest) {down : Bool} {s left : List Char}
    {exponent : Option (Bool × List Char)} (h : exponentDigits down s = some (exponent, left)) :
    exponentDigits down (s ++ rest) = some (exponent, left ++ rest) := by
  simp only [exponentDigits, digits_append hend] at h ⊢
  split at h
  · cases h
  · next hne =>
    cases h
    rw [if_neg hne]

theorem readExponent_mark {c : Char} (hmark : (c == 'e' || c == 'E') = true) (s : List Char) :
    readExponent (c :: s) = match s with
      | '+' :: rest => exponentDigits false rest
      | '-' :: rest => exponentDigits true rest
      | _ => exponentDigits false s := by
  simp only [readExponent, hmark, if_true]
  rfl

theorem readExponent_append (hend : Ends rest) {s left : List Char}
    {exponent : Option (Bool × List Char)} (h : readExponent s = some (exponent, left)) :
    readExponent (s ++ rest) = some (exponent, left ++ rest) := by
  cases s with
  | nil =>
      cases h
      cases rest with
      | nil => rfl
      | cons c rest =>
          obtain ⟨-, -, hlower, hupper⟩ := hend.ne_of_cons
          simp [readExponent, hlower, hupper]
  | cons c s =>
      by_cases hmark : (c == 'e' || c == 'E') = true
      · -- After the mark there is a sign, or at least a digit, so what follows does not decide.
        rw [List.cons_append, readExponent_mark hmark] at *
        cases s with
        | nil => cases h
        | cons sign s =>
            split at h
            · next heq =>
              cases heq
              exact exponentDigits_append hend h
            · next heq =>
              cases heq
              exact exponentDigits_append hend h
            · next hplus hminus =>
              split
              · next heq =>
                cases heq
                exact absurd rfl (hplus s)
              · next heq =>
                cases heq
                exact absurd rfl (hminus s)
              · exact exponentDigits_append hend h
      · simp only [List.cons_append, readExponent, hmark] at h ⊢
        cases h
        rfl

theorem readUnsigned_append (hend : Ends rest) {negative : Bool} {s left : List Char}
    {numeral : Numeral} (h : readUnsigned negative s = some (numeral, left)) :
    readUnsigned negative (s ++ rest) = some (numeral, left ++ rest) := by
  simp only [readUnsigned, digits_append hend] at h ⊢
  split at h
  · cases h
  · next hwhole =>
    rw [if_neg hwhole]
    obtain ⟨⟨fraction, left₁⟩, hfraction, h⟩ := Option.bind_eq_some_iff.1 h
    obtain ⟨⟨exponent, left₂⟩, hexponent, h⟩ := Option.bind_eq_some_iff.1 h
    cases h
    simp [readFraction_append hend hfraction, readExponent_append hend hexponent]

/-- A number starts with a digit, behind its sign. -/
theorem readUnsigned_cons {negative : Bool} {s left : List Char} {numeral : Numeral}
    (h : readUnsigned negative s = some (numeral, left)) :
    ∃ c t, s = c :: t ∧ Digits.isDigit c = true := by
  cases s with
  | nil => cases h
  | cons c t =>
      refine ⟨c, t, rfl, ?_⟩
      cases hc : Digits.isDigit c with
      | true => rfl
      | false =>
          have hnone : readUnsigned negative (c :: t) = none := by
            simp [readUnsigned, digits, List.span_eq_takeWhile_dropWhile, hc]
          cases hnone.symm.trans h

/-- A text is read up to its closing quote. -/
theorem readValue_quote (fuel : Nat) (s : List Char) :
    readValue (fuel + 1) ('"' :: s) =
      (readString .start s).map fun (t, rest) => (.text t, rest) := by
  rw [readValue, show skipGap ('"' :: s) = '"' :: s from rfl]
  rfl

/-- What is read where no character is in the way of a number. -/
theorem readValue_unsigned {fuel : Nat} {s left : List Char} {numeral : Numeral}
    (h : readUnsigned false (skipGap s) = some (numeral, left)) :
    readValue (fuel + 1) s = some (.number numeral, left) := by
  obtain ⟨c, t, hs, hc⟩ := readUnsigned_cons h
  rw [hs] at h
  rw [readValue, hs]
  split
  case h_8 => rw [h]; rfl
  all_goals
    next heq =>
      cases heq
      exact absurd hc (by decide)

theorem readValue_negative {fuel : Nat} {s body left : List Char} {numeral : Numeral}
    (hs : skipGap s = '-' :: body) (h : readUnsigned true body = some (numeral, left)) :
    readValue (fuel + 1) s = some (.number numeral, left) := by
  rw [readValue, hs]
  simp only [h, Option.map_some]

/-- Where a number is read, there is one, with a sign or without. -/
theorem readUnsigned_of_readValue {fuel : Nat} {s left : List Char} {numeral : Numeral}
    (h : readValue (fuel + 1) s = some (.number numeral, left)) :
    (∃ body, skipGap s = '-' :: body ∧ readUnsigned true body = some (numeral, left)) ∨
      readUnsigned false (skipGap s) = some (numeral, left) := by
  rw [readValue] at h
  split at h
  case h_5 body hs =>
    obtain ⟨⟨numeral', left'⟩, hbody, heq⟩ := Option.map_eq_some_iff.1 h
    cases heq
    exact .inl ⟨body, hs, hbody⟩
  case h_8 =>
    obtain ⟨⟨numeral', left'⟩, hbody, heq⟩ := Option.map_eq_some_iff.1 h
    cases heq
    exact .inr hbody
  -- In the other cases something else than a number is read.
  case h_6 | h_7 => split at h <;> simp at h
  all_goals simp at h

/-- A number is read alike in front of what does not go on with it. -/
theorem readValue_number_append (hend : Ends rest) {fuel fuel' : Nat} {s left : List Char}
    {numeral : Numeral} (h : readValue (fuel + 1) s = some (.number numeral, left)) :
    readValue (fuel' + 1) (s ++ rest) = some (.number numeral, left ++ rest) := by
  have happend : ∀ c t, skipGap s = c :: t → skipGap (s ++ rest) = c :: t ++ rest := by
    intro c t hs
    rw [skipGap] at hs
    rw [skipGap, List.dropWhile_append, hs]
    rfl
  obtain ⟨body, hs, hbody⟩ | hbody := readUnsigned_of_readValue h
  · exact readValue_negative (happend _ _ hs) (readUnsigned_append hend hbody)
  · obtain ⟨c, t, hs, -⟩ := readUnsigned_cons hbody
    refine readValue_unsigned ?_
    rw [happend c t hs, ← hs]
    exact readUnsigned_append hend hbody

/-! ### Lists and objects -/

variable {fuel : Nat} {s t u v left : List Char} {key : Option String} {item : Document}

theorem readItems_last (hitem : readValue fuel s = some (item, left))
    (hleft : skipGap left = ']' :: rest) : readItems (fuel + 1) s = some ([item], rest) := by
  rw [readItems, hitem]
  simp [hleft]

theorem readItems_more {items : List Document} (hitem : readValue fuel s = some (item, left))
    (hleft : skipGap left = ',' :: t) (hitems : readItems fuel t = some (items, rest)) :
    readItems (fuel + 1) s = some (item :: items, rest) := by
  rw [readItems, hitem]
  simp [hleft, hitems]

theorem readFields_last (hs : skipGap s = '"' :: t)
    (hkey : readString .start t = some (key, ':' :: u))
    (hitem : readValue fuel u = some (item, left))
    (hleft : skipGap left = '}' :: rest) :
    readFields (fuel + 1) s = some ([(key, item)], rest) := by
  have hcolon : skipGap (':' :: u) = ':' :: u := rfl
  rw [readFields, hs]
  simp [hkey, hcolon, hitem, hleft]

theorem readFields_more {fields : List (Option String × Document)} (hs : skipGap s = '"' :: t)
    (hkey : readString .start t = some (key, ':' :: u))
    (hitem : readValue fuel u = some (item, left))
    (hleft : skipGap left = ',' :: v) (hfields : readFields fuel v = some (fields, rest)) :
    readFields (fuel + 1) s = some ((key, item) :: fields, rest) := by
  have hcolon : skipGap (':' :: u) = ':' :: u := rfl
  rw [readFields, hs]
  simp [hkey, hcolon, hitem, hleft, hfields]

theorem readItems_bracket (hs : skipGap s = ']' :: t) (fuel : Nat) :
    readItems fuel s = none := by
  cases fuel with
  | zero => rfl
  | succ fuel =>
      have hvalue : readValue fuel s = none := by
        cases fuel with
        | zero => rfl
        | succ fuel =>
            rw [readValue, hs]
            rfl
      rw [readItems, hvalue]
      rfl

theorem readFields_brace (hs : skipGap s = '}' :: t) (fuel : Nat) :
    readFields fuel s = none := by
  cases fuel with
  | zero => rfl
  | succ fuel =>
      rw [readFields, hs]
      rfl

/-- Where items are read, there is a list of them. -/
theorem readValue_list {items : List Document}
    (h : readItems fuel s = some (items, left)) :
    readValue (fuel + 1) ('[' :: s) = some (.list items, left) := by
  rw [readValue, show skipGap ('[' :: s) = '[' :: s from rfl]
  simp only
  split
  · next hs => cases (readItems_bracket hs fuel).symm.trans h
  · rw [readItems_congr (skipGap_skipGap s), h, Option.map_some]

/-- Where fields are read, there is an object of them. -/
theorem readValue_object {fields : List (Option String × Document)}
    (h : readFields fuel s = some (fields, left)) :
    readValue (fuel + 1) ('{' :: s) = some (.object fields, left) := by
  rw [readValue, show skipGap ('{' :: s) = '{' :: s from rfl]
  simp only
  split
  · next hs => cases (readFields_brace hs fuel).symm.trans h
  · rw [readFields_congr (skipGap_skipGap s), h, Option.map_some]

end TunnelKeeper.Json.Document
