import Mathlib.Data.List.TakeWhile
import TunnelKeeper.Proofs.Text.Scanning
import TunnelKeeper.Toml.Printer
import TunnelKeeper.Toml.Scalar

/-!
# Quoting — a text is read back from between its marks

Between quotes every character stands for itself or is escaped (`Denotes`); between apostrophes it
stands for itself, which the writer allows only where it is plain.

The forms of several lines end with three marks in a row, and one or two marks may stand in front of
those and belong to the text.  So at every place the reader counts the marks that are ahead.  The
writer sees to it that there are never three before the end: either all that is left of the text is
marks, two of them at most, or there are less than three ahead (`marks_ahead`,
`quotes_ahead`).

* `readBasic_escaped`, `readLiteral_append`: a text on one line is read back.
* `readLongBasic_escaped`, `readLongLiteral_append`: so is one on several lines.
-/

namespace TunnelKeeper.Toml

open Written (escape escaped longestRun isControl upperHexDigit textChars)

variable {lines : Bool} {spare run fuel : Nat} {c mark : Char} {s seen rest : List Char}

/-! ### Characters between quotes -/

/-- Characters that stand for one between quotes: itself, or an escape of it. -/
inductive Denotes (lines : Bool) : Char → List Char → Prop where
  | plain {c : Char} (ne_quote : c ≠ '"') (ne_backslash : c ≠ '\\')
      (allowed : isPlain c = true ∨ lines = true ∧ c = '\n') : Denotes lines c [c]
  | escape {c letter : Char} {more : List Char} (visible : isSpace letter = false)
      (ne_return : letter ≠ '\r')
      (read : ∀ rest, readEscape (letter :: (more ++ rest)) = some (c, rest)) :
      Denotes lines c ('\\' :: letter :: more)

theorem denotes_quote : Denotes lines '"' ['\\', '"'] :=
  .escape (by decide) (by decide) fun _ => rfl

/-- The digits that a control character is escaped with spell it. -/
theorem spelled?_control : ∀ n < 0x80,
    spelled? ['0', '0', upperHexDigit (n / 16), upperHexDigit (n % 16)] = some (Char.ofNat n) := by
  decide

/-- What needs no escape is plain, but for the line feed. -/
theorem isPlain_of_not_control (h : isControl c = false) : isPlain c = true ∨ c = '\n' := by
  simp only [isControl, Bool.and_eq_false_iff, Bool.or_eq_false_iff, bne_eq_false_iff_eq,
    decide_eq_false_iff_not, beq_eq_false_iff_ne] at h
  obtain (rfl | rfl) | ⟨hlow, hdelete⟩ := h
  · exact .inl rfl
  · exact .inr rfl
  · exact .inl (by simp [isPlain, hdelete, Nat.le_of_not_lt hlow])

/-- A character is read as it was escaped. -/
theorem denotes_escape (hquote : c ≠ '"') : Denotes lines c (escape lines c) := by
  unfold escape
  split
  case h_3 =>
    split
    · exact .plain (by decide) (by decide) (.inr ⟨‹_›, rfl⟩)
    · exact .escape (by decide) (by decide) fun _ => rfl
  case h_7 hline _ _ hbackslash =>
    split
    · next hcontrol =>
      have hsmall : c.toNat < 0x80 := by
        simp only [isControl, Bool.and_eq_true, Bool.or_eq_true, decide_eq_true_eq,
          beq_iff_eq] at hcontrol
        omega
      refine .escape (by decide) (by decide) fun rest => ?_
      have hspelled := spelled?_control c.toNat hsmall
      rw [Char.ofNat_toNat] at hspelled
      simp [readEscape, hspelled]
    · next hcontrol =>
      have hplain := isPlain_of_not_control (Bool.eq_false_iff.2 hcontrol)
      exact .plain hquote hbackslash (.inl (hplain.resolve_right hline))
  all_goals exact .escape (by decide) (by decide) fun _ => rfl

theorem escaped_spare (h : run < spare) (s : List Char) :
    escaped lines spare run ('"' :: s) = '"' :: escaped lines spare (run + 1) s := by
  rw [escaped, if_pos h]

theorem escaped_quote (h : ¬run < spare) (s : List Char) :
    escaped lines spare run ('"' :: s) = ['\\', '"'] ++ escaped lines spare 0 s := by
  rw [escaped, if_neg h]
  rfl

theorem escaped_other (h : c ≠ '"') (s : List Char) :
    escaped lines spare run (c :: s) = escape lines c ++ escaped lines spare 0 s := by
  rw [escaped]
  exact h

/-! ### One line -/

theorem readBasic_denotes {chars : List Char} (h : Denotes false c chars) :
    readBasic (fuel + 1) seen (chars ++ rest) = readBasic fuel (c :: seen) rest := by
  cases h with
  | plain hquote hbackslash hallowed =>
      have hplain : isPlain c = true := by simpa using hallowed
      rw [List.singleton_append, readBasic, if_pos hplain]
      · exact hquote
      · exact hbackslash
  | escape _ _ hread => simp [readBasic, hread]

/-- A text is read from what is written between quotes. -/
theorem readBasic_escaped (hfuel : s.length < fuel) :
    readBasic fuel seen (escaped false 0 run s ++ '"' :: rest) =
      some (String.ofList (seen.reverse ++ s), rest) := by
  induction s generalizing fuel seen run with
  | nil =>
      obtain ⟨fuel, rfl⟩ : ∃ f, fuel = f + 1 := ⟨fuel - 1, by omega⟩
      simp [escaped, readBasic]
  | cons c s ih =>
      obtain ⟨fuel, rfl⟩ : ∃ f, fuel = f + 1 := ⟨fuel - 1, by omega⟩
      have hmore : readBasic fuel (c :: seen) (escaped false 0 0 s ++ '"' :: rest) =
          some (String.ofList ((c :: seen).reverse ++ s), rest) := ih (by simpa using hfuel)
      rw [List.reverse_cons, List.append_assoc, List.singleton_append] at hmore
      by_cases hquote : c = '"'
      · subst hquote
        rw [escaped_quote (by omega), List.append_assoc, readBasic_denotes denotes_quote, hmore]
      · rw [escaped_other hquote, List.append_assoc, readBasic_denotes (denotes_escape hquote),
          hmore]

/-- Plain characters other than the apostrophe are read as they stand between apostrophes. -/
theorem readLiteral_append (hs : ∀ c ∈ s, isPlain c = true ∧ c ≠ '\'') :
    readLiteral seen (s ++ '\'' :: rest) = some (String.ofList (seen.reverse ++ s), rest) := by
  induction s generalizing seen with
  | nil => simp [readLiteral]
  | cons c s ih =>
      obtain ⟨⟨hplain, hmark⟩, hs⟩ := List.forall_mem_cons.1 hs
      rw [List.cons_append, readLiteral, if_pos hplain, ih hs]
      · simp
      · exact hmark

/-! ### Several lines -/

/-- Fewer than three marks do not end a text. -/
theorem closing?_short (h : (s.takeWhile (· == mark)).length < 3) : closing? mark s = none := by
  simp [closing?, h]

/-- Three marks do, and up to two in front of them belong to it. -/
theorem closing?_replicate {k : Nat} (hk : k ≤ 2) (hrest : Stops (· == mark) rest) :
    closing? mark (List.replicate k mark ++ ([mark, mark, mark] ++ rest)) =
      some (List.replicate k mark, rest) := by
  have hmarks : List.replicate k mark ++ ([mark, mark, mark] ++ rest) =
      List.replicate (k + 3) mark ++ rest := by
    rw [← List.append_assoc, ← List.replicate_append_replicate]
    rfl
  have hrun : (List.replicate (k + 3) mark ++ rest).takeWhile (· == mark) =
      List.replicate (k + 3) mark :=
    hrest.takeWhile_append fun c hc => by simpa using List.eq_of_mem_replicate hc
  have hkept : min (k + 3 - 3) 2 = k := by omega
  rw [hmarks, closing?, hrun, List.length_replicate, if_neg (by omega), hkept]
  simp only [List.drop_left' List.length_replicate]

theorem readLongBasic_closing {kept : List Char} (h : closing? '"' s = some (kept, rest)) :
    readLongBasic (fuel + 1) seen s = some (String.ofList (kept ++ seen).reverse, rest) := by
  unfold readLongBasic
  rw [h]

/-- A character that is allowed is read as it stands, where the text does not end there. -/
theorem readLongBasic_plain (hclosing : closing? '"' (c :: rest) = none) (hbackslash : c ≠ '\\')
    (hallowed : isPlain c = true ∨ c = '\n') :
    readLongBasic (fuel + 1) seen (c :: rest) = readLongBasic fuel (c :: seen) rest := by
  have hreturn : c ≠ '\r' := by
    rintro rfl
    exact absurd hallowed (by decide)
  have hallowed : (isPlain c || c == '\n') = true := by simpa using hallowed
  rw [readLongBasic, hclosing]
  · simp only [hallowed, if_true]
  · exact hbackslash
  · exact fun _ h => absurd h hreturn

/-- No character but the quote is written with a quote in front. -/
theorem Denotes.stops {chars : List Char} (h : Denotes lines c chars) :
    Stops (· == '"') (chars ++ rest) := by
  cases h with
  | plain hquote => exact .cons (by simpa using hquote)
  | escape => exact .cons rfl

theorem stops_escape (hquote : c ≠ '"') : Stops (· == '"') (escape lines c ++ rest) :=
  (denotes_escape hquote).stops

theorem readLongBasic_denotes {chars : List Char} (h : Denotes true c chars) :
    readLongBasic (fuel + 1) seen (chars ++ rest) = readLongBasic fuel (c :: seen) rest := by
  have hclosing : closing? '"' (chars ++ rest) = none :=
    closing?_short (by simp [h.stops.takeWhile_eq_nil])
  cases h with
  | plain _ hbackslash hallowed =>
      exact readLongBasic_plain hclosing hbackslash (by simpa using hallowed)
  | @escape letter more hvisible hreturn hread =>
      have hblank : isBlank letter = false := by
        simp only [isSpace, Bool.or_eq_false_iff] at hvisible
        exact hvisible.1
      have hline : escapedLineEnd? (letter :: (more ++ rest)) = none := by
        rw [escapedLineEnd?, skipBlanks, List.dropWhile_cons_of_neg (by simp [hblank]), lineEnd?]
        · rfl
        · intro _ h
          obtain ⟨rfl, -⟩ := List.cons.inj h
          cases hvisible
        · exact fun _ h => hreturn (List.cons.inj h).1
      simp only [List.cons_append] at hclosing
      simp only [List.cons_append, readLongBasic, hclosing, hline, hread]

theorem escaped_replicate {k : Nat} (h : k + run ≤ spare) :
    escaped lines spare run (List.replicate k '"') = List.replicate k '"' := by
  induction k generalizing run with
  | zero => rfl
  | succ k ih => rw [List.replicate_succ, escaped_spare (by omega), ih (by omega)]

/-- **Quotes ahead.**  Where `run` quotes have just been written, all that is left of the text is
quotes that make two of them at most, or there are not enough ahead to make three. -/
theorem quotes_ahead (hrun : run ≤ 2) (s rest : List Char) :
    (∃ k, k + run ≤ 2 ∧ s = List.replicate k '"') ∨
      ((escaped true 2 run s ++ rest).takeWhile (· == '"')).length + run < 3 := by
  induction s generalizing run with
  | nil => exact .inl ⟨0, by omega, rfl⟩
  | cons c s ih =>
      by_cases hquote : c = '"'
      · subst hquote
        by_cases hspare : run < 2
        · rcases ih (show run + 1 ≤ 2 by omega) with ⟨k, hk, rfl⟩ | hshort
          · exact .inl ⟨k + 1, by omega, rfl⟩
          · right
            rw [escaped_spare hspare, List.cons_append, List.takeWhile_cons_of_pos rfl,
              List.length_cons]
            omega
        · right
          have hstops : Stops (· == '"') (['\\', '"'] ++ escaped true 2 0 s ++ rest) := .cons rfl
          rw [escaped_quote hspare, hstops.takeWhile_eq_nil, List.length_nil]
          omega
      · right
        rw [escaped_other hquote, List.append_assoc,
          (stops_escape hquote).takeWhile_eq_nil, List.length_nil]
        omega

/-- A text is read from what is written between triple quotes. -/
theorem readLongBasic_escaped (hrun : run ≤ 2) (hfuel : s.length < fuel)
    (hrest : Stops (· == '"') rest) :
    readLongBasic fuel seen (escaped true 2 run s ++ (['"', '"', '"'] ++ rest)) =
      some (String.ofList (seen.reverse ++ s), rest) := by
  induction s generalizing fuel seen run with
  | nil =>
      obtain ⟨fuel, rfl⟩ : ∃ f, fuel = f + 1 := ⟨fuel - 1, by omega⟩
      have hclosing := closing?_replicate (k := 0) (Nat.zero_le 2) hrest
      rw [List.replicate_zero] at hclosing
      rw [escaped, readLongBasic_closing hclosing]
      simp
  | cons c s ih =>
      obtain ⟨fuel, rfl⟩ : ∃ f, fuel = f + 1 := ⟨fuel - 1, by omega⟩
      have hless : s.length < fuel := by simpa using hfuel
      have hmore : ∀ run ≤ 2,
          readLongBasic fuel (c :: seen) (escaped true 2 run s ++ (['"', '"', '"'] ++ rest)) =
            some (String.ofList (seen.reverse ++ c :: s), rest) := fun run hrun => by
        rw [ih hrun hless, List.reverse_cons, List.append_assoc, List.singleton_append]
      rcases quotes_ahead hrun (c :: s) (['"', '"', '"'] ++ rest) with ⟨k, hk, hs⟩ | hshort
      · rw [hs, escaped_replicate hk,
          readLongBasic_closing (closing?_replicate (by omega) hrest)]
        simp
      · by_cases hquote : c = '"'
        · subst hquote
          by_cases hspare : run < 2
          · rw [escaped_spare hspare, List.cons_append] at hshort ⊢
            rw [readLongBasic_plain (closing?_short (by omega)) (by decide) (.inl rfl),
              hmore _ (by omega)]
          · rw [escaped_quote hspare, List.append_assoc, readLongBasic_denotes denotes_quote,
              hmore 0 (by omega)]
        · rw [escaped_other hquote, List.append_assoc,
            readLongBasic_denotes (denotes_escape hquote), hmore 0 (by omega)]

/-- A run that is under way counts towards the longest one. -/
theorem le_longestRun (mark : Char) (current longest : Nat) (s : List Char) :
    current + (s.takeWhile (· == mark)).length ≤ longestRun mark current longest s ∧
      longest ≤ longestRun mark current longest s := by
  induction s generalizing current longest with
  | nil =>
      simp only [longestRun, List.takeWhile_nil, List.length_nil]
      omega
  | cons c s ih =>
      rw [longestRun]
      by_cases hc : c = mark
      · obtain ⟨hrun, hlongest⟩ := ih (current + 1) longest
        simp only [hc, beq_self_eq_true, if_true, List.takeWhile_cons_of_pos, List.length_cons]
        omega
      · obtain ⟨-, hlongest⟩ := ih 0 (max current longest)
        simp only [hc, beq_iff_eq, if_false, not_false_eq_true, List.takeWhile_cons_of_neg,
          List.length_nil]
        omega

/-- What is left of a text has no longer runs than the text. -/
theorem longestRun_mono {current longest current' longest' : Nat} (hcurrent : current ≤ current')
    (hlongest : longest ≤ longest') (s : List Char) :
    longestRun mark current longest s ≤ longestRun mark current' longest' s := by
  induction s generalizing current longest current' longest' with
  | nil =>
      simp only [longestRun]
      omega
  | cons c s ih =>
      simp only [longestRun]
      split
      · exact ih (by omega) hlongest
      · exact ih (Nat.le_refl 0) (by omega)

theorem longestRun_tail (c : Char) (s : List Char) :
    longestRun mark 0 0 s ≤ longestRun mark 0 0 (c :: s) := by
  rw [longestRun]
  split
  · exact longestRun_mono (Nat.zero_le 1) (Nat.le_refl 0) s
  · exact Nat.le_refl _

/-- **Marks ahead.**  In a text without three marks in a row, all that is left is marks, two of them
at most, or there are not three of them ahead. -/
theorem marks_ahead (hs : longestRun mark 0 0 s ≤ 2) (rest : List Char) :
    (∃ k ≤ 2, s = List.replicate k mark) ∨
      ((s ++ rest).takeWhile (· == mark)).length < 3 := by
  have hrun := (le_longestRun mark 0 0 s).1
  rw [List.takeWhile_append]
  split
  · next hall =>
    left
    refine ⟨s.length, by omega, List.eq_replicate_iff.2 ⟨rfl, fun c hc => ?_⟩⟩
    have heq := (List.takeWhile_prefix (· == mark)).eq_of_length hall
    exact beq_iff_eq.1 (List.mem_takeWhile_imp (p := (· == mark)) (heq.symm ▸ hc))
  · right
    omega

theorem readLongLiteral_closing {kept : List Char} (h : closing? '\'' s = some (kept, rest)) :
    readLongLiteral (fuel + 1) seen s = some (String.ofList (kept ++ seen).reverse, rest) := by
  unfold readLongLiteral
  rw [h]

theorem readLongLiteral_plain (hclosing : closing? '\'' (c :: rest) = none)
    (hallowed : isPlain c = true ∨ c = '\n') :
    readLongLiteral (fuel + 1) seen (c :: rest) = readLongLiteral fuel (c :: seen) rest := by
  have hreturn : c ≠ '\r' := by
    rintro rfl
    exact absurd hallowed (by decide)
  have hallowed : (isPlain c || c == '\n') = true := by simpa using hallowed
  rw [readLongLiteral, hclosing]
  · simp only [hallowed, if_true]
  · exact fun _ h => absurd h hreturn

/-- A text of plain characters in which no three apostrophes stand in a row is read from between
triple apostrophes. -/
theorem readLongLiteral_append (hs : ∀ c ∈ s, isPlain c = true ∨ c = '\n')
    (hruns : longestRun '\'' 0 0 s ≤ 2) (hfuel : s.length < fuel)
    (hrest : Stops (· == '\'') rest) :
    readLongLiteral fuel seen (s ++ (['\'', '\'', '\''] ++ rest)) =
      some (String.ofList (seen.reverse ++ s), rest) := by
  induction s generalizing fuel seen with
  | nil =>
      obtain ⟨fuel, rfl⟩ : ∃ f, fuel = f + 1 := ⟨fuel - 1, by omega⟩
      have hclosing := closing?_replicate (k := 0) (Nat.zero_le 2) hrest
      rw [List.replicate_zero] at hclosing
      rw [readLongLiteral_closing hclosing]
      simp
  | cons c s ih =>
      obtain ⟨fuel, rfl⟩ : ∃ f, fuel = f + 1 := ⟨fuel - 1, by omega⟩
      obtain ⟨hc, hmore⟩ := List.forall_mem_cons.1 hs
      rcases marks_ahead hruns (['\'', '\'', '\''] ++ rest) with ⟨k, hk, heq⟩ | hshort
      · rw [heq, readLongLiteral_closing (closing?_replicate hk hrest)]
        simp
      · rw [List.cons_append] at hshort ⊢
        rw [readLongLiteral_plain (closing?_short hshort) hc,
          ih hmore ((longestRun_tail c s).trans hruns) (by simpa using hfuel)]
        simp

end TunnelKeeper.Toml
