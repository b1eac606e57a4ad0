import TunnelKeeper.Proofs.Text.Numerals
import TunnelKeeper.Proofs.Toml.Strings
import TunnelKeeper.Toml.Reader

/-!
# Values — what stands for a key is read back

An entry of a sheet is a text, a number or a list of texts, and each is read back from its line as
the value it stands for (`readValue_entryChars`).  A numeral is read as a number because what
follows its digits makes it neither a date nor a time (`readDateOrNumber_eq_readNumber`), and whole
because it starts with a zero only where it is one.  The items of a list take a line each, and the
reader passes over what the lines begin with.
-/

namespace TunnelKeeper.Toml

open Written (textChars textsChars entryChars? greatest)

variable {fuel depth : Nat} {c : Char} {s rest : List Char}

/-- The value that an entry stands for. -/
def Entry.value : Entry → Value
  | .text s => .text s
  | .natural n => .integer n
  | .texts items => .list (items.map .text)

/-! ### Texts -/

/-- A text is written with a mark in front. -/
theorem exists_textChars_eq_cons (s : List Char) :
    (∃ t, textChars s = '"' :: t) ∨ ∃ t, textChars s = '\'' :: t := by
  unfold textChars
  simp only
  split
  · exact .inl ⟨_, rfl⟩
  split
  · exact .inr ⟨_, rfl⟩
  split
  · exact .inl ⟨_, rfl⟩
  split
  · exact .inr ⟨_, rfl⟩
  split <;> exact .inl ⟨_, rfl⟩

/-- What starts with a text starts with its mark, so it does not go on with any other run. -/
theorem stops_textChars {p : Char → Bool} (hquote : p '"' = false) (hapostrophe : p '\'' = false)
    (s rest : List Char) : Stops p (textChars s ++ rest) := by
  obtain ⟨t, ht⟩ | ⟨t, ht⟩ := exists_textChars_eq_cons s
  · rw [ht]
    exact .cons hquote
  · rw [ht]
    exact .cons hapostrophe

theorem readValue_textChars (s : List Char) (hrest : Stops isMark rest) :
    readValue (fuel + 1) depth (textChars s ++ rest) = some (.text (String.ofList s), rest) := by
  have hread := readString_textChars s hrest
  obtain ⟨t, ht⟩ | ⟨t, ht⟩ := exists_textChars_eq_cons s <;>
    · rw [ht, List.cons_append] at hread ⊢
      rw [readValue, hread]
      rfl

/-! ### Numbers -/

/-- A character that dates and times have between their digits. -/
def isTimeMark (c : Char) : Bool := c == '-' || c == ':'

/-- Digits that no mark of a date or a time follows are no date. -/
theorem readDateOrNumber_eq_readNumber (h : Stops isTimeMark (s.dropWhile Digits.isDigit)) :
    readDateOrNumber s = readNumber s := by
  unfold readDateOrNumber
  split
  · split
    · next a b c d rest hdigits =>
      have hdash : ([a, b, c, d] ++ '-' :: rest).dropWhile Digits.isDigit = '-' :: rest := by
        rw [List.dropWhile_append_of_pos (List.all_eq_true.1 hdigits)]
        rfl
      rw [show a :: b :: c :: d :: '-' :: rest = [a, b, c, d] ++ '-' :: rest from rfl, hdash] at h
      exact absurd (h '-' rfl) (by decide)
    · rfl
  · split
    · next a b rest _ hdigits =>
      have hcolon : ([a, b] ++ ':' :: rest).dropWhile Digits.isDigit = ':' :: rest := by
        rw [List.dropWhile_append_of_pos (List.all_eq_true.1 hdigits)]
        rfl
      rw [show a :: b :: ':' :: rest = [a, b] ++ ':' :: rest from rfl, hcolon] at h
      exact absurd (h ':' rfl) (by decide)
    · rfl
  · rfl

/-- A run of digits is taken up to the end of its line. -/
theorem readRun_digits (hs : ∀ c ∈ s, Digits.isDigit c = true) (hfuel : s.length < fuel) :
    readRun Digits.isDigit fuel (s ++ '\n' :: rest) = some (s, '\n' :: rest) := by
  induction s generalizing fuel with
  | nil =>
      obtain ⟨fuel, rfl⟩ : ∃ f, fuel = f + 1 := ⟨fuel - 1, by omega⟩
      simp [readRun, Digits.isDigit]
  | cons c s ih =>
      obtain ⟨fuel, rfl⟩ : ∃ f, fuel = f + 1 := ⟨fuel - 1, by omega⟩
      obtain ⟨hc, hs⟩ := List.forall_mem_cons.1 hs
      have hmore := ih hs (by simpa using hfuel)
      have hunderscore : c ≠ '_' := by
        rintro rfl
        cases hc
      rw [List.cons_append, readRun, if_pos hc, hmore]
      · rfl
      · exact fun _ _ h => absurd h hunderscore
      · exact fun h => absurd h hunderscore

/-- The whole part of a numeral is all of it. -/
theorem readWhole_ofNat (n : Nat) (rest : List Char) :
    readWhole (Digits.ofNat n ++ '\n' :: rest) = some (Digits.ofNat n, '\n' :: rest) := by
  obtain ⟨c, digits, hdigits⟩ := List.exists_cons_of_ne_nil (Digits.ofNat_ne_nil n)
  have hall : ∀ d ∈ c :: digits, Digits.isDigit d = true := fun d hd =>
    Digits.isDigit_of_mem_ofNat (hdigits ▸ hd)
  obtain ⟨hc, hmore⟩ := List.forall_mem_cons.1 hall
  have hlength : (Digits.ofNat n).head? = some '0' → (Digits.ofNat n).length = 1 :=
    Digits.length_ofNat_of_head?_zero
  rw [hdigits] at hlength ⊢
  by_cases hzero : c = '0'
  · subst hzero
    have hnil : digits = [] := by simpa using hlength rfl
    subst hnil
    rfl
  · rw [List.cons_append, readWhole, readDigits, if_pos hc,
      readRun_digits hmore (by simp only [List.length_append, List.length_cons]; omega)]
    · rfl
    · exact fun _ h => hzero (List.cons.inj h).1

theorem readDecimal_ofNat {n : Nat} (hn : n ≤ greatest) (rest : List Char) :
    readDecimal false (Digits.ofNat n ++ '\n' :: rest) = some (.integer n, '\n' :: rest) := by
  have hsmall : n < Nat.pow 2 63 := Nat.lt_of_le_of_lt hn (by decide)
  simp [readDecimal, readWhole_ofNat, readExponent, integer?, Digits.value_ofNat, hsmall]

/-- A numeral starts with a digit, -/
theorem exists_ofNat_eq_cons (n : Nat) (rest : List Char) :
    ∃ c t, Digits.ofNat n ++ rest = c :: t ∧ Digits.isDigit c = true := by
  obtain ⟨c, digits, hdigits⟩ := List.exists_cons_of_ne_nil (Digits.ofNat_ne_nil n)
  exact ⟨c, digits ++ rest, by rw [hdigits, List.cons_append],
    Digits.isDigit_of_mem_ofNat (hdigits ▸ List.mem_cons_self)⟩

/-- and no letter follows its first digit. -/
theorem second_of_ofNat (n : Nat) {a b : Char} {t : List Char}
    (h : Digits.ofNat n ++ '\n' :: rest = a :: b :: t) : Digits.isDigit b = true ∨ b = '\n' := by
  obtain ⟨c, digits, hdigits⟩ := List.exists_cons_of_ne_nil (Digits.ofNat_ne_nil n)
  rw [hdigits, List.cons_append] at h
  obtain ⟨-, h⟩ := List.cons.inj h
  cases digits with
  | nil => exact .inr (List.cons.inj h).1.symm
  | cons d digits =>
      obtain ⟨rfl, -⟩ := List.cons.inj h
      have hmem : d ∈ Digits.ofNat n := hdigits ▸ List.mem_cons_of_mem c List.mem_cons_self
      exact .inl (Digits.isDigit_of_mem_ofNat hmem)

theorem readNamed_of_digit (hc : Digits.isDigit c = true) (t : List Char) :
    readNamed (c :: t) = none := by
  unfold readNamed
  split
  · next h => exact absurd ((List.cons.inj h).1 ▸ hc) (by decide)
  · next h => exact absurd ((List.cons.inj h).1 ▸ hc) (by decide)
  · rfl

theorem readNumber_ofNat {n : Nat} (hn : n ≤ greatest) (rest : List Char) :
    readNumber (Digits.ofNat n ++ '\n' :: rest) = some (.integer n, '\n' :: rest) := by
  have hdecimal := readDecimal_ofNat hn rest
  have hsecond := @second_of_ofNat rest n
  obtain ⟨c, t, hchars, hc⟩ := exists_ofNat_eq_cons n ('\n' :: rest)
  rw [hchars] at hdecimal hsecond ⊢
  unfold readNumber
  split
  iterate 3
    next h => exact absurd (hsecond h) (by decide)
  iterate 2
    next h => exact absurd ((List.cons.inj h).1 ▸ hc) (by decide)
  · rw [readSigned, readNamed_of_digit hc, hdecimal]

theorem readValue_ofNat {n : Nat} (hn : n ≤ greatest) (rest : List Char) :
    readValue (fuel + 1) depth (Digits.ofNat n ++ '\n' :: rest) =
      some (.integer n, '\n' :: rest) := by
  have hnumber := readNumber_ofNat hn rest
  have hstops : Stops isTimeMark ((Digits.ofNat n ++ '\n' :: rest).dropWhile Digits.isDigit) := by
    rw [(Stops.cons rfl : Stops Digits.isDigit ('\n' :: rest)).dropWhile_append fun _ =>
      Digits.isDigit_of_mem_ofNat]
    exact .cons rfl
  rw [← readDateOrNumber_eq_readNumber hstops] at hnumber
  obtain ⟨c, t, hchars, hc⟩ := exists_ofNat_eq_cons n ('\n' :: rest)
  rw [hchars] at hnumber ⊢
  unfold readValue
  split
  iterate 8
    next h => exact absurd ((List.cons.inj h).1 ▸ hc) (by decide)
  · exact hnumber

/-! ### Lists of texts -/

/-- A character that may stand in front of an item of a list or of what follows one. -/
def isGap (c : Char) : Bool := isBlank c || c == '#' || isLineEnd c

/-- Only blanks are passed over where neither a comment nor a line end follows them. -/
theorem skipLines_of_stops (h : Stops isGap (skipBlanks s)) :
    skipLines (fuel + 1) s = skipBlanks s := by
  have hline : Stops isLineEnd (skipBlanks s) := h.mono fun c hc => by simp [isGap, hc]
  have hend : lineEnd? (skipBlanks s) = none := by
    unfold lineEnd?
    split
    · next heq => exact absurd (hline '\n' (heq ▸ rfl)) (by decide)
    · next heq => exact absurd (hline '\r' (heq ▸ rfl)) (by decide)
    · rfl
  simp only [skipLines]
  split
  · next heq => exact absurd (h '#' (heq ▸ rfl)) (by decide)
  · rw [hend]

theorem skipBlanks_of_stops (h : Stops isBlank s) : skipBlanks s = s := h.dropWhile_eq_self

theorem skipAll_of_stops (h : Stops isGap s) : skipAll s = s := by
  have hblanks : skipBlanks s = s := skipBlanks_of_stops (h.mono fun c hc => by simp [isGap, hc])
  rw [skipAll, skipLines_of_stops (by rwa [hblanks]), hblanks]

/-- What a line of a list begins with is passed over. -/
theorem skipAll_line (blanks : List Char) (hblanks : ∀ c ∈ blanks, isBlank c = true)
    (h : Stops isGap s) : skipAll ('\n' :: (blanks ++ s)) = s := by
  have hskip : skipBlanks (blanks ++ s) = s := by
    rw [skipBlanks, List.dropWhile_append_of_pos hblanks]
    exact skipBlanks_of_stops (h.mono fun c hc => by simp [isGap, hc])
  have hstep : skipAll ('\n' :: (blanks ++ s)) =
      skipLines ((blanks ++ s).length + 1) (blanks ++ s) := rfl
  rw [hstep, skipLines_of_stops (by rwa [hskip]), hskip]

/-- A line of a list of texts. -/
def itemLine (item : String) : List Char :=
  ['\n', ' ', ' ', ' ', ' '] ++ textChars item.toList ++ [',']

/-- Two texts and more are written a line for each. -/
theorem textsChars_cons_cons (first second : String) (items : List String) :
    textsChars (first :: second :: items) =
      '[' :: ((first :: second :: items).flatMap itemLine ++ ['\n', ']']) := rfl

/-- The lines of a list are read one by one up to its end. -/
theorem readItems_lines (items : List String) (hfuel : items.length < fuel) :
    readItems fuel depth (items.flatMap itemLine ++ '\n' :: ']' :: rest) =
      some (items.map .text, rest) := by
  induction items generalizing fuel with
  | nil =>
      obtain ⟨fuel, rfl⟩ : ∃ f, fuel = f + 1 := ⟨fuel - 1, by omega⟩
      have hskip : skipAll ('\n' :: ']' :: rest) = ']' :: rest :=
        skipAll_line [] nofun (.cons rfl)
      rw [List.flatMap_nil, List.nil_append, readItems, hskip]
      rfl
  | cons item items ih =>
      obtain ⟨fuel, rfl⟩ : ∃ f, fuel = f + 2 := ⟨fuel - 2, by simp at hfuel; omega⟩
      have hmore := ih (show items.length < fuel + 1 by simpa using hfuel)
      have hchars : (item :: items).flatMap itemLine ++ '\n' :: ']' :: rest =
          '\n' :: ([' ', ' ', ' ', ' '] ++ (textChars item.toList ++
            (',' :: (items.flatMap itemLine ++ '\n' :: ']' :: rest)))) := by
        simp [itemLine]
      have hcomma : ∀ t, skipAll (',' :: t) = ',' :: t := fun t => skipAll_of_stops (.cons rfl)
      have htext : readValue (fuel + 1) depth
            (textChars item.toList ++ ',' :: (items.flatMap itemLine ++ '\n' :: ']' :: rest)) =
          some (.text (String.ofList item.toList),
            ',' :: (items.flatMap itemLine ++ '\n' :: ']' :: rest)) :=
        readValue_textChars item.toList (.cons rfl)
      have hblanks : ∀ c ∈ [' ', ' ', ' ', ' '], isBlank c = true := List.all_eq_true.1 rfl
      rw [hchars, readItems, skipAll_line _ hblanks (stops_textChars rfl rfl _ _)]
      obtain ⟨t, ht⟩ | ⟨t, ht⟩ := exists_textChars_eq_cons item.toList
      all_goals
        rw [ht, List.cons_append] at htext ⊢
        simp [htext, hcomma, hmore]

/-- A list of texts is read from a line for each, or from one line where there are less than two. -/
theorem readValue_textsChars (items : List String) (hfuel : items.length + 2 ≤ fuel) :
    readValue fuel 0 (textsChars items ++ rest) = some (.list (items.map .text), rest) := by
  obtain ⟨fuel, rfl⟩ : ∃ f, fuel = f + 2 := ⟨fuel - 2, by omega⟩
  have hshallow : ¬nestingLimit ≤ 0 + 1 := by decide
  have hend : ∀ t, skipAll (']' :: t) = ']' :: t := fun t => skipAll_of_stops (.cons rfl)
  match items with
  | [] => simp [textsChars, readValue, hshallow, readItems, hend]
  | [item] =>
      obtain ⟨fuel, rfl⟩ : ∃ f, fuel = f + 1 := ⟨fuel - 1, by simp at hfuel; omega⟩
      have htext : readValue (fuel + 1) 1 (textChars item.toList ++ ']' :: rest) =
          some (.text (String.ofList item.toList), ']' :: rest) :=
        readValue_textChars item.toList (.cons rfl)
      have hskip : skipAll (textChars item.toList ++ ']' :: rest) =
          textChars item.toList ++ ']' :: rest :=
        skipAll_of_stops (stops_textChars rfl rfl item.toList (']' :: rest))
      have hchars : textsChars [item] ++ rest = '[' :: (textChars item.toList ++ ']' :: rest) := by
        simp [textsChars]
      rw [hchars, readValue, if_neg hshallow, readItems, hskip]
      obtain ⟨t, ht⟩ | ⟨t, ht⟩ := exists_textChars_eq_cons item.toList
      all_goals
        rw [ht, List.cons_append] at htext ⊢
        simp [htext, hend]
  | first :: second :: items =>
      have hlines : readItems (fuel + 1) 1
            ((first :: second :: items).flatMap itemLine ++ '\n' :: ']' :: rest) =
          some ((first :: second :: items).map .text, rest) :=
        readItems_lines (first :: second :: items) (by omega)
      have hchars : textsChars (first :: second :: items) ++ rest =
          '[' :: ((first :: second :: items).flatMap itemLine ++ '\n' :: ']' :: rest) := by
        simp [textsChars_cons_cons]
      rw [hchars, readValue, if_neg hshallow, hlines]
      rfl

theorem length_le_textsChars (items : List String) :
    items.length ≤ (textsChars items).length := by
  have hlines : ∀ items : List String, items.length ≤ (items.flatMap itemLine).length := by
    intro items
    induction items with
    | nil => exact Nat.zero_le _
    | cons item items ih =>
        simp only [List.flatMap_cons, List.length_append, itemLine, List.length_cons]
        omega
  match items with
  | [] => exact Nat.zero_le _
  | [item] => exact Nat.succ_le_succ (Nat.zero_le _)
  | first :: second :: items =>
      have h := hlines (first :: second :: items)
      calc (first :: second :: items).length
          _ ≤ ((first :: second :: items).flatMap itemLine).length := h
          _ ≤ ('[' :: ((first :: second :: items).flatMap itemLine ++ ['\n', ']'])).length := by
            simp only [List.length_cons, List.length_append]
            omega

/-- **What stands for a key is read back from its line.** -/
theorem readValue_entryChars {entry : Entry} {chars : List Char}
    (h : entryChars? entry = some chars) (hfuel : chars.length + 2 ≤ fuel) :
    readValue fuel 0 (chars ++ '\n' :: rest) = some (entry.value, '\n' :: rest) := by
  obtain ⟨fuel, rfl⟩ : ∃ f, fuel = f + 1 := ⟨fuel - 1, by omega⟩
  cases entry with
  | text t =>
      obtain rfl := Option.some.inj h
      rw [readValue_textChars _ (.cons rfl), String.ofList_toList]
      rfl
  | natural n =>
      simp only [entryChars?, Option.ite_none_right_eq_some, Option.some.injEq] at h
      obtain ⟨hn, rfl⟩ := h
      exact readValue_ofNat hn rest
  | texts items =>
      obtain rfl := Option.some.inj h
      have hlength := length_le_textsChars items
      exact readValue_textsChars items (by omega)

end TunnelKeeper.Toml
