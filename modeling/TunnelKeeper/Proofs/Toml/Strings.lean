import TunnelKeeper.Proofs.Toml.Quoting

/-!
# Strings — a text is read from the form it was written in

A text is written in one of six forms, the plainest that it allows.  Which one it is can be told
from how it begins, so each of them is read back as the text (`readString_textChars`).
-/

namespace TunnelKeeper.Toml

open Written (escape escaped longestRun isControl upperHexDigit textChars)

variable {lines : Bool} {spare run fuel : Nat} {c mark : Char} {s seen rest : List Char}

/-! ### The plainest form -/

/-- A mark that strings begin and end with. -/
def isMark (c : Char) : Bool := c == '"' || c == '\''

/-- A character that a line ends with. -/
def isLineEnd (c : Char) : Bool := c == '\n' || c == '\r'

theorem afterLineEnd_of_stops (h : Stops isLineEnd s) : afterLineEnd s = s := by
  rw [afterLineEnd, lineEnd?.eq_3]
  · rfl
  · rintro _ rfl
    exact absurd (h '\n' rfl) (by decide)
  · rintro _ rfl
    exact absurd (h '\r' rfl) (by decide)

/-- The line end that is put in front of a text of several lines is dropped again; and where none
is put there, the text does not start with one. -/
theorem afterLineEnd_opening {written : List Char}
    (h : s.any (· == '\n') = false → Stops isLineEnd written) :
    afterLineEnd ((if s.any (· == '\n') = true then ['\n'] else []) ++ written) = written := by
  split
  · rfl
  · next hlines => exact afterLineEnd_of_stops (h (Bool.eq_false_iff.2 hlines))

theorem Denotes.stops_lineEnd {chars : List Char} (h : Denotes lines c chars) (hline : c ≠ '\n') :
    Stops isLineEnd (chars ++ rest) := by
  cases h with
  | plain _ _ hallowed =>
      refine .cons ?_
      simp only [isLineEnd, Bool.or_eq_false_iff, beq_eq_false_iff_ne]
      refine ⟨hline, ?_⟩
      rintro rfl
      exact absurd hallowed (by simp [isPlain])
  | escape => exact .cons rfl

theorem stops_escaped (hlines : s.any (· == '\n') = false) :
    Stops isLineEnd (escaped true 2 0 s ++ (['"', '"', '"'] ++ rest)) := by
  cases s with
  | nil => exact .cons rfl
  | cons c s =>
      by_cases hquote : c = '"'
      · subst hquote
        exact .cons rfl
      · have hline : c ≠ '\n' := by
          rintro rfl
          cases hlines
        rw [escaped_other hquote, List.append_assoc]
        exact (denotes_escape hquote).stops_lineEnd hline

theorem Denotes.length_pos {chars : List Char} (h : Denotes lines c chars) : 0 < chars.length := by
  cases h <;> exact Nat.succ_pos _

/-- Nothing is written shorter than it is. -/
theorem length_le_escaped (lines : Bool) (spare run : Nat) (s : List Char) :
    s.length ≤ (escaped lines spare run s).length := by
  induction s generalizing run with
  | nil => exact Nat.zero_le _
  | cons c s ih =>
      by_cases hquote : c = '"'
      · subst hquote
        by_cases hspare : run < spare
        · rw [escaped_spare hspare]
          exact Nat.succ_le_succ (ih (run + 1))
        · have hmore := ih 0
          rw [escaped_quote hspare]
          simp only [List.length_append, List.length_cons, List.length_nil]
          omega
      · have hmore := ih 0
        have hone : 0 < (escape lines c).length := (denotes_escape hquote).length_pos
        rw [escaped_other hquote]
        simp only [List.length_append, List.length_cons]
        omega

/-- A text is read from a quoted line. -/
theorem readString_basic (s : List Char) (hrest : Stops (· == '"') rest) :
    readString (('"' :: escaped false 0 0 s ++ ['"']) ++ rest) = some (String.ofList s, rest) := by
  have hlength := length_le_escaped false 0 0 s
  have hread : readBasic ((escaped false 0 0 s ++ '"' :: rest).length + 1) []
      (escaped false 0 0 s ++ '"' :: rest) = some (String.ofList s, rest) :=
    readBasic_escaped (by simp only [List.length_append]; omega)
  have htext : ('"' :: escaped false 0 0 s ++ ['"']) ++ rest =
      '"' :: (escaped false 0 0 s ++ '"' :: rest) := by simp
  rw [htext, readString, hread]
  -- A second quote would be the end of an empty text, and then there is no third.
  intro t ht
  cases s with
  | nil =>
      rw [escaped, List.nil_append] at ht
      obtain ⟨-, rfl⟩ := List.cons.inj ht
      exact absurd (hrest '"' rfl) (by decide)
  | cons c s =>
      have hhead : Stops (· == '"') (escaped false 0 0 (c :: s) ++ '"' :: rest) := by
        by_cases hquote : c = '"'
        · subst hquote
          rw [escaped_quote (by omega)]
          exact .cons rfl
        · rw [escaped_other hquote, List.append_assoc]
          exact stops_escape hquote
      rw [ht] at hhead
      exact absurd (hhead '"' rfl) (by decide)

/-- A text is read from a line between apostrophes. -/
theorem readString_literal (hs : ∀ c ∈ s, isPlain c = true ∧ c ≠ '\'')
    (hrest : Stops (· == '\'') rest) :
    readString (('\'' :: s ++ ['\'']) ++ rest) = some (String.ofList s, rest) := by
  have htext : ('\'' :: s ++ ['\'']) ++ rest = '\'' :: (s ++ '\'' :: rest) := by simp
  rw [htext, readString, readLiteral_append hs]
  · rfl
  · intro t ht
    cases s with
    | nil =>
        obtain ⟨-, rfl⟩ := List.cons.inj ht
        exact absurd (hrest '\'' rfl) (by decide)
    | cons c s => exact (hs c List.mem_cons_self).2 (List.cons.inj ht).1

/-- What stands in front of a text of several lines. -/
def opening (s : List Char) : List Char := if s.any (· == '\n') = true then ['\n'] else []

/-- A text is read from lines between triple quotes. -/
theorem readString_longBasic (s : List Char) (hrest : Stops (· == '"') rest) :
    readString ((['"', '"', '"'] ++ opening s ++ escaped true 2 0 s ++ ['"', '"', '"']) ++ rest) =
      some (String.ofList s, rest) := by
  have hlength := length_le_escaped true 2 0 s
  have htext : (['"', '"', '"'] ++ opening s ++ escaped true 2 0 s ++ ['"', '"', '"']) ++ rest =
      '"' :: '"' :: '"' :: (opening s ++ (escaped true 2 0 s ++ (['"', '"', '"'] ++ rest))) := by
    simp
  rw [htext, readString, opening, afterLineEnd_opening stops_escaped,
    readLongBasic_escaped (by omega) (by simp only [List.length_append]; omega) hrest]
  rfl

/-- A text is read from lines between triple apostrophes. -/
theorem readString_longLiteral (hs : ∀ c ∈ s, isPlain c = true ∨ c = '\n')
    (hruns : longestRun '\'' 0 0 s ≤ 2) (hrest : Stops (· == '\'') rest) :
    readString ((['\'', '\'', '\''] ++ opening s ++ s ++ ['\'', '\'', '\'']) ++ rest) =
      some (String.ofList s, rest) := by
  have htext : (['\'', '\'', '\''] ++ opening s ++ s ++ ['\'', '\'', '\'']) ++ rest =
      '\'' :: '\'' :: '\'' :: (opening s ++ (s ++ (['\'', '\'', '\''] ++ rest))) := by simp
  have hstops : s.any (· == '\n') = false →
      Stops isLineEnd (s ++ (['\'', '\'', '\''] ++ rest)) := by
    intro hlines
    cases s with
    | nil => exact .cons rfl
    | cons c s =>
        refine .cons ?_
        have hline : c ≠ '\n' := by
          rintro rfl
          cases hlines
        have hreturn : c ≠ '\r' := by
          rintro rfl
          exact absurd (hs '\r' List.mem_cons_self) (by decide)
        simp [isLineEnd, hline, hreturn]
  rw [htext, readString, opening, afterLineEnd_opening hstops,
    readLongLiteral_append hs hruns (by simp only [List.length_append]; omega) hrest]
  rfl

theorem longestRun_pos (h : mark ∈ s) : 0 < longestRun mark 0 0 s := by
  induction s with
  | nil => cases h
  | cons c s ih =>
      rcases List.mem_cons.1 h with rfl | h
      · have hrun := (le_longestRun mark 0 0 (mark :: s)).1
        rw [List.takeWhile_cons_of_pos (by simp), List.length_cons] at hrun
        omega
      · exact Nat.lt_of_lt_of_le (ih h) (longestRun_tail c s)

/-- **A text is read from the form it was written in**, where what follows is no mark. -/
theorem readString_textChars (s : List Char) (hrest : Stops isMark rest) :
    readString (textChars s ++ rest) = some (String.ofList s, rest) := by
  have hquote : Stops (· == '"') rest := hrest.mono fun c hc => by simp_all [isMark]
  have hapostrophe : Stops (· == '\'') rest := hrest.mono fun c hc => by simp_all [isMark]
  have hplain : (!s.any isControl) = true → ∀ c ∈ s, isPlain c = true ∨ c = '\n' := by
    intro hcontrol c hc
    refine isPlain_of_not_control (Bool.eq_false_iff.2 fun h => ?_)
    rw [List.any_eq_true.2 ⟨c, hc, h⟩] at hcontrol
    cases hcontrol
  unfold textChars
  simp only
  split
  · exact readString_basic s hquote
  split
  · next h =>
    simp only [Bool.and_eq_true, beq_iff_eq, Bool.not_eq_true'] at h
    obtain ⟨⟨hcontrol, hruns⟩, hlines⟩ := h
    refine readString_literal (fun c hc => ⟨?_, ?_⟩) hapostrophe
    · refine (hplain (by simpa using hcontrol) c hc).resolve_right ?_
      rintro rfl
      have hsome : s.any (· == '\n') = true := List.any_eq_true.2 ⟨'\n', hc, rfl⟩
      rw [hlines] at hsome
      cases hsome
    · rintro rfl
      exact absurd (longestRun_pos hc) (by omega)
  split
  · exact readString_longBasic s hquote
  split
  · next h =>
    simp only [Bool.and_eq_true, decide_eq_true_eq] at h
    exact readString_longLiteral (hplain h.1) h.2 hapostrophe
  split
  · next hlines =>
    have hread := readString_longBasic s hquote
    rwa [opening, if_pos hlines] at hread
  · exact readString_basic s hquote

end TunnelKeeper.Toml
