import Mathlib.Algebra.Group.Nat.Defs
import TunnelKeeper.Text.Digits

/-!
# Numerals — the one numeral of a number

The numeral of a number from ten on is the numeral of its tenth, and one more digit
(`ofNat_of_ge`).  From this follows, by induction on the number, what a reader of numerals relies
on: the numeral is worth the number, it consists of digits, and it starts with a zero only where it
is one.
-/

namespace TunnelKeeper.Digits

theorem worth_ofWorth : ∀ {d : Nat}, d < 10 → worth (ofWorth d) = d := by decide

theorem isDigit_ofWorth : ∀ {d : Nat}, d < 10 → isDigit (ofWorth d) = true := by decide

theorem ofWorth_ne_zero : ∀ {d : Nat}, d < 10 → 0 < d → ofWorth d ≠ '0' := by decide

/-- Enough fuel writes the whole numeral, in front of what is there. -/
theorem writeBefore_eq {fuel n : Nat} (h : n ≤ fuel) (rest : List Char) :
    writeBefore fuel n rest = ofNat n ++ rest := by
  induction fuel using Nat.strongRecOn generalizing n rest with
  | ind fuel ih =>
    by_cases hn : n < 10
    · rw [ofNat_of_lt hn]
      cases fuel with
      | zero => simp [writeBefore, Nat.mod_eq_of_lt hn]
      | succ fuel => simp [writeBefore, hn]
    · -- Both sides go on with the tenth of the number, on fuel of their own.
      obtain ⟨m, rfl⟩ : ∃ m, n = m + 1 := ⟨n - 1, by omega⟩
      obtain ⟨f, rfl⟩ : ∃ f, fuel = f + 1 := ⟨fuel - 1, by omega⟩
      have hleft := ih f (by omega) (n := (m + 1) / 10) (by omega)
        (ofWorth ((m + 1) % 10) :: rest)
      have hright := ih m (by omega) (n := (m + 1) / 10) (by omega) [ofWorth ((m + 1) % 10)]
      simp only [ofNat, writeBefore, hn, if_false] at hleft hright ⊢
      rw [hleft, hright, List.append_assoc, List.singleton_append]

/-- The numeral of a number from ten on. -/
theorem ofNat_of_ge {n : Nat} (h : 10 ≤ n) :
    ofNat n = ofNat (n / 10) ++ [ofWorth (n % 10)] := by
  obtain ⟨m, rfl⟩ : ∃ m, n = m + 1 := ⟨n - 1, by omega⟩
  rw [← writeBefore_eq (show (m + 1) / 10 ≤ m by omega), ofNat, writeBefore, if_neg (by omega)]

/-- A statement of all numbers, from those below ten on to those whose tenth it is true of. -/
@[elab_as_elim]
theorem induction_tenth {motive : Nat → Prop} (lt : ∀ n, n < 10 → motive n)
    (ge : ∀ n, 10 ≤ n → motive (n / 10) → motive n) (n : Nat) : motive n := by
  induction n using Nat.strongRecOn with
  | ind n ih =>
    by_cases hn : n < 10
    · exact lt n hn
    · exact ge n (by omega) (ih _ (by omega))

theorem value_append (numeral : List Char) (c : Char) :
    value (numeral ++ [c]) = 10 * value numeral + worth c := by
  simp [value, List.foldl_append]

/-- A numeral is worth the number that it was written for. -/
theorem value_ofNat (n : Nat) : value (ofNat n) = n := by
  induction n using induction_tenth with
  | lt n hn =>
    rw [ofNat_of_lt hn]
    simp [value, worth_ofWorth hn]
  | ge n hn ih =>
    rw [ofNat_of_ge hn, value_append, ih, worth_ofWorth (Nat.mod_lt _ (by omega))]
    omega

theorem isDigit_of_mem_ofNat {n : Nat} {c : Char} (h : c ∈ ofNat n) : isDigit c = true := by
  induction n using induction_tenth with
  | lt n hn =>
    rw [ofNat_of_lt hn, List.mem_singleton] at h
    exact h ▸ isDigit_ofWorth hn
  | ge n hn ih =>
    rw [ofNat_of_ge hn, List.mem_append, List.mem_singleton] at h
    obtain h | rfl := h
    · exact ih h
    · exact isDigit_ofWorth (Nat.mod_lt _ (by omega))

theorem ofNat_ne_nil (n : Nat) : ofNat n ≠ [] := by
  by_cases hn : n < 10
  · simp [ofNat_of_lt hn]
  · simp [ofNat_of_ge (by omega : 10 ≤ n)]

/-- A number has no more digits than it needs. -/
theorem length_ofNat_le {n : Nat} : ∀ {width : Nat}, n < 10 ^ (width + 1) →
    (ofNat n).length ≤ width + 1 := by
  induction n using induction_tenth with
  | lt n hn => simp [ofNat_of_lt hn]
  | ge n hn ih =>
    intro width h
    rw [ofNat_of_ge hn, List.length_append, List.length_singleton]
    cases width with
    | zero => omega
    | succ width => exact Nat.succ_le_succ (ih (by rw [Nat.pow_succ] at h; omega))

/-- Only the numeral of zero starts with a zero. -/
theorem head?_ofNat_ne_zero {n : Nat} (h : 0 < n) : (ofNat n).head? ≠ some '0' := by
  induction n using induction_tenth with
  | lt n hn =>
    rw [ofNat_of_lt hn, List.head?_cons]
    exact fun heq => ofWorth_ne_zero hn h (Option.some.inj heq)
  | ge n hn ih =>
    obtain ⟨c, rest, htenth⟩ := List.exists_cons_of_ne_nil (ofNat_ne_nil (n / 10))
    rw [htenth] at ih
    rw [ofNat_of_ge hn, htenth]
    exact ih (by omega)

/-- A numeral of more than one digit does not start with a zero. -/
theorem length_ofNat_of_head?_zero {n : Nat} (h : (ofNat n).head? = some '0') :
    (ofNat n).length = 1 := by
  rcases Nat.eq_zero_or_pos n with rfl | hpos
  · rfl
  · exact absurd h (head?_ofNat_ne_zero hpos)

end TunnelKeeper.Digits
