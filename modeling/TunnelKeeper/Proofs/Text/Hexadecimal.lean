import Mathlib.Algebra.Group.Nat.Defs
import TunnelKeeper.Text.Digits

/-!
# Hexadecimal — the one hexadecimal numeral of a number

As with decimal numerals, the numeral of a number from sixteen on is the numeral of its sixteenth,
and one more digit (`hexOfNat_of_ge`).  So the numeral is worth the number, it has no more digits
than the number needs, and all of its characters are digits of the base.
-/

namespace TunnelKeeper.Digits

/-- What a list of hexadecimal digits denotes. -/
def hexValue (numeral : List Char) : Nat :=
  numeral.foldl (fun total c => 16 * total + (hexWorth? c).getD 0) 0

theorem hexWorth?_hexDigit : ∀ {d : Nat}, d < 16 → hexWorth? (hexDigit d) = some d := by decide

/-- Enough fuel writes the whole numeral, in front of what is there. -/
theorem writeHexBefore_eq {fuel n : Nat} (h : n ≤ fuel) (rest : List Char) :
    writeHexBefore fuel n rest = hexOfNat n ++ rest := by
  induction fuel using Nat.strongRecOn generalizing n rest with
  | ind fuel ih =>
    obtain _ | m := n
    · cases fuel <;> rfl
    · obtain ⟨f, rfl⟩ : ∃ f, fuel = f + 1 := ⟨fuel - 1, by omega⟩
      by_cases hm : m + 1 < 16
      · simp [hexOfNat, writeHexBefore, hm]
      · -- Both sides go on with the sixteenth of the number, on fuel of their own.
        have hleft := ih f (by omega) (n := (m + 1) / 16) (by omega)
          (hexDigit ((m + 1) % 16) :: rest)
        have hright := ih m (by omega) (n := (m + 1) / 16) (by omega) [hexDigit ((m + 1) % 16)]
        simp only [hexOfNat, writeHexBefore, hm, if_false] at hleft hright ⊢
        rw [hleft, hright, List.append_assoc, List.singleton_append]

theorem hexOfNat_of_lt {n : Nat} (h : n < 16) : hexOfNat n = [hexDigit n] := by
  obtain _ | n := n
  · rfl
  · simp [hexOfNat, writeHexBefore, h]

/-- The numeral of a number from sixteen on. -/
theorem hexOfNat_of_ge {n : Nat} (h : 16 ≤ n) :
    hexOfNat n = hexOfNat (n / 16) ++ [hexDigit (n % 16)] := by
  obtain ⟨m, rfl⟩ : ∃ m, n = m + 1 := ⟨n - 1, by omega⟩
  rw [← writeHexBefore_eq (show (m + 1) / 16 ≤ m by omega), hexOfNat, writeHexBefore,
    if_neg (by omega)]

/-- A statement of all numbers, from those below sixteen on to those whose sixteenth it is true
of. -/
@[elab_as_elim]
theorem induction_sixteenth {motive : Nat → Prop} (lt : ∀ n, n < 16 → motive n)
    (ge : ∀ n, 16 ≤ n → motive (n / 16) → motive n) (n : Nat) : motive n := by
  induction n using Nat.strongRecOn with
  | ind n ih =>
    by_cases hn : n < 16
    · exact lt n hn
    · exact ge n (by omega) (ih _ (by omega))

/-- A hexadecimal numeral is worth the number that it was written for. -/
theorem hexValue_hexOfNat (n : Nat) : hexValue (hexOfNat n) = n := by
  induction n using induction_sixteenth with
  | lt n hn => simp [hexOfNat_of_lt hn, hexValue, hexWorth?_hexDigit hn]
  | ge n hn ih =>
    rw [hexValue] at ih
    rw [hexOfNat_of_ge hn, hexValue, List.foldl_append, ih]
    simp only [List.foldl_cons, List.foldl_nil, hexWorth?_hexDigit (Nat.mod_lt n (by omega)),
      Option.getD_some]
    omega

theorem isSome_hexWorth?_of_mem {n : Nat} {c : Char} (h : c ∈ hexOfNat n) :
    (hexWorth? c).isSome = true := by
  induction n using induction_sixteenth with
  | lt n hn =>
    rw [hexOfNat_of_lt hn, List.mem_singleton] at h
    rw [h, hexWorth?_hexDigit hn, Option.isSome_some]
  | ge n hn ih =>
    rw [hexOfNat_of_ge hn, List.mem_append, List.mem_singleton] at h
    obtain h | rfl := h
    · exact ih h
    · rw [hexWorth?_hexDigit (Nat.mod_lt n (by omega)), Option.isSome_some]

theorem hexOfNat_ne_nil (n : Nat) : hexOfNat n ≠ [] := by
  by_cases hn : n < 16
  · simp [hexOfNat_of_lt hn]
  · simp [hexOfNat_of_ge (by omega : 16 ≤ n)]

/-- A number has no more digits than it needs. -/
theorem length_hexOfNat_le {n : Nat} : ∀ {width : Nat}, n < 16 ^ (width + 1) →
    (hexOfNat n).length ≤ width + 1 := by
  induction n using induction_sixteenth with
  | lt n hn => simp [hexOfNat_of_lt hn]
  | ge n hn ih =>
    intro width h
    rw [hexOfNat_of_ge hn, List.length_append, List.length_singleton]
    cases width with
    | zero => omega
    | succ width => exact Nat.succ_le_succ (ih (by rw [Nat.pow_succ] at h; omega))

end TunnelKeeper.Digits
