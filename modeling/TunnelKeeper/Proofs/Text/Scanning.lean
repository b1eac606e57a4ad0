import Mathlib.Data.List.TakeWhile

/-!
# Scanning — where a run of characters ends

A reader that takes characters as long as they are of one kind takes a whole run where what follows
does not go on with it (`Stops`).
-/

namespace TunnelKeeper

/-- What follows does not go on with a run of such characters. -/
def Stops (p : Char → Bool) (rest : List Char) : Prop := ∀ c ∈ rest.head?, p c = false

namespace Stops

variable {p q : Char → Bool} {c : Char} {s rest : List Char}

theorem nil : Stops p [] := nofun

theorem cons (h : p c = false) : Stops p (c :: rest) := by
  rintro _ ⟨⟩
  exact h

theorem mono (h : Stops p rest) (hpq : ∀ c, q c = true → p c = true) : Stops q rest := by
  intro c hc
  by_contra hq
  exact absurd (hpq c (by simpa using hq)) (by simp [h c hc])

theorem takeWhile_eq_nil (h : Stops p rest) : rest.takeWhile p = [] := by
  cases rest with
  | nil => rfl
  | cons c rest => simp [h c rfl]

theorem dropWhile_eq_self (h : Stops p rest) : rest.dropWhile p = rest := by
  cases rest with
  | nil => rfl
  | cons c rest => simp [h c rfl]

/-- A run is taken whole, -/
theorem takeWhile_append (h : Stops p rest) (hs : ∀ c ∈ s, p c = true) :
    (s ++ rest).takeWhile p = s := by
  rw [List.takeWhile_append_of_pos hs, h.takeWhile_eq_nil, List.append_nil]

/-- and what follows it is left. -/
theorem dropWhile_append (h : Stops p rest) (hs : ∀ c ∈ s, p c = true) :
    (s ++ rest).dropWhile p = rest := by
  rw [List.dropWhile_append_of_pos hs, h.dropWhile_eq_self]

end Stops

end TunnelKeeper
