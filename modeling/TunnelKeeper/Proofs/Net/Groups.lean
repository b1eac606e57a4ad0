import Mathlib.Data.List.Basic
import TunnelKeeper.Net.Reading
import TunnelKeeper.Proofs.Text.Hexadecimal
import TunnelKeeper.Proofs.Text.Numerals
import TunnelKeeper.Proofs.Text.Scanning

/-!
# Groups — the numbers of an address are read back

The first family is four numerals and the points between them (`readIpv4_chars`).  In the second,
the reader asks at every group whether four octets stand there, and what keeps it from being misled
is that a group is followed by no point (`readIpv4_group`).  So any groups with colons between them
are read back, whatever ends them (`readGroups_groupsChars`).
-/

namespace TunnelKeeper.Net

variable {rest : List Char}

/-! ### Numbers -/

theorem isSome_decimal? (c : Char) : (decimal? c).isSome = Digits.isDigit c := by
  cases h : Digits.isDigit c <;> simp [decimal?, h]

theorem decimal?_eq_some {c : Char} (h : Digits.isDigit c = true) :
    decimal? c = some (Digits.worth c) := by
  simp [decimal?, h]

theorem isSome_hexWorth? {c : Char} (h : Digits.isDigit c = true) :
    (Digits.hexWorth? c).isSome = true := by
  simp [Digits.hexWorth?, h]

/-- A narrow number is read where it is short enough and has no zero in front. -/
theorem readNarrow_append {digit? : Char → Option Nat} (base : Nat) {width : Nat} {zeros : Bool}
    {digits : List Char} (hnil : digits ≠ []) (hdigits : ∀ c ∈ digits, (digit? c).isSome = true)
    (hwidth : digits.length ≤ width)
    (hzeros : zeros = true ∨ (digits.head? = some '0' → digits.length = 1))
    (hrest : Stops (fun c => (digit? c).isSome) rest) :
    readNarrow digit? base width zeros (digits ++ rest) =
      some (digits.foldl (fun total c => base * total + (digit? c).getD 0) 0, rest) := by
  have hwidth : (digits.isEmpty || decide (width < digits.length)) = false := by
    simp [hnil, hwidth]
  have hzeros : (!zeros && digits.head? == some '0' && decide (1 < digits.length)) = false := by
    rcases hzeros with rfl | hzeros
    · rfl
    · by_cases hhead : digits.head? = some '0'
      · simp [hzeros hhead]
      · simp [hhead]
  simp only [readNarrow, hrest.takeWhile_append hdigits, hrest.dropWhile_append hdigits, hwidth,
    hzeros, Bool.false_eq_true, if_false]

/-- What follows a narrow number is what is left behind its digits. -/
theorem eq_dropWhile_of_readNarrow {digit? : Char → Option Nat} {base width n : Nat} {zeros : Bool}
    {s : List Char} (h : readNarrow digit? base width zeros s = some (n, rest)) :
    rest = s.dropWhile fun c => (digit? c).isSome := by
  simp only [readNarrow, Option.ite_none_left_eq_some, Option.some.injEq, Prod.mk.injEq] at h
  exact h.2.2.2.symm

/-- There is no narrow number where no digit stands. -/
theorem readNarrow_of_stops {digit? : Char → Option Nat} (base width : Nat) (zeros : Bool)
    (h : Stops (fun c => (digit? c).isSome) rest) :
    readNarrow digit? base width zeros rest = none := by
  simp [readNarrow, h.takeWhile_eq_nil]

theorem readBelow_ofNat {bound n : Nat} (hn : n < bound) (hrest : Stops Digits.isDigit rest) :
    readBelow bound (Digits.ofNat n ++ rest) = some (n, rest) := by
  have hdigits : ∀ c ∈ Digits.ofNat n, Digits.isDigit c = true :=
    fun c => Digits.isDigit_of_mem_ofNat
  have hempty : (Digits.ofNat n).isEmpty = false := by simpa using Digits.ofNat_ne_nil n
  simp [readBelow, hrest.takeWhile_append hdigits, hrest.dropWhile_append hdigits, hempty,
    Digits.value_ofNat, hn]

/-! ### The first family -/

theorem readOctet_ofNat (n : UInt8) (hrest : Stops Digits.isDigit rest) :
    readOctet (Digits.ofNat n.toNat ++ rest) = some (n, rest) := by
  have hn := n.toNat_lt
  have hfold : (Digits.ofNat n.toNat).foldl
      (fun total c => 10 * total + (decimal? c).getD 0) 0 = n.toNat := by
    refine Eq.trans (List.foldl_ext _ _ _ fun total c hc => ?_) (Digits.value_ofNat n.toNat)
    rw [decimal?_eq_some (Digits.isDigit_of_mem_ofNat hc), Option.getD_some]
  have hwidth : (Digits.ofNat n.toNat).length ≤ 2 + 1 := Digits.length_ofNat_le (by omega)
  have hzeros : false = true ∨
      ((Digits.ofNat n.toNat).head? = some '0' → (Digits.ofNat n.toNat).length = 1) :=
    .inr Digits.length_ofNat_of_head?_zero
  have hread := readNarrow_append 10 (Digits.ofNat_ne_nil n.toNat)
    (fun c hc => (isSome_decimal? c).trans (Digits.isDigit_of_mem_ofNat hc)) hwidth hzeros
    (hrest.mono fun c hc => (isSome_decimal? c).symm.trans hc)
  rw [hfold] at hread
  rw [readOctet, hread]
  simp only [Option.bind_eq_bind, Option.bind_some, if_pos hn]
  exact congrArg (fun n => some (n, rest)) (UInt8.ofNat_toNat (x := n))

theorem stops_point {s : List Char} : Stops Digits.isDigit ('.' :: s) := .cons rfl

theorem readIpv4_chars (ip : Ipv4) (hrest : Stops Digits.isDigit rest) :
    readIpv4 (ip.chars ++ rest) = some (ip, rest) := by
  simp only [Ipv4.chars, List.append_assoc, List.cons_append]
  simp only [readIpv4, readOctet_ofNat _ stops_point, Option.bind_eq_bind, Option.bind_some, expect,
    beq_self_eq_true, if_true, readOctet_ofNat _ hrest]
  rfl

theorem readIpv4_of_stops (h : Stops Digits.isDigit rest) : readIpv4 rest = none := by
  have hnarrow := readNarrow_of_stops 10 3 false
    (h.mono fun c hc => (isSome_decimal? c).symm.trans hc)
  simp [readIpv4, readOctet, hnarrow]

/-! ### The second family -/

/-- A character of a group. -/
def isHex (c : Char) : Bool := (Digits.hexWorth? c).isSome

/-- What follows a group: neither another digit of it nor a point. -/
def EndsGroup (rest : List Char) : Prop := Stops isHex rest ∧ Stops (· == '.') rest

/-- What follows the groups of an address when there are fewer of them than there could be: no colon
in front of another one. -/
def EndsGroups (rest : List Char) : Prop := ∀ s, rest = ':' :: s → Stops isHex s

theorem EndsGroup.cons {c : Char} (hhex : isHex c = false) (hpoint : c ≠ '.') :
    EndsGroup (c :: rest) :=
  ⟨.cons hhex, .cons (by simpa using hpoint)⟩

theorem EndsGroups.cons {c : Char} (h : c ≠ ':') : EndsGroups (c :: rest) := by
  rintro s ⟨⟩
  exact absurd rfl h

theorem endsGroup_colon {s : List Char} : EndsGroup (':' :: s) := .cons rfl (by decide)

theorem stops_isDigit (h : Stops isHex rest) : Stops Digits.isDigit rest :=
  h.mono fun _ => isSome_hexWorth?

theorem readGroup_hexOfNat (g : UInt16) (hrest : Stops isHex rest) :
    readGroup (Digits.hexOfNat g.toNat ++ rest) = some (g, rest) := by
  have hg := g.toNat_lt
  have hvalue : (Digits.hexOfNat g.toNat).foldl
      (fun total c => 16 * total + (Digits.hexWorth? c).getD 0) 0 = g.toNat :=
    Digits.hexValue_hexOfNat g.toNat
  have hwidth : (Digits.hexOfNat g.toNat).length ≤ 3 + 1 := Digits.length_hexOfNat_le (by omega)
  have hread := readNarrow_append 16 (Digits.hexOfNat_ne_nil g.toNat)
    (fun c hc => Digits.isSome_hexWorth?_of_mem hc) hwidth (.inl rfl) hrest
  rw [hvalue] at hread
  rw [readGroup, hread]
  exact congrArg (fun g => some (g, rest)) (UInt16.ofNat_toNat (x := g))

theorem readGroup_of_stops (h : Stops isHex rest) : readGroup rest = none := by
  have hnarrow := readNarrow_of_stops 16 4 true h
  simp [readGroup, hnarrow]

/-- Where a group stands there are no four octets. -/
theorem readIpv4_group {digits : List Char} (hdigits : ∀ c ∈ digits, isHex c = true)
    (hrest : EndsGroup rest) : readIpv4 (digits ++ rest) = none := by
  cases hoctet : readOctet (digits ++ rest) with
  | none => simp [readIpv4, hoctet]
  | some found =>
      obtain ⟨a, left⟩ := found
      obtain ⟨⟨n, left'⟩, hnarrow, hn⟩ := Option.bind_eq_some_iff.1 hoctet
      obtain ⟨-, ⟨⟩⟩ := Option.ite_none_right_eq_some.1 hn
      -- What is left starts within the group or behind it; neither is a point.
      have hpoint : Stops (· == '.') left := by
        rw [eq_dropWhile_of_readNarrow hnarrow, List.dropWhile_append]
        split
        · rw [Stops.dropWhile_eq_self ((stops_isDigit hrest.1).mono
            fun c hc => (isSome_decimal? c).symm.trans hc)]
          exact hrest.2
        · next hleft =>
          obtain ⟨c, s, hs⟩ := List.exists_cons_of_ne_nil (mt List.isEmpty_iff.2 hleft)
          have hmem : c ∈ digits := (List.dropWhile_sublist _).mem (hs ▸ List.mem_cons_self)
          rw [hs]
          refine .cons ?_
          rw [beq_eq_false_iff_ne]
          rintro rfl
          exact absurd (hdigits _ hmem) (by decide)
      have hexpect : expect '.' left = none := by
        cases left with
        | nil => rfl
        | cons c s => simpa [expect] using hpoint c rfl
      simp [readIpv4, hoctet, hexpect]

/-- The groups of a list, each behind a colon. -/
def moreChars (groups : List UInt16) : List Char :=
  groups.flatMap fun g => ':' :: Digits.hexOfNat g.toNat

theorem groupsChars_cons (g : UInt16) (groups : List UInt16) :
    Ipv6.groupsChars (g :: groups) = Digits.hexOfNat g.toNat ++ moreChars groups := by
  induction groups generalizing g with
  | nil => simp [Ipv6.groupsChars, moreChars]
  | cons h groups ih => simp [Ipv6.groupsChars, moreChars, ih]

theorem endsGroup_moreChars (groups : List UInt16) (hrest : EndsGroup rest) :
    EndsGroup (moreChars groups ++ rest) := by
  cases groups with
  | nil => exact hrest
  | cons g groups => exact endsGroup_colon

/-- No group is read where none stands. -/
theorem readGroups_none {limit : Nat} {first : Bool} {s : List Char}
    (hip : afterColon first readIpv4 s = none) (hgroup : afterColon first readGroup s = none) :
    readGroups limit first s = ([], false, s) := by
  cases limit with
  | zero => rfl
  | succ limit => simp [readGroups, hip, hgroup]

/-- What stands in front of a group that is not the first one. -/
def colon (first : Bool) (s : List Char) : List Char := if first then s else ':' :: s

theorem afterColon_colon {α : Type} {first : Bool} {part : List Char → Option α} {s : List Char} :
    afterColon first part (colon first s) = part s := by
  cases first <;> rfl

/-- One group is read, and then what follows it. -/
theorem readGroups_group {limit : Nat} (first : Bool) (g : UInt16) (hrest : EndsGroup rest) :
    readGroups (limit + 1) first (colon first (Digits.hexOfNat g.toNat ++ rest)) =
      (g :: (readGroups limit false rest).1, (readGroups limit false rest).2) := by
  have hip : afterColon first readIpv4 (colon first (Digits.hexOfNat g.toNat ++ rest)) = none :=
    afterColon_colon.trans (readIpv4_group (fun _ => Digits.isSome_hexWorth?_of_mem) hrest)
  have hgroup : afterColon first readGroup (colon first (Digits.hexOfNat g.toNat ++ rest)) =
      some (g, rest) :=
    afterColon_colon.trans (readGroup_hexOfNat g hrest.1)
  simp [readGroups, hip, hgroup]

/-- Groups behind colons are read as far as they go. -/
theorem readGroups_moreChars {groups : List UInt16} {limit : Nat} (hlimit : groups.length ≤ limit)
    (hrest : EndsGroup rest) (hends : groups.length = limit ∨ EndsGroups rest) :
    readGroups limit false (moreChars groups ++ rest) = (groups, false, rest) := by
  induction groups generalizing limit with
  | nil =>
      rcases hends with rfl | hends
      · rfl
      · have hnone : ∀ {α : Type} {part : List Char → Option α},
            (∀ s, Stops isHex s → part s = none) → afterColon false part rest = none := by
          intro α part hpart
          cases rest with
          | nil => rfl
          | cons c s =>
              by_cases hc : c = ':'
              · subst hc
                exact hpart s (hends s rfl)
              · simp [afterColon, expect, hc]
        exact readGroups_none (hnone fun s hs => readIpv4_of_stops (stops_isDigit hs))
          (hnone fun s => readGroup_of_stops)
  | cons g groups ih =>
      obtain ⟨limit, rfl⟩ : ∃ l, limit = l + 1 := ⟨limit - 1, by simp at hlimit; omega⟩
      have hmore := endsGroup_moreChars groups hrest
      have hs : moreChars (g :: groups) ++ rest =
          colon false (Digits.hexOfNat g.toNat ++ (moreChars groups ++ rest)) := by
        simp [moreChars, colon]
      rw [hs, readGroups_group false g hmore, ih (by simpa using hlimit) (by simpa using hends)]

/-- Groups with colons between them are read as far as they go. -/
theorem readGroups_groupsChars {groups : List UInt16} {limit : Nat}
    (hlimit : groups.length ≤ limit) (hrest : EndsGroup rest)
    (hends : groups.length = limit ∨ EndsGroups rest) :
    readGroups limit true (Ipv6.groupsChars groups ++ rest) = (groups, false, rest) := by
  cases groups with
  | nil =>
      exact readGroups_none (readIpv4_of_stops (stops_isDigit hrest.1)) (readGroup_of_stops hrest.1)
  | cons g groups =>
      obtain ⟨limit, rfl⟩ : ∃ l, limit = l + 1 := ⟨limit - 1, by simp at hlimit; omega⟩
      have hmore := endsGroup_moreChars groups hrest
      have hs : Ipv6.groupsChars (g :: groups) ++ rest =
          colon true (Digits.hexOfNat g.toNat ++ (moreChars groups ++ rest)) := by
        simp [groupsChars_cons, colon]
      rw [hs, readGroups_group true g hmore,
        readGroups_moreChars (by simpa using hlimit) hrest (by simpa using hends)]

end TunnelKeeper.Net
