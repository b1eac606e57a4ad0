import TunnelKeeper.Proofs.Net.Groups
import TunnelKeeper.Proofs.Socks.Octets

/-!
# Rereading — an address is read back from its text

The text of an address names that address (`SocketAddress.read?_text`), where the address is one
that a text can name: an address of the first family has no scope (`SocketAddress.Proper`).

A run of zeros that was left out is told by its place: the groups before it end at the first of the
two colons, those after it at the end of the address, and what is missing to eight was zero
(`Run.Zeros.eq_append`).
-/

namespace TunnelKeeper

/-! ### The zeros that are left out -/

namespace Ipv6

/-- A run within a list in which only zeros stand. -/
def Run.Zeros (groups : List UInt16) (run : Run) : Prop :=
  ∀ i, run.start ≤ i → i < run.start + run.length → groups[i]? = some 0

theorem Run.Zeros.empty {groups : List UInt16} {run : Run} (h : run.length = 0) :
    run.Zeros groups := by
  intro i hle hlt
  omega

/-- A run of zeros splits the list. -/
theorem Run.Zeros.eq_append {groups : List UInt16} {run : Run} (h : run.Zeros groups) :
    groups = groups.take run.start ++ List.replicate run.length 0 ++
      groups.drop (run.start + run.length) := by
  have hrun : (groups.drop run.start).take run.length = List.replicate run.length 0 := by
    refine List.ext_getElem? fun i => ?_
    by_cases hi : i < run.length
    · rw [List.getElem?_take_of_lt hi, List.getElem?_drop, h _ (by omega) (by omega),
        List.getElem?_replicate_of_lt hi]
    · rw [List.getElem?_take_eq_none (by omega), List.getElem?_eq_none (by simpa using hi)]
  rw [← hrun, ← List.drop_drop, List.append_assoc, List.take_append_drop, List.take_append_drop]

/-- A run of zeros lies within the list. -/
theorem Run.Zeros.le_length {groups : List UInt16} {run : Run} (h : run.Zeros groups)
    (hpos : 0 < run.length) : run.start + run.length ≤ groups.length := by
  have hlast := h (run.start + run.length - 1) (by omega) (by omega)
  obtain ⟨hlt, -⟩ := List.getElem?_eq_some_iff.1 hlast
  omega

/-- The run that is found has only zeros in it, where the two runs it starts from have. -/
theorem Run.Zeros.longestRun {before rest : List UInt16} {current longest : Run}
    (hcurrent : current.Zeros (before ++ rest)) (hlongest : longest.Zeros (before ++ rest))
    (hend : current.length = 0 ∨ current.start + current.length = before.length) :
    (longestRun before.length current longest rest).Zeros (before ++ rest) := by
  induction rest generalizing before current longest with
  | nil => exact hlongest
  | cons g rest ih =>
      -- The first group of the rest goes over to what is before it.
      have hsplit : before ++ g :: rest = (before ++ [g]) ++ rest := by simp
      have hlength : before.length + 1 = (before ++ [g]).length := by simp
      rw [Ipv6.longestRun, hsplit, hlength]
      rw [hsplit] at hcurrent hlongest
      split
      · next hg =>
        obtain rfl : g = 0 := by simpa using hg
        -- The run that goes on here ends with this group.
        set grown : Run := if current.length == 0 then ⟨before.length, 1⟩
          else ⟨current.start, current.length + 1⟩ with hgrown
        have hhere : ((before ++ [0]) ++ rest)[before.length]? = some 0 := by simp
        have hzeros : grown.Zeros ((before ++ [0]) ++ rest) := by
          intro i hle hlt
          rw [hgrown] at hle hlt
          split at hle
          · next hempty =>
            rw [if_pos hempty] at hlt
            obtain rfl : i = before.length := by
              dsimp only at hle hlt
              omega
            exact hhere
          · next hempty =>
            rw [if_neg hempty] at hlt
            dsimp only at hle hlt
            have hempty : current.length ≠ 0 := by simpa using hempty
            by_cases hi : i < current.start + current.length
            · exact hcurrent i hle hi
            · obtain rfl : i = before.length := by omega
              exact hhere
        have hends : grown.start + grown.length = (before ++ [0]).length := by
          rw [hgrown, List.length_append, List.length_singleton]
          split
          · rfl
          · next hempty =>
            have hempty : current.length ≠ 0 := by simpa using hempty
            dsimp only
            omega
        refine ih hzeros ?_ (.inr hends)
        split
        · exact hzeros
        · exact hlongest
      · exact ih (.empty rfl) hlongest (.inl rfl)

end Ipv6

namespace Net

variable {rest : List Char}

/-! ### Addresses -/

theorem mapped_groups {ip : Ipv6} {v4 : Ipv4} (h : ip.mapped? = some v4) :
    ip.groups = [0, 0, 0, 0, 0, 0xFFFF, Ipv6.group v4.a v4.b, Ipv6.group v4.c v4.d] := by
  unfold Ipv6.mapped? at h
  split at h
  · next g h' hgroups =>
    cases h
    have hword : ∀ n : UInt16, Ipv6.group (n >>> 8).toUInt8 n.toUInt8 = n := Socks.word_wordBytes
    simp only [hgroups, hword]
  · cases h

theorem endsGroups_colons {s : List Char} : EndsGroups (':' :: ':' :: s) := by
  rintro s ⟨⟩
  exact .cons rfl

/-- Two colons stand for the zeros that are missing between what is in front of them and what is
behind. -/
theorem readIpv6_colons {head tail : List UInt16} {octets : Bool} {more : List Char}
    (hhead : head.length < 8)
    (hmore : readGroups (7 - head.length) true more = (tail, octets, rest)) :
    readIpv6 (Ipv6.groupsChars head ++ ':' :: ':' :: more) =
      some (Ipv6.ofGroups (head ++ List.replicate (8 - head.length - tail.length) 0 ++ tail),
        rest) := by
  have hfirst := readGroups_groupsChars (show head.length ≤ 8 by omega)
    (endsGroup_colon (s := ':' :: more)) (.inr endsGroups_colons)
  have hshort : (head.length == 8) = false := by
    rw [beq_eq_false_iff_ne]
    omega
  rw [readIpv6, hfirst]
  simp only [hshort, Bool.false_eq_true, if_false, expect, beq_self_eq_true, if_true,
    Option.bind_eq_bind, Option.bind_some, hmore]
  rfl

/-- The last two groups of a mapped address are written as octets. -/
theorem readGroups_mapped (v4 : Ipv4) (hrest : Stops Digits.isDigit rest) :
    readGroups 7 true ('f' :: 'f' :: 'f' :: 'f' :: ':' :: (v4.chars ++ rest)) =
      ([0xFFFF, Ipv6.group v4.a v4.b, Ipv6.group v4.c v4.d], true, rest) := by
  have hv4 : afterColon false readIpv4 (':' :: (v4.chars ++ rest)) = some (v4, rest) :=
    readIpv4_chars v4 hrest
  have hffff : ['f', 'f', 'f', 'f'] = Digits.hexOfNat (0xFFFF : UInt16).toNat := by decide
  have hs : 'f' :: 'f' :: 'f' :: 'f' :: ':' :: (v4.chars ++ rest) =
      colon true (Digits.hexOfNat (0xFFFF : UInt16).toNat ++ ':' :: (v4.chars ++ rest)) := by
    rw [← hffff]
    rfl
  rw [hs, readGroups_group true _ endsGroup_colon]
  simp [readGroups, hv4]

/-- An address of the second family is read from its text. -/
theorem readIpv6_chars (ip : Ipv6) (hrest : EndsGroup rest) (hends : EndsGroups rest) :
    readIpv6 (ip.chars ++ rest) = some (ip, rest) := by
  have hlength := ip.length_groups
  unfold Ipv6.chars
  split
  · next v4 hmapped =>
    have hread := readIpv6_colons (show ([] : List UInt16).length < 8 by decide)
      (readGroups_mapped v4 (stops_isDigit hrest.1))
    have hgroups : [] ++ List.replicate (8 - 0 - 3) 0 ++
        [0xFFFF, Ipv6.group v4.a v4.b, Ipv6.group v4.c v4.d] = ip.groups :=
      (mapped_groups hmapped).symm
    refine hread.trans ?_
    rw [List.length_nil, List.length_cons, List.length_cons, List.length_singleton, hgroups,
      Ipv6.ofGroups_groups]
  · set run := Ipv6.longestRun 0 ⟨0, 0⟩ ⟨0, 0⟩ ip.groups with hrun
    have hnone : (⟨0, 0⟩ : Ipv6.Run).Zeros ([] ++ ip.groups) := .empty rfl
    have hzeros : run.Zeros ([] ++ ip.groups) :=
      Ipv6.Run.Zeros.longestRun hnone hnone (.inl rfl)
    rw [List.nil_append] at hzeros
    simp only
    split
    · next hlong =>
      have hle := hzeros.le_length (by omega)
      have hsplit := hzeros.eq_append
      set head := ip.groups.take run.start with hhead
      set tail := ip.groups.drop (run.start + run.length) with htail
      have hheadLength : head.length = run.start := by
        rw [hhead, List.length_take]
        omega
      have htailLength : tail.length = 8 - (run.start + run.length) := by
        rw [htail, List.length_drop, hlength]
      have hmissing : 8 - head.length - tail.length = run.length := by omega
      have hread := readIpv6_colons (show head.length < 8 by omega)
        (readGroups_groupsChars (show tail.length ≤ 7 - head.length by omega) hrest (.inr hends))
      rw [hmissing, ← hsplit, Ipv6.ofGroups_groups] at hread
      rwa [List.append_assoc, List.cons_append, List.cons_append]
    · have hfull := readGroups_groupsChars (show ip.groups.length ≤ 8 by omega) hrest (.inl hlength)
      rw [readIpv6, hfull]
      simp only [hlength, beq_self_eq_true, if_true, Ipv6.ofGroups_groups]
      rfl

theorem whole?_eq_some {α : Type} {first second : List Char → Option (α × List Char)}
    {s : List Char} {a : α} (h : whole? first second s = some a) :
    first s = some (a, []) ∨ second s = some (a, []) := by
  unfold whole? at h
  cases hfirst : first s with
  | none =>
      simp only [hfirst, Option.orElse_none] at h
      split at h <;> cases h
      next hsecond => exact .inr hsecond
  | some found =>
      simp only [hfirst, Option.orElse_some] at h
      split at h <;> cases h
      next hfound => exact .inl hfound

theorem readPort_ofNat (port : UInt16) : readPort (':' :: Digits.ofNat port.toNat) =
    some (port, []) := by
  have hport := port.toNat_lt
  have hread : readBelow 65536 (Digits.ofNat port.toNat ++ []) = some (port.toNat, []) :=
    readBelow_ofNat hport .nil
  rw [List.append_nil] at hread
  simp only [readPort, expect, beq_self_eq_true, if_true, Option.bind_eq_bind, Option.bind_some,
    hread]
  exact congrArg (fun port => some (port, [])) (UInt16.ofNat_toNat (x := port))

theorem readScope_ofNat (scope : UInt32) (hrest : Stops Digits.isDigit rest) :
    readScope ('%' :: (Digits.ofNat scope.toNat ++ rest)) = some (scope, rest) := by
  have hread : readBelow (Nat.pow 2 32) (Digits.ofNat scope.toNat ++ rest) =
      some (scope.toNat, rest) := readBelow_ofNat scope.toNat_lt hrest
  simp only [readScope, expect, beq_self_eq_true, if_true, Option.bind_eq_bind, Option.bind_some,
    hread]
  exact congrArg (fun scope => some (scope, rest)) (UInt32.ofNat_toNat (x := scope))

end Net

namespace SocketAddress

/-- Only the second family has scopes. -/
def Proper (address : SocketAddress) : Prop := address.ip.isV4 = true → address.scope = 0

open Net

/-- **An address is read back from its text.** -/
theorem read?_text {address : SocketAddress} (h : address.Proper) :
    read? address.text = some address := by
  obtain ⟨ip, port, scope⟩ := address
  have hport := readPort_ofNat port
  rw [read?, text, String.toList_ofList]
  cases ip with
  | v4 ip =>
      obtain rfl : scope = 0 := h rfl
      have hip : readIpv4 (ip.chars ++ ':' :: Digits.ofNat port.toNat) =
          some (ip, ':' :: Digits.ofNat port.toNat) := readIpv4_chars ip (.cons rfl)
      simp [whole?, chars, hip, hport]
  | v6 ip =>
      have hbracket : ∀ s, readIpv4 ('[' :: s) = none := fun s => readIpv4_of_stops (.cons rfl)
      by_cases hscope : scope = 0
      · subst hscope
        have hip : readIpv6 (ip.chars ++ ']' :: ':' :: Digits.ofNat port.toNat) =
            some (ip, ']' :: ':' :: Digits.ofNat port.toNat) :=
          readIpv6_chars ip (.cons rfl (by decide)) (.cons (by decide))
        simp [whole?, chars, hbracket, expect, hip, readScope, hport]
      · have hip : readIpv6 (ip.chars ++ '%' ::
              (Digits.ofNat scope.toNat ++ ']' :: ':' :: Digits.ofNat port.toNat)) =
            some (ip, '%' :: (Digits.ofNat scope.toNat ++ ']' :: ':' :: Digits.ofNat port.toNat)) :=
          readIpv6_chars ip (.cons rfl (by decide)) (.cons (by decide))
        have hread : readScope ('%' ::
              (Digits.ofNat scope.toNat ++ ']' :: ':' :: Digits.ofNat port.toNat)) =
            some (scope, ']' :: ':' :: Digits.ofNat port.toNat) :=
          readScope_ofNat scope (.cons rfl)
        simp [whole?, chars, hbracket, expect, hscope, hip, hread, hport]

/-- An address that was read is one that a text can name. -/
theorem proper_of_read? {s : String} {address : SocketAddress} (h : read? s = some address) :
    address.Proper := by
  rcases whole?_eq_some h with h | h
  · obtain ⟨⟨ip, s₁⟩, -, h⟩ := Option.bind_eq_some_iff.1 h
    obtain ⟨⟨port, s₂⟩, -, h⟩ := Option.bind_eq_some_iff.1 h
    cases h
    exact fun _ => rfl
  · obtain ⟨s₁, -, h⟩ := Option.bind_eq_some_iff.1 h
    obtain ⟨⟨ip, s₂⟩, -, h⟩ := Option.bind_eq_some_iff.1 h
    obtain ⟨s₃, -, h⟩ := Option.bind_eq_some_iff.1 h
    obtain ⟨⟨port, s₄⟩, -, h⟩ := Option.bind_eq_some_iff.1 h
    cases h
    exact nofun

end SocketAddress

end TunnelKeeper
