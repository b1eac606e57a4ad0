import TunnelKeeper.Socks.Frame

/-!
# Octets — addresses and numbers as bytes

A number of sixteen bits is two bytes, the high one first (`word_wordBytes`), and an address of
either family is its octets: four or sixteen bytes are the octets of exactly one address
(`IpAddress.exists_octets`, `IpAddress.octets_injective`).
-/

namespace TunnelKeeper

/-! ### Numbers -/

namespace Socks

/-- The number of two bytes is worth the high one 256 times. -/
theorem toNat_word (high low : UInt8) :
    (word high low).toNat = 256 * high.toNat + low.toNat := by
  have hhigh := high.toNat_lt
  have hlow := low.toNat_lt
  have hmod : high.toNat <<< 8 % 2 ^ 16 = high.toNat * 2 ^ 8 := by
    rw [Nat.shiftLeft_eq, Nat.mod_eq_of_lt]
    omega
  simp only [word, UInt16.toNat_or, UInt16.toNat_shiftLeft, UInt8.toNat_toUInt16]
  show high.toNat <<< 8 % 2 ^ 16 ||| low.toNat = _
  rw [hmod, ← Nat.shiftLeft_eq, ← Nat.shiftLeft_add_eq_or_of_lt hlow, Nat.shiftLeft_eq]
  omega

theorem toNat_high (n : UInt16) : (n >>> 8).toUInt8.toNat = n.toNat / 256 := by
  have hn := n.toNat_lt
  simp only [UInt16.toNat_toUInt8, UInt16.toNat_shiftRight]
  show n.toNat >>> 8 % 256 = _
  rw [Nat.shiftRight_eq_div_pow]
  omega

theorem toNat_low (n : UInt16) : n.toUInt8.toNat = n.toNat % 256 := UInt16.toNat_toUInt8 n

theorem word_wordBytes (n : UInt16) : word (n >>> 8).toUInt8 n.toUInt8 = n := by
  refine UInt16.toNat_inj.1 ?_
  rw [toNat_word, toNat_high, toNat_low]
  exact Nat.div_add_mod n.toNat 256

theorem high_word (high low : UInt8) : (word high low >>> 8).toUInt8 = high := by
  have hlow := low.toNat_lt
  refine UInt8.toNat_inj.1 ?_
  rw [toNat_high, toNat_word]
  omega

theorem low_word (high low : UInt8) : (word high low).toUInt8 = low := by
  have hlow := low.toNat_lt
  refine UInt8.toNat_inj.1 ?_
  rw [toNat_low, toNat_word]
  omega

end Socks

/-! ### Addresses -/

namespace Ipv6

theorem groupsOf_octets (groups : List UInt16) : groupsOf (groups.flatMap groupBytes) = groups := by
  induction groups with
  | nil => rfl
  | cons g groups ih =>
      show Socks.word _ _ :: groupsOf (groups.flatMap groupBytes) = g :: groups
      rw [Socks.word_wordBytes, ih]

theorem ofGroups_groups (ip : Ipv6) : ofGroups ip.groups = ip := by
  obtain ⟨groups, h⟩ := ip
  have htake : (groups ++ List.replicate 8 0).take 8 = groups := List.take_left' h
  simp only [ofGroups, htake]

/-- Every address is the one of its octets, -/
theorem ofOctets_octets (ip : Ipv6) : ofOctets ip.octets = ip := by
  rw [ofOctets, octets, groupsOf_octets, ofGroups_groups]

theorem length_groupsOf {n : Nat} : ∀ {bytes : List UInt8}, bytes.length = 2 * n →
    (groupsOf bytes).length = n ∧ (groupsOf bytes).flatMap groupBytes = bytes := by
  induction n with
  | zero =>
      intro bytes h
      obtain rfl := List.length_eq_zero_iff.1 h
      exact ⟨rfl, rfl⟩
  | succ n ih =>
      intro bytes h
      match bytes, h with
      | high :: low :: bytes, h =>
        have hlength : bytes.length = 2 * n := by simpa [Nat.mul_succ] using h
        obtain ⟨hgroups, hbytes⟩ := ih hlength
        refine ⟨congrArg (· + 1) hgroups, ?_⟩
        show (Socks.word high low >>> 8).toUInt8 :: (Socks.word high low).toUInt8 ::
          (groupsOf bytes).flatMap groupBytes = high :: low :: bytes
        rw [Socks.high_word, Socks.low_word, hbytes]

/-- and every sixteen bytes are the octets of an address. -/
theorem octets_ofOctets {bytes : List UInt8} (h : bytes.length = 16) :
    (ofOctets bytes).octets = bytes := by
  obtain ⟨hgroups, hbytes⟩ := length_groupsOf (n := 8) h
  have htake : (groupsOf bytes ++ List.replicate 8 0).take 8 = groupsOf bytes :=
    List.take_left' hgroups
  show ((groupsOf bytes ++ List.replicate 8 0).take 8).flatMap groupBytes = bytes
  rw [htake, hbytes]

end Ipv6

namespace IpAddress

theorem length_octets (ip : IpAddress) : ip.octets.length = if ip.isV4 then 4 else 16 := by
  cases ip with
  | v4 ip => rfl
  | v6 ip => exact ip.octets_length

/-- An address is told by its octets. -/
theorem octets_injective {a b : IpAddress} (h : a.octets = b.octets) : a = b := by
  have hlength := congrArg List.length h
  rw [length_octets, length_octets] at hlength
  cases a with
  | v4 a =>
      cases b with
      | v4 b =>
          obtain ⟨a₁, a₂, a₃, a₄⟩ := a
          obtain ⟨b₁, b₂, b₃, b₄⟩ := b
          simpa [octets, Ipv4.octets] using h
      | v6 b => cases hlength
  | v6 a =>
      cases b with
      | v4 b => cases hlength
      | v6 b =>
          have h : a.octets = b.octets := h
          rw [← a.ofOctets_octets, ← b.ofOctets_octets, h]

/-- Four or sixteen bytes are the octets of an address. -/
theorem exists_octets {bytes : List UInt8} (h : bytes.length = 4 ∨ bytes.length = 16) :
    ∃ ip : IpAddress, ip.octets = bytes := by
  rcases h with h | h
  · obtain ⟨a, b, c, d, rfl⟩ : ∃ a b c d, bytes = [a, b, c, d] := by
      match bytes, h with
      | [a, b, c, d], _ => exact ⟨a, b, c, d, rfl⟩
    exact ⟨.v4 ⟨a, b, c, d⟩, rfl⟩
  · exact ⟨.v6 (.ofOctets bytes), Ipv6.octets_ofOctets h⟩

/-- The address that stands for "any" is the one whose octets are all zero. -/
theorem isUnspecified_iff {ip : IpAddress} :
    ip.isUnspecified = true ↔ ∀ b ∈ ip.octets, b = 0 := by
  have zeros : ∀ ip any : IpAddress, any.octets = List.replicate ip.octets.length 0 →
      ((ip = any) ↔ ∀ b ∈ ip.octets, b = 0) := fun ip any hany => by
    constructor
    · rintro rfl b hb
      rw [hany] at hb
      exact List.eq_of_mem_replicate hb
    · exact fun h => octets_injective ((List.eq_replicate_iff.2 ⟨rfl, h⟩).trans hany.symm)
  cases ip with
  | v4 ip =>
      rw [← zeros _ (.v4 .unspecified) rfl]
      simp [isUnspecified]
  | v6 ip =>
      have hlength : (v6 ip).octets.length = 16 := ip.octets_length
      rw [← zeros _ (.v6 .unspecified) (by rw [hlength]; decide)]
      simp [isUnspecified]

end IpAddress

end TunnelKeeper
