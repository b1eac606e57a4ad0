import TunnelKeeper.Proofs.Check.Streams
import TunnelKeeper.Proofs.Socks.Octets

/-!
# Replies — the stream of the proxy is never out of step

The proxy answers a request with a reply, and goes on at once with what the other side sends.  So a
reply must be taken off the stream to the byte.  `Location` says which bytes name an address, and
`Reply` which bytes are a reply that grants a request, both without a look at how they are read.

* `reads_address`, `reads_reply`: each of them is read exactly.
* `reply_of_play`: nothing else is taken for a reply.
* `replies_read_exactly`: both, with what is read of a reply that is cut short.
-/

namespace TunnelKeeper.Socks

open Check

variable {s s' : Scene} {location octets : List UInt8}

/-- **Bytes that name an address**, with the octets of the address: a byte for the kind with the
octets behind it, or with the length of a name and the name, which stands for no address. -/
inductive Location : (location octets : List UInt8) → Prop where
  | v4 {octets : List UInt8} (h : octets.length = 4) : Location (1 :: octets) octets
  | v6 {octets : List UInt8} (h : octets.length = 16) : Location (4 :: octets) octets
  | domain {n : UInt8} {name : List UInt8} (h : name.length = n.toNat) :
      Location (3 :: n :: name) [0, 0, 0, 0]

/-- **The bytes of a reply that grants a request**, with the address it gives: the version, that
the request is granted, a byte that says nothing, the address, and its port, the high byte first. -/
inductive Reply : List UInt8 → SocketAddress → Prop where
  | granted {reserved high low : UInt8} {location : List UInt8} {ip : IpAddress} {port : UInt16}
      (hlocation : Location location ip.octets)
      (hport : port.toNat = 256 * high.toNat + low.toNat) :
      Reply ([5, 0, reserved] ++ location ++ [high, low]) ⟨ip, port, 0⟩

/-! ### Addresses -/

/-- The octets of a location are those of an address. -/
theorem Location.exists_ip (h : Location location octets) : ∃ ip : IpAddress, ip.octets = octets := by
  cases h with
  | v4 h => exact IpAddress.exists_octets (.inl h)
  | v6 h => exact IpAddress.exists_octets (.inr h)
  | domain => exact ⟨.v4 .unspecified, rfl⟩

/-- A location starts with the byte for its kind. -/
theorem Location.exists_kind (h : Location location octets) :
    ∃ kind bytes, location = kind :: bytes := by
  cases h <;> exact ⟨_, _, rfl⟩

/-- How an address is written is a location. -/
theorem location_of_ip (ip : IpAddress) : Location (kindByte ip :: ip.octets) ip.octets := by
  cases ip with
  | v4 ip => exact .v4 rfl
  | v6 ip => exact .v6 ip.octets_length

/-- **What a location names is read exactly**, behind the byte for its kind. -/
theorem reads_address {kind : UInt8} {bytes : List UInt8} {ip : IpAddress}
    (h : Location (kind :: bytes) ip.octets) : Reads (Exchange.readAddress kind) bytes ip := by
  generalize hocts : ip.octets = octets at h
  cases h with
  | v4 hlen =>
      match bytes, hlen with
      | [a, b, c, d], hlen =>
        obtain rfl : ip = .v4 ⟨a, b, c, d⟩ := IpAddress.octets_injective hocts
        exact (Reads.receive hlen).result rfl
  | v6 hlen =>
      obtain rfl : ip = .v6 (.ofOctets bytes) := IpAddress.octets_injective
        (hocts.trans (Ipv6.octets_ofOctets hlen).symm)
      exact (Reads.receive hlen).result rfl
  | @domain n name hname =>
      obtain rfl : ip = .v4 .unspecified := IpAddress.octets_injective hocts
      have length : Reads (Exchange.receive 1) [n] [n] := .receive rfl
      exact length.bind ((Reads.receive hname).result rfl)

/-- **Only what a location names is read** as an address. -/
theorem location_of_play {kind : UInt8} {ip : IpAddress}
    (h : s.play (Exchange.readAddress kind) = (.ok ip, s')) :
    ∃ bytes rest, s.coming = bytes ++ rest ∧ s' = s.leave rest ∧
      Location (kind :: bytes) ip.octets := by
  unfold Exchange.readAddress at h
  split at h
  case isTrue hkind =>
    obtain rfl := eq_of_beq hkind
    obtain ⟨bytes, between, hbytes, h⟩ := Scene.play_bind_ok.1 h
    obtain ⟨hlen, rest, hs, rfl⟩ := Scene.play_receive_ok.1 hbytes
    match bytes, hlen, h with
    | [a, b, c, d], hlen, h =>
      cases h
      exact ⟨_, rest, hs, rfl, .v4 hlen⟩
  split at h
  case isTrue hkind =>
    obtain rfl := eq_of_beq hkind
    obtain ⟨bytes, between, hbytes, h⟩ := Scene.play_bind_ok.1 h
    obtain ⟨hlen, rest, hs, rfl⟩ := Scene.play_receive_ok.1 hbytes
    cases h
    refine ⟨bytes, rest, hs, rfl, ?_⟩
    show Location _ (Ipv6.ofOctets bytes).octets
    rw [Ipv6.octets_ofOctets hlen]
    exact .v6 hlen
  split at h
  case isTrue hkind =>
    obtain rfl := eq_of_beq hkind
    obtain ⟨bytes, between, hbytes, h⟩ := Scene.play_bind_ok.1 h
    obtain ⟨hlen, rest, hs, rfl⟩ := Scene.play_receive_ok.1 hbytes
    match bytes, hlen, h with
    | [n], hlen, h =>
      obtain ⟨name, between, hread, h⟩ := Scene.play_bind_ok.1 h
      obtain ⟨hname, rest', hs', rfl⟩ := Scene.play_receive_ok.1 hread
      cases h
      rw [Scene.coming_leave] at hs'
      subst hs'
      exact ⟨n :: name, rest', hs, Scene.leave_leave .., .domain hname⟩
  case isFalse => cases h

/-! ### Replies -/

/-- **A reply is read exactly.** -/
theorem reads_reply {reply : List UInt8} {address : SocketAddress} (h : Reply reply address) :
    Reads Exchange.readReply reply address := by
  obtain @⟨reserved, high, low, location, ip, port, hlocation, hport⟩ := h
  obtain ⟨kind, bytes, rfl⟩ := hlocation.exists_kind
  obtain rfl : word high low = port := UInt16.toNat_inj.1 ((toNat_word high low).trans hport.symm)
  have header : Reads (Exchange.receive 4) [5, 0, reserved, kind] [5, 0, reserved, kind] :=
    .receive rfl
  have last : Reads (Exchange.receive 2) [high, low] [high, low] := .receive rfl
  have all : Reads Exchange.readReply ([5, 0, reserved, kind] ++ (bytes ++ [high, low]))
      ⟨ip, word high low, 0⟩ :=
    header.bind ((reads_address hlocation).bind (last.result rfl))
  simpa using all

/-- **Nothing but a reply is read as one.** -/
theorem reply_of_play {address : SocketAddress}
    (h : s.play Exchange.readReply = (.ok address, s')) :
    ∃ reply rest, s.coming = reply ++ rest ∧ s' = s.leave rest ∧ Reply reply address := by
  obtain ⟨header, between, hheader, h⟩ := Scene.play_bind_ok.1 h
  obtain ⟨hlen, rest, hs, rfl⟩ := Scene.play_receive_ok.1 hheader
  match header, hlen, h with
  | [version, reply, reserved, kind], hlen, h =>
    dsimp only at h
    split at h
    case isTrue => cases h
    case isFalse hversion =>
    split at h
    case isTrue => cases h
    case isFalse hreply =>
    obtain rfl : version = 5 := by simpa using hversion
    obtain rfl : reply = 0 := by simpa using hreply
    obtain ⟨ip, between, hip, h⟩ := Scene.play_bind_ok.1 h
    obtain ⟨bytes, rest₁, hs₁, rfl, hlocation⟩ := location_of_play hip
    obtain ⟨port, between, hport, h⟩ := Scene.play_bind_ok.1 h
    obtain ⟨hlen, rest₂, hs₂, rfl⟩ := Scene.play_receive_ok.1 hport
    match port, hlen, h with
    | [high, low], hlen, h =>
      cases h
      rw [Scene.leave_leave, Scene.coming_leave] at hs₂
      rw [Scene.coming_leave] at hs₁
      subst hs₁ hs₂
      refine ⟨[5, 0, reserved] ++ (kind :: bytes) ++ [high, low], rest₂, ?_, ?_,
        .granted hlocation (toNat_word high low)⟩
      · simpa using hs
      · simp

/-- **Replies are read to the byte.**  Reading a reply goes well if and only if what comes in begins
with one that grants the request; then it gives the address of the reply, and leaves what follows
the reply and nothing else.  The bytes of every location, with a port behind them, are such a reply.
Where only a part of one comes in, there is no address, but the end of the stream.  So an address
that was written is read as it was, but for its scope. -/
theorem replies_read_exactly (s : Scene) :
    (∀ address s', s.play Exchange.readReply = (.ok address, s') ↔
      ∃ reply rest, s.coming = reply ++ rest ∧ Reply reply address ∧ s' = s.leave rest) ∧
    (∀ reserved high low location octets, Location location octets → ∃ address,
      Reply ([5, 0, reserved] ++ location ++ [high, low]) address ∧ address.ip.octets = octets) ∧
    (∀ reply address, Reply reply address → s.coming <+: reply → s.coming ≠ reply →
      s.play Exchange.readReply = (.error s.shortage, s.leave [])) ∧
    ∀ address rest, s.coming = [5, 0, 0] ++ encodeAddress address ++ rest →
      s.play Exchange.readReply = (.ok ⟨address.ip, address.port, 0⟩, s.leave rest) := by
  refine ⟨fun address s' => ⟨fun h => ?_, ?_⟩, fun reserved high low location octets h => ?_,
    fun reply address h => (reads_reply h).part s, fun address rest hs => ?_⟩
  · obtain ⟨reply, rest, hs, hs', hreply⟩ := reply_of_play h
    exact ⟨reply, rest, hs, hreply, hs'⟩
  · rintro ⟨reply, rest, hs, hreply, rfl⟩
    exact (reads_reply hreply).whole s rest hs
  · obtain ⟨ip, rfl⟩ := h.exists_ip
    exact ⟨_, .granted h (toNat_word high low), rfl⟩
  · have hport := toNat_word (address.port >>> 8).toUInt8 address.port.toUInt8
    rw [word_wordBytes] at hport
    have hreply : Reply (([5, 0, 0] : List UInt8) ++ (kindByte address.ip :: address.ip.octets) ++
        [(address.port >>> 8).toUInt8, address.port.toUInt8]) ⟨address.ip, address.port, 0⟩ :=
      .granted (location_of_ip address.ip) hport
    refine (reads_reply hreply).whole s rest (hs.trans ?_)
    simp [encodeAddress, wordBytes]

/-- A reply with a name, and the first two bytes of a page behind it. -/
def namedReply : List UInt8 := [5, 0, 7, 3, 2, 104, 105, 31, 144]

/-- The page is left where the reply is whole; a reply that is cut off has no address; and what is
written of an address of the later family is read as it was. -/
theorem named_reply_read :
    let page : Scene := { incoming := namedReply ++ [72, 84] }
    let cut : Scene := { incoming := namedReply.take 6 }
    let address : SocketAddress := ⟨.v6 (.ofGroups [0xFE80]), 1080, 3⟩
    let written : Scene := { incoming := [5, 0, 0] ++ encodeAddress address ++ [9] }
    page.play Exchange.readReply = (.ok ⟨.v4 .unspecified, 8080, 0⟩, page.leave [72, 84]) ∧
    cut.play Exchange.readReply = (.error .endOfStream, cut.leave []) ∧
    written.play Exchange.readReply = (.ok ⟨.v6 (.ofGroups [0xFE80]), 1080, 0⟩, written.leave [9]) := by
  intro page cut address written
  have hlocation : Location [3, 2, 104, 105] (IpAddress.v4 .unspecified).octets := .domain rfl
  have hreply : Reply namedReply ⟨.v4 .unspecified, 8080, 0⟩ := .granted hlocation rfl
  refine ⟨((replies_read_exactly page).1 _ _).2 ⟨namedReply, [72, 84], rfl, hreply, rfl⟩, ?_, ?_⟩
  · exact (replies_read_exactly cut).2.2.1 _ _ hreply ⟨[105, 31, 144], rfl⟩ (by decide)
  · exact (replies_read_exactly written).2.2.2 address [9] rfl

end TunnelKeeper.Socks
