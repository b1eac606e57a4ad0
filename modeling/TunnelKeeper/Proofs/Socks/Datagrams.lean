import TunnelKeeper.Proofs.Socks.Replies

/-!
# Datagrams — where the header of a datagram ends

A datagram comes with a header in front of its payload: three bytes that say nothing, a location and
a port.  `Framed` is a datagram in its parts.  No location begins another one, because the byte for
the kind, and the length where a name follows, settle how long it is; so the bytes of a datagram
settle its parts (`Framed.bytes_injective`), and the payload is what follows the header.

* `stripHeader_bytes`, `stripHeader_cut`: what stripping makes of a header, whole or cut short.
* `payloadAt?_eq`: the payload can be found by places, none of which is beyond the end.
* `headers_stripped_exactly`: both, with all that stripping refuses.
-/

namespace TunnelKeeper.Socks

open Check (Violation)

variable {kind : UInt8} {location octets next d : List UInt8}

/-! ### The parts of a datagram -/

/-- **A datagram in its parts**: three bytes that say nothing, where it goes to or comes from, a
port, and the payload. -/
structure Framed where
  reserved : UInt8 × UInt8 × UInt8
  location : List UInt8
  port : UInt8 × UInt8
  payload : List UInt8
  located : ∃ octets, Location location octets

namespace Framed

/-- What is in front of the payload. -/
def header (f : Framed) : List UInt8 :=
  [f.reserved.1, f.reserved.2.1, f.reserved.2.2] ++ f.location ++ [f.port.1, f.port.2]

def bytes (f : Framed) : List UInt8 := f.header ++ f.payload

end Framed

/-! ### How long a location is -/

/-- How long a location is is told by its first byte and what follows it, -/
theorem addressLength_location {bytes : List UInt8} (h : Location (kind :: bytes) octets)
    (rest : List UInt8) : addressLength kind (bytes ++ rest) = .ok bytes.length := by
  cases h with
  | v4 h | v6 h => rw [h]; rfl
  | @domain n name h =>
      rw [List.length_cons, h, Nat.add_comm]
      rfl

/-- and so many bytes make a location, whatever they are. -/
theorem location_of_addressLength {n : Nat} (h : addressLength kind next = .ok n)
    (hle : n ≤ next.length) : ∃ octets, Location (kind :: next.take n) octets := by
  have hlen : (next.take n).length = n := List.length_take_of_le hle
  unfold addressLength at h
  split at h
  case isTrue hkind =>
    cases h
    exact eq_of_beq hkind ▸ ⟨_, .v4 hlen⟩
  split at h
  case isTrue hkind =>
    cases h
    exact eq_of_beq hkind ▸ ⟨_, .v6 hlen⟩
  split at h
  case isTrue hkind =>
    match next, h with
    | m :: name, h =>
      cases h
      rw [Nat.add_comm] at hlen ⊢
      exact eq_of_beq hkind ▸ ⟨_, .domain (Nat.succ.inj hlen)⟩
  case isFalse => cases h

/-- Once a length is told, what comes later does not change it. -/
theorem addressLength_append {n : Nat} (h : addressLength kind next = .ok n)
    (more : List UInt8) : addressLength kind (next ++ more) = .ok n := by
  unfold addressLength at h ⊢
  split
  case isTrue h₁ => rwa [if_pos h₁] at h
  case isFalse h₁ =>
  rw [if_neg h₁] at h
  split
  case isTrue h₄ => rwa [if_pos h₄] at h
  case isFalse h₄ =>
  rw [if_neg h₄] at h
  split
  case isTrue h₃ =>
    rw [if_pos h₃] at h
    match next, h with
    | m :: name, h => exact h
  case isFalse h₃ => rwa [if_neg h₃] at h

/-- Where no length is told, a name is cut off before its length, or the kind is not known. -/
theorem addressLength_error {v : Violation} (h : addressLength kind next = .error v) :
    (v = .shortDatagram ∧ kind = 3 ∧ next = []) ∨
      (v = .addressType ∧ kind ≠ 1 ∧ kind ≠ 4 ∧ kind ≠ 3) := by
  unfold addressLength at h
  split at h
  case isTrue => cases h
  case isFalse h₁ =>
  split at h
  case isTrue => cases h
  case isFalse h₄ =>
  split at h
  case isTrue h₃ =>
    match next, h with
    | [], h =>
      cases h
      exact .inl ⟨rfl, eq_of_beq h₃, rfl⟩
  case isFalse h₃ =>
    cases h
    exact .inr ⟨rfl, by simpa using h₁, by simpa using h₄, by simpa using h₃⟩

/-- No location begins another one. -/
theorem Location.append_inj {location' octets' rest rest' : List UInt8}
    (h : Location location octets) (h' : Location location' octets')
    (heq : location ++ rest = location' ++ rest') : location = location' ∧ rest = rest' := by
  obtain ⟨kind, bytes, rfl⟩ := h.exists_kind
  obtain ⟨kind', bytes', rfl⟩ := h'.exists_kind
  obtain ⟨rfl, htail⟩ := List.cons.inj heq
  have hlength : bytes.length = bytes'.length := by
    have hfirst := addressLength_location h rest
    rw [show bytes ++ rest = bytes' ++ rest' from htail, addressLength_location h' rest'] at hfirst
    exact (Except.ok.inj hfirst).symm
  obtain ⟨rfl, rfl⟩ := List.append_inj htail hlength
  exact ⟨rfl, rfl⟩

/-- **The bytes of a datagram settle its parts.** -/
theorem Framed.bytes_injective : Function.Injective Framed.bytes := by
  rintro ⟨⟨a, b, c⟩, location, ⟨high, low⟩, payload, octets, h⟩
    ⟨⟨a', b', c'⟩, location', ⟨high', low'⟩, payload', octets', h'⟩ heq
  have hparts : [a, b, c] ++ (location ++ ([high, low] ++ payload)) =
      [a', b', c'] ++ (location' ++ ([high', low'] ++ payload')) := by
    simpa [Framed.bytes, Framed.header] using heq
  obtain ⟨hreserved, hlocated⟩ := List.append_inj hparts rfl
  obtain ⟨rfl, hbehind⟩ := h.append_inj h' hlocated
  obtain ⟨hport, rfl⟩ := List.append_inj hbehind rfl
  cases hreserved
  cases hport
  rfl

/-! ### Stripping -/

variable {a b c : UInt8} {n : Nat}

theorem stripHeader_of_length (h : addressLength kind next = .ok n) :
    stripHeader (a :: b :: c :: kind :: next) =
      if n + 2 ≤ next.length then .ok (next.drop (n + 2)) else .error .shortDatagram := by
  simp only [stripHeader, h]
  rfl

theorem stripHeader_of_error {v : Violation} (h : addressLength kind next = .error v) :
    stripHeader (a :: b :: c :: kind :: next) = .error v := by
  simp only [stripHeader, h]
  rfl

/-- A header, from the byte for the kind on. -/
theorem Framed.exists_kind (f : Framed) : ∃ kind rest octets,
    f.header = f.reserved.1 :: f.reserved.2.1 :: f.reserved.2.2 :: kind ::
      (rest ++ [f.port.1, f.port.2]) ∧ Location (kind :: rest) octets := by
  obtain ⟨octets, h⟩ := f.located
  obtain ⟨kind, rest, hkind⟩ := h.exists_kind
  exact ⟨kind, rest, octets, by simp [header, hkind], hkind ▸ h⟩

/-- Bytes behind which a length is told have a header in front, if there are enough of them. -/
theorem exists_framed (a b c : UInt8) (h : addressLength kind next = .ok n)
    (hle : n + 2 ≤ next.length) :
    ∃ f : Framed, f.header = a :: b :: c :: kind :: next.take (n + 2) ∧
      f.payload = next.drop (n + 2) := by
  obtain ⟨high, low, payload, hdrop⟩ :
      ∃ high low payload, next.drop n = high :: low :: payload := by
    have hlen : 2 ≤ (next.drop n).length := by
      rw [List.length_drop]
      omega
    match next.drop n, hlen with
    | high :: low :: payload, _ => exact ⟨high, low, payload, rfl⟩
  have hlocation := location_of_addressLength h (Nat.le_of_add_right_le hle)
  refine ⟨⟨(a, b, c), kind :: next.take n, (high, low), payload, hlocation⟩, ?_, ?_⟩
  · simp [Framed.header, List.take_add, hdrop]
  · rw [← List.drop_drop, hdrop]
    rfl

/-- **A whole header is stripped**, and what follows it is the payload. -/
theorem stripHeader_bytes (f : Framed) : stripHeader f.bytes = .ok f.payload := by
  obtain ⟨kind, rest, octets, hheader, hlocation⟩ := f.exists_kind
  have hlength := addressLength_location hlocation ([f.port.1, f.port.2] ++ f.payload)
  have hbytes : f.bytes = f.reserved.1 :: f.reserved.2.1 :: f.reserved.2.2 :: kind ::
      (rest ++ ([f.port.1, f.port.2] ++ f.payload)) := by
    simp [Framed.bytes, hheader]
  rw [hbytes, stripHeader_of_length hlength, if_pos (by simp)]
  simp

/-- **A header that is cut short is not stripped.** -/
theorem stripHeader_cut (f : Framed) (h : d <+: f.header) (hne : d ≠ f.header) :
    stripHeader d = .error .shortDatagram := by
  obtain ⟨kind, rest, octets, hheader, hlocation⟩ := f.exists_kind
  have hlt : d.length < f.header.length :=
    Nat.lt_of_le_of_ne h.length_le fun heq => hne (h.eq_of_length heq)
  rw [hheader] at h hlt
  match d, h, hlt with
  | [], _, _ | [_], _, _ | [_, _], _, _ | [_, _, _], _, _ => rfl
  | a :: b :: c :: kind' :: next, h, hlt =>
    simp only [List.cons_prefix_cons] at h
    obtain ⟨-, -, -, rfl, more, hmore⟩ := h
    have hlength := addressLength_location hlocation [f.port.1, f.port.2]
    rw [← hmore] at hlength
    cases hn : addressLength kind' next with
    | ok n =>
        cases (addressLength_append hn more).symm.trans hlength
        rw [stripHeader_of_length hn, if_neg]
        simp only [List.length_cons, List.length_append, List.length_nil] at hlt
        omega
    | error v =>
        rw [stripHeader_of_error hn]
        rcases addressLength_error hn with ⟨rfl, -⟩ | ⟨-, h₁, h₄, h₃⟩
        · rfl
        · cases hlocation <;> contradiction

/-- Only a header that is whole is stripped. -/
theorem framed_of_ok {p : List UInt8} (h : stripHeader d = .ok p) :
    ∃ f : Framed, f.bytes = d ∧ f.payload = p := by
  match d, h with
  | a :: b :: c :: kind :: next, h =>
    cases hn : addressLength kind next with
    | error v => rw [stripHeader_of_error hn] at h; cases h
    | ok n =>
        rw [stripHeader_of_length hn] at h
        split at h
        case isFalse => cases h
        case isTrue hle =>
          cases h
          obtain ⟨f, hheader, hpayload⟩ := exists_framed a b c hn hle
          refine ⟨f, ?_, hpayload⟩
          simp [Framed.bytes, hheader, hpayload]

/-- A datagram is refused because its header is cut short, or because its kind is not known. -/
theorem cut_of_error {v : Violation} (h : stripHeader d = .error v) :
    (v = .shortDatagram ∧ ∃ f : Framed, d <+: f.header ∧ d ≠ f.header) ∨
      (v = .addressType ∧ ∃ a b c kind rest, d = a :: b :: c :: kind :: rest ∧
        kind ≠ 1 ∧ kind ≠ 4 ∧ kind ≠ 3) := by
  have origin : ∃ octets, Location [1, 0, 0, 0, 0] octets := ⟨_, .v4 rfl⟩
  match d, h with
  | [], h =>
    cases h
    exact .inl ⟨rfl, ⟨(0, 0, 0), _, (0, 0), [], origin⟩, List.nil_prefix, nofun⟩
  | [a], h =>
    cases h
    exact .inl ⟨rfl, ⟨(a, 0, 0), _, (0, 0), [], origin⟩, ⟨_, rfl⟩, nofun⟩
  | [a, b], h =>
    cases h
    exact .inl ⟨rfl, ⟨(a, b, 0), _, (0, 0), [], origin⟩, ⟨_, rfl⟩, nofun⟩
  | [a, b, c], h =>
    cases h
    exact .inl ⟨rfl, ⟨(a, b, c), _, (0, 0), [], origin⟩, ⟨_, rfl⟩, nofun⟩
  | a :: b :: c :: kind :: next, h =>
    cases hn : addressLength kind next with
    | error v' =>
        cases (stripHeader_of_error hn).symm.trans h
        rcases addressLength_error hn with ⟨rfl, rfl, rfl⟩ | ⟨rfl, hkind⟩
        · exact .inl ⟨rfl, ⟨(a, b, c), [3, 0], (0, 0), [], _, @Location.domain 0 [] rfl⟩,
            ⟨_, rfl⟩, nofun⟩
        · exact .inr ⟨rfl, a, b, c, kind, next, rfl, hkind⟩
    | ok n =>
        rw [stripHeader_of_length hn] at h
        split at h
        case isTrue => cases h
        case isFalse hlt =>
          cases h
          -- With zeros behind what there is, the header would be whole.
          obtain ⟨f, hheader, -⟩ := exists_framed a b c
            (addressLength_append hn (List.replicate (n + 2) 0)) (by simp)
          have hle : next.length ≤ n + 2 := Nat.le_of_not_le hlt
          have htake : (next ++ List.replicate (n + 2) 0).take (n + 2) =
              next ++ List.replicate (n + 2 - next.length) 0 := by
            rw [List.take_append, List.take_of_length_le hle, List.take_replicate]
            simp
          rw [htake] at hheader
          refine .inl ⟨rfl, f, hheader ▸ ⟨_, rfl⟩, fun heq => hlt ?_⟩
          have hlen := congrArg List.length (heq.trans hheader)
          simp only [List.length_cons, List.length_append, List.length_replicate] at hlen
          omega

/-! ### Places -/

/-- The payload of a datagram by places: none where a place is asked for that the datagram does not
have. -/
def payloadAt? (d : List UInt8) : Option (Except Violation (List UInt8)) :=
  if d.length < 4 then some (.error .shortDatagram)
  else do
    let kind ← d[3]?
    match addressLength kind (d.drop 4) with
    | .error v => some (.error v)
    | .ok length =>
      let start := 4 + length + 2
      some (if start ≤ d.length then .ok (d.drop start) else .error .shortDatagram)

/-- **No place is asked for that a datagram does not have.** -/
theorem payloadAt?_eq (d : List UInt8) : payloadAt? d = some (stripHeader d) := by
  match d with
  | [] | [_] | [_, _] | [_, _, _] => rfl
  | a :: b :: c :: kind :: next =>
    have hlong : ¬ (a :: b :: c :: kind :: next).length < 4 := by simp
    have hkind : (a :: b :: c :: kind :: next)[3]? = some kind := rfl
    have hnext : (a :: b :: c :: kind :: next).drop 4 = next := rfl
    rw [payloadAt?, if_neg hlong, hkind, Option.bind_eq_bind, Option.bind_some, hnext]
    cases hn : addressLength kind next with
    | error v => rw [stripHeader_of_error hn]
    | ok n =>
        have hle : 4 + n + 2 ≤ (a :: b :: c :: kind :: next).length ↔ n + 2 ≤ next.length := by
          simp only [List.length_cons]
          omega
        have hdrop : (a :: b :: c :: kind :: next).drop (4 + n + 2) = next.drop (n + 2) := by
          rw [show 4 + n + 2 = n + 2 + 1 + 1 + 1 + 1 by omega]
          rfl
        simp only [stripHeader_of_length hn, hle, hdrop]

/-! ### All datagrams -/

/-- **Headers are stripped exactly.**  Whatever bytes come in, no place is asked for that is not
there.  What is left are the bytes behind a whole header, and it is settled by the bytes what the
parts of the datagram are.  Bytes are refused where they are a header cut short, where their kind is
not known, and nowhere else.  So what was put behind the header of an address is what is left. -/
theorem headers_stripped_exactly :
    (∀ d, payloadAt? d = some (stripHeader d)) ∧
    (∀ d p, stripHeader d = .ok p ↔ ∃ f : Framed, f.bytes = d ∧ f.payload = p) ∧
    (∀ f g : Framed, f.bytes = g.bytes → f = g) ∧
    (∀ d v, stripHeader d = .error v ↔
      (v = .shortDatagram ∧ ∃ f : Framed, d <+: f.header ∧ d ≠ f.header) ∨
      (v = .addressType ∧ ∃ a b c kind rest, d = a :: b :: c :: kind :: rest ∧
        kind ≠ 1 ∧ kind ≠ 4 ∧ kind ≠ 3)) ∧
    ∀ address payload,
      stripHeader ([0, 0, 0] ++ encodeAddress address ++ payload) = .ok payload := by
  refine ⟨payloadAt?_eq, fun d p => ⟨framed_of_ok, ?_⟩, fun f g h => Framed.bytes_injective h,
    fun d v => ⟨cut_of_error, ?_⟩, fun address payload => ?_⟩
  · rintro ⟨f, rfl, rfl⟩
    exact stripHeader_bytes f
  · rintro (⟨rfl, f, hcut, hne⟩ | ⟨rfl, a, b, c, kind, rest, rfl, h₁, h₄, h₃⟩)
    · exact stripHeader_cut f hcut hne
    · exact stripHeader_of_error (by simp [addressLength, h₁, h₄, h₃])
  · have h := stripHeader_bytes ⟨(0, 0, 0), kindByte address.ip :: address.ip.octets,
      ((address.port >>> 8).toUInt8, address.port.toUInt8), payload, _, location_of_ip address.ip⟩
    simpa [Framed.bytes, Framed.header, encodeAddress, wordBytes] using h

/-- Two bytes come from a host with a name, and the same bytes without their end are too few. -/
theorem named_datagram_stripped :
    let named : Framed := ⟨(0, 0, 0), [3, 2, 104, 105], (0, 53), [170, 187], _, .domain rfl⟩
    stripHeader named.bytes = .ok [170, 187] ∧
    stripHeader (named.bytes.take 8) = .error .shortDatagram ∧
    ∀ f : Framed, f.bytes = named.bytes → f = named := by
  intro named
  refine ⟨(headers_stripped_exactly.2.1 _ _).2 ⟨named, rfl, rfl⟩,
    (headers_stripped_exactly.2.2.2.1 _ _).2 (.inl ⟨rfl, named, ⟨[53], rfl⟩, by decide⟩),
    fun f => headers_stripped_exactly.2.2.1 f named⟩

end TunnelKeeper.Socks
