import TunnelKeeper.Proofs.Socks.Datagrams

/-!
# Relaying — what the check of the relay makes of two channels

The check talks to the proxy on a stream until it has been granted a relay, and to the relay by
datagrams from then on.  What the proxy has sent on the stream depends on how much it was sent
(`Scene.told`), and `Grants` says when that is the method and a reply.  So the check has two halves:
opening a relay succeeds exactly if the proxy grants one (`play_openRelay_ok`), and no datagram is
sent before it has; asking a relay succeeds exactly if the first datagram that comes back is an
answer to the query (`checkAnswer_ok`).

What a message is is not settled here: a codec is any way to write a query and to read an answer.

* `Quiet`: exchanges that send nothing.
* `relay_checked_exactly`: when the check succeeds, what it sends in every case, and where to.
-/

namespace TunnelKeeper.Check

open Socks (Framed Reply)

open Exchange (askRelay checkAnswer greet openRelay relayAddress relayRequest udpRoundTripBy)

variable {α β : Type} {s s' : Scene} {reply : List UInt8} {address : SocketAddress}

namespace Scene

/-! ### The stream in the course of time -/

/-- What the proxy has sent by the time it was sent so many bytes. -/
def told (s : Scene) (got : Nat) : List UInt8 := s.incoming ++ (ready got s.parts).1

/-- What is ready later is what was ready before, and what has become ready since. -/
theorem ready_later {got later : Nat} (h : got ≤ later) (parts : List (Nat × List UInt8)) :
    ready later parts = ((ready got parts).1 ++ (ready later (ready got parts).2).1,
      (ready later (ready got parts).2).2) := by
  induction parts with
  | nil => rfl
  | cons part parts ih =>
      obtain ⟨least, bytes⟩ := part
      by_cases hleast : least ≤ got
      · simp only [ready, if_pos hleast, if_pos (Nat.le_trans hleast h), List.append_assoc, ih]
      · simp only [ready, if_neg hleast, List.nil_append]

/-! ### Questions that do not read -/

/-- The scene in which the proxy was sent some more bytes. -/
def afterSending (s : Scene) (bytes : List UInt8) : Scene := { s with sent := s.sent ++ bytes }

theorem play_send (s : Scene) (bytes : List UInt8) :
    s.play (Exchange.send bytes) = (.ok (), s.afterSending bytes) := rfl

theorem play_connect (h : s.listens = true) (proxy : SocketAddress) :
    s.play (Exchange.connect proxy) = (.ok (), s) := by
  show (if s.listens then _ else _, s) = _
  rw [if_pos h]

theorem play_orInvalid (s : Scene) (r : Except Violation α) :
    s.play (Exchange.orInvalid r) = (r.mapError .invalid, s) := by
  cases r <;> rfl

/-- Behind a part that goes well, an exchange is the rest of it. -/
theorem play_rest {e : Exchange α} {f : α → Exchange β} {a : α} (h : s.play e = (.ok a, s')) :
    s.play (e >>= f) = s'.play (f a) := by
  rw [play_bind, h]

end Scene

/-- **An exchange that sends nothing**: neither on the stream nor by datagrams. -/
def Quiet (e : Exchange α) : Prop :=
  ∀ s : Scene, (s.play e).2.sent = s.sent ∧ (s.play e).2.datagrams = s.datagrams

namespace Quiet

theorem pure (a : α) : Quiet (Pure.pure a) := fun _ => ⟨rfl, rfl⟩

theorem throw (error : Error) : Quiet (MonadExcept.throw error : Exchange α) := fun _ => ⟨rfl, rfl⟩

theorem receive (count : Nat) : Quiet (Exchange.receive count) := fun s => by
  rw [Scene.play_receive]
  split <;> exact ⟨rfl, rfl⟩

theorem bind {e : Exchange α} {f : α → Exchange β} (h : Quiet e) (hf : ∀ a, Quiet (f a)) :
    Quiet (e >>= f) := fun s => by
  have hs := h s
  rw [Scene.play_bind]
  generalize s.play e = first at hs ⊢
  obtain ⟨_ | a, between⟩ := first
  · exact hs
  · have hrest := hf a between
    exact ⟨hrest.1.trans hs.1, hrest.2.trans hs.2⟩

theorem readAddress (kind : UInt8) : Quiet (Exchange.readAddress kind) := by
  unfold Exchange.readAddress
  split
  · refine (receive 4).bind fun bytes => ?_
    split <;> first | exact pure _ | exact throw _
  split
  · exact (receive 16).bind fun _ => pure _
  split
  · refine (receive 1).bind fun bytes => ?_
    split
    · exact (receive _).bind fun _ => pure _
    · exact throw _
  · exact throw _

theorem readReply : Quiet Exchange.readReply := by
  refine (receive 4).bind fun bytes => ?_
  split
  · split
    · exact throw _
    split
    · exact throw _
    · refine (readAddress _).bind fun ip => (receive 2).bind fun port => ?_
      split <;> first | exact pure _ | exact throw _
  · exact throw _

/-- What is sent before such an exchange is all that is sent. -/
theorem afterSending {f : Unit → Exchange β} (h : Quiet (f ())) (s : Scene) (bytes : List UInt8) :
    (s.play (Exchange.send bytes >>= f)).2.sent = s.sent ++ bytes ∧
      (s.play (Exchange.send bytes >>= f)).2.datagrams = s.datagrams := by
  rw [Scene.play_rest (Scene.play_send s bytes)]
  exact h (s.afterSending bytes)

end Quiet

/-! ### Opening a relay -/

/-- **The proxy grants a relay**: it takes the method once it was sent the greeting, and once it was
sent the request it has sent a reply that grants it. -/
structure Scene.Grants (s : Scene) (reply : List UInt8) (address : SocketAddress) : Prop where
  greeted : [5, 0] <+: s.told 3
  granted : ∃ rest, s.told 13 = [5, 0] ++ reply ++ rest
  wellFormed : Reply reply address

/-- The scene after a relay was granted, with what follows the reply. -/
def Scene.afterGrant (s : Scene) (rest : List UInt8) : Scene :=
  { s with
    incoming := rest
    parts := (Scene.ready 13 s.parts).2
    sent := [5, 1, 0] ++ relayRequest }

theorem play_greet_ok : s.play greet = (.ok (), s') ↔
    ∃ rest, (s.afterSending [5, 1, 0]).coming = [5, 0] ++ rest ∧
      s' = (s.afterSending [5, 1, 0]).leave rest := by
  rw [greet, Scene.play_rest (Scene.play_send _ _)]
  constructor
  · intro h
    obtain ⟨answer, between, hread, h⟩ := Scene.play_bind_ok.1 h
    obtain ⟨-, rest, hcoming, rfl⟩ := Scene.play_receive_ok.1 hread
    split at h
    case isTrue hanswer =>
      cases h
      exact ⟨rest, eq_of_beq hanswer ▸ hcoming, rfl⟩
    case isFalse => cases h
  · rintro ⟨rest, hcoming, rfl⟩
    have hread : (s.afterSending [5, 1, 0]).play (Exchange.receive 2) =
        (.ok [5, 0], (s.afterSending [5, 1, 0]).leave rest) :=
      Scene.play_receive_ok.2 ⟨rfl, rest, hcoming, rfl⟩
    exact Scene.play_bind_ok.2 ⟨_, _, hread, rfl⟩

theorem sent_greet (s : Scene) : (s.play greet).2.sent = s.sent ++ [5, 1, 0] ∧
    (s.play greet).2.datagrams = s.datagrams := by
  refine Quiet.afterSending ((Quiet.receive 2).bind fun answer => ?_) s _
  split
  · exact .pure ()
  · exact .throw _

section Opening

variable {proxy relay : SocketAddress}

theorem coming_greeted (hsent : s.sent = []) :
    (s.afterSending [5, 1, 0]).coming = s.told 3 := by
  simp [Scene.afterSending, Scene.coming, Scene.told, hsent]

/-- The scene when the request was sent, and what comes in then. -/
theorem coming_requested (hsent : s.sent = []) {rest : List UInt8} (h : s.told 3 = [5, 0] ++ rest) :
    ∃ requested, ((s.afterSending [5, 1, 0]).leave rest).afterSending relayRequest = requested ∧
      [5, 0] ++ requested.coming = s.told 13 ∧
      ∀ later, requested.leave later = s.afterGrant later := by
  have hlength : ([] ++ [5, 1, 0] ++ relayRequest : List UInt8).length = 13 := rfl
  have hready := Scene.ready_later (show 3 ≤ 13 by decide) s.parts
  refine ⟨_, rfl, ?_, fun later => ?_⟩
  · simp only [Scene.coming, Scene.leave, Scene.afterSending, hsent, hlength, Scene.told] at h ⊢
    rw [hready, ← List.append_assoc, ← h]
    exact List.append_assoc ..
  · simp only [Scene.leave, Scene.afterSending, Scene.afterGrant, hsent, hlength]
    rw [hready]
    rfl

/-- **A relay is opened exactly if the proxy grants one**, and then nothing is read behind the
reply. -/
theorem play_openRelay_ok (hsent : s.sent = []) (hlistens : s.listens = true) :
    s.play (openRelay proxy) = (.ok relay, s') ↔
      ∃ reply address rest, s.Grants reply address ∧ s.told 13 = [5, 0] ++ reply ++ rest ∧
        relay = relayAddress address proxy ∧ s' = s.afterGrant rest := by
  rw [openRelay, Scene.play_rest (Scene.play_connect hlistens proxy)]
  constructor
  · intro h
    obtain ⟨_, between, hgreet, h⟩ := Scene.play_bind_ok.1 h
    obtain ⟨rest, hcoming, rfl⟩ := play_greet_ok.1 hgreet
    rw [coming_greeted hsent] at hcoming
    obtain ⟨requested, hrequested, htold, hleave⟩ := coming_requested hsent hcoming
    rw [Scene.play_rest (Scene.play_send _ _), hrequested] at h
    obtain ⟨address, between, hread, h⟩ := Scene.play_bind_ok.1 h
    obtain ⟨reply, later, hs, rfl, hreply⟩ := Socks.reply_of_play hread
    cases h
    have hwhole : s.told 13 = [5, 0] ++ reply ++ later := by
      rw [← htold, hs, List.append_assoc]
    exact ⟨reply, address, later, ⟨⟨rest, hcoming.symm⟩, ⟨later, hwhole⟩, hreply⟩, hwhole, rfl,
      hleave later⟩
  · rintro ⟨reply, address, later, ⟨⟨rest, hgreeted⟩, -, hreply⟩, hwhole, rfl, rfl⟩
    obtain ⟨requested, hrequested, htold, hleave⟩ := coming_requested hsent hgreeted.symm
    have hgreet : s.play greet = (.ok (), (s.afterSending [5, 1, 0]).leave rest) :=
      play_greet_ok.2 ⟨rest, (coming_greeted hsent).trans hgreeted.symm, rfl⟩
    have hcoming : requested.coming = reply ++ later := by
      rw [hwhole, List.append_assoc] at htold
      exact List.append_cancel_left htold
    have hread := (Socks.reads_reply hreply).whole requested later hcoming
    rw [hleave later] at hread
    rw [Scene.play_rest hgreet, Scene.play_rest (Scene.play_send _ _), hrequested,
      Scene.play_rest hread]
    rfl

/-- What is sent while a relay is opened: the greeting, the request where the proxy has taken the
method, and no datagram. -/
theorem sent_openRelay (proxy : SocketAddress) (hsent : s.sent = []) (hlistens : s.listens = true) :
    (s.play (openRelay proxy)).2.datagrams = s.datagrams ∧
      (s.play (openRelay proxy)).2.sent =
        if [5, 0] <+: s.told 3 then [5, 1, 0] ++ relayRequest else [5, 1, 0] := by
  have hgreet := sent_greet s
  have htaken (between : Scene) : s.play greet = (.ok (), between) ↔
      ∃ rest, s.told 3 = [5, 0] ++ rest ∧
        between = (s.afterSending [5, 1, 0]).leave rest := by
    rw [play_greet_ok, coming_greeted hsent]
  rw [openRelay, Scene.play_rest (Scene.play_connect hlistens proxy), Scene.play_bind]
  generalize s.play greet = first at hgreet htaken ⊢
  obtain ⟨_ | _, between⟩ := first
  · have hrefused : ¬ [5, 0] <+: s.told 3 := fun ⟨rest, h⟩ =>
      nomatch (htaken _).2 ⟨rest, h.symm, rfl⟩
    rw [if_neg hrefused]
    exact ⟨hgreet.2, by rw [hgreet.1, hsent]; rfl⟩
  · obtain ⟨rest, htold, -⟩ := (htaken between).1 rfl
    have hquiet : Quiet (Exchange.readReply >>= fun reply => pure (relayAddress reply proxy)) :=
      Quiet.readReply.bind fun _ => .pure _
    have hrest := Quiet.afterSending (f := fun _ => _) hquiet between relayRequest
    rw [if_pos ⟨rest, htold.symm⟩]
    exact ⟨hrest.2.trans hgreet.2, hrest.1.trans (by rw [hgreet.1, hsent]; rfl)⟩

end Opening

/-! ### Asking a relay -/

variable {codec : Dns.Codec} {server relay proxy : SocketAddress} {name : String}
  {query datagram : List UInt8}

/-- What is behind the header of a datagram is judged by its own header. -/
theorem checkAnswer_of_strip {id : UInt16} {payload : List UInt8}
    (hstrip : Socks.stripHeader datagram = .ok payload) : checkAnswer codec id datagram = .ok () ↔
      ∃ header : Dns.Header, codec.header? payload = some header ∧ header.id = id ∧
        header.isResponse = true := by
  have hbind (f : List UInt8 → Except Violation Unit) :
      (Except.ok payload >>= f) = f payload := rfl
  rw [checkAnswer, hstrip, hbind]
  cases codec.header? payload with
  | none => simp
  | some header =>
      by_cases hanswers : (header.id == id && header.isResponse) = true
      · have hheader := Bool.and_eq_true_iff.1 hanswers
        simp only [if_pos hanswers]
        exact iff_of_true trivial ⟨header, rfl, eq_of_beq hheader.1, hheader.2⟩
      · simp only [if_neg hanswers]
        refine iff_of_false nofun ?_
        rintro ⟨_, ⟨⟩, rfl, hresponse⟩
        exact hanswers (Bool.and_eq_true_iff.2 ⟨beq_self_eq_true _, hresponse⟩)

/-- **A datagram answers a query exactly if** it has a header, and the payload behind it is a
response with the id of the query. -/
theorem checkAnswer_ok {id : UInt16} : checkAnswer codec id datagram = .ok () ↔
    ∃ (f : Framed) (header : Dns.Header), f.bytes = datagram ∧
      codec.header? f.payload = some header ∧ header.id = id ∧ header.isResponse = true := by
  constructor
  · intro h
    cases hstrip : Socks.stripHeader datagram with
    | error v =>
        rw [checkAnswer, hstrip] at h
        cases h
    | ok payload =>
        obtain ⟨f, hbytes, rfl⟩ := Socks.framed_of_ok hstrip
        obtain ⟨header, hheader⟩ := (checkAnswer_of_strip hstrip).1 h
        exact ⟨f, header, hbytes, hheader⟩
  · rintro ⟨f, header, rfl, hheader⟩
    exact (checkAnswer_of_strip (Socks.stripHeader_bytes f)).2 ⟨header, hheader⟩

/-- The first datagram of a relay is received as it is, if it is no longer than what is kept. -/
theorem play_receiveDatagram {more : List (List UInt8)} (hrelays : s.relays = true)
    (hfirst : s.answers s.id = datagram :: more) (hsize : datagram.length ≤ 1500) :
    s.play Exchange.receiveDatagram = (.ok datagram, s) := by
  show Scene.respond s .receiveDatagram = _
  simp only [Scene.respond, if_pos hrelays, hfirst, List.take_of_length_le hsize]
  rfl

/-- The scene after a query was sent to a relay. -/
def Scene.afterQuery (s : Scene) (relay server : SocketAddress) (query : List UInt8) : Scene :=
  { s with
    socket := some relay.ip.isV4
    target := some relay
    datagrams := s.datagrams ++ [(relay, Socks.datagram server query)] }

/-- A query is sent to the relay, and the first datagram that comes back is judged. -/
theorem play_askRelay {more : List (List UInt8)} (hrelays : s.relays = true)
    (hname : codec.query s.id name = .ok query) (hfirst : s.answers s.id = datagram :: more)
    (hsize : datagram.length ≤ 1500) :
    s.play (askRelay codec relay server name) =
      ((checkAnswer codec s.id datagram).mapError .invalid, s.afterQuery relay server query) := by
  have hsocket : s.play (Exchange.openSocket relay.ip.isV4) =
    (.ok (), { s with socket := some relay.ip.isV4 }) := rfl
  have haim : ({ s with socket := some relay.ip.isV4 } : Scene).play (Exchange.aim relay) =
    (.ok (), { s with socket := some relay.ip.isV4, target := some relay }) := rfl
  have hquery : Exchange.orInvalid (codec.query s.id name) = pure query := by
    rw [hname]
    rfl
  rw [askRelay, Scene.play_rest hsocket, Scene.play_rest haim]
  show Scene.play _ (Exchange.orInvalid (codec.query s.id name) >>= _) = _
  rw [hquery]
  have hreceive : (s.afterQuery relay server query).play Exchange.receiveDatagram =
    (.ok datagram, s.afterQuery relay server query) := play_receiveDatagram hrelays hfirst hsize
  have hsend : ({ s with socket := some relay.ip.isV4, target := some relay } : Scene).play
    (Exchange.sendDatagram (Socks.datagram server query)) =
      (.ok (), s.afterQuery relay server query) := rfl
  show Scene.play _ (Exchange.sendDatagram (Socks.datagram server query) >>= _) = _
  rw [Scene.play_rest hsend, Scene.play_rest hreceive]
  exact Scene.play_orInvalid _ _

/-! ### The whole check -/

/-- **A scene at its beginning in which nothing fails on the way**: the proxy takes the stream, and
a datagram comes back from the relay that is no longer than what is kept of one. -/
structure Scene.Opens (s : Scene) (datagram : List UInt8) : Prop where
  sent : s.sent = []
  datagrams : s.datagrams = []
  listens : s.listens = true
  relays : s.relays = true
  first : ∃ more, s.answers s.id = datagram :: more
  size : datagram.length ≤ 1500

/-- **Where datagrams go** after a reply: to its port, at its address, or at the proxy's where the
reply has none but zeros or a name. -/
structure Destined (proxy : IpAddress) (reply : List UInt8) (address relay : SocketAddress) :
    Prop where
  port : relay.port = address.port
  replys : (∃ b ∈ address.ip.octets, b ≠ 0) → relay.ip = address.ip
  proxys : (∀ b ∈ address.ip.octets, b = 0) → relay.ip = proxy
  named : reply[3]? = some Socks.domainByte → relay.ip = proxy

/-- What the check of a relay comes to, and what it sends. -/
structure Checked (codec : Dns.Codec) (proxy server : SocketAddress) (name : String)
    (query datagram : List UInt8) (s : Scene) : Prop where
  /-- It succeeds exactly if the proxy grants a relay, and the datagram is a header with a payload
  that is a response with the id of the query. -/
  passes : s.passes (udpRoundTripBy codec proxy server name) = true ↔
    (∃ reply address, s.Grants reply address) ∧
      ∃ (f : Framed) (header : Dns.Header), f.bytes = datagram ∧
        codec.header? f.payload = some header ∧ header.id = s.id ∧ header.isResponse = true
  /-- Nothing is sent beyond the greeting where the proxy does not take the method, -/
  refused : ¬ [5, 0] <+: s.told 3 →
    (s.play (udpRoundTripBy codec proxy server name)).2.sent = [5, 1, 0] ∧
      (s.play (udpRoundTripBy codec proxy server name)).2.datagrams = []
  /-- and no datagram where it grants no relay. -/
  ungranted : (¬ ∃ reply address, s.Grants reply address) →
    (s.play (udpRoundTripBy codec proxy server name)).2.datagrams = []
  /-- Where it does, the query is sent to where the reply says, from a socket of that family. -/
  granted : ∀ reply address, s.Grants reply address → ∃ relay,
    Destined proxy.ip reply address relay ∧
      (s.play (udpRoundTripBy codec proxy server name)).2.datagrams =
        [(relay, [0, 0, 0] ++ Socks.encodeAddress server ++ query)] ∧
      (s.play (udpRoundTripBy codec proxy server name)).2.socket = some relay.ip.isV4

/-- Where the client sends datagrams is where the reply says. -/
theorem destined_relayAddress (h : Reply reply address) :
    Destined proxy.ip reply address (relayAddress address proxy) := by
  obtain @⟨reserved, high, low, location, ip, port, hlocation, -⟩ := h
  have hproxys : (∀ b ∈ ip.octets, b = 0) → (relayAddress ⟨ip, port, 0⟩ proxy).ip = proxy.ip := by
    intro hzero
    rw [relayAddress, if_pos (IpAddress.isUnspecified_iff.2 hzero)]
  refine ⟨?_, fun ⟨b, hb, hne⟩ => ?_, hproxys, fun hnamed => hproxys ?_⟩
  · rw [relayAddress]
    split <;> rfl
  · rw [relayAddress, if_neg fun hzero => hne (IpAddress.isUnspecified_iff.1 hzero b hb)]
  · generalize ip.octets = octets at hlocation
    cases hlocation with
    | v4 | v6 => cases hnamed
    | domain => simp

/-- **The check of the relay is exact.**  Whatever the proxy sends on the stream, and whenever, and
whatever comes back from the relay first: the check succeeds exactly if a relay is granted and the
datagram answers the query; nothing is sent beyond the greeting where that is not answered, and no
datagram where no relay is granted; and where it is, the query goes to the relay that was
granted. -/
theorem relay_checked_exactly (codec : Dns.Codec) (proxy server : SocketAddress)
    (hopens : s.Opens datagram) (hname : codec.query s.id name = .ok query) :
    Checked codec proxy server name query datagram s := by
  obtain ⟨hsent, hdatagrams, hlistens, hrelays, ⟨more, hfirst⟩, hsize⟩ := hopens
  have hstream := sent_openRelay proxy hsent hlistens
  have hopen : ∀ relay s', s.play (openRelay proxy) = (.ok relay, s') ↔ _ :=
    fun _ _ => play_openRelay_ok hsent hlistens
  have hplay : s.play (udpRoundTripBy codec proxy server name) = _ := Scene.play_bind ..
  generalize s.play (openRelay proxy) = opening at hstream hopen hplay
  obtain ⟨e | relay, between⟩ := opening
  · have hnone : ¬ ∃ reply address, s.Grants reply address := fun ⟨reply, address, h⟩ => by
      obtain ⟨rest, hwhole⟩ := h.granted
      cases (hopen _ _).2 ⟨reply, address, rest, h, hwhole, rfl, rfl⟩
    refine ⟨⟨fun h => ?_, fun h => absurd h.1 hnone⟩, fun h => ?_, fun _ => ?_,
      fun reply address h => absurd ⟨reply, address, h⟩ hnone⟩
    · rw [Scene.passes, hplay] at h
      cases h
    · rw [hplay, ← hdatagrams, ← hstream.1]
      exact ⟨hstream.2.trans (if_neg h), rfl⟩
    · rw [hplay, ← hdatagrams, ← hstream.1]
  · obtain ⟨reply, address, rest, hgrants, -, -, rfl⟩ := (hopen _ _).1 rfl
    have hask : (s.afterGrant rest).play (askRelay codec relay server name) = _ :=
      play_askRelay hrelays hname hfirst hsize
    have hplay := hplay.trans hask
    refine ⟨?_, fun h => absurd hgrants.greeted h, fun h => absurd ⟨reply, address, hgrants⟩ h,
      fun reply' address' h => ?_⟩
    · have hjudged (r : Except Violation Unit) :
          (r.mapError Error.invalid).isOk = true ↔ r = .ok () := by
        cases r with
        | ok => exact iff_of_true rfl rfl
        | error v => exact iff_of_false Bool.false_ne_true nofun
      rw [Scene.passes, hplay, ← checkAnswer_ok]
      exact (hjudged _).trans ⟨fun h => ⟨⟨reply, address, hgrants⟩, h⟩, And.right⟩
    · obtain ⟨rest', hwhole⟩ := h.granted
      cases (hopen _ _).2 ⟨reply', address', rest', h, hwhole, rfl, rfl⟩
      refine ⟨_, destined_relayAddress h.wellFormed, ?_, ?_⟩
      · rw [hplay]
        show s.datagrams ++ [_] = [_]
        rw [hdatagrams]
        rfl
      · rw [hplay]
        rfl

/-- A proxy that grants a relay without an address of its own, and goes on to say something else;
the relay sends a response. -/
def grantingScene : Scene where
  parts := [(3, [5, 0]), (13, [5, 0, 0, 1, 0, 0, 0, 0, 195, 80, 9, 9])]
  id := 0x1234
  answers id := [Socks.datagram (.ofV4 1 1 1 1 53)
    ([id, 0x8180, 1, 0, 0, 0].flatMap Socks.wordBytes ++ [1, 97, 0, 0, 1, 0, 1])]

/-- What the relay sends. -/
def relayedResponse : Framed where
  reserved := (0, 0, 0)
  location := [1, 1, 1, 1, 1]
  port := (0, 53)
  payload := [0x1234, 0x8180, 1, 0, 0, 0].flatMap Socks.wordBytes ++ [1, 97, 0, 0, 1, 0, 1]
  located := ⟨[1, 1, 1, 1], .v4 rfl⟩

theorem grantingScene_opens : grantingScene.Opens relayedResponse.bytes :=
  ⟨rfl, rfl, rfl, rfl, ⟨[], rfl⟩, by decide⟩

/-- The check succeeds, and its query went to the proxy's host. -/
theorem granted_relay_answers :
    grantingScene.passes (udpRoundTripBy .standard (.ofV4 127 0 0 1 1081) (.ofV4 1 1 1 1 53) "a") =
        true ∧
      ∃ relay query, Dns.query 0x1234 "a" = .ok query ∧ relay.ip = .v4 ⟨127, 0, 0, 1⟩ ∧
        relay.port = 50000 ∧
        (grantingScene.play (udpRoundTripBy .standard (.ofV4 127 0 0 1 1081)
          (.ofV4 1 1 1 1 53) "a")).2.datagrams =
            [(relay, [0, 0, 0] ++ Socks.encodeAddress (.ofV4 1 1 1 1 53) ++ query)] := by
  have hread : Dns.Name.read? "a" = some ⟨[[97]]⟩ := by decide
  have hname : Dns.Codec.standard.query grantingScene.id "a" =
      .ok (Dns.queryBytes 0x1234 ⟨[[97]]⟩) := by
    show Dns.query 0x1234 "a" = _
    rw [Dns.query, hread]
    rfl
  have hgrants :
      grantingScene.Grants [5, 0, 0, 1, 0, 0, 0, 0, 195, 80] ⟨.v4 .unspecified, 50000, 0⟩ :=
    ⟨⟨[], rfl⟩, ⟨[9, 9], rfl⟩, .granted (Socks.location_of_ip (.v4 .unspecified)) rfl⟩
  have hchecked := relay_checked_exactly .standard (.ofV4 127 0 0 1 1081) (.ofV4 1 1 1 1 53)
    grantingScene_opens hname
  obtain ⟨relay, hdestined, hdatagrams, -⟩ := hchecked.granted _ _ hgrants
  have hany : ∀ b ∈ (IpAddress.v4 .unspecified).octets, b = 0 := IpAddress.isUnspecified_iff.1 rfl
  exact ⟨hchecked.passes.2 ⟨⟨_, _, hgrants⟩, relayedResponse, ⟨0x1234, true⟩, rfl, rfl, rfl, rfl⟩,
    relay, _, hname, hdestined.proxys hany, hdestined.port, hdatagrams⟩

end TunnelKeeper.Check
