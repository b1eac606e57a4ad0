import TunnelKeeper.Proofs.Control.Stories

/-!
# Ordering — replies and events on one connection

The story of a connection tells which lines were read, what was written, and which events were on
their way.  So the order of what is written is a matter of the order in the story (`Ordered`).

* `Ordered.step`, `Ordered.run`: every step keeps the story ordered, and so does every run.
* `connection_in_order`: what is written, whatever lines are sent and however steps interleave.
-/

namespace TunnelKeeper.Control

/-! ### What the story tells -/

/-- Where the last of some items is told apart. -/
theorem concat_eq_append_cons {α : Type} {xs ys zs : List α} {x y : α} :
    xs ++ [x] = ys ++ y :: zs ↔
      (zs = [] ∧ xs = ys ∧ x = y) ∨ ∃ zs', zs = zs' ++ [x] ∧ xs = ys ++ y :: zs' := by
  constructor
  · intro h
    rcases List.eq_nil_or_concat zs with rfl | ⟨zs', z, rfl⟩
    · obtain ⟨hxs, hx⟩ := List.append_inj' h rfl
      exact .inl ⟨rfl, hxs, List.singleton_inj.1 hx⟩
    · have h' : xs ++ [x] = (ys ++ y :: zs') ++ [z] := by simpa using h
      obtain ⟨hxs, hx⟩ := List.append_inj' h' rfl
      obtain rfl := List.singleton_inj.1 hx
      exact .inr ⟨zs', List.concat_eq_append, hxs⟩
  · rintro (⟨rfl, rfl, rfl⟩ | ⟨zs', rfl, rfl⟩)
    · rfl
    · simp

/-- **While a line is with the service, nothing is written** and nothing is read, until the
reply. -/
def Waits (handling : Option String) (story : List Moment) : Prop :=
  ∀ earlier line later, story = earlier ++ .taken line :: later →
    ∃ meanwhile rest, later = meanwhile ++ rest ∧ (∀ m ∈ meanwhile, ∃ e, m = .emitted e) ∧
      (rest = [] ∧ handling = some line ∨ ∃ r after, rest = .answered line r :: after)

namespace Waits

variable {handling : Option String} {story : List Moment} {line : String}

/-- While no line is with the service, anything else happens. -/
theorem apart (h : Waits none story) {m : Moment} (hm : ∀ line, m ≠ .taken line) :
    Waits none (story ++ [m]) := by
  intro earlier line later hsplit
  rcases concat_eq_append_cons.1 hsplit with ⟨-, -, htaken⟩ | ⟨later, rfl, hstory⟩
  · exact absurd htaken (hm line)
  obtain ⟨meanwhile, rest, rfl, hmeanwhile, ⟨-, hnone⟩ | ⟨r, after, rfl⟩⟩ := h _ _ _ hstory
  · cases hnone
  · exact ⟨meanwhile, _, List.append_assoc .., hmeanwhile, .inr ⟨r, after ++ [m], rfl⟩⟩

theorem takes (h : Waits none story) (line : String) :
    Waits (some line) (story ++ [.taken line]) := by
  intro earlier line' later hsplit
  rcases concat_eq_append_cons.1 hsplit with ⟨rfl, -, htaken⟩ | ⟨later, rfl, hstory⟩
  · cases htaken
    refine ⟨[], [], rfl, ?_, .inl ⟨rfl, rfl⟩⟩
    intro m hm
    cases hm
  obtain ⟨meanwhile, rest, rfl, hmeanwhile, ⟨-, hnone⟩ | ⟨r, after, rfl⟩⟩ := h _ _ _ hstory
  · cases hnone
  · exact ⟨meanwhile, _, List.append_assoc .., hmeanwhile, .inr ⟨r, after ++ [.taken line], rfl⟩⟩

theorem answers (h : Waits (some line) story) (r : Reply) :
    Waits none (story ++ [.answered line r]) := by
  intro earlier line' later hsplit
  rcases concat_eq_append_cons.1 hsplit with ⟨-, -, htaken⟩ | ⟨later, rfl, hstory⟩
  · cases htaken
  obtain ⟨meanwhile, rest, rfl, hmeanwhile, ⟨rfl, hline⟩ | ⟨r', after, rfl⟩⟩ := h _ _ _ hstory
  · cases hline
    exact ⟨meanwhile, _, List.append_assoc .., hmeanwhile, .inr ⟨r, [], rfl⟩⟩
  · exact ⟨meanwhile, _, List.append_assoc .., hmeanwhile,
      .inr ⟨r', after ++ [.answered line r], rfl⟩⟩

/-- Events may be on their way meanwhile. -/
theorem emits (h : Waits handling story) (e : Event) : Waits handling (story ++ [.emitted e]) := by
  intro earlier line later hsplit
  rcases concat_eq_append_cons.1 hsplit with ⟨-, -, htaken⟩ | ⟨later, rfl, hstory⟩
  · cases htaken
  obtain ⟨meanwhile, rest, rfl, hmeanwhile, ⟨rfl, hline⟩ | ⟨r, after, rfl⟩⟩ := h _ _ _ hstory
  · refine ⟨meanwhile ++ [.emitted e], [], by simp, ?_, .inl ⟨rfl, hline⟩⟩
    intro m hm
    rcases List.mem_append.1 hm with hm | hm
    · exact hmeanwhile m hm
    · exact ⟨e, List.mem_singleton.1 hm⟩
  · exact ⟨meanwhile, _, List.append_assoc .., hmeanwhile,
      .inr ⟨r, after ++ [.emitted e], rfl⟩⟩

end Waits

/-- **An event is written after it was sent**, and it is the one at its place of the stream. -/
def Hears (before : List Event) (story : List Moment) : Prop :=
  ∀ earlier place e later, story = earlier ++ .heard place e :: later →
    (before ++ earlier.filterMap Moment.event?)[place]? = some e

theorem Hears.concat {before : List Event} {story : List Moment} (h : Hears before story)
    {m : Moment} (hm : ∀ place e, m = .heard place e →
      (before ++ story.filterMap Moment.event?)[place]? = some e) :
    Hears before (story ++ [m]) := by
  intro earlier place e later hsplit
  rcases concat_eq_append_cons.1 hsplit with ⟨-, rfl, hheard⟩ | ⟨later, -, hstory⟩
  · exact hm place e hheard
  · exact h earlier place e later hstory

/-- **A story that is in order**, of a connection that has subscribed after some events. -/
structure Ordered (before : List Event) (labels : List Connection.Label) (story : List Moment)
    (b : Broadcast) (c : Connection) : Prop where
  keeps : b.Keeps (before ++ emittedEvents labels)
  emitted : story.filterMap Moment.event? = emittedEvents labels
  written : c.output = story.filterMap Moment.message?
  read : story.filterMap Moment.line? ++ c.incoming = sentLines labels
  answered : (story.filterMap Moment.line?).filter (fun line => !Blank.isBlankText line.toList) =
    (story.filterMap Moment.answer?).map (·.1) ++ c.handling.toList
  waits : Waits c.handling story
  hears : Hears before story
  since : before.length ≤ c.position
  places : story.flatMap Moment.places = List.range' before.length (c.position - before.length)
  events : (c.output.filterMap Message.event?).Sublist
    ((emittedEvents labels).take (c.position - before.length))

namespace Ordered

variable {before : List Event} {labels : List Connection.Label} {story : List Moment}
  {b b' : Broadcast} {c c' : Connection} {l : Connection.Label} {m? : Option Moment}

theorem connect {b : Broadcast} (h : b.Keeps before) :
    Ordered before [] [] b (Connection.connect b) where
  keeps := by simpa [emittedEvents] using h
  emitted := rfl
  written := rfl
  read := rfl
  answered := rfl
  waits earlier line later h := by simp at h
  hears earlier place e later h := by simp at h
  since := Nat.le_of_eq h.sent.symm
  places := by
    show [] = List.range' before.length (b.sent - before.length)
    rw [h.sent, Nat.sub_self]
    rfl
  events := List.nil_sublist _

/-- A line is with the service from when it is taken to its reply. -/
theorem waits_step (h : Ordered before labels story b c)
    (hs : Connection.Happens b c l m? b' c') : Waits c'.handling (story ++ m?.toList) := by
  have hw := h.waits
  cases hs with
  | sends | hangsUp | ends => simpa using hw
  | skips hidle =>
      rw [Connection.handling_of_idle hidle] at hw
      exact hw.apart nofun
  | takes hidle =>
      rw [Connection.handling_of_idle hidle] at hw
      exact hw.takes _
  | answers r hc =>
      rw [hc] at hw
      exact hw.answers r
  | hears hidle | loses hidle =>
      show Waits c.handling _
      rw [Connection.handling_of_idle hidle] at hw ⊢
      exact hw.apart nofun
  | emits e => exact hw.emits e

/-- Events are written one after the other, or else reported as lost. -/
theorem places_step (h : Ordered before labels story b c)
    (hs : Connection.Happens b c l m? b' c') :
    (story ++ m?.toList).flatMap Moment.places =
      List.range' before.length (c'.position - before.length) := by
  have hsince := h.since
  have more : ∀ n, List.range' before.length (c.position - before.length) ++
      List.range' c.position n = List.range' before.length (c.position + n - before.length) := by
    intro n
    rw [Nat.sub_add_comm hsince, ← List.range'_append_1, Nat.add_sub_cancel' hsince]
  rw [List.flatMap_append, h.places]
  cases hs with
  | hears hidle hr =>
      obtain ⟨-, rfl⟩ := h.keeps.receive_event hr
      exact more 1
  | loses hidle hr =>
      obtain rfl := Broadcast.receive_lagged hr
      simpa [Moment.places] using more _
  | _ => exact List.append_nil _

/-- The event that is written comes after all those that were. -/
theorem events_step (h : Ordered before labels story b c)
    (hs : Connection.Happens b c l m? b' c') :
    (c'.output.filterMap Message.event?).Sublist
      ((emittedEvents (labels ++ [l])).take (c'.position - before.length)) := by
  have hsince := h.since
  have hevents := h.events
  rw [emittedEvents_concat]
  cases hs with
  | sends | hangsUp | skips | takes => simpa [emittedEvents] using hevents
  | ends hl =>
      rw [hl.2, List.append_nil]
      exact hevents
  | answers => simpa [emittedEvents, List.filterMap_cons, Message.event?] using hevents
  | hears hidle hr =>
      obtain ⟨hplace, rfl⟩ := h.keeps.receive_event hr
      rw [List.getElem?_append_right hsince] at hplace
      show List.Sublist _ (List.take (c.position + 1 - before.length) (_ ++ []))
      rw [List.append_nil, Nat.sub_add_comm hsince, List.take_add_one, hplace,
        List.filterMap_append]
      exact hevents.append_right _
  | @loses missed next hidle hr =>
      obtain rfl := Broadcast.receive_lagged hr
      show List.Sublist _ (List.take (c.position + missed - before.length) (_ ++ []))
      rw [List.append_nil]
      exact hevents.trans (List.take_sublist_take_left (by omega))
  | emits e =>
      rw [List.take_append]
      exact hevents.trans (List.sublist_append_left ..)

/-- **Every step keeps the story ordered.** -/
theorem step (h : Ordered before labels story b c) (hs : Connection.Happens b c l m? b' c') :
    Ordered before (labels ++ [l]) (story ++ m?.toList) b' c' where
  keeps := by
    rw [emittedEvents_concat, ← List.append_assoc]
    cases hs with
    | emits e => exact h.keeps.send e
    | ends hl =>
        rw [hl.2, List.append_nil]
        exact h.keeps
    | _ => exact (List.append_nil _).symm ▸ h.keeps
  emitted := by
    rw [emittedEvents_concat, List.filterMap_append, h.emitted]
    cases hs with
    | ends hl => rw [hl.2]; rfl
    | _ => rfl
  written := by
    rw [List.filterMap_append, ← h.written]
    cases hs with
    | answers | hears => rfl
    | _ => exact (List.append_nil _).symm
  read := by
    rw [sentLines_concat, List.filterMap_append, ← h.read]
    cases hs with
    | ends hl => simp [hl.1]
    | skips _ hc | takes _ hc => simp [hc, Moment.line?, sentLines]
    | _ => simp [Moment.line?, sentLines]
  answered := by
    rw [List.filterMap_append, List.filter_append, List.filterMap_append, List.map_append,
      h.answered]
    cases hs with
    | skips hidle _ hblank | takes hidle _ hblank =>
        simp [List.filterMap_cons, Moment.line?, Moment.answer?,
          Connection.handling_of_idle hidle, hblank]
    | answers r hc => simp [List.filterMap_cons, Moment.line?, Moment.answer?, hc]
    | _ => simp [List.filterMap_cons, Moment.line?, Moment.answer?]
  waits := h.waits_step hs
  hears := by
    cases hs with
    | sends | hangsUp | ends => simpa using h.hears
    | hears hidle hr =>
        refine h.hears.concat fun place e he => ?_
        cases he
        rw [h.emitted]
        exact (h.keeps.receive_event hr).1
    | skips | takes | answers | loses | emits => exact h.hears.concat nofun
  since := by
    have hsince := h.since
    cases hs with
    | hears hidle hr =>
        obtain ⟨-, rfl⟩ := h.keeps.receive_event hr
        exact Nat.le_succ_of_le hsince
    | loses hidle hr =>
        obtain rfl := Broadcast.receive_lagged hr
        exact Nat.le_add_right_of_le hsince
    | _ => exact hsince
  places := h.places_step hs
  events := h.events_step hs

/-- **Every run keeps the story ordered.** -/
theorem run (h : Ordered before labels story b c) {more : List Connection.Label}
    (hr : Connection.run? (b, c) more = some (b', c')) :
    Ordered before (labels ++ more) (story ++ Connection.story (b, c) more) b' c' := by
  induction more generalizing labels story b c with
  | nil =>
      cases hr
      simpa [Connection.story] using h
  | cons l more ih =>
      obtain ⟨⟨b₁, c₁⟩, hs, hr⟩ := Option.bind_eq_some_iff.1 hr
      have hnext := ih (h.step (Connection.happens_step hs)) hr
      rw [List.append_assoc, List.append_assoc] at hnext
      rw [Connection.story, hs]
      exact hnext

end Ordered

/-! ### Connections from their beginning -/

/-- A connection that begins after some events, and its broadcast. -/
def Connection.beginning (wanted : Nat) (before : List Event) : Broadcast × Connection :=
  let b := before.foldl Broadcast.send (.ofCapacity wanted)
  (b, .connect b)

/-- **What is sent while a line is with the service is written after the reply.** -/
theorem Hears.after_reply {before : List Event} {story earlier meanwhile later : List Moment}
    {line : String} {r : Reply} (h : Hears before story)
    (hstory : story = earlier ++ .taken line :: (meanwhile ++ .answered line r :: later))
    (hmeanwhile : ∀ m ∈ meanwhile, ∃ e, m = .emitted e) {place : Nat} {e : Event}
    (hheard : .heard place e ∈ story)
    (hplace : before.length + (earlier.filterMap Moment.event?).length ≤ place) :
    .heard place e ∈ later := by
  have sooner : .heard place e ∉ earlier := by
    intro hmem
    obtain ⟨first, rest, rfl⟩ := List.append_of_mem hmem
    rw [List.append_assoc] at hstory
    have hsent := h first place e _ hstory
    obtain ⟨hlt, -⟩ := List.getElem?_eq_some_iff.1 hsent
    rw [List.length_append] at hlt
    rw [List.filterMap_append, List.length_append] at hplace
    omega
  rw [hstory] at hheard
  simp only [List.mem_append, List.mem_cons] at hheard
  rcases hheard with hmem | htaken | hmem | hanswered | hmem
  · exact absurd hmem sooner
  · cases htaken
  · obtain ⟨e', he⟩ := hmeanwhile _ hmem
    cases he
  · cases hanswered
  · exact hmem

/-- **Replies and events are in order** on a connection that began after some events. -/
structure InOrder (before : List Event) (labels : List Connection.Label) (story : List Moment)
    (c : Connection) : Prop where
  /-- What is written are the replies and events of the story; all events that are sent are part
  of it. -/
  written : c.output = story.filterMap Moment.message?
  emitted : story.filterMap Moment.event? = emittedEvents labels
  /-- Lines are read in the order in which they were sent, and none is lost. -/
  read : story.filterMap Moment.line? ++ c.incoming = sentLines labels
  /-- Each of them that is not all white space has one reply, in the same order, but for the one
  that is with the service. -/
  answered : (story.filterMap Moment.line?).filter (fun line => !Blank.isBlankText line.toList) =
    (story.filterMap Moment.answer?).map (·.1) ++ c.handling.toList
  replies : c.output.filterMap Message.reply? = (story.filterMap Moment.answer?).map (·.2)
  /-- The events are written in the order in which they were sent since the connection began, -/
  events : (c.output.filterMap Message.event?).Sublist (emittedEvents labels)
  hears : Hears before story
  /-- none of them twice, and of those up to the last one all are written or reported as lost. -/
  places : ∃ n, story.flatMap Moment.places = List.range' before.length n
  /-- While a line is with the service nothing is written, -/
  waits : Waits c.handling story
  /-- and what is sent meanwhile is written after the reply. -/
  replyFirst : ∀ earlier line meanwhile r later,
    story = earlier ++ .taken line :: (meanwhile ++ .answered line r :: later) →
    (∀ m ∈ meanwhile, ∃ e, m = .emitted e) → ∀ place e, .heard place e ∈ story →
    before.length + (earlier.filterMap Moment.event?).length ≤ place → .heard place e ∈ later
  /-- Each message takes one line. -/
  framed : ∀ isLast, readLines isLast [] (c.output.flatMap Message.bytes) =
    { lines := c.output.map fun m => m.toJson.compact }

theorem filterMap_reply? (story : List Moment) :
    (story.filterMap Moment.message?).filterMap Message.reply? =
      (story.filterMap Moment.answer?).map (·.2) := by
  rw [List.filterMap_filterMap, List.map_filterMap]
  refine congrArg (List.filterMap · story) (funext fun m => ?_)
  cases m <;> rfl

/-- **A connection keeps its order.**  Whatever lines a client sends, and however reading, handling
and the events of the service interleave: what was written until then are the replies to its lines,
in order, and the events since it began, in order, but for those that were reported as lost. -/
theorem connection_in_order {wanted : Nat} {before : List Event} {labels : List Connection.Label}
    {b : Broadcast} {c : Connection}
    (h : Connection.run? (Connection.beginning wanted before) labels = some (b, c)) :
    InOrder before labels (Connection.story (Connection.beginning wanted before) labels) c := by
  have hkeeps := (Broadcast.Keeps.ofCapacity wanted).sendAll before
  have hordered := (Ordered.connect hkeeps).run h
  rw [List.nil_append, List.nil_append] at hordered
  exact {
    written := hordered.written
    emitted := hordered.emitted
    read := hordered.read
    answered := hordered.answered
    replies := hordered.written ▸ filterMap_reply? _
    events := hordered.events.trans (List.take_sublist ..)
    hears := hordered.hears
    places := ⟨_, hordered.places⟩
    waits := hordered.waits
    replyFirst := fun _ _ _ _ _ hstory hmeanwhile _ _ hheard hplace =>
      hordered.hears.after_reply hstory hmeanwhile hheard hplace
    framed := fun isLast => readLines_messages isLast c.output }

/-- A client sends a line of white space and a request.  While the request is with the service,
three events are sent, of which the broadcast keeps two.  The reply comes first, then the loss of
one event is reported, and then the other two are written. -/
theorem busy_connection_in_order :
    let before := [Event.started (some "old") .noError]
    let events := [Event.stopped (some "old"), Event.started (some "a") .noError,
      Event.changed (some "a") .reconnecting]
    let labels : List Connection.Label := [.send " \t", .send "stop", .read, .read] ++
      events.map .emit ++ [.answer { ok := true }, .listen, .listen, .listen]
    ∃ b c, Connection.run? (Connection.beginning 2 before) labels = some (b, c) ∧
      c.output = [.reply { ok := true }, .event (.started (some "a") .noError),
        .event (.changed (some "a") .reconnecting)] ∧
      InOrder before labels (Connection.story (Connection.beginning 2 before) labels) c := by
  intro before events labels
  have hr : (Connection.run? (Connection.beginning 2 before) labels).isSome = true := by decide
  obtain ⟨⟨b, c⟩, h⟩ := Option.isSome_iff_exists.1 hr
  have horder := connection_in_order h
  refine ⟨b, c, h, ?_, horder⟩
  exact horder.written.trans (by decide)

end TunnelKeeper.Control
