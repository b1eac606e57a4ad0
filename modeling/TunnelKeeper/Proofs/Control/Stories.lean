import TunnelKeeper.Proofs.Control.Framing

/-!
# Stories — what happens on one connection

A connection takes turns: while a line is with the service, it reads neither the next line nor the
broadcast.  What has happened on a connection, step by step, is its story (`Connection.story`).

* `Broadcast.Keeps`: a broadcast keeps the end of the stream of all events.
* `Connection.happens_step`: all that a step of a connection can be (`Connection.Happens`).
-/

namespace TunnelKeeper

/-! ### Broadcasts -/

/-- **A broadcast keeps the end of a stream**, and counts all of it. -/
structure Broadcast.Keeps (b : Broadcast) (stream : List Event) : Prop where
  sent : b.sent = stream.length
  kept : b.kept <:+ stream

namespace Broadcast.Keeps

variable {b : Broadcast} {stream : List Event} {position : Nat}

theorem ofCapacity (wanted : Nat) : (Broadcast.ofCapacity wanted).Keeps [] := ⟨rfl, List.suffix_rfl⟩

theorem send (h : b.Keeps stream) (e : Event) : (b.send e).Keeps (stream ++ [e]) where
  sent := by
    rw [List.length_append, ← h.sent]
    rfl
  kept := by
    obtain ⟨older, rfl⟩ := h.kept
    refine (List.drop_suffix _ (b.kept ++ [e])).trans ?_
    rw [List.append_assoc]
    exact List.suffix_append _ _

theorem sendAll (h : b.Keeps stream) (events : List Event) :
    (events.foldl Broadcast.send b).Keeps (stream ++ events) := by
  induction events generalizing b stream with
  | nil => rwa [List.append_nil]
  | cons e events ih => simpa using ih (h.send e)

/-- The event that a reader gets is the one at its position. -/
theorem receive_event (h : b.Keeps stream) {e : Event} {next : Nat}
    (hr : b.receive position = (.event e, next)) :
    stream[position]? = some e ∧ next = position + 1 := by
  obtain ⟨older, rfl⟩ := h.kept
  have holdest : b.sent - b.kept.length = older.length := by simp [h.sent]
  unfold receive at hr
  dsimp only at hr
  rw [holdest] at hr
  split at hr
  case isTrue => cases hr
  case isFalse hle =>
    split at hr
    case h_1 hk =>
      cases hr
      exact ⟨(List.getElem?_append_right (Nat.le_of_not_lt hle)).trans hk, rfl⟩
    case h_2 => split at hr <;> cases hr

end Broadcast.Keeps

/-- A reader that has fallen behind is told how many events it has missed, and goes on after
them. -/
theorem Broadcast.receive_lagged {b : Broadcast} {position missed next : Nat}
    (hr : b.receive position = (.lagged missed, next)) : next = position + missed := by
  unfold receive at hr
  dsimp only at hr
  split at hr
  case isTrue hlt =>
    cases hr
    omega
  case isFalse =>
    split at hr
    case h_1 => cases hr
    case h_2 => split at hr <;> cases hr

namespace Control

/-! ### Stories -/

/-- What happens on a connection, or to the broadcast that it reads. -/
inductive Moment where
  /-- A line is read that is all white space. -/
  | skipped (line : String)
  /-- A line is read and given to the service. -/
  | taken (line : String)
  /-- The reply to a line is written. -/
  | answered (line : String) (r : Reply)
  /-- An event is sent to everybody. -/
  | emitted (e : Event)
  /-- The event at a place of the stream is written. -/
  | heard (place : Nat) (e : Event)
  /-- So many events from a place on are reported as lost. -/
  | lost (place missed : Nat)

namespace Moment

/-- The line that is read. -/
def line? : Moment → Option String
  | skipped line | taken line => some line
  | _ => none

/-- The line that is answered, and the reply. -/
def answer? : Moment → Option (String × Reply)
  | answered line r => some (line, r)
  | _ => none

/-- The event that is sent to everybody. -/
def event? : Moment → Option Event
  | emitted e => some e
  | _ => none

/-- The places of the stream that a reader has done with. -/
def places : Moment → List Nat
  | heard place _ => [place]
  | lost place missed => List.range' place missed
  | _ => []

/-- The message that is written. -/
def message? : Moment → Option Message
  | answered _ r => some (.reply r)
  | heard _ e => some (.event e)
  | _ => none

end Moment

def Message.event? : Message → Option Event
  | event e => some e
  | reply _ => none

def Message.reply? : Message → Option Reply
  | reply r => some r
  | event _ => none

/-- The lines that a client sends in a list of steps. -/
def sentLines (labels : List Connection.Label) : List String :=
  labels.filterMap fun
    | .send line => some line
    | _ => none

/-- The events that are sent to everybody in a list of steps. -/
def emittedEvents (labels : List Connection.Label) : List Event :=
  labels.filterMap fun
    | .emit e => some e
    | _ => none

theorem emittedEvents_concat (labels : List Connection.Label) (l : Connection.Label) :
    emittedEvents (labels ++ [l]) = emittedEvents labels ++ emittedEvents [l] :=
  List.filterMap_append

theorem sentLines_concat (labels : List Connection.Label) (l : Connection.Label) :
    sentLines (labels ++ [l]) = sentLines labels ++ sentLines [l] :=
  List.filterMap_append

namespace Connection

/-- What happens in a step. -/
def moment? : Broadcast × Connection → Label → Option Moment
  | (_, c), .read => c.incoming.head?.map fun line =>
    if Blank.isBlankText line.toList then .skipped line else .taken line
  | (_, c), .answer r => c.handling.map (.answered · r)
  | (b, c), .listen =>
    match b.receive c.position with
    | (.event e, _) => some (.heard c.position e)
    | (.lagged missed, _) => some (.lost c.position missed)
    | _ => none
  | _, .emit e => some (.emitted e)
  | _, .send _ | _, .hangUp => none

/-- What happens in a list of steps. -/
def story (s : Broadcast × Connection) : List Label → List Moment
  | [] => []
  | l :: labels =>
    match step? s l with
    | some s' => (moment? s l).toList ++ story s' labels
    | none => []

/-- **All that a step can be**, with what happens in it. -/
inductive Happens (b : Broadcast) (c : Connection) :
    Label → Option Moment → Broadcast → Connection → Prop where
  | sends (line : String) :
      Happens b c (.send line) none b { c with incoming := c.incoming ++ [line] }
  | hangsUp : Happens b c .hangUp none b { c with expectsMore := false }
  | skips {line : String} {incoming : List String} (hidle : c.isIdle = true)
      (hc : c.incoming = line :: incoming) (hblank : Blank.isBlankText line.toList = true) :
      Happens b c .read (some (.skipped line)) b { c with incoming, handling := none }
  | takes {line : String} {incoming : List String} (hidle : c.isIdle = true)
      (hc : c.incoming = line :: incoming) (hblank : Blank.isBlankText line.toList = false) :
      Happens b c .read (some (.taken line)) b { c with incoming, handling := some line }
  /-- There will be nothing more to read. -/
  | ends {l : Label} (hl : sentLines [l] = [] ∧ emittedEvents [l] = []) (hidle : c.isIdle = true) :
      Happens b c l none b { c with isOpen := false }
  | answers {line : String} (r : Reply) (hc : c.handling = some line) :
      Happens b c (.answer r) (some (.answered line r)) b
        { c with handling := none, output := c.output ++ [.reply r] }
  | hears {e : Event} {next : Nat} (hidle : c.isIdle = true)
      (hr : b.receive c.position = (.event e, next)) :
      Happens b c .listen (some (.heard c.position e)) b
        { c with position := next, output := c.output ++ [.event e] }
  | loses {missed next : Nat} (hidle : c.isIdle = true)
      (hr : b.receive c.position = (.lagged missed, next)) :
      Happens b c .listen (some (.lost c.position missed)) b { c with position := next }
  | emits (e : Event) : Happens b c (.emit e) (some (.emitted e)) (b.send e) c

variable {b b' : Broadcast} {c c' : Connection} {l : Label}

theorem handling_of_idle (h : c.isIdle = true) : c.handling = none := by
  rw [isIdle, Bool.and_eq_true, Option.isNone_iff_eq_none] at h
  exact h.2

theorem happens_step (h : step? (b, c) l = some (b', c')) :
    Happens b c l (moment? (b, c) l) b' c' := by
  cases l with
  | send line =>
      obtain ⟨-, h⟩ := Option.ite_none_right_eq_some.1 h
      cases h
      exact .sends line
  | hangUp =>
      cases h
      exact .hangsUp
  | read =>
      obtain ⟨c₁, h, hc⟩ := Option.map_eq_some_iff.1 h
      cases hc
      obtain ⟨hidle, h⟩ := Option.ite_none_right_eq_some.1 h
      split at h
      case h_1 line incoming hc =>
        cases h
        cases hblank : Blank.isBlankText line.toList with
        | true =>
            have hm : moment? (b, c) .read = some (.skipped line) := by simp [moment?, hc, hblank]
            rw [hm]
            exact .skips hidle hc hblank
        | false =>
            have hm : moment? (b, c) .read = some (.taken line) := by simp [moment?, hc, hblank]
            rw [hm]
            exact .takes hidle hc hblank
      case h_2 hc =>
        have hm : moment? (b, c) .read = none := by simp [moment?, hc]
        rw [hm]
        split at h
        case isTrue => cases h
        case isFalse =>
          cases h
          exact .ends ⟨rfl, rfl⟩ hidle
  | answer r =>
      obtain ⟨c₁, h, hc⟩ := Option.map_eq_some_iff.1 h
      cases hc
      unfold answer? at h
      split at h
      case h_1 line hc =>
        cases h
        have hm : moment? (b, c) (.answer r) = some (.answered line r) := by simp [moment?, hc]
        rw [hm]
        exact .answers r hc
      case h_2 => cases h
  | listen =>
      obtain ⟨c₁, h, hc⟩ := Option.map_eq_some_iff.1 h
      cases hc
      obtain ⟨hidle, h⟩ := Option.ite_none_right_eq_some.1 h
      unfold moment?
      dsimp only
      split at h
      case h_1 hr =>
        cases h
        rw [hr]
        exact .hears hidle hr
      case h_2 hr =>
        cases h
        rw [hr]
        exact .loses hidle hr
      case h_3 hr =>
        cases h
        rw [hr]
        exact .ends ⟨rfl, rfl⟩ hidle
      case h_4 => cases h
  | emit e =>
      cases h
      exact .emits e

end Connection

end Control

end TunnelKeeper
