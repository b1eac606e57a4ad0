import TunnelKeeper.Proofs.Route.Numbering
import TunnelKeeper.Route.Watcher

/-!
# Delivery — what a registration hears

A watcher keeps its table for all its registrations, and each registration has a channel and a task
of its own.  A `Watch` is a watcher with what happened in its latest registration: the network that
the table had already (`Watch.found`), the route looked at last, and the events put into the
channel.

* `Moves`: events that lead from one network to another, one move after the other.  Whoever knows
  the network they begin with knows the one they end with (`Moves.replay_eq`), and whoever knows
  nothing learns it from the first move on (`Moves.replay_empty`).
* `Informed`: the events put into the channel and those yet to be sent lead from the network that
  was found to the present one.  Every step keeps this, wherever the task is ended.
* `registration_hears_moves`: so an idle registration has been told the present network unless the
  table had a network from before and the route has not changed since; then it is told nothing
  (`second_registration_hears_nothing`).
-/

namespace TunnelKeeper

/-! ### Moves -/

/-- **Events that lead from one network to another**, each move to another one. -/
inductive Moves (found : Option NetworkId) : List NetworkEvent → Option NetworkId → Prop where
  | stay : Moves found [] found
  | move {events : List NetworkEvent} {present next : Option NetworkId}
      (h : Moves found events present) (hne : next ≠ present) :
      Moves found (events ++ tidings present next) next

namespace Moves

variable {found present : Option NetworkId} {events : List NetworkEvent}

/-- Who knows where the events begin knows where they end. -/
theorem replay_eq (h : Moves found events present) :
    replay found.toFinset events = present.toFinset := by
  induction h with
  | stay => rfl
  | move h hne ih => rw [replay_append, ih, replay_tidings hne]

/-- A move is told by at least one event. -/
theorem tidings_ne_nil {old new : Option NetworkId} (hne : new ≠ old) : tidings old new ≠ [] := by
  cases old with
  | none =>
      obtain ⟨id, rfl⟩ := Option.ne_none_iff_exists'.1 hne
      exact List.cons_ne_nil _ _
  | some old => exact List.append_ne_nil_of_right_ne_nil _ (List.cons_ne_nil _ _)

/-- Without events there was no move. -/
theorem eq_found (h : Moves found events present) (hnil : events = []) : present = found := by
  cases h with
  | stay => rfl
  | move _ hne => exact absurd (List.append_eq_nil_iff.1 hnil).2 (tidings_ne_nil hne)

/-- **The first move tells the network**, also to who knows of none. -/
theorem replay_empty (h : Moves found events present) (hsome : events ≠ []) :
    replay ∅ events = present.toFinset := by
  induction h with
  | stay => exact absurd rfl hsome
  | @move events present next h hne ih =>
      rw [replay_append]
      by_cases hnil : events = []
      · -- The old network is not there to be lost.
        rw [hnil]
        cases present <;> cases next
        case none.none => exact absurd rfl hne
        case none.some | some.none => rfl
        case some.some old new =>
          have hno : new ≠ old := fun hc => hne (congrArg some hc)
          show (insert new ∅ : Finset NetworkId).erase old = {new}
          exact Finset.erase_eq_of_notMem (by simpa using hno.symm)
      · rw [ih hnil, replay_tidings hne]

/-- What is told tells the network exactly if there was none before, or there was a move. -/
theorem replay_empty_iff (h : Moves found events present) :
    replay ∅ events = present.toFinset ↔ found = none ∨ events ≠ [] := by
  by_cases hnil : events = []
  · rw [h.eq_found hnil, hnil]
    cases found <;> simp [replay, Finset.ext_iff]
  · exact iff_of_true (h.replay_empty hnil) (.inr hnil)

end Moves

/-! ### Watches -/

/-- What happens to a watcher. -/
inductive Occasion where
  | register
  | unregister
  /-- The reader of the latest registration goes away. -/
  | hangUp
  /-- The task looks at the route. -/
  | poll (route : Option IpAddress)
  /-- The task sends the next event. -/
  | send
  /-- The reader takes the next event. -/
  | receive
deriving DecidableEq, Repr

/-- The present network, by its number. -/
def RouteTable.present (table : RouteTable) : Option NetworkId := table.current.map table.idOf

/-- The event that the task sends next. -/
def RouteWatcher.sending (w : RouteWatcher) : Option NetworkEvent :=
  match w.unsent, w.channel with
  | some (e :: _), some c => if c.hasRoom then some e else none
  | _, _ => none

/-- A task sends its next event into the channel, or none; then it goes on, or ends. -/
theorem RouteWatcher.send_cases (w : RouteWatcher) :
    (∃ e rest c, w.unsent = some (e :: rest) ∧ w.channel = some c ∧ w.sending = some e ∧
      w.send = { w with unsent := some rest, channel := some (c.send e) }) ∨
    w.sending = none ∧ (w.send = w ∨ w.send = { w with unsent := none }) := by
  unfold RouteWatcher.sending RouteWatcher.send
  split
  case h_1 e rest c hu hc =>
    by_cases hroom : c.hasRoom = true
    · exact .inl ⟨e, rest, c, hu, hc, if_pos hroom, by simp only [hu, hc, hroom, if_true]⟩
    · exact .inr ⟨if_neg hroom, .inl (by simp only [hu, hc, hroom, Bool.false_eq_true, if_false])⟩
  case h_2 hother =>
    refine .inr ⟨rfl, ?_⟩
    split
    case h_1 hu hc => exact absurd hc (hother _ _ _ hu)
    case h_2 => exact .inr rfl
    case h_3 => exact .inl rfl

/-- **A watcher and what happened since the latest registration.** -/
structure Watch where
  watcher : RouteWatcher := {}
  /-- The network that the table had when the registration was made. -/
  found : Option NetworkId := none
  /-- The route that its task looked at last, if it has looked. -/
  observed : Option (Option IpAddress) := none
  /-- The events put into its channel. -/
  delivered : List NetworkEvent := []
  /-- The events that its reader took. -/
  received : List NetworkEvent := []

namespace Watch

def step (w : Watch) : Occasion → Watch
  | .register => { watcher := w.watcher.register, found := w.watcher.table.present }
  | .unregister => { w with watcher := w.watcher.unregister.toOption.getD w.watcher }
  | .hangUp => { w with watcher := w.watcher.hangUp }
  | .poll route =>
    { w with
      watcher := w.watcher.poll route
      observed := if w.watcher.unsent = some [] then some route else w.observed }
  | .send =>
    { w with
      watcher := w.watcher.send
      delivered := w.delivered ++ w.watcher.sending.toList }
  | .receive =>
    match w.watcher.receive with
    | some (.event e, watcher) => { w with watcher, received := w.received ++ [e] }
    | some (_, watcher) => { w with watcher }
    | none => w

/-- The watch after all that happened to a fresh watcher. -/
def after (occasions : List Occasion) : Watch := occasions.foldl step {}

/-- The reader takes the oldest event, or nothing happens. -/
theorem step_receive (w : Watch) :
    (∃ c e waiting, w.watcher.channel = some c ∧ c.waiting = e :: waiting ∧
      w.step .receive =
        { w with
          watcher := { w.watcher with channel := some { c with waiting } }
          received := w.received ++ [e] }) ∨
    w.step .receive = w := by
  rw [step, RouteWatcher.receive]
  cases hc : w.watcher.channel with
  | none => exact .inr rfl
  | some c =>
      obtain ⟨waiting, hasWriter, hasReader⟩ := c
      cases waiting with
      | cons e waiting => exact .inl ⟨_, e, waiting, rfl, rfl, rfl⟩
      | nil =>
          have hsame : { w with watcher := { w.watcher with
              channel := some ⟨[], hasWriter, hasReader⟩ } } = w := by rw [← hc]
          right
          cases hasWriter <;> exact hsame

/-- **A registration is informed** of the moves since it was made: they are in its channel or yet to
be sent. -/
structure Informed (w : Watch) : Prop where
  numbered : ∃ routes, Numbered routes w.watcher.table
  moves : ∀ unsent, w.watcher.unsent = some unsent →
    Moves w.found (w.delivered ++ unsent) w.watcher.table.present
  observed : ∀ route, w.observed = some route → w.watcher.table.current = route
  received : ∀ c, w.watcher.channel = some c → w.delivered = w.received ++ c.waiting

namespace Informed

variable {w : Watch}

theorem fresh : Informed {} := ⟨⟨[], .fresh⟩, nofun, nofun, nofun⟩

theorem register (h : w.Informed) : (w.step .register).Informed where
  numbered := h.numbered
  moves := by
    rintro unsent ⟨⟩
    exact .stay
  observed := nofun
  received := by
    rintro c ⟨⟩
    rfl

theorem unregister (h : w.Informed) : (w.step .unregister).Informed := by
  show Informed { w with watcher := w.watcher.unregister.toOption.getD w.watcher }
  unfold RouteWatcher.unregister
  split
  case isTrue =>
    refine ⟨h.numbered, nofun, h.observed, fun c hc => ?_⟩
    obtain ⟨c', hc', rfl⟩ := Option.map_eq_some_iff.1 hc
    exact h.received c' hc'
  case isFalse => exact h

theorem hangUp (h : w.Informed) : (w.step .hangUp).Informed :=
  ⟨h.numbered, h.moves, h.observed, nofun⟩

/-- A poll moves the table, and what tells the move is yet to be sent. -/
theorem poll (h : w.Informed) (route : Option IpAddress) : (w.step (.poll route)).Informed := by
  by_cases hidle : w.watcher.unsent = some []
  · have hstep : w.step (.poll route) =
        { w with
          watcher := { w.watcher with
            table := (w.watcher.table.transition route).1
            unsent := some (w.watcher.table.transition route).2 }
          observed := some route } := by
      rw [Watch.step, if_pos hidle, RouteWatcher.poll, hidle]
    rw [hstep]
    obtain ⟨routes, hn⟩ := h.numbered
    obtain ⟨hn', htold⟩ := hn.told route
    have hcurrent : (w.watcher.table.transition route).1.current = route := by simp [hn'.current]
    refine ⟨⟨_, hn'⟩, ?_, fun route' hroute => hcurrent.trans (Option.some.inj hroute), h.received⟩
    rintro unsent ⟨⟩
    have hmoves := h.moves [] hidle
    rw [List.append_nil, RouteTable.present, funext hn.idOf] at hmoves
    show Moves w.found (w.delivered ++ (w.watcher.table.transition route).2)
      ((w.watcher.table.transition route).1.current.map _)
    rw [htold, hcurrent, funext hn'.idOf]
    split
    case isTrue hsame =>
      rw [List.append_nil, hsame, Option.map_congr fun ip hip =>
        numberIn_append (hn.known ▸ hn.current_mem hip) _]
      exact hmoves
    case isFalse hother => exact hmoves.move (hn.moves hother)
  · have hstep : w.step (.poll route) = w := by
      rw [Watch.step, if_neg hidle, RouteWatcher.poll]
      split
      case h_1 hu => exact absurd hu hidle
      case h_2 => rfl
    rw [hstep]
    exact h

/-- What is sent is no longer to be sent. -/
theorem send (h : w.Informed) : (w.step .send).Informed := by
  show Informed { w with
    watcher := w.watcher.send, delivered := w.delivered ++ w.watcher.sending.toList }
  rcases w.watcher.send_cases with ⟨e, rest, c, hu, hc, he, hsend⟩ | ⟨he, hsend | hsend⟩
  · rw [hsend, he]
    refine ⟨h.numbered, ?_, h.observed, ?_⟩
    · rintro unsent ⟨⟩
      have hmoves := h.moves _ hu
      rwa [List.append_cons] at hmoves
    · rintro c' ⟨⟩
      show w.delivered ++ [e] = w.received ++ (c.waiting ++ [e])
      rw [h.received c hc, List.append_assoc]
  · rw [hsend, he, Option.toList_none, List.append_nil]
    exact h
  · rw [hsend, he, Option.toList_none, List.append_nil]
    exact ⟨h.numbered, nofun, h.observed, h.received⟩

/-- What the reader takes was put in. -/
theorem receive (h : w.Informed) : (w.step .receive).Informed := by
  rcases w.step_receive with ⟨c, e, waiting, hc, hwaiting, hstep⟩ | hstep
  · rw [hstep]
    refine ⟨h.numbered, h.moves, h.observed, ?_⟩
    rintro c' ⟨⟩
    show w.delivered = w.received ++ [e] ++ waiting
    rw [h.received c hc, hwaiting, List.append_assoc]
    rfl
  · rwa [hstep]

theorem step (h : w.Informed) (o : Occasion) : (w.step o).Informed := by
  cases o with
  | register => exact h.register
  | unregister => exact h.unregister
  | hangUp => exact h.hangUp
  | poll route => exact h.poll route
  | send => exact h.send
  | receive => exact h.receive

end Informed

/-- **Every registration is informed.** -/
theorem informed_after (occasions : List Occasion) : (after occasions).Informed := by
  suffices ∀ w : Watch, w.Informed → (occasions.foldl Watch.step w).Informed from this {} .fresh
  induction occasions with
  | nil => exact fun _ h => h
  | cons o occasions ih => exact fun _ h => ih _ (h.step o)

end Watch

/-! ### The result -/

/-- **A registration hears of moves.**  Whatever a fresh watcher goes through, an idle task of the
latest registration that has looked at the route has put into its channel what leads from the
network that the table had at the registration to that of the route; all of it has been taken or
waits, as long as there is a reader.  Played from nothing it gives the network of the route exactly
if the table had no network then, or something was put into the channel. -/
theorem registration_hears_moves (occasions : List Occasion) (route : Option IpAddress)
    (hidle : (Watch.after occasions).watcher.unsent = some [])
    (hobserved : (Watch.after occasions).observed = some route) :
    let w := Watch.after occasions
    let network := (route.map w.watcher.table.idOf).toFinset
    replay w.found.toFinset w.delivered = network ∧
    (replay ∅ w.delivered = network ↔ w.found = none ∨ w.delivered ≠ []) ∧
    ∀ c, w.watcher.channel = some c → w.delivered = w.received ++ c.waiting := by
  intro w network
  have h : w.Informed := Watch.informed_after occasions
  have hmoves : Moves w.found w.delivered (route.map w.watcher.table.idOf) := by
    have := h.moves [] hidle
    rwa [List.append_nil, RouteTable.present, h.observed route hobserved] at this
  exact ⟨hmoves.replay_eq, hmoves.replay_empty_iff, h.received⟩

/-- A registration, and another one on the same route. -/
def twoRegistrations (a : IpAddress) : List Occasion :=
  [.register, .poll (some a), .send, .receive, .unregister, .register, .poll (some a)]

/-- The second registration hears of the change of the route. -/
theorem second_registration_hears_change :
    let occasions := twoRegistrations (.v4 ⟨192, 168, 1, 10⟩) ++
      [.poll (some (.v4 ⟨192, 168, 1, 20⟩)), .send, .send]
    let w := Watch.after occasions
    replay w.found.toFinset w.delivered = {2} ∧ replay ∅ w.delivered = {2} := by
  have h := registration_hears_moves
    (twoRegistrations (.v4 ⟨192, 168, 1, 10⟩) ++
      [.poll (some (.v4 ⟨192, 168, 1, 20⟩)), .send, .send])
    (some (.v4 ⟨192, 168, 1, 20⟩)) (by decide) (by decide)
  exact ⟨h.1, h.2.1.2 (.inr (by decide))⟩

/-- **The second registration on a route is told nothing of it**, though its task is idle and has
looked at the route. -/
theorem second_registration_hears_nothing :
    ∃ occasions a,
      (Watch.after occasions).watcher.unsent = some [] ∧
      (Watch.after occasions).observed = some (some a) ∧
      (Watch.after occasions).delivered = [] ∧
      replay ∅ (Watch.after occasions).delivered ≠
        ((some a).map (Watch.after occasions).watcher.table.idOf).toFinset :=
  ⟨twoRegistrations (.v4 ⟨192, 168, 1, 10⟩), .v4 ⟨192, 168, 1, 10⟩, by decide, by decide, by decide,
    by decide⟩

end TunnelKeeper
