import TunnelKeeper.Proofs.Service.Readers
import TunnelKeeper.Proofs.Service.Vigil
import TunnelKeeper.Route.Watcher

/-!
# Telling — what a reactor learns from an event

A reactor asks how the networks stand when it handles an event, which may be long after the event
was sent.  So most events tell it nothing.  But whenever the route changes there is one among the
events of the change that does (`RouteTable.Tells`): whoever handles it while the route is still the
same reports the status that goes with the route, and no event that is handled later undoes that.

* `RouteTable.transition_tells`: a change of the route is told by one of its events.
* `Reacted.shows`: a reaction to an event that tells shows the route, and later ones leave it so.
* `Machine.Queued.step`: an event stays in its channel until the reactor takes it.
* `Informed.of_told`, `Informed.step`, `Informed.done`: a reactor that takes an event that tells is
  told, does not forget it, and shows the route whenever it is done.
-/

namespace TunnelKeeper

/-! ### What events tell -/

/-- **An event tells** how the networks stand: the present one is available, or there is none. -/
def RouteTable.Tells (table : RouteTable) : NetworkEvent → Prop
  | .available id => table.stateOf id = some .connected
  | .lost _ => table.activeState ≠ some .connected

theorem RouteTable.contains_learn (table : RouteTable) (ip : IpAddress) :
    ip ∈ (table.learn ip).known := by
  unfold RouteTable.learn
  split
  case isTrue h => exact List.contains_iff_mem.1 h
  case isFalse => exact List.mem_append_right _ List.mem_cons_self

/-- **A change of the route is told**, by one of its events. -/
theorem RouteTable.transition_tells (table : RouteTable) (next : Option IpAddress) :
    (table.transition next).2 = [] ∧ (table.transition next).1 = table ∨
      ∃ e ∈ (table.transition next).2, (table.transition next).1.Tells e := by
  unfold RouteTable.transition
  split
  case isTrue => exact .inl ⟨rfl, rfl⟩
  case isFalse hnext =>
    refine .inr ?_
    cases next with
    | some ip =>
        refine ⟨_, List.mem_append_left _ List.mem_cons_self, ?_⟩
        have hlt := List.idxOf_lt_length_iff.2 (table.contains_learn ip)
        have hip : (table.learn ip).known[(table.learn ip).known.idxOf ip]? = some ip := by
          rw [List.getElem?_eq_getElem hlt, List.getElem_idxOf hlt]
        show Option.map _ ((table.learn ip).known[(table.learn ip).known.idxOf ip]?) = _
        rw [hip]
        exact congrArg some (if_pos rfl)
    | none =>
        cases hcurrent : table.current with
        | none => exact absurd hcurrent.symm hnext
        | some old => exact ⟨_, List.mem_cons_self, nofun⟩

theorem RouteTable.current_of_stateOf {table : RouteTable} {id : NetworkId}
    (h : table.stateOf id = some .connected) : table.current.isSome = true := by
  cases id with
  | zero => cases h
  | succ n =>
      obtain ⟨ip, -, hip⟩ := Option.map_eq_some_iff.1 h
      split at hip
      case isTrue hcurrent => rw [hcurrent]; rfl
      case isFalse => cases hip

theorem RouteTable.current_of_activeState {table : RouteTable}
    (h : table.activeState ≠ some .connected) : table.current = none := by
  cases hcurrent : table.current with
  | none => rfl
  | some ip => exact absurd (by rw [RouteTable.activeState, hcurrent]; rfl) h

/-- A watcher that has room sends the next event. -/
theorem RouteWatcher.send_eq {w : RouteWatcher} {e : NetworkEvent} {rest : List NetworkEvent}
    {c : Channel} (hu : w.unsent = some (e :: rest)) (hc : w.channel = some c)
    (hroom : c.hasRoom = true) :
    w.send = { w with unsent := some rest, channel := some (c.send e) } := by
  simp only [RouteWatcher.send, hu, hc, hroom, if_true]

namespace Service

variable {table : RouteTable} {c c' : Custody} {e : NetworkEvent}

/-! ### What a reaction shows -/

/-- The monitor answers from a table of routes. -/
def follows (table : RouteTable) : Assumption where
  rely around := around.networkState = table.stateOf ∧ around.activeNetwork = table.activeState

/-- **The status of an active tunnel goes with the route.** -/
def Shows (table : RouteTable) (c : Custody) : Prop :=
  c.session.active ≠ none →
    c.visibleStatus = if table.current.isSome then .connected else .reconnecting

/-- A reactor that has found a network connected shows that, whatever comes of it. -/
theorem Adapted.connected {A : Assumption} (h : Adapted A c c') (up : c'.session.active ≠ none) :
    c'.visibleStatus = .connected := by
  cases h with
  | idle hn => exact absurd hn up
  | recorded => rfl
  | restarted _ _ _ _ ha =>
      have hends := ha.ends
      split at hends
      · exact hends.2.2
      · exact absurd hends.1 up

/-- **A reaction shows the route** if it was told, and goes on to show it. -/
theorem Reacted.shows (h : Reacted (follows table) c e c') (ht : table.Tells e ∨ Shows table c) :
    Shows table c' := by
  cases h with
  | unconnected hr hn =>
      refine ht.resolve_left fun ht => hn ?_
      rw [hr.1]
      exact ht
  | connected hr hn h =>
      rw [hr.1] at hn
      exact fun up => (h.connected up).trans (if_pos (RouteTable.current_of_stateOf hn)).symm
  | elsewhere hr hn =>
      refine ht.resolve_left fun ht => ht ?_
      rw [← hr.2]
      exact hn
  | unreported _ _ h => exact fun up => absurd h up
  | reported hr hn =>
      rw [hr.2] at hn
      intro _
      rw [RouteTable.current_of_activeState hn]
      rfl

/-! ### A reactor that waits for the lock -/

variable {A : Assumption} {post : Units → Reply → Custody → Prop} {s s' : Machine} {l : Label}
  {o : Option Pending} {i t : TaskId}

/-- **A task is poised** for what it will achieve, whatever it finds once it has the lock. -/
structure Machine.Poised (A : Assumption) (post : Units → Reply → Custody → Prop) (t : TaskId)
    (s : Machine) : Prop where
  outside : ¬s.Inside t
  ready : ∃ task, s.tasks[t]? = some task ∧ task.alive = true ∧
    ∀ c, Achieves A post (unitsOf s.pool t) none c task.program

/-- **A task stays poised** as long as somebody else has the lock. -/
theorem Machine.Poised.step (h : s.Poised A post t) (hk : Kept .loose s o)
    (hl : s.Undisturbed A t l) (hs : s.step? l = some s') :
    s'.Poised A post t ∨ s'.Achieving A post t := by
  obtain ⟨hout, task, htask, ha, hp⟩ := h
  -- Once the lock is free, what it finds is known, and stays so as long as nobody disturbs it.
  by_cases hr : s.AtRest
  · exact .inr (Machine.Achieving.step ⟨o, none, task, hk, hr, htask, ha, hp _⟩ hl hs)
  refine .inl ?_
  by_cases ht : ∃ around, l = .turn t around
  · obtain ⟨around, rfl⟩ := ht
    have hturn : s.turn? t around = some s' := hs
    cases hprog : task.program with
    | done r =>
        have hgoing := (hl.going around rfl).2
        rw [Machine.reply?_eq_some.2 ⟨task, htask, hprog⟩] at hgoing
        cases hgoing
    | ask q next =>
        by_cases hq : q = .lock
        · subst hq
          rw [turn?_lock htask ha hprog] at hturn
          obtain ⟨hh, -⟩ | ⟨⟨-, hne, -⟩, rfl⟩ := takeLock_cases hturn
          · exact absurd (atRest_of_entered htask ha hprog hh) hr
          · exact ⟨fun hin => hne hin.1, task, htask, ha, hp⟩
        · obtain ⟨a, s₁, hs₁, rfl⟩ := turn?_ask htask ha hprog hq hturn
          have hallows := hl.allows htask hprog hs₁
          rw [hprog] at hp
          have hfree : ∀ c, q.isFree = true ∧
              Achieves A post ((unitsOf s.pool t).after q a) none c (next a) := by
            intro c
            cases q with
            | lock => exact absurd rfl hq
            | _ => exact ⟨(hp c).1, (hp c).2 a hallows⟩
          have hunlock : q ≠ .unlock := by
            rintro rfl
            exact absurd (hfree s.world.custody).1 nofun
          refine ⟨fun hin => hout ((hk.inside_answered htask hprog hq hunlock hs₁).1 hin), _,
            Machine.tasks_goOn_self _ (tasks_respond hs₁ htask), ha, fun c => ?_⟩
          rw [show (s₁.goOn t (next a)).pool = s₁.pool from rfl, unitsOf_respond hs₁, if_pos rfl]
          exact (hfree c).2
  · have ht : ∀ around, l ≠ .turn t around := fun around he => ht ⟨around, he⟩
    obtain ⟨htask', hunits⟩ := task_step hs ht hl.stays htask
    refine ⟨fun hin => hout ?_, task, htask', ha, hunits.symm ▸ hp⟩
    exact (hk.inside_stays hl.orderly hs ht hl.stays htask).1 hin

/-- A task that is poised and done has achieved that whatever it would have found. -/
theorem Machine.Poised.done (h : s.Poised A post t) {r : Reply} (hr : s.reply? t = some r)
    (c : Custody) : post (unitsOf s.pool t) r c := by
  obtain ⟨-, task, htask, -, hp⟩ := h
  have hc := hp c
  rw [Machine.program_of_reply hr htask] at hc
  exact hc.2

variable {registration : Nat}

/-! ### A reactor that was told -/

/-- **A reactor was told** of the route: it shows that whenever it is done. -/
inductive Informed (table : RouteTable) (i : TaskId) (s : Machine) : Prop where
  | poised (h : s.Poised (follows table) (fun _ _ c => Shows table c) i)
  | keeping (h : Keeping (follows table) (Shows table) i s)

namespace Informed

/-- A reactor that takes an event that tells, and waits for the lock maybe, is told. -/
theorem of_told (hk : Kept .loose s o) {task : Task} (htask : s.tasks[i]? = some task)
    (ha : task.alive = true)
    (hp : task.program = (Program.react s.limits e).bind fun _ => Task.idle) (ht : table.Tells e) :
    Informed table i s := by
  -- Whatever the custody is when it gets the lock, it reports what goes with the route.
  refine .poised ⟨hk.apart_of_react htask hp, task, htask, ha, fun c => ?_⟩
  rw [hp]
  exact .bind (achieves_react fun units c' hc' => ⟨rfl, hc'.shows (.inl ht)⟩)

/-- A reactor that is done shows the route. -/
theorem done (h : Informed table i s) {r : Reply} (hr : s.reply? i = some r) :
    Shows table s.world.custody := by
  cases h with
  | poised h => exact h.done hr _
  | keeping h => exact (h.done hr).2

/-- A reactor that waits for the lock is not done: it could not know what there is to show. -/
theorem poised_going (h : s.Poised (follows table) (fun _ _ c => Shows table c) i) :
    s.reply? i = none := by
  refine Option.eq_none_iff_forall_ne_some.2 fun r hr => ?_
  have hc : Shows table ⟨⟨some completeTunnel, false⟩, none, .disconnected, {}, []⟩ :=
    h.done hr _
  have hc : Status.disconnected = if table.current.isSome then .connected else .reconnecting :=
    hc nofun
  split at hc <;> cases hc

/-- **What it was told, it does not forget**, as long as it keeps vigil. -/
theorem step (h : Informed table i s) (hk : Kept .loose s o)
    (hl : s.Vigil (follows table) i l) (hs : s.step? l = some s') : Informed table i s' := by
  cases h with
  | poised h =>
      rcases hl with hl | ⟨-, r, hr⟩
      · exact (h.step hk hl hs).elim .poised fun h => .keeping (.going h)
      · exact nomatch (poised_going h).symm.trans hr
  | keeping h => exact .keeping (h.step (fun hc hr => hr.shows (.inr hc)) hl hs)

end Informed

/-! ### An event in its channel -/

/-- An event is in the channel of a registration. -/
def Machine.Queued (s : Machine) (registration : Nat) (e : NetworkEvent) : Prop :=
  ∃ channel, s.world.channels[registration]? = some channel ∧ e ∈ channel.waiting

/-- **An event stays in its channel** until it is taken, unless a reader of it is dropped. -/
theorem Machine.Queued.step (h : s.Queued registration e)
    (hd : ∀ i, l = .drop i → ¬s.Reads i registration) (hs : s.step? l = some s') :
    s'.Queued registration e ∨ ∃ i around task, l = .turn i around ∧ s.tasks[i]? = some task ∧
      task.registration = some registration ∧ s'.limits = s.limits ∧ s'.tasks[i]? =
        some { task with program := (Program.react s.limits e).bind fun _ => Task.idle } := by
  obtain ⟨channel, hc, he⟩ := h
  have modified : ∀ r (change : Channel → Channel),
      s'.world.channels = s.world.channels.modify r change →
      (r = registration → e ∈ (change channel).waiting) → s'.Queued registration e := by
    intro r change hs' hchange
    refine ⟨if r = registration then change channel else channel, ?_, ?_⟩
    · rw [hs', List.getElem?_modify, hc]
      rfl
    · split
      case isTrue hr => exact hchange hr
      case isFalse => exact he
  have hflows := flows_step hs
  generalize hchannels : s'.world.channels = channels at hflows modified
  cases hflows with
  | same => exact .inl ⟨channel, hchannels ▸ hc, he⟩
  | opened =>
      have hlt := (List.getElem?_eq_some_iff.1 hc).1
      exact .inl ⟨channel, hchannels ▸ (List.getElem?_append_left hlt).trans hc, he⟩
  | closed r => exact .inl (modified r _ rfl fun _ => he)
  | @delivered r e' => exact .inl (modified r _ rfl fun _ => List.mem_append_left _ he)
  | @received t around task r channel' e' rest hl htask hr hc' hw hs' =>
      by_cases hreg : r = registration
      · subst hreg
        obtain rfl := Option.some.inj (hc.symm.trans hc')
        rw [hw] at he
        rcases List.mem_cons.1 he with rfl | he
        · subst hs'
          exact .inr ⟨t, around, task, hl, htask, hr, rfl, Machine.tasks_goOn_self _ htask⟩
        · exact .inl (modified r _ rfl fun _ => he)
      · exact .inl (modified r _ rfl fun h => absurd h hreg)
  | dropped hl htask hr =>
      refine .inl (modified _ _ rfl fun h => ?_)
      exact absurd ⟨_, htask, h ▸ hr⟩ (hd _ hl)

end Service

end TunnelKeeper
