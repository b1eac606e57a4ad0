import TunnelKeeper.Proofs.Service.Telling

/-!
# Convergence — the status follows the default route

An event that tells how the networks stand is sent, then waits in the channel, then is handled by
the reactor, which may have to wait for the lock, and from then on the status is what it should be
whenever the reactor is done (`Decided`).

* `Decided.acts`: every step of the service takes it further on this way, or leaves it where it is.
* `watched_tunnel_converges`: so when all has been handled, the status goes with the route.
* `late_restart_connects`: it need not if the reactor of an earlier registration may act, too.
-/

namespace TunnelKeeper.Service

variable {table : RouteTable} {e : NetworkEvent} {s s' : Machine} {l : Label} {o : Option Pending}
  {i : TaskId}

/-! ### The watcher and the service -/

variable {registration : Nat} {w : RouteWatcher}

/-- **A step without calls**: only the reactor of a registration gets the lock, it is not dropped,
and it is told how the networks stand. -/
structure Machine.Unbroken (registration : Nat) (table : RouteTable) (s : Machine) (l : Label) :
    Prop where
  orderly : s.Orderly l
  stays : ∀ i, l = .drop i → ¬s.Reads i registration
  sole : ∀ e, l ≠ .deliver registration e
  alone : ∀ i around, l = .turn i around → ¬s.Reads i registration → s.AtLock i →
    s.holder ≠ none ∧ s.holder ≠ some i
  follows : ∀ i around, l = .turn i around → s.Reads i registration →
    (follows table).rely around

/-- **A step of reactors**: nothing is asked of the service, only reactors get the lock, those of
earlier registrations among them, none is dropped, and all are told how the networks stand. -/
structure Machine.Uncalled (registration : Nat) (table : RouteTable) (s : Machine) (l : Label) :
    Prop where
  orderly : s.Orderly l
  uncalled : ∀ request, l ≠ .call request
  stays : ∀ i r, l = .drop i → ¬s.Reads i r
  sole : ∀ e, l ≠ .deliver registration e
  alone : ∀ i around, l = .turn i around → (∀ r, ¬s.Reads i r) → s.AtLock i →
    s.holder ≠ none ∧ s.holder ≠ some i
  follows : ∀ i around r, l = .turn i around → s.Reads i r → (follows table).rely around

variable {allows : RouteTable → Machine → Label → Prop}

/-- **A watcher and a service side by side**, from any point on: the watcher looks at the route once
it has sent everything, and its events go into the channel of the registration, while the service
takes the steps that are allowed.  It is known whether any change has been found since. -/
inductive Watch (allows : RouteTable → Machine → Label → Prop) (registration : Nat) (s₀ : Machine)
    (w₀ : RouteWatcher) : Machine → RouteWatcher → Bool → Prop where
  | start : Watch allows registration s₀ w₀ s₀ w₀ false
  | polls {s : Machine} {w : RouteWatcher} {moved : Bool}
      (h : Watch allows registration s₀ w₀ s w moved) (hu : w.unsent = some [])
      (route : Option IpAddress) : Watch allows registration s₀ w₀ s (w.poll route)
        (moved || !(w.table.transition route).2.isEmpty)
  | sends {s s' : Machine} {w : RouteWatcher} {moved : Bool} {e : NetworkEvent}
      {rest : List NetworkEvent} {channel : Channel}
      (h : Watch allows registration s₀ w₀ s w moved) (hu : w.unsent = some (e :: rest))
      (hc : s.world.channels[registration]? = some channel) (hroom : channel.hasRoom = true)
      (hs : s.step? (.deliver registration e) = some s') :
      Watch allows registration s₀ w₀ s' { w with channel }.send moved
  | acts {s s' : Machine} {w : RouteWatcher} {moved : Bool} {l : Label}
      (h : Watch allows registration s₀ w₀ s w moved) (hl : allows w.table s l)
      (hs : s.step? l = some s') : Watch allows registration s₀ w₀ s' w moved

/-! ### An event on its way -/

/-- **The status is decided by the route**: an event that tells it is on its way, or the reactor was
told. -/
inductive Decided (registration : Nat) (s : Machine) (w : RouteWatcher) : Prop where
  | unsent {events : List NetworkEvent} {e : NetworkEvent} (hu : w.unsent = some events)
      (he : e ∈ events) (ht : w.table.Tells e)
  | sent {e : NetworkEvent} (he : s.Queued registration e) (ht : w.table.Tells e)
  | heard {i : TaskId} (hi : s.Reads i registration) (h : Informed w.table i s)

/-- The reactor of the registration keeps vigil, being the only one. -/
theorem Machine.Unbroken.vigil (hl : s.Unbroken registration table l) (h : Staffed s)
    (hi : s.Reads i registration) : s.Vigil (Service.follows table) i l := by
  by_cases hdone : (∃ around, l = .turn i around) ∧ ∃ r, s.reply? i = some r
  · exact .inr hdone
  refine .inl
    { orderly := hl.orderly
      stays := fun hd => hl.stays i hd hi
      alone := fun j around hj hne hlock => ?_
      going := fun around hturn => ⟨hl.follows i around hturn hi, ?_⟩
      given := fun _ _ _ _ _ _ _ _ _ _ _ hb => nomatch hb }
  · exact hl.alone j around hj (fun hr => hne (h.one j i _ hr hi)) hlock
  · exact Option.eq_none_iff_forall_ne_some.2 fun r hr => hdone ⟨⟨around, hturn⟩, r, hr⟩

namespace Decided

/-- **A step of the service** takes the event further on its way. -/
theorem acts (h : Decided registration s w) (hk : Kept .loose s o) (hstaffed : Staffed s)
    (hl : s.Unbroken registration w.table l) (hs : s.step? l = some s') :
    Decided registration s' w := by
  cases h with
  | unsent hu he ht => exact .unsent hu he ht
  | sent he ht =>
      rcases he.step hl.stays hs with he | ⟨i, around, task, rfl, htask, hr, hlimits, htask'⟩
      · exact .sent he ht
      -- The reactor has just taken it.
      · obtain ⟨o', hk'⟩ := hk.step loose_lasting (allows_loose hl.orderly) hs
        obtain ⟨old, hold, ha⟩ := turn?_alive hs
        obtain rfl := Option.some.inj (htask.symm.trans hold)
        have hi : s.Reads i registration := ⟨task, htask, hr⟩
        exact .heard (hi.step hs) (.of_told hk' htask' ha (by rw [hlimits]) ht)
  | heard hi h => exact .heard (hi.step hs) (h.step hk (hl.vigil hstaffed hi) hs)

/-- **The watcher sends an event**, which is in the channel then. -/
theorem sends (h : Decided registration s w) (hk : Kept .loose s o) {rest : List NetworkEvent}
    {channel : Channel} (hu : w.unsent = some (e :: rest))
    (hc : s.world.channels[registration]? = some channel) (hroom : channel.hasRoom = true)
    (hs : s.step? (.deliver registration e) = some s') :
    Decided registration s' { w with channel }.send := by
  rw [RouteWatcher.send_eq (w := { w with channel }) hu rfl hroom]
  cases h with
  | @unsent events e' hu' he ht =>
      cases hu.symm.trans hu'
      rcases List.mem_cons.1 he with rfl | he
      · refine .sent ⟨channel.send e', ?_, List.mem_append_right _ List.mem_cons_self⟩ ht
        rw [step?_deliver hs]
        show (s.world.channels.modify registration _)[registration]? = _
        rw [List.getElem?_modify_eq, hc]
        rfl
      · exact .unsent rfl he ht
  | sent he ht =>
      rcases he.step (l := .deliver registration e) nofun hs with he | ⟨_, _, _, hl, -⟩
      · exact .sent he ht
      · cases hl
  | @heard i hi h =>
      have hl : s.Undisturbed (follows w.table) i (.deliver registration e) :=
        .of_no_turn trivial nofun fun _ _ hl => nomatch hl
      exact .heard (hi.step hs) (h.step hk (.inl hl) hs)

/-- **The watcher looks at the route**, and tells it if it has changed. -/
theorem polls {moved : Bool} (h : moved = true → Decided registration s w)
    (hu : w.unsent = some []) (route : Option IpAddress)
    (hm : (moved || !(w.table.transition route).2.isEmpty) = true) :
    Decided registration s (w.poll route) := by
  have hpoll : w.poll route = { w with
      table := (w.table.transition route).1, unsent := some (w.table.transition route).2 } := by
    simp only [RouteWatcher.poll, hu]
  rw [hpoll]
  rcases w.table.transition_tells route with ⟨hnone, hsame⟩ | ⟨e, he, ht⟩
  · rw [hnone] at hm ⊢
    rw [hsame, ← hu]
    exact h (by simpa using hm)
  · exact .unsent rfl he ht

end Decided

variable {s₀ : Machine} {w₀ : RouteWatcher} {moved : Bool}

/-- Whatever a watcher and a service come to, the service may come to. -/
theorem Watch.reach (h : Watch (Machine.Unbroken registration) registration s₀ w₀ s w moved) :
    Reach Machine.Orderly s₀ s := by
  induction h with
  | start => exact .start
  | polls _ _ _ ih => exact ih
  | sends _ _ _ _ hs ih => exact ih.step (l := .deliver _ _) trivial hs
  | acts _ hl hs ih => exact ih.step hl.orderly hs

/-- **As soon as the route has changed, it decides the status.** -/
theorem Watch.decided {limits : Limits} {poolSize : Nat} {store : Store.Persisted}
    (h₀ : Reach Machine.Orderly (Machine.fresh limits poolSize store) s₀)
    (h : Watch (Machine.Unbroken registration) registration s₀ w₀ s w moved) :
    moved = true → Decided registration s w := by
  induction h with
  | start => exact nofun
  | polls _ hu route ih => exact Decided.polls ih hu route
  | sends h hu hc hroom hs ih =>
      obtain ⟨o, hk⟩ := (h₀.trans h.reach).orderly_kept
      exact fun hm => (ih hm).sends hk hu hc hroom hs
  | acts h hl hs ih =>
      have hreach := h₀.trans h.reach
      obtain ⟨o, hk⟩ := hreach.orderly_kept
      exact fun hm => (ih hm).acts hk hreach.staffed hl hs

/-- **The status converges to the route.**  Let a watcher and a service go on side by side from any
point of a run on, such as the one where a start has registered: the watcher finds any routes, and
sends what they change when it can, while the service takes any steps in which only the reactor of
the registration gets the lock.  If a change has been found since, then whenever all its events have
been sent and taken, and the reactor is done with them, an active tunnel is connected if there is a
route, and reconnecting if there is none.

A caller that gets the lock may start or stop the tunnel, of course; and a reactor of an earlier
registration may restart it (`late_restart_connects`). -/
theorem watched_tunnel_converges {limits : Limits} {poolSize : Nat} {store : Store.Persisted}
    (h₀ : Reach Machine.Orderly (Machine.fresh limits poolSize store) s₀)
    (h : Watch (Machine.Unbroken registration) registration s₀ w₀ s w true)
    (hsent : w.unsent = some [])
    (htaken : ∀ channel, s.world.channels[registration]? = some channel → channel.waiting = [])
    (hdone : ∀ i, s.Reads i registration → ∃ r, s.reply? i = some r)
    (up : s.world.session.active ≠ none) :
    s.world.visibleStatus = if w.table.current.isSome then .connected else .reconnecting := by
  cases h.decided h₀ rfl with
  | unsent hu he =>
      cases hsent.symm.trans hu
      cases he
  | sent he =>
      obtain ⟨channel, hc, he⟩ := he
      rw [htaken channel hc] at he
      cases he
  | heard hi h =>
      obtain ⟨r, hr⟩ := hdone _ hi
      exact h.done hr up

/-! ### A route that comes and goes -/

/-- The service goes on for a while, as the route stays. -/
theorem Watch.runs (h : Watch allows registration s₀ w₀ s w moved)
    (hs : Reach (allows w.table) s s') : Watch allows registration s₀ w₀ s' w moved := by
  induction hs with
  | start => exact h
  | step _ hl hs ih => exact ih.acts hl hs

/-- Whether a step is one of a worker, or a turn of a task that reads one of the registrations or
does not ask for the lock. -/
def Machine.isUncalled (reads : Option Nat → Bool) (s : Machine) : Label → Bool
  | .turn i _ => s.tasks[i]?.all fun task => reads task.registration ||
      match task.program with
      | .ask .lock _ => false
      | _ => true
  | .ask _ | .begin _ | .finish _ _ => true
  | _ => false

theorem Machine.unbroken_of_check (h : s.isUncalled (· == some registration) l = true)
    (hr : ∀ i around, l = .turn i around → (Service.follows table).rely around) :
    s.Unbroken registration table l := by
  cases l with
  | turn i around =>
      refine ⟨trivial, nofun, nofun, ?_, fun i around hl _ => hr i around hl⟩
      rintro i' around' hl hreads ⟨task, next, htask, -, hp⟩
      cases hl
      simp only [Machine.isUncalled, htask, Option.all_some, hp, Bool.or_false, beq_iff_eq] at h
      exact absurd ⟨task, htask, h⟩ hreads
  | ask | begin | finish =>
      exact ⟨trivial, nofun, nofun, (fun _ _ hl => nomatch hl), fun _ _ hl => nomatch hl⟩
  | _ => cases h

theorem Machine.uncalled_of_check (h : s.isUncalled Option.isSome l = true)
    (hr : ∀ i around, l = .turn i around → (Service.follows table).rely around) :
    s.Uncalled registration table l := by
  cases l with
  | turn i around =>
      refine ⟨trivial, nofun, nofun, nofun, ?_, fun i around _ hl _ => hr i around hl⟩
      rintro i' around' hl hreads ⟨task, next, htask, -, hp⟩
      cases hl
      simp only [Machine.isUncalled, htask, Option.all_some, hp, Bool.or_false,
        Option.isSome_iff_exists] at h
      obtain ⟨r, hr⟩ := h
      exact absurd ⟨task, htask, hr⟩ (hreads r)
  | ask | begin | finish =>
      exact ⟨trivial, nofun, nofun, nofun, (fun _ _ hl => nomatch hl), fun _ _ _ hl => nomatch hl⟩
  | _ => cases h

/-- Collaborators that answer by a table of routes. -/
def routed (table : RouteTable) : Surroundings where
  networkState := table.stateOf
  activeNetwork := table.activeState

theorem Reach.of_routed {P : Machine → Label → Prop} {reads : Option Nat → Bool}
    {labels : List Label}
    (hP : ∀ {s l}, s.isUncalled reads l = true →
      (∀ i around, l = .turn i around → (Service.follows table).rely around) → P s l)
    (hl : ∀ i around, .turn i around ∈ labels → around = routed table)
    (hs : s.checkedRun? (Machine.isUncalled reads) labels = some s') : Reach P s s' := by
  refine .of_checkedRun? (fun l hmem s hcheck => hP hcheck ?_) hs
  rintro i around rfl
  rw [hl i around hmem]
  exact ⟨rfl, rfl⟩

/-- A tunnel is being resumed, and the start has registered. -/
def registeredService : Machine := (rememberingService.run? (resuming.take 19)).get (by rfl)

/-- The watcher finds a route, -/
def foundWatcher : RouteWatcher :=
  ({} : RouteWatcher).register.poll (some (.v4 ⟨192, 168, 0, 2⟩))

/-- and tells it. -/
def toldWatcher : RouteWatcher := { foundWatcher with channel := some {} }.send

def toldService : Machine := (registeredService.step? (.deliver 0 (.available 1))).get (by rfl)

/-- The reactor takes that while the start goes on, and then begins to check datagrams. -/
def arriving : List Label := List.flatten
  [[.turn 0 (routed toldWatcher.table)], .replicate 3 (.turn 1 (routed toldWatcher.table)),
    .replicate 13 (.turn 0 (routed toldWatcher.table)),
    .replicate 10 (.turn 1 (routed toldWatcher.table))]

def arrivedService : Machine :=
  (toldService.checkedRun? (Machine.isUncalled (· == some 0)) arriving).get (by rfl)

/-- Meanwhile the route is lost. -/
def warnedWatcher : RouteWatcher := { toldWatcher.poll none with channel := some {} }.send

def warnedService : Machine := (arrivedService.step? (.deliver 0 (.lost 1))).get (by rfl)

/-- The reactor records what was checked, and takes the loss. -/
def leaving : List Label :=
  carryOut 1 false ++ .replicate 16 (.turn 1 (routed warnedWatcher.table))

def leftService : Machine :=
  (warnedService.checkedRun? (Machine.isUncalled (· == some 0)) leaving).get (by rfl)

theorem watch_arrivedService : Watch (Machine.Unbroken 0) 0 registeredService
    ({} : RouteWatcher).register arrivedService toldWatcher true := by
  have found : Watch (Machine.Unbroken 0) 0 registeredService ({} : RouteWatcher).register
      registeredService foundWatcher true := Watch.start.polls rfl _
  have told : Watch (Machine.Unbroken 0) 0 registeredService ({} : RouteWatcher).register
      toldService toldWatcher true :=
    found.sends rfl (by decide +kernel) rfl (Option.some_get _).symm
  exact told.runs (.of_routed Machine.unbroken_of_check (by simp [arriving, or_imp])
    (Option.some_get _).symm)

theorem watch_leftService : Watch (Machine.Unbroken 0) 0 registeredService
    ({} : RouteWatcher).register leftService warnedWatcher true := by
  have lost : Watch (Machine.Unbroken 0) 0 registeredService ({} : RouteWatcher).register
      arrivedService (toldWatcher.poll none) true := watch_arrivedService.polls rfl none
  have warned : Watch (Machine.Unbroken 0) 0 registeredService ({} : RouteWatcher).register
      warnedService warnedWatcher true :=
    lost.sends rfl (by decide +kernel) rfl (Option.some_get _).symm
  exact warned.runs (.of_routed Machine.unbroken_of_check (by simp [leaving])
    (Option.some_get _).symm)

/-- In the end the tunnel waits for another route. -/
theorem lost_route_reconnects : leftService.world.visibleStatus = .reconnecting := by
  have h : Reach Machine.Orderly rememberingService registeredService :=
    .of_run? (by simp [resuming, Machine.Orderly]) (Option.some_get _).symm
  have empty : leftService.world.channels[0]? = some ({} : Channel) := by decide +kernel
  have idle : ∀ i, leftService.Reads i 0 → ∃ r, leftService.reply? i = some r
    | 0, ⟨_, htask, hr⟩ => by cases htask; cases hr
    | 1, _ => ⟨.finished, rfl⟩
    | _ + 2, ⟨_, htask, _⟩ => nomatch htask
  refine watched_tunnel_converges h watch_leftService rfl (fun channel hc => ?_) idle
    (Option.ne_none_iff_exists'.2 ⟨completeTunnel, rfl⟩)
  obtain rfl := Option.some.inj (empty.symm.trans hc)
  rfl

/-! ### A reactor of an earlier registration -/

/-- While the reactor checks datagrams, the tunnel is stopped, and then it is resumed, and that
start has registered, too. -/
def renewing : List Label := List.flatten
  [[.call (.stop completeTunnel.id)], .replicate 19 (.turn 2 {}), [.call .resume],
    .replicate 10 (.turn 3 {}), carryOut 2 true, .replicate 5 (.turn 3 {})]

def renewedService : Machine := (arrivedService.run? renewing).get (by rfl)

/-- The start goes on to its end, as the route stays. -/
def renewed : List Label := .replicate 14 (.turn 3 (routed toldWatcher.table))

def resettledService : Machine :=
  (renewedService.checkedRun? (Machine.isUncalled Option.isSome) renewed).get (by rfl)

/-- Then the route is lost. -/
def bereftWatcher : RouteWatcher := { toldWatcher.register.poll none with channel := some {} }.send

def bereftService : Machine := (resettledService.step? (.deliver 1 (.lost 1))).get (by rfl)

/-- The reactor of the new registration takes that.  Then the datagrams are found to be relayed, and
the reactor of the first registration restarts the tunnel. -/
def reawakening : List Label := List.flatten
  [.replicate 9 (.turn 4 (routed bereftWatcher.table)), carryOut 1 true,
    .replicate 18 (.turn 1 (routed bereftWatcher.table)), carryOut 3 true,
    .replicate 6 (.turn 1 (routed bereftWatcher.table)), carryOut 4 true,
    .replicate 18 (.turn 1 (routed bereftWatcher.table))]

def reawakenedService : Machine :=
  (bereftService.checkedRun? (Machine.isUncalled Option.isSome) reawakening).get (by rfl)

theorem watch_reawakenedService : Watch (Machine.Uncalled 1) 1 renewedService toldWatcher.register
    reawakenedService bereftWatcher true := by
  have resettled : Watch (Machine.Uncalled 1) 1 renewedService toldWatcher.register resettledService
      toldWatcher.register false := Watch.start.runs
    (.of_routed Machine.uncalled_of_check (by simp [renewed]; rfl) (Option.some_get _).symm)
  have lost : Watch (Machine.Uncalled 1) 1 renewedService toldWatcher.register resettledService
      (toldWatcher.register.poll none) true := resettled.polls rfl none
  have bereft : Watch (Machine.Uncalled 1) 1 renewedService toldWatcher.register bereftService
      bereftWatcher true := lost.sends rfl (by decide +kernel) rfl (Option.some_get _).symm
  exact bereft.runs (.of_routed Machine.uncalled_of_check (by simp [reawakening, or_imp])
    (Option.some_get _).symm)

/-- **Without calls alone the status need not go with the route**: the reactor of an earlier session
may restart the tunnel after the route was lost, and then it is connected, although the reactor of
its own session has handled everything and all reactors are done. -/
theorem late_restart_connects :
    Reach Machine.Orderly rememberingService renewedService ∧
      ¬∀ s w, Watch (Machine.Uncalled 1) 1 renewedService toldWatcher.register s w true →
        w.unsent = some [] → (∀ channel ∈ s.world.channels, channel.waiting = []) →
        (∀ i r, s.Reads i r → ∃ reply, s.reply? i = some reply) →
        s.world.session.active ≠ none →
        s.world.visibleStatus = if w.table.current.isSome then .connected else .reconnecting := by
  constructor
  · have h : Reach Machine.Orderly rememberingService registeredService :=
      .of_run? (by simp [resuming, Machine.Orderly]) (Option.some_get _).symm
    refine (h.trans watch_arrivedService.reach).trans (.of_run? ?_ (Option.some_get _).symm)
    simp [renewing, Machine.Orderly]
  intro h
  have idle : ∀ i r, reawakenedService.Reads i r → ∃ reply, reawakenedService.reply? i = some reply
    | 0, _, ⟨_, htask, hr⟩ | 2, _, ⟨_, htask, hr⟩ | 3, _, ⟨_, htask, hr⟩ => by cases htask; cases hr
    | 1, _, _ => ⟨.finished, rfl⟩
    | 4, _, _ => ⟨.finished, rfl⟩
    | _ + 5, _, ⟨_, htask, _⟩ => nomatch htask
  have hstatus := h _ _ watch_reawakenedService rfl (by decide +kernel) idle
    (Option.ne_none_iff_exists'.2 ⟨completeTunnel, rfl⟩)
  exact absurd hstatus (by decide +kernel)

end TunnelKeeper.Service
