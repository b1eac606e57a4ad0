import TunnelKeeper.Proofs.Service.Performs

/-!
# Announcements — the events tell the state

A host that knows nothing but the events can fold them (`told`): the start of a tunnel without an
error makes it the connected one, a change of status tells the status of the tunnel it names, and
everything else means that there is none.  What the host arrives at is what the service is in,
whenever the lock is free.  A start of a tunnel tells two things at most: that the tunnel it
replaces is disconnected, if there is one, and how the start has ended.

* `Attempt.events`: what a start tells.
* `announcing_lasting`: every section leaves the state told.
* `events_tell_state`: both for every run.
-/

namespace TunnelKeeper.Service

/-! ### What events tell -/

/-- What a host knows: the id of the active tunnel, if there is one, and the status. -/
def tell (known : Option String × Status) (e : Event) : Option String × Status :=
  match e.action, e.status with
  | .start, _ => if e.errorCode = .noError then (e.tunnelId, .connected) else (none, .disconnected)
  | .stop, _ => (none, .disconnected)
  | .statusChange, some .connected => (e.tunnelId, .connected)
  | .statusChange, some .reconnecting => (e.tunnelId, .reconnecting)
  | .statusChange, some .disconnected => (none, .disconnected)
  | .statusChange, _ => known

/-- What a host knows after a list of events, if there was no tunnel before. -/
def told (events : List Event) : Option String × Status := events.foldl tell (none, .disconnected)

def Entry.event? : Entry → Option Event
  | .called _ (.emit e) _ => some e
  | _ => none

/-- The events of a world, oldest first. -/
def World.events (w : World) : List Event := w.log.filterMap Entry.event?

def Deed.event? : Deed → Option Event
  | .called (.emit e) _ => some e
  | _ => none

/-- The events among acts. -/
def eventsOf (acts : List Act) : List Event := (deedsOf acts).filterMap Deed.event?

/-- Events are deeds. -/
theorem World.events_eq (w : World) : w.events = w.custody.deeds.filterMap Deed.event? := by
  rw [events, custody, deeds, List.filterMap_filterMap]
  congr 1
  funext e
  cases e with
  | called t k a => cases k <;> rfl
  | began id work => cases work <;> rfl
  | ended id work result => cases work <;> rfl

theorem Custody.events_afterAll (c : Custody) (acts : List Act) :
    (c.afterAll acts).deeds.filterMap Deed.event? =
      c.deeds.filterMap Deed.event? ++ eventsOf acts := by
  rw [c.deeds_afterAll, List.filterMap_append, eventsOf]

/-! ### The events of a section -/

theorem eventsOf_append (acts more : List Act) :
    eventsOf (acts ++ more) = eventsOf acts ++ eventsOf more := by
  rw [eventsOf, deedsOf_append, List.filterMap_append]
  rfl

theorem eventsOf_openingActs (old : Option Descriptor) (d : Descriptor) :
    eventsOf (openingActs old d) =
      (old.map fun old => Event.changed (some old.id) .disconnected).toList := by
  cases old <;> rfl

theorem eventsOf_tearDownActs (monitored unregistered written : Bool) :
    eventsOf (tearDownActs monitored unregistered written) = [] := by
  cases monitored <;> rfl

theorem eventsOf_failActs (d : Descriptor) (code : ErrorCode)
    (monitored unregistered written : Bool) :
    eventsOf (failActs d code monitored unregistered written) = [.started (some d.id) code] := by
  rw [failActs, ← List.singleton_append, eventsOf_append, eventsOf_tearDownActs]
  rfl

/-- What only makes a start ready tells nothing. -/
theorem eventsOf_preparation {acts : List Act} (h : acts.all Act.isPreparation = true) :
    eventsOf acts = [] := by
  induction acts with
  | nil => rfl
  | cons x acts ih =>
      rw [List.all_cons, Bool.and_eq_true] at h
      have ih := ih h.2
      cases x with
      | setMonitored | setActive | publishActive | publishStatus => exact ih
      | deed y => cases y with
        | began | ended => exact ih
        | called k => cases k with
          | emit => cases h.1
          | _ => exact ih

/-- What a start tells: that the tunnel it replaces is disconnected, if there is one, and how it has
ended. -/
def startEvents (old : Option Descriptor) (d : Descriptor) (code : ErrorCode) : List Event :=
  (old.map fun old => .changed (some old.id) .disconnected).toList ++
    [.started (some d.id) (if code.isContinuable then .noError else code)]

/-- **The events of a start.** -/
theorem Attempt.events {T : Terms} {c : Custody} {d : Descriptor} {auto : Bool} {acts : List Act}
    {code : ErrorCode} (h : Attempt T c d auto acts code) :
    eventsOf acts = startEvents c.session.active d code := by
  rw [startEvents]
  cases h.outcome with
  | failed hc hp =>
      rw [eventsOf_append, eventsOf_append, eventsOf_openingActs, eventsOf_preparation hp,
        eventsOf_failActs, hc]
      rfl
  | connected hc hr =>
      rw [eventsOf_append, eventsOf_append, eventsOf_openingActs,
        eventsOf_preparation (hr.preparation d.config (some true)), hc]
      rfl

/-! ### The terms -/

/-- The events tell the active tunnel and the status, both as anybody sees them. -/
def Announced (c : Custody) : Prop :=
  c.visibleActive = c.session.active ∧
    told (c.deeds.filterMap Deed.event?) = (c.session.active.map (·.id), c.visibleStatus)

/-- The service is not asked to end, since nobody is told then. -/
def announcing : Terms := { destroys := False, rest := Announced }

theorem Attempt.announced {T : Terms} {c : Custody} {d : Descriptor} {auto : Bool} {acts : List Act}
    {code : ErrorCode} (h : Attempt T c d auto acts code) : Announced (c.afterAll acts) := by
  have hends := h.ends
  rw [Announced, c.events_afterAll, h.events, told, startEvents, ← List.append_assoc,
    List.foldl_append]
  cases hc : code.isContinuable with
  | true =>
      rw [hc, if_pos rfl] at hends
      obtain ⟨ha, hv, hs⟩ := hends
      rw [ha, hv, hs]
      exact ⟨rfl, rfl⟩
  | false =>
      rw [hc, if_neg Bool.false_ne_true] at hends
      obtain ⟨ha, hv, hs⟩ := hends
      have hne : code ≠ .noError := by
        rintro rfl
        cases hc
      rw [ha, hv, hs]
      exact ⟨rfl, if_neg hne⟩

/-- Where an event says that there is no tunnel, and everything is taken down. -/
theorem announced_tearDown (c : Custody) {e : Event}
    (he : ∀ known, tell known e = (none, .disconnected))
    (monitored unregistered written : Bool) : Announced (c.afterAll
      (.deed (.called (.emit e) ()) :: tearDownActs monitored unregistered written)) := by
  rw [Announced, c.events_afterAll, ← List.singleton_append, eventsOf_append, eventsOf_tearDownActs,
    Custody.afterAll_append, afterAll_tearDownActs, told, List.append_nil, List.foldl_append]
  exact ⟨rfl, he _⟩

/-- Where there is no event and nothing changes that they tell. -/
theorem Announced.quiet {c : Custody} (h : Announced c) {acts : List Act} (he : eventsOf acts = [])
    (hs : (c.afterAll acts).session = c.session)
    (ha : (c.afterAll acts).visibleActive = c.visibleActive)
    (hv : (c.afterAll acts).visibleStatus = c.visibleStatus) : Announced (c.afterAll acts) := by
  rw [Announced, c.events_afterAll, he, List.append_nil, hs, ha, hv]
  exact h

/-- **Every section leaves the state announced.** -/
theorem announcing_lasting : announcing.Lasting where
  met := ⟨{}, trivial⟩
  kept c acts _ hr h := by
    refine (Terms.along_of_always fun _ => trivial).2 ?_
    have hr : Announced c := hr
    cases h with
    | looked => exact hr
    | started h => exact h.announced
    | resumed d acts code loaded h =>
        rw [Custody.afterAll_append]
        exact h.announced
    | unloaded | unprepared | recorded => exact hr.quiet rfl rfl rfl rfl
    | stopped => exact announced_tearDown c (fun _ => rfl) _ _ _
    | revoked => exact announced_tearDown c (fun _ => rfl) _ _ _
    | destroyed hd => exact hd.elim
    | @reported d status hd hs =>
        show Announced _
        rw [Announced, c.events_afterAll, told, List.foldl_append]
        refine ⟨hr.1, ?_⟩
        show [Event.changed (some d.id) status].foldl tell _ = (c.session.active.map (·.id), status)
        rw [hd]
        rcases hs with rfl | rfl <;> rfl

/-! ### Every run -/

/-- Any steps but a request to end the service. -/
def Lasts (s : Machine) (l : Label) : Prop := s.Orderly l ∧ l ≠ .call .destroy

theorem allows_announcing {s : Machine} {l : Label} (h : Lasts s l) : announcing.Allows s l :=
  ⟨h.1, fun hl => absurd hl h.2, fun _ _ _ => trivial⟩

theorem kept_announcing (limits : Limits) (poolSize : Nat) (store : Store.Persisted) :
    Kept announcing (Machine.fresh limits poolSize store) none :=
  .fresh limits poolSize store trivial ⟨rfl, rfl⟩

/-- **The events tell the state.**  In every run, whenever the lock is free, the events tell the id
of the active tunnel and the status.  Every start of a tunnel within the run tells that the tunnel
that was active is disconnected, if there was one, and then how it has ended itself. -/
theorem events_tell_state {limits : Limits} {poolSize : Nat} {store : Store.Persisted} {s : Machine}
    (h : Reach Lasts (Machine.fresh limits poolSize store) s) :
    (s.AtRest → s.world.visibleActive = s.world.session.active ∧
      told s.world.events = (s.world.session.active.map (·.id), s.world.visibleStatus)) ∧
    ∀ t d auto k task s' code, s.Inside t → s.tasks[t]? = some task →
      task.program = (Program.startLocked limits d auto).bind k →
      Performs Lasts t k s (Program.startLocked limits d auto) s' code →
      s'.world.events = s.world.events ++ startEvents s.world.session.active d code := by
  have h := h.mono fun _ _ => allows_announcing
  have h₀ := kept_announcing limits poolSize store
  refine ⟨fun hr => ?_, fun t d auto k task s' code hin htask hprog hp => ?_⟩
  · rw [World.events_eq]
    exact h.atRest announcing_lasting h₀ hr
  · have hp := hp.mono fun _ _ => allows_announcing
    rw [World.events_eq, World.events_eq]
    refine hp.startLocked announcing_lasting h₀ h hin htask hprog (fun code c =>
      c.deeds.filterMap Deed.event? = s.world.custody.deeds.filterMap Deed.event? ++
        startEvents s.world.session.active d code) fun acts code ha => ?_
    refine (Terms.along_of_always fun _ => trivial).2 ?_
    rw [Custody.events_afterAll, ha.events]
    rfl

/-- A tunnel is resumed, and a start that replaces it fails. -/
theorem replaced_tunnel_tells :
    told resumedService.world.events = (some "a", .connected) ∧
    ∃ s : Machine, s.world.events = replacingService.world.events ++
      [.changed (some "a") .disconnected, .started (some "b") .illegalServerConfiguration] := by
  have h₁ : Reach Lasts rememberingService resumedService :=
    reach_resumedService (by simp [resuming, Lasts, Machine.Orderly])
  have h₂ : Reach Lasts resumedService replacingService :=
    reach_replacingService (by simp [replacing, Lasts, Machine.Orderly])
  refine ⟨((events_tell_state h₁).1 atRest_resumedService).2, ?_⟩
  have hl : ∀ s, Lasts s (.turn 2 {}) := fun _ => ⟨trivial, nofun⟩
  obtain ⟨s, hs⟩ := performs_replacingService hl
  exact ⟨s, (events_tell_state (h₁.trans h₂)).2 2 incompleteTunnel false afterStart _ s _
    inside_replacingService task_replacingService rfl hs⟩

/-- A start where there was no tunnel tells nothing before it tells how it has ended. -/
theorem first_start_tells_once : ∃ s, (Machine.fresh {} 4 {}).run?
    (.call (.start incompleteTunnel.id incompleteTunnel.config) :: List.replicate 20 (.turn 0 {})) =
      some s ∧ s.tasks[0]?.bind Task.reply? = some (.started (.ok .illegalServerConfiguration)) ∧
    s.world.events = [.started (some "b") .illegalServerConfiguration] :=
  ⟨_, rfl, rfl, rfl⟩

end TunnelKeeper.Service
