import TunnelKeeper.Proofs.Service.Inside

/-!
# Answers — what each step of a machine comes to

A step of a machine is told by what it leaves alone: an answer changes the custody as the program of
the task expects (`respond_asked`), or not at all where the question is free (`respond_free`).  A
turn goes one of a few ways (`Machine.Turns`), and the steps of workers, events and drops have one
form each.  What is said of runs is derived from these, whatever tasks are about.
-/

namespace TunnelKeeper.Service

variable {T : Terms} {s s' : Machine} {o : Option Pending}

/-! ### Answers -/

/-- A call may change the store, and nothing else that the lock guards. -/
theorem World.custody_afterCall (w : World) (k : Call) (a : k.Answer) :
    (w.afterCall k a).custody = { w.custody with store := (Deed.called k a).stored w.store } := by
  cases k with
  | write u => cases (a : Bool) <;> rfl
  | register => cases (a : Bool) <;> rfl
  | unregister => cases (a : Bool) <;> rfl
  | _ => rfl

/-- A call is an act, unless anybody may make it. -/
theorem World.custody_perform (w : World) (t : TaskId) (around : Surroundings) (k : Call) :
    (w.perform t around k).2.custody = w.custody.afterAll (Act.ofCall k (w.answer around k)) := by
  have hn : (w.perform t around k).2 =
      (w.afterCall k (w.answer around k)).note (.called t k (w.answer around k)) := rfl
  have hd : (Entry.called t k (w.answer around k)).deed? =
      if k.isGuarded then some (.called k (w.answer around k)) else none := rfl
  rw [hn, custody_note, custody_afterCall, hd, Act.ofCall]
  cases hk : k.isGuarded with
  | true => rfl
  | false =>
      have hs : (Deed.called k (w.answer around k)).stored w.store = w.store := by
        cases k with
        | write => cases hk
        | _ => rfl
      rw [hs]
      simp [Custody.afterAll, custody]

/-- **What joining a unit of work is**: its end is told, or the time for it has run out. -/
theorem respond_join {t : TaskId} {around : Surroundings} {id : UnitId} {limit : Option Time}
    {joined : Pool.Joined Bool} :
    s.respond t around (.join id limit) = some (joined, s') ↔ s' = s ∧
      (s.pool.joined? id = some joined ∨ s.pool.joined? id = none ∧ joined = .timedOut ∧
        ∃ time, limit = some time ∧ time ≤ s.world.clock) := by
  simp only [Machine.respond]
  have told : ∀ ending : Pool.Joined Bool,
      some (ending, s) = some (joined, s') ↔ s' = s ∧ joined = ending := fun ending => by
    simp [eq_comm, and_comm]
  cases hj : s.pool.joined? id with
  | some ending => exact (told ending).trans (by simp [eq_comm])
  | none =>
      cases limit with
      | none => simp
      | some time =>
          by_cases hle : time ≤ s.world.clock
          · simp only [hle, if_true]
            exact (told .timedOut).trans (by simp [hle])
          · simp [hle]

/-- What the task inside is answered is what was demanded. -/
theorem respond_asked {t : TaskId} {around : Surroundings} {q : Ask} {a : q.Answer}
    {K : q.Answer → Option Pending → Custody → Prop} (ht : Tracks s.pool o)
    (hc : T.always s.world.custody) (hr : T.rely around) (hq : T.Asked o s.world.custody q K)
    (hs : s.respond t around q = some (a, s')) (hn : q ≠ .spawnReactor) :
    s'.tasks = s.tasks ∧ s'.holder = s.holder ∧ s'.queue = s.queue ∧ T.always s'.world.custody ∧
      ∃ o', Tracks s'.pool o' ∧ K a o' s'.world.custody := by
  cases q with
  | lock | unlock => exact hq.elim
  | spawnReactor => exact absurd rfl hn
  | session | visibleActive | visibleStatus | now | pause =>
      cases hs
      exact ⟨rfl, rfl, rfl, hc, o, ht, by first | exact hq | exact hq _⟩
  | setActive | setMonitored | publishActive | publishStatus =>
      cases hs
      exact ⟨rfl, rfl, rfl, hq.1, o, ht, hq.2⟩
  | abandon id =>
      cases hs
      exact ⟨rfl, rfl, rfl, hc, _, ht.abandons id, hq⟩
  | spawn work =>
      cases hs
      cases work with
      | startProxy config =>
          obtain ⟨rfl, hq⟩ := hq
          refine ⟨rfl, rfl, rfl, hc, _, ht.starts _ config, hq _ _ ?_⟩
          split
          · exact .inr rfl
          · exact .inl rfl
      | _ => exact ⟨rfl, rfl, rfl, hc, o, ht.spawns _ nofun, hq _⟩
  | join id limit =>
      obtain ⟨rfl, hj | ⟨-, rfl, -⟩⟩ := respond_join.1 hs
      · obtain ⟨o', hjo, ho'⟩ := ht.joins hj
        exact ⟨rfl, rfl, rfl, hc, o', ho', hq _ _ hjo⟩
      · obtain ⟨o', hjo, ho'⟩ := ht.timesOut id
        exact ⟨rfl, rfl, rfl, hc, o', ho', hq _ _ hjo⟩
  | call k =>
      cases hs
      have h := hq (s.world.answer around k) ⟨around, hr, (s.world.answer_custody around k).symm⟩
      have hcust := s.world.custody_perform t around k
      obtain ⟨-, ha, hK⟩ := Terms.along_iff.1 (h.always hc)
      exact ⟨rfl, rfl, rfl, hcust ▸ ha, o, ht, hcust ▸ hK⟩

/-- What a task apart from the lock is answered changes nothing that the lock guards. -/
theorem respond_free {t : TaskId} {around : Surroundings} {q : Ask} {a : q.Answer}
    (ht : Tracks s.pool o) (hq : q.isFree = true) (hs : s.respond t around q = some (a, s')) :
    s'.tasks = s.tasks ∧ s'.holder = s.holder ∧ s'.queue = s.queue ∧
      ∃ o', Tracks s'.pool o' ∧ Drifts o s.world.custody o' s'.world.custody := by
  cases q with
  | visibleActive | visibleStatus | now | pause =>
      cases hs
      exact ⟨rfl, rfl, rfl, o, ht, .refl _ _⟩
  | abandon id =>
      cases hs
      exact ⟨rfl, rfl, rfl, ht.drops id _⟩
  | spawn work =>
      cases hs
      cases work with
      | startProxy config => cases hq
      | _ => exact ⟨rfl, rfl, rfl, o, ht.spawns _ nofun, .refl _ _⟩
  | join id limit =>
      obtain ⟨rfl, -⟩ := respond_join.1 hs
      exact ⟨rfl, rfl, rfl, o, ht, .refl _ _⟩
  | call k =>
      cases hs
      have hcust := s.world.custody_perform t around k
      rw [Act.ofCall, not_guarded_of_isFree hq] at hcust
      exact ⟨rfl, rfl, rfl, o, ht, hcust ▸ .refl _ _⟩
  | _ => cases hq

/-- Whatever is answered, tasks stay where they are. -/
theorem tasks_respond {t : TaskId} {around : Surroundings} {q : Ask} {a : q.Answer}
    (hs : s.respond t around q = some (a, s')) {i : TaskId} {task : Task}
    (htask : s.tasks[i]? = some task) : s'.tasks[i]? = some task := by
  cases q with
  | lock => cases hs
  | join id limit =>
      obtain ⟨rfl, -⟩ := respond_join.1 hs
      exact htask
  | spawnReactor =>
      cases hs
      rw [← htask]
      exact List.getElem?_append_left (List.getElem?_eq_some_iff.1 htask).1
  | _ =>
      cases hs
      exact htask

/-! ### Steps -/

/-- What a turn of a task is depends on its program. -/
theorem turn?_eq {t : TaskId} {task : Task} (htask : s.tasks[t]? = some task)
    (ha : task.alive = true) (around : Surroundings) : s.turn? t around =
      match task.program with
      | .done _ => s.receive t task
      | .ask .lock next => s.takeLock t (next ())
      | .ask q next => (s.respond t around q).bind fun x => some (x.2.goOn t (next x.1)) := by
  unfold Machine.turn?
  simp only [htask, Option.bind_eq_bind, Option.bind_some, ha, Bool.not_true, Bool.false_eq_true,
    if_false]
  rfl

theorem turn?_ask {t : TaskId} {around : Surroundings} {task : Task} {q : Ask}
    {next : q.Answer → Program Reply} (htask : s.tasks[t]? = some task) (ha : task.alive = true)
    (hp : task.program = .ask q next) (hq : q ≠ .lock) (hs : s.turn? t around = some s') :
    ∃ a s₁, s.respond t around q = some (a, s₁) ∧ s' = s₁.goOn t (next a) := by
  rw [turn?_eq htask ha, hp] at hs
  have hs : (s.respond t around q).bind (fun x => some (x.2.goOn t (next x.1))) = some s' := by
    cases q with
    | lock => exact absurd rfl hq
    | _ => exact hs
  obtain ⟨⟨a, s₁⟩, hr, hs⟩ := Option.bind_eq_some_iff.1 hs
  exact ⟨a, s₁, hr, (Option.some.inj hs).symm⟩

theorem turn?_of_respond {t : TaskId} {around : Surroundings} {task : Task} {q : Ask}
    {next : q.Answer → Program Reply} {a : q.Answer} {s₁ : Machine}
    (htask : s.tasks[t]? = some task) (ha : task.alive = true) (hp : task.program = .ask q next)
    (hs : s.respond t around q = some (a, s₁)) : s.turn? t around = some (s₁.goOn t (next a)) := by
  rw [turn?_eq htask ha, hp]
  cases q with
  | lock => cases hs
  | _ => exact Option.bind_eq_some_iff.2 ⟨_, hs, rfl⟩

theorem turn?_lock {t : TaskId} {task : Task} {next : Unit → Program Reply}
    (htask : s.tasks[t]? = some task) (ha : task.alive = true)
    (hp : task.program = .ask .lock next) (around : Surroundings) :
    s.turn? t around = s.takeLock t (next ()) := by
  rw [turn?_eq htask ha, hp]

/-- **What asking for the lock is**: the task gets it, or it waits. -/
theorem takeLock_cases {t : TaskId} {p : Program Reply} (hs : s.takeLock t p = some s') :
    (s.holder = none ∨ s.holder = some t) ∧ s' = { s.goOn t p with holder := some t } ∨
      (s.holder ≠ none ∧ s.holder ≠ some t ∧ t ∉ s.queue) ∧
        s' = { s with queue := s.queue ++ [t] } := by
  unfold Machine.takeLock at hs
  split at hs
  case h_1 hh => exact .inl ⟨.inl hh, (Option.some.inj hs).symm⟩
  case h_2 holder hh =>
    split at hs
    case isTrue he =>
      obtain rfl : holder = t := by simpa using he
      refine .inl ⟨.inr hh, ?_⟩
      rw [← Option.some.inj hs, ← hh]
      rfl
    case isFalse he =>
      split at hs
      case isTrue => cases hs
      case isFalse hm =>
        have he : holder ≠ t := by simpa using he
        refine .inr ⟨⟨?_, ?_, by simpa using hm⟩, (Option.some.inj hs).symm⟩
        · rw [hh]
          nofun
        · rw [hh]
          exact fun h => he (Option.some.inj h)

theorem takeLock_free {t : TaskId} (hh : s.holder = none ∨ s.holder = some t) (p : Program Reply) :
    s.takeLock t p = some { s.goOn t p with holder := some t } := by
  unfold Machine.takeLock
  rcases hh with hh | hh
  · rw [hh]
  · simp only [hh, beq_self_eq_true, if_true]
    rw [← hh]
    rfl

/-- **What reading a channel is**: an idle reactor takes the oldest event, or ends with its channel.
-/
theorem receive_eq_some {t : TaskId} {task : Task} (hs : s.receive t task = some s') :
    ∃ registration channel, task.registration = some registration ∧
      s.world.channels[registration]? = some channel ∧
      ((∃ e rest, channel.waiting = e :: rest ∧
        s' = { s.goOn t ((Program.react s.limits e).bind fun _ => Task.idle) with
          world := s.world.changeChannel registration fun _ => { channel with waiting := rest } }) ∨
      (channel.waiting = [] ∧ channel.hasWriter = false ∧
        s' = s.setTask t { task with alive := false })) := by
  obtain ⟨registration, hr, hs⟩ := Option.bind_eq_some_iff.1 hs
  obtain ⟨channel, hc, hs⟩ := Option.bind_eq_some_iff.1 hs
  refine ⟨registration, channel, hr, hc, ?_⟩
  cases hw : channel.waiting with
  | cons e rest =>
      simp only [Channel.receive, hw] at hs
      exact .inl ⟨e, rest, rfl, (Option.some.inj hs).symm⟩
  | nil =>
      cases hwriter : channel.hasWriter with
      | true => simp [Channel.receive, hw, hwriter] at hs
      | false =>
          simp only [Channel.receive, hw, hwriter] at hs
          exact .inr ⟨rfl, rfl, (Option.some.inj hs).symm⟩

/-- Whatever an idle reactor reads, it takes an event, or ends. -/
theorem receive_cases {t : TaskId} {task : Task} (hs : s.receive t task = some s') :
    ∃ registration channel, s.world.channels[registration]? = some channel ∧
      ((∃ e rest, channel.receive = (.event e, rest) ∧
        s' = { s.goOn t ((Program.react s.limits e).bind fun _ => Task.idle) with
          world := s.world.changeChannel registration fun _ => rest }) ∨
      s' = s.setTask t { task with alive := false }) := by
  obtain ⟨registration, channel, -, hc, ⟨e, rest, hw, rfl⟩ | ⟨-, -, rfl⟩⟩ := receive_eq_some hs
  · exact ⟨registration, channel, hc, .inl ⟨e, _, by rw [Channel.receive, hw], rfl⟩⟩
  · exact ⟨registration, channel, hc, .inr rfl⟩

/-- Only a task that is there and alive takes a turn. -/
theorem turn?_alive {t : TaskId} {around : Surroundings} (hs : s.turn? t around = some s') :
    ∃ task, s.tasks[t]? = some task ∧ task.alive = true := by
  unfold Machine.turn? at hs
  obtain ⟨task, htask, hs⟩ := Option.bind_eq_some_iff.1 hs
  cases ha : task.alive with
  | true => exact ⟨task, htask, ha⟩
  | false => simp [ha] at hs

/-- **What a turn of a task is.** -/
inductive Machine.Turns (s : Machine) (t : TaskId) (around : Surroundings) (task : Task) :
    Machine → Prop where
  /-- An idle reactor takes the oldest event of its channel, -/
  | reads {r : Reply} {registration : Nat} {channel : Channel} {e : NetworkEvent}
      {rest : List NetworkEvent} (hp : task.program = .done r)
      (hr : task.registration = some registration)
      (hc : s.world.channels[registration]? = some channel) (hw : channel.waiting = e :: rest) :
      Turns s t around task
        { s.goOn t ((Program.react s.limits e).bind fun _ => Task.idle) with
          world := s.world.changeChannel registration fun _ => { channel with waiting := rest } }
  /-- or ends with it. -/
  | ends {r : Reply} (hp : task.program = .done r) :
      Turns s t around task (s.setTask t { task with alive := false })
  /-- The task gets the lock, -/
  | enters {next : Unit → Program Reply} (hp : task.program = .ask .lock next)
      (hh : s.holder = none ∨ s.holder = some t) :
      Turns s t around task { s.goOn t (next ()) with holder := some t }
  /-- or queues up for it. -/
  | queues {next : Unit → Program Reply} (hp : task.program = .ask .lock next)
      (hh : s.holder ≠ none ∧ s.holder ≠ some t ∧ t ∉ s.queue) :
      Turns s t around task { s with queue := s.queue ++ [t] }
  | answered {q : Ask} {next : q.Answer → Program Reply} {a : q.Answer} {s₁ : Machine}
      (hp : task.program = .ask q next) (hq : q ≠ .lock)
      (hs : s.respond t around q = some (a, s₁)) : Turns s t around task (s₁.goOn t (next a))

theorem turn?_cases {t : TaskId} {around : Surroundings} (hs : s.turn? t around = some s') :
    ∃ task, s.tasks[t]? = some task ∧ task.alive = true ∧ s.Turns t around task s' := by
  obtain ⟨task, htask, ha⟩ := turn?_alive hs
  refine ⟨task, htask, ha, ?_⟩
  cases hp : task.program with
  | done r =>
      rw [turn?_eq htask ha, hp] at hs
      obtain ⟨registration, channel, hr, hc, ⟨e, rest, hw, rfl⟩ | ⟨-, -, rfl⟩⟩ :=
        receive_eq_some hs
      · exact .reads hp hr hc hw
      · exact .ends hp
  | ask q next =>
      by_cases hq : q = .lock
      · subst hq
        rw [turn?_lock htask ha hp] at hs
        obtain ⟨hh, rfl⟩ | ⟨hh, rfl⟩ := takeLock_cases hs
        · exact .enters hp hh
        · exact .queues hp hh
      · obtain ⟨a, s₁, hs₁, rfl⟩ := turn?_ask htask ha hp hq hs
        exact .answered hp hq hs₁

/-- **What the end of a unit is.** -/
theorem end?_eq_some {id : UnitId} {result : Option Bool} :
    s.end? id result = some s' ↔ ∃ u, s.pool.units[id]? = some u ∧ Pool.isRunning u = true ∧
      s' = { s with
        pool := s.pool.release id (endStage result)
        world := s.world.note (.ended id u.work result) } := by
  constructor
  · intro h
    obtain ⟨u, hu, h⟩ := Option.bind_eq_some_iff.1 h
    split at h
    case isFalse => cases h
    case isTrue hr =>
      refine ⟨u, hu, hr, ?_⟩
      rw [← Option.some.inj h]
      cases result <;> rfl
  · rintro ⟨u, hu, hr, rfl⟩
    unfold Machine.end?
    rw [hu, Option.bind_eq_bind, Option.bind_some, if_pos hr]
    cases result <;> rfl

theorem step?_ask {id : UnitId} (hs : s.step? (.ask id) = some s') :
    ∃ pool, s.pool.ask? id = some pool ∧ s' = { s with pool } := by
  obtain ⟨pool, hp, he⟩ := Option.map_eq_some_iff.1 hs
  exact ⟨pool, hp, he.symm⟩

/-- **What the beginning of a unit is.** -/
theorem begin?_eq_some {id : UnitId} :
    s.begin? id = some s' ↔ ∃ pool u, s.pool.begin? id = some pool ∧ pool.units[id]? = some u ∧
      s' = { s with pool, world := s.world.note (.began id u.work) } := by
  constructor
  · intro h
    obtain ⟨pool, hb, h⟩ := Option.bind_eq_some_iff.1 h
    obtain ⟨u, hu, h⟩ := Option.bind_eq_some_iff.1 h
    exact ⟨pool, u, hb, hu, (Option.some.inj h).symm⟩
  · rintro ⟨pool, u, hb, hu, rfl⟩
    refine Option.bind_eq_some_iff.2 ⟨pool, hb, ?_⟩
    exact Option.bind_eq_some_iff.2 ⟨u, hu, rfl⟩

/-- A unit of work asks for a permit, begins, and comes to a result. -/
@[simp]
def carryOut (id : UnitId) (result : Bool) : List Label :=
  [.ask id, .begin id, .finish id result]

theorem step?_deliver {registration : Nat} {e : NetworkEvent}
    (hs : s.step? (.deliver registration e) = some s') :
    s' = { s with world := s.world.changeChannel registration fun c => c.send e } := by
  obtain ⟨channel, -, hs⟩ := Option.bind_eq_some_iff.1 hs
  split at hs
  case isTrue => exact (Option.some.inj hs).symm
  case isFalse => cases hs

/-- **What is dropped** is a task that waits. -/
theorem step?_drop {t : TaskId} (hs : s.step? (.drop t) = some s') :
    ∃ task, s.tasks[t]? = some task ∧ task.isSuspended = true ∧ s' = s.dropTask t := by
  simp only [Machine.step?] at hs
  split at hs
  case h_1 task htask =>
    split at hs
    case isTrue hw => exact ⟨task, htask, hw, (Option.some.inj hs).symm⟩
    case isFalse => cases hs
  case h_2 => cases hs

end TunnelKeeper.Service
