import TunnelKeeper.Proofs.Service.Performs
import TunnelKeeper.Proofs.Workers.Unsettled

/-!
# Continuing — what a step makes of programs and of the log

Whatever a step is, each task after it is a new caller or a new reactor, or goes on: with its
program, with what is left of that after an answer, or with what an event has it do (`Continues`).
The log grows by one entry at most.

* `exists_task_step`, `continues_step`: what has become of a task, and what it has come from.
* `world_step`, `log_step`: what a step makes of the clock and of the log.
-/

namespace TunnelKeeper.Service

variable {s s' : Machine} {l : Label}

/-! ### What a step makes of programs and of the log -/

/-- **What a step makes of the task** `i`: the registration that it reads and its program. -/
inductive Continues (s : Machine) (i : TaskId) : Option Nat → Program Reply → Prop where
  /-- It is a new caller, -/
  | called (op : Operation) (h : s.tasks[i]? = none) : Continues s i none (op.program s.limits)
  /-- or a new reactor. -/
  | spawned (registration : Option Nat) (h : s.tasks[i]? = none) :
      Continues s i registration Task.idle
  | dropped {task : Task} (h : s.tasks[i]? = some task) : Continues s i task.registration Task.idle
  | stays {task : Task} (h : s.tasks[i]? = some task) : Continues s i task.registration task.program
  /-- It has read an event. -/
  | reacts {task : Task} (h : s.tasks[i]? = some task) (e : NetworkEvent) :
      Continues s i task.registration ((Program.react s.limits e).bind fun _ => Task.idle)
  | entered {task : Task} {next : Unit → Program Reply} (h : s.tasks[i]? = some task)
      (hp : task.program = .ask .lock next) : Continues s i task.registration (next ())
  | answered {task : Task} {q : Ask} {next : q.Answer → Program Reply} (h : s.tasks[i]? = some task)
      (hp : task.program = .ask q next) (hq : q ≠ .lock) (a : q.Answer) :
      Continues s i task.registration (next a)

/-- Where a task may go on with another program, and no other does. -/
theorem Continues.of_modify {i t : TaskId} {task : Task} {p : Program Reply}
    (h : (s.goOn t p).tasks[i]? = some task)
    (hp : ∀ old, t = i → s.tasks[i]? = some old → Continues s i old.registration p) :
    Continues s i task.registration task.program := by
  rw [Machine.tasks_goOn, Option.map_eq_some_iff] at h
  obtain ⟨old, hold, rfl⟩ := h
  split
  case isTrue ht => exact hp old ht hold
  case isFalse => exact .stays hold

/-- Where a task is replaced. -/
theorem Continues.of_set {i t : TaskId} {task new : Task}
    (h : (s.tasks.set t new)[i]? = some task)
    (hp : t = i → Continues s i new.registration new.program) :
    Continues s i task.registration task.program := by
  rw [List.getElem?_set] at h
  split at h
  case isTrue ht =>
    split at h
    · cases h
      exact hp ht
    · cases h
  case isFalse => exact .stays h

/-- Where a task is added. -/
theorem Continues.of_append {i : TaskId} {task new : Task} (h : (s.tasks ++ [new])[i]? = some task)
    (hp : s.tasks[i]? = none → Continues s i new.registration new.program) :
    Continues s i task.registration task.program := by
  rw [List.getElem?_append] at h
  split at h
  case isTrue => exact .stays h
  case isFalse hi =>
    have hm : task ∈ [new] := List.mem_of_getElem? h
    rw [List.mem_singleton.1 hm]
    exact hp (List.getElem?_eq_none (Nat.le_of_not_lt hi))

/-- Tasks are left alone by whatever a task is answered, but for a new reactor. -/
theorem continues_respond {t i : TaskId} {around : Surroundings} {q : Ask} {a : q.Answer}
    {task : Task} (hs : s.respond t around q = some (a, s')) (h : s'.tasks[i]? = some task) :
    s.tasks[i]? = some task ∨ s.tasks[i]? = none ∧ task.program = Task.idle := by
  cases q with
  | lock => cases hs
  | spawnReactor =>
      cases hs
      have h : (s.tasks ++ [_])[i]? = some task := h
      rw [List.getElem?_append] at h
      split at h
      case isTrue => exact .inl h
      case isFalse hi =>
        have hm := List.mem_of_getElem? h
        rw [List.mem_singleton.1 hm]
        exact .inr ⟨List.getElem?_eq_none (Nat.le_of_not_lt hi), rfl⟩
  | join id limit =>
      obtain ⟨rfl, -⟩ := respond_join.1 hs
      exact .inl h
  | _ =>
      cases hs
      exact .inl h

theorem continues_turn {t i : TaskId} {around : Surroundings} (hs : s.turn? t around = some s')
    {task : Task} (h : s'.tasks[i]? = some task) :
    Continues s i task.registration task.program := by
  obtain ⟨old, hold, -, hturn⟩ := turn?_cases hs
  cases hturn with
  | @reads _ _ _ e =>
      have h : (s.goOn t _).tasks[i]? = some task := h
      exact .of_modify h fun old _ hold => .reacts hold e
  | ends =>
      refine .of_set h fun ht => ?_
      exact show Continues _ _ old.registration old.program from .stays (ht ▸ hold)
  | @enters next hp =>
      have h : (s.goOn t (next ())).tasks[i]? = some task := h
      refine .of_modify h fun old' ht hold' => ?_
      obtain rfl := Option.some.inj ((ht ▸ hold).symm.trans hold')
      exact .entered hold' hp
  | queues => exact .stays h
  | @answered q next a s₁ hp hq hs₁ =>
      rw [Machine.tasks_goOn, Option.map_eq_some_iff] at h
      obtain ⟨task₁, htask₁, rfl⟩ := h
      split
      case isTrue ht =>
        subst ht
        obtain rfl := Option.some.inj ((tasks_respond hs₁ hold).symm.trans htask₁)
        exact .answered hold hp hq a
      case isFalse =>
        rcases continues_respond hs₁ htask₁ with h | ⟨h, hidle⟩
        · exact .stays h
        · rw [hidle]
          exact .spawned _ h

theorem tasks_dropTask {t : TaskId} {task : Task} (h : s.tasks[t]? = some task) :
    (s.dropTask t).tasks = s.tasks.set t { task with alive := false, program := Task.idle } := by
  simp only [Machine.dropTask, h]
  split <;> split <;> rfl

/-- No task is forgotten. -/
theorem exists_task_step (hs : s.step? l = some s') {i : TaskId} {task : Task}
    (h : s.tasks[i]? = some task) : ∃ task', s'.tasks[i]? = some task' := by
  have goOn : ∀ {s : Machine} {task : Task} (t : TaskId) (p : Program Reply),
      s.tasks[i]? = some task → ∃ task', (s.goOn t p).tasks[i]? = some task' := by
    intro s task t p h
    rw [Machine.tasks_goOn, h]
    exact ⟨_, rfl⟩
  have set : ∀ (t : TaskId) (new : Task), ∃ task', (s.tasks.set t new)[i]? = some task' := by
    intro t new
    have hlt : i < (s.tasks.set t new).length := by
      rw [List.length_set]
      exact (List.getElem?_eq_some_iff.1 h).1
    exact ⟨_, List.getElem?_eq_getElem hlt⟩
  cases l with
  | call op =>
      obtain rfl := Option.some.inj hs
      exact ⟨task, (List.getElem?_append_left (List.getElem?_eq_some_iff.1 h).1).trans h⟩
  | turn t around =>
      obtain ⟨old, -, -, hturn⟩ := turn?_cases hs
      cases hturn with
      | reads | enters => exact goOn t _ h
      | ends => exact set t _
      | queues => exact ⟨task, h⟩
      | answered _ _ hs₁ => exact goOn t _ (tasks_respond hs₁ h)
  | ask id =>
      obtain ⟨pool, -, rfl⟩ := step?_ask hs
      exact ⟨task, h⟩
  | begin id =>
      obtain ⟨pool, u, -, -, rfl⟩ := begin?_eq_some.1 hs
      exact ⟨task, h⟩
  | finish | panic =>
      obtain ⟨u, -, -, rfl⟩ := end?_eq_some.1 hs
      exact ⟨task, h⟩
  | deliver registration e =>
      obtain rfl := step?_deliver hs
      exact ⟨task, h⟩
  | drop t =>
      obtain ⟨old, hold, -, rfl⟩ := step?_drop hs
      rw [tasks_dropTask hold]
      exact set t _
  | silence | occupy | vacate | closePool | elapse =>
      obtain rfl := Option.some.inj hs
      exact ⟨task, h⟩

/-- **Every step** makes of a task what its label says. -/
theorem continues_step (hs : s.step? l = some s') {i : TaskId} {task : Task}
    (h : s'.tasks[i]? = some task) : Continues s i task.registration task.program := by
  cases l with
  | call op =>
      obtain rfl := Option.some.inj hs
      exact .of_append h fun hi => .called op hi
  | turn t around => exact continues_turn hs h
  | ask id =>
      obtain ⟨pool, -, rfl⟩ := step?_ask hs
      exact .stays h
  | begin id =>
      obtain ⟨pool, u, -, -, rfl⟩ := begin?_eq_some.1 hs
      exact .stays h
  | finish | panic =>
      obtain ⟨u, -, -, rfl⟩ := end?_eq_some.1 hs
      exact .stays h
  | deliver registration e =>
      obtain rfl := step?_deliver hs
      exact .stays h
  | drop t =>
      obtain ⟨old, hold, -, rfl⟩ := step?_drop hs
      rw [tasks_dropTask hold] at h
      refine .of_set h fun ht => ?_
      exact show Continues _ _ old.registration Task.idle from .dropped (ht ▸ hold)
  | silence | occupy | vacate | closePool | elapse =>
      obtain rfl := Option.some.inj hs
      exact .stays h

/-- A task stays there, and reads the registration that it has always read. -/
theorem registration_step (hs : s.step? l = some s') {i : TaskId} {task : Task}
    (h : s.tasks[i]? = some task) :
    ∃ task', s'.tasks[i]? = some task' ∧ task'.registration = task.registration := by
  have same : ∀ {task'}, s'.tasks[i]? = some task' → task'.registration = task.registration := by
    intro task' h'
    have hc := continues_step hs h'
    generalize task'.program = p, task'.registration = registration at hc
    cases hc with
    | called _ hn | spawned _ hn => exact absurd (hn.symm.trans h) nofun
    | dropped hold | stays hold | reacts hold | entered hold | answered hold =>
        exact congrArg Task.registration (Option.some.inj (hold.symm.trans h))
  obtain ⟨task', h'⟩ := exists_task_step hs h
  exact ⟨task', h', same h'⟩

theorem World.log_afterCall (w : World) (k : Call) (a : k.Answer) :
    (w.afterCall k a).log = w.log := by
  cases k with
  | write | register | unregister => cases (a : Bool) <;> rfl
  | _ => rfl

theorem World.clock_afterCall (w : World) (k : Call) (a : k.Answer) :
    (w.afterCall k a).clock = w.clock := by
  cases k with
  | write | register | unregister => cases (a : Bool) <;> rfl
  | _ => rfl

/-- The unit of work that an entry of the log tells of. -/
def Entry.unit? : Entry → Option UnitId
  | .called _ _ _ => none
  | .began id _ | .ended id _ _ => some id

/-- The time that passes in a step. -/
def Label.span : Label → Time
  | .elapse span => span
  | _ => 0

/-- Answers take no time, and what is answered goes into the log if a collaborator has answered
it. -/
theorem world_respond {t : TaskId} {around : Surroundings} {q : Ask} {a : q.Answer}
    (hs : s.respond t around q = some (a, s')) :
    s'.world.clock = s.world.clock ∧ ∃ e : Option Entry, s'.world.log = s.world.log ++ e.toList ∧
      (∀ x, e = some x → ∃ k b, x = .called t k b ∧ q = .call k) ∧
        ∀ k, q = .call k → ∃ b, e = some (.called t k b) := by
  have quiet : s'.world.log = s.world.log → (∀ k, q ≠ .call k) → ∃ e : Option Entry,
      s'.world.log = s.world.log ++ e.toList ∧
        (∀ x, e = some x → ∃ k b, x = .called t k b ∧ q = .call k) ∧
          ∀ k, q = .call k → ∃ b, e = some (.called t k b) :=
    fun h hq => ⟨none, h.trans (List.append_nil _).symm, by simp, fun k hk => absurd hk (hq k)⟩
  cases q with
  | lock => cases hs
  | call k =>
      cases hs
      refine ⟨s.world.clock_afterCall k _, some (.called t k (s.world.answer around k)), ?_, ?_, ?_⟩
      · exact congrArg (· ++ [_]) (s.world.log_afterCall k _)
      · exact fun x h => ⟨k, _, (Option.some.inj h).symm, rfl⟩
      · intro k' h
        cases h
        exact ⟨_, rfl⟩
  | join id limit =>
      obtain ⟨rfl, -⟩ := respond_join.1 hs
      exact ⟨rfl, quiet rfl fun _ h => nomatch h⟩
  | _ =>
      cases hs
      exact ⟨rfl, quiet rfl fun _ h => nomatch h⟩

theorem log_respond {t : TaskId} {around : Surroundings} {q : Ask} {a : q.Answer}
    (hs : s.respond t around q = some (a, s')) :
    ∃ e : Option Entry, s'.world.log = s.world.log ++ e.toList ∧
      ∀ i k b, e = some (.called i k b) → i = t ∧ q = .call k := by
  obtain ⟨-, e, hlog, he, -⟩ := world_respond hs
  refine ⟨e, hlog, fun i k b h => ?_⟩
  obtain ⟨k', b', hx, hq⟩ := he _ h
  cases hx
  exact ⟨rfl, hq⟩

/-- **Only one kind of step takes time**, and a step adds at most one entry to the log: a call only
for the task that takes its turn, and the beginning or the end of a unit of work only if that has
not come to its end. -/
theorem world_step (hs : s.step? l = some s') : s'.world.clock = s.world.clock + l.span ∧
    ∃ e : Option Entry, s'.world.log = s.world.log ++ e.toList ∧
      (∀ t k b, e = some (.called t k b) → ∃ around task next, l = .turn t around ∧
        s.tasks[t]? = some task ∧ task.program = .ask (.call k) next) ∧
      ∀ x id, e = some x → x.unit? = some id → s.pool.Unsettled id := by
  have quiet : s'.world.log = s.world.log → ∃ e : Option Entry,
      s'.world.log = s.world.log ++ e.toList ∧
        (∀ t k b, e = some (.called t k b) → ∃ around task next, l = .turn t around ∧
          s.tasks[t]? = some task ∧ task.program = .ask (.call k) next) ∧
        ∀ x id, e = some x → x.unit? = some id → s.pool.Unsettled id :=
    fun h => ⟨none, h.trans (List.append_nil _).symm, by simp, by simp⟩
  cases l with
  | turn t around =>
      obtain ⟨task, htask, -, hturn⟩ := turn?_cases hs
      cases hturn with
      | reads | ends | enters | queues => exact ⟨rfl, quiet rfl⟩
      | @answered q next a s₁ hp _ hs₁ =>
          obtain ⟨hclock, e, hlog, he, -⟩ := world_respond hs₁
          refine ⟨hclock, e, hlog, fun i k b h => ?_, fun x id h hid => ?_⟩
          · obtain ⟨k', b', hx, rfl⟩ := he _ h
            cases hx
            exact ⟨around, task, next, rfl, htask, hp⟩
          · obtain ⟨k', b', rfl, -⟩ := he _ h
            cases hid
  | ask id =>
      obtain ⟨pool, -, rfl⟩ := step?_ask hs
      exact ⟨rfl, quiet rfl⟩
  | begin id =>
      obtain ⟨pool, u, hb, -, rfl⟩ := begin?_eq_some.1 hs
      obtain ⟨v, hv, hw, -, -⟩ := Pool.begin?_inv hb
      refine ⟨rfl, some (.began id u.work), rfl, by simp, fun x i h hi => ?_⟩
      cases h
      cases hi
      exact ⟨v, hv, .inl hw⟩
  | finish | panic =>
      obtain ⟨u, hu, hr, rfl⟩ := end?_eq_some.1 hs
      refine ⟨rfl, some _, rfl, by simp, fun x i h hi => ?_⟩
      cases h
      cases hi
      exact ⟨u, hu, .inr hr⟩
  | deliver registration e =>
      obtain rfl := step?_deliver hs
      exact ⟨rfl, quiet rfl⟩
  | drop t =>
      obtain ⟨task, htask, -, rfl⟩ := step?_drop hs
      have hworld : (s.dropTask t).world.clock = s.world.clock ∧
          (s.dropTask t).world.log = s.world.log := by
        simp only [Machine.dropTask, htask]
        split <;> split <;> exact ⟨rfl, rfl⟩
      exact ⟨hworld.1, quiet hworld.2⟩
  | call | silence | occupy | vacate | closePool | elapse =>
      obtain rfl := Option.some.inj hs
      exact ⟨rfl, quiet rfl⟩

theorem log_step (hs : s.step? l = some s') :
    ∃ e : Option Entry, s'.world.log = s.world.log ++ e.toList ∧
      ∀ t k b, e = some (.called t k b) → ∃ around task next, l = .turn t around ∧
        s.tasks[t]? = some task ∧ task.program = .ask (.call k) next := by
  obtain ⟨-, e, hlog, he, -⟩ := world_step hs
  exact ⟨e, hlog, he⟩

end TunnelKeeper.Service
