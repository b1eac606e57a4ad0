import TunnelKeeper.Proofs.Service.Achieving
import TunnelKeeper.Proofs.Service.Performs
import TunnelKeeper.Proofs.Service.Tidy
import TunnelKeeper.Proofs.Workers.Unsettled

/-!
# Tidying — no worker is left behind

A unit of a task that waits or is at work is one that the task owes, so a task that has returned has
none.  One that is dropped gives up all that it has handed in.

* `pool_step`: a machine makes moves of its pool, and nothing else of it.
* `Tidied.step`, `Tidied.run`: every step leaves what tasks owe with them, and so does every run.
* `no_worker_leaks`: a task that has returned or was dropped has left no unit of work behind.
-/

namespace TunnelKeeper.Service

variable {α : Type} {g : Grip} {s s' : Machine} {l : Label} {t : TaskId}

/-! ### Pools of machines -/

/-- **A machine makes moves of its pool**, and nothing else of it. -/
theorem pool_step (hs : s.step? l = some s') : ∃ moves, s.pool.run? moves = some s'.pool := by
  have one : ∀ {m pool}, s.pool.step? m = some pool → s.pool.run? [m] = some pool := fun hm =>
    Option.bind_eq_some_iff.2 ⟨_, hm, rfl⟩
  cases l with
  | turn i around =>
      obtain ⟨task, -, -, hturn⟩ := turn?_cases hs
      cases hturn with
      | reads | ends | enters | queues => exact ⟨[], rfl⟩
      | @answered q next a s₁ _ hq hs₁ =>
          show ∃ moves, s.pool.run? moves = some s₁.pool
          cases q with
          | lock => exact absurd rfl hq
          | spawn work =>
              cases hs₁
              exact ⟨[.spawn (some i) work], rfl⟩
          | abandon id =>
              cases hs₁
              exact ⟨[.drop id], rfl⟩
          | join id limit =>
              obtain ⟨rfl, -⟩ := respond_join.1 hs₁
              exact ⟨[], rfl⟩
          | _ =>
              cases hs₁
              exact ⟨[], rfl⟩
  | ask id =>
      obtain ⟨pool, ha, rfl⟩ := step?_ask hs
      exact ⟨[.ask id], one ha⟩
  | begin id =>
      obtain ⟨pool, u, hb, -, rfl⟩ := begin?_eq_some.1 hs
      exact ⟨[.begin id], one hb⟩
  | finish id result =>
      obtain ⟨u, hu, hr, rfl⟩ := end?_eq_some.1 hs
      exact ⟨[.finish id result], one (if_pos (by rw [hu]; exact hr))⟩
  | panic id =>
      obtain ⟨u, hu, hr, rfl⟩ := end?_eq_some.1 hs
      exact ⟨[.panic id], one (if_pos (by rw [hu]; exact hr))⟩
  | deliver registration e =>
      obtain rfl := step?_deliver hs
      exact ⟨[], rfl⟩
  | drop i =>
      obtain ⟨task, htask, -, rfl⟩ := step?_drop hs
      rw [pool_dropTask htask]
      exact ⟨_, s.pool.dropAll_run i⟩
  | occupy work =>
      obtain rfl := Option.some.inj hs
      exact ⟨[.spawn none work], rfl⟩
  | vacate id =>
      obtain rfl := Option.some.inj hs
      exact ⟨[.drop id], rfl⟩
  | closePool =>
      obtain rfl := Option.some.inj hs
      exact ⟨[.close], rfl⟩
  | call | silence | elapse =>
      obtain rfl := Option.some.inj hs
      exact ⟨[], rfl⟩

theorem pool_run {labels : List Label} (h : s.run? labels = some s') :
    ∃ moves, s.pool.run? moves = some s'.pool := by
  induction labels generalizing s with
  | nil =>
      obtain rfl := Option.some.inj h
      exact ⟨[], rfl⟩
  | cons l labels ih =>
      obtain ⟨s₁, hs, h⟩ := Option.bind_eq_some_iff.1 h
      obtain ⟨first, hfirst⟩ := pool_step hs
      obtain ⟨rest, hrest⟩ := ih h
      refine ⟨first ++ rest, ?_⟩
      rw [Pool.run?_append, hfirst]
      exact hrest

theorem tasks_dropTask_self {task : Task} (htask : s.tasks[t]? = some task) :
    (s.dropTask t).tasks[t]? = some { task with alive := false, program := Task.idle } := by
  rw [tasks_dropTask htask]
  exact List.getElem?_set_self (List.getElem?_eq_some_iff.1 htask).1

/-! ### What tasks owe -/

/-- A unit of work that a task has handed in waits or is at work. -/
def Machine.Owes (s : Machine) (t : TaskId) (id : UnitId) : Prop :=
  (∃ work, unitsOf s.pool t id = some work) ∧ s.pool.Unsettled id

theorem unitsOf_eq_some {pool : Pool Work Bool} {id : UnitId} {work : Work} :
    unitsOf pool t id = some work ↔
      ∃ u, pool.units[id]? = some u ∧ u.owner = some t ∧ u.work = work := by
  simp only [unitsOf, Option.map_eq_some_iff, Option.filter_eq_some_iff, beq_iff_eq, and_assoc]

theorem owes_iff {id : UnitId} : s.Owes t id ↔ ∃ u, s.pool.units[id]? = some u ∧
    u.owner = some t ∧ (Pool.isWaiting u = true ∨ Pool.isRunning u = true) := by
  constructor
  · rintro ⟨⟨work, hw⟩, u, hu, hs⟩
    obtain ⟨v, hv, ho, -⟩ := unitsOf_eq_some.1 hw
    obtain rfl := Option.some.inj (hu.symm.trans hv)
    exact ⟨u, hu, ho, hs⟩
  · rintro ⟨u, hu, ho, hs⟩
    exact ⟨⟨u.work, unitsOf_eq_some.2 ⟨u, hu, ho, rfl⟩⟩, u, hu, hs⟩

namespace Machine.Owes

variable {id : UnitId}

/-- Only its own turns make a task owe more. -/
theorem of_step (hs : s.step? l = some s') (ht : ∀ around, l ≠ .turn t around)
    (h : s'.Owes t id) : s.Owes t id := by
  obtain ⟨⟨work, hw⟩, hu⟩ := h
  rw [unitsOf_step hs ht] at hw
  obtain ⟨u, hid, -, -⟩ := unitsOf_eq_some.1 hw
  obtain ⟨moves, hrun⟩ := pool_step hs
  exact ⟨⟨work, hw⟩, Pool.unsettled_run hrun (List.getElem?_eq_some_iff.1 hid).1 hu⟩

/-- A task that is dropped owes nothing any more. -/
theorem not_dropped {task : Task} (htask : s.tasks[t]? = some task) :
    ¬(s.dropTask t).Owes t id := by
  rintro ⟨⟨work, hw⟩, hu⟩
  rw [pool_dropTask htask] at hw hu
  rw [unitsOf_dropAll] at hw
  obtain ⟨u, hid, ho, -⟩ := unitsOf_eq_some.1 hw
  refine hu.of_dropAll (List.mem_filter.2 ⟨?_, ?_⟩)
  · exact List.mem_range.2 (List.getElem?_eq_some_iff.1 hid).1
  · rw [hid, Option.bind_some, ho]
    exact beq_self_eq_true _

/-- A unit that a task owes after an answer, its program owes as well, if it did before. -/
theorem respond (h : s.Owes t id → id ∈ g.owed) {around : Surroundings} {q : Ask}
    {a : q.Answer} (hs : s.respond t around q = some (a, s')) (ho : s'.Owes t id) :
    id ∈ (g.after q a).owed := by
  cases q with
  | lock => cases hs
  | spawn work =>
      cases hs
      obtain ⟨⟨w, hw⟩, hu⟩ := ho
      rcases Pool.Unsettled.of_spawn hu with rfl | hu
      · exact List.mem_cons_self
      · have hlt : id < s.pool.units.length := by
          obtain ⟨u, hid, -⟩ := hu
          exact (List.getElem?_eq_some_iff.1 hid).1
        have hw : unitsOf (s.pool.spawn (some t) work).2 t id = some w := hw
        rw [unitsOf_spawn, if_pos rfl, Units.add, if_neg (Nat.ne_of_lt hlt)] at hw
        exact List.mem_cons_of_mem _ (h ⟨⟨w, hw⟩, hu⟩)
  | abandon i =>
      cases hs
      obtain ⟨⟨w, hw⟩, hu⟩ := ho
      obtain ⟨hne, hu⟩ := Pool.Unsettled.of_drop hu
      have hw : unitsOf (s.pool.drop i) t id = some w := hw
      rw [unitsOf_drop] at hw
      exact List.mem_filter.2 ⟨h ⟨⟨w, hw⟩, hu⟩, by simpa using hne⟩
  | join i limit =>
      obtain ⟨rfl, hj | ⟨-, rfl, -⟩⟩ := respond_join.1 hs
      · have hne : id ≠ i := by
          rintro rfl
          exact Pool.settled_of_joined hj ho.2
        cases (a : Pool.Joined Bool) with
        | timedOut => exact h ho
        | value | panicked | refused => exact List.mem_filter.2 ⟨h ho, by simpa using hne⟩
      · exact h ho
  | call k =>
      cases hs
      exact Careful.owed_call g k _ ▸ h ho
  | _ =>
      cases hs
      exact h ho

end Machine.Owes

/-! ### Tidied machines -/

/-- **What a task owes, its program knows of**, and no unit belongs to a task that is still to
come. -/
structure Tidied (s : Machine) : Prop where
  tasks : ∀ t task, s.tasks[t]? = some task →
    ∃ g : Grip, Tidy g task.program ∧ ∀ id, s.Owes t id → id ∈ g.owed
  known : ∀ t id, s.Owes t id → ∃ task, s.tasks[t]? = some task

namespace Tidied

theorem fresh (limits : Limits) (poolSize : Nat) (store : Store.Persisted) :
    Tidied (Machine.fresh limits poolSize store) where
  tasks _ _ htask := by cases htask
  known _ _ h := by
    obtain ⟨u, hu, -⟩ := owes_iff.1 h
    cases hu

/-- A task that is done owes nothing. -/
theorem not_owes (h : Tidied s) {task : Task} (htask : s.tasks[t]? = some task) {r : Reply}
    (hp : task.program = .done r) (id : UnitId) : ¬s.Owes t id := by
  intro ho
  obtain ⟨g, htidy, hg⟩ := h.tasks t task htask
  rw [hp] at htidy
  have hnone : g.owed = [] := htidy
  exact List.not_mem_nil (hnone ▸ hg id ho)

/-- A turn of a task leaves what it owes with it. -/
theorem turn (h : Tidied s) {around : Surroundings} (hs : s.turn? t around = some s')
    {task : Task} (htask : s'.tasks[t]? = some task) :
    ∃ g : Grip, Tidy g task.program ∧ ∀ id, s'.Owes t id → id ∈ g.owed := by
  obtain ⟨old, hold, -, hturn⟩ := turn?_cases hs
  obtain ⟨g, htidy, hg⟩ := h.tasks t old hold
  cases hturn with
  | @reads _ _ _ e _ hp =>
      have owed : ∀ id, ¬s.Owes t id := h.not_owes hold hp
      have hnew :=
        Machine.tasks_goOn_self ((Program.react s.limits e).bind fun _ => Task.idle) hold
      obtain rfl := Option.some.inj (hnew.symm.trans htask)
      exact ⟨{}, .bind (tidy_react s.limits e) fun _ => rfl, fun id ho => absurd ho (owed id)⟩
  | ends =>
      obtain ⟨hlt, hset⟩ := List.getElem?_eq_some_iff.1 htask
      obtain rfl : { old with alive := false } = task := by
        rw [← hset]
        exact (List.getElem_set_self _).symm
      exact ⟨g, htidy, hg⟩
  | @enters next hp =>
      rw [hp] at htidy
      obtain rfl := Option.some.inj
        ((Machine.tasks_goOn_self (next ()) hold).symm.trans htask)
      exact ⟨_, htidy (), hg⟩
  | queues =>
      obtain rfl := Option.some.inj (hold.symm.trans htask)
      exact ⟨g, htidy, hg⟩
  | @answered q next a s₁ hp _ hs₁ =>
      rw [hp] at htidy
      obtain rfl := Option.some.inj
        ((Machine.tasks_goOn_self (next a) (tasks_respond hs₁ hold)).symm.trans htask)
      refine ⟨_, htidy a, fun id ho => ?_⟩
      have ho : s₁.Owes t id := ho
      exact ho.respond (hg id) hs₁

/-- A task that is new owes nothing: nothing was handed in for it before. -/
theorem newcomer (h : Tidied s) (hs : s.step? l = some s') (ht : ∀ around, l ≠ .turn t around)
    (hold : s.tasks[t]? = none) {task : Task} (htask : s'.tasks[t]? = some task) :
    ∃ g : Grip, Tidy g task.program ∧ ∀ id, s'.Owes t id → id ∈ g.owed := by
  have owed : ∀ id, ¬s'.Owes t id := by
    intro id ho
    obtain ⟨old, hold'⟩ := h.known t id (ho.of_step hs ht)
    exact absurd (hold.symm.trans hold') nofun
  refine ⟨{}, ?_, fun id ho => absurd ho (owed id)⟩
  have hnew := continues_step hs htask
  generalize task.program = p, task.registration = registration at hnew
  cases hnew with
  | called op => exact op.tidy s.limits
  | spawned => exact rfl
  | dropped hold' | stays hold' | reacts hold' | entered hold' | answered hold' =>
      exact absurd (hold.symm.trans hold') nofun

/-- A step that is not its turn leaves a task as it is, or drops it. -/
theorem aside (h : Tidied s) (hs : s.step? l = some s') (ht : ∀ around, l ≠ .turn t around)
    {old task : Task} (hold : s.tasks[t]? = some old) (htask : s'.tasks[t]? = some task) :
    ∃ g : Grip, Tidy g task.program ∧ ∀ id, s'.Owes t id → id ∈ g.owed := by
  by_cases hd : l = .drop t
  · subst hd
    obtain ⟨-, -, -, rfl⟩ := step?_drop hs
    obtain rfl := Option.some.inj ((tasks_dropTask_self hold).symm.trans htask)
    exact ⟨{}, rfl, fun id ho => absurd ho (Machine.Owes.not_dropped hold)⟩
  · obtain ⟨hsame, -⟩ := task_step hs ht hd hold
    obtain rfl := Option.some.inj (hsame.symm.trans htask)
    obtain ⟨g, htidy, hg⟩ := h.tasks t old hold
    exact ⟨g, htidy, fun id ho => hg id (ho.of_step hs ht)⟩

/-- **Every step leaves what tasks owe with them.** -/
theorem step (h : Tidied s) (hs : s.step? l = some s') : Tidied s' where
  tasks t task htask := by
    by_cases hturn : ∃ around, l = .turn t around
    · obtain ⟨around, rfl⟩ := hturn
      exact h.turn hs htask
    have ht : ∀ around, l ≠ .turn t around := fun around he => hturn ⟨around, he⟩
    cases hold : s.tasks[t]? with
    | none => exact h.newcomer hs ht hold htask
    | some old => exact h.aside hs ht hold htask
  known t id ho := by
    have old : ∃ task, s.tasks[t]? = some task := by
      by_cases hturn : ∃ around, l = .turn t around
      · obtain ⟨around, rfl⟩ := hturn
        obtain ⟨task, htask, -⟩ := turn?_alive hs
        exact ⟨task, htask⟩
      · exact h.known t id (ho.of_step hs fun around he => hturn ⟨around, he⟩)
    obtain ⟨task, htask⟩ := old
    exact exists_task_step hs htask

/-- **Every run leaves what tasks owe with them.** -/
theorem run (h : Tidied s) {labels : List Label} (hs : s.run? labels = some s') : Tidied s' := by
  induction labels generalizing s with
  | nil =>
      obtain rfl := Option.some.inj hs
      exact h
  | cons l labels ih =>
      obtain ⟨s₁, hs₁, hs⟩ := Option.bind_eq_some_iff.1 hs
      exact ih (h.step hs₁) hs

end Tidied

/-! ### Tasks that are over -/

/-- A task that was dropped never goes on. -/
theorem dropped_run {labels : List Label} (h : s.run? labels = some s') {task : Task}
    (htask : s.tasks[t]? = some task) (ha : task.alive = false) {r : Reply}
    (hp : task.program = .done r) : s'.tasks[t]? = some task := by
  induction labels generalizing s with
  | nil =>
      obtain rfl := Option.some.inj h
      exact htask
  | cons l labels ih =>
      obtain ⟨s₁, hs, h⟩ := Option.bind_eq_some_iff.1 h
      refine ih h (task_step hs ?_ ?_ htask).1
      · rintro around rfl
        obtain ⟨task', htask', ha'⟩ := turn?_alive hs
        obtain rfl := Option.some.inj (htask.symm.trans htask')
        exact nomatch ha.symm.trans ha'
      · rintro rfl
        obtain ⟨task', htask', hw, -⟩ := step?_drop hs
        obtain rfl := Option.some.inj (htask.symm.trans htask')
        simp [Task.isSuspended, hp] at hw

/-- A task that was dropped at some time is done. -/
theorem reply?_of_dropped {s₀ : Machine} {labels : List Label} (h : s₀.run? labels = some s)
    (hd : .drop t ∈ labels) : s.reply? t ≠ none := by
  obtain ⟨before, after, rfl⟩ := List.append_of_mem hd
  rw [Machine.run?, List.foldlM_append] at h
  obtain ⟨s₁, -, h⟩ := Option.bind_eq_some_iff.1 h
  obtain ⟨s₂, hs, h⟩ := Option.bind_eq_some_iff.1 h
  obtain ⟨task, htask, -, rfl⟩ := step?_drop hs
  rw [Machine.reply?, dropped_run h (tasks_dropTask_self htask) rfl rfl]
  intro hn
  cases hn

/-- **A task has left nothing behind.** -/
structure Machine.NothingLeft (s : Machine) (t : TaskId) : Prop where
  /-- No unit of work that it has handed in waits or is at work. -/
  settled : ∀ (id : UnitId) u, s.pool.units[id]? = some u → u.owner = some t →
    Pool.Settles u.stage
  /-- Every permit is free, or held by a unit that somebody else has handed in, -/
  permits : s.pool.free +
    s.pool.units.countP (fun u => Pool.isRunning u && u.owner != some t) = s.pool.size
  /-- and a task that has handed in a unit that waits or is at work still goes on. -/
  holders : ∀ (id : UnitId) u i, s.pool.units[id]? = some u → ¬Pool.Settles u.stage →
    u.owner = some i → ∃ task, s.tasks[i]? = some task ∧ task.reply? = none

theorem not_settles_iff {u : WorkUnit Work Bool} :
    ¬Pool.Settles u.stage ↔ Pool.isWaiting u = true ∨ Pool.isRunning u = true := by
  rw [Pool.isWaiting_iff, Pool.isRunning_iff, Pool.Settles, Decidable.not_and_iff_not_or_not,
    Decidable.not_not, Decidable.not_not]

/-- **No worker is left behind.**  However tasks, workers, whoever else uses the pool, and time
interleave, and whatever collaborators answer: once a task has returned, or was dropped, nothing
that it has handed in waits or is at work, and it holds no permit. -/
theorem no_worker_leaks {limits : Limits} {poolSize : Nat} {store : Store.Persisted}
    {labels : List Label} (h : (Machine.fresh limits poolSize store).run? labels = some s)
    (hover : s.reply? t ≠ none ∨ .drop t ∈ labels) :
    s.NothingLeft t ∧ s.pool.size = max poolSize Pool.leastSize := by
  have tidied := (Tidied.fresh limits poolSize store).run h
  obtain ⟨moves, hmoves⟩ := pool_run h
  have sound : s.pool.Sound := (Pool.Sound.ofSize poolSize).run hmoves
  have hreply : s.reply? t ≠ none := by
    rcases hover with hreply | hd
    · exact hreply
    · exact reply?_of_dropped h hd
  obtain ⟨r, hreply⟩ := Option.ne_none_iff_exists'.1 hreply
  obtain ⟨task, htask, hr⟩ := Option.bind_eq_some_iff.1 hreply
  have hp : task.program = .done r := by
    unfold Task.reply? at hr
    split at hr
    case h_1 hp => exact Option.some.inj hr ▸ hp
    case h_2 => cases hr
  have settled : ∀ (id : UnitId) u, s.pool.units[id]? = some u → u.owner = some t →
      Pool.Settles u.stage := by
    intro id u hu ho
    refine Classical.byContradiction fun hn => tidied.not_owes htask hp id ?_
    exact owes_iff.2 ⟨u, hu, ho, not_settles_iff.1 hn⟩
  refine ⟨⟨settled, ?_, ?_⟩, Pool.size_run hmoves⟩
  · rw [← sound.permits, Pool.running]
    refine congrArg (s.pool.free + ·) (List.countP_congr fun u hu => ?_)
    obtain ⟨id, hid⟩ := List.getElem?_of_mem hu
    have others : Pool.isRunning u = true → u.owner ≠ some t := by
      intro hr ho
      exact (settled id u hid ho).2 (Pool.isRunning_iff.1 hr)
    simpa using others
  · intro id u i hu hn ho
    have howes : s.Owes i id := owes_iff.2 ⟨u, hu, ho, not_settles_iff.1 hn⟩
    obtain ⟨other, hother⟩ := tidied.known i id howes
    refine ⟨other, hother, ?_⟩
    cases hprogram : other.program with
    | done r => exact absurd howes (tidied.not_owes hother hprogram id)
    | ask q next => rw [Task.reply?, hprogram]

/-- The checks of a first start hang until their limit, and it fails.  A second one is dropped while
its proxy starts, and somebody else has work in the pool then. -/
def crowding : List Label :=
  [.call (.start "first" completeTunnel.config), .call (.start "second" completeTunnel.config)] ++
    List.replicate 7 (.turn 0 {}) ++ carryOut 0 true ++ List.replicate 6 (.turn 0 {}) ++
    [.ask 1, .begin 1, .ask 2, .begin 2, .ask 3, .begin 3, .elapse 50] ++
    List.replicate 19 (.turn 0 {}) ++ List.replicate 7 (.turn 1 {}) ++
    [.occupy (.errand "backup"), .ask 5, .ask 4, .begin 4, .begin 5, .drop 1]

def crowdedService : Machine :=
  ((Machine.fresh { proxyStart := some 40, probe := some 30 } 4 {}).run? crowding).get (by rfl)

/-- Neither of them has left anything behind, and three of four permits are free. -/
theorem crowded_pool_recovers :
    crowdedService.NothingLeft 0 ∧ crowdedService.NothingLeft 1 ∧ crowdedService.pool.free = 3 := by
  have h : (Machine.fresh { proxyStart := some 40, probe := some 30 } 4 {}).run? crowding =
      some crowdedService := (Option.some_get _).symm
  have returned : (crowdedService.reply? 0).isSome = true := rfl
  have dropped : Label.drop 1 ∈ crowding := by simp [crowding]
  exact ⟨(no_worker_leaks h (.inl (Option.isSome_iff_ne_none.1 returned))).1,
    (no_worker_leaks h (.inr dropped)).1, rfl⟩

end TunnelKeeper.Service
