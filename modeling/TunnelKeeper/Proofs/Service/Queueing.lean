import TunnelKeeper.Proofs.Service.Moves

/-!
# Queueing — who waits for the lock

The tasks in the queue ask for the lock, each of them once, and none of them has it
(`Machine.Queues`).  That depends on no program, nor on who is dropped: a task that ends early
leaves the queue, and if it has the lock that goes to the next one.  So whoever is handed the lock
asks for it still, and the lock is free until it goes on (`Machine.Queues.atRest_passed`).

* `Machine.Queues.step`: every step keeps the queue.
* `Reach.queues`: so does every run, with any steps.
-/

namespace TunnelKeeper.Service

variable {s s' : Machine} {t i : TaskId}

/-- **The queue for the lock.** -/
structure Machine.Queues (s : Machine) : Prop where
  asks : ∀ t ∈ s.queue, s.AtLock t
  apart : ∀ t ∈ s.queue, s.holder ≠ some t
  once : s.queue.Nodup
  free : s.holder = none → s.queue = []

/-- A task that asks for something else is not in the queue. -/
theorem Machine.not_atLock_of_ask {task : Task} {q : Ask} {next : q.Answer → Program Reply}
    (htask : s.tasks[t]? = some task) (hp : task.program = .ask q next) (hq : q ≠ .lock) :
    ¬s.AtLock t := by
  rintro ⟨task', next', htask', -, hp'⟩
  obtain rfl := Option.some.inj (htask.symm.trans htask')
  rw [hp] at hp'
  cases hp'
  exact hq rfl

theorem Machine.not_atLock_of_done {task : Task} {r : Reply} (htask : s.tasks[t]? = some task)
    (hp : task.program = .done r) : ¬s.AtLock t := by
  rintro ⟨task', next', htask', -, hp'⟩
  obtain rfl := Option.some.inj (htask.symm.trans htask')
  exact nomatch hp.symm.trans hp'

/-- A task that ends early leaves the queue, and hands on the lock if it has it. -/
theorem lock_dropTask {task : Task} (htask : s.tasks[t]? = some task) :
    ((s.dropTask t).holder =
      if s.holder = some t then (s.queue.filter (· != t)).head? else s.holder) ∧
    (s.dropTask t).queue =
      if s.holder = some t then (s.queue.filter (· != t)).tail else s.queue.filter (· != t) := by
  by_cases hh : s.holder = some t
  · simp only [Machine.dropTask, htask, Machine.setTask, hh, beq_self_eq_true, if_true]
    split <;> exact ⟨rfl, rfl⟩
  · have hb : (s.holder == some t) = false := by simpa using hh
    simp only [Machine.dropTask, htask, Machine.setTask, hb, hh, Bool.false_eq_true, if_false]
    split <;> exact ⟨rfl, rfl⟩

namespace Machine.Queues

theorem fresh (limits : Limits) (poolSize : Nat) (store : Store.Persisted) :
    (Machine.fresh limits poolSize store).Queues :=
  ⟨nofun, nofun, .nil, fun _ => rfl⟩

/-- Some leave the queue, and those who stay still ask. -/
theorem shrink (h : s.Queues) (hh : s'.holder = s.holder) (hq : s'.queue.Sublist s.queue)
    (ht : ∀ i ∈ s'.queue, s'.tasks[i]? = s.tasks[i]?) : s'.Queues where
  asks i hi := (atLock_congr (ht i hi)).2 (h.asks i (hq.mem hi))
  apart i hi := hh ▸ h.apart i (hq.mem hi)
  once := h.once.sublist hq
  free hn := List.sublist_nil.1 (h.free (hh ▸ hn) ▸ hq)

/-- A task that is not in the queue goes on. -/
theorem goesOn (h : s.Queues) (hn : ¬s.AtLock t) (hh : s'.holder = s.holder)
    (hq : s'.queue = s.queue) (ht : ∀ i, t ≠ i → i ∈ s.queue → s'.tasks[i]? = s.tasks[i]?) :
    s'.Queues :=
  h.shrink hh (hq ▸ .refl _) fun i hi => ht i (fun he => hn (he ▸ h.asks i (hq ▸ hi))) (hq ▸ hi)

/-- The lock goes to the head of the queue. -/
theorem passLock (h : s.Queues) : s.passLock.Queues where
  asks i hi := h.asks i (List.mem_of_mem_tail hi)
  apart i hi hh := by
    have hi : i ∈ s.queue.tail := hi
    have hh : s.queue.head? = some i := hh
    have hn := h.once
    cases hq : s.queue with
    | nil =>
        rw [hq] at hi
        cases hi
    | cons j queue =>
        rw [hq] at hi hh hn
        obtain rfl := Option.some.inj hh
        exact (List.nodup_cons.1 hn).1 hi
  once := h.once.sublist (List.tail_sublist _)
  free hn := by
    show s.queue.tail = []
    rw [List.head?_eq_none_iff.1 (show s.queue.head? = none from hn)]
    rfl

/-- **The lock is free when it was handed on**: whoever is next has not gone on. -/
theorem atRest_passed (h : s.Queues) (hh : s'.holder = s.queue.head?)
    (ht : ∀ i ∈ s.queue, s'.tasks[i]? = s.tasks[i]?) : s'.AtRest := by
  intro i hi
  have hm : i ∈ s.queue := List.mem_of_head? (hh.symm.trans hi.1)
  exact hi.2 ((atLock_congr (ht i hm)).2 (h.asks i hm))

/-- A task that asks for the lock gets it, or waits. -/
theorem takeLock (h : s.Queues) {task : Task} {next : Unit → Program Reply}
    (htask : s.tasks[t]? = some task) (ha : task.alive = true)
    (hp : task.program = .ask .lock next) {p : Program Reply} (hs : s.takeLock t p = some s') :
    s'.Queues := by
  obtain ⟨hh, rfl⟩ | ⟨⟨hn, hne, hm⟩, rfl⟩ := takeLock_cases hs
  · have hm : ∀ i ∈ s.queue, t ≠ i := by
      rintro i hi rfl
      rcases hh with hh | hh
      · rw [h.free hh] at hi
        cases hi
      · exact h.apart t hi hh
    exact ⟨fun i hi => (atLock_congr (tasks_goOn_other s p (hm i hi))).2 (h.asks i hi),
      fun i hi he => hm i hi (Option.some.inj he), h.once, nofun⟩
  · refine ⟨fun i hi => ?_, fun i hi => ?_, ?_, fun hf => absurd hf hn⟩
    · rcases List.mem_append.1 hi with hi | hi
      · exact h.asks i hi
      · rw [List.mem_singleton.1 hi]
        exact ⟨task, next, htask, ha, hp⟩
    · rcases List.mem_append.1 hi with hi | hi
      · exact h.apart i hi
      · rw [List.mem_singleton.1 hi]
        exact hne
    · refine List.nodup_append.2 ⟨h.once, by simp, fun i hi j hj => ?_⟩
      rw [List.mem_singleton.1 hj]
      rintro rfl
      exact hm hi

/-- A task ends early: it leaves the queue, and the lock goes on if it has it. -/
theorem dropTask (h : s.Queues) (t : TaskId) : (s.dropTask t).Queues := by
  cases htask : s.tasks[t]? with
  | none =>
      rw [Machine.dropTask, htask]
      exact h
  | some task =>
      have other : ∀ i ∈ s.queue.filter (· != t), (s.dropTask t).tasks[i]? = s.tasks[i]? := by
        intro i hi
        have hne : i ≠ t := by simpa using (List.mem_filter.1 hi).2
        rw [tasks_dropTask htask]
        exact List.getElem?_set_ne hne.symm
      obtain ⟨hh, hq⟩ := lock_dropTask htask
      have left : ({ s with queue := s.queue.filter (· != t) } : Machine).Queues :=
        h.shrink rfl List.filter_sublist fun _ _ => rfl
      split at hq
      case isTrue hi =>
        rw [if_pos hi] at hh
        exact left.passLock.shrink hh (hq ▸ .refl _) fun i hi =>
          other i (List.mem_of_mem_tail (hq ▸ hi))
      case isFalse hi =>
        rw [if_neg hi] at hh
        exact left.shrink hh (hq ▸ .refl _) fun i hi => other i (hq ▸ hi)

/-- The lock is free when the task that has it has ended early. -/
theorem atRest_dropTask (h : s.Queues) {task : Task} (htask : s.tasks[t]? = some task)
    (hh : s.holder = some t) : (s.dropTask t).AtRest := by
  have hm : ∀ i ∈ s.queue, i ≠ t := fun i hi he => h.apart i hi (he ▸ hh)
  have hq : s.queue.filter (· != t) = s.queue :=
    List.filter_eq_self.2 fun i hi => by simpa using hm i hi
  refine h.atRest_passed ?_ fun i hi => ?_
  · rw [(lock_dropTask htask).1, if_pos hh, hq]
  · rw [tasks_dropTask htask]
    exact List.getElem?_set_ne (hm i hi).symm

/-- A task is answered, whatever it asks but the lock. -/
theorem answered (h : s.Queues) {around : Surroundings} {task : Task} {q : Ask}
    {next : q.Answer → Program Reply} (htask : s.tasks[t]? = some task)
    (hp : task.program = .ask q next) (hq : q ≠ .lock) {a : q.Answer}
    (hs : s.respond t around q = some (a, s')) : (s'.goOn t (next a)).Queues := by
  have hn := not_atLock_of_ask htask hp hq
  by_cases hu : q = .unlock
  · subst hu
    cases hs
    exact h.passLock.goesOn hn rfl rfl fun i hi _ => tasks_goOn_other _ _ hi
  · obtain ⟨hh, hqueue⟩ := holder_respond hu hs
    refine h.goesOn hn hh hqueue fun i hi hm => (tasks_goOn_other s' _ hi).trans ?_
    obtain ⟨other, -, hother, -⟩ := h.asks i hm
    rw [hother, tasks_respond hs hother]

/-- A task takes a turn. -/
theorem turn (h : s.Queues) {around : Surroundings} (hs : s.turn? t around = some s') :
    s'.Queues := by
  obtain ⟨task, htask, ha⟩ := turn?_alive hs
  cases hp : task.program with
  | done r =>
      have hn := not_atLock_of_done htask hp
      rw [turn?_eq htask ha, hp] at hs
      obtain ⟨registration, channel, -, ⟨e, rest, -, rfl⟩ | rfl⟩ := receive_cases hs
      · exact h.goesOn hn rfl rfl fun i hi _ => tasks_goOn_other s _ hi
      · exact h.goesOn hn rfl rfl fun i hi _ => List.getElem?_set_ne hi
  | ask q next =>
      by_cases hq : q = .lock
      · subst hq
        rw [turn?_lock htask ha hp] at hs
        exact h.takeLock htask ha hp hs
      · obtain ⟨a, s₁, hs₁, rfl⟩ := turn?_ask htask ha hp hq hs
        exact h.answered htask hp hq hs₁

/-- **Every step keeps the queue.** -/
theorem step (h : s.Queues) {l : Label} (hs : s.step? l = some s') : s'.Queues := by
  cases l with
  | call op =>
      obtain rfl := Option.some.inj hs
      refine h.shrink rfl (.refl _) fun i hi => ?_
      obtain ⟨task, -, htask, -⟩ := h.asks i hi
      exact List.getElem?_append_left (List.getElem?_eq_some_iff.1 htask).1
  | turn t around => exact h.turn hs
  | ask id =>
      obtain ⟨pool, -, rfl⟩ := step?_ask hs
      exact h.shrink rfl (.refl _) fun _ _ => rfl
  | begin id =>
      obtain ⟨pool, u, -, -, rfl⟩ := begin?_eq_some.1 hs
      exact h.shrink rfl (.refl _) fun _ _ => rfl
  | finish | panic =>
      obtain ⟨u, -, -, rfl⟩ := end?_eq_some.1 hs
      exact h.shrink rfl (.refl _) fun _ _ => rfl
  | deliver registration e =>
      obtain rfl := step?_deliver hs
      exact h.shrink rfl (.refl _) fun _ _ => rfl
  | drop t =>
      obtain ⟨-, -, -, rfl⟩ := step?_drop hs
      exact h.dropTask t
  | silence | occupy | vacate | closePool | elapse =>
      obtain rfl := Option.some.inj hs
      exact h.shrink rfl (.refl _) fun _ _ => rfl

end Machine.Queues

/-- **Every run keeps the queue**, whatever its steps. -/
theorem Reach.queues {rule : Machine → Label → Prop} {s₀ : Machine} (h₀ : s₀.Queues)
    (h : Reach rule s₀ s) : s.Queues := by
  induction h with
  | start => exact h₀
  | step _ _ hs ih => exact ih.step hs

end TunnelKeeper.Service
