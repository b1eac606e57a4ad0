import TunnelKeeper.Proofs.Service.Achieving

/-!
# Swapping — a task with another program

No step but its own turns and the one that drops it reads the program of a task.  So a task can be
given another program, and whatever else happens in the machine goes on to happen (`step?_goOn`):
two runs in which only the program of one task differs can be compared label by label.

* `respond_goOn`: questions are answered alike.
* `step?_goOn`: so are all other steps alike.
-/

namespace TunnelKeeper.Service

open Pool (Joined)

variable {s s' : Machine} {t i : TaskId} {l : Label}

/-! ### Tasks -/

theorem modify_append_left {α : Type} {xs : List α} {n : Nat} (h : n < xs.length) (f : α → α)
    (ys : List α) : (xs ++ ys).modify n f = xs.modify n f ++ ys := by
  induction xs generalizing n with
  | nil => exact absurd h (Nat.not_lt_zero n)
  | cons x xs ih =>
      cases n with
      | zero => rfl
      | succ n => exact congrArg (x :: ·) (ih (Nat.lt_of_succ_lt_succ h))

theorem set_modify {α : Type} {m n : Nat} (h : m ≠ n) (xs : List α) (x : α) (f : α → α) :
    (xs.modify n f).set m x = (xs.set m x).modify n f := by
  induction xs generalizing m n with
  | nil => cases n <;> rfl
  | cons y xs ih =>
      cases m <;> cases n
      case zero.zero => exact absurd rfl h
      case zero.succ | succ.zero => rfl
      case succ.succ m n => exact congrArg (y :: ·) (ih (fun he => h (congrArg _ he)))

namespace Machine

@[simp] theorem pool_goOn (s : Machine) (t : TaskId) (p : Program Reply) :
    (s.goOn t p).pool = s.pool := rfl

@[simp] theorem world_goOn (s : Machine) (t : TaskId) (p : Program Reply) :
    (s.goOn t p).world = s.world := rfl

@[simp] theorem holder_goOn (s : Machine) (t : TaskId) (p : Program Reply) :
    (s.goOn t p).holder = s.holder := rfl

@[simp] theorem queue_goOn (s : Machine) (t : TaskId) (p : Program Reply) :
    (s.goOn t p).queue = s.queue := rfl

@[simp] theorem limits_goOn (s : Machine) (t : TaskId) (p : Program Reply) :
    (s.goOn t p).limits = s.limits := rfl

/-- Only the last program counts. -/
theorem goOn_goOn (s : Machine) (t : TaskId) (p p' : Program Reply) :
    (s.goOn t p).goOn t p' = s.goOn t p' := by
  unfold goOn
  rw [List.modify_modify_eq]
  rfl

theorem goOn_comm (s : Machine) (h : i ≠ t) (p p' : Program Reply) :
    (s.goOn t p).goOn i p' = (s.goOn i p').goOn t p := by
  unfold goOn
  rw [List.modify_modify_ne _ _ _ h.symm]

theorem addTask_goOn (ht : t < s.tasks.length) (p : Program Reply) (task : Task) :
    ((s.goOn t p).addTask task).2 = (s.addTask task).2.goOn t p := by
  unfold goOn addTask
  dsimp only
  rw [modify_append_left ht]

theorem setTask_goOn (s : Machine) (h : i ≠ t) (p : Program Reply) (task : Task) :
    (s.goOn t p).setTask i task = (s.setTask i task).goOn t p := by
  unfold goOn setTask
  dsimp only
  rw [set_modify h]

end Machine

/-! ### Questions -/

/-- **A question is answered alike** whichever program a task has. -/
theorem respond_goOn (ht : t < s.tasks.length) (p : Program Reply) (i : TaskId)
    (around : Surroundings) (q : Ask) :
    (s.goOn t p).respond i around q =
      (s.respond i around q).map fun x => (x.1, x.2.goOn t p) := by
  cases q with
  | spawnReactor => exact congrArg (fun s => some ((), s)) (Machine.addTask_goOn ht p _)
  | join id limit =>
      simp only [Machine.respond, Machine.pool_goOn, Machine.world_goOn]
      cases s.pool.joined? id with
      | some joined => rfl
      | none =>
          cases limit with
          | none => rfl
          | some limit =>
              let answer : Joined Bool := .timedOut
              show (if limit ≤ s.world.clock then some (answer, s.goOn t p) else none) =
                Option.map _ (if limit ≤ s.world.clock then some (answer, s) else none)
              split <;> rfl
  | _ => rfl

/-! ### Steps -/

theorem receive_goOn (h : i ≠ t) (p : Program Reply) (task : Task) :
    (s.goOn t p).receive i task = (s.receive i task).map (·.goOn t p) := by
  unfold Machine.receive
  cases task.registration with
  | none => rfl
  | some registration =>
      simp only [Machine.world_goOn, Machine.limits_goOn, Option.bind_eq_bind, Option.bind_some]
      cases s.world.channels[registration]? with
      | none => rfl
      | some channel =>
          simp only [Option.bind_some]
          rcases channel.receive with ⟨e | _ | _, rest⟩
          · simp only [Machine.goOn_comm s h]
            rfl
          · rfl
          · exact congrArg some (Machine.setTask_goOn s h p _)

theorem takeLock_goOn (h : i ≠ t) (p p' : Program Reply) :
    (s.goOn t p).takeLock i p' = (s.takeLock i p').map (·.goOn t p) := by
  unfold Machine.takeLock
  rw [Machine.holder_goOn, Machine.queue_goOn, Machine.goOn_comm s h]
  cases s.holder with
  | none => rfl
  | some holder =>
      dsimp only
      split
      · rfl
      · split <;> rfl

theorem turn?_goOn (ht : t < s.tasks.length) (h : i ≠ t) (p : Program Reply)
    (around : Surroundings) :
    (s.goOn t p).turn? i around = (s.turn? i around).map (·.goOn t p) := by
  have htask : (s.goOn t p).tasks[i]? = s.tasks[i]? := s.tasks_goOn_other p h.symm
  unfold Machine.turn?
  rw [htask]
  cases s.tasks[i]? with
  | none => rfl
  | some task =>
      simp only [Option.bind_eq_bind, Option.bind_some]
      split
      · rfl
      · split
        · exact receive_goOn h p task
        · exact takeLock_goOn h p _
        · rw [respond_goOn ht]
          cases s.respond i around _ with
          | none => rfl
          | some x => exact congrArg some (Machine.goOn_comm _ h p _)

theorem dropTask_goOn (h : i ≠ t) (p : Program Reply) :
    (s.goOn t p).dropTask i = (s.dropTask i).goOn t p := by
  have htask : (s.goOn t p).tasks[i]? = s.tasks[i]? := s.tasks_goOn_other p h.symm
  unfold Machine.dropTask
  rw [htask]
  cases s.tasks[i]? with
  | none => rfl
  | some task =>
      obtain ⟨limits, world, pool, tasks, holder, queue⟩ := s
      dsimp only [Machine.goOn, Machine.setTask]
      rw [set_modify h]
      by_cases hh : (holder == some i) = true
      · simp only [if_pos hh]
        cases task.registration <;> rfl
      · simp only [if_neg hh]
        cases task.registration <;> rfl

theorem end?_goOn (p : Program Reply) (id : UnitId) (result : Option Bool) :
    (s.goOn t p).end? id result = (s.end? id result).map (·.goOn t p) := by
  simp only [Machine.end?, Machine.pool_goOn, Machine.world_goOn, Option.bind_eq_bind]
  cases s.pool.units[id]? with
  | none => rfl
  | some u =>
      simp only [Option.bind_some]
      split <;> rfl

/-- **A step happens alike** whichever program a task has, unless the step is its turn or drops
it. -/
theorem step?_goOn (ht : t < s.tasks.length) (hturn : ∀ around, l ≠ .turn t around)
    (hdrop : l ≠ .drop t) (p : Program Reply) :
    (s.goOn t p).step? l = (s.step? l).map (·.goOn t p) := by
  cases l with
  | turn i around => exact turn?_goOn ht (fun he => hturn around (he ▸ rfl)) p around
  | call op => exact congrArg some (Machine.addTask_goOn ht p _)
  | drop i =>
      have hi : i ≠ t := fun he => hdrop (he ▸ rfl)
      have htask : (s.goOn t p).tasks[i]? = s.tasks[i]? := s.tasks_goOn_other p hi.symm
      simp only [Machine.step?, htask]
      cases s.tasks[i]? with
      | none => rfl
      | some task =>
          dsimp only
          split
          · exact congrArg some (dropTask_goOn hi p)
          · rfl
  | ask id =>
      simp only [Machine.step?, Machine.pool_goOn]
      cases s.pool.ask? id <;> rfl
  | begin id =>
      simp only [Machine.step?, Machine.begin?, Machine.pool_goOn, Machine.world_goOn,
        Option.bind_eq_bind]
      cases s.pool.begin? id with
      | none => rfl
      | some pool => cases hu : pool.units[id]? <;> simp only [Option.bind_some, hu] <;> rfl
  | finish id result => exact end?_goOn p id _
  | panic id => exact end?_goOn p id _
  | deliver registration e =>
      simp only [Machine.step?, Machine.world_goOn, Option.bind_eq_bind]
      cases s.world.channels[registration]? with
      | none => rfl
      | some channel =>
          simp only [Option.bind_some]
          split <;> rfl
  | silence | occupy | vacate | closePool | elapse => rfl

end TunnelKeeper.Service
