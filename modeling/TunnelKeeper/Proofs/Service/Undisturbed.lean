import TunnelKeeper.Proofs.Service.Addresses
import TunnelKeeper.Proofs.Service.Assuming
import TunnelKeeper.Proofs.Service.Attended

/-!
# Undisturbed tasks — steps while nobody else gets the lock

Whatever a step is, the units of a task stay what they are (`unitsOf_step`), and a task goes on only
by its own turns (`task_step`).  While nobody else gets the lock (`Machine.Undisturbed`), a custody
that is at rest stays as it is, too (`atRest_step`).

`Reach.of_checkedRun?`: a run that is checked step by step, as an undisturbed one can be
(`Machine.undisturbed_of_check`), is a run of the kind that is checked for.
-/

namespace TunnelKeeper.Service

/-! ### Units stay what they are -/

/-- The units that a task has handed in. -/
def unitsOf (pool : Pool Work Bool) (t : TaskId) : Units := fun id =>
  (pool.units[id]?.filter fun u => u.owner == some t).map (·.work)

theorem unitsOf_congr {pool pool' : Pool Work Bool} {t : TaskId}
    (h : ∀ id : UnitId, ∃ change : WorkUnit Work Bool → Stage Bool,
      pool'.units[id]? = pool.units[id]?.map fun u => { u with stage := change u }) :
    unitsOf pool' t = unitsOf pool t := by
  funext id
  obtain ⟨change, hid⟩ := h id
  unfold unitsOf
  rw [hid]
  cases pool.units[id]? with
  | none => rfl
  | some u => cases ho : u.owner == some t <;> simp [Option.filter, ho]

theorem unitsOf_setStage (pool : Pool Work Bool) (id : UnitId) (stage : Stage Bool) (t : TaskId) :
    unitsOf (pool.setStage id stage) t = unitsOf pool t := by
  refine unitsOf_congr fun i => ⟨fun u => if id = i then stage else u.stage, ?_⟩
  rw [Tracks.units_setStage]
  congr 1
  funext u
  split <;> rfl

theorem unitsOf_of_units {pool pool' : Pool Work Bool} (h : pool'.units = pool.units) (t : TaskId) :
    unitsOf pool' t = unitsOf pool t := by
  unfold unitsOf
  rw [h]

theorem unitsOf_drop (pool : Pool Work Bool) (id : UnitId) (t : TaskId) :
    unitsOf (pool.drop id) t = unitsOf pool t := by
  rcases Tracks.drop_cases pool id with ⟨h, -⟩ | ⟨u, -, -, h⟩
  · rw [h]
  · rw [unitsOf_of_units h, unitsOf_setStage]

theorem unitsOf_dropAll (pool : Pool Work Bool) (owner : TaskId) (t : TaskId) :
    unitsOf (pool.dropAll owner) t = unitsOf pool t := by
  unfold Pool.dropAll
  generalize List.range pool.units.length = ids
  suffices h : ∀ q : Pool Work Bool, unitsOf (ids.foldl (fun q id =>
      if (pool.units[id]?.bind (·.owner)) == some owner then q.drop id else q) q) t =
        unitsOf q t from h pool
  induction ids with
  | nil => exact fun _ => rfl
  | cons id ids ih =>
      intro q
      rw [List.foldl_cons, ih]
      split
      · exact unitsOf_drop q id t
      · rfl

theorem unitsOf_close (pool : Pool Work Bool) (t : TaskId) :
    unitsOf pool.close t = unitsOf pool t := by
  refine unitsOf_congr fun i => ⟨fun u => if Pool.isWaiting u then .refused else u.stage, ?_⟩
  rw [Tracks.units_close]
  congr 1
  funext u
  cases hw : Pool.isWaiting u <;> simp [hw]

theorem unitsOf_length (pool : Pool Work Bool) (t : TaskId) :
    unitsOf pool t pool.units.length = none := by
  simp [unitsOf]

theorem unitsOf_spawn (pool : Pool Work Bool) (owner : Option Nat) (work : Work) (t : TaskId) :
    unitsOf (pool.spawn owner work).2 t =
      if owner = some t then (unitsOf pool t).add pool.units.length work else unitsOf pool t := by
  funext id
  have hid : unitsOf (pool.spawn owner work).2 t id =
      if id = pool.units.length then (if owner = some t then some work else none)
      else unitsOf pool t id := by
    unfold unitsOf
    rw [Tracks.units_spawn]
    split
    · by_cases ho : owner = some t <;> simp [Option.filter, ho]
    · rfl
  rw [hid]
  by_cases ho : owner = some t
  · rw [if_pos ho, if_pos ho, Units.add]
  · rw [if_neg ho, if_neg ho]
    split
    case isTrue h => rw [h, unitsOf_length]
    case isFalse => rfl

theorem unitsOf_release (pool : Pool Work Bool) (id : UnitId) (stage : Stage Bool) (t : TaskId) :
    unitsOf (pool.release id stage) t = unitsOf pool t := by
  unfold Pool.release
  split
  · split
    · exact (unitsOf_of_units rfl t).trans (unitsOf_setStage pool id stage t)
    · rfl
  · rfl

variable {s s' : Machine} {t : TaskId} {l : Label}

theorem unitsOf_respond {i : TaskId} {around : Surroundings} {q : Ask} {a : q.Answer}
    (hs : s.respond i around q = some (a, s')) (t : TaskId) :
    unitsOf s'.pool t =
      if i = t then (unitsOf s.pool t).after q a else unitsOf s.pool t := by
  have same (hp : s'.pool = s.pool) (ha : (unitsOf s.pool t).after q a = unitsOf s.pool t) :
      unitsOf s'.pool t = if i = t then (unitsOf s.pool t).after q a else unitsOf s.pool t := by
    rw [hp, ha, ite_self]
  cases q with
  | lock => cases hs
  | spawn work =>
      cases hs
      refine (unitsOf_spawn s.pool (some i) work t).trans ?_
      simp only [Option.some.injEq]
      rfl
  | abandon id =>
      cases hs
      exact (unitsOf_drop s.pool id t).trans (ite_self _).symm
  | join id limit =>
      obtain ⟨rfl, -⟩ := respond_join.1 hs
      exact same rfl rfl
  | _ =>
      cases hs
      exact same rfl rfl

/-! ### A task that nobody disturbs -/

/-- **A task is undisturbed by a step**: it is not dropped, nobody else gets the lock, it has not
come to its end, and it is answered as assumed. -/
structure Machine.Undisturbed (A : Assumption) (t : TaskId) (s : Machine) (l : Label) : Prop where
  orderly : s.Orderly l
  stays : l ≠ .drop t
  alone : ∀ i around, l = .turn i around → i ≠ t → s.AtLock i →
    s.holder ≠ none ∧ s.holder ≠ some i
  going : ∀ around, l = .turn t around → A.rely around ∧ s.reply? t = none
  given : ∀ around task id limit next u b, l = .turn t around → s.tasks[t]? = some task →
    task.program = .ask (.join id limit) next → s.pool.units[id]? = some u →
    A.outcome u.work = some b → s.pool.joined? id = some (.value b)

/-- What is no turn of a task and drops none disturbs nobody. -/
theorem Machine.Undisturbed.of_no_turn (hl : s.Orderly l) (hd : l ≠ .drop t)
    (ht : ∀ i around, l ≠ .turn i around) : s.Undisturbed A t l where
  orderly := hl
  stays := hd
  alone i around h := absurd h (ht i around)
  going around h := absurd h (ht t around)
  given around _ _ _ _ _ _ h := absurd h (ht t around)

theorem pool_dropTask {i : TaskId} {task : Task} (h : s.tasks[i]? = some task) :
    (s.dropTask i).pool = s.pool.dropAll i := by
  simp only [Machine.dropTask, h]
  split <;> split <;> rfl

/-- What is no turn of a task leaves it the units that it has handed in. -/
theorem unitsOf_step (hs : s.step? l = some s') (ht : ∀ around, l ≠ .turn t around) :
    unitsOf s'.pool t = unitsOf s.pool t := by
  cases l with
  | turn i around =>
      have hi : i ≠ t := by
        rintro rfl
        exact ht around rfl
      obtain ⟨task, -, -, hturn⟩ := turn?_cases hs
      cases hturn with
      | reads | ends | enters | queues => rfl
      | answered _ _ hs₁ => exact (unitsOf_respond hs₁ t).trans (if_neg hi)
  | ask id =>
      obtain ⟨pool, ha, rfl⟩ := step?_ask hs
      obtain ⟨-, -, -, -, rfl⟩ := Pool.ask?_inv ha
      exact unitsOf_of_units rfl t
  | begin id =>
      obtain ⟨pool, u, hb, -, rfl⟩ := begin?_eq_some.1 hs
      obtain ⟨-, -, -, -, rfl⟩ := Pool.begin?_inv hb
      exact (unitsOf_of_units rfl t).trans (unitsOf_setStage s.pool id .running t)
  | finish | panic =>
      obtain ⟨u, -, -, rfl⟩ := end?_eq_some.1 hs
      exact unitsOf_release _ _ _ t
  | deliver registration e =>
      obtain rfl := step?_deliver hs
      rfl
  | drop i =>
      obtain ⟨task, htask, -, rfl⟩ := step?_drop hs
      rw [pool_dropTask htask, unitsOf_dropAll]
  | occupy work =>
      obtain rfl := Option.some.inj hs
      exact (unitsOf_spawn ..).trans (if_neg nofun)
  | vacate id =>
      obtain rfl := Option.some.inj hs
      exact unitsOf_drop ..
  | closePool =>
      obtain rfl := Option.some.inj hs
      exact unitsOf_close ..
  | call | silence | elapse =>
      obtain rfl := Option.some.inj hs
      rfl

/-- What is neither a turn of a task nor drops it leaves the task and its units alone. -/
theorem task_step (hs : s.step? l = some s') (ht : ∀ around, l ≠ .turn t around)
    (hd : l ≠ .drop t) {task : Task} (htask : s.tasks[t]? = some task) :
    s'.tasks[t]? = some task ∧ unitsOf s'.pool t = unitsOf s.pool t := by
  refine ⟨?_, unitsOf_step hs ht⟩
  cases l with
  | call op =>
      obtain rfl := Option.some.inj hs
      exact (List.getElem?_append_left (List.getElem?_eq_some_iff.1 htask).1).trans htask
  | turn i around =>
      have hi : i ≠ t := by
        rintro rfl
        exact ht around rfl
      obtain ⟨other, -, -, hturn⟩ := turn?_cases hs
      cases hturn with
      | reads | enters => exact (Machine.tasks_goOn_other s _ hi).trans htask
      | ends => exact (List.getElem?_set_ne hi).trans htask
      | queues => exact htask
      | @answered _ _ _ s₁ _ _ hs₁ =>
          exact (Machine.tasks_goOn_other s₁ _ hi).trans (tasks_respond hs₁ htask)
  | ask id =>
      obtain ⟨pool, -, rfl⟩ := step?_ask hs
      exact htask
  | begin id =>
      obtain ⟨pool, u, -, -, rfl⟩ := begin?_eq_some.1 hs
      exact htask
  | finish | panic =>
      obtain ⟨u, -, -, rfl⟩ := end?_eq_some.1 hs
      exact htask
  | deliver registration e =>
      obtain rfl := step?_deliver hs
      exact htask
  | drop i =>
      obtain ⟨other, hother, -, rfl⟩ := step?_drop hs
      have hi : i ≠ t := by
        rintro rfl
        exact hd rfl
      rw [tasks_dropTask hother]
      exact (List.getElem?_set_ne hi).trans htask
  | occupy | vacate | closePool | silence | elapse =>
      obtain rfl := Option.some.inj hs
      exact htask

/-- The lock stays where it is in a step in which nobody gets it or gives it back. -/
theorem holder_step {T : Terms} {o : Option Pending} (hk : Kept T s o) (hl : s.Orderly l)
    (hin : ∀ i around, l = .turn i around → ¬s.Inside i)
    (hn : ∀ i around, l = .turn i around → s.AtLock i → s.holder ≠ none ∧ s.holder ≠ some i)
    (hs : s.step? l = some s') : s'.holder = s.holder := by
  cases l with
  | turn i around =>
      obtain ⟨task, htask, ha, hturn⟩ := turn?_cases hs
      cases hturn with
      | reads | ends | queues => rfl
      | @enters next hp hh =>
          exact absurd hh (not_or.2 (hn i around rfl ⟨task, next, htask, ha, hp⟩))
      | @answered q next a s₁ hp _ hs₁ =>
          have hlaw := hk.outside i task htask (hin i around rfl)
          rw [hp] at hlaw
          have hunlock : q ≠ .unlock := by
            rintro rfl
            exact absurd (hlaw.free_of_ne_lock nofun).1 nofun
          exact (holder_respond hunlock hs₁).1
  | ask id =>
      obtain ⟨pool, -, rfl⟩ := step?_ask hs
      rfl
  | begin id =>
      obtain ⟨pool, u, -, -, rfl⟩ := begin?_eq_some.1 hs
      rfl
  | finish | panic =>
      obtain ⟨u, -, -, rfl⟩ := end?_eq_some.1 hs
      rfl
  | deliver registration e =>
      obtain rfl := step?_deliver hs
      rfl
  | drop i =>
      obtain ⟨other, hother, -, rfl⟩ := step?_drop hs
      have hne : s.holder ≠ some i := hl
      have hb : (s.holder == some i) = false := by simpa using hne
      simp only [Machine.dropTask, hother, Machine.setTask, hb]
      split <;> rfl
  | call | silence | occupy | vacate | closePool | elapse =>
      obtain rfl := Option.some.inj hs
      rfl

/-- The lock stays free as long as nobody gets it. -/
theorem atRest_step {T : Terms} {o : Option Pending} (hk : Kept T s o) (hr : s.AtRest)
    (hl : s.Orderly l)
    (hn : ∀ i around, l = .turn i around → s.AtLock i → s.holder ≠ none ∧ s.holder ≠ some i)
    (hs : s.step? l = some s') : s'.AtRest := by
  intro i hi
  have hholder : s.holder = some i :=
    (holder_step hk hl (fun i _ _ => hr i) hn hs).symm.trans hi.1
  -- It was handed to a task that has not gone on since.
  have hlock : s.AtLock i := Classical.not_not.1 fun hlock => hr i ⟨hholder, hlock⟩
  obtain ⟨task, next, htask, ha, hp⟩ := hlock
  refine hi.2 ⟨task, next, (task_step hs (fun around h => ?_) ?_ htask).1, ha, hp⟩
  · exact (hn i around h ⟨task, next, htask, ha, hp⟩).2 hholder
  · rintro rfl
    exact hl hholder

variable {A : Assumption}

/-! ### Runs that are checked -/

/-- Whether a turn of a task finds the unit that it waits for come to what is assumed. -/
def Machine.meetsOutcome (A : Assumption) (t : TaskId) (s : Machine) : Bool :=
  s.tasks[t]?.all fun task => match task.program with
    | .ask (.join id _) _ => (s.pool.units[id]?.bind fun u => A.outcome u.work).all fun b =>
        s.pool.joined? id == some (.value b)
    | _ => true

/-- Whether a step is a turn of a task that has not come to its end, or of a worker. -/
def Machine.isUndisturbed (A : Assumption) (t : TaskId) (s : Machine) : Label → Bool
  | .turn i _ => i == t && (s.reply? t).isNone && s.meetsOutcome A t
  | .ask _ | .begin _ | .finish _ _ => true
  | _ => false

theorem Machine.undisturbed_of_check (h : s.isUndisturbed A t l = true)
    (hr : ∀ i around, l = .turn i around → A.rely around) : s.Undisturbed A t l := by
  cases l with
  | turn i around =>
      simp only [Machine.isUndisturbed, Bool.and_eq_true, beq_iff_eq,
        Option.isNone_iff_eq_none] at h
      obtain ⟨⟨rfl, hgoing⟩, hmeets⟩ := h
      refine ⟨trivial, nofun, fun i' _ hl hne => ?_, fun around' hl => ?_, ?_⟩
      · cases hl
        exact absurd rfl hne
      · cases hl
        exact ⟨hr i around rfl, hgoing⟩
      · intro _ task id limit next u b _ htask hp hu hb
        unfold Machine.meetsOutcome at hmeets
        rw [htask, Option.all_some, hp] at hmeets
        dsimp only at hmeets
        rw [hu, Option.bind_some, hb] at hmeets
        exact beq_iff_eq.1 hmeets
  | ask | begin | finish => exact .of_no_turn trivial nofun (fun _ _ h => nomatch h)
  | _ => cases h

/-- The machine after a list of steps, where all of them are possible and pass a check. -/
def Machine.checkedRun? (check : Machine → Label → Bool) (s : Machine) (labels : List Label) :
    Option Machine :=
  labels.foldlM (fun s l => if check s l then s.step? l else none) s

theorem Reach.of_checkedRun? {rule : Machine → Label → Prop} {check : Machine → Label → Bool}
    {labels : List Label} (hl : ∀ l ∈ labels, ∀ s, check s l = true → rule s l)
    (hs : s.checkedRun? check labels = some s') : Reach rule s s' := by
  induction labels generalizing s with
  | nil =>
      obtain rfl := Option.some.inj hs
      exact .start
  | cons l labels ih =>
      obtain ⟨s₁, hs₁, hs⟩ := Option.bind_eq_some_iff.1 hs
      obtain ⟨hcheck, hs₁⟩ := Option.ite_none_right_eq_some.1 hs₁
      have h₁ : Reach rule s s₁ := Reach.start.step (hl l List.mem_cons_self s hcheck) hs₁
      exact h₁.trans (ih (fun l' hl' => hl l' (List.mem_cons_of_mem l hl')) hs)

end TunnelKeeper.Service
