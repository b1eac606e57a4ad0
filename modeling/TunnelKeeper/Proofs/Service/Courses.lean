import TunnelKeeper.Proofs.Service.Deadlines
import TunnelKeeper.Proofs.Workers.Precedence

/-!
# Courses — units of work take their time

How long a check takes and what it finds is up to the network.  Here it is given beforehand, for
every unit of work (`Course`), and a task is followed on a passage of its program while all units
keep to their courses (`Timed`).  A unit asks for a permit at once and begins as soon as it has one,
it ends when its time has come, with its result, and no time passes over any of these.  Nobody else
gives up what the task has handed in, and the pool stays open.  Everything else may happen in any
order.

* `Timed.run?_passage`: what happens in time is a run of the machine.
* `Timed.run_invariant`: what every step keeps is kept by every run.
* `OnCourse`: a unit of work is where its course allows it to be.
-/

namespace TunnelKeeper.Service

open Pool (Joined)

variable {α : Type} {s s' : Machine} {t : TaskId} {l : Label} {labels : List Label} {id : UnitId}

/-- **The course of a unit of work**: for how long it is at work, unless it never ends, and its
result; without one it ends abnormally. -/
structure Course where
  span : Option Time
  result : Option Bool
deriving DecidableEq, Repr

/-- When a unit of work ends that began at a time. -/
def Course.due? (c : Course) (since : Time) : Option Time := c.span.map (since + ·)

/-- What joining a unit of work gives that has kept to its course. -/
def Course.joined (c : Course) : Joined Bool :=
  match c.result with
  | some b => .value b
  | none => .panicked

/-- A passage in time; `since` tells when each unit of work has begun. -/
structure Timed (α : Type) extends Passage α where
  since : UnitId → Time

namespace Timed

/-- Whether the time of a unit of work has come, with a result. -/
def isDue (x : Timed α) (courses : UnitId → Course) (id : UnitId) (result : Option Bool) : Bool :=
  (courses id).result == result &&
    ((courses id).due? (x.since id)).any (· ≤ x.machine.world.clock)

/-- Whether a step keeps all units of work to their courses.  Time passes only while none has a
turn to take, and not over the end of any. -/
def keeps (x : Timed α) (courses : UnitId → Course) : Label → Bool
  | .finish id b => x.isDue courses id (some b)
  | .panic id => x.isDue courses id none
  | .elapse span => decide x.machine.pool.Settled &&
      (List.range x.machine.pool.units.length).all fun id =>
        x.machine.pool.stage? id != some .running ||
          ((courses id).due? (x.since id)).all (x.machine.world.clock + span ≤ ·)
  | .closePool => false
  | _ => true

/-- Whether nothing is given up that the task `t` has handed in. -/
def spares (x : Timed α) (t : TaskId) (y : Passage α) : Bool :=
  (List.range x.machine.pool.units.length).all fun id =>
    (unitsOf x.machine.pool t id).isNone || x.machine.pool.stage? id == some .dropped ||
      y.machine.pool.stage? id != some .dropped

/-- When each unit of work has begun, after a step. -/
def sinceAfter (x : Timed α) : Label → UnitId → Time
  | .begin i, id => if i = id then x.machine.world.clock else x.since id
  | _, id => x.since id

/-- One step while the task `t` is on a passage and all units of work keep to their courses. -/
def step? (courses : UnitId → Course) (t : TaskId) (x : Timed α) (l : Label) : Option (Timed α) :=
  (x.toPassage.step? t l).bind fun y =>
    if x.keeps courses l && ((l.turnOf? t).isSome || x.spares t y) then
      some { toPassage := y, since := x.sinceAfter l }
    else none

/-- What a list of steps makes of a passage in time. -/
def run? (courses : UnitId → Course) (t : TaskId) (x : Timed α) (labels : List Label) :
    Option (Timed α) :=
  labels.foldlM (step? courses t) x

variable {courses : UnitId → Course} {x y : Timed α}

/-! ### Steps and runs -/

theorem step?_eq_some : x.step? courses t l = some y ↔
    x.toPassage.step? t l = some y.toPassage ∧ x.keeps courses l = true ∧
      (l.turnOf? t = none → x.spares t y.toPassage = true) ∧ y.since = x.sinceAfter l := by
  have hspares : ∀ b : Bool, ((l.turnOf? t).isSome || b) = true ↔ (l.turnOf? t = none → b = true) := by
    intro b
    cases l.turnOf? t <;> simp
  obtain ⟨p, since⟩ := y
  simp only [step?, Option.bind_eq_some_iff, Option.ite_none_right_eq_some, Bool.and_eq_true,
    hspares, Option.some.injEq]
  constructor
  · rintro ⟨p, hp, ⟨hkeeps, hspares⟩, he⟩
    cases he
    exact ⟨hp, hkeeps, hspares, rfl⟩
  · rintro ⟨hp, hkeeps, hspares, rfl⟩
    exact ⟨p, hp, ⟨hkeeps, hspares⟩, rfl⟩

theorem run?_append (x : Timed α) (before after : List Label) :
    x.run? courses t (before ++ after) =
      (x.run? courses t before).bind (run? courses t · after) :=
  List.foldlM_append

/-- **What happens in time is a run of the passage.** -/
theorem run?_passage (h : x.run? courses t labels = some y) :
    x.toPassage.run? t labels = some y.toPassage := by
  induction labels generalizing x with
  | nil =>
      obtain rfl := Option.some.inj h
      rfl
  | cons l labels ih =>
      obtain ⟨x₁, hs, h⟩ := Option.bind_eq_some_iff.1 h
      exact Option.bind_eq_some_iff.2 ⟨_, (step?_eq_some.1 hs).1, ih h⟩

/-- What every step keeps, every run keeps. -/
theorem run_invariant {P : Timed α → Prop}
    (step : ∀ {x l y}, P x → x.step? courses t l = some y → P y) (hx : P x)
    (h : x.run? courses t labels = some y) : P y := by
  induction labels generalizing x with
  | nil =>
      obtain rfl := Option.some.inj h
      exact hx
  | cons l labels ih =>
      obtain ⟨x₁, hs, h⟩ := Option.bind_eq_some_iff.1 h
      exact ih (step hx hs) h

end Timed

/-! ### Pools -/

/-- A task that is answered has handed in a unit of work, given one up, or left the pool alone. -/
theorem handles_respond {around : Surroundings} {q : Ask} {a : q.Answer}
    (hs : s.respond t around q = some (a, s')) : s.pool.Handles s'.pool := by
  cases q with
  | lock => cases hs
  | spawn work =>
      cases hs
      exact .spawn ..
  | abandon id =>
      cases hs
      exact .drop ..
  | join id limit =>
      obtain ⟨rfl, -⟩ := respond_join.1 hs
      exact .refl _
  | _ =>
      cases hs
      exact .refl _

/-- Whether a step moves units of work that somebody has handed in. -/
def Label.isWorkers : Label → Bool
  | .begin _ | .finish _ _ | .panic _ | .closePool => true
  | _ => false

/-- Only workers, and who closes the pool, move units of work that are not given up. -/
theorem handles_step (hs : s.step? l = some s') (hl : l.isWorkers = false) :
    s.pool.Handles s'.pool := by
  cases l with
  | begin | finish | panic | closePool => cases hl
  | turn i around =>
      obtain ⟨task, -, -, hturn⟩ := turn?_cases hs
      cases hturn with
      | reads | ends | enters | queues => exact .refl _
      | answered _ _ hs₁ => exact (handles_respond hs₁ :)
  | ask id =>
      obtain ⟨pool, ha, rfl⟩ := step?_ask hs
      exact .ask ha
  | deliver registration e =>
      obtain rfl := step?_deliver hs
      exact .refl _
  | drop i =>
      obtain ⟨task, htask, -, rfl⟩ := step?_drop hs
      rw [pool_dropTask htask]
      refine ⟨_, s.pool.dropAll_run i, fun m hm => ?_⟩
      obtain ⟨id, -, rfl⟩ := List.mem_map.1 hm
      rfl
  | occupy work =>
      obtain rfl := Option.some.inj hs
      exact .spawn ..
  | vacate id =>
      obtain rfl := Option.some.inj hs
      exact .drop ..
  | call | silence | elapse =>
      obtain rfl := Option.some.inj hs
      exact .refl _

/-- What a task has handed in is there. -/
theorem lt_of_unitsOf {pool : Pool Work Bool} (h : (unitsOf pool t id).isSome = true) :
    id < pool.units.length := by
  obtain ⟨work, hwork⟩ := Option.isSome_iff_exists.1 h
  obtain ⟨u, hu, -⟩ := unitsOf_eq_some.1 hwork
  exact (List.getElem?_eq_some_iff.1 hu).1

/-- A unit that has ended neither waits nor is at work, and is not given up. -/
theorem endStage_ne (result : Option Bool) :
    endStage result ≠ .waiting ∧ endStage result ≠ .running ∧ endStage result ≠ .dropped := by
  cases result <;> exact ⟨nofun, nofun, nofun⟩

/-- A unit that has ended can be joined. -/
theorem joined?_of_ended {pool : Pool Work Bool} {c : Course}
    (h : pool.stage? id = some (endStage c.result)) : pool.joined? id = some c.joined := by
  unfold Pool.joined? Course.joined
  rw [h]
  cases c.result <;> rfl

/-- **A unit of work is on its course**, if it has not been given up. -/
inductive OnCourse (c : Course) (stage : Option (Stage Bool)) : Prop where
  | waits (hw : stage = some .waiting)
  | works (hr : stage = some .running)
  | ended (he : stage = some (endStage c.result))

namespace OnCourse

variable {c : Course} {pool : Pool Work Bool}

theorem not_dropped (h : OnCourse c (pool.stage? id)) : pool.stage? id ≠ some .dropped := by
  cases h with
  | waits hs | works hs => rw [hs]; nofun
  | ended he => exact fun hd => (endStage_ne c.result).2.2 (Option.some.inj (he.symm.trans hd))

/-- When it can be joined, it gives the result of its course; -/
theorem joined {joined : Joined Bool} (h : OnCourse c (pool.stage? id))
    (hj : pool.joined? id = some joined) : joined = c.joined := by
  cases h with
  | waits hs | works hs => simp [Pool.joined?, hs] at hj
  | ended he => exact Option.some.inj (hj.symm.trans (joined?_of_ended he))

/-- and until then it waits or is at work. -/
theorem unjoined (h : OnCourse c (pool.stage? id)) (hj : pool.joined? id = none) :
    pool.stage? id = some .waiting ∨ pool.stage? id = some .running := by
  cases h with
  | waits hw => exact .inl hw
  | works hr => exact .inr hr
  | ended he => exact nomatch hj.symm.trans (joined?_of_ended he)

end OnCourse

/-- What a task asks that waits for units of work, and gives them up in the end. -/
def Ask.isPatient : Ask → Bool
  | .now | .join _ _ | .abandon _ => true
  | _ => false

theorem GivesUp.isPatient {out : α} {q : Ask} {next : q.Answer → Program α}
    (h : GivesUp out (.ask q next)) : q.isPatient = true := by
  cases h with
  | abandon => rfl

end TunnelKeeper.Service
