import TunnelKeeper.Proofs.Service.Courses

/-!
# Fares — what becomes of units of work in time

While all units keep to their courses, what a step makes of each is told by what it was
(`Timed.fares_step`): it stays what it is, begins, ends when its time has come with its result, or
is given up.  A step of anything but the task itself keeps its units on their courses
(`Timed.onCourse_step`), and no time passes over the end of one (`Timed.keeps_elapse`).
-/

namespace TunnelKeeper.Service

open Pool (Joined)

variable {α : Type} {s s' : Machine} {t : TaskId} {l : Label} {labels : List Label} {id : UnitId}

/-! ### What becomes of units of work -/

namespace Timed

variable {courses : UnitId → Course} {x y : Timed α}

/-- **How a unit of work fares** with a step. -/
inductive Fares (courses : UnitId → Course) (x y : Timed α) (id : UnitId) : Prop where
  | stays (hstage : y.machine.pool.stage? id = x.machine.pool.stage? id)
      (hsince : y.since id = x.since id)
  | begins (hw : x.machine.pool.stage? id = some .waiting)
      (hr : y.machine.pool.stage? id = some .running)
      (hsince : y.since id = x.machine.world.clock)
  | ends {due : Time} (hr : x.machine.pool.stage? id = some .running)
      (he : y.machine.pool.stage? id = some (endStage (courses id).result))
      (hdue : (courses id).due? (x.since id) = some due) (hle : due ≤ x.machine.world.clock)
  | givenUp (hg : y.machine.pool.stage? id = some .dropped)

theorem Fares.of_handles (h : x.machine.pool.Handles y.machine.pool)
    (hid : id < x.machine.pool.units.length) (hsince : y.since id = x.since id) :
    Fares courses x y id :=
  (h.stage? hid).elim (.stays · hsince) .givenUp

theorem isDue_iff {result : Option Bool} : x.isDue courses id result = true ↔
    (courses id).result = result ∧
      ∃ due, (courses id).due? (x.since id) = some due ∧ due ≤ x.machine.world.clock := by
  simp only [isDue, Bool.and_eq_true, beq_iff_eq, Option.any_eq_true, decide_eq_true_eq]

/-- A unit of work comes to its end. -/
theorem fares_end {i : UnitId} {result : Option Bool}
    (hs : x.machine.end? i result = some y.machine) (hdue : x.isDue courses i result = true)
    (hsince : y.since = x.since) : Fares courses x y id := by
  obtain ⟨u, hu, hr, he⟩ := end?_eq_some.1 hs
  have hr : x.machine.pool.stage? i = some .running := by
    rw [Pool.stage?, hu, Option.map_some, Pool.isRunning_iff.1 hr]
  have hstage : y.machine.pool.stage? id = if i = id then some (endStage result) else
      x.machine.pool.stage? id := by
    rw [he]
    exact Pool.stage?_release hr _ id
  obtain ⟨rfl, due, hdue, hle⟩ := isDue_iff.1 hdue
  split at hstage
  case isTrue hi =>
    subst hi
    exact .ends hr hstage hdue hle
  case isFalse => exact .stays hstage (congrFun hsince id)

/-- **What a step makes of each unit of work.** -/
theorem fares_step (h : x.step? courses t l = some y) (hid : id < x.machine.pool.units.length) :
    Fares courses x y id := by
  obtain ⟨hstep, hkeeps, -, hsince⟩ := step?_eq_some.1 h
  obtain ⟨⟨s, p⟩, since⟩ := x
  cases p with
  | done a => exact absurd hstep Passage.not_step?_done
  | ask q next =>
      obtain ⟨around, a, s', rfl, hr, he⟩ | ⟨s', -, -, hs', he⟩ := Passage.step?_cases hstep
      · refine .of_handles ?_ hid (congrFun hsince id)
        rw [he]
        exact (handles_respond hr :)
      · have hmachine : s.step? l = some y.machine := by rw [he, hs']
        cases l with
        | begin i =>
            obtain ⟨pool, u, hb, -, hm⟩ := begin?_eq_some.1 hmachine
            have hmove : s.pool.step? (.begin i) = some pool := hb
            have hstage := Pool.stage?_step hmove id
            have hsince := congrFun hsince id
            rw [show pool = y.machine.pool by rw [hm], Pool.stageAfter] at hstage
            rw [sinceAfter] at hsince
            by_cases hi : i = id
            · subst hi
              rw [if_pos rfl] at hstage hsince
              exact .begins (Pool.waiting_of_begins hmove rfl) hstage hsince
            · rw [if_neg hi] at hstage hsince
              exact .stays hstage hsince
        | finish i result => exact fares_end hmachine hkeeps hsince
        | panic i => exact fares_end hmachine hkeeps hsince
        | closePool => cases hkeeps
        | _ => exact .of_handles (handles_step hmachine rfl) hid (congrFun hsince id)

/-- Nobody else gives up what a task has handed in. -/
theorem not_dropped_step (h : x.step? courses t l = some y) (hl : l.turnOf? t = none)
    (hown : (unitsOf x.machine.pool t id).isSome = true)
    (hkept : x.machine.pool.stage? id ≠ some .dropped) :
    y.machine.pool.stage? id ≠ some .dropped := by
  obtain ⟨-, -, hspares, -⟩ := step?_eq_some.1 h
  have hall := List.all_eq_true.1 (hspares hl) id (List.mem_range.2 (lt_of_unitsOf hown))
  simpa [Option.isSome_iff_ne_none.1 hown, hkept] using hall

/-- **What a task has handed in stays on its course.** -/
theorem onCourse_step (h : x.step? courses t l = some y) (hl : l.turnOf? t = none)
    (hown : (unitsOf x.machine.pool t id).isSome = true)
    (hcourse : OnCourse (courses id) (x.machine.pool.stage? id)) :
    OnCourse (courses id) (y.machine.pool.stage? id) := by
  cases fares_step h (lt_of_unitsOf hown) with
  | stays hstage => rwa [hstage]
  | begins _ hr => exact .works hr
  | ends _ he => exact .ended he
  | givenUp hg => exact absurd hg (not_dropped_step h hl hown hcourse.not_dropped)

/-- Nobody else hands in units of work for a task. -/
theorem unitsOf_aside (h : x.step? courses t l = some y) (hl : l.turnOf? t = none) :
    unitsOf y.machine.pool t = unitsOf x.machine.pool t := by
  have hstep := (step?_eq_some.1 h).1
  obtain ⟨⟨s, p⟩, since⟩ := x
  cases p with
  | done a => exact absurd hstep Passage.not_step?_done
  | ask q next =>
      obtain ⟨around, a, s', rfl, -, -⟩ | ⟨s', -, -, hs', he⟩ := Passage.step?_cases hstep
      · simp [Label.turnOf?] at hl
      · rw [he, unitsOf_step hs' (Passage.turnOf?_eq_none.1 hl)]

/-- **A step in time makes moves of the pool.** -/
theorem pool_timed (h : x.step? courses t l = some y) :
    ∃ moves, x.machine.pool.run? moves = some y.machine.pool := by
  have hstep := (step?_eq_some.1 h).1
  obtain ⟨⟨s, p⟩, since⟩ := x
  cases p with
  | done a => exact absurd hstep Passage.not_step?_done
  | ask q next =>
      obtain ⟨around, a, s', -, hr, he⟩ | ⟨s', -, -, hs', he⟩ := Passage.step?_cases hstep
      · obtain ⟨moves, hrun, -⟩ := handles_respond hr
        exact ⟨moves, he ▸ hrun⟩
      · rw [he]
        exact pool_step hs'

/-- And so does a run. -/
theorem pool_timed_run (h : x.run? courses t labels = some y) :
    ∃ moves, x.machine.pool.run? moves = some y.machine.pool := by
  refine run_invariant (P := fun y => ∃ moves, x.machine.pool.run? moves = some y.machine.pool)
    (fun ⟨moves, hmoves⟩ hs => ?_) ⟨[], rfl⟩ h
  obtain ⟨more, hmore⟩ := pool_timed hs
  refine ⟨moves ++ more, ?_⟩
  rw [Pool.run?_append, hmoves]
  exact hmore

/-- The pool stays open. -/
theorem closed_timed (h : x.step? courses t l = some y) :
    y.machine.pool.closed = x.machine.pool.closed := by
  obtain ⟨hstep, hkeeps, -, -⟩ := step?_eq_some.1 h
  have ends : ∀ {s s' : Machine} {i : UnitId} {result : Option Bool},
      s.end? i result = some s' → s'.pool.closed = s.pool.closed := fun hs => by
    obtain ⟨u, -, -, rfl⟩ := end?_eq_some.1 hs
    exact (Pool.frame_release ..).1
  obtain ⟨⟨s, p⟩, since⟩ := x
  cases p with
  | done a => exact absurd hstep Passage.not_step?_done
  | ask q next =>
      obtain ⟨around, a, s', -, hr, he⟩ | ⟨s', -, -, hs', he⟩ := Passage.step?_cases hstep
      · rw [he]
        exact (handles_respond hr).closed
      · rw [he]
        cases l with
        | begin =>
            obtain ⟨pool, u, hb, -, rfl⟩ := begin?_eq_some.1 hs'
            obtain ⟨u, -, -, -, rfl⟩ := Pool.begin?_inv hb
            rfl
        | finish | panic => exact ends hs'
        | closePool => cases hkeeps
        | _ => exact (handles_step hs' rfl).closed

theorem clock_timed (h : x.step? courses t l = some y) :
    y.machine.world.clock = x.machine.world.clock + l.span := by
  have hstep := (step?_eq_some.1 h).1
  obtain ⟨⟨s, p⟩, since⟩ := x
  cases p with
  | done a => exact absurd hstep Passage.not_step?_done
  | ask q next =>
      obtain ⟨around, a, s', rfl, hr, he⟩ | ⟨s', -, -, hs', he⟩ := Passage.step?_cases hstep
      · rw [he]
        exact (world_respond hr).1
      · rw [he]
        exact (world_step hs').1

theorem keeps_elapse {span : Time} : x.keeps courses (.elapse span) = true ↔
    x.machine.pool.Settled ∧ ∀ id due, x.machine.pool.stage? id = some .running →
      (courses id).due? (x.since id) = some due → x.machine.world.clock + span ≤ due := by
  simp only [keeps, Bool.and_eq_true, List.all_eq_true, List.mem_range, Bool.or_eq_true, bne_iff_ne,
    Option.all_eq_true, decide_eq_true_eq]
  refine and_congr_right fun _ => ⟨fun h id due hr hdue => ?_, fun h id _ => ?_⟩
  · exact (h id (Pool.lt_of_stage? hr)).resolve_left (fun hn => hn hr) due hdue
  · by_cases hr : x.machine.pool.stage? id = some .running
    · exact .inr fun due hdue => h id due hr hdue
    · exact .inl hr

/-- **While time passes** nothing else changes. -/
theorem elapse_timed {span : Time} (h : x.step? courses t (.elapse span) = some y) :
    y.machine.pool = x.machine.pool ∧ y.since = x.since := by
  obtain ⟨hstep, -, -, hsince⟩ := step?_eq_some.1 h
  refine ⟨?_, hsince⟩
  obtain ⟨⟨s, p⟩, since⟩ := x
  cases p with
  | done a => exact absurd hstep Passage.not_step?_done
  | ask q next =>
      obtain ⟨around, a, s', he, -, -⟩ | ⟨s', -, -, hs', he⟩ := Passage.step?_cases hstep
      · cases he
      · rw [he, ← Option.some.inj hs']

end Timed

end TunnelKeeper.Service
