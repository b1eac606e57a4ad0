import Mathlib.Data.Nat.Find
import TunnelKeeper.Proofs.Service.Fares

/-!
# Waiting — a task that only waits comes to its end

What a step makes of a task that asks is told by its question: it is answered, or something else
happens.  A task that waits for a unit is answered after some time, as long as there is always
something to wait for.

* `Timed.step_instant`, `Timed.step_join`: what a step makes of a task that asks.
* `Timed.exists_answer`: a wait comes to its end if there is always something to wait for.
* `Timed.CanEnd.of_awaits`: and so does the passage of a task that only waits.
-/

namespace TunnelKeeper.Service

open Pool (Joined)

variable {α : Type} {s s' : Machine} {t : TaskId} {l : Label} {labels : List Label} {id : UnitId}

namespace Timed

variable {courses : UnitId → Course} {x y : Timed α}

/-! ### Tasks that ask -/

section Questions

variable {since : UnitId → Time}

/-- **A task that asks for what takes no time** is answered, or something else happens at once. -/
theorem step_instant {q : Ask} {next : q.Answer → Program α}
    (hq : ∀ span, s.mayPass span q = false)
    (h : step? courses t ⟨⟨s, .ask q next⟩, since⟩ l = some y) :
    (∃ around a s', s.respond t around q = some (a, s') ∧ y = ⟨⟨s', next a⟩, since⟩) ∨
      l.turnOf? t = none ∧ y.program = .ask q next ∧ y.machine.world.clock = s.world.clock := by
  obtain ⟨hstep, -, -, hsince⟩ := step?_eq_some.1 h
  have hclock := clock_timed h
  obtain ⟨⟨s', p'⟩, since'⟩ := y
  obtain ⟨around, a, s₁, rfl, hr, he⟩ | ⟨s₁, hl, hcome, -, he⟩ := Passage.step?_cases hstep
  · cases he
    cases hsince
    exact .inl ⟨around, a, _, hr, rfl⟩
  · cases he
    refine .inr ⟨hl, rfl, ?_⟩
    cases l with
    | elapse span => exact absurd ((hq span).symm.trans hcome) nofun
    | _ => exact hclock

/-- **A task that reads the clock** goes on with the time, or something else happens at once. -/
theorem step_now {next : Time → Program α}
    (h : step? courses t ⟨⟨s, .ask .now next⟩, since⟩ l = some y) :
    y = ⟨⟨s, next s.world.clock⟩, since⟩ ∨
      l.turnOf? t = none ∧ y.program = .ask .now next ∧ y.machine.world.clock = s.world.clock := by
  obtain ⟨around, a, s', hr, rfl⟩ | h := step_instant (fun _ => rfl) h
  · cases hr
    exact .inl rfl
  · exact .inr h

/-- **A task that hands in a unit of work** goes on with its number, or something else happens at
once. -/
theorem step_spawn {work : Work} {next : UnitId → Program α}
    (h : step? courses t ⟨⟨s, .ask (.spawn work) next⟩, since⟩ l = some y) :
    y = ⟨⟨{ s with pool := (s.pool.spawn (some t) work).2 }, next s.pool.units.length⟩, since⟩ ∨
      l.turnOf? t = none ∧ y.program = .ask (.spawn work) next ∧
        y.machine.world.clock = s.world.clock := by
  obtain ⟨around, a, s', hr, rfl⟩ | h := step_instant (fun _ => rfl) h
  · cases hr
    exact .inl rfl
  · exact .inr h

/-- **A task that joins a unit of work** goes on with what has become of it, or waits, for as long
as the unit has not ended and the limit has not come. -/
theorem step_join {limit : Option Time} {next : Joined Bool → Program α}
    (h : step? courses t ⟨⟨s, .ask (.join id limit) next⟩, since⟩ l = some y) :
    (∃ joined, y = ⟨⟨s, next joined⟩, since⟩ ∧ (s.pool.joined? id = some joined ∨
        s.pool.joined? id = none ∧ joined = .timedOut ∧
          ∃ time, limit = some time ∧ time ≤ s.world.clock)) ∨
      l.turnOf? t = none ∧ y.program = .ask (.join id limit) next ∧
        ∀ span, l = .elapse span → s.pool.joined? id = none ∧
          ∀ time, limit = some time → s.world.clock + span ≤ time := by
  obtain ⟨hstep, -, -, hsince⟩ := step?_eq_some.1 h
  obtain ⟨⟨s', p'⟩, since'⟩ := y
  obtain ⟨around, joined, s₁, rfl, hr, he⟩ | ⟨s₁, hl, hcome, -, he⟩ := Passage.step?_cases hstep
  · obtain ⟨rfl, hj⟩ := respond_join.1 hr
    cases he
    cases hsince
    exact .inl ⟨joined, rfl, hj⟩
  · cases he
    exact .inr ⟨hl, rfl, fun span he => mayPass_join.1 (he ▸ hcome :)⟩

end Questions

/-! ### Going on -/

/-- **The task can come to the end of its passage.** -/
def CanEnd (courses : UnitId → Course) (t : TaskId) (x : Timed α) : Prop :=
  ∃ labels y a, x.run? courses t labels = some y ∧ y.program = .done a

/-- A step after which others follow. -/
theorem run?_cons {y' : Timed α} (hs : x.step? courses t l = some y)
    (h : y.run? courses t labels = some y') : x.run? courses t (l :: labels) = some y' :=
  Option.bind_eq_some_iff.2 ⟨_, hs, h⟩

theorem run?_one (hs : x.step? courses t l = some y) : x.run? courses t [l] = some y :=
  run?_cons hs rfl

section Waiting

variable {q : Ask} {next : q.Answer → Program α} {since : UnitId → Time}

/-- The task is answered. -/
theorem step?_turn {a : q.Answer} (hr : s.respond t {} q = some (a, s')) :
    step? courses t ⟨⟨s, .ask q next⟩, since⟩ (.turn t {}) = some ⟨⟨s', next a⟩, since⟩ := by
  refine step?_eq_some.2 ⟨Passage.step?_turn hr, rfl, fun hl => ?_, rfl⟩
  simp [Label.turnOf?] at hl

/-- Something else happens that gives up no unit of work. -/
theorem step?_other {y : Timed α} (hl : l.turnOf? t = none) (hcome : s.mayCome t q l = true)
    (hs : s.step? l = some s') (hkeeps : keeps ⟨⟨s, .ask q next⟩, since⟩ courses l = true)
    (hkept : ∀ id, s'.pool.stage? id = some .dropped → s.pool.stage? id = some .dropped)
    (hy : y = ⟨⟨s', .ask q next⟩, sinceAfter ⟨⟨s, .ask q next⟩, since⟩ l⟩) :
    step? courses t ⟨⟨s, .ask q next⟩, since⟩ l = some y := by
  subst hy
  refine step?_eq_some.2 ⟨Passage.step?_other hl hcome hs, hkeeps, fun _ => ?_, rfl⟩
  refine List.all_eq_true.2 fun id _ => ?_
  by_cases hd : s'.pool.stage? id = some .dropped
  · simp [hkept id hd]
  · simp [hd]

/-- A unit of work has a turn to take, and does so. -/
theorem exists_turn (hturn : ¬s.pool.Settled) :
    ∃ l, ∃ y : Timed α, step? courses t ⟨⟨s, .ask q next⟩, since⟩ l = some y ∧
      y.program = .ask q next ∧ y.machine.pool.live < s.pool.live := by
  have kept : ∀ {m pool}, s.pool.step? m = some pool → (∀ id, m ≠ .drop id) → ∀ id,
      pool.stage? id = some .dropped → s.pool.stage? id = some .dropped := by
    intro m pool hm hd id hid
    cases Pool.comes_step hm hid with
    | stays h => exact h
    | givenUp _ hl => exact absurd hl (hd id)
  obtain ⟨id, pool, ha | hb⟩ := Pool.exists_turn hturn
  · have hs : s.step? (.ask id) = some { s with pool } := Option.map_eq_some_iff.2 ⟨_, ha, rfl⟩
    have hkept := kept (m := .ask id) ha nofun
    exact ⟨_, _, step?_other rfl rfl hs rfl hkept rfl, rfl, Pool.live_asks ha⟩
  · obtain ⟨u, hu, -, -, hpool⟩ := Pool.begin?_inv hb
    have hu' : pool.units[id]? = some { u with stage := .running } := by
      rw [hpool, show _ = (s.pool.setStage id .running).units from rfl, Tracks.units_setStage, hu,
        Option.map_some, if_pos rfl]
    have hs : s.step? (.begin id) = some _ := begin?_eq_some.2 ⟨_, _, hb, hu', rfl⟩
    have hkept := kept (m := .begin id) hb nofun
    exact ⟨_, _, step?_other rfl rfl hs rfl hkept rfl, rfl, Pool.live_begins hb⟩

/-- A unit of work ends whose time has come. -/
theorem exists_end {i : UnitId} {due : Time} (hr : s.pool.stage? i = some .running)
    (hdue : (courses i).due? (since i) = some due) (hle : due ≤ s.world.clock) :
    ∃ l, ∃ y : Timed α, step? courses t ⟨⟨s, .ask q next⟩, since⟩ l = some y ∧
      y.program = .ask q next ∧ y.machine.pool.live < s.pool.live := by
  obtain ⟨u, hu, hstage⟩ := Option.map_eq_some_iff.1 hr
  have hr' := Pool.isRunning_iff.2 hstage
  have hkept : ∀ result id, (s.pool.release i (endStage result)).stage? id = some .dropped →
      s.pool.stage? id = some .dropped := by
    intro result id hid
    rw [Pool.stage?_release hr] at hid
    split at hid
    case isTrue => exact absurd (Option.some.inj hid) (endStage_ne result).2.2
    case isFalse => exact hid
  have ends : ∀ result l, s.step? l = s.end? i result → l.turnOf? t = none →
      s.mayCome t q l = true → keeps (α := α) ⟨⟨s, .ask q next⟩, since⟩ courses l = true →
        ∃ l, ∃ y : Timed α, step? courses t ⟨⟨s, .ask q next⟩, since⟩ l = some y ∧
          y.program = .ask q next ∧ y.machine.pool.live < s.pool.live := by
    intro result l hstep hl hcome hkeeps
    have hends := hstep.trans (end?_eq_some.2 ⟨u, hu, hr', rfl⟩)
    refine ⟨l, _, step?_other hl hcome hends hkeeps (hkept result) rfl, rfl, ?_⟩
    exact Pool.live_release hu hr' ⟨(endStage_ne result).1, (endStage_ne result).2.1⟩
  cases hresult : (courses i).result with
  | some b => exact ends (some b) (.finish i b) rfl rfl rfl (isDue_iff.2 ⟨hresult, due, hdue, hle⟩)
  | none => exact ends none (.panic i) rfl rfl rfl (isDue_iff.2 ⟨hresult, due, hdue, hle⟩)

end Waiting

section Joining

variable {limit : Option Time} {next : Joined Bool → Program α} {since : UnitId → Time}

/-- What a task waits for that joins a unit: its limit, or the end of a unit at work. -/
def Awaits (courses : UnitId → Course) (x : Timed α) (limit : Option Time) (time : Time) : Prop :=
  limit = some time ∨ ∃ i, x.machine.pool.stage? i = some .running ∧
    (courses i).due? (x.since i) = some time

/-- What a task gets by waiting: an answer, or one unit less to wait for. -/
def Gains (x y : Timed α) (next : Joined Bool → Program α) : Prop :=
  (∃ joined, y.program = next joined) ∨
    y.program = x.program ∧ y.machine.pool.live < x.machine.pool.live

/-- The time has come that a task waits for. -/
theorem exists_gain {time : Time} (hj : s.pool.joined? id = none)
    (htime : Awaits courses ⟨⟨s, .ask (.join id limit) next⟩, since⟩ limit time)
    (hle : time ≤ s.world.clock) :
    ∃ l y, step? courses t ⟨⟨s, .ask (.join id limit) next⟩, since⟩ l = some y ∧
      Gains ⟨⟨s, .ask (.join id limit) next⟩, since⟩ y next := by
  obtain hl | ⟨i, hr, hdue⟩ := htime
  · have hr : s.respond t {} (.join id limit) = some (.timedOut, s) :=
      respond_join.2 ⟨rfl, .inr ⟨hj, rfl, time, hl, hle⟩⟩
    exact ⟨_, _, step?_turn hr, .inl ⟨_, rfl⟩⟩
  · obtain ⟨l, y, hs, hp, hlt⟩ := exists_end hr hdue hle
    exact ⟨l, y, hs, .inr ⟨hp, hlt⟩⟩

/-- **Time passes** until the first thing that a task waits for. -/
theorem exists_wait (hj : s.pool.joined? id = none) (hs : s.pool.Settled)
    (htimes : ∃ time, Awaits courses ⟨⟨s, .ask (.join id limit) next⟩, since⟩ limit time) :
    ∃ labels y, run? courses t ⟨⟨s, .ask (.join id limit) next⟩, since⟩ labels = some y ∧
      Gains ⟨⟨s, .ask (.join id limit) next⟩, since⟩ y next := by
  obtain ⟨time, htime, hfirst⟩ : ∃ time,
      Awaits courses ⟨⟨s, .ask (.join id limit) next⟩, since⟩ limit time ∧
        ∀ later, Awaits courses ⟨⟨s, .ask (.join id limit) next⟩, since⟩ limit later →
          time ≤ later := by
    classical exact ⟨Nat.find htimes, Nat.find_spec htimes, fun _ h => Nat.find_min' htimes h⟩
  by_cases hle : time ≤ s.world.clock
  · obtain ⟨l, y, hs, hgains⟩ := exists_gain (t := t) hj htime hle
    exact ⟨[l], y, run?_one hs, hgains⟩
  obtain ⟨span, rfl⟩ := Nat.exists_eq_add_of_le (Nat.le_of_not_le hle)
  let s' := { s with world := { s.world with clock := s.world.clock + span } }
  have hpass : s.mayPass span (.join id limit) = true :=
    mayPass_join.2 ⟨hj, fun later hl => hfirst later (.inl hl)⟩
  have hkeeps : keeps (α := α) ⟨⟨s, .ask (.join id limit) next⟩, since⟩ courses (.elapse span) =
      true :=
    keeps_elapse.2 ⟨hs, fun i due hr hdue => hfirst due (.inr ⟨i, hr, hdue⟩)⟩
  have hs : step? courses t ⟨⟨s, .ask (.join id limit) next⟩, since⟩ (.elapse span) =
      some ⟨⟨s', .ask (.join id limit) next⟩, since⟩ :=
    step?_other rfl hpass rfl hkeeps (fun _ h => h) rfl
  obtain ⟨l, y, hs', hgains⟩ := exists_gain (s := s') (t := t) hj htime (Nat.le_refl _)
  exact ⟨[_, l], y, run?_cons hs (run?_one hs'), hgains⟩

end Joining

/-- **A wait comes to its end**, if there is always something to wait for: its limit, or the end of
a unit of work that is at work. -/
theorem exists_answer {I : Timed α → Prop}
    (step : ∀ {x l y}, I x → x.step? courses t l = some y → I y) {limit : Option Time}
    {next : Joined Bool → Program α}
    (waits : ∀ x, I x → x.program = .ask (.join id limit) next →
      x.machine.pool.joined? id = none → x.machine.pool.Settled →
        ∃ time, Awaits courses x limit time)
    (hx : I x) (hp : x.program = .ask (.join id limit) next) :
    ∃ labels y joined, x.run? courses t labels = some y ∧ y.program = next joined := by
  -- Every unit of work that asks, begins or ends brings the pool nearer to its rest.
  induction hn : x.machine.pool.live using Nat.strongRecOn generalizing x with
  | ind n ih =>
      subst hn
      have more : ∀ {labels y}, x.run? courses t labels = some y → Gains x y next →
          ∃ labels y joined, x.run? courses t labels = some y ∧ y.program = next joined := by
        intro labels y hrun hgains
        obtain ⟨joined, hy⟩ | ⟨hy, hlt⟩ := hgains
        · exact ⟨labels, y, joined, hrun, hy⟩
        · obtain ⟨rest, z, joined, hrest, hz⟩ :=
            ih _ hlt (run_invariant step hx hrun) (hy.trans hp) rfl
          refine ⟨labels ++ rest, z, joined, ?_, hz⟩
          rw [run?_append, hrun]
          exact hrest
      have hwaits := waits x hx hp
      obtain ⟨⟨s, p⟩, since⟩ := x
      obtain rfl : p = .ask (.join id limit) next := hp
      cases hj : s.pool.joined? id with
      | some joined =>
          have hs : step? courses t ⟨⟨s, .ask (.join id limit) next⟩, since⟩ (.turn t {}) =
              some ⟨⟨s, next joined⟩, since⟩ := step?_turn (respond_join.2 ⟨rfl, .inl hj⟩)
          exact more (run?_one hs) (.inl ⟨joined, rfl⟩)
      | none =>
          by_cases hs : s.pool.Settled
          · obtain ⟨labels, y, hrun, hgains⟩ := exists_wait hj hs (hwaits hj hs)
            exact more hrun hgains
          · obtain ⟨l, y, hs, hy, hlt⟩ := exists_turn hs
            exact more (run?_one hs) (.inr ⟨hy, hlt⟩)

/-- **A task comes to the end of its passage** if it is always answered sooner or later. -/
theorem CanEnd.of_answers {I : Timed α → Prop}
    (step : ∀ {x l y}, I x → x.step? courses t l = some y → I y)
    (answers : ∀ x q next, I x → x.program = .ask q next →
      ∃ labels y a, x.run? courses t labels = some y ∧ y.program = next a)
    (hx : I x) : x.CanEnd courses t := by
  induction hp : x.program generalizing x with
  | done a => exact ⟨[], x, a, rfl, hp⟩
  | ask q next ih =>
      obtain ⟨labels, y, a, hrun, hy⟩ := answers x q next hx hp
      obtain ⟨rest, z, b, hrest, hz⟩ := ih a (run_invariant step hx hrun) hy
      refine ⟨labels ++ rest, z, b, ?_, hz⟩
      rw [run?_append, hrun]
      exact hrest

/-- **A task that only waits comes to the end of its passage**, if it always has something to wait
for. -/
theorem CanEnd.of_awaits {I : Timed α → Prop}
    (step : ∀ {x l y}, I x → x.step? courses t l = some y → I y)
    (asks : ∀ x q next, I x → x.program = .ask q next → q.isPatient = true)
    (awaits : ∀ x id limit next, I x → x.program = .ask (.join id limit) next →
      x.machine.pool.joined? id = none → x.machine.pool.Settled →
        ∃ time, Awaits courses x limit time)
    (hx : I x) : x.CanEnd courses t := by
  refine .of_answers (I := I) step ?_ hx
  have at_once : ∀ {s s' : Machine} {q : Ask} {next : q.Answer → Program α} {a : q.Answer}
      {since : UnitId → Time}, s.respond t {} q = some (a, s') → ∃ labels y a,
        run? courses t ⟨⟨s, .ask q next⟩, since⟩ labels = some y ∧ y.program = next a :=
    fun hr => ⟨_, _, _, run?_one (step?_turn hr), rfl⟩
  rintro ⟨⟨s, p⟩, since⟩ q next h rfl
  have hq := asks _ q next h rfl
  cases q with
  | now | abandon => exact at_once rfl
  | join id limit => exact exists_answer (I := I) step (awaits · id limit next) h rfl
  | _ => cases hq

end Timed

end TunnelKeeper.Service
