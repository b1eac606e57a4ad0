import TunnelKeeper.Proofs.Service.Waiting

/-!
# Probing — a probe hands in its checks, and then it waits for them

A probe hands in its three checks one after the other, and asks nothing else of its surroundings
meanwhile.  Anything may happen between any two of them, only no time passes: checks may begin that
are handed in, and others may hand in work of their own.  So the numbers of the checks are not known
beforehand, but each of them begins no earlier than the probe, and is abreast of its course
(`Abreast`) when all are handed in (`HandsIn`).  From then on the probe only waits, until it gives
them all up (`Program.finishProbe`).

* `Timed.abreast_step`: what happens at once keeps a unit of work abreast of its course.
* `Timed.Hands.run`: how far a probe is that hands in its checks.
* `Machine.hands_in`: it always comes to have them handed in.
-/

namespace TunnelKeeper.Service

open Pool (Joined)

variable {α : Type} {s : Machine} {t : TaskId} {l : Label} {labels : List Label} {id : UnitId}
  {courses : UnitId → Course} {start clock : Time} {limit : Option Time} {proxy : SocketAddress}
  {host : String} {port : UInt16}

/-! ### The program of a probe -/

/-- What a probe does when it has come to a verdict. -/
def Program.settle (udp server credentials : UnitId) (verdict : Option ProbeResult) :
    Program (Option ProbeResult) := do
  abandon udp
  abandon server
  abandon credentials
  return verdict

/-- What is left of a probe once its checks are handed in. -/
def Program.finishProbe (limit : Option Time) (udp server credentials : UnitId) :
    Program (Option ProbeResult) := do
  let verdict ←
    match ← waitFor udp limit none with
    | .outOfTime => pure none
    | .failed => pure (some .unreachable)
    | .answered true => pure (some .usable)
    | .answered false => judge server credentials limit none
  settle udp server credentials verdict

theorem Program.bind_eq {β : Type} (p : Program α) (f : α → Program β) : p >>= f = p.bind f := rfl

theorem givesUp_settle (udp server credentials : UnitId) (verdict : Option ProbeResult) :
    GivesUp verdict (Program.settle udp server credentials verdict) :=
  .abandon (.abandon (.abandon .done))

/-- What a wait is taken for that gives a result or none. -/
def waited : Option Bool → Waited
  | some b => .answered b
  | none => .failed

/-! ### Units abreast of their courses -/

/-- **A unit of work is abreast of its course** that began at `start`, or is to begin then. -/
inductive Abreast (c : Course) (start clock since : Time) (stage : Option (Stage Bool)) : Prop where
  | waits (hw : stage = some .waiting) (h : clock = start)
  | works (hr : stage = some .running) (hs : since = start)
      (h : ∀ due, c.due? start = some due → clock ≤ due)
  | ended {due : Time} (he : stage = some (endStage c.result)) (hdue : c.due? start = some due)
      (h : due ≤ clock)

theorem Course.le_due {c : Course} {due : Time} (h : c.due? start = some due) : start ≤ due := by
  obtain ⟨span, -, rfl⟩ := Option.map_eq_some_iff.1 h
  exact Nat.le_add_right ..

namespace Abreast

variable {c : Course} {since : Time} {pool : Pool Work Bool}

theorem onCourse (h : Abreast c start clock since (pool.stage? id)) :
    OnCourse c (pool.stage? id) := by
  cases h with
  | waits hw => exact .waits hw
  | works hr => exact .works hr
  | ended he => exact .ended he

/-- A unit can be joined when its time has come, -/
theorem joined {joined : Joined Bool} (h : Abreast c start clock since (pool.stage? id))
    (hj : pool.joined? id = some joined) :
    joined = c.joined ∧ ∃ due, c.due? start = some due ∧ due ≤ clock := by
  refine ⟨h.onCourse.joined hj, ?_⟩
  cases h with
  | waits hs | works hs => simp [Pool.joined?, hs] at hj
  | ended _ hdue hle => exact ⟨_, hdue, hle⟩

/-- and not before. -/
theorem unjoined (h : Abreast c start clock since (pool.stage? id)) (hj : pool.joined? id = none) :
    (pool.stage? id = some .waiting ∨ pool.stage? id = some .running ∧ since = start) ∧
      ∀ due, c.due? start = some due → clock ≤ due := by
  cases h with
  | waits hw h => exact ⟨.inl hw, fun due hdue => h ▸ Course.le_due hdue⟩
  | works hr hs h => exact ⟨.inr ⟨hr, hs⟩, h⟩
  | ended he => exact nomatch hj.symm.trans (joined?_of_ended he)

end Abreast

/-- **What happens at once keeps a unit abreast of its course.** -/
theorem Timed.abreast_step {x y : Timed α} (h : x.step? courses t l = some y)
    (hl : l.turnOf? t = none) (hclock : y.machine.world.clock = x.machine.world.clock)
    (hown : (unitsOf x.machine.pool t id).isSome = true)
    (habreast : Abreast (courses id) start x.machine.world.clock (x.since id)
      (x.machine.pool.stage? id)) :
    Abreast (courses id) start y.machine.world.clock (y.since id) (y.machine.pool.stage? id) := by
  rw [hclock]
  cases Timed.fares_step h (lt_of_unitsOf hown) with
  | stays hstage hsince => rwa [hsince, hstage]
  | begins hw hr hsince =>
      cases habreast with
      | waits _ h => exact .works hr (hsince.trans h) fun due hdue => h ▸ Course.le_due hdue
      | works hr' => exact nomatch hw.symm.trans hr'
      | ended he => exact absurd (Option.some.inj (he.symm.trans hw)) (endStage_ne _).1
  | ends hr he hdue hle =>
      cases habreast with
      | waits hw => exact nomatch hw.symm.trans hr
      | works _ h => exact .ended he (h ▸ hdue) hle
      | ended he' => exact absurd (Option.some.inj (he'.symm.trans hr)) (endStage_ne _).2.1
  | givenUp hg => exact absurd hg (Timed.not_dropped_step h hl hown habreast.onCourse.not_dropped)

/-! ### Handing in -/

/-- The checks of a probe, in the order in which it hands them in. -/
def checksOf (proxy : SocketAddress) (host : String) (port : UInt16) : List Work :=
  [.checkUdp proxy, .checkServer host port, .checkCredentials proxy]

/-- What is left of a probe that has handed in the checks `ids`. -/
def Program.probeAfter (limit : Option Time) (proxy : SocketAddress) (host : String)
    (port : UInt16) : List UnitId → Program (Option ProbeResult)
  | [] => probe limit none proxy host port
  | [udp] => do
      let server ← spawn (.checkServer host port)
      let credentials ← spawn (.checkCredentials proxy)
      finishProbe limit udp server credentials
  | [udp, server] => do
      let credentials ← spawn (.checkCredentials proxy)
      finishProbe limit udp server credentials
  | udp :: server :: credentials :: _ => finishProbe limit udp server credentials

/-- **A probe hands in its checks** one after the other. -/
theorem Program.probeAfter_eq {ids : List UnitId} {work : Work}
    (h : (checksOf proxy host port)[ids.length]? = some work) :
    probeAfter limit proxy host port ids =
      .ask (.spawn work) fun id : UnitId => probeAfter limit proxy host port (ids ++ [id]) := by
  match ids with
  | [] | [_] | [_, _] =>
      cases h
      rfl
  | _ :: _ :: _ :: _ => cases h

/-- A task has come to the point where it probes the proxy; `since` tells when each unit of work has
begun that is at work. -/
def Timed.probing (s : Machine) (since : UnitId → Time) (limit : Option Time)
    (proxy : SocketAddress) (host : String) (port : UInt16) : Timed (Option ProbeResult) :=
  ⟨⟨s, Program.probe limit none proxy host port⟩, since⟩

/-- **A probe has handed in the checks** `ids`, and no time has passed since it began in the machine
`s`. -/
structure Timed.Hands (s : Machine) (t : TaskId) (courses : UnitId → Course) (limit : Option Time)
    (proxy : SocketAddress) (host : String) (port : UInt16) (ids : List UnitId)
    (x : Timed (Option ProbeResult)) : Prop where
  program : x.program = Program.probeAfter limit proxy host port ids
  clock : x.machine.world.clock = s.world.clock
  opened : x.machine.pool.closed = false
  length : s.pool.units.length ≤ x.machine.pool.units.length
  sorted : ids.Pairwise (· < ·)
  checks : ∀ (i : Nat) (id : UnitId), ids[i]? = some id → s.pool.units.length ≤ id ∧
    (∃ work, (checksOf proxy host port)[i]? = some work ∧
      unitsOf x.machine.pool t id = some work) ∧
    Abreast (courses id) s.world.clock x.machine.world.clock (x.since id)
      (x.machine.pool.stage? id)

namespace Timed.Hands

variable {ids : List UnitId} {x y : Timed (Option ProbeResult)}

/-- Something else happens at once. -/
theorem aside (h : x.Hands s t courses limit proxy host port ids)
    (hs : x.step? courses t l = some y) (hl : l.turnOf? t = none)
    (hp : y.program = Program.probeAfter limit proxy host port ids)
    (hclock : y.machine.world.clock = x.machine.world.clock) :
    y.Hands s t courses limit proxy host port ids := by
  obtain ⟨moves, hmoves⟩ := pool_timed hs
  refine ⟨hp, hclock.trans h.clock, (closed_timed hs).trans h.opened,
    Nat.le_trans h.length (Pool.length_le_run hmoves), h.sorted, fun i id hi => ?_⟩
  obtain ⟨hle, ⟨work, hwork, hunit⟩, habreast⟩ := h.checks i id hi
  have hown : (unitsOf x.machine.pool t id).isSome = true := by rw [hunit, Option.isSome_some]
  exact ⟨hle, ⟨work, hwork, by rw [unitsOf_aside hs hl, hunit]⟩,
    abreast_step hs hl hclock hown habreast⟩

/-- The next check is handed in. -/
theorem next {m : Machine} {p : Program (Option ProbeResult)} {since : UnitId → Time} {work : Work}
    (h : Hands s t courses limit proxy host port ids ⟨⟨m, p⟩, since⟩)
    (hwork : (checksOf proxy host port)[ids.length]? = some work) :
    Hands s t courses limit proxy host port (ids ++ [m.pool.units.length])
      ⟨⟨{ m with pool := (m.pool.spawn (some t) work).2 },
        Program.probeAfter limit proxy host port (ids ++ [m.pool.units.length])⟩, since⟩ := by
  have hclosed : m.pool.closed = false := h.opened
  have hlt : ∀ {i id : Nat}, ids[i]? = some id → id < m.pool.units.length := fun hi => by
    obtain ⟨-, ⟨work, -, hunit⟩, -⟩ := h.checks _ _ hi
    have hunit : unitsOf m.pool t _ = some work := hunit
    exact lt_of_unitsOf (t := t) (by rw [hunit, Option.isSome_some])
  refine ⟨rfl, h.clock, h.opened, ?_, ?_, fun i id hi => ?_⟩
  · exact Nat.le_trans h.length (List.length_append ▸ Nat.le_add_right ..)
  · refine List.pairwise_append.2 ⟨h.sorted, List.pairwise_singleton .., fun id hid new hnew => ?_⟩
    obtain rfl := List.mem_singleton.1 hnew
    obtain ⟨i, hi⟩ := List.getElem?_of_mem hid
    exact hlt hi
  · show _ ∧ (∃ work', _ ∧ unitsOf (m.pool.spawn (some t) work).2 t id = some work') ∧
      Abreast _ _ _ _ ((m.pool.spawn (some t) work).2.stage? id)
    rw [unitsOf_spawn, if_pos rfl, Units.add, Pool.stage?_spawn]
    obtain hold | ⟨rfl, hnew⟩ : ids[i]? = some id ∨ i = ids.length ∧ id = m.pool.units.length := by
      grind
    · have hne : id ≠ m.pool.units.length := Nat.ne_of_lt (hlt hold)
      rw [if_neg hne, if_neg hne]
      exact h.checks i id hold
    · rw [if_pos hnew, if_pos hnew, hclosed]
      exact ⟨hnew ▸ h.length, ⟨work, hwork, rfl⟩, .waits rfl h.clock⟩

/-- A probe has three checks. -/
theorem length_cases (h : x.Hands s t courses limit proxy host port ids) :
    (∃ work, (checksOf proxy host port)[ids.length]? = some work) ∨
      ∃ udp server credentials, ids = [udp, server, credentials] := by
  match ids with
  | [] | [_] | [_, _] => exact .inl ⟨_, rfl⟩
  | [udp, server, credentials] => exact .inr ⟨udp, server, credentials, rfl⟩
  | _ :: _ :: _ :: id :: _ =>
      obtain ⟨-, ⟨work, hwork, -⟩, -⟩ := h.checks 3 id rfl
      cases hwork

/-- **While a probe hands in its checks**, it hands in the next one, or something else happens. -/
theorem step {work : Work} (h : x.Hands s t courses limit proxy host port ids)
    (hwork : (checksOf proxy host port)[ids.length]? = some work)
    (hs : x.step? courses t l = some y) :
    ∃ ids, y.Hands s t courses limit proxy host port ids := by
  obtain ⟨⟨m, p⟩, since⟩ := x
  obtain rfl : p = _ := h.program.trans (Program.probeAfter_eq hwork)
  obtain rfl | ⟨hl, hy, hclock⟩ := step_spawn hs
  · exact ⟨_, h.next hwork⟩
  · exact ⟨ids, h.aside hs hl (hy.trans (Program.probeAfter_eq hwork).symm) hclock⟩

/-- **How far a probe is that hands in its checks**: it still does so, or all are handed in after
some of the steps. -/
theorem run (h : x.Hands s t courses limit proxy host port ids)
    (hrun : x.run? courses t labels = some y) :
    (∃ ids work, y.Hands s t courses limit proxy host port ids ∧
      (checksOf proxy host port)[ids.length]? = some work) ∨
    ∃ before after udp server credentials z, labels = before ++ after ∧
      x.run? courses t before = some z ∧
      z.Hands s t courses limit proxy host port [udp, server, credentials] ∧
      z.run? courses t after = some y := by
  induction labels generalizing x ids with
  | nil =>
      obtain rfl := Option.some.inj hrun
      obtain ⟨work, hwork⟩ | ⟨udp, server, credentials, rfl⟩ := h.length_cases
      · exact .inl ⟨ids, work, h, hwork⟩
      · exact .inr ⟨[], [], udp, server, credentials, x, rfl, rfl, h, rfl⟩
  | cons l labels ih =>
      obtain ⟨work, hwork⟩ | ⟨udp, server, credentials, rfl⟩ := h.length_cases
      · obtain ⟨x₁, hs, hrun⟩ := Option.bind_eq_some_iff.1 hrun
        obtain ⟨ids, h₁⟩ := h.step hwork hs
        obtain still | ⟨before, after, udp, server, credentials, z, rfl, hbefore, hz, hafter⟩ :=
          ih h₁ hrun
        · exact .inl still
        · exact .inr ⟨l :: before, after, udp, server, credentials, z, rfl,
            run?_cons hs hbefore, hz, hafter⟩
      · exact .inr ⟨[], _, udp, server, credentials, x, rfl, rfl, h, hrun⟩

/-- **Nothing keeps a probe from handing in its checks.** -/
theorem exists_rest (h : x.Hands s t courses limit proxy host port ids) :
    ∃ labels udp server credentials y, x.run? courses t labels = some y ∧
      y.Hands s t courses limit proxy host port [udp, server, credentials] := by
  induction hn : 3 - ids.length generalizing x ids with
  | zero =>
      obtain ⟨work, hwork⟩ | ⟨udp, server, credentials, rfl⟩ := h.length_cases
      · have hlt : ids.length < 3 := (List.getElem?_eq_some_iff.1 hwork).1
        exact absurd hlt (Nat.not_lt_of_le (Nat.le_of_sub_eq_zero hn))
      · exact ⟨[], udp, server, credentials, x, rfl, h⟩
  | succ n ih =>
      obtain ⟨work, hwork⟩ | ⟨udp, server, credentials, rfl⟩ := h.length_cases
      · obtain ⟨⟨m, p⟩, since⟩ := x
        obtain rfl : p = _ := h.program.trans (Program.probeAfter_eq hwork)
        have hids : 3 - (ids ++ [m.pool.units.length]).length = n := by
          rw [List.length_append, List.length_singleton]
          omega
        obtain ⟨labels, udp, server, credentials, y, hrun, hy⟩ := ih (h.next hwork) hids
        exact ⟨.turn t {} :: labels, udp, server, credentials, y,
          run?_cons (step?_turn rfl) hrun, hy⟩
      · cases hn

end Timed.Hands

/-! ### Probes that have begun -/

/-- **All checks of a probe are handed in** after the steps `before`.  No time has passed since it
began in the machine `s`, and each of them is abreast of its course. -/
structure Machine.HandsIn (s : Machine) (t : TaskId) (courses : UnitId → Course)
    (since : UnitId → Time) (limit : Option Time) (proxy : SocketAddress) (host : String)
    (port : UInt16) (before : List Label) (udp server credentials : UnitId)
    (x : Timed (Option ProbeResult)) : Prop where
  run : (Timed.probing s since limit proxy host port).run? courses t before = some x
  program : x.program = Program.finishProbe limit udp server credentials
  clock : x.machine.world.clock = s.world.clock
  order : s.pool.units.length ≤ udp ∧ udp < server ∧ server < credentials
  checks : unitsOf x.machine.pool t udp = some (.checkUdp proxy) ∧
    unitsOf x.machine.pool t server = some (.checkServer host port) ∧
    unitsOf x.machine.pool t credentials = some (.checkCredentials proxy)
  abreast : ∀ id ∈ [udp, server, credentials], Abreast (courses id) s.world.clock
    x.machine.world.clock (x.since id) (x.machine.pool.stage? id)

variable {since : UnitId → Time} {x : Timed (Option ProbeResult)} {udp server credentials : UnitId}
  {before : List Label}

theorem Timed.Hands.handsIn
    (h : x.Hands s t courses limit proxy host port [udp, server, credentials])
    (hrun : (Timed.probing s since limit proxy host port).run? courses t before = some x) :
    s.HandsIn t courses since limit proxy host port before udp server credentials x := by
  obtain ⟨hudp, ⟨_, ⟨⟩, hu⟩, habreast₀⟩ := h.checks 0 udp rfl
  obtain ⟨-, ⟨_, ⟨⟩, hs⟩, habreast₁⟩ := h.checks 1 server rfl
  obtain ⟨-, ⟨_, ⟨⟩, hc⟩, habreast₂⟩ := h.checks 2 credentials rfl
  have hsorted := h.sorted
  simp only [List.pairwise_cons, List.mem_cons, List.not_mem_nil, or_false, forall_eq_or_imp,
    forall_eq] at hsorted
  refine ⟨hrun, h.program, h.clock, ⟨hudp, hsorted.1.1, hsorted.2.1⟩, ⟨hu, hs, hc⟩, fun id hid => ?_⟩
  simp only [List.mem_cons, List.not_mem_nil, or_false] at hid
  obtain rfl | rfl | rfl := hid <;> assumption

/-- Its checks belong to the task, and none of them is later than the last one. -/
theorem Machine.HandsIn.own
    (h : s.HandsIn t courses since limit proxy host port before udp server credentials x)
    (hid : id ∈ [udp, server, credentials]) :
    id < credentials + 1 ∧ (unitsOf x.machine.pool t id).isSome = true := by
  obtain ⟨-, hus, hsc⟩ := h.order
  obtain ⟨hu, hs, hc⟩ := h.checks
  simp only [List.mem_cons, List.not_mem_nil, or_false] at hid
  obtain rfl | rfl | rfl := hid
  · exact ⟨Nat.lt_succ_of_lt (Nat.lt_trans hus hsc), Option.isSome_of_eq_some hu⟩
  · exact ⟨Nat.lt_succ_of_lt hsc, Option.isSome_of_eq_some hs⟩
  · exact ⟨Nat.lt_succ_self _, Option.isSome_of_eq_some hc⟩

/-- **A probe hands in its checks**, in a pool that is open: as long as they are not all handed in,
no time passes, and they can be; and once they are, the run goes on from there. -/
theorem Machine.hands_in (hopen : s.pool.closed = false) {y : Timed (Option ProbeResult)}
    (hrun : (Timed.probing s since limit proxy host port).run? courses t labels = some y) :
    y.machine.world.clock = s.world.clock ∧ (∃ work next, y.program = .ask (.spawn work) next) ∧
        (∃ more udp server credentials x, y.run? courses t more = some x ∧
          s.HandsIn t courses since limit proxy host port (labels ++ more) udp server credentials
            x) ∨
      ∃ before after udp server credentials x, labels = before ++ after ∧
        s.HandsIn t courses since limit proxy host port before udp server credentials x ∧
        x.run? courses t after = some y := by
  have start : (Timed.probing s since limit proxy host port).Hands s t courses limit proxy host
      port [] :=
    ⟨rfl, rfl, hopen, Nat.le_refl _, .nil, nofun⟩
  obtain ⟨ids, work, hy, hwork⟩ | ⟨before, after, udp, server, credentials, z, rfl, hbefore, hz,
    hafter⟩ := start.run hrun
  · obtain ⟨more, udp, server, credentials, z, hmore, hz⟩ := hy.exists_rest
    refine .inl ⟨hy.clock, ⟨work, _, hy.program.trans (Program.probeAfter_eq hwork)⟩, more, udp,
      server, credentials, z, hmore, hz.handsIn ?_⟩
    rw [Timed.run?_append, hrun]
    exact hmore
  · exact .inr ⟨before, after, udp, server, credentials, z, rfl, hz.handsIn hbefore, hafter⟩

end TunnelKeeper.Service
