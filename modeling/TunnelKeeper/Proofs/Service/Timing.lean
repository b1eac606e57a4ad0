import TunnelKeeper.Proofs.Service.Verdicts
import TunnelKeeper.Proofs.Workers.Precedence

/-!
# Timing — when a probe answers, and what

If there are workers for all three checks of a probe, the checks begin at once when they have asked,
and then their courses tell what the probe answers and when (`timedVerdict`).  Whatever else
happens, no step changes what has been foretold (`Punctual.step`): until all checks have asked no
time passes, and from then on none of them waits while it does (`Secured.step`).

* `Punctual.step`: the invariant, which time keeps as well.
* `probe_answers_in_time`: a probe answers what is foretold, and then.
-/

namespace TunnelKeeper.Service

open Pool (Joined)

variable {α : Type} {s : Machine} {t : TaskId} {l : Label} {labels : List Label} {id : UnitId}
  {courses : UnitId → Course} {start : Time} {limit : Option Time}

/-! ### Punctual tasks -/

/-- **Permits are held or set aside** for all units that have not ended. -/
structure Secured (ids : List UnitId) (x : Timed α) : Prop where
  known : ∀ id ∈ ids, id < x.machine.pool.units.length
  granted : ∀ id ∈ ids, x.machine.pool.stage? id = some .waiting → id ∈ x.machine.pool.granted

/-- **No step takes a permit from them.** -/
theorem Secured.step {ids : List UnitId} {x y : Timed α} (h : Secured ids x)
    (hs : x.step? courses t l = some y) : Secured ids y := by
  obtain ⟨moves, hmoves⟩ := Timed.pool_timed hs
  exact ⟨fun id hid => Nat.lt_of_lt_of_le (h.known id hid) (Pool.length_le_run hmoves),
    fun id hid => Pool.granted_waits hmoves (h.known id hid) (h.granted id hid)⟩

/-- **All units of work are abreast** that a task has handed in. -/
def AllAbreast (courses : UnitId → Course) (t : TaskId) (start : Time) (ids : List UnitId)
    (x : Timed α) : Prop :=
  ∀ id ∈ ids, (unitsOf x.machine.pool t id).isSome = true ∧
    Abreast (courses id) start x.machine.world.clock (x.since id) (x.machine.pool.stage? id)

namespace AllAbreast

variable {ids : List UnitId} {x y : Timed α}

/-- Time keeps a unit abreast of its course, if it does not wait. -/
theorem abreast_elapse {span : Time} (h : AllAbreast courses t start ids x) (hsec : Secured ids x)
    (hs : x.step? courses t (.elapse span) = some y) (hid : id ∈ ids) :
    Abreast (courses id) start y.machine.world.clock (y.since id) (y.machine.pool.stage? id) := by
  obtain ⟨-, habreast⟩ := h id hid
  obtain ⟨hsettled, hdues⟩ := Timed.keeps_elapse.1 (Timed.step?_eq_some.1 hs).2.1
  obtain ⟨hpool, hsince⟩ := Timed.elapse_timed hs
  rw [Timed.clock_timed hs, hpool, hsince]
  cases habreast with
  | waits hw => exact absurd hw (hsettled.not_waiting (hsec.granted id hid hw))
  | works hr hs => exact .works hr hs fun due hdue => hdues id due hr (hs.symm ▸ hdue)
  | ended he hdue hle => exact .ended he hdue (Nat.le_trans hle (Nat.le_add_right ..))

/-- **All units stay abreast of their courses**, whatever happens but an answer to the task. -/
theorem step (h : AllAbreast courses t start ids x)
    (hsec : y.machine.world.clock = x.machine.world.clock ∨ Secured ids x)
    (hs : x.step? courses t l = some y) (hl : l.turnOf? t = none) :
    AllAbreast courses t start ids y := by
  intro id hid
  obtain ⟨hown, habreast⟩ := h id hid
  refine ⟨by rwa [Timed.unitsOf_aside hs hl], ?_⟩
  have hclock := Timed.clock_timed hs
  cases l with
  | elapse span =>
      obtain hsame | hsec := hsec
      · exact Timed.abreast_step hs hl hsame hown habreast
      · exact h.abreast_elapse hsec hs hid
  | _ => exact Timed.abreast_step hs hl hclock hown habreast

end AllAbreast

/-- **A task is punctual** if what is foretold of it is still to come, or has come. -/
inductive Punctual (courses : UnitId → Course) (t : TaskId) (start : Time) (ids : List UnitId)
    (o : Option (α × Time)) (x : Timed α) : Prop where
  | settled {out : α} (h : GivesUp out x.program) (ho : o = some (out, x.machine.world.clock))
  | waits (hp : Foretold courses start ids x.machine.world.clock x.program o)
      (h : AllAbreast courses t start ids x)

namespace Punctual

variable {ids : List UnitId} {o : Option (α × Time)} {x y : Timed α}

theorem step_settled {out : α} (h : GivesUp out x.program)
    (ho : o = some (out, x.machine.world.clock)) (hs : x.step? courses t l = some y) :
    Punctual courses t start ids o y := by
  obtain ⟨hp, hclock⟩ := h.step (Timed.step?_eq_some.1 hs).1
  exact .settled hp (by rw [hclock, ho])

/-- While the task waits, what is foretold of it stays so. -/
theorem foretold_aside {limit : Option Time} {next : Joined Bool → Program α}
    (h : Foretold courses start ids x.machine.world.clock (.ask (.join id limit) next) o)
    (hid : id ∈ ids) (hall : AllAbreast courses t start ids y)
    (hs : x.step? courses t l = some y)
    (htime : ∀ span, l = .elapse span → x.machine.pool.joined? id = none ∧
      ∀ time, limit = some time → x.machine.world.clock + span ≤ time) :
    Foretold courses start ids y.machine.world.clock (.ask (.join id limit) next) o := by
  have hclock := Timed.clock_timed hs
  cases l with
  | elapse span =>
      obtain ⟨hj, hlimit⟩ := htime span rfl
      have hj : y.machine.pool.joined? id = none := by rw [(Timed.elapse_timed hs).1, hj]
      refine h.later (hclock ▸ Nat.le_add_right ..) ((hall id hid).2.unjoined hj).2 ?_
      exact fun time ht => hclock ▸ hlimit time ht
  | _ => exact hclock ▸ h

/-- **No step changes what has been foretold**, if no unit waits while time passes. -/
theorem step (h : Punctual courses t start ids o x)
    (hsec : y.machine.world.clock = x.machine.world.clock ∨ Secured ids x)
    (hs : x.step? courses t l = some y) : Punctual courses t start ids o y := by
  cases h with
  | settled h ho => exact step_settled h ho hs
  | waits hp h =>
      obtain ⟨⟨s, p⟩, since⟩ := x
      cases hp with
      | settled hp => exact step_settled hp rfl hs
      | now hp =>
          obtain rfl | ⟨hl, hy, hclock⟩ := Timed.step_now hs
          · exact .waits hp h
          · exact .waits (hy ▸ hclock ▸ .now hp) (h.step (.inl hclock) hs hl)
      | @join _ id limit next _ hid ends late never =>
          have hp := Foretold.join hid ends late never
          obtain ⟨joined, rfl, hj⟩ | ⟨hl, hy, htime⟩ := Timed.step_join hs
          · exact .waits (hp.answered (h id hid).2 hj) h
          · have hall := h.step hsec hs hl
            exact .waits (hy ▸ foretold_aside hp hid hall hs htime) hall

/-- Nothing does that happens at once. -/
theorem run_at_once (h : Punctual courses t start ids o x) (hrun : x.run? courses t labels = some y)
    (hclock : y.machine.world.clock = x.machine.world.clock) :
    Punctual courses t start ids o y := by
  induction labels generalizing x with
  | nil =>
      obtain rfl := Option.some.inj hrun
      exact h
  | cons l labels ih =>
      obtain ⟨x₁, hs, hrun⟩ := Option.bind_eq_some_iff.1 hrun
      have hfirst : x.machine.world.clock ≤ x₁.machine.world.clock :=
        Timed.clock_timed hs ▸ Nat.le_add_right ..
      have hrest := Passage.clock_le_run (Timed.run?_passage hrun)
      have hsame := Nat.le_antisymm (hclock ▸ hrest) hfirst
      exact ih (h.step (.inl hsame) hs) hrun (hclock.trans hsame.symm)

/-- Nothing does, as long as no unit waits for a permit. -/
theorem run (h : Punctual courses t start ids o x) (hsec : Secured ids x)
    (hrun : x.run? courses t labels = some y) :
    Punctual courses t start ids o y ∧ Secured ids y :=
  Timed.run_invariant (P := fun z => Punctual courses t start ids o z ∧ Secured ids z)
    (fun h hs => ⟨h.1.step (.inr h.2) hs, h.2.step hs⟩) ⟨h, hsec⟩ hrun

/-- What is done has come as it was foretold. -/
theorem done (h : Punctual courses t start ids o x) {a : α} (hp : x.program = .done a) :
    o = some (a, x.machine.world.clock) := by
  cases h with
  | settled h ho =>
      rw [hp] at h
      rw [h.eq_out, ho]
  | waits h _ =>
      rw [hp] at h
      cases h with
      | settled h => rw [h.eq_out]

/-- What is foretold is still to come, or has just come. -/
theorem clock_le (h : Punctual courses t start ids o x) {out : α × Time} (ho : o = some out) :
    x.machine.world.clock ≤ out.2 := by
  cases h with
  | settled _ he =>
      obtain rfl := Option.some.inj (he.symm.trans ho)
      exact Nat.le_refl _
  | waits h _ => exact h.clock_le ho

/-- A wait of which something is foretold has something to wait for. -/
theorem awaits {limit : Option Time} {next : Joined Bool → Program α}
    (h : Punctual courses t start ids o x) (hsec : Secured ids x) (ho : o ≠ none)
    (hp : x.program = .ask (.join id limit) next) (hj : x.machine.pool.joined? id = none)
    (hsettled : x.machine.pool.Settled) : ∃ time, Timed.Awaits courses x limit time := by
  cases h with
  | settled h =>
      rw [hp] at h
      cases h
  | waits h hall =>
      rw [hp] at h
      cases h with
      | settled h => cases h
      | join hid _ _ never =>
          cases limit with
          | some time => exact ⟨time, .inl rfl⟩
          | none =>
              obtain ⟨due, hdue⟩ := Option.ne_none_iff_exists'.1 fun hdue => ho (never rfl hdue)
              obtain ⟨hw | ⟨hr, hsince⟩, -⟩ := (hall id hid).2.unjoined hj
              · exact absurd hw (hsettled.not_waiting (hsec.granted id hid hw))
              · exact ⟨due, .inr ⟨id, hr, hsince ▸ hdue⟩⟩

/-- A punctual task only waits. -/
theorem isPatient (h : Punctual courses t start ids o x) {q : Ask} {next : q.Answer → Program α}
    (hp : x.program = .ask q next) : q.isPatient = true := by
  cases h with
  | settled h => exact (hp ▸ h).isPatient
  | waits h =>
      rw [hp] at h
      cases h with
      | settled h => exact h.isPatient
      | now | join => rfl

/-- **What is foretold can come.** -/
theorem canEnd (h : Punctual courses t start ids o x) (hsec : Secured ids x) (ho : o ≠ none) :
    x.CanEnd courses t :=
  .of_awaits (I := fun x => Punctual courses t start ids o x ∧ Secured ids x)
    (fun h hs => ⟨h.1.step (.inr h.2) hs, h.2.step hs⟩) (fun _ _ _ h => h.1.isPatient)
    (fun _ _ _ _ h => h.1.awaits h.2 ho) ⟨h, hsec⟩

end Punctual

/-! ### Probes in time -/

variable {proxy : SocketAddress} {host : String} {port : UInt16} {since : UnitId → Time}
  {before : List Label} {udp server credentials : UnitId} {x y : Timed (Option ProbeResult)}

/-- **A probe keeps to the verdict** that the courses of its checks tell, whatever happens from `x`
on; its checks began at `start`. -/
structure Timed.KeepsVerdict (x : Timed (Option ProbeResult)) (t : TaskId)
    (courses : UnitId → Course) (limit : Option Time) (start : Time)
    (udp server credentials : UnitId) : Prop where
  /-- When it is done it has come to that verdict, at the time that is told. -/
  answers : ∀ labels y verdict, x.run? courses t labels = some y → y.program = .done verdict →
    ∃ r, verdict = some r ∧
      timedVerdict limit start (courses udp) (courses server) (courses credentials) =
        some (r, y.machine.world.clock)
  /-- If one is told, it never goes on for longer, and can always come to its end. -/
  ends : ∀ labels y r time, x.run? courses t labels = some y →
    timedVerdict limit start (courses udp) (courses server) (courses credentials) =
      some (r, time) → y.machine.world.clock ≤ time ∧ y.CanEnd courses t

/-- **What time makes of a probe**, while all units of work keep to their courses and anything else
happens.  `s` is the machine in which the task `t` comes to probe the proxy. -/
structure Machine.ProbesInTime (s : Machine) (t : TaskId) (courses : UnitId → Course)
    (since : UnitId → Time) (limit : Option Time) (proxy : SocketAddress) (host : String)
    (port : UInt16) : Prop extends s.BeginsProbe t courses since limit proxy host port where
  /-- Permits are set aside for all checks that wait when they have asked, if there were permits for
  as many units of work as have been handed in by then: for three more, if nobody else has handed in
  any. -/
  roomy : s.pool.Sound → ∀ m, s.pool.Roomy m → ∀ before udp server credentials y,
    s.Applies t courses since limit proxy host port before udp server credentials y →
      y.machine.pool.units.length ≤ m → ∀ id ∈ [udp, server, credentials],
        y.machine.pool.stage? id = some .waiting → id ∈ y.machine.pool.granted
  /-- If permits are set aside for all checks that wait, and none of them ends at the very time at
  which the wait for it does, the probe keeps to the verdict that their courses tell. -/
  in_time : ∀ before udp server credentials y,
    s.Applies t courses since limit proxy host port before udp server credentials y →
      (∀ id ∈ [udp, server, credentials], y.machine.pool.stage? id = some .waiting →
        id ∈ y.machine.pool.granted) →
        AllApart limit s.world.clock (courses udp) (courses server) (courses credentials) →
          y.KeepsVerdict t courses limit s.world.clock udp server credentials
  /-- With a limit they tell one, and no later than three times the limit; -/
  limited : ∀ span, limit = some span → ∀ udp server credentials, ∃ r time,
    timedVerdict limit s.world.clock udp server credentials = some (r, time) ∧
      time ≤ s.world.clock + 3 * span
  /-- and without a limit, unless a check never ends for which the probe waits. -/
  hangs : ∀ udp server credentials,
    timedVerdict limit s.world.clock udp server credentials = none ↔ limit = none ∧
      (udp.span = none ∨ udp.result = some false ∧
        (server.span = none ∨ server.result ≠ none ∧ credentials.span = none))

/-- Once its checks are handed in, a probe is punctual. -/
theorem Machine.HandsIn.punctual
    (h : s.HandsIn t courses since limit proxy host port before udp server credentials x)
    (hapart : AllApart limit s.world.clock (courses udp) (courses server) (courses credentials)) :
    Punctual courses t s.world.clock [udp, server, credentials]
      ((timedVerdict limit s.world.clock (courses udp) (courses server) (courses credentials)).map
        fun out => (some out.1, out.2)) x := by
  refine .waits ?_ fun id hid => ⟨(h.own hid).2, h.abreast id hid⟩
  rw [h.program, h.clock]
  exact .checks hapart

/-- **A probe answers what the courses of its checks tell, and when they do**, if there are workers
for its checks and none of them ends at the very time at which the wait for it does. -/
theorem probe_answers_in_time {task : Task} (htask : s.tasks[t]? = some task)
    (ha : task.alive = true) (hopen : s.pool.closed = false) (courses : UnitId → Course)
    (since : UnitId → Time) (limit : Option Time) (proxy : SocketAddress) (host : String)
    (port : UInt16) : s.ProbesInTime t courses since limit proxy host port where
  toBeginsProbe := s.beginsProbe htask ha hopen
  roomy sound m hroom before udp server credentials y h hlen id hid hw := by
    obtain ⟨moves, hmoves⟩ := h.moves
    exact (Pool.Roomy.run hroom hmoves hlen).granted (sound.run hmoves) (h.mem_queue hid hw)
  in_time before udp server credentials y h hgranted hapart := by
    obtain ⟨handing, asking, x, rfl, hx, hrun⟩ := h.handsIn
    have hy := (hx.punctual hapart).run_at_once hrun (h.clock.trans hx.clock.symm)
    have hsec : Secured [udp, server, credentials] y := ⟨fun id hid => h.known hid, hgranted⟩
    constructor
    case answers =>
      intro labels z verdict hrun hp
      have hdone := (hy.run hsec hrun).1.done hp
      obtain ⟨⟨r, time⟩, hverdict, he⟩ := Option.map_eq_some_iff.1 hdone
      obtain ⟨rfl, rfl⟩ := Prod.mk.inj he
      exact ⟨r, rfl, hverdict⟩
    case ends =>
      intro labels z r time hrun hverdict
      obtain ⟨hz, hsec⟩ := hy.run hsec hrun
      rw [hverdict] at hz
      exact ⟨hz.clock_le rfl, hz.canEnd hsec nofun⟩
  limited := by
    rintro span rfl udp server credentials
    exact timedVerdict_le ..
  hangs _ _ _ := timedVerdict_eq_none_iff

/-- Datagrams are not relayed, the server takes connections after a while, and the credentials are
not valid, which is known soon. -/
def refusedCourses : UnitId → Course
  | 0 => ⟨some 30, some false⟩
  | 1 => ⟨some 60, some true⟩
  | _ => ⟨some 10, some false⟩

/-- The first check begins before the others are handed in. -/
def beginningEarly : List Label := [.turn 0 {}, .ask 0, .begin 0, .turn 0 {}, .turn 0 {}]

/-- They are all handed in. -/
def refusedProbe : Timed (Option ProbeResult) :=
  ((Timed.probing attemptingService (fun _ => 0) (some 50) (.ofV4 127 0 0 1 1081) "1.2.3.4"
    8388).run? refusedCourses 0 beginningEarly).get (by rfl)

/-- The last one asks before the second. -/
def askingProbe : Timed (Option ProbeResult) :=
  (refusedProbe.run? refusedCourses 0 [.ask 2, .ask 1]).get (by rfl)

/-- The checks come to their ends, and the probe waits for one after the other. -/
def refusing : List Label :=
  [.begin 1, .begin 2, .turn 0 {}, .elapse 10, .finish 2 false, .elapse 20, .finish 0 false,
    .turn 0 {}, .turn 0 {}, .elapse 30, .finish 1 true, .turn 0 {}, .turn 0 {}, .turn 0 {},
    .turn 0 {}, .turn 0 {}, .turn 0 {}]

/-- A check is heard that takes longer than one limit, since the wait for it begins later. -/
theorem refused_probe_in_time :
    attemptingService.Applies 0 refusedCourses (fun _ => 0) (some 50) (.ofV4 127 0 0 1 1081)
      "1.2.3.4" 8388 (beginningEarly ++ [.ask 2, .ask 1]) 0 1 2 askingProbe ∧
    ∃ y, askingProbe.run? refusedCourses 0 refusing = some y ∧
      y.program = .done (some .invalidCredentials) ∧ y.machine.world.clock = 60 := by
  have handed : attemptingService.HandsIn 0 refusedCourses (fun _ => 0) (some 50)
      (.ofV4 127 0 0 1 1081) "1.2.3.4" 8388 beginningEarly 0 1 2 refusedProbe := by
    refine ⟨rfl, rfl, rfl, by decide, ⟨rfl, rfl, rfl⟩, fun id hid => ?_⟩
    simp only [List.mem_cons, List.not_mem_nil, or_false] at hid
    obtain rfl | rfl | rfl := hid
    · exact .works rfl rfl fun due _ => Nat.zero_le due
    · exact .waits rfl rfl
    · exact .waits rfl rfl
  have asked : attemptingService.Applies 0 refusedCourses (fun _ => 0) (some 50)
      (.ofV4 127 0 0 1 1081) "1.2.3.4" 8388 (beginningEarly ++ [.ask 2, .ask 1]) 0 1 2
      askingProbe :=
    ⟨⟨_, _, refusedProbe, rfl, handed, rfl⟩, rfl, by decide⟩
  have hapart : AllApart (some 50) attemptingService.world.clock (refusedCourses 0)
      (refusedCourses 1) (refusedCourses 2) := by
    constructor
    · rintro _ ⟨⟩
      decide
    · rintro _ ⟨⟩ _ ⟨⟩
      decide
    · rintro _ _ _ ⟨⟩ ⟨⟩ _ ⟨⟩
      decide
  have probes := probe_answers_in_time (s := attemptingService) (t := 0) rfl rfl rfl
    refusedCourses (fun _ => 0) (some 50) (.ofV4 127 0 0 1 1081) "1.2.3.4" 8388
  have hroom := probes.roomy (.ofSize 4) 3 (by decide) _ _ _ _ _ asked (by decide)
  obtain ⟨r, hr, hverdict⟩ := (probes.in_time _ _ _ _ _ asked hroom hapart).answers refusing _ _
    rfl rfl
  cases hverdict
  exact ⟨asked, _, rfl, congrArg _ hr, rfl⟩

end TunnelKeeper.Service
