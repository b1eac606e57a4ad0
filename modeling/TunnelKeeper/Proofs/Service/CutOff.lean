import TunnelKeeper.Proofs.Service.Passages

/-!
# Cut off — attempts that give up at a time

An attempt with a limit asks what an attempt without it asks.  Only its waits differ: they end no
later than the attempt, and what follows a wait that the end of the attempt has cut short is to give
up all units of work (`CutOff`).  So as long as the end has not come, both do the same in the same
machine, whatever else happens there; and once it has come, one of them gives up.

* `CutOff.startProxy`: an attempt with a limit is the one without it, cut off at its end.
* `CutOff.step`, `CutOff.step_back`: one step with the limit and one without it.
-/

namespace TunnelKeeper.Service

open Pool (Joined)

variable {α β : Type} {s s' : Machine} {t : TaskId} {l : Label} {labels : List Label}
  {ending clock : Time} {out : α}

/-! ### Programs that are cut off -/

/-- **A program that has run out of time** gives up units of work, and is done. -/
inductive GivesUp (out : α) : Program α → Prop where
  | done : GivesUp out (.done out)
  | abandon {id : UnitId} {next : Unit → Program α} (h : GivesUp out (next ())) :
      GivesUp out (.ask (.abandon id) next)

theorem GivesUp.bind {out' : β} {f : α → Program β} {p : Program α} (hp : GivesUp out p)
    (hf : GivesUp out' (f out)) : GivesUp out' (p.bind f) := by
  induction hp with
  | done => exact hf
  | abandon _ ih => exact .abandon ih

/-- Questions that have an answer at any time, and always the same one. -/
def Ask.isInstant : Ask → Bool
  | .spawn _ | .abandon _ | .call _ => true
  | _ => false

/-- **A program is cut off**: from a time on, the first one does what the second one does, except
that a wait which ends after `ending` is cut short there, and then it gives up with `out`. -/
inductive CutOff (ending : Time) (out : α) : Time → Program α → Program α → Prop where
  | done {clock : Time} (a : α) : CutOff ending out clock (.done a) (.done a)
  | now {clock : Time} {next next' : Time → Program α}
      (h : CutOff ending out clock (next clock) (next' clock)) :
      CutOff ending out clock (.ask .now next) (.ask .now next')
  | instant {clock : Time} {q : Ask} {next next' : q.Answer → Program α} (hq : q.isInstant = true)
      (h : ∀ a, CutOff ending out clock (next a) (next' a)) :
      CutOff ending out clock (.ask q next) (.ask q next')
  | join {clock : Time} {id : UnitId} {wait : Option Time} {next next' : Joined Bool → Program α}
      (h : ∀ later joined, (joined = .timedOut → attemptFirst wait (some ending) = false) →
        CutOff ending out later (next joined) (next' joined))
      (hout : attemptFirst wait (some ending) = true → GivesUp out (next .timedOut)) :
      CutOff ending out clock (.ask (.join id (earlier wait (some ending))) next)
        (.ask (.join id wait) next')

/-- A wait inside an attempt ends with the attempt, or before it where it would have ended
anyway. -/
theorem earlier_cases (wait : Option Time) (ending : Time) :
    attemptFirst wait (some ending) = true ∧ earlier wait (some ending) = some ending ∧
        (∀ time, wait = some time → ending < time) ∨
      attemptFirst wait (some ending) = false ∧ earlier wait (some ending) = wait ∧
        ∃ time, wait = some time ∧ time ≤ ending := by
  cases wait with
  | none => exact .inl ⟨rfl, rfl, nofun⟩
  | some time =>
      by_cases h : ending < time
      · have hmin := congrArg some (Nat.min_eq_right (Nat.le_of_lt h))
        exact .inl ⟨decide_eq_true h, hmin, fun _ he => Option.some.inj he ▸ h⟩
      · have hle := Nat.le_of_not_lt h
        exact .inr ⟨decide_eq_false h, congrArg some (Nat.min_eq_left hle), time, rfl, hle⟩

theorem earlier_none (wait : Option Time) : earlier wait none = wait := by
  cases wait <;> rfl

theorem attemptFirst_none (wait : Option Time) : attemptFirst wait none = false := by
  cases wait <;> rfl

namespace CutOff

variable {p p' : Program α}

theorem bind {out' : β} {f f' : α → Program β} (hp : CutOff ending out clock p p')
    (hf : ∀ later a, CutOff ending out' later (f a) (f' a)) (hout : GivesUp out' (f out)) :
    CutOff ending out' clock (p.bind f) (p'.bind f') := by
  induction hp with
  | done a => exact hf _ a
  | now _ ih => exact .now ih
  | instant hq _ ih => exact .instant hq ih
  | join _ hgives ih => exact .join ih fun h => (hgives h).bind hout

theorem waitFor (id : UnitId) (span : Option Time) :
    CutOff ending Waited.outOfTime clock (Program.waitFor id span (some ending))
      (Program.waitFor id span none) := by
  refine .now ?_
  show CutOff ending _ clock (.ask (.join id (earlier _ (some ending))) _)
    (.ask (.join id (earlier _ none)) _)
  rw [earlier_none]
  have late : ∀ first : Bool, first = true →
      GivesUp Waited.outOfTime (.done (if first then .outOfTime else .failed)) := by
    rintro _ rfl
    exact .done
  have failed : ∀ later (first first' : Bool), first = false → first' = false →
      CutOff ending Waited.outOfTime later (.done (if first then .outOfTime else .failed))
        (.done (if first' then .outOfTime else .failed)) := by
    rintro later _ _ rfl rfl
    exact .done _
  refine .join (fun later joined h => ?_) (late _)
  cases joined with
  | value | panicked | refused => exact .done _
  | timedOut => exact failed later _ _ (h rfl) (attemptFirst_none _)

theorem judge (server credentials : UnitId) (span : Option Time) :
    CutOff ending none clock (Program.judge server credentials span (some ending))
      (Program.judge server credentials span none) := by
  refine (waitFor server span).bind (fun later waited => ?_) .done
  cases waited with
  | outOfTime | failed => exact .done _
  | answered reachable =>
      refine (waitFor credentials span).bind (fun later waited => ?_) .done
      cases waited with
      | outOfTime | failed => exact .done _
      | answered valid => cases valid <;> exact .done _

theorem probe (span : Option Time) (proxy : SocketAddress) (host : String) (port : UInt16) :
    CutOff ending none clock (Program.probe span (some ending) proxy host port)
      (Program.probe span none proxy host port) := by
  refine .instant rfl fun udp => .instant rfl fun server => .instant rfl fun credentials => ?_
  have given : ∀ later verdict, CutOff ending (none : Option ProbeResult) later
      (Program.abandon udp >>= fun _ => Program.abandon server >>= fun _ =>
        Program.abandon credentials >>= fun _ => pure verdict)
      (Program.abandon udp >>= fun _ => Program.abandon server >>= fun _ =>
        Program.abandon credentials >>= fun _ => pure verdict) := fun later verdict =>
    .instant rfl fun _ => .instant rfl fun _ => .instant rfl fun _ => .done _
  refine (waitFor udp span).bind (fun later waited => ?_) (.abandon (.abandon (.abandon .done)))
  cases waited with
  | outOfTime | failed => exact given _ _
  | answered relayed =>
      cases relayed with
      | true => exact given _ _
      | false =>
          exact (judge server credentials span).bind given (.abandon (.abandon (.abandon .done)))

theorem attempt (checks : Option Time) (limit limit' : Option Time) (config : TunnelConfig)
    (host : String) (port : UInt16) (probing : Bool) :
    CutOff ending none clock
      (Program.attempt ⟨limit, checks⟩ config host port probing (some ending))
      (Program.attempt ⟨limit', checks⟩ config host port probing none) := by
  refine .instant rfl fun start => ?_
  show CutOff ending none clock (.ask (.join start (earlier none (some ending))) _)
    (.ask (.join start none) _)
  refine .join (fun later joined h => ?_) fun _ => .abandon .done
  cases joined with
  | timedOut => exact absurd (h rfl) nofun
  | panicked | refused => exact .done _
  | value started =>
      cases started with
      | false => exact .done _
      | true =>
          cases probing with
          | false => exact .done _
          | true =>
              refine .instant rfl fun proxy => ?_
              exact (probe checks proxy host port).bind (fun _ _ => .done _) .done

/-- **An attempt with a limit is the one without it, cut off at its end.** -/
theorem startProxy (clock : Time) (checks : Option Time) (limit : Time) (config : TunnelConfig)
    (probing : Bool) : CutOff (clock + limit) ErrorCode.proxyStartFailure clock
      (Program.startProxy ⟨some limit, checks⟩ config probing)
      (Program.startProxy ⟨none, checks⟩ config probing) := by
  unfold Program.startProxy
  cases config.endpoint with
  | error e => exact .done _
  | ok endpoint =>
      refine .now ?_
      exact (attempt checks _ _ config endpoint.1 endpoint.2 probing).bind (fun _ _ => .done _)
        .done

end CutOff

/-! ### Step by step -/

theorem not_timedOut {pool : Pool Work Bool} {id : UnitId} :
    pool.joined? id ≠ some .timedOut := by
  unfold Pool.joined?
  split <;> nofun

theorem mayPass_instant {q : Ask} (hq : q.isInstant = true) (span : Time) :
    s.mayPass span q = false := by
  cases q with
  | spawn | abandon | call => rfl
  | _ => cases hq

theorem mayPass_join {id : UnitId} {limit : Option Time} {span : Time} :
    s.mayPass span (.join id limit) = true ↔
      s.pool.joined? id = none ∧ ∀ time, limit = some time → s.world.clock + span ≤ time := by
  cases limit <;> simp [Machine.mayPass]

section Waiting

variable {id : UnitId} {wait : Option Time} {around : Surroundings} {joined : Joined Bool}

/-- While a wait is not cut short, as much time may pass as without a limit, until the end. -/
theorem mayPass_cut {span : Time} : s.mayPass span (.join id (earlier wait (some ending))) = true ↔
    s.mayPass span (.join id wait) = true ∧
      (s.pool.joined? id = none → s.world.clock + span ≤ ending) := by
  rw [mayPass_join, mayPass_join]
  obtain ⟨-, he, hlt⟩ | ⟨-, he, time, rfl, hle⟩ := earlier_cases wait ending
  · rw [he]
    refine ⟨fun ⟨hj, h⟩ => ?_, fun ⟨⟨hj, _⟩, h⟩ => ⟨hj, fun _ he => Option.some.inj he ▸ h hj⟩⟩
    have hend := h ending rfl
    exact ⟨⟨hj, fun time ht => Nat.le_trans hend (Nat.le_of_lt (hlt time ht))⟩, fun _ => hend⟩
  · rw [he]
    exact ⟨fun h => ⟨h, fun _ => Nat.le_trans (h.2 time rfl) hle⟩, And.left⟩

theorem mayCome_cut (hc : s.world.clock ≤ ending) :
    s.mayCome t (.join id (earlier wait (some ending))) l = true ↔
      s.mayCome t (.join id wait) l = true ∧ s.world.clock + l.span ≤ ending := by
  cases l with
  | elapse span =>
      refine mayPass_cut.trans (and_congr_right fun h => ?_)
      exact ⟨fun h' => h' (mayPass_join.1 h).1, fun h' _ => h'⟩
  | _ => exact (and_iff_left hc).symm

/-- A wait with the limit ends as the one without it, or the attempt has come to its end. -/
theorem respond_cut (hc : s.world.clock ≤ ending)
    (hs : s.respond t around (.join id (earlier wait (some ending))) = some (joined, s')) :
    s' = s ∧ ((joined = .timedOut → attemptFirst wait (some ending) = false) ∧
        s.respond t around (.join id wait) = some (joined, s) ∨
      joined = .timedOut ∧ attemptFirst wait (some ending) = true ∧ s.world.clock = ending) := by
  obtain ⟨rfl, hj | ⟨hj, rfl, time, htime, hle⟩⟩ := respond_join.1 hs
  · refine ⟨rfl, .inl ⟨fun he => ?_, respond_join.2 ⟨rfl, .inl hj⟩⟩⟩
    exact absurd (he ▸ hj) not_timedOut
  · obtain ⟨hfirst, he, -⟩ | ⟨hfirst, he, -⟩ := earlier_cases wait ending
    · obtain rfl := Option.some.inj (he.symm.trans htime)
      exact ⟨rfl, .inr ⟨rfl, hfirst, Nat.le_antisymm hc hle⟩⟩
    · have htime := he.symm.trans htime
      exact ⟨rfl, .inl ⟨fun _ => hfirst, respond_join.2 ⟨rfl, .inr ⟨hj, rfl, time, htime, hle⟩⟩⟩⟩

/-- And a wait without it as the one with it, as long as the attempt has not come to its end. -/
theorem respond_uncut (hc : s.world.clock ≤ ending)
    (hs : s.respond t around (.join id wait) = some (joined, s')) :
    s' = s ∧ (joined = .timedOut → attemptFirst wait (some ending) = false) ∧
      s.respond t around (.join id (earlier wait (some ending))) = some (joined, s) := by
  obtain ⟨rfl, hj | ⟨hj, rfl, time, htime, hle⟩⟩ := respond_join.1 hs
  · refine ⟨rfl, fun he => ?_, respond_join.2 ⟨rfl, .inl hj⟩⟩
    exact absurd (he ▸ hj) not_timedOut
  · obtain ⟨-, -, hlt⟩ | ⟨hfirst, he, -⟩ := earlier_cases wait ending
    · exact absurd (hlt time htime) (Nat.not_lt_of_le (Nat.le_trans hle hc))
    · have htime := he.trans htime
      exact ⟨rfl, fun _ => hfirst, respond_join.2 ⟨rfl, .inr ⟨hj, rfl, time, htime, hle⟩⟩⟩

end Waiting

/-- What a task that does not wait is answered, or what else happens, does not depend on what it
goes on with, and takes no time. -/
theorem step?_same {q : Ask} {next : q.Answer → Program α} {y : Passage α}
    (hq : ∀ span, s.mayPass span q = false) (hs : Passage.step? t ⟨s, .ask q next⟩ l = some y) :
    y.machine.world.clock = s.world.clock ∧
      ((∃ around a, s.respond t around q = some (a, y.machine) ∧ y.program = next a ∧
        ∀ next' : q.Answer → Program α,
          Passage.step? t ⟨s, .ask q next'⟩ l = some ⟨y.machine, next' a⟩) ∨
      y.program = .ask q next ∧ ∀ next' : q.Answer → Program α,
        Passage.step? t ⟨s, .ask q next'⟩ l = some ⟨y.machine, .ask q next'⟩) := by
  obtain ⟨around, a, s', rfl, hr, rfl⟩ | ⟨s', hn, hl, hs', rfl⟩ := Passage.step?_cases hs
  · exact ⟨(world_respond hr).1, .inl ⟨around, a, hr, rfl, fun _ => Passage.step?_turn hr⟩⟩
  · refine ⟨?_, .inr ⟨rfl, fun _ => Passage.step?_other hn hl hs'⟩⟩
    cases l with
    | elapse span => exact nomatch (hq span).symm.trans hl
    | _ => exact (world_step hs').1

/-- A program that gives up takes no time for it. -/
theorem GivesUp.step {p : Program α} {y : Passage α} (hp : GivesUp out p)
    (hs : Passage.step? t ⟨s, p⟩ l = some y) :
    GivesUp out y.program ∧ y.machine.world.clock = s.world.clock := by
  cases hp with
  | done => exact absurd hs Passage.not_step?_done
  | abandon hp =>
      obtain ⟨hclock, ⟨around, a, -, he, -⟩ | ⟨he, -⟩⟩ := step?_same (fun _ => rfl) hs
      · exact ⟨he ▸ hp, hclock⟩
      · exact ⟨he ▸ .abandon hp, hclock⟩

namespace CutOff

variable {p p' : Program α} {x y : Passage α}

/-- **One step with the limit** is one without it, or the attempt has come to its end and gives
up. -/
theorem step (h : CutOff ending out s.world.clock p p') (hc : s.world.clock ≤ ending)
    (hs : Passage.step? t ⟨s, p⟩ l = some y) :
    (∃ q', Passage.step? t ⟨s, p'⟩ l = some ⟨y.machine, q'⟩ ∧ y.machine.world.clock ≤ ending ∧
      CutOff ending out y.machine.world.clock y.program q') ∨
    s.world.clock = ending ∧ y.machine.world.clock = ending ∧ GivesUp out y.program ∧
      ∀ a, p' ≠ .done a := by
  generalize hclock : s.world.clock = clock at h
  cases h with
  | done a => exact absurd hs Passage.not_step?_done
  | now h =>
      subst hclock
      obtain ⟨hclock, ⟨around, a, hr, he, hs'⟩ | ⟨he, hs'⟩⟩ := step?_same (fun _ => rfl) hs
      · obtain ⟨rfl, -⟩ := Prod.mk.inj (Option.some.inj hr)
        refine .inl ⟨_, hs' _, hclock ▸ hc, ?_⟩
        rw [he, hclock]
        exact h
      · exact .inl ⟨_, hs' _, hclock ▸ hc, hclock ▸ he ▸ .now h⟩
  | instant hq h =>
      subst hclock
      obtain ⟨hclock, ⟨around, a, hr, he, hs'⟩ | ⟨he, hs'⟩⟩ := step?_same (mayPass_instant hq) hs
      · exact .inl ⟨_, hs' _, hclock ▸ hc, hclock ▸ he ▸ h a⟩
      · exact .inl ⟨_, hs' _, hclock ▸ hc, hclock ▸ he ▸ .instant hq h⟩
  | join h hout =>
      subst hclock
      obtain ⟨around, joined, s', rfl, hr, rfl⟩ | ⟨s', hn, hl, hs', rfl⟩ := Passage.step?_cases hs
      · obtain ⟨rfl, ⟨hin, hr'⟩ | ⟨rfl, hfirst, hend⟩⟩ := respond_cut hc hr
        · exact .inl ⟨_, Passage.step?_turn hr', hc, h _ joined hin⟩
        · exact .inr ⟨hend, hend, hout hfirst, nofun⟩
      · obtain ⟨hl', hle⟩ := (mayCome_cut hc).1 hl
        have hclock := (world_step hs').1
        exact .inl ⟨_, Passage.step?_other hn hl' hs', hclock ▸ hle, .join h hout⟩

/-- **One step without the limit** is one with it, as long as the attempt has not come to its
end. -/
theorem step_back (h : CutOff ending out s.world.clock p p') (hc : s.world.clock ≤ ending)
    (hs : Passage.step? t ⟨s, p'⟩ l = some y) (hy : y.machine.world.clock ≤ ending) :
    ∃ q, Passage.step? t ⟨s, p⟩ l = some ⟨y.machine, q⟩ ∧
      CutOff ending out y.machine.world.clock q y.program := by
  generalize hclock : s.world.clock = clock at h
  cases h with
  | done a => exact absurd hs Passage.not_step?_done
  | now h =>
      subst hclock
      obtain ⟨hclock, ⟨around, a, hr, he, hs'⟩ | ⟨he, hs'⟩⟩ := step?_same (fun _ => rfl) hs
      · obtain ⟨rfl, -⟩ := Prod.mk.inj (Option.some.inj hr)
        refine ⟨_, hs' _, ?_⟩
        rw [he, hclock]
        exact h
      · exact ⟨_, hs' _, hclock ▸ he ▸ .now h⟩
  | instant hq h =>
      subst hclock
      obtain ⟨hclock, ⟨around, a, hr, he, hs'⟩ | ⟨he, hs'⟩⟩ := step?_same (mayPass_instant hq) hs
      · exact ⟨_, hs' _, hclock ▸ he ▸ h a⟩
      · exact ⟨_, hs' _, hclock ▸ he ▸ .instant hq h⟩
  | join h hout =>
      subst hclock
      obtain ⟨around, joined, s', rfl, hr, rfl⟩ | ⟨s', hn, hl, hs', rfl⟩ := Passage.step?_cases hs
      · obtain ⟨rfl, hin, hr'⟩ := respond_uncut hc hr
        exact ⟨_, Passage.step?_turn hr', h _ joined hin⟩
      · have hle : s.world.clock + l.span ≤ ending := (world_step hs').1 ▸ hy
        exact ⟨_, Passage.step?_other hn ((mayCome_cut hc).2 ⟨hl, hle⟩) hs', .join h hout⟩

end CutOff

end TunnelKeeper.Service
