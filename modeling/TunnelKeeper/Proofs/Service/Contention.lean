import Mathlib.Algebra.Order.BigOperators.Group.Finset
import TunnelKeeper.Proofs.Service.Applying
import TunnelKeeper.Proofs.Workers.Precedence

/-!
# Contention — what a probe answers does not depend on who else has work

Where there are fewer workers than checks, the checks of a probe begin one after the other, in turn
with the work of others, and the probe gives some of them up before they have begun.  Without a
limit none of this makes a difference: a wait gives what the check finds, whenever it begins
(`Foregone`).  And it is over at some time.  Whoever has asked for a worker waits for units that had
begun or asked before, so as time passes, there is less and less left to do of those (`Timed.left`).

* `Foregone.checks`: what a probe comes to.
* `Foreseen.step`: no step changes that.
* `Queued.step_elapse`: time that passes is time that is left to do no longer.
* `probe_answers_anyway`: a probe comes to its answer, whoever else has work.
-/

namespace TunnelKeeper.Service

open Pool (Joined)

variable {α : Type} {s : Machine} {t : TaskId} {l : Label} {labels : List Label} {id : UnitId}
  {courses : UnitId → Course}

/-! ### What is a foregone conclusion -/

/-- **The answer of a probe**, by the results of its checks; one without a result has ended
abnormally. -/
def judgement : (udp server credentials : Option Bool) → ProbeResult
  | some true, _, _ => .usable
  | none, _, _ => .unreachable
  | some false, none, _ => .unreachable
  | some false, some _, none => .unreachable
  | some false, some _, some true => .usableNoUdp
  | some false, some true, some false => .invalidCredentials
  | some false, some false, some false => .unreachable

/-- **What a program comes to is a foregone conclusion**, if it waits without a limit and the units
`ids` keep to their courses, whenever they begin. -/
inductive Foregone (courses : UnitId → Course) (ids : List UnitId) (out : α) : Program α → Prop where
  | settled {p : Program α} (h : GivesUp out p) : Foregone courses ids out p
  | now {next : Time → Program α} (h : ∀ time, Foregone courses ids out (next time)) :
      Foregone courses ids out (.ask .now next)
  | join {id : UnitId} {next : Joined Bool → Program α} (hid : id ∈ ids)
      (h : Foregone courses ids out (next (courses id).joined)) :
      Foregone courses ids out (.ask (.join id none) next)

namespace Foregone

variable {ids : List UnitId}

/-- What is foregone of a wait for a check is what follows its result. -/
theorem wait {out : α} {f : Waited → Program α} (hid : id ∈ ids)
    (h : Foregone courses ids out (f (waited (courses id).result))) :
    Foregone courses ids out ((Program.waitFor id none none).bind f) := by
  refine .now fun time => .join hid ?_
  unfold Course.joined
  cases hr : (courses id).result <;> rw [hr] at h <;> exact h

/-- **What a probe comes to** whose checks are handed in. -/
theorem checks {udp server credentials : UnitId} :
    Foregone courses [udp, server, credentials]
      (some (judgement (courses udp).result (courses server).result (courses credentials).result))
      (Program.finishProbe none udp server credentials) := by
  have hu : udp ∈ [udp, server, credentials] := by simp
  have hs : server ∈ [udp, server, credentials] := by simp
  have hc : credentials ∈ [udp, server, credentials] := by simp
  have settled : ∀ {r}, Foregone courses [udp, server, credentials] (some r)
      (Program.settle udp server credentials (some r)) := .settled (givesUp_settle ..)
  refine .wait hu ?_
  match (courses udp).result with
  | none => exact settled
  | some true => exact settled
  | some false =>
    show Foregone courses _ _ ((Program.judge server credentials none none).bind
      (Program.settle udp server credentials))
    rw [Program.judge, Program.bind_eq, Dialogue.bind_assoc]
    refine .wait hs ?_
    cases (courses server).result with
    | none => exact settled
    | some reachable =>
        show Foregone courses _ _ ((Program.waitFor credentials none none >>= _).bind _)
        rw [Program.bind_eq, Dialogue.bind_assoc]
        refine .wait hc ?_
        match (courses credentials).result with
        | none => exact settled
        | some true => exact settled
        | some false => cases reachable <;> exact settled

end Foregone

/-- **A task comes to what is foregone**: it waits for units that are on their courses, or has given
up all that it has handed in. -/
inductive Foreseen (courses : UnitId → Course) (t : TaskId) (ids : List UnitId) (out : α)
    (x : Timed α) : Prop where
  | settled (h : GivesUp out x.program)
  | waits (hp : Foregone courses ids out x.program)
      (h : ∀ id ∈ ids, (unitsOf x.machine.pool t id).isSome = true ∧
        OnCourse (courses id) (x.machine.pool.stage? id))

namespace Foreseen

variable {ids : List UnitId} {out : α} {x y : Timed α}

/-- **No step changes what is foregone.** -/
theorem step (h : Foreseen courses t ids out x) (hs : x.step? courses t l = some y) :
    Foreseen courses t ids out y := by
  have aside (hunits : ∀ id ∈ ids, (unitsOf x.machine.pool t id).isSome = true ∧
      OnCourse (courses id) (x.machine.pool.stage? id)) (hl : l.turnOf? t = none) : ∀ id ∈ ids,
        (unitsOf y.machine.pool t id).isSome = true ∧
          OnCourse (courses id) (y.machine.pool.stage? id) := fun id hid => by
    obtain ⟨hown, hcourse⟩ := hunits id hid
    exact ⟨by rwa [Timed.unitsOf_aside hs hl], Timed.onCourse_step hs hl hown hcourse⟩
  cases h with
  | settled h => exact .settled (h.step (Timed.step?_eq_some.1 hs).1).1
  | waits hp h =>
      obtain ⟨⟨s, p⟩, since⟩ := x
      cases hp with
      | settled hp => exact .settled (hp.step (Timed.step?_eq_some.1 hs).1).1
      | now hp =>
          obtain rfl | ⟨hl, hy, -⟩ := Timed.step_now hs
          · exact .waits (hp _) h
          · exact .waits (hy ▸ .now hp) (aside h hl)
      | @join id next hid hp =>
          obtain ⟨joined, rfl, hj | ⟨-, -, time, hnone, -⟩⟩ | ⟨hl, hy, -⟩ := Timed.step_join hs
          · obtain rfl := (h id hid).2.joined hj
            exact .waits hp h
          · cases hnone
          · exact .waits (hy ▸ .join hid hp) (aside h hl)

/-- What is done is what was foregone. -/
theorem done (h : Foreseen courses t ids out x) {a : α} (hp : x.program = .done a) : a = out := by
  cases h with
  | settled h => exact (hp ▸ h).eq_out
  | waits h =>
      rw [hp] at h
      cases h with
      | settled h => exact h.eq_out

/-- Until then the task only waits; -/
theorem isPatient (h : Foreseen courses t ids out x) {q : Ask} {next : q.Answer → Program α}
    (hp : x.program = .ask q next) : q.isPatient = true := by
  cases h with
  | settled h => exact (hp ▸ h).isPatient
  | waits h =>
      rw [hp] at h
      cases h with
      | settled h => exact h.isPatient
      | now | join => rfl

/-- when it waits for a unit, this one waits or is at work; -/
theorem unjoined (h : Foreseen courses t ids out x) {limit : Option Time}
    {next : Joined Bool → Program α} (hp : x.program = .ask (.join id limit) next)
    (hj : x.machine.pool.joined? id = none) : id ∈ ids ∧
      (x.machine.pool.stage? id = some .waiting ∨ x.machine.pool.stage? id = some .running) := by
  cases h with
  | settled h =>
      rw [hp] at h
      cases h
  | waits h hunits =>
      rw [hp] at h
      cases h with
      | settled h => cases h
      | join hid => exact ⟨hid, (hunits id hid).2.unjoined hj⟩

/-- and time passes only then. -/
theorem waiting_of_elapse {span : Time} (h : Foreseen courses t ids out x)
    (hs : x.step? courses t (.elapse span) = some y)
    (hclock : y.machine.world.clock ≠ x.machine.world.clock) : ∃ id ∈ ids,
      x.machine.pool.stage? id = some .waiting ∨ x.machine.pool.stage? id = some .running := by
  have settled (h : GivesUp out x.program) : False :=
    hclock (h.step (Timed.step?_eq_some.1 hs).1).2
  cases h with
  | settled h => exact (settled h).elim
  | waits hp h =>
      obtain ⟨⟨s, p⟩, since⟩ := x
      cases hp with
      | settled hp => exact (settled hp).elim
      | now hp =>
          obtain rfl | ⟨-, -, hsame⟩ := Timed.step_now hs
          · exact absurd rfl hclock
          · exact absurd hsame hclock
      | @join id next hid hp =>
          obtain ⟨joined, rfl, -⟩ | ⟨-, -, htime⟩ := Timed.step_join hs
          · exact absurd rfl hclock
          · exact ⟨id, hid, (h id hid).2.unjoined (htime span rfl).1⟩

end Foreseen

/-! ### What is left to do -/

namespace Timed

variable {x y : Timed α} {front : Finset UnitId}

/-- For how long a unit of work has still to be at work. -/
def remaining (courses : UnitId → Course) (x : Timed α) (id : UnitId) : Time :=
  match x.machine.pool.stage? id with
  | some .waiting => (courses id).span.getD 0
  | some .running => x.since id + (courses id).span.getD 0 - x.machine.world.clock
  | _ => 0

/-- **What is left to do** of some units of work. -/
def left (courses : UnitId → Course) (front : Finset UnitId) (x : Timed α) : Time :=
  ∑ id ∈ front, x.remaining courses id

/-- Nothing but time is needed. -/
theorem remaining_step (h : x.step? courses t l = some y) (hid : id < x.machine.pool.units.length)
    (hclock : y.machine.world.clock = x.machine.world.clock) :
    y.remaining courses id ≤ x.remaining courses id := by
  unfold remaining
  cases fares_step h hid with
  | stays hstage hsince => rw [hstage, hsince, hclock]
  | begins hw hr hsince =>
      rw [hw, hr, hsince, hclock]
      exact Nat.le_of_eq (Nat.add_sub_cancel_left ..)
  | ends _ he =>
      rw [he]
      cases (courses id).result <;> exact Nat.zero_le _
  | givenUp hg =>
      rw [hg]
      exact Nat.zero_le _

/-- Time brings a unit at work nearer to its end. -/
theorem remaining_elapse {span : Time} (h : x.step? courses t (.elapse span) = some y)
    (hspan : x.machine.pool.stage? id = some .running → (courses id).span ≠ none) :
    y.remaining courses id +
      (if x.machine.pool.stage? id = some .running then span else 0) = x.remaining courses id := by
  obtain ⟨-, hdues⟩ := keeps_elapse.1 (step?_eq_some.1 h).2.1
  obtain ⟨hpool, hsince⟩ := elapse_timed h
  have hclock : y.machine.world.clock = x.machine.world.clock + span := clock_timed h
  unfold remaining
  rw [hpool, hsince, hclock]
  by_cases hr : x.machine.pool.stage? id = some .running
  · obtain ⟨d, hd⟩ := Option.ne_none_iff_exists'.1 (hspan hr)
    have hle := hdues id (x.since id + d) hr (by rw [Course.due?, hd, Option.map_some])
    simp only [hr, hd, Option.getD_some, if_true]
    grind
  · rw [if_neg hr, Nat.add_zero]
    split <;> first | rfl | contradiction

/-- **There is never more left to do**, of units that are there. -/
theorem left_step (h : x.step? courses t l = some y)
    (hfront : ∀ id ∈ front, id < x.machine.pool.units.length)
    (hclock : y.machine.world.clock = x.machine.world.clock) :
    y.left courses front ≤ x.left courses front :=
  Finset.sum_le_sum fun id hid => remaining_step h (hfront id hid) hclock

/-- **Time that passes is left to do no longer**, as long as one of the units is at work. -/
theorem left_elapse {span : Time} {i : UnitId} (h : x.step? courses t (.elapse span) = some y)
    (hspans : ∀ id ∈ front, x.machine.pool.stage? id = some .running → (courses id).span ≠ none)
    (hi : i ∈ front) (hr : x.machine.pool.stage? i = some .running) :
    y.left courses front + span ≤ x.left courses front := by
  let worked (id : UnitId) : Time :=
    if x.machine.pool.stage? id = some .running then span else 0
  have hworked : span ≤ ∑ id ∈ front, worked id :=
    calc span = worked i := (if_pos hr).symm
      _ ≤ ∑ id ∈ front, worked id := Finset.single_le_sum (fun _ _ => Nat.zero_le _) hi
  calc y.left courses front + span
    _ ≤ y.left courses front + ∑ id ∈ front, worked id := Nat.add_le_add_left hworked _
    _ = ∑ id ∈ front, (y.remaining courses id + worked id) := Finset.sum_add_distrib.symm
    _ = x.left courses front := Finset.sum_congr rfl fun id hid =>
      remaining_elapse h (hspans id hid)

end Timed

/-! ### Waiting in turn -/

/-- **Some units of work lead all others**, the units `ids` among them as long as they have not
ended.  What is left to do of those is done by `latest`. -/
structure Queued (courses : UnitId → Course) (ids : List UnitId) (front : Finset UnitId)
    (latest : Time) (x : Timed α) : Prop where
  sound : x.machine.pool.Sound
  leads : x.machine.pool.Leads (· ∈ front)
  known : ∀ id ∈ ids, id < x.machine.pool.units.length
  among : ∀ id ∈ ids, x.machine.pool.Unsettled id → id ∈ front
  lasting : ∀ i ∈ front, x.machine.pool.Unsettled i → (courses i).span ≠ none
  in_time : x.machine.world.clock + x.left courses front ≤ latest

namespace Queued

variable {ids : List UnitId} {front : Finset UnitId} {latest : Time} {x y : Timed α}

/-- **Who waits for a unit waits for work that is being done**, of units that lead. -/
theorem exists_running (h : Queued courses ids front latest x) (hs : x.machine.pool.Settled)
    (hid : id ∈ ids) (hu : x.machine.pool.stage? id = some .waiting ∨
      x.machine.pool.stage? id = some .running) :
    ∃ i ∈ front, x.machine.pool.stage? i = some .running := by
  have hfront := h.among id hid (Pool.unsettled_iff.2 hu)
  obtain hw | hr := hu
  · exact h.leads.exists_running h.sound hs hfront hw
  · exact ⟨id, hfront, hr⟩

/-- What happens at once is done in time. -/
theorem step_at_once (h : Queued courses ids front latest x) (hs : x.step? courses t l = some y)
    (hclock : y.machine.world.clock = x.machine.world.clock) :
    Queued courses ids front latest y := by
  obtain ⟨moves, hmoves⟩ := Timed.pool_timed hs
  refine ⟨h.sound.run hmoves, h.leads.run hmoves, fun id hid => ?_, fun id hid hu => ?_,
    fun i hi hu => ?_, ?_⟩
  · exact Nat.lt_of_lt_of_le (h.known id hid) (Pool.length_le_run hmoves)
  · exact h.among id hid (Pool.unsettled_run hmoves (h.known id hid) hu)
  · exact h.lasting i hi (Pool.unsettled_run hmoves (h.leads.known i hi) hu)
  · rw [hclock]
    exact Nat.le_trans (Nat.add_le_add_left (Timed.left_step hs h.leads.known hclock) _) h.in_time

/-- **Time that passes is left to do no longer**, while a task waits for one of the units. -/
theorem step_elapse {span : Time} (h : Queued courses ids front latest x) (hid : id ∈ ids)
    (hu : x.machine.pool.stage? id = some .waiting ∨ x.machine.pool.stage? id = some .running)
    (hs : x.step? courses t (.elapse span) = some y) : Queued courses ids front latest y := by
  obtain ⟨hsettled, -⟩ := Timed.keeps_elapse.1 (Timed.step?_eq_some.1 hs).2.1
  obtain ⟨i, hi, hr⟩ := h.exists_running hsettled hid hu
  obtain ⟨hpool, -⟩ := Timed.elapse_timed hs
  refine ⟨hpool ▸ h.sound, hpool ▸ h.leads, hpool ▸ h.known, hpool ▸ h.among, hpool ▸ h.lasting, ?_⟩
  have hspans : ∀ i ∈ front, x.machine.pool.stage? i = some .running → (courses i).span ≠ none :=
    fun i hi hr => h.lasting i hi (Pool.unsettled_iff.2 (.inr hr))
  calc y.machine.world.clock + y.left courses front
    _ = x.machine.world.clock + (y.left courses front + span) := by
      rw [Timed.clock_timed hs, Nat.add_right_comm, Nat.add_assoc]
      rfl
    _ ≤ x.machine.world.clock + x.left courses front :=
      Nat.add_le_add_left (Timed.left_elapse hs hspans hi hr) _
    _ ≤ latest := h.in_time

end Queued

/-- **A task contends for the workers** with others: it is about to come to what is foregone, and in
time. -/
structure Contends (courses : UnitId → Course) (t : TaskId) (ids : List UnitId)
    (front : Finset UnitId) (latest : Time) (out : α) (x : Timed α) : Prop where
  seen : Foreseen courses t ids out x
  queued : Queued courses ids front latest x

namespace Contends

variable {ids : List UnitId} {front : Finset UnitId} {latest : Time} {out : α} {x y : Timed α}

theorem clock_le (h : Contends courses t ids front latest out x) :
    x.machine.world.clock ≤ latest :=
  Nat.le_trans (Nat.le_add_right ..) h.queued.in_time

/-- **No step takes too long.** -/
theorem step (h : Contends courses t ids front latest out x) (hs : x.step? courses t l = some y) :
    Contends courses t ids front latest out y := by
  refine ⟨h.seen.step hs, ?_⟩
  by_cases hclock : y.machine.world.clock = x.machine.world.clock
  · exact h.queued.step_at_once hs hclock
  cases l with
  | elapse span =>
      obtain ⟨id, hid, hu⟩ := h.seen.waiting_of_elapse hs hclock
      exact h.queued.step_elapse hid hu hs
  | _ => exact absurd (Timed.clock_timed hs) hclock

/-- Whenever the task waits, it waits for work that will be done. -/
theorem awaits (h : Contends courses t ids front latest out x) {limit : Option Time}
    {next : Joined Bool → Program α} (hp : x.program = .ask (.join id limit) next)
    (hj : x.machine.pool.joined? id = none) (hs : x.machine.pool.Settled) :
    ∃ time, Timed.Awaits courses x limit time := by
  obtain ⟨hid, hu⟩ := h.seen.unjoined hp hj
  obtain ⟨i, hi, hr⟩ := h.queued.exists_running hs hid hu
  obtain ⟨span, hspan⟩ :=
    Option.ne_none_iff_exists'.1 (h.queued.lasting i hi (Pool.unsettled_iff.2 (.inr hr)))
  exact ⟨x.since i + span, .inr ⟨i, hr, by rw [Course.due?, hspan, Option.map_some]⟩⟩

/-- **Nobody keeps it from coming to its end.** -/
theorem canEnd (h : Contends courses t ids front latest out x) : x.CanEnd courses t :=
  .of_awaits (I := Contends courses t ids front latest out) step (fun _ _ _ h => h.seen.isPatient)
    (fun _ _ _ _ h => h.awaits) h

end Contends

/-! ### Probes among others -/

variable {proxy : SocketAddress} {host : String} {port : UInt16} {since : UnitId → Time}
  {before : List Label} {udp server credentials : UnitId} {x y : Timed (Option ProbeResult)}

/-- **A probe keeps to the answer** that the results of its checks tell, whatever happens from `x`
on. -/
structure Timed.KeepsAnswer (x : Timed (Option ProbeResult)) (t : TaskId)
    (courses : UnitId → Course) (udp server credentials : UnitId) : Prop where
  /-- When it is done it has come to that answer. -/
  answers : ∀ labels y verdict, x.run? courses t labels = some y → y.program = .done verdict →
    verdict = some (judgement (courses udp).result (courses server).result
      (courses credentials).result)
  /-- It is over by some time, -/
  in_time : ∃ latest, ∀ labels y, x.run? courses t labels = some y → y.machine.world.clock ≤ latest
  /-- and nothing that happens keeps it from coming to its end. -/
  ends : ∀ labels y, x.run? courses t labels = some y → y.CanEnd courses t

/-- **What becomes of a probe without a limit**, whatever others do with the workers.  `s` is the
machine in which the task `t` comes to probe the proxy. -/
structure Machine.ProbesAnyway (s : Machine) (t : TaskId) (courses : UnitId → Course)
    (since : UnitId → Time) (proxy : SocketAddress) (host : String) (port : UInt16) : Prop
    extends s.BeginsProbe t courses since none proxy host port where
  /-- If all units of work end that are at work when all checks have asked for workers, and those that
  stand in the queue no later than the last check, the probe keeps to its answer. -/
  anyway : ∀ before udp server credentials y,
    s.Applies t courses since none proxy host port before udp server credentials y →
      ∀ first rest, y.machine.pool.queue = first ++ rest →
        (∀ id ∈ [udp, server, credentials], y.machine.pool.stage? id = some .waiting → id ∈ first) →
        (∀ i, y.machine.pool.stage? i = some .running ∨ i ∈ first → (courses i).span ≠ none) →
          y.KeepsAnswer t courses udp server credentials

/-- Once its checks are handed in, what a probe comes to is foregone. -/
theorem Machine.HandsIn.foreseen
    (h : s.HandsIn t courses since none proxy host port before udp server credentials x) :
    Foreseen courses t [udp, server, credentials] (some (judgement (courses udp).result
      (courses server).result (courses credentials).result)) x :=
  .waits (h.program ▸ .checks) fun id hid => ⟨(h.own hid).2, (h.abreast id hid).onCourse⟩

/-- Once its checks have asked, a probe contends for the workers. -/
theorem Machine.Applies.contends {first rest : List UnitId}
    (h : s.Applies t courses since none proxy host port before udp server credentials y)
    (sound : s.pool.Sound) (hq : y.machine.pool.queue = first ++ rest)
    (hfirst : ∀ id ∈ [udp, server, credentials], y.machine.pool.stage? id = some .waiting →
      id ∈ first)
    (hlasting : ∀ i, y.machine.pool.stage? i = some .running ∨ i ∈ first →
      (courses i).span ≠ none) :
    ∃ front, Contends courses t [udp, server, credentials] front
      (y.machine.world.clock + y.left courses front) (some (judgement (courses udp).result
        (courses server).result (courses credentials).result)) y := by
  obtain ⟨moves, hmoves⟩ := h.moves
  have sound := sound.run hmoves
  obtain ⟨handing, asking, x, rfl, hx, hrun⟩ := h.handsIn
  let front := (Finset.range y.machine.pool.units.length).filter fun i =>
    y.machine.pool.stage? i = some .running ∨ i ∈ first
  have leads := Pool.Leads.of_first sound hq
  have mem_front : ∀ i, i ∈ front ↔ y.machine.pool.stage? i = some .running ∨ i ∈ first :=
    fun i => by
      rw [Finset.mem_filter, Finset.mem_range, and_iff_right_iff_imp]
      exact leads.known i
  refine ⟨front, Timed.run_invariant Foreseen.step hx.foreseen hrun, sound, ?_,
    fun id hid => h.known hid, fun id hid hu => ?_, fun i hi _ => hlasting i ((mem_front i).1 hi),
    Nat.le_refl _⟩
  · exact (funext fun i => propext (mem_front i)) ▸ leads
  · refine (mem_front id).2 ?_
    exact (Pool.unsettled_iff.1 hu).symm.imp_right (hfirst id hid)

/-- **A probe without a limit comes to its answer, whoever else has work**: it is the one that the
results of its checks tell, whenever these begin. -/
theorem probe_answers_anyway {task : Task} {size : Nat}
    {history : List (Pool.Label Work Bool)} (htask : s.tasks[t]? = some task)
    (ha : task.alive = true) (hpool : (Pool.ofSize size).run? history = some s.pool)
    (hopen : s.pool.closed = false) (courses : UnitId → Course) (since : UnitId → Time)
    (proxy : SocketAddress) (host : String) (port : UInt16) :
    s.ProbesAnyway t courses since proxy host port where
  toBeginsProbe := s.beginsProbe htask ha hopen
  anyway before udp server credentials y h first rest hq hfirst hlasting := by
    obtain ⟨front, hy⟩ := h.contends ((Pool.Sound.ofSize size).run hpool) hq hfirst hlasting
    have contends : ∀ {labels z}, y.run? courses t labels = some z →
        Contends courses t _ front _ _ z :=
      Timed.run_invariant Contends.step hy
    exact {
      answers := fun _ _ _ hrun hp => (contends hrun).seen.done hp
      in_time := ⟨_, fun _ _ hrun => (contends hrun).clock_le⟩
      ends := fun _ _ hrun => (contends hrun).canEnd }

/-- All workers are at work for others, and more of their work waits. -/
def busyService : Machine :=
  (attemptingService.run? (List.replicate 5 (.occupy (.errand "backup")) ++
    (List.range 5).map .ask ++ (List.range 4).map .begin)).get (by rfl)

/-- Others' work ends after a while, and takes longer the later it was handed in.  Datagrams are not
relayed, but connections are. -/
def busyCourses : UnitId → Course
  | 5 => ⟨some 5, some false⟩
  | 7 => ⟨some 5, some true⟩
  | 8 => ⟨some 20, some true⟩
  | id => ⟨some (10 * (id + 1)), none⟩

/-- Somebody else hands in work after the first check. -/
def cuttingIn : List Label :=
  [.turn 0 {}, .occupy (.errand "backup"), .turn 0 {}, .turn 0 {}]

/-- A probe has handed in its checks meanwhile. -/
def busyProbe : Timed (Option ProbeResult) :=
  ((Timed.probing busyService (fun _ => 0) none (.ofV4 127 0 0 1 1081) "1.2.3.4" 8388).run?
    busyCourses 0 cuttingIn).get (by rfl)

/-- The checks ask for workers, but for the last one that work of others has asked before it. -/
def queueing : List Label := [.ask 7, .ask 5, .ask 6, .ask 8]

/-- The checks stand in the queue. -/
def queuedProbe : Timed (Option ProbeResult) := (busyProbe.run? busyCourses 0 queueing).get (by rfl)

/-- Whenever a worker is free, the next one in turn begins. -/
def takingTurns : List Label :=
  [.turn 0 {}, .elapse 10, .panic 0, .begin 4, .elapse 10, .panic 1, .begin 7, .elapse 5,
    .finish 7 true, .begin 5, .elapse 5, .panic 2, .finish 5 false, .turn 0 {}, .turn 0 {},
    .turn 0 {}, .begin 8, .begin 6, .turn 0 {}, .elapse 10, .panic 3, .elapse 10, .finish 8 true,
    .turn 0 {}, .turn 0 {}, .turn 0 {}, .turn 0 {}]

/-- The checks begin one after the other, while others are still at work at the end. -/
theorem busy_probe_answers :
    busyService.Applies 0 busyCourses (fun _ => 0) none (.ofV4 127 0 0 1 1081) "1.2.3.4" 8388
      (cuttingIn ++ queueing) 5 7 8 queuedProbe ∧
    ∃ y, queuedProbe.run? busyCourses 0 takingTurns = some y ∧
      y.program = .done (some .usableNoUdp) ∧ y.machine.world.clock = 50 ∧
      y.machine.pool.stage? 4 = some .running := by
  have handed : busyService.HandsIn 0 busyCourses (fun _ => 0) none (.ofV4 127 0 0 1 1081)
      "1.2.3.4" 8388 cuttingIn 5 7 8 busyProbe := by
    refine ⟨rfl, rfl, rfl, by decide, ⟨rfl, rfl, rfl⟩, fun id hid => ?_⟩
    simp only [List.mem_cons, List.not_mem_nil, or_false] at hid
    obtain rfl | rfl | rfl := hid <;> exact .waits rfl rfl
  have asked : busyService.Applies 0 busyCourses (fun _ => 0) none (.ofV4 127 0 0 1 1081)
      "1.2.3.4" 8388 (cuttingIn ++ queueing) 5 7 8 queuedProbe :=
    ⟨⟨_, _, busyProbe, rfl, handed, rfl⟩, rfl, by decide⟩
  have finite : ∀ id, (busyCourses id).span ≠ none := by
    intro id
    unfold busyCourses
    split <;> nofun
  have hpool : (Pool.ofSize 4).run? (List.replicate 5 (.spawn none (.errand "backup")) ++
      (List.range 5).map .ask ++ (List.range 4).map .begin) = some busyService.pool := rfl
  have probes := probe_answers_anyway (s := busyService) (t := 0) rfl rfl hpool rfl busyCourses
    (fun _ => 0) (.ofV4 127 0 0 1 1081) "1.2.3.4" 8388
  have answer := (probes.anyway _ _ _ _ _ asked [4, 7, 5, 6, 8] [] rfl (by decide)
    fun id _ => finite id).answers takingTurns
  exact ⟨asked, _, rfl, congrArg _ (answer _ _ rfl rfl), rfl, rfl⟩

end TunnelKeeper.Service
