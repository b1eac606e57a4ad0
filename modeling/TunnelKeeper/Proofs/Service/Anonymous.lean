import TunnelKeeper.Proofs.Service.Kept

/-!
# Anonymous machines — what does not depend on who asks

Tasks are numbered in the order of beginning, and the numbers stand in the log and in the pool.
Nobody is answered according to them.  Two machines are `Alike` if they are the same but for the
tasks and their numbers, and for the channels, which only reactors read.

* `Alike.respond`: what a task is answered is the same in machines that are alike.
* `Alike.works`: so is what workers do.
-/

namespace TunnelKeeper

/-! ### Pools without owners -/

namespace Pool

variable {ω α : Type} (p : Pool ω α)

/-- A unit of work, whoever handed it in. -/
def disown (u : WorkUnit ω α) : WorkUnit ω α := { u with owner := none }

/-- A pool, whoever handed the units in. -/
def unowned : Pool ω α := { p with units := p.units.map disown }

theorem units_unowned (id : UnitId) : p.unowned.units[id]? = p.units[id]?.map disown :=
  List.getElem?_map

theorem unowned_spawn (owner : Option Nat) (work : ω) :
    (p.spawn owner work).2.unowned = (p.unowned.spawn none work).2 := by
  simp only [spawn, unowned, List.map_append, List.map_cons, List.map_nil]
  rfl

theorem unowned_setStage (id : UnitId) (stage : Stage α) :
    (p.setStage id stage).unowned = p.unowned.setStage id stage := by
  have h : (p.units.modify id fun u => { u with stage }).map disown =
      (p.units.map disown).modify id fun u => { u with stage } := by
    ext i u
    rw [List.getElem?_map, List.getElem?_modify, List.getElem?_modify, List.getElem?_map]
    by_cases hi : id = i <;> cases p.units[i]? <;> simp [hi, disown]
  simp only [unowned, setStage, h]

theorem unowned_release (id : UnitId) (stage : Stage α) :
    (p.release id stage).unowned = p.unowned.release id stage := by
  unfold release
  rw [units_unowned]
  cases p.units[id]? with
  | none => rfl
  | some u =>
      have hr : isRunning (disown u) = isRunning u := rfl
      simp only [Option.map_some, hr]
      split
      · rw [← unowned_setStage]
        rfl
      · rfl

theorem unowned_drop (id : UnitId) : (p.drop id).unowned = p.unowned.drop id := by
  unfold drop
  rw [units_unowned]
  cases p.units[id]? with
  | none => rfl
  | some u =>
      have hw : isWaiting (disown u) = isWaiting u := rfl
      simp only [Option.map_some, hw]
      split
      · rw [← unowned_setStage]
        rfl
      · exact unowned_release p id .dropped

theorem joined?_unowned (id : UnitId) : p.unowned.joined? id = p.joined? id := by
  unfold joined? stage?
  rw [units_unowned, Option.map_map]
  rfl

theorem any_isWaiting_unowned (id : UnitId) :
    p.unowned.units[id]?.any isWaiting = p.units[id]?.any isWaiting := by
  rw [units_unowned]
  cases p.units[id]? <;> rfl

theorem ask?_unowned (id : UnitId) : p.unowned.ask? id = (p.ask? id).map unowned := by
  unfold ask?
  rw [any_isWaiting_unowned, show p.unowned.queue = p.queue from rfl]
  split <;> rfl

theorem begin?_unowned (id : UnitId) : p.unowned.begin? id = (p.begin? id).map unowned := by
  unfold begin?
  rw [any_isWaiting_unowned, show p.unowned.granted = p.granted from rfl, ← unowned_setStage]
  split <;> rfl

end Pool

namespace Service

/-! ### Machines without tasks -/

/-- An entry of the log, whoever made the call. -/
def Entry.anonymous : Entry → Entry
  | .called _ k a => .called 0 k a
  | e => e

/-- The log, whoever made the calls. -/
def World.records (w : World) : List Entry := w.log.map Entry.anonymous

theorem records_anonymous (log : List Entry) :
    (log.map Entry.anonymous).map Entry.anonymous = log.map Entry.anonymous := by
  rw [List.map_map]
  congr 1
  funext e
  cases e <;> rfl

/-- A world without the channels, whoever made the calls. -/
def World.anonymous (w : World) : World := { w with channels := [], log := w.records }

theorem World.anonymous_anonymous (w : World) : w.anonymous.anonymous = w.anonymous :=
  congrArg (fun log => { w with channels := [], log }) (records_anonymous w.log)

theorem World.anonymous_afterCall (w : World) (k : Call) (a : k.Answer) :
    (w.afterCall k a).anonymous = (w.anonymous.afterCall k a).anonymous := by
  cases k with
  | write | register | unregister =>
      cases (a : Bool) <;>
        simp [afterCall, anonymous, records, changeChannel, -List.map_map, records_anonymous]
  | _ => exact w.anonymous_anonymous.symm

theorem World.anonymous_note (w : World) (e : Entry) :
    (w.note e).anonymous = w.anonymous.note e.anonymous := by
  simp [anonymous, note, records]

/-- What a collaborator answers does not depend on the channels, nor on who made which call. -/
theorem World.answer_anonymous (w : World) (around : Surroundings) (k : Call) :
    w.anonymous.answer around k = w.answer around k := by
  cases k <;> rfl

theorem World.anonymous_perform (w : World) (t : TaskId) (around : Surroundings) (k : Call) :
    (w.perform t around k).2.anonymous = (w.anonymous.perform 0 around k).2.anonymous := by
  have hp : ∀ (w : World) (t : TaskId), (w.perform t around k).2.anonymous =
      (w.afterCall k (w.answer around k)).anonymous.note (.called 0 k (w.answer around k)) :=
    fun w t => (w.afterCall k _).anonymous_note (.called t k _)
  rw [hp, hp, w.answer_anonymous, ← w.anonymous_afterCall]

/-- Whether a worker makes a step, or time does. -/
def Label.isWork : Label → Bool
  | .ask _ | .begin _ | .finish _ _ | .panic _ | .elapse _ => true
  | _ => false

/-- **Two machines are alike** if they are the same but for their tasks and the channels. -/
structure Alike (s q : Machine) : Prop where
  limits : s.limits = q.limits
  world : s.world.anonymous = q.world.anonymous
  pool : s.pool.unowned = q.pool.unowned

namespace Alike

variable {s q s' : Machine}

/-- Whatever does not depend on the channels, nor on who made which call. -/
theorem read (h : Alike s q) {β : Type} (f : World → β) (hf : ∀ w, f w.anonymous = f w) :
    f q.world = f s.world := by
  rw [← hf q.world, ← h.world, hf]

theorem records (h : Alike s q) : q.world.records = s.world.records :=
  h.read World.records fun w => records_anonymous w.log

/-- **Machines that are alike answer alike.** -/
theorem respond (h : Alike s q) {t : TaskId} (t' : TaskId) {around : Surroundings} {ask : Ask}
    {a : ask.Answer} (hs : s.respond t around ask = some (a, s')) :
    ∃ q', q.respond t' around ask = some (a, q') ∧ Alike s' q' := by
  cases ask with
  | lock => cases hs
  | unlock | pause =>
      cases hs
      exact ⟨_, rfl, h.limits, h.world, h.pool⟩
  | session =>
      cases hs
      exact ⟨q, congrArg (fun a => some (a, q)) (h.read World.session fun _ => rfl), h⟩
  | visibleActive =>
      cases hs
      exact ⟨q, congrArg (fun a => some (a, q)) (h.read World.visibleActive fun _ => rfl), h⟩
  | visibleStatus =>
      cases hs
      exact ⟨q, congrArg (fun a => some (a, q)) (h.read World.visibleStatus fun _ => rfl), h⟩
  | now =>
      cases hs
      exact ⟨q, congrArg (fun a => some (a, q)) (h.read World.clock fun _ => rfl), h⟩
  | setActive active =>
      cases hs
      refine ⟨_, rfl, h.limits, ?_, h.pool⟩
      exact congrArg (fun w : World => { w with session := { w.session with active } }) h.world
  | setMonitored monitored =>
      cases hs
      refine ⟨_, rfl, h.limits, ?_, h.pool⟩
      exact congrArg (fun w : World => { w with session := { w.session with monitored } }) h.world
  | publishActive active =>
      cases hs
      refine ⟨_, rfl, h.limits, ?_, h.pool⟩
      exact congrArg (fun w : World => { w with visibleActive := active }) h.world
  | publishStatus status =>
      cases hs
      refine ⟨_, rfl, h.limits, ?_, h.pool⟩
      exact congrArg (fun w : World => { w with visibleStatus := status }) h.world
  | spawnReactor =>
      cases hs
      exact ⟨_, rfl, h.limits, h.world, h.pool⟩
  | spawn work =>
      cases hs
      have hid : q.pool.units.length = s.pool.units.length := by
        have hlen := congrArg (fun p : Pool Work Bool => p.units.length) h.pool
        simpa [Pool.unowned] using hlen.symm
      refine ⟨_, congrArg (fun id => some (id, _)) hid, h.limits, h.world, ?_⟩
      exact (Pool.unowned_spawn _ _ _).trans
        ((congrArg (fun p => (Pool.spawn p none work).2) h.pool).trans
          (Pool.unowned_spawn _ _ _).symm)
  | join id limit =>
      have hj : s.pool.joined? id = q.pool.joined? id := by
        rw [← Pool.joined?_unowned, h.pool, Pool.joined?_unowned]
      have hc : s.world.clock = q.world.clock := (h.read World.clock fun _ => rfl).symm
      obtain ⟨rfl, hs⟩ := respond_join.1 hs
      rw [hj, hc] at hs
      exact ⟨q, respond_join.2 ⟨rfl, hs⟩, h⟩
  | abandon id =>
      cases hs
      refine ⟨_, rfl, h.limits, h.world, ?_⟩
      exact (Pool.unowned_drop _ _).trans
        ((congrArg (Pool.drop · id) h.pool).trans (Pool.unowned_drop _ _).symm)
  | call k =>
      cases hs
      have ha : q.world.answer around k = s.world.answer around k :=
        h.read (fun w => w.answer around k) fun w => w.answer_anonymous around k
      refine ⟨_, congrArg (fun a => some (a, _)) ha, h.limits, ?_, h.pool⟩
      show (s.world.perform t around k).2.anonymous = (q.world.perform t' around k).2.anonymous
      rw [s.world.anonymous_perform, q.world.anonymous_perform, h.world]

/-- A unit of work in both pools. -/
theorem unit (h : s.pool.unowned = q.pool.unowned) {id : UnitId} {u : WorkUnit Work Bool}
    (hu : s.pool.units[id]? = some u) :
    ∃ u', q.pool.units[id]? = some u' ∧ u'.work = u.work ∧ u'.stage = u.stage := by
  have hq := q.pool.units_unowned id
  rw [← h, s.pool.units_unowned, hu] at hq
  obtain ⟨u', hu', he⟩ := Option.map_eq_some_iff.1 hq.symm
  have he : Pool.disown u' = Pool.disown u := he
  exact ⟨u', hu', (congrArg WorkUnit.work he : (Pool.disown u').work = _),
    (congrArg WorkUnit.stage he : (Pool.disown u').stage = _)⟩

theorem note (h : Alike s q) (e : Entry) :
    (s.world.note e).anonymous = (q.world.note e).anonymous := by
  rw [World.anonymous_note, World.anonymous_note, h.world]

theorem ends (h : Alike s q) {id : UnitId} {result : Option Bool}
    (hs : s.end? id result = some s') : ∃ q', q.end? id result = some q' ∧ Alike s' q' := by
  obtain ⟨u, hu, hr, rfl⟩ := end?_eq_some.1 hs
  obtain ⟨u', hu', hwork, hstage⟩ := unit h.pool hu
  have hr' : Pool.isRunning u' = true := by
    unfold Pool.isRunning at hr ⊢
    rw [hstage]
    exact hr
  refine ⟨_, end?_eq_some.2 ⟨u', hu', hr', rfl⟩, h.limits, ?_, ?_⟩
  · rw [hwork]
    exact h.note _
  · rw [Pool.unowned_release, Pool.unowned_release, h.pool]

/-- **Workers and the clock do the same** in machines that are alike. -/
theorem works (h : Alike s q) {l : Label} (hl : l.isWork = true) (hs : s.step? l = some s') :
    ∃ q', q.step? l = some q' ∧ Alike s' q' := by
  cases l with
  | ask id =>
      obtain ⟨pool, ha, rfl⟩ := step?_ask hs
      have hq := q.pool.ask?_unowned id
      rw [← h.pool, s.pool.ask?_unowned, ha] at hq
      obtain ⟨pool', ha', hpool⟩ := Option.map_eq_some_iff.1 hq.symm
      exact ⟨_, Option.map_eq_some_iff.2 ⟨_, ha', rfl⟩, h.limits, h.world, hpool.symm⟩
  | begin id =>
      obtain ⟨pool, u, hb, hu, rfl⟩ := begin?_eq_some.1 hs
      have hq := q.pool.begin?_unowned id
      rw [← h.pool, s.pool.begin?_unowned, hb] at hq
      obtain ⟨pool', hb', hpool⟩ := Option.map_eq_some_iff.1 hq.symm
      obtain ⟨u', hu', hwork, -⟩ :=
        unit (s := { s with pool }) (q := { q with pool := pool' }) hpool.symm hu
      refine ⟨_, begin?_eq_some.2 ⟨_, u', hb', hu', rfl⟩, h.limits, ?_, hpool.symm⟩
      rw [hwork]
      exact h.note _
  | finish | panic => exact h.ends hs
  | elapse span =>
      obtain rfl := Option.some.inj hs
      refine ⟨_, rfl, h.limits, ?_, h.pool⟩
      exact congrArg (fun w : World => { w with clock := w.clock + span }) h.world
  | _ => cases hl

end Alike

end Service

end TunnelKeeper
