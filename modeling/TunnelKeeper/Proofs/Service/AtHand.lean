import TunnelKeeper.Proofs.Service.Ledger

/-!
# At hand — the units of work that a section wants

The task in its section has the units of work that it wants, and no others are left in the pool
(`Grip.Fits`); so between two sections the pool is quiet.  Answers keep to that, and so does all
that workers do, which concerns nobody else (`Machine.Spares`, `works_advances`).
-/

namespace TunnelKeeper.Service

variable {s s' : Machine} {t : TaskId}

/-! ### Units at hand -/

/-- What is at hand suits a pool: the units are wanted, and no others may still move. -/
structure Grip.Fits (g : Grip) (pool : Pool Work Bool) : Prop where
  wanted : ∀ id ∈ g.units, pool.Wanted id
  owed : ∀ id, pool.Unsettled id → id ∈ g.owed

namespace Grip.Fits

variable {g : Grip} {pool pool' : Pool Work Bool}

theorem advances (h : g.Fits pool) (ha : pool.Advances pool') : g.Fits pool' where
  wanted id hid := ha.wanted id (h.wanted id hid)
  owed id hid := h.owed id (ha.unsettled id hid)

/-- Nothing is at hand, and nothing needs to be. -/
theorem of_quiet (h : pool.Quiet) : Grip.Fits {} pool := ⟨nofun, fun id hid => absurd hid (h id)⟩

theorem quiet (h : g.Fits pool) (ho : g.owed = []) : pool.Quiet := fun id hid =>
  List.not_mem_nil (ho ▸ h.owed id hid)

/-- What a program has at hand suits the pool after every answer. -/
theorem respond (h : g.Fits s.pool) {around : Surroundings} {q : Ask} {a : q.Answer}
    (hs : s.respond t around q = some (a, s')) : (g.after q a).Fits s'.pool := by
  cases q with
  | lock => cases hs
  | spawn work =>
      cases hs
      constructor
      · intro id hid
        rcases List.mem_cons.1 hid with rfl | hid
        · exact Pool.wanted_spawn (some t) work
        · exact (h.wanted id hid).spawn (some t) work
      · intro id hid
        rcases Pool.Unsettled.of_spawn hid with rfl | hid
        · exact List.mem_cons_self
        · exact List.mem_cons_of_mem _ (h.owed id hid)
  | abandon i =>
      cases hs
      refine ⟨nofun, fun id hid => ?_⟩
      obtain ⟨hne, hid⟩ := Pool.Unsettled.of_drop hid
      exact List.mem_filter.2 ⟨h.owed id hid, by simpa using hne⟩
  | join i limit =>
      obtain ⟨rfl, hj | ⟨-, rfl, -⟩⟩ := respond_join.1 hs
      · have left : ∀ id, s'.pool.Unsettled id → id ∈ g.owed.filter (· != i) := by
          intro id hid
          refine List.mem_filter.2 ⟨h.owed id hid, ?_⟩
          have hne : id ≠ i := by
            rintro rfl
            exact Pool.settled_of_joined hj hid
          simpa using hne
        cases (a : Pool.Joined Bool) with
        | timedOut => exact ⟨h.wanted, h.owed⟩
        | value | panicked | refused => exact ⟨h.wanted, left⟩
      · exact ⟨h.wanted, h.owed⟩
  | call k =>
      cases hs
      cases k <;> exact ⟨h.wanted, h.owed⟩
  | _ =>
      cases hs
      exact ⟨h.wanted, h.owed⟩

end Grip.Fits

/-! ### What answers and workers leave alone -/

/-- No network event waits for a reader. -/
def World.Silent (w : World) : Prop := ∀ c ∈ w.channels, c.waiting = []

theorem World.Silent.afterCall {w : World} (h : w.Silent) (k : Call) (a : k.Answer) :
    (w.afterCall k a).Silent := by
  cases k with
  | write u => cases (a : Bool) <;> exact h
  | register =>
      cases (a : Bool) with
      | false => exact h
      | true =>
          intro c hc
          rcases List.mem_append.1 hc with hc | hc
          · exact h c hc
          · rw [List.mem_singleton.1 hc]
  | unregister =>
      cases (a : Bool) with
      | false => exact h
      | true =>
          intro c hc
          obtain ⟨i, hi⟩ := List.getElem?_of_mem hc
          have hi : (w.channels[i]?).map _ = some c := (List.getElem?_modify _ _ _ _).symm.trans hi
          obtain ⟨c', hc', rfl⟩ := Option.map_eq_some_iff.1 hi
          have hw := h c' (List.mem_of_getElem? hc')
          split
          · exact hw
          · exact hw
  | _ => exact h

/-- A turn of a task leaves alone what is not its own. -/
structure Machine.Spares (s s' : Machine) (t : TaskId) : Prop where
  limits : s'.limits = s.limits
  sound : s.pool.Sound → s'.pool.Sound
  silent : s.world.Silent → s'.world.Silent
  length : s.tasks.length ≤ s'.tasks.length
  tasks : ∀ i task, t ≠ i → s'.tasks[i]? = some task →
    s.tasks[i]? = some task ∨ s.tasks.length ≤ i ∧ ∃ r, task.program = .done r

namespace Machine.Spares

theorem goOn (h : s.Spares s' t) (p : Program Reply) : s.Spares (s'.goOn t p) t where
  limits := h.limits
  sound := h.sound
  silent := h.silent
  length := by simpa [Machine.goOn] using h.length
  tasks i task hi htask := h.tasks i task hi ((Machine.tasks_goOn_other s' p hi).symm.trans htask)

/-- What changes no task. -/
theorem of_tasks (hl : s'.limits = s.limits) (hp : s.pool.Sound → s'.pool.Sound)
    (hw : s.world.Silent → s'.world.Silent) (ht : s'.tasks = s.tasks) : s.Spares s' t where
  limits := hl
  sound := hp
  silent := hw
  length := Nat.le_of_eq (congrArg List.length ht.symm)
  tasks _ _ _ htask := .inl (ht ▸ htask)

theorem respond {around : Surroundings} {q : Ask} {a : q.Answer}
    (hs : s.respond t around q = some (a, s')) : s.Spares s' t := by
  cases q with
  | lock => cases hs
  | spawnReactor =>
      cases hs
      refine ⟨rfl, id, id, by simp [Machine.addTask], fun i task _ htask => ?_⟩
      by_cases hi : i < s.tasks.length
      · exact .inl ((List.getElem?_append_left hi).symm.trans htask)
      · refine .inr ⟨Nat.le_of_not_lt hi, .finished, ?_⟩
        have hlast := (List.getElem?_append_right (Nat.le_of_not_lt hi)).symm.trans htask
        rw [List.mem_singleton.1 (List.mem_of_getElem? hlast)]
        rfl
  | spawn work =>
      cases hs
      exact .of_tasks rfl (fun h => h.spawn _ _) id rfl
  | abandon i =>
      cases hs
      exact .of_tasks rfl (fun h => h.drop i) id rfl
  | join i limit =>
      obtain ⟨rfl, -⟩ := respond_join.1 hs
      exact .of_tasks rfl id id rfl
  | call k =>
      cases hs
      exact .of_tasks rfl id (fun h => h.afterCall k _) rfl
  | _ =>
      cases hs
      exact .of_tasks rfl id id rfl

end Machine.Spares

/-- An answer leaves the lock where it is, unless it is given back. -/
theorem holder_respond {around : Surroundings} {q : Ask} {a : q.Answer} (hq : q ≠ .unlock)
    (hs : s.respond t around q = some (a, s')) : s'.holder = s.holder ∧ s'.queue = s.queue := by
  cases q with
  | lock => cases hs
  | unlock => exact absurd rfl hq
  | join i limit =>
      obtain ⟨rfl, -⟩ := respond_join.1 hs
      exact ⟨rfl, rfl⟩
  | _ =>
      cases hs
      exact ⟨rfl, rfl⟩

/-- **What workers do, and time**: tasks stay as they are. -/
theorem works_advances {l : Label} (hl : l.isWork = true) (hs : s.step? l = some s') :
    ∃ world pool, s' = { s with world, pool } ∧ world.channels = s.world.channels ∧
      s.pool.Advances pool := by
  have ends : ∀ {id result}, s.end? id result = some s' → ∃ world pool,
      s' = { s with world, pool } ∧ world.channels = s.world.channels ∧ s.pool.Advances pool := by
    intro id result hs
    obtain ⟨u, -, -, rfl⟩ := end?_eq_some.1 hs
    refine ⟨_, _, rfl, rfl, Pool.advances_release _ _ ?_ ?_⟩
    · cases result <;> exact ⟨nofun, nofun⟩
    · cases result <;> nofun
  cases l with
  | ask id =>
      obtain ⟨pool, ha, rfl⟩ := step?_ask hs
      exact ⟨_, _, rfl, rfl, Pool.advances_asks ha⟩
  | begin id =>
      obtain ⟨pool, u, hb, -, rfl⟩ := begin?_eq_some.1 hs
      exact ⟨_, _, rfl, rfl, Pool.advances_begins hb⟩
  | finish | panic => exact ends hs
  | elapse span =>
      obtain rfl := Option.some.inj hs
      exact ⟨_, _, rfl, rfl, .refl _⟩
  | _ => cases hl

end TunnelKeeper.Service
