import TunnelKeeper.Proofs.Service.AtHand

/-!
# Standings — where each caller is

However callers, tasks and workers interleave, each caller waits for the lock, is in its section, or
has its answer (`Stands`), and nobody else does anything (`Attended`).  What a step can be is a
`Change`; calls and work keep callers attended (`Attended.call`, `Attended.works`).
-/

namespace TunnelKeeper.Service

variable {s s' : Machine} {t : TaskId}

/-! ### Attended ledgers -/

/-- **Where a task is.** -/
inductive Stands (x : Ledger) (t : TaskId) (task : Task) : Prop where
  /-- A caller has not got the lock yet. -/
  | waits (hc : ∃ op, (t, op) ∈ x.calls)
      (hp : ∀ op, (t, op) ∈ x.calls → task.program = op.program x.machine.limits)
      (hn : t ∉ x.admitted) (ha : task.reply? = none → task.alive = true)
  | inside (h : x.machine.Inside t)
  /-- It is done; if a caller, either it has had the lock or it was refused at once. -/
  | answered {r : Reply} (hp : task.program = .done r)
      (h : ∀ op, (t, op) ∈ x.calls → t ∈ x.admitted)

/-- What does not concern a task. -/
theorem Stands.frame {x x' : Ledger} {task : Task} (h : Stands x t task)
    (hl : x'.machine.limits = x.machine.limits) (hc : x'.calls = x.calls)
    (ha : t ∈ x.admitted → t ∈ x'.admitted) (hn : t ∈ x'.admitted → t ∈ x.admitted)
    (hi : x.machine.Inside t → x'.machine.Inside t) : Stands x' t task := by
  cases h with
  | waits hc' hp hn' ha => exact .waits (hc ▸ hc') (hc ▸ hl ▸ hp) (fun hm => hn' (hn hm)) ha
  | inside hin => exact .inside (hi hin)
  | answered hp ha' => exact .answered hp fun op hop => ha (ha' op (hc ▸ hop))

/-- Whoever was there stands where it stood when somebody else calls, -/
theorem Stands.of_call {x : Ledger} {task : Task} (h : Stands x t task) {s : Machine} {n : TaskId}
    (op : Operation) (hn : t ≠ n) (hl : s.limits = x.machine.limits)
    (hi : x.machine.Inside t → s.Inside t) :
    Stands ⟨s, x.calls ++ [(n, op)], x.admitted⟩ t task := by
  have known : ∀ op', (t, op') ∈ x.calls ++ [(n, op)] → (t, op') ∈ x.calls := by
    intro op' hop
    refine (List.mem_append.1 hop).resolve_right fun hop => hn ?_
    exact congrArg Prod.fst (List.mem_singleton.1 hop)
  cases h with
  | waits hc hp hn' ha =>
      obtain ⟨op', hop⟩ := hc
      exact .waits ⟨op', List.mem_append_left _ hop⟩
        (fun op' hop => hl ▸ hp op' (known op' hop)) hn' ha
  | inside hin => exact .inside (hi hin)
  | answered hp ha => exact .answered hp fun op' hop => ha op' (known op' hop)

/-- and the new caller waits. -/
theorem Stands.called {x : Ledger} {s : Machine} {n : TaskId} (op : Operation)
    (hc : ∀ op', (n, op') ∉ x.calls) (ha : n ∉ x.admitted) (hl : s.limits = x.machine.limits) :
    Stands ⟨s, x.calls ++ [(n, op)], x.admitted⟩ n
      ⟨op.program x.machine.limits, none, true⟩ := by
  refine .waits ⟨op, List.mem_append_right _ (List.mem_singleton_self _)⟩ (fun op' hop => ?_) ha
    fun _ => rfl
  have hop := (List.mem_append.1 hop).resolve_left (hc op')
  obtain ⟨-, rfl⟩ := Prod.mk.inj (List.mem_singleton.1 hop)
  exact congrArg op'.program hl.symm

/-- **A ledger whose callers are attended.** -/
structure Attended (x : Ledger) : Prop where
  kept : ∃ o, Kept Terms.loose x.machine o
  sound : x.machine.pool.Sound
  silent : x.machine.world.Silent
  called : ∀ c ∈ x.calls, c.1 < x.machine.tasks.length ∧ c.2.waits = true
  known : ∀ t ∈ x.admitted, ∃ op, (t, op) ∈ x.calls
  once : x.admitted.Nodup
  stands : ∀ t task, x.machine.tasks[t]? = some task → Stands x t task
  inside : ∀ t task, x.machine.Inside t → x.machine.tasks[t]? = some task →
    t ∈ x.admitted ∧ ∃ g : Grip, g.Fits x.machine.pool ∧ Held g task.program
  rest : x.machine.AtRest → x.machine.pool.Quiet

/-- A reactor reads nothing where no event waits. -/
theorem receive_silent (hw : s.world.Silent) {task : Task} (hs : s.receive t task = some s') :
    s' = s.setTask t { task with alive := false } := by
  obtain ⟨registration, channel, hc, ⟨e, rest, hr, -⟩ | rfl⟩ := receive_cases hs
  · unfold Channel.receive at hr
    rw [hw channel (List.mem_of_getElem? hc)] at hr
    cases hwriter : channel.hasWriter with
    | true | false => simp [hwriter] at hr
  · rfl

/-- A task that gets the lock finds it free. -/
theorem atRest_of_entered {task : Task} {next : Unit → Program Reply}
    (htask : s.tasks[t]? = some task) (ha : task.alive = true) (hp : task.program = .ask .lock next)
    (hh : s.holder = none ∨ s.holder = some t) : s.AtRest := by
  intro i hi
  rcases hh with hh | hh
  · exact absurd (hh.symm.trans hi.1) nofun
  · obtain rfl : t = i := Option.some.inj (hh.symm.trans hi.1)
    exact hi.2 ⟨task, next, htask, ha, hp⟩

/-- A task that goes on with the lock is in its section. -/
theorem inside_goOn_of_held {g : Grip} {p : Program Reply}
    (htask : s.tasks[t]? = some task) (hh : s.holder = some t) (hp : Held g p) (i : TaskId) :
    (s.goOn t p).Inside i ↔ i = t := by
  constructor
  · exact fun hin => Option.some.inj (hin.1.symm.trans hh)
  · rintro rfl
    refine ⟨hh, ?_⟩
    rintro ⟨task', next, htask', -, hlock⟩
    obtain rfl := Option.some.inj ((Machine.tasks_goOn_self p htask).symm.trans htask')
    have hp : Held g (Dialogue.ask Ask.lock next) := hlock ▸ hp
    exact hp.not_lock

/-- Workers and time admit nobody. -/
theorem admits_works {l : Label} (hl : l.isWork = true) (hs : s.step? l = some s') :
    s.admits s' = [] := by
  obtain ⟨world, pool, rfl, -⟩ := works_advances hl hs
  exact Machine.admits_of_tasks rfl rfl

/-- **All that a step can be.** -/
inductive Change (C : Collaborators) (mayCall : Machine → Prop) (x : Ledger) : Ledger → Prop where
  /-- Somebody calls. -/
  | called {op : Operation} (hm : mayCall x.machine) (hw : op.waits = true) :
      Change C mayCall x ⟨(x.machine.addTask ⟨op.program x.machine.limits, none, true⟩).2,
        x.calls ++ [(x.machine.tasks.length, op)], x.admitted⟩
  /-- A worker makes a step, or time does. -/
  | worked {l : Label} {s : Machine} (hw : l.isWork = true) (hl : C.Governs x.machine l)
      (hs : x.machine.step? l = some s) : Change C mayCall x ⟨s, x.calls, x.admitted⟩
  /-- A reactor ends with its channel. -/
  | ended {t : TaskId} {task : Task} {r : Reply} (htask : x.machine.tasks[t]? = some task)
      (hp : task.program = .done r) :
      Change C mayCall x ⟨x.machine.setTask t { task with alive := false }, x.calls, x.admitted⟩
  /-- A caller waits for the lock. -/
  | queued {t : TaskId} : Change C mayCall x
      ⟨{ x.machine with queue := x.machine.queue ++ [t] }, x.calls, x.admitted⟩
  /-- A caller gets the lock. -/
  | entered {t : TaskId} {task : Task} {next : Unit → Program Reply}
      (htask : x.machine.tasks[t]? = some task) (hp : task.program = .ask .lock next)
      (hr : x.machine.AtRest) : Change C mayCall x
        ⟨{ x.machine.goOn t (next ()) with holder := some t }, x.calls, x.admitted ++ [t]⟩
  /-- A caller is answered in its section. -/
  | answered {t : TaskId} {task : Task} {q : Ask} {next : q.Answer → Program Reply} {a : q.Answer}
      {s : Machine} (hin : x.machine.Inside t) (htask : x.machine.tasks[t]? = some task)
      (hp : task.program = .ask q next) (hq : q ≠ .unlock)
      (hs : x.machine.respond t (C.answers x.machine.world.records) q = some (a, s)) :
      Change C mayCall x ⟨s.goOn t (next a), x.calls, x.admitted⟩
  /-- A caller leaves its section. -/
  | left {t : TaskId} {task : Task} {next : Unit → Program Reply} (hin : x.machine.Inside t)
      (htask : x.machine.tasks[t]? = some task) (hp : task.program = .ask .unlock next) :
      Change C mayCall x ⟨x.machine.passLock.goOn t (next ()), x.calls, x.admitted⟩

namespace Attended

variable {C : Collaborators} {mayCall : Machine → Prop} {x x' : Ledger}

theorem fresh (limits : Limits) (poolSize : Nat) (store : Store.Persisted) :
    Attended ⟨.fresh limits poolSize store, [], []⟩ where
  kept := ⟨none, kept_loose limits poolSize store⟩
  sound := .ofSize poolSize
  silent := nofun
  called := nofun
  known := nofun
  once := .nil
  stands _ _ h := by cases h
  inside _ _ h := by cases h.1
  rest _ := Pool.quiet_ofSize poolSize

/-- A step in which nobody gets the lock or gives it back. -/
theorem quietly (h : Attended x) (hk : ∃ o, Kept Terms.loose x'.machine o)
    (hw : x'.machine.world.Silent) (hp : x.machine.pool.Advances x'.machine.pool)
    (ha : x'.admitted = x.admitted) (hi : ∀ i, x'.machine.Inside i ↔ x.machine.Inside i)
    (ht : ∀ i, x.machine.Inside i → x'.machine.tasks[i]? = x.machine.tasks[i]?)
    (hc : ∀ c ∈ x.calls, c ∈ x'.calls)
    (called : ∀ c ∈ x'.calls, c.1 < x'.machine.tasks.length ∧ c.2.waits = true)
    (stands : ∀ t task, x'.machine.tasks[t]? = some task → Stands x' t task) : Attended x' where
  kept := hk
  sound := hp.sound h.sound
  silent := hw
  called := called
  known t hm := by
    obtain ⟨op, hop⟩ := h.known t (ha ▸ hm)
    exact ⟨op, hc _ hop⟩
  once := ha ▸ h.once
  stands := stands
  inside t task hin htask := by
    have hin := (hi t).1 hin
    obtain ⟨hm, g, hg, hh⟩ := h.inside t task hin (ht t hin ▸ htask)
    exact ⟨ha ▸ hm, g, hg.advances hp, hh⟩
  rest hr id hid := by
    have hr : x.machine.AtRest := fun t ht => hr t ((hi t).2 ht)
    exact h.rest hr id (hp.unsettled id hid)

/-- A caller begins an operation. -/
theorem call (h : Attended x) {op : Operation} (hw : op.waits = true)
    (hk' : ∃ o, Kept Terms.loose
      (x.machine.addTask ⟨op.program x.machine.limits, none, true⟩).2 o) :
    Attended ⟨(x.machine.addTask ⟨op.program x.machine.limits, none, true⟩).2,
      x.calls ++ [(x.machine.tasks.length, op)], x.admitted⟩ := by
  obtain ⟨o, hk⟩ := h.kept
  have old : ∀ {i}, i < x.machine.tasks.length → _ :=
    fun hi => Kept.tasks_addTask x.machine ⟨op.program x.machine.limits, none, true⟩ hi
  have hi := hk.inside_addTask ⟨op.program x.machine.limits, none, true⟩
  have length : (x.machine.addTask ⟨op.program x.machine.limits, none, true⟩).2.tasks.length =
      x.machine.tasks.length + 1 := List.length_append
  refine h.quietly hk' h.silent (.refl _) rfl hi (fun i hi => old (hk.holder_lt hi.1))
    (fun c hc => List.mem_append_left _ hc) (fun c hc => ?_) fun i task htask => ?_
  · rcases List.mem_append.1 hc with hc | hc
    · exact ⟨length ▸ Nat.lt_succ_of_lt (h.called c hc).1, (h.called c hc).2⟩
    · rw [List.mem_singleton.1 hc]
      exact ⟨length ▸ Nat.lt_succ_self _, hw⟩
  · by_cases hlt : i < x.machine.tasks.length
    · have hi' : x.machine.Inside i → _ := (hi i).2
      exact (h.stands i task ((old hlt).symm.trans htask)).of_call op (Nat.ne_of_lt hlt) rfl hi'
    · -- It is the new task, as no other has been added.
      have hlt' := (List.getElem?_eq_some_iff.1 htask).1
      rw [length] at hlt'
      obtain rfl := Nat.le_antisymm (Nat.le_of_lt_succ hlt') (Nat.le_of_not_lt hlt)
      obtain rfl := Option.some.inj (List.getElem?_concat_length.symm.trans htask)
      have fresh : ∀ op', (x.machine.tasks.length, op') ∉ x.calls :=
        fun op' hop => Nat.lt_irrefl _ (h.called _ hop).1
      refine .called op fresh (fun hm => ?_) rfl
      obtain ⟨op', hop⟩ := h.known _ hm
      exact fresh op' hop

/-- A worker makes a step, or time does. -/
theorem works (h : Attended x) {l : Label} (hl : l.isWork = true)
    (hs : x.machine.step? l = some s) (hk : ∃ o, Kept Terms.loose s o) :
    Attended ⟨s, x.calls, x.admitted⟩ := by
  obtain ⟨world, pool, rfl, hc, hp⟩ := works_advances hl hs
  have hi : ∀ i, ({ x.machine with world, pool } : Machine).Inside i ↔ x.machine.Inside i :=
    fun _ => Machine.inside_congr rfl rfl
  have hw : world.Silent := fun c hm => h.silent c (hc ▸ hm)
  exact h.quietly hk hw hp rfl hi (fun i _ => rfl) (fun _ hc => hc) h.called
    fun i task htask => (h.stands i task htask).frame rfl rfl id id (hi i).2

end Attended

end TunnelKeeper.Service
