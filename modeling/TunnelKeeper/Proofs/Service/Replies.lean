import TunnelKeeper.Proofs.Service.Ledger
import TunnelKeeper.Proofs.Service.Achieving
import TunnelKeeper.Proofs.Workers.Precedence

/-!
# Replies — a task that nobody disturbs comes to its end

Where the lock is free and the pool is ready, a task that asks for the lock can go on until it has
replied: each unit of work that it hands in is carried out at once (`exists_carried`), so every
question that it may ask is answered.  What it has called of collaborators until then is told from
the text of its program (`Calling`).

* `exists_answer`: whatever a task with the lock asks can be answered.
* `exists_reply`: the task can reply.
* `Calling.reach`: what it has called then.
-/

namespace TunnelKeeper

namespace Pool

/-! ### Carrying out a unit of work -/

variable {ω α : Type} {p : Pool ω α}

/-- **A pool is ready**: the next unit that asks for a permit has one. -/
structure Ready (p : Pool ω α) : Prop where
  takes : p.closed = false
  queue : p.queue = []
  free : 0 < p.free

/-- The pool after one more unit, in a stage. -/
def more (p : Pool ω α) (owner : Option Nat) (work : ω) (stage : Stage α) : Pool ω α :=
  { p with units := p.units ++ [⟨owner, work, stage⟩] }

/-- The pool after one more unit has asked for a permit. -/
def asked (p : Pool ω α) (owner : Option Nat) (work : ω) : Pool ω α :=
  { p.more owner work .waiting with queue := [p.units.length] }

/-- The pool after one more unit has begun. -/
def begun (p : Pool ω α) (owner : Option Nat) (work : ω) : Pool ω α :=
  { p.more owner work .running with free := p.free - 1 }

theorem units_more (p : Pool ω α) (owner : Option Nat) (work : ω) (stage : Stage α) :
    (p.more owner work stage).units[p.units.length]? = some ⟨owner, work, stage⟩ :=
  List.getElem?_concat_length

theorem setStage_more (p : Pool ω α) (owner : Option Nat) (work : ω) (stage stage' : Stage α) :
    (p.more owner work stage).setStage p.units.length stage' = p.more owner work stage' := by
  simp [more, setStage, List.modify_eq_take_drop]

namespace Ready

theorem ofSize (size : Nat) : Ready (ofSize size : Pool ω α) where
  takes := rfl
  queue := rfl
  free := Nat.lt_of_lt_of_le (by decide) (Nat.le_max_right size leastSize)

theorem spawn (h : p.Ready) (owner : Option Nat) (work : ω) :
    (p.spawn owner work).2 = p.more owner work .waiting := by
  simp [TunnelKeeper.Pool.spawn, h.takes, more]

theorem asks (h : p.Ready) (owner : Option Nat) (work : ω) :
    (p.more owner work .waiting).ask? p.units.length = some (p.asked owner work) := by
  have hq : (p.more owner work .waiting).queue = [] := h.queue
  unfold ask?
  rw [units_more, hq]
  rfl

theorem begins (h : p.Ready) (owner : Option Nat) (work : ω) :
    (p.asked owner work).begin? p.units.length = some (p.begun owner work) := by
  have hw : (p.asked owner work).units[p.units.length]?.any isWaiting = true :=
    congrArg (Option.any isWaiting) (p.units_more owner work .waiting)
  have hg : p.units.length ∈ (p.asked owner work).granted := by
    have hone : [p.units.length].length ≤ p.free := h.free
    show p.units.length ∈ [p.units.length].take p.free
    rw [List.take_of_length_le hone]
    exact List.mem_singleton_self _
  rw [begin?_of_granted hw hg]
  have hset := congrArg Pool.units (p.setStage_more owner work .waiting .running)
  have hq : (p.asked owner work).queue.erase p.units.length = p.queue := by
    rw [h.queue]
    exact List.erase_cons_head ..
  rw [hq]
  exact congrArg (fun units => some (Pool.mk p.size (p.free - 1) p.closed units p.queue)) hset

/-- A unit that runs comes to its end, and gives its permit back. -/
theorem ends (h : p.Ready) (owner : Option Nat) (work : ω) (result : α) :
    (p.begun owner work).release p.units.length (.finished result) =
      p.more owner work (.finished result) := by
  have hu : (p.begun owner work).units[p.units.length]? = some ⟨owner, work, .running⟩ :=
    units_more ..
  have hfree : p.free - 1 + 1 = p.free := Nat.sub_add_cancel h.free
  rw [release_of_running hu rfl, ← setStage_more p owner work .running]
  exact congrArg (Pool.mk p.size · p.closed _ p.queue) hfree

theorem more (h : p.Ready) (owner : Option Nat) (work : ω) (result : α) :
    (p.more owner work (.finished result)).Ready :=
  ⟨h.takes, h.queue, h.free⟩

theorem drop (h : p.Ready) (id : UnitId) : (p.drop id).Ready := by
  obtain ⟨-, hd⟩ | ⟨-, hd⟩ := p.drop_cases id
  · refine hd ▸ ⟨h.takes, ?_, h.free⟩
    show p.queue.erase id = []
    rw [h.queue, List.erase_nil]
  · exact hd ▸ ⟨(p.frame_release id _).1.trans h.takes, (p.queue_release id _).trans h.queue,
      Nat.lt_of_lt_of_le h.free (p.free_le_release id _)⟩

end Ready

end Pool

namespace Service

variable {A : Assumption} {s s' : Machine} {t : TaskId}

/-- A unit that a task has handed in is carried out, and comes to a result. -/
theorem exists_carried {rule : Machine → Label → Prop} (ha : ∀ s id, rule s (.ask id))
    (hb : ∀ s id, rule s (.begin id)) (hf : ∀ s id b, rule s (.finish id b)) (h : s.pool.Ready)
    (owner : Option Nat) (work : Work) (b : Bool) :
    ∃ s', Reach rule { s with pool := (s.pool.spawn owner work).2 } s' ∧
      s'.tasks = s.tasks ∧ s'.pool = s.pool.more owner work (.finished b) := by
  have hu : (s.pool.begun owner work).units[s.pool.units.length]? = some ⟨owner, work, .running⟩ :=
    Pool.units_more ..
  let asked : Machine := { s with pool := s.pool.asked owner work }
  have hask : { s with pool := s.pool.more owner work .waiting }.step? (.ask s.pool.units.length) =
      some asked := Option.map_eq_some_iff.2 ⟨_, h.asks owner work, rfl⟩
  have hbegin := begin?_eq_some (s := asked).2 ⟨_, _, h.begins owner work, hu, rfl⟩
  rw [h.spawn]
  refine ⟨_, ((Reach.start.step (ha _ _) hask).step (hb _ s.pool.units.length) hbegin).step
    (hf _ s.pool.units.length b) (end?_eq_some.2 ⟨_, hu, rfl, rfl⟩), rfl, ?_⟩
  exact h.ends owner work b

/-! ### The task can reply -/

/-- A unit has come to what is assumed of it. -/
def CameOut (A : Assumption) (pool : Pool Work Bool) (id : UnitId) : Prop :=
  ∃ u b, pool.units[id]? = some u ∧ u.stage = .finished b ∧
    ∀ b', A.outcome u.work = some b' → b' = b

namespace CameOut

variable {pool : Pool Work Bool} {id : UnitId}

theorem more (h : CameOut A pool id) (owner : Option Nat) (work : Work) (stage : Stage Bool) :
    CameOut A (pool.more owner work stage) id := by
  obtain ⟨u, b, hu, hs⟩ := h
  exact ⟨u, b, (List.getElem?_append_left (List.getElem?_eq_some_iff.1 hu).1).trans hu, hs⟩

theorem carried (pool : Pool Work Bool) (owner : Option Nat) (work : Work) :
    CameOut A (pool.more owner work (.finished ((A.outcome work).getD true))) pool.units.length :=
  ⟨_, _, Pool.units_more .., rfl, fun b hb => by rw [hb]; rfl⟩

theorem joined (h : CameOut A pool id) : ∃ b, pool.joined? id = some (.value b) ∧
    ∀ u b', pool.units[id]? = some u → A.outcome u.work = some b' → b' = b := by
  obtain ⟨u, b, hu, hs, hb⟩ := h
  refine ⟨b, ?_, fun v b' hv => ?_⟩
  · simp [Pool.joined?, Pool.stage?, hu, hs]
  · obtain rfl : u = v := Option.some.inj (hu.symm.trans hv)
    exact hb b'

end CameOut

/-- A turn of a task to which the units that it may join have come out. -/
theorem undisturbed_turn {around : Surroundings} (hA : A.rely around) {task : Task} {q : Ask}
    {next : q.Answer → Program Reply} (htask : s.tasks[t]? = some task)
    (hp : task.program = .ask q next)
    (hq : ∀ id limit, q = .join id limit → CameOut A s.pool id) :
    s.Undisturbed A t (.turn t around) where
  orderly := trivial
  stays := nofun
  alone i around' hl hne := by
    cases hl
    exact absurd rfl hne
  going around' hl := by
    cases hl
    refine ⟨hA, ?_⟩
    rw [Machine.reply?, htask, Option.bind_some, Task.reply?, hp]
  given around' task' id limit next' u b hl htask' hp' hu hb := by
    obtain rfl := Option.some.inj (htask.symm.trans htask')
    have hjoin : q = .join id limit := (Dialogue.ask.inj (hp.symm.trans hp')).1
    obtain ⟨b', hj, hout⟩ := (hq id limit hjoin).joined
    rw [hj, hout u b hu hb]

/-- **Whatever a task with the lock may ask is answered**, and the pool is ready again. -/
theorem exists_answer {around : Surroundings} (hA : A.rely around) (hr : s.pool.Ready) {g : Grip}
    (hg : ∀ id ∈ g.units, CameOut A s.pool id) {task : Task} {q : Ask}
    {next : q.Answer → Program Reply} (htask : s.tasks[t]? = some task) (ha : task.alive = true)
    (hp : task.program = .ask q next) (hq : g.Permits q) :
    ∃ a s', Reach (Machine.Undisturbed A t) s s' ∧
      s'.tasks[t]? = some { task with program := next a } ∧ s'.pool.Ready ∧
      ∀ id ∈ (g.after q a).units, CameOut A s'.pool id := by
  have turn : ∀ a s₁, s.respond t around q = some (a, s₁) →
      Reach (Machine.Undisturbed A t) s (s₁.goOn t (next a)) ∧
        (s₁.goOn t (next a)).tasks[t]? = some { task with program := next a } := by
    refine fun a s₁ hs => ⟨Reach.start.step (l := .turn t around) ?_ ?_, ?_⟩
    · refine undisturbed_turn hA htask hp ?_
      rintro id limit rfl
      exact hg id hq
    · exact turn?_of_respond htask ha hp hs
    · exact Machine.tasks_goOn_self _ (tasks_respond hs htask)
  cases q with
  | lock | unlock => exact hq.elim
  | spawn work =>
      obtain ⟨hreach, htask'⟩ := turn _ _ rfl
      have hask : ∀ (s : Machine) id, s.Undisturbed A t (.ask id) := fun _ _ =>
        .of_no_turn trivial nofun fun _ _ h => nomatch h
      have hbegin : ∀ (s : Machine) id, s.Undisturbed A t (.begin id) := fun _ _ =>
        .of_no_turn trivial nofun fun _ _ h => nomatch h
      have hfinish : ∀ (s : Machine) id b, s.Undisturbed A t (.finish id b) := fun _ _ _ =>
        .of_no_turn trivial nofun fun _ _ h => nomatch h
      obtain ⟨s', hs', htasks, hpool⟩ := exists_carried hask hbegin hfinish
        (s := s.goOn t (next s.pool.units.length)) hr (some t) work ((A.outcome work).getD true)
      refine ⟨s.pool.units.length, s', hreach.trans hs', ?_, ?_, ?_⟩
      · rw [htasks]
        exact htask'
      · rw [hpool]
        exact hr.more (some t) work _
      · rw [hpool]
        intro id hid
        rcases List.mem_cons.1 hid with rfl | hid
        · exact CameOut.carried s.pool (some t) work
        · exact (hg id hid).more (some t) work _
  | join id limit =>
      obtain ⟨b, hj, -⟩ := (hg id hq).joined
      obtain ⟨hreach, htask'⟩ := turn (.value b) s (respond_join.2 ⟨rfl, .inl hj⟩)
      exact ⟨_, _, hreach, htask', hr, hg⟩
  | abandon id =>
      obtain ⟨hreach, htask'⟩ := turn _ _ rfl
      exact ⟨_, _, hreach, htask', hr.drop id, nofun⟩
  | call k =>
      obtain ⟨hreach, htask'⟩ := turn _ _ rfl
      refine ⟨_, _, hreach, htask', hr, ?_⟩
      cases k <;> exact hg
  | _ =>
      obtain ⟨hreach, htask'⟩ := turn _ _ rfl
      exact ⟨_, _, hreach, htask', hr, hg⟩

/-- **A task with the lock can go on until it has replied.** -/
theorem exists_reply_held {around : Surroundings} (hA : A.rely around) {g : Grip} {task : Task}
    {p : Program Reply} (hheld : Held g p) (hr : s.pool.Ready)
    (hg : ∀ id ∈ g.units, CameOut A s.pool id) (htask : s.tasks[t]? = some task)
    (ha : task.alive = true) (hp : task.program = p) :
    ∃ s' r, Reach (Machine.Undisturbed A t) s s' ∧ s'.reply? t = some r := by
  -- The induction is on what is left of the program.
  induction p generalizing g s task with
  | done r => exact hheld.elim
  | ask q next ih =>
      by_cases hq : q = .unlock
      · subst hq
        obtain ⟨-, hdone⟩ := hheld.1 rfl
        obtain ⟨r, hnext⟩ := hdone ()
        refine ⟨_, r, Reach.start.step (l := .turn t around) (undisturbed_turn hA htask hp nofun)
          (turn?_of_respond htask ha hp rfl), ?_⟩
        exact Machine.reply?_eq_some.2
          ⟨_, Machine.tasks_goOn_self (s := s.passLock) _ htask, hnext⟩
      · obtain ⟨hpermits, hheld⟩ := hheld.2 hq
        obtain ⟨a, s₁, hreach, htask₁, hr₁, hg₁⟩ := exists_answer hA hr hg htask ha hp hpermits
        obtain ⟨s', r, hreach', hreply⟩ := ih a (hheld a) hr₁ hg₁ htask₁ ha rfl
        exact ⟨s', r, hreach.trans hreach', hreply⟩

/-- **A task can reply** once it asks for a lock that is free, if nobody disturbs it. -/
theorem exists_reply {around : Surroundings} (hA : A.rely around) (hr : s.pool.Ready)
    (hfree : s.holder = none) {task : Task} {next : Unit → Program Reply}
    (htask : s.tasks[t]? = some task) (ha : task.alive = true)
    (hp : task.program = .ask .lock next) (hheld : Held {} (next ())) :
    ∃ s' r, Reach (Machine.Undisturbed A t) s s' ∧ s'.reply? t = some r := by
  have entered : Reach (Machine.Undisturbed A t) s
      { s.goOn t (next ()) with holder := some t } := by
    refine Reach.start.step (l := .turn t around) (undisturbed_turn hA htask hp nofun) ?_
    exact (turn?_lock htask ha hp around).trans (takeLock_free (.inl hfree) _)
  obtain ⟨s', r, hreach, hreply⟩ := exists_reply_held hA hheld
    (s := { s.goOn t (next ()) with holder := some t }) hr nofun
    (Machine.tasks_goOn_self (next ()) htask) ha rfl
  exact ⟨s', r, entered.trans hreach, hreply⟩

/-! ### What the task has called -/

/-- What a question calls. -/
def Ask.calls : Ask → List Call
  | .call k => [k]
  | _ => []

/-- What a task has called, by an entry. -/
def Entry.callOf? (t : TaskId) : Entry → Option Call
  | .called i k _ => if i = t then some k else none
  | _ => none

/-- **What a task has called**, oldest call first. -/
def callsOf (log : List Entry) (t : TaskId) : List Call := log.filterMap (Entry.callOf? t)

/-- The calls in the end, and the result, are in `post`, where `calls` were made before. -/
def Calling {α : Type} (post : List Call → α → Prop) : List Call → Program α → Prop
  | calls, .done a => post calls a
  | calls, .ask q next => ∀ a, Calling post (calls ++ q.calls) (next a)

namespace Calling

variable {α β : Type} {calls : List Call}

theorem question {post : List Call → α → Prop} {q : Ask} {f : q.Answer → Program α}
    (h : ∀ a, Calling post (calls ++ q.calls) (f a)) :
    Calling post calls ((Dialogue.question q).bind f) :=
  h

theorem mono {post post' : List Call → α → Prop} (h : ∀ calls a, post calls a → post' calls a)
    {p : Program α} (hp : Calling post calls p) : Calling post' calls p := by
  induction p generalizing calls with
  | done a => exact h calls a hp
  | ask q next ih => exact fun a => ih a (hp a)

theorem bind {post : List Call → β → Prop} {f : α → Program β} {p : Program α}
    (hp : Calling (fun calls a => Calling post calls (f a)) calls p) :
    Calling post calls (p.bind f) := by
  induction p generalizing calls with
  | done a => exact hp
  | ask q next ih => exact fun a => ih a (hp a)

/-- A program that asks only what is allowed calls only what is allowed. -/
theorem of_asks {allowed : Ask → Prop} {p : Program α} (hp : Asks allowed p) :
    Calling (fun calls' _ => ∀ k ∈ calls', k ∈ calls ∨ allowed (.call k)) calls p := by
  induction p generalizing calls with
  | done a => exact fun k hk => .inl hk
  | ask q next ih =>
      refine fun a => (ih a (hp.2 a)).mono fun calls' _ h k hk => ?_
      refine (h k hk).elim (fun hk => ?_) .inr
      rcases List.mem_append.1 hk with hk | hk
      · exact .inl hk
      · cases q with
        | call k' =>
            obtain rfl := List.mem_singleton.1 hk
            exact .inr hp.1
        | _ => cases hk

end Calling

theorem callsOf_append (log : List Entry) (e : Option Entry) (t : TaskId) :
    callsOf (log ++ e.toList) t = callsOf log t ++ (e.bind (Entry.callOf? t)).toList := by
  cases e with
  | none => simp [callsOf]
  | some e => cases h : e.callOf? t <;> simp [callsOf, h]

theorem callsOf_respond {around : Surroundings} {q : Ask} {a : q.Answer}
    (hs : s.respond t around q = some (a, s')) :
    callsOf s'.world.log t = callsOf s.world.log t ++ q.calls := by
  cases q with
  | lock => cases hs
  | join id limit =>
      obtain ⟨rfl, -⟩ := respond_join.1 hs
      exact (List.append_nil _).symm
  | call k =>
      cases hs
      refine (congrArg (callsOf · t) (congrArg (· ++ [_]) (s.world.log_afterCall k _))).trans ?_
      refine (callsOf_append s.world.log (some _) t).trans ?_
      simp [Entry.callOf?, Ask.calls]
  | _ =>
      cases hs
      exact (List.append_nil _).symm

/-- What is no turn of a task adds nothing to what it has called. -/
theorem callsOf_step {l : Label} (hs : s.step? l = some s') (ht : ∀ around, l ≠ .turn t around) :
    callsOf s'.world.log t = callsOf s.world.log t := by
  obtain ⟨e, hlog, he⟩ := log_step hs
  rw [hlog, callsOf_append]
  suffices h : e.bind (Entry.callOf? t) = none by simp [h]
  cases e with
  | none => rfl
  | some e =>
      cases e with
      | called i k b =>
          obtain ⟨around, task, next, rfl, -⟩ := he i k b rfl
          have hi : i ≠ t := by
            rintro rfl
            exact ht around rfl
          exact if_neg hi
      | began | ended => rfl

/-- A task that there is not yet has called nothing. -/
theorem Reach.callsOf_eq_nil {rule : Machine → Label → Prop} {limits : Limits} {poolSize : Nat}
    {store : Store.Persisted} (h : Reach rule (Machine.fresh limits poolSize store) s)
    (ht : s.tasks[t]? = none) : callsOf s.world.log t = [] := by
  induction h with
  | start => rfl
  | @step s₁ s₂ l _ hl hs ih =>
      have hnone : s₁.tasks[t]? = none := by
        cases htask : s₁.tasks[t]? with
        | none => rfl
        | some task =>
            obtain ⟨task', htask'⟩ := exists_task_step hs htask
            exact absurd (ht.symm.trans htask') nofun
      rw [callsOf_step hs, ih hnone]
      rintro around rfl
      obtain ⟨task, htask, -⟩ := turn?_alive hs
      exact absurd (hnone.symm.trans htask) nofun

/-- A step in which nobody disturbs the task. -/
theorem Calling.step {post : List Call → Reply → Prop} {l : Label} {task : Task}
    (htask : s.tasks[t]? = some task) (ha : task.alive = true)
    (hp : Calling post (callsOf s.world.log t) task.program) (hl : s.Undisturbed A t l)
    (hs : s.step? l = some s') : ∃ task', s'.tasks[t]? = some task' ∧ task'.alive = true ∧
      Calling post (callsOf s'.world.log t) task'.program := by
  by_cases ht : ∃ around, l = .turn t around
  · obtain ⟨around, rfl⟩ := ht
    have hs : s.turn? t around = some s' := hs
    cases hprog : task.program with
    | done r =>
        have hreply := Machine.reply?_eq_some.2 ⟨task, htask, hprog⟩
        exact absurd ((hl.going around rfl).2.symm.trans hreply) nofun
    | ask q next =>
        rw [hprog] at hp
        by_cases hq : q = .lock
        · subst hq
          have hnext := hp ()
          rw [show Ask.calls .lock = [] from rfl, List.append_nil] at hnext
          rw [turn?_lock htask ha hprog] at hs
          obtain ⟨-, rfl⟩ | ⟨-, rfl⟩ := takeLock_cases hs
          · exact ⟨_, Machine.tasks_goOn_self _ htask, ha, hnext⟩
          · refine ⟨task, htask, ha, ?_⟩
            rw [hprog]
            exact hp
        · obtain ⟨a, s₁, hs₁, rfl⟩ := turn?_ask htask ha hprog hq hs
          refine ⟨_, Machine.tasks_goOn_self _ (tasks_respond hs₁ htask), ha, ?_⟩
          have hnext := hp a
          rw [← callsOf_respond hs₁] at hnext
          exact hnext
  · have ht : ∀ around, l ≠ .turn t around := fun around he => ht ⟨around, he⟩
    refine ⟨task, (task_step hs ht hl.stays htask).1, ha, ?_⟩
    rw [callsOf_step hs ht]
    exact hp

/-- **What a task has called when it replies**, if nobody disturbs it. -/
theorem Calling.reach {post : List Call → Reply → Prop} {task : Task}
    (htask : s.tasks[t]? = some task) (ha : task.alive = true)
    (hp : Calling post (callsOf s.world.log t) task.program)
    (h : Reach (Machine.Undisturbed A t) s s') {r : Reply} (hreply : s'.reply? t = some r) :
    post (callsOf s'.world.log t) r := by
  have calling : ∃ task, s'.tasks[t]? = some task ∧ task.alive = true ∧
      Calling post (callsOf s'.world.log t) task.program := by
    clear hreply
    induction h with
    | start => exact ⟨task, htask, ha, hp⟩
    | step _ hl hs ih =>
        obtain ⟨task, htask, ha, hp⟩ := ih
        exact Calling.step htask ha hp hl hs
  obtain ⟨task', htask', -, hp'⟩ := calling
  rw [Machine.program_of_reply hreply htask'] at hp'
  exact hp'

end Service

end TunnelKeeper
