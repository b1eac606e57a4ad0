import Mathlib.Logic.Relation
import TunnelKeeper.Proofs.Service.Anonymous
import TunnelKeeper.Proofs.Service.Careful
import TunnelKeeper.Proofs.Workers.Unsettled

/-!
# Ledgers — callers side by side, in the order in which they get the lock

Callers ask for operations whenever they like, and tasks and workers make their steps in any order.
Collaborators answer as they choose, but only by what happened before (`Collaborators`).  A `Ledger`
is a machine together with who has called and who has got the lock, and `Serves` is any number of
steps of it.

* `Held g p`: a program that has the lock.  It gives it back once, owing nothing, and is done then.
* `Operation.refused_or_held`: an operation is refused at once, or asks for the lock first of all.
* `Machine.insider?_eq_some`: who is in its section can be computed.
-/

namespace TunnelKeeper.Service

variable {α β : Type}

/-! ### Programs that have the lock -/

/-- An operation that asks for the lock, unless it is refused at once. -/
def Operation.waits : Operation → Bool
  | .isActive _ | .overview _ => false
  | _ => true

/-- **A program that has the lock**, with so much at hand. -/
def Held : Grip → Program α → Prop
  | _, .done _ => False
  | g, .ask q next => (q = .unlock → g.owed = [] ∧ ∀ a, ∃ r, next a = .done r) ∧
      (q ≠ .unlock → g.Permits q ∧ ∀ a, Held (g.after q a) (next a))

namespace Held

theorem mono {g g' : Grip} {p : Program α} (hg : g.Within g') (ho : ∀ id ∈ g'.owed, id ∈ g.owed)
    (hp : Held g p) : Held g' p := by
  induction p generalizing g g' with
  | done a => exact hp
  | ask q next ih =>
      refine ⟨fun hq => ⟨?_, (hp.1 hq).2⟩, fun hq => ⟨hg.permits (hp.2 hq).1, fun a => ?_⟩⟩
      · exact List.eq_nil_iff_forall_not_mem.2 fun id hid =>
          List.not_mem_nil ((hp.1 hq).1 ▸ ho id hid)
      · exact ih a (hg.after q a) (Grip.owed_after ho q a) ((hp.2 hq).2 a)

/-- The lock is given back. -/
theorem unlock (r : α) : Held {} (Program.unlock.bind fun _ => .done r) :=
  ⟨fun _ => ⟨rfl, fun _ => ⟨r, rfl⟩⟩, fun h => absurd rfl h⟩

theorem map {g : Grip} {p : Program α} (hp : Held g p) (f : α → β) :
    Held g (p.bind fun a => .done (f a)) := by
  induction p generalizing g with
  | done a => exact hp
  | ask q next ih =>
      refine ⟨fun hq => ⟨(hp.1 hq).1, fun a => ?_⟩, fun hq => ⟨(hp.2 hq).1, fun a => ?_⟩⟩
      · obtain ⟨r, hr⟩ := (hp.1 hq).2 a
        exact ⟨f r, congrArg (fun p => Dialogue.bind p fun a => .done (f a)) hr⟩
      · exact ih a ((hp.2 hq).2 a)

theorem not_lock {g : Grip} {next : Unit → Program α} : ¬Held g (.ask .lock next) :=
  fun hp => (hp.2 nofun).1

end Held

/-- A careful part of a program that has the lock. -/
theorem Careful.held {g : Grip} {p : Program α} {f : α → Program β} (hp : Careful g p)
    (hf : ∀ a, Held {} (f a)) : Held g (p.bind f) := by
  induction p generalizing g with
  | done a =>
      have hp : g.owed = [] := hp
      exact (hf a).mono g.nothing_within (by simp [hp])
  | ask q next ih =>
      refine ⟨?_, fun _ => ⟨hp.1, fun a => ih a (hp.2 a)⟩⟩
      rintro rfl
      exact hp.1.elim

theorem held_resume (limits : Limits) : ∃ next, Program.resume limits = .ask .lock next ∧
    Held {} (next ()) := by
  refine ⟨_, rfl, ?_⟩
  have left : Held {} (Program.call .requestExit >>= fun _ => Program.unlock >>= fun _ =>
      pure (none : Option ErrorCode)) :=
    Careful.held (p := Program.call .requestExit) ⟨trivial, fun _ => rfl⟩ fun _ => .unlock _
  refine Careful.held (p := Program.call .load) ⟨trivial, fun _ => rfl⟩ fun loaded => ?_
  cases Program.resumable? loaded with
  | none => exact left
  | some d =>
      refine Careful.held (p := Program.isPrepared) ⟨trivial, fun _ => rfl⟩ fun prepared => ?_
      cases prepared with
      | false => exact left
      | true =>
          refine Careful.held (p := Program.display d _) ⟨trivial, fun _ => rfl⟩ fun _ => ?_
          exact (careful_startLocked _ _ _).held fun _ => .unlock _

/-- **An operation is refused at once, or it asks for the lock**, which it then has once. -/
theorem Operation.refused_or_held (limits : Limits) {op : Operation} (hw : op.waits = true) :
    (∃ r, op.program limits = .done r) ∨
      ∃ next, op.program limits = .ask .lock next ∧ Held {} (next ()) := by
  cases op with
  | start id config =>
      show (∃ r, (Program.start limits id config).bind _ = _) ∨
        ∃ next, (Program.start limits id config).bind _ = _ ∧ _
      unfold Program.start
      split
      · exact .inl ⟨_, rfl⟩
      split
      · exact .inl ⟨_, rfl⟩
      · refine .inr ⟨_, rfl, ?_⟩
        have h : Held {} ((Program.startLocked limits ⟨id, config⟩ false).bind fun code =>
            Program.unlock.bind fun _ => .done (.ok code : Except TunnelError ErrorCode)) :=
          (careful_startLocked _ _ _).held fun _ => .unlock _
        exact h.map _
  | stop id =>
      show (∃ r, (Program.stop id).bind _ = _) ∨ ∃ next, (Program.stop id).bind _ = _ ∧ _
      unfold Program.stop
      split
      · exact .inl ⟨_, rfl⟩
      · refine .inr ⟨_, rfl, Held.map (p := Program.activeId >>= _) ?_ _⟩
        refine careful_activeId.held fun active => ?_
        split
        · refine careful_activeId.held fun id => ?_
          refine Careful.held (p := Program.emit _) ⟨trivial, fun _ => rfl⟩ fun _ => ?_
          exact careful_tearDown.held fun _ => .unlock _
        · exact .unlock _
  | resume =>
      obtain ⟨next, hn, h⟩ := held_resume limits
      refine .inr ⟨fun a => (next a).bind fun r => .done (.resumed r), ?_, h.map _⟩
      show (Program.resume limits).bind _ = _
      rw [hn]
      rfl
  | revoke =>
      refine .inr ⟨_, rfl, Held.map (p := Program.activeId >>= _) ?_ _⟩
      refine careful_activeId.held fun active => ?_
      refine Careful.held (p := Program.emit _) ⟨trivial, fun _ => rfl⟩ fun _ => ?_
      exact careful_tearDown.held fun _ => .unlock ()
  | destroy =>
      refine .inr ⟨_, rfl, Held.map (p := Program.tearDown >>= _) ?_ _⟩
      exact careful_tearDown.held fun _ => .unlock ()
  | isActive | overview => cases hw

/-! ### Machines -/

/-- A task asks for the lock. -/
def Task.asksLock (task : Task) : Bool :=
  match task.alive, task.program with
  | true, .ask .lock _ => true
  | _, _ => false

theorem Task.reply?_eq_some {task : Task} {r : Reply} :
    task.reply? = some r ↔ task.program = .done r := by
  unfold reply?
  split
  case h_1 r' hp => simp [hp]
  case h_2 hp => simp [hp]

namespace Machine

/-- The task in its section. -/
def insider? (s : Machine) : Option TaskId :=
  s.holder.filter fun t => !(s.tasks[t]?.any Task.asksLock)

/-- Who gets the lock by a step, and goes on with it. -/
def admits (s s' : Machine) : List TaskId :=
  if s'.insider? = s.insider? then [] else s'.insider?.toList

/-- What a task has answered. -/
def reply? (s : Machine) (t : TaskId) : Option Reply := s.tasks[t]?.bind Task.reply?

/-- **Nothing is going on**: every task is done, and no unit of work waits or runs. -/
def Idle (s : Machine) : Prop :=
  (∀ task ∈ s.tasks, ∃ r, task.program = .done r) ∧ s.pool.Quiet

variable {s s' : Machine} {t : TaskId}

theorem asksLock_iff : s.tasks[t]?.any Task.asksLock = true ↔ s.AtLock t := by
  rw [Option.any_eq_true]
  constructor
  · rintro ⟨task, htask, h⟩
    unfold Task.asksLock at h
    split at h
    case h_1 next ha hp => exact ⟨task, next, htask, ha, hp⟩
    case h_2 => cases h
  · rintro ⟨task, next, htask, ha, hp⟩
    refine ⟨task, htask, ?_⟩
    unfold Task.asksLock
    rw [ha, hp]

theorem insider?_eq_some : s.insider? = some t ↔ s.Inside t := by
  unfold insider? Inside
  rw [Option.filter_eq_some_iff, ← asksLock_iff]
  simp

theorem admits_of_inside (h : ∀ t, s'.Inside t → s.Inside t) : s.admits s' = [] := by
  unfold admits
  split
  case isTrue => rfl
  case isFalse hne =>
    cases hi : s'.insider? with
    | none => rfl
    | some t =>
        have ht := insider?_eq_some.2 (h t (insider?_eq_some.1 hi))
        exact absurd (hi.trans ht.symm) hne

theorem admits_of_tasks (ht : s'.tasks = s.tasks) (hh : s'.holder = s.holder) : s.admits s' = [] :=
  admits_of_inside fun _ => (inside_congr (by rw [ht]) hh).1

theorem admits_of_enters (h : ¬s.Inside t) (h' : s'.Inside t) : s.admits s' = [t] := by
  have hi := insider?_eq_some.2 h'
  unfold admits
  rw [if_neg, hi]
  · rfl
  · rw [hi]
    exact fun hs => h (insider?_eq_some.1 hs.symm)

theorem reply?_eq_some {r : Reply} :
    s.reply? t = some r ↔ ∃ task, s.tasks[t]? = some task ∧ task.program = .done r := by
  unfold reply?
  rw [Option.bind_eq_some_iff]
  exact exists_congr fun task => and_congr_right fun _ => Task.reply?_eq_some

theorem program_of_reply {r : Reply} {task : Task} (h : s.reply? t = some r)
    (htask : s.tasks[t]? = some task) : task.program = .done r := by
  obtain ⟨task', htask', hp⟩ := reply?_eq_some.1 h
  obtain rfl : task = task' := Option.some.inj (htask.symm.trans htask')
  exact hp

end Machine

/-! ### Callers and collaborators -/

/-- **Collaborators** answer by what was called and worked before, whoever asked for it. -/
structure Collaborators where
  answers : List Entry → Surroundings
  /-- What a unit of work ends with; none where it ends abnormally. -/
  outcome : List Entry → UnitId → Work → Option Bool

/-- A step of a task, a worker or time, in which collaborators answer. -/
def Collaborators.Governs (C : Collaborators) (s : Machine) : Label → Prop
  | .turn _ around => around = C.answers s.world.records
  | .finish id result =>
    ∃ u, s.pool.units[id]? = some u ∧ C.outcome s.world.records id u.work = some result
  | .panic id => ∃ u, s.pool.units[id]? = some u ∧ C.outcome s.world.records id u.work = none
  | .ask _ | .begin _ | .elapse _ => True
  | _ => False

/-- A machine, who has called it and who has got its lock. -/
structure Ledger where
  machine : Machine
  /-- The callers and what they ask for, in the order of calling. -/
  calls : List (TaskId × Operation) := []
  /-- The callers that have got the lock, in that order. -/
  admitted : List TaskId := []

/-- **One step** of a ledger: somebody calls where that is allowed, or the machine moves. -/
inductive Ledger.Step (C : Collaborators) (mayCall : Machine → Prop) : Ledger → Ledger → Prop where
  | call {x : Ledger} {op : Operation} {s : Machine} (hm : mayCall x.machine)
      (hw : op.waits = true) (hs : x.machine.step? (.call op) = some s) :
      Step C mayCall x ⟨s, x.calls ++ [(x.machine.tasks.length, op)], x.admitted⟩
  | move {x : Ledger} {l : Label} {s : Machine} (hl : C.Governs x.machine l)
      (hs : x.machine.step? l = some s) :
      Step C mayCall x ⟨s, x.calls, x.admitted ++ x.machine.admits s⟩

/-- Any number of steps. -/
abbrev Ledger.Serves (C : Collaborators) (mayCall : Machine → Prop) : Ledger → Ledger → Prop :=
  Relation.ReflTransGen (Ledger.Step C mayCall)

end TunnelKeeper.Service
