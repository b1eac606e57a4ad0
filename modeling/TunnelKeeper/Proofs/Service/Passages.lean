import TunnelKeeper.Proofs.Service.Swapping
import TunnelKeeper.Proofs.Service.Tidying

/-!
# Passages — a task carries out a part of its program in time

A task is on a passage of its program while everything else goes on beside it (`Passage`).  What it
is asked to do after the passage makes no difference until then, so a passage can be looked at by
itself.  The task is never behind its time: it is not dropped, and no time passes while there is an
answer for it, or over the moment at which its wait comes to an end (`Machine.mayCome`).

* `Passage.run?_whole`: what happens on a passage is a run of the machine, whatever the task goes on
  with.
* `Passage.not_owes`: of a tidy program nothing is left behind at the end of the passage.
* `Machine.Quits.of_not_owes`: what is not left behind never begins or ends afterwards.
* `Calls.logged`: what a program calls sooner or later it has called at the end of the passage.
-/

namespace TunnelKeeper.Service

variable {α : Type} {s s' : Machine} {t : TaskId} {l : Label} {labels : List Label}

/-! ### What steps leave behind -/

/-- **A run tells only of units that had not come to their end**, and of new ones. -/
theorem log_run (h : s.run? labels = some s') :
    ∃ entries, s'.world.log = s.world.log ++ entries ∧ ∀ e ∈ entries, ∀ id, e.unit? = some id →
      id < s.pool.units.length → s.pool.Unsettled id := by
  induction labels generalizing s with
  | nil =>
      obtain rfl := Option.some.inj h
      exact ⟨[], (List.append_nil _).symm, by simp⟩
  | cons l labels ih =>
      obtain ⟨s₁, hs, h⟩ := Option.bind_eq_some_iff.1 h
      obtain ⟨-, first, hfirst, -, htells⟩ := world_step hs
      obtain ⟨rest, hrest, htold⟩ := ih h
      obtain ⟨moves, hmoves⟩ := pool_step hs
      refine ⟨first.toList ++ rest, by rw [hrest, hfirst, List.append_assoc],
        fun e he id hid hlt => ?_⟩
      rcases List.mem_append.1 he with he | he
      · exact htells e id (Option.mem_toList.1 he) hid
      · have hlt' := Nat.lt_of_lt_of_le hlt (Pool.length_le_run hmoves)
        exact Pool.unsettled_run hmoves hlt (htold e he id hid hlt')

/-- **A task has quit** all units of work that it has handed in from number `n` on: none of them
waits or is at work, and whatever happens later, none of them begins or ends. -/
structure Machine.Quits (s : Machine) (t : TaskId) (n : Nat) : Prop where
  settled : ∀ id, n ≤ id → ¬s.Owes t id
  silent : ∀ later s', s.run? later = some s' → ∃ entries, s'.world.log = s.world.log ++ entries ∧
    ∀ e ∈ entries, ∀ id work, n ≤ id → unitsOf s.pool t id = some work → e.unit? ≠ some id

theorem Machine.Quits.of_not_owes {n : Nat} (h : ∀ id, n ≤ id → ¬s.Owes t id) : s.Quits t n where
  settled := h
  silent later s' hrun := by
    obtain ⟨entries, hlog, htold⟩ := log_run hrun
    refine ⟨entries, hlog, fun e he id work hn hw hid => h id hn ⟨⟨work, hw⟩, ?_⟩⟩
    obtain ⟨u, hu, -, -⟩ := unitsOf_eq_some.1 hw
    exact htold e he id hid (List.getElem?_eq_some_iff.1 hu).1

/-! ### Passages -/

/-- A machine, and what one of its tasks has still to do of a passage of its program.  The program
that the task has in the machine itself makes no difference. -/
structure Passage (α : Type) where
  machine : Machine
  program : Program α

/-- Whether a span of time may pass while a task waits for an answer. -/
def Machine.mayPass (s : Machine) (span : Time) : Ask → Bool
  | .join id limit =>
    (s.pool.joined? id).isNone && limit.all fun time => s.world.clock + span ≤ time
  | .pause => true
  | _ => false

/-- Whether a step may come before the answer to a question of the task `t`. -/
def Machine.mayCome (s : Machine) (t : TaskId) (q : Ask) : Label → Bool
  | .turn i _ | .drop i => i != t
  | .elapse span => s.mayPass span q
  | _ => true

/-- How collaborators answer, if a step is a turn of the task `t`. -/
def Label.turnOf? (t : TaskId) : Label → Option Surroundings
  | .turn i around => if i = t then some around else none
  | _ => none

namespace Passage

/-- One step while the task `t` is on a passage: it is answered, or something else happens. -/
def step? (t : TaskId) (x : Passage α) (l : Label) : Option (Passage α) :=
  match x.program with
  | .done _ => none
  | .ask q next =>
    match l.turnOf? t with
    | some around => (x.machine.respond t around q).map fun a => ⟨a.2, next a.1⟩
    | none =>
      if x.machine.mayCome t q l then (x.machine.step? l).map fun s => ⟨s, x.program⟩ else none

/-- What a list of steps makes of a passage. -/
def run? (t : TaskId) (x : Passage α) (labels : List Label) : Option (Passage α) :=
  labels.foldlM (step? t) x

/-- The machine in which the task `t` is on the passage and goes on with `k`. -/
def whole (x : Passage α) (t : TaskId) (k : α → Program Reply) : Machine :=
  x.machine.goOn t (x.program.bind k)

variable {x y : Passage α} {q : Ask} {next : q.Answer → Program α}

theorem turnOf?_eq_none : l.turnOf? t = none ↔ ∀ around, l ≠ .turn t around := by
  cases l with
  | turn i around =>
      by_cases hi : i = t
      · subst hi
        simp [Label.turnOf?]
      · simp [Label.turnOf?, hi]
  | _ => exact iff_of_true rfl fun _ h => nomatch h

/-- The task is answered. -/
theorem step?_turn {around : Surroundings} {a : q.Answer}
    (hs : s.respond t around q = some (a, s')) :
    step? t ⟨s, .ask q next⟩ (.turn t around) = some ⟨s', next a⟩ := by
  simp [step?, Label.turnOf?, hs]

/-- Something else happens. -/
theorem step?_other (hn : l.turnOf? t = none) (hl : s.mayCome t q l = true)
    (hs : s.step? l = some s') :
    step? t ⟨s, .ask q next⟩ l = some ⟨s', .ask q next⟩ := by
  simp [step?, hn, hl, hs]

/-- **What can happen on a passage.** -/
theorem step?_cases (hs : step? t ⟨s, .ask q next⟩ l = some y) :
    (∃ around a s', l = .turn t around ∧ s.respond t around q = some (a, s') ∧ y = ⟨s', next a⟩) ∨
      ∃ s', l.turnOf? t = none ∧ s.mayCome t q l = true ∧ s.step? l = some s' ∧
        y = ⟨s', .ask q next⟩ := by
  cases hn : l.turnOf? t with
  | some around =>
      cases l with
      | turn i around' =>
          obtain ⟨rfl, hi⟩ := Option.ite_none_right_eq_some.1 hn
          simp only [step?, hn, Option.map_eq_some_iff] at hs
          obtain ⟨⟨a, s'⟩, hr, rfl⟩ := hs
          exact .inl ⟨around', a, s', rfl, Option.some.inj hi ▸ hr, rfl⟩
      | _ => cases hn
  | none =>
      simp only [step?, hn, Option.ite_none_right_eq_some, Option.map_eq_some_iff] at hs
      obtain ⟨hl, s', hs, rfl⟩ := hs
      exact .inr ⟨s', rfl, hl, hs, rfl⟩

/-- At the end of a passage nothing more happens on it. -/
theorem not_step?_done {a : α} : step? t ⟨s, .done a⟩ l ≠ some y := nofun

theorem run?_append (x : Passage α) (before after : List Label) :
    x.run? t (before ++ after) = (x.run? t before).bind (run? t · after) :=
  List.foldlM_append

/-- **A step on a passage is a step of the machine**, whatever the task goes on with. -/
theorem step?_whole {task : Task} (htask : x.machine.tasks[t]? = some task)
    (ha : task.alive = true) (k : α → Program Reply) (hs : x.step? t l = some y) :
    (x.whole t k).step? l = some (y.whole t k) ∧ y.machine.tasks[t]? = some task := by
  obtain ⟨s, p⟩ := x
  have hlt : t < s.tasks.length := (List.getElem?_eq_some_iff.1 htask).1
  cases p with
  | done a => exact absurd hs not_step?_done
  | ask q next =>
      obtain ⟨around, a, s', rfl, hr, rfl⟩ | ⟨s', hn, hl, hs', rfl⟩ := step?_cases hs
      · refine ⟨?_, tasks_respond hr htask⟩
        have hr' := respond_goOn hlt ((Dialogue.ask q next).bind k) t around q
        rw [hr, Option.map_some] at hr'
        have hnew := Machine.tasks_goOn_self ((Dialogue.ask q next).bind k) htask
        refine (turn?_of_respond hnew ha rfl hr').trans ?_
        exact congrArg some (Machine.goOn_goOn s' t _ _)
      · have hturn := turnOf?_eq_none.1 hn
        have hdrop : l ≠ .drop t := by
          rintro rfl
          exact absurd rfl (bne_iff_ne.1 hl)
        refine ⟨?_, (task_step hs' hturn hdrop htask).1⟩
        refine (step?_goOn hlt hturn hdrop _).trans ?_
        rw [hs']
        rfl

/-- **What happens on a passage is a run of the machine**, whatever the task goes on with. -/
theorem run?_whole {task : Task} (htask : x.machine.tasks[t]? = some task) (ha : task.alive = true)
    (k : α → Program Reply) (h : x.run? t labels = some y) :
    (x.whole t k).run? labels = some (y.whole t k) ∧ y.machine.tasks[t]? = some task := by
  induction labels generalizing x with
  | nil =>
      obtain rfl := Option.some.inj h
      exact ⟨rfl, htask⟩
  | cons l labels ih =>
      obtain ⟨x₁, hs, h⟩ := Option.bind_eq_some_iff.1 h
      obtain ⟨hs, htask₁⟩ := step?_whole htask ha k hs
      obtain ⟨hrun, htask'⟩ := ih htask₁ h
      exact ⟨Option.bind_eq_some_iff.2 ⟨_, hs, hrun⟩, htask'⟩

/-! ### What is left behind -/

/-- What a program owes, from a number of units on. -/
def Owing (x : Passage α) (t : TaskId) (n : Nat) (g : Grip) : Prop :=
  Tidy g x.program ∧ ∀ id, n ≤ id → x.machine.Owes t id → id ∈ g.owed

theorem owing_step {n : Nat} {g : Grip} (h : x.Owing t n g) (hs : x.step? t l = some y) :
    ∃ g, y.Owing t n g := by
  obtain ⟨s, p⟩ := x
  cases p with
  | done a => exact absurd hs not_step?_done
  | ask q next =>
      obtain ⟨around, a, s', rfl, hr, rfl⟩ | ⟨s', hn, -, hs', rfl⟩ := step?_cases hs
      · exact ⟨g.after q a, h.1 a, fun id hid ho => ho.respond (h.2 id hid) hr⟩
      · exact ⟨g, h.1, fun id hid ho => h.2 id hid (ho.of_step hs' (turnOf?_eq_none.1 hn))⟩

theorem owing_run {n : Nat} {g : Grip} (h : x.Owing t n g) (hs : x.run? t labels = some y) :
    ∃ g, y.Owing t n g := by
  induction labels generalizing x g with
  | nil =>
      obtain rfl := Option.some.inj hs
      exact ⟨g, h⟩
  | cons l labels ih =>
      obtain ⟨x₁, hs₁, hs⟩ := Option.bind_eq_some_iff.1 hs
      obtain ⟨g₁, h₁⟩ := owing_step h hs₁
      exact ih h₁ hs

/-- **At the end of a tidy passage nothing is left behind** that was handed in on it. -/
theorem not_owes {p : Program α} (hp : Tidy {} p) {a : α}
    (h : run? t ⟨s, p⟩ labels = some ⟨s', .done a⟩) (id : UnitId)
    (hid : s.pool.units.length ≤ id) : ¬s'.Owes t id := by
  have start : Owing ⟨s, p⟩ t s.pool.units.length {} := by
    refine ⟨hp, fun id hid ho => ?_⟩
    obtain ⟨u, hu, -⟩ := owes_iff.1 ho
    exact absurd (List.getElem?_eq_some_iff.1 hu).1 (Nat.not_lt_of_le hid)
  obtain ⟨g, hg, howed⟩ := owing_run start h
  have hnone : g.owed = [] := hg
  exact fun ho => List.not_mem_nil (hnone ▸ howed id hid ho)

end Passage

/-! ### What is called -/

/-- **A program calls a collaborator** sooner or later, whoever answers it. -/
def Calls (c : Call) : Program α → Prop
  | .done _ => False
  | .ask q next => q = .call c ∨ ∀ a, Calls c (next a)

namespace Calls

variable {c : Call} {x y : Passage α}

/-- A step on a passage adds the call to the log, or leaves it to be made. -/
theorem step (hs : x.step? t l = some y) :
    ∃ entries, y.machine.world.log = x.machine.world.log ++ entries ∧
      (Calls c x.program → Calls c y.program ∨ ∃ a, .called t c a ∈ entries) := by
  obtain ⟨s, p⟩ := x
  cases p with
  | done a => exact absurd hs Passage.not_step?_done
  | ask q next =>
      obtain ⟨around, a, s', rfl, hr, rfl⟩ | ⟨s', -, -, hs', rfl⟩ := Passage.step?_cases hs
      · obtain ⟨-, e, hlog, -, hcalls⟩ := world_respond hr
        refine ⟨e.toList, hlog, fun h => h.elim (fun h => .inr ?_) fun h => .inl (h a)⟩
        exact (hcalls c h).imp fun b hb => Option.mem_toList.2 hb
      · obtain ⟨-, e, hlog, -⟩ := world_step hs'
        exact ⟨e.toList, hlog, .inl⟩

theorem run (h : x.run? t labels = some y) :
    ∃ entries, y.machine.world.log = x.machine.world.log ++ entries ∧
      (Calls c x.program → Calls c y.program ∨ ∃ a, .called t c a ∈ entries) := by
  induction labels generalizing x with
  | nil =>
      obtain rfl := Option.some.inj h
      exact ⟨[], (List.append_nil _).symm, .inl⟩
  | cons l labels ih =>
      obtain ⟨x₁, hs, h⟩ := Option.bind_eq_some_iff.1 h
      obtain ⟨first, hfirst, hstep⟩ := step hs
      obtain ⟨rest, hrest, hrun⟩ := ih h
      refine ⟨first ++ rest, by rw [hrest, hfirst, List.append_assoc], fun hc => ?_⟩
      rcases hstep hc with hc | ⟨a, ha⟩
      · exact (hrun hc).imp_right fun ⟨a, ha⟩ => ⟨a, List.mem_append_right _ ha⟩
      · exact .inr ⟨a, List.mem_append_left _ ha⟩

/-- **What a program calls it has called** at the end of the passage. -/
theorem logged (hp : Calls c x.program) {a : α} (h : x.run? t labels = some ⟨s', .done a⟩) :
    ∃ entries b, s'.world.log = x.machine.world.log ++ entries ∧ .called t c b ∈ entries := by
  obtain ⟨entries, hlog, hcalls⟩ := run h
  obtain ⟨b, hb⟩ := (hcalls hp).resolve_left id
  exact ⟨entries, b, hlog, hb⟩

end Calls

end TunnelKeeper.Service
