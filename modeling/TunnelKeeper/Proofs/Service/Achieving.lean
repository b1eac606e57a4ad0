import TunnelKeeper.Proofs.Service.Undisturbed

/-!
# Achieving — what a program achieves, its task has achieved

A task is about to achieve what its program tells from the custody as it is (`Machine.Achieving`),
and no step changes that while nobody disturbs it.

* `Machine.Achieving.step`: an answer, the way into a section and the way out of it keep to the
  program, and so does whatever others do.
* `Achieves.reach`: what a program achieves holds when the task is done.
-/

namespace TunnelKeeper.Service

variable {α : Type} {s s' : Machine} {t : TaskId} {l : Label}

/-! ### Achieving -/

/-- Where a task is: without the lock, which is free, or with it and with what is pending. -/
def Machine.At (s : Machine) (t : TaskId) (o : Option Pending) : Option (Option Pending) → Prop
  | none => s.AtRest
  | some o' => s.Inside t ∧ o' = o

/-- **A task is about to achieve what its program achieves.** -/
def Machine.Achieving (A : Assumption) (post : Units → Reply → Custody → Prop) (t : TaskId)
    (s : Machine) : Prop :=
  ∃ o m task, Kept .loose s o ∧ s.At t o m ∧ s.tasks[t]? = some task ∧ task.alive = true ∧
    Achieves A post (unitsOf s.pool t) m s.world.custody task.program

variable {A : Assumption} {post : Units → Reply → Custody → Prop}

/-- A task that nobody disturbs is answered as assumed. -/
theorem Machine.Undisturbed.allows {around : Surroundings} {task : Task} {q : Ask}
    {next : q.Answer → Program Reply} {a : q.Answer} (h : s.Undisturbed A t (.turn t around))
    (htask : s.tasks[t]? = some task) (hp : task.program = .ask q next)
    (hs : s.respond t around q = some (a, s')) : A.Allows (unitsOf s.pool t) q a := by
  cases q with
  | join id limit =>
      intro work b hw hb
      unfold unitsOf at hw
      obtain ⟨u, hu, rfl⟩ := Option.map_eq_some_iff.1 hw
      have hgiven := h.given around task id limit next u b rfl htask hp
        (Option.filter_eq_some_iff.1 hu).1 hb
      obtain ⟨-, hj | ⟨hj, -⟩⟩ := respond_join.1 hs
      · exact Option.some.inj (hj.symm.trans hgiven)
      · exact absurd (hj.symm.trans hgiven) nofun
  | call k =>
      cases hs
      have hrely := (h.going around rfl).1
      exact ⟨s.world.custody, around, hrely, (s.world.answer_custody around k).symm⟩
  | spawn work =>
      cases hs
      exact unitsOf_length s.pool t
  | _ => trivial

namespace Machine.Achieving

/-- What is not a turn of the task leaves it where it is. -/
theorem step_other (h : s.Achieving A post t) (hl : s.Undisturbed A t l)
    (ht : ∀ around, l ≠ .turn t around) (hs : s.step? l = some s') : s'.Achieving A post t := by
  obtain ⟨o, m, task, hk, hat, htask, ha, hp⟩ := h
  have hn : ∀ i around, l = .turn i around → s.AtLock i → s.holder ≠ none ∧ s.holder ≠ some i :=
    fun i around hi => hl.alone i around hi fun he => ht around (he ▸ hi)
  have hin : ∀ i around, l = .turn i around → ¬s.Inside i := by
    intro i around hi hin
    match m with
    | none => exact hat i hin
    | some _ => exact ht around (hat.1.unique hin ▸ hi)
  obtain ⟨o', hk', hd, hst⟩ := hk.step_apart loose_lasting (allows_loose hl.orderly) hin hs
  obtain ⟨htask', hunits⟩ := task_step hs ht hl.stays htask
  match m with
  | none =>
      obtain ⟨rfl, -⟩ := hk.rest hat
      obtain ⟨rfl, hc⟩ := hd.none_inv
      refine ⟨none, none, task, hk', atRest_step hk hat hl.orderly hn hs, htask', ha, ?_⟩
      rw [hunits, hc]
      exact hp
  | some _ =>
      obtain ⟨hin, rfl⟩ := hat
      refine ⟨o', some o', task, hk', ⟨hin.stays hst, rfl⟩, htask', ha, ?_⟩
      rw [hunits]
      exact hp.of_drift hd

/-- The task gets the lock, or waits for it. -/
theorem step_lock (hk : Kept .loose s none) (hr : s.AtRest) {task : Task}
    {next : Unit → Program Reply} (htask : s.tasks[t]? = some task) (ha : task.alive = true)
    (hprog : task.program = .ask .lock next)
    (hp : Achieves A post (unitsOf s.pool t) none s.world.custody task.program)
    (hs : s.takeLock t (next ()) = some s') : s'.Achieving A post t := by
  obtain ⟨hk', -, -⟩ := hk.takeLock htask ha hprog hs
  have hnext : Achieves A post (unitsOf s.pool t) (some none) s.world.custody (next ()) := by
    rw [hprog] at hp
    exact hp
  obtain ⟨-, rfl⟩ | ⟨-, rfl⟩ := takeLock_cases hs
  · have hnew := Machine.tasks_goOn_self (next ()) htask
    refine ⟨none, some none, _, hk', ⟨⟨rfl, ?_⟩, rfl⟩, hnew, ha, hnext⟩
    rintro ⟨task', next', htask', -, hlock⟩
    obtain rfl := Option.some.inj (hnew.symm.trans htask')
    have hlock : next () = .ask .lock next' := hlock
    rw [hlock] at hnext
    exact hnext
  · exact ⟨none, none, task, hk', hr, htask, ha, hp⟩

/-- The task is answered without the lock. -/
theorem step_free (hk : Kept .loose s none) (hr : s.AtRest) {task : Task} {q : Ask}
    {next : q.Answer → Program Reply} (htask : s.tasks[t]? = some task) (ha : task.alive = true)
    (hprog : task.program = .ask q next) (hq : q ≠ .lock) {around : Surroundings}
    (hu : s.Undisturbed A t (.turn t around))
    (hp : Achieves A post (unitsOf s.pool t) none s.world.custody task.program)
    (hs : s.turn? t around = some s') : s'.Achieving A post t := by
  obtain ⟨o', hk', hd, -⟩ := hk.turn_apart loose_lasting (hr t) hs
  obtain ⟨rfl, hc⟩ := hd.none_inv
  obtain ⟨a, s₁, hs₁, rfl⟩ := turn?_ask htask ha hprog hq hs
  have hrest : (s₁.goOn t (next a)).AtRest := by
    refine atRest_step (l := .turn t around) hk hr trivial (fun i around' hl hlock => ?_) hs
    cases hl
    obtain ⟨task', next', htask', -, hprog'⟩ := hlock
    obtain rfl : task = task' := Option.some.inj (htask.symm.trans htask')
    rw [hprog] at hprog'
    cases hprog'
    exact absurd rfl hq
  have hallows := hu.allows htask hprog hs₁
  rw [hprog] at hp
  have hnext : Achieves A post ((unitsOf s.pool t).after q a) none s.world.custody (next a) := by
    cases q with
    | lock => exact absurd rfl hq
    | _ => exact hp.2 a hallows
  refine ⟨none, none, _, hk', hrest, Machine.tasks_goOn_self _ (tasks_respond hs₁ htask), ha, ?_⟩
  rw [show (s₁.goOn t (next a)).pool = s₁.pool from rfl, unitsOf_respond hs₁, if_pos rfl, hc]
  exact hnext

/-- The task is answered with the lock, and keeps it. -/
theorem step_held {o : Option Pending} (hk : Kept .loose s o) (hin : s.Inside t) {task : Task}
    {q : Ask} {next : q.Answer → Program Reply} (htask : s.tasks[t]? = some task)
    (ha : task.alive = true) (hprog : task.program = .ask q next) (hq : q ≠ .unlock)
    {around : Surroundings} (hu : s.Undisturbed A t (.turn t around))
    (hp : Achieves A post (unitsOf s.pool t) (some o) s.world.custody task.program)
    (hs : s.turn? t around = some s') : s'.Achieving A post t := by
  rw [hprog] at hp
  have hasked : Terms.loose.Asked o s.world.custody q fun a o c =>
      A.Allows (unitsOf s.pool t) q a →
        Achieves A post ((unitsOf s.pool t).after q a) (some o) c (next a) := by
    cases o with
    | none =>
        cases q with
        | unlock => exact absurd rfl hq
        | _ => exact hp
    | some p => exact hp.2 _ _ (.refl _ _)
  have hlock : q ≠ .lock := by
    rintro rfl
    exact hasked
  obtain ⟨a, s₁, hs₁, rfl⟩ := turn?_ask htask ha hprog hlock hs
  have hallows := hu.allows htask hprog hs₁
  obtain ⟨o', hk', hin', hnext⟩ := hk.turn_asked hin trivial htask hprog hq hasked hs₁
  refine ⟨o', some o', _, hk', ⟨hin', rfl⟩,
    Machine.tasks_goOn_self _ (tasks_respond hs₁ htask), ha, ?_⟩
  rw [show (s₁.goOn t (next a)).pool = s₁.pool from rfl, unitsOf_respond hs₁, if_pos rfl]
  exact hnext hallows

/-- The task gives the lock back. -/
theorem step_unlock {o : Option Pending} (hk : Kept .loose s o) (hin : s.Inside t) {task : Task}
    {next : Unit → Program Reply} (htask : s.tasks[t]? = some task) (ha : task.alive = true)
    (hprog : task.program = .ask .unlock next) {around : Surroundings}
    (hp : Achieves A post (unitsOf s.pool t) (some o) s.world.custody task.program)
    (hs : s.turn? t around = some s') : s'.Achieving A post t := by
  rw [hprog] at hp
  obtain ⟨o', hk'⟩ := hk.turn_inside hin trivial hs
  obtain ⟨a, s₁, hs₁, rfl⟩ := turn?_ask htask ha hprog nofun hs
  cases hs₁
  have hrest := hk.atRest_leave hin (next ())
  obtain ⟨rfl, -⟩ := hk'.rest hrest
  cases o with
  | some p => exact absurd hp.1 nofun
  | none =>
      have htask' := Machine.tasks_goOn_self (s := s.passLock) (next ()) htask
      exact ⟨none, none, _, hk', hrest, htask', ha, hp⟩

/-- **Every step in which nobody disturbs the task** leaves it about to achieve the same. -/
theorem step (h : s.Achieving A post t) (hl : s.Undisturbed A t l) (hs : s.step? l = some s') :
    s'.Achieving A post t := by
  by_cases ht : ∃ around, l = .turn t around
  · obtain ⟨around, rfl⟩ := ht
    obtain ⟨o, m, task, hk, hat, htask, ha, hp⟩ := h
    have hs : s.turn? t around = some s' := hs
    cases hprog : task.program with
    | done r =>
        have hr := (hl.going around rfl).2
        rw [Machine.reply?, htask] at hr
        simp [Task.reply?, hprog] at hr
    | ask q next =>
        cases m with
        | none =>
            obtain ⟨rfl, -⟩ := hk.rest hat
            by_cases hq : q = .lock
            · subst hq
              rw [turn?_lock htask ha hprog] at hs
              exact step_lock hk hat htask ha hprog hp hs
            · exact step_free hk hat htask ha hprog hq hl hp hs
        | some pending =>
            obtain ⟨hin, rfl⟩ := hat
            by_cases hq : q = .unlock
            · subst hq
              exact step_unlock hk hin htask ha hprog hp hs
            · exact step_held hk hin htask ha hprog hq hl hp hs
  · exact h.step_other hl (fun around he => ht ⟨around, he⟩) hs

end Machine.Achieving

/-- **What a program achieves holds when the task is done**, where nobody has disturbed it. -/
theorem Achieves.reach {o : Option Pending} (hk : Kept .loose s o) (hr : s.AtRest) {task : Task}
    (htask : s.tasks[t]? = some task) (ha : task.alive = true)
    (hp : Achieves A post (unitsOf s.pool t) none s.world.custody task.program)
    (h : Reach (Machine.Undisturbed A t) s s') {r : Reply} (hreply : s'.reply? t = some r) :
    s'.AtRest ∧ post (unitsOf s'.pool t) r s'.world.custody := by
  have achieving : s'.Achieving A post t := by
    clear hreply
    induction h with
    | start => exact ⟨o, none, task, hk, hr, htask, ha, hp⟩
    | step _ hl hs ih => exact ih.step hl hs
  obtain ⟨o', m, task', -, hat, htask', -, hp'⟩ := achieving
  rw [Machine.program_of_reply hreply htask'] at hp'
  obtain ⟨rfl, hpost⟩ := hp'
  exact ⟨hat, hpost⟩

end TunnelKeeper.Service
