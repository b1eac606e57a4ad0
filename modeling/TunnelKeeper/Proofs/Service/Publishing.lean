import TunnelKeeper.Proofs.Service.Disclosing
import TunnelKeeper.Proofs.Service.Queueing

/-!
# Publishing — the active tunnel that everybody sees

Only the task with the lock changes the two copies of the active tunnel, one right after the other.
So they are the same except between those two steps, also where a task is dropped while it waits
(`Publishing`).

* `Published.step`: every step keeps the two copies the same, apart from those two steps.
* `Reach.published`: so does every run, with any steps.
-/

namespace TunnelKeeper.Service

/-! ### Machines -/

variable {s s' : Machine} {st st' : Publishing} {t i : TaskId}

/-- How far the two copies of the active tunnel agree. -/
def Publishing.Agrees (w : World) : Publishing → Prop
  | .ahead active => w.visibleActive = active
  | _ => w.visibleActive = w.session.active

theorem Publishing.Agrees.frame {w w' : World} (h : st.Agrees w)
    (hv : w'.visibleActive = w.visibleActive) (ha : w'.session.active = w.session.active) :
    st.Agrees w' := by
  cases st with
  | ahead active => exact hv.trans h
  | apart | level => exact hv.trans (Eq.trans h ha.symm)

/-- **Tasks are where their programs say**: the one inside where `st` tells, the others apart. -/
structure Published (s : Machine) (st : Publishing) : Prop where
  agrees : st.Agrees s.world
  apart : ∀ t task, s.tasks[t]? = some task → ¬s.Inside t → Publishes .apart .apart task.program
  inside : ∀ t, s.Inside t → st ≠ .apart ∧
    ∃ task, s.tasks[t]? = some task ∧ Publishes .apart st task.program
  rest : s.AtRest → st = .apart

/-- A program that has the lock does not ask for it. -/
theorem Publishes.not_atLock {task : Task} (htask : s.tasks[t]? = some task)
    (hp : Publishes .apart st task.program) (hst : st ≠ .apart) : ¬s.AtLock t := by
  rintro ⟨task', next, htask', -, hlock⟩
  obtain rfl := Option.some.inj (htask.symm.trans htask')
  rw [hlock] at hp
  obtain ⟨st', hq, -⟩ := hp
  cases hq with
  | lock => exact hst rfl
  | mild _ hm => cases hm

/-- What is mild leaves both copies alone. -/
theorem active_respond {around : Surroundings} {q : Ask} {a : q.Answer} (hq : q.isMild = true)
    (hs : s.respond t around q = some (a, s')) :
    s'.world.visibleActive = s.world.visibleActive ∧
      s'.world.session.active = s.world.session.active := by
  cases q with
  | lock | unlock | setActive | publishActive => cases hq
  | join id limit =>
      obtain ⟨rfl, -⟩ := respond_join.1 hs
      exact ⟨rfl, rfl⟩
  | call k =>
      cases hs
      have hc := s.world.custody_afterCall k (s.world.answer around k)
      exact ⟨congrArg Custody.visibleActive hc, congrArg (·.session.active) hc⟩
  | _ =>
      cases hs
      exact ⟨rfl, rfl⟩

/-- A task that ends early leaves both copies alone. -/
theorem active_dropTask (s : Machine) (t : TaskId) :
    (s.dropTask t).world.visibleActive = s.world.visibleActive ∧
      (s.dropTask t).world.session.active = s.world.session.active := by
  unfold Machine.dropTask
  split
  · exact ⟨rfl, rfl⟩
  · dsimp only
    split <;> split <;> exact ⟨rfl, rfl⟩

/-- **What the task inside takes no part in**: it stays where it is, and both copies stay the same.
-/
structure Aside (s s' : Machine) (st' : Publishing) : Prop where
  published : Published s' st'
  stays : s.Stays s'
  visible : s'.world.visibleActive = s.world.visibleActive
  active : s'.world.session.active = s.world.session.active

theorem Aside.trans {s₁ : Machine} (h : Aside s s₁ st) (h' : Aside s₁ s' st') : Aside s s' st' where
  published := h'.published
  stays i hi := by
    have hi₁ := h'.stays i (hi.stays h.stays)
    exact ⟨hi₁.1.trans (h.stays i hi).1, hi₁.2.trans (h.stays i hi).2⟩
  visible := h'.visible.trans h.visible
  active := h'.active.trans h.active

namespace Published

theorem fresh (limits : Limits) (poolSize : Nat) (store : Store.Persisted) :
    Published (Machine.fresh limits poolSize store) .apart :=
  ⟨rfl, nofun, fun _ h => absurd h.1 nofun, fun _ => rfl⟩

/-- **The two copies are the same whenever the lock is free.** -/
theorem same (h : Published s st) (hr : s.AtRest) :
    s.world.visibleActive = s.world.session.active := by
  have ha := h.agrees
  rw [h.rest hr] at ha
  exact ha

/-- The lock is free, and every task is apart from it. -/
theorem of_rest (hr : s.AtRest) (hv : s.world.visibleActive = s.world.session.active)
    (hp : ∀ (t : TaskId) (task : Task), s.tasks[t]? = some task →
      Publishes .apart .apart task.program) : Published s .apart :=
  ⟨hv, fun t task htask _ => hp t task htask, fun t hin => absurd hin (hr t), fun _ => rfl⟩

/-- What concerns neither tasks nor the active tunnel. -/
theorem frame (h : Published s st) (ht : s'.tasks = s.tasks) (hh : s'.holder = s.holder)
    (hv : s'.world.visibleActive = s.world.visibleActive)
    (ha : s'.world.session.active = s.world.session.active) : Aside s s' st := by
  have hi : ∀ t, s'.Inside t ↔ s.Inside t := fun t => Machine.inside_congr (by rw [ht]) hh
  refine ⟨⟨h.agrees.frame hv ha, fun t task htask hn => ?_, fun t hin => ?_, fun hr => ?_⟩,
    fun _ _ => ⟨hh, by rw [ht]⟩, hv, ha⟩
  · exact h.apart t task (ht ▸ htask) fun hin => hn ((hi t).2 hin)
  · obtain ⟨hst, task, htask, hp⟩ := h.inside t ((hi t).1 hin)
    exact ⟨hst, task, ht ▸ htask, hp⟩
  · exact h.rest fun t hin => hr t ((hi t).2 hin)

theorem holder_lt (h : Published s st) (hh : s.holder = some t) : t < s.tasks.length := by
  by_cases hl : s.AtLock t
  · exact Kept.atLock_lt hl
  · obtain ⟨-, task, htask, -⟩ := h.inside t ⟨hh, hl⟩
    exact (List.getElem?_eq_some_iff.1 htask).1

/-- A task begins. -/
theorem addTask (h : Published s st) {task : Task} (hp : Publishes .apart .apart task.program) :
    Aside s (s.addTask task).2 st := by
  have old : ∀ {t}, s.holder = some t → (s.addTask task).2.tasks[t]? = s.tasks[t]? :=
    fun ht => Kept.tasks_addTask s task (h.holder_lt ht)
  have hi : ∀ {t}, s.holder = some t → ((s.addTask task).2.Inside t ↔ s.Inside t) :=
    fun ht => Machine.inside_congr (old ht) rfl
  refine ⟨⟨h.agrees, fun t new htask hn => ?_, fun t hin => ?_, fun hr => ?_⟩,
    fun t hin => ⟨rfl, old hin.1⟩, rfl, rfl⟩
  · by_cases ht : t < s.tasks.length
    · rw [Kept.tasks_addTask s task ht] at htask
      exact h.apart t new htask fun hin => hn ((hi hin.1).2 hin)
    · have hlast : (s.tasks ++ [task])[t]? = some new := htask
      rw [List.getElem?_append_right (Nat.le_of_not_lt ht)] at hlast
      obtain rfl := List.mem_singleton.1 (List.mem_of_getElem? hlast)
      exact hp
  · obtain ⟨hst, new, htask, hp⟩ := h.inside t ((hi hin.1).1 hin)
    exact ⟨hst, new, (old hin.1).trans htask, hp⟩
  · exact h.rest fun t hin => hr t ((hi hin.1).2 hin)

/-- A task that does not have the lock goes on. -/
theorem goesOn (h : Published s st) (hne : s.holder ≠ some t)
    (ht : ∀ i, t ≠ i → s'.tasks[i]? = s.tasks[i]?) (hh : s'.holder = s.holder)
    (hv : s'.world.visibleActive = s.world.visibleActive)
    (ha : s'.world.session.active = s.world.session.active)
    (hp : ∀ task, s'.tasks[t]? = some task → Publishes .apart .apart task.program) :
    Aside s s' st := by
  have ne : ∀ {i}, s.holder = some i → t ≠ i := by
    rintro i hi rfl
    exact hne hi
  have hi : ∀ {i}, s.holder = some i → (s'.Inside i ↔ s.Inside i) :=
    fun hi => Machine.inside_congr (ht _ (ne hi)) hh
  refine ⟨⟨h.agrees.frame hv ha, fun i task htask hn => ?_, fun i hin => ?_, fun hr => ?_⟩,
    fun i hin => ⟨hh, ht i (ne hin.1)⟩, hv, ha⟩
  · by_cases he : t = i
    · subst he
      exact hp task htask
    · exact h.apart i task (ht i he ▸ htask) fun hin => hn ((hi hin.1).2 hin)
  · have hin := (hi (hh ▸ hin.1)).1 hin
    obtain ⟨hst, task, htask, hp⟩ := h.inside i hin
    exact ⟨hst, task, (ht i (ne hin.1)).trans htask, hp⟩
  · exact h.rest fun i hin => hr i ((hi hin.1).2 hin)

/-- The task inside goes on, and stays inside. -/
theorem proceed (h : Published s st) (hin : s.Inside t)
    (ht : ∀ i, t ≠ i → s'.tasks[i]? = s.tasks[i]?) (hh : s'.holder = s.holder) (hst : st' ≠ .apart)
    (ha : st'.Agrees s'.world) {task : Task} (htask : s'.tasks[t]? = some task)
    (hp : Publishes .apart st' task.program) : Published s' st' ∧ s'.Inside t := by
  have hin' : s'.Inside t := ⟨hh.trans hin.1, hp.not_atLock htask hst⟩
  refine ⟨⟨ha, fun i other hother hn => ?_, fun i hi => ?_, fun hr => absurd hin' (hr t)⟩, hin'⟩
  · have he : t ≠ i := by
      rintro rfl
      exact hn hin'
    exact h.apart i other (ht i he ▸ hother) fun hi => he (hin.unique hi)
  · obtain rfl := hin'.unique hi
    exact ⟨hst, task, htask, hp⟩

/-- A task gets the lock. -/
theorem enter (h : Published s st) {task : Task} {next : Unit → Program Reply}
    (htask : s.tasks[t]? = some task) (hp : task.program = .ask .lock next) (hr : s.AtRest) :
    Published { s.goOn t (next ()) with holder := some t } .level := by
  have hnext : Publishes .apart .level (next ()) := by
    have hlock := h.apart t task htask (hr t)
    rw [hp] at hlock
    obtain ⟨st', hq, hnext⟩ := hlock
    cases hq with
    | lock => exact hnext ()
    | mild _ hm => cases hm
  have hnew := Machine.tasks_goOn_self (next ()) htask
  have hin : ({ s.goOn t (next ()) with holder := some t } : Machine).Inside t :=
    ⟨rfl, Publishes.not_atLock hnew hnext (by nofun)⟩
  refine ⟨h.same hr, fun i other hother hn => ?_, fun i hi => ?_, fun hr => absurd hin (hr t)⟩
  · have he : t ≠ i := by
      rintro rfl
      exact hn hin
    exact h.apart i other (Machine.tasks_goOn_other s _ he ▸ hother) (hr i)
  · obtain rfl : t = i := Option.some.inj hi.1
    exact ⟨nofun, _, hnew, hnext⟩

/-- A mild question is answered. -/
theorem respond (h : Published s st) {around : Surroundings} {q : Ask} {a : q.Answer}
    (hq : q.isMild = true) (hs : s.respond t around q = some (a, s')) : Aside s s' st := by
  by_cases hr : q = .spawnReactor
  · subst hr
    cases hs
    exact h.addTask rfl
  · have hu : q ≠ .unlock := by
      rintro rfl
      cases hq
    obtain ⟨hv, ha⟩ := active_respond hq hs
    exact h.frame (tasks_respond_eq hr hs) (holder_respond hu hs).1 hv ha

/-- **A turn of the task inside**: it stays inside, unless it gives the lock back. -/
theorem turn_inside (h : Published s st) (hq : s.Queues) (hin : s.Inside t) {around : Surroundings}
    {task : Task} {q : Ask} {next : q.Answer → Program Reply} (htask : s.tasks[t]? = some task)
    (hp : task.program = .ask q next) {a : q.Answer} (hs : s.respond t around q = some (a, s')) :
    ∃ st', Published (s'.goOn t (next a)) st' ∧
      (q ≠ .unlock → (s'.goOn t (next a)).Inside t) := by
  obtain ⟨hst, task', htask', hpub⟩ := h.inside t hin
  obtain rfl := Option.some.inj (htask.symm.trans htask')
  rw [hp] at hpub
  obtain ⟨st', hasks, hnext⟩ := hpub
  have other : ∀ {s₁ : Machine} i, t ≠ i → (s₁.goOn t (next a)).tasks[i]? = s₁.tasks[i]? :=
    fun i hi => Machine.tasks_goOn_other _ _ hi
  have hnew := Machine.tasks_goOn_self (next a) (tasks_respond hs htask)
  cases hasks with
  | lock => exact absurd rfl hst
  | unlock =>
      cases hs
      have hm : ∀ i ∈ s.queue, t ≠ i := fun i hi he => hin.2 (he ▸ hq.asks i hi)
      refine ⟨_, of_rest (hq.atRest_passed rfl fun i hi => other i (hm i hi)) h.agrees ?_,
        fun hu => absurd rfl hu⟩
      intro i new hi
      by_cases he : t = i
      · subst he
        obtain rfl := Option.some.inj (hnew.symm.trans hi)
        exact hnext ()
      · rw [other i he] at hi
        exact h.apart i new hi fun hin' => he (hin.unique hin')
  | publishes active =>
      cases hs
      exact ⟨.ahead active, And.imp_right (fun hin _ => hin)
        (h.proceed hin (fun i hi => other i hi) rfl nofun rfl hnew (hnext ()))⟩
  | follows active =>
      cases hs
      exact ⟨.level, And.imp_right (fun hin _ => hin)
        (h.proceed hin (fun i hi => other i hi) rfl nofun h.agrees hnew (hnext ()))⟩
  | mild _ hm =>
      have h₁ := h.respond hm hs
      exact ⟨st, And.imp_right (fun hin _ => hin) (h₁.published.proceed (hin.stays h₁.stays)
        (fun i hi => other i hi) rfl hst h₁.published.agrees hnew (hnext a))⟩

/-- **A turn of a task apart from the lock** changes neither copy. -/
theorem turn_apart (h : Published s st) (hin : ¬s.Inside t) {around : Surroundings}
    (hs : s.turn? t around = some s') : ∃ st', Aside s s' st' := by
  obtain ⟨task, htask, ha, hturn⟩ := turn?_cases hs
  have hpub := h.apart t task htask hin
  have free : ∀ {r}, task.program = .done r → s.holder ≠ some t := fun hp hh =>
    hin ⟨hh, Machine.not_atLock_of_done htask hp⟩
  cases hturn with
  | @reads _ _ _ e _ hp =>
      refine ⟨st, h.goesOn (free hp) (fun i hi => Machine.tasks_goOn_other s _ hi) rfl rfl rfl ?_⟩
      intro new hnew
      obtain rfl := Option.some.inj ((Machine.tasks_goOn_self _ htask).symm.trans hnew)
      exact (publishes_react s.limits e).bind fun _ => rfl
  | ends hp =>
      refine ⟨st, h.goesOn (free hp) (fun i hi => List.getElem?_set_ne hi) rfl rfl rfl ?_⟩
      intro new hnew
      obtain ⟨hi, hset⟩ := List.getElem?_eq_some_iff.1 hnew
      rw [← hset]
      simpa [Machine.setTask] using hpub
  | enters hp hh =>
      have hr := atRest_of_entered htask ha hp hh
      exact ⟨.level, h.enter htask hp hr, fun i hi => absurd hi (hr i), rfl, rfl⟩
  | queues => exact ⟨st, h.frame rfl rfl rfl rfl⟩
  | @answered q next a s₁ hp hq hs₁ =>
      have hl := Machine.not_atLock_of_ask htask hp hq
      rw [hp] at hpub
      obtain ⟨st', hasks, hnext⟩ := hpub
      cases hasks with
      | lock => exact absurd rfl hq
      | mild _ hm =>
          have hu : q ≠ .unlock := by
            rintro rfl
            cases hm
          have h₁ := h.respond hm hs₁
          have hne : s₁.holder ≠ some t := fun hi =>
            hin ⟨(holder_respond hu hs₁).1.symm.trans hi, hl⟩
          refine ⟨st, h₁.trans (h₁.published.goesOn hne
            (fun i hi => Machine.tasks_goOn_other s₁ _ hi) rfl rfl rfl fun new hi => ?_)⟩
          have hnew := Machine.tasks_goOn_self (next a) (tasks_respond hs₁ htask)
          obtain rfl := Option.some.inj (hnew.symm.trans hi)
          exact hnext a

/-- A task that waits is dropped: both copies are the same then, if it has the lock. -/
theorem dropTask (h : Published s st) (hq : s.Queues) {task : Task}
    (htask : s.tasks[t]? = some task) (hw : task.isSuspended = true) :
    (∃ st', Published (s.dropTask t) st') ∧ (¬s.Inside t → ∃ st', Aside s (s.dropTask t) st') := by
  have hset := tasks_dropTask htask
  obtain ⟨hv, ha⟩ := active_dropTask s t
  have dead : ∀ new, (s.dropTask t).tasks[t]? = some new →
      Publishes .apart .apart new.program := by
    intro new hnew
    rw [hset] at hnew
    obtain ⟨hi, he⟩ := List.getElem?_eq_some_iff.1 hnew
    rw [← he, List.getElem_set_self]
    rfl
  have other : ∀ i, t ≠ i → (s.dropTask t).tasks[i]? = s.tasks[i]? := by
    intro i hi
    rw [hset]
    exact List.getElem?_set_ne hi
  by_cases hh : s.holder = some t
  · have hsame : s.world.visibleActive = s.world.session.active := by
      by_cases hin : s.Inside t
      · -- What it waits for is nothing that comes between the two copies.
        obtain ⟨-, task', htask', hp⟩ := h.inside t hin
        obtain rfl := Option.some.inj (htask.symm.trans htask')
        have hagrees := h.agrees
        cases st with
        | apart | level => exact hagrees
        | ahead active =>
            unfold Task.isSuspended at hw
            cases hprog : task.program with
            | done r =>
                rw [hprog] at hw
                cases hw
            | ask q next =>
                rw [hprog] at hp hw
                obtain ⟨st', hasks, -⟩ := hp
                cases hasks with
                | follows => cases hw
                | mild hn => exact absurd rfl (hn active)
      · exact h.same fun i hi => hin (Option.some.inj (hh.symm.trans hi.1) ▸ hi)
    have hr := hq.atRest_dropTask htask hh
    have hpub : Published (s.dropTask t) .apart := by
      refine of_rest hr (hv.trans (hsame.trans ha.symm)) fun i new hnew => ?_
      by_cases he : t = i
      · exact dead new (he ▸ hnew)
      · exact h.apart i new (other i he ▸ hnew) fun hi =>
          he (Option.some.inj (hh.symm.trans hi.1))
    refine ⟨⟨_, hpub⟩, fun hin => ⟨_, hpub, fun i hi => ?_, hv, ha⟩⟩
    exact absurd (Option.some.inj (hh.symm.trans hi.1) ▸ hi) hin
  · have hholder : (s.dropTask t).holder = s.holder := by
      rw [(lock_dropTask htask).1, if_neg hh]
    have haside : Aside s (s.dropTask t) st := h.goesOn hh other hholder hv ha dead
    exact ⟨⟨st, haside.published⟩, fun _ => ⟨st, haside⟩⟩

/-- **Whatever is neither a turn nor the end of the task inside** changes neither copy. -/
theorem step_apart (h : Published s st) (hq : s.Queues) {l : Label}
    (hn : ∀ t, s.Inside t → (∀ around, l ≠ .turn t around) ∧ l ≠ .drop t)
    (hs : s.step? l = some s') : ∃ st', Aside s s' st' := by
  cases l with
  | call op =>
      obtain rfl := Option.some.inj hs
      exact ⟨st, h.addTask (op.publishes s.limits)⟩
  | turn t around => exact h.turn_apart (fun hin => (hn t hin).1 around rfl) hs
  | ask id =>
      obtain ⟨pool, -, rfl⟩ := step?_ask hs
      exact ⟨st, h.frame rfl rfl rfl rfl⟩
  | begin id =>
      obtain ⟨pool, u, -, -, rfl⟩ := begin?_eq_some.1 hs
      exact ⟨st, h.frame rfl rfl rfl rfl⟩
  | finish | panic =>
      obtain ⟨u, -, -, rfl⟩ := end?_eq_some.1 hs
      exact ⟨st, h.frame rfl rfl rfl rfl⟩
  | deliver registration e =>
      obtain rfl := step?_deliver hs
      exact ⟨st, h.frame rfl rfl rfl rfl⟩
  | drop t =>
      obtain ⟨task, htask, hw, rfl⟩ := step?_drop hs
      exact (h.dropTask hq htask hw).2 fun hin => (hn t hin).2 rfl
  | silence | occupy | vacate | closePool | elapse =>
      obtain rfl := Option.some.inj hs
      exact ⟨st, h.frame rfl rfl rfl rfl⟩

/-- **Every step** keeps the two copies where programs say. -/
theorem step (h : Published s st) (hq : s.Queues) {l : Label} (hs : s.step? l = some s') :
    ∃ st', Published s' st' := by
  by_cases hn : ∀ t, s.Inside t → (∀ around, l ≠ .turn t around) ∧ l ≠ .drop t
  · obtain ⟨st', haside⟩ := h.step_apart hq hn hs
    exact ⟨st', haside.published⟩
  · obtain ⟨t, hn⟩ := Classical.not_forall.1 hn
    obtain ⟨hin, hn⟩ := Classical.not_imp.1 hn
    by_cases hd : l = .drop t
    · subst hd
      obtain ⟨task, htask, hw, rfl⟩ := step?_drop hs
      exact (h.dropTask hq htask hw).1
    · obtain ⟨around, hl⟩ := Classical.not_forall.1 fun hl => hn ⟨hl, hd⟩
      obtain rfl := Classical.not_not.1 hl
      obtain ⟨task, htask, ha⟩ := turn?_alive hs
      cases hp : task.program with
      | done r =>
          obtain ⟨hst, task', htask', hpub⟩ := h.inside t hin
          obtain rfl := Option.some.inj (htask.symm.trans htask')
          rw [hp] at hpub
          exact absurd hpub hst
      | ask q next =>
          have hq' : q ≠ .lock := by
            rintro rfl
            exact hin.2 ⟨task, next, htask, ha, hp⟩
          obtain ⟨a, s₁, hs₁, rfl⟩ := turn?_ask htask ha hp hq' hs
          obtain ⟨st', hpub, -⟩ := h.turn_inside hq hin htask hp hs₁
          exact ⟨st', hpub⟩

end Published

/-- **Every run** keeps the two copies where programs say, whatever its steps. -/
theorem Reach.published {rule : Machine → Label → Prop} {s₀ : Machine} (hq : s₀.Queues)
    (h₀ : Published s₀ .apart) (h : Reach rule s₀ s) : ∃ st, Published s st := by
  induction h with
  | start => exact ⟨_, h₀⟩
  | step h _ hs ih =>
      obtain ⟨st, hpub⟩ := ih
      exact hpub.step (h.queues hq) hs

end TunnelKeeper.Service
