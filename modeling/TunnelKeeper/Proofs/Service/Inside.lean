import TunnelKeeper.Proofs.Service.Lawful
import TunnelKeeper.Proofs.Service.Tracks

/-!
# Inside — at most one task is in its section

However tasks, workers and the surroundings interleave, at most one task is inside its section
(`Machine.Inside`): the one that has the lock and does not ask for it any more.  `Kept T s o` says
that this task secures the terms from the custody as it is, that all other tasks are apart from the
lock, and that the custody keeps the terms if no task is inside.

* `Kept.addTask`, `Kept.replace`: tasks that are apart from the lock may come and go on.
* `Kept.enter`, `Kept.proceed`, `Kept.leave`: so may the one inside, from its way in to its way out.
* `Kept.queueUp`: one that finds the lock taken stands in the queue.
-/

namespace TunnelKeeper.Service

/-! ### Who is inside -/

namespace Machine

/-- A task asks for the lock. -/
def AtLock (s : Machine) (t : TaskId) : Prop :=
  ∃ task next, s.tasks[t]? = some task ∧ task.alive = true ∧ task.program = .ask .lock next

/-- A task is in its section.  A task that the lock was handed to is not, before it goes on. -/
def Inside (s : Machine) (t : TaskId) : Prop := s.holder = some t ∧ ¬s.AtLock t

/-- The lock is free. -/
def AtRest (s : Machine) : Prop := ∀ t, ¬s.Inside t

theorem Inside.unique {s : Machine} {t t' : TaskId} (h : s.Inside t) (h' : s.Inside t') : t = t' :=
  Option.some.inj (h.1.symm.trans h'.1)

theorem atRest_of_free {s : Machine} (h : s.holder = none) : s.AtRest :=
  fun _ ht => absurd (h.symm.trans ht.1) nofun

theorem atLock_congr {s s' : Machine} {t : TaskId} (h : s'.tasks[t]? = s.tasks[t]?) :
    s'.AtLock t ↔ s.AtLock t := by
  unfold AtLock
  rw [h]

theorem inside_congr {s s' : Machine} {t : TaskId} (h : s'.tasks[t]? = s.tasks[t]?)
    (hh : s'.holder = s.holder) : s'.Inside t ↔ s.Inside t := by
  unfold Inside
  rw [hh, atLock_congr h]

/-- The task inside, if there is one, is where it was. -/
def Stays (s s' : Machine) : Prop :=
  ∀ t, s.Inside t → s'.holder = s.holder ∧ s'.tasks[t]? = s.tasks[t]?

theorem Inside.stays {s s' : Machine} {t : TaskId} (h : s.Inside t) (hs : s.Stays s') :
    s'.Inside t :=
  (inside_congr (hs t h).2 (hs t h).1).2 h

theorem tasks_goOn (s : Machine) (t i : TaskId) (p : Program Reply) :
    (s.goOn t p).tasks[i]? =
      s.tasks[i]?.map fun task => if t = i then { task with program := p } else task :=
  List.getElem?_modify _ t s.tasks i

theorem tasks_goOn_other (s : Machine) {t i : TaskId} (p : Program Reply) (h : t ≠ i) :
    (s.goOn t p).tasks[i]? = s.tasks[i]? :=
  List.getElem?_modify_ne _ s.tasks h

theorem tasks_goOn_self {s : Machine} {t : TaskId} {task : Task} (p : Program Reply)
    (h : s.tasks[t]? = some task) : (s.goOn t p).tasks[t]? = some { task with program := p } := by
  rw [tasks_goOn, h, Option.map_some, if_pos rfl]

end Machine

/-- A step that no section expects is left out: the task with the lock is not dropped, and nobody
apart from the service starts the proxy. -/
def Machine.Orderly (s : Machine) : Label → Prop
  | .drop t => s.holder ≠ some t
  | .occupy work => ∀ config, work ≠ .startProxy config
  | _ => True

/-- An orderly step under the terms: the surroundings answer as assumed, and the service is asked to
end only if that is meant. -/
def Terms.Allows (T : Terms) (s : Machine) (l : Label) : Prop :=
  s.Orderly l ∧ (l = .call .destroy → T.destroys) ∧ ∀ t around, l = .turn t around → T.rely around

/-- **A machine that is reached** by steps that keep a rule. -/
inductive Reach (rule : Machine → Label → Prop) (s : Machine) : Machine → Prop where
  | start : Reach rule s s
  | step {s₁ s₂ : Machine} {l : Label} (h : Reach rule s s₁) (hl : rule s₁ l)
      (hs : s₁.step? l = some s₂) : Reach rule s s₂

theorem Reach.mono {rule rule' : Machine → Label → Prop} {s₀ s : Machine}
    (h : ∀ s l, rule s l → rule' s l) (hs : Reach rule s₀ s) : Reach rule' s₀ s := by
  induction hs with
  | start => exact .start
  | step _ hl hs ih => exact ih.step (h _ _ hl) hs

theorem Reach.trans {rule : Machine → Label → Prop} {s₀ s₁ s : Machine} (h₁ : Reach rule s₀ s₁)
    (h : Reach rule s₁ s) : Reach rule s₀ s := by
  induction h with
  | start => exact h₁
  | step _ hl hs ih => exact ih.step hl hs

/-- A list of steps that keep the rule wherever they are made. -/
theorem Reach.of_run? {rule : Machine → Label → Prop} {s₀ s : Machine} {labels : List Label}
    (hl : ∀ l ∈ labels, ∀ s, rule s l) (hs : s₀.run? labels = some s) : Reach rule s₀ s := by
  induction labels generalizing s₀ with
  | nil =>
      obtain rfl := Option.some.inj hs
      exact .start
  | cons l labels ih =>
      obtain ⟨s₁, hs₁, hs⟩ := Option.bind_eq_some_iff.1 hs
      have h₁ : Reach rule s₀ s₁ := Reach.start.step (hl l List.mem_cons_self s₀) hs₁
      exact h₁.trans (ih (fun l' hl' => hl l' (List.mem_cons_of_mem l hl')) hs)

/-! ### What is kept -/

/-- **Terms that are kept**, with what is pending. -/
structure Kept (T : Terms) (s : Machine) (o : Option Pending) : Prop where
  tracks : Tracks s.pool o
  always : T.always s.world.custody
  rest : s.AtRest → o = none ∧ T.rest s.world.custody
  outside : ∀ t task, s.tasks[t]? = some task → ¬s.Inside t → Lawful T none task.program
  inside : ∀ t, s.Inside t → ∃ task, s.tasks[t]? = some task ∧ task.alive = true ∧
    Lawful T (some (o, s.world.custody)) task.program
  queued : ∀ t ∈ s.queue, s.AtLock t ∧ s.holder ≠ some t
  nodup : s.queue.Nodup
  free : s.holder = none → s.queue = []

variable {T : Terms} {s s' : Machine} {o o' : Option Pending}

namespace Kept

theorem fresh (limits : Limits) (poolSize : Nat) (store : Store.Persisted)
    (ha : T.always (Machine.fresh limits poolSize store).world.custody)
    (hr : T.rest (Machine.fresh limits poolSize store).world.custody) :
    Kept T (Machine.fresh limits poolSize store) none where
  tracks := .empty poolSize
  always := ha
  rest _ := ⟨rfl, hr⟩
  outside _ _ h := by cases h
  inside _ h := by cases h.1
  queued _ h := by cases h
  nodup := .nil
  free _ := rfl

/-- What no task takes part in only lets the pending start drift. -/
theorem frame (h : Kept T s o) (ht : s'.tasks = s.tasks) (hh : s'.holder = s.holder)
    (hq : s'.queue = s.queue) (htr : Tracks s'.pool o')
    (hd : Drifts o s.world.custody o' s'.world.custody) : Kept T s' o' := by
  have hl : ∀ t, s'.AtLock t ↔ s.AtLock t := fun t => Machine.atLock_congr (by rw [ht])
  have hi : ∀ t, s'.Inside t ↔ s.Inside t := fun t => Machine.inside_congr (by rw [ht]) hh
  have idle : s.AtRest → s'.world.custody = s.world.custody ∧ o' = none := by
    intro hr
    obtain ⟨rfl, -⟩ := h.rest hr
    obtain ⟨ho, hc⟩ := hd.none_inv
    exact ⟨hc, ho⟩
  refine ⟨htr, ?_, ?_, ?_, ?_, ?_, hq ▸ h.nodup, fun hn => hq ▸ h.free (hh ▸ hn)⟩
  · by_cases hr : s.AtRest
    · rw [(idle hr).1]
      exact h.always
    · obtain ⟨t, ht⟩ := Classical.not_forall.1 hr
      obtain ⟨task, -, -, hp⟩ := h.inside t (Classical.not_not.1 ht)
      exact hp.always_of_drift h.always hd
  · intro hr
    have hr : s.AtRest := fun t ht => hr t ((hi t).2 ht)
    rw [(idle hr).1]
    exact ⟨(idle hr).2, (h.rest hr).2⟩
  · intro t task htask hn
    exact h.outside t task (ht ▸ htask) fun ht => hn ((hi t).2 ht)
  · intro t hin
    obtain ⟨task, htask, ha, hp⟩ := h.inside t ((hi t).1 hin)
    exact ⟨task, ht ▸ htask, ha, hp.of_drift hd⟩
  · intro t hm
    rw [hl, hh]
    exact h.queued t (hq ▸ hm)

theorem atLock_lt {t : TaskId} (h : s.AtLock t) : t < s.tasks.length := by
  obtain ⟨task, next, htask, -⟩ := h
  exact (List.getElem?_eq_some_iff.1 htask).1

theorem tasks_addTask (s : Machine) (task : Task) {t : TaskId} (ht : t < s.tasks.length) :
    (s.addTask task).2.tasks[t]? = s.tasks[t]? :=
  List.getElem?_append_left ht

theorem holder_lt (h : Kept T s o) {t : TaskId} (ht : s.holder = some t) : t < s.tasks.length := by
  by_cases hl : s.AtLock t
  · exact atLock_lt hl
  · obtain ⟨task, htask, -⟩ := h.inside t ⟨ht, hl⟩
    exact (List.getElem?_eq_some_iff.1 htask).1

/-- Nobody gets in or out when a task begins. -/
theorem inside_addTask (h : Kept T s o) (task : Task) (t : TaskId) :
    (s.addTask task).2.Inside t ↔ s.Inside t := by
  have hc : s.holder = some t → ((s.addTask task).2.Inside t ↔ s.Inside t) :=
    fun ht => Machine.inside_congr (tasks_addTask s task (h.holder_lt ht)) rfl
  exact ⟨fun hi => (hc hi.1).1 hi, fun hi => (hc hi.1).2 hi⟩

/-- A task begins. -/
theorem addTask (h : Kept T s o) {task : Task} (hp : Lawful T none task.program) :
    Kept T (s.addTask task).2 o := by
  have old : ∀ {t}, t < s.tasks.length → (s.addTask task).2.tasks[t]? = s.tasks[t]? :=
    fun ht => tasks_addTask s task ht
  have hi := h.inside_addTask task
  refine ⟨h.tracks, h.always, fun hr => h.rest fun t ht => hr t ((hi t).2 ht), ?_, ?_, ?_,
    h.nodup, h.free⟩
  · intro t new htask hn
    by_cases ht : t < s.tasks.length
    · exact h.outside t new (old ht ▸ htask) fun hin => hn ((hi t).2 hin)
    · have hlast : (s.tasks ++ [task])[t]? = some new := htask
      rw [List.getElem?_append_right (Nat.le_of_not_lt ht)] at hlast
      have hmem : new ∈ [task] := List.mem_of_getElem? hlast
      rw [List.mem_singleton] at hmem
      exact hmem ▸ hp
  · intro t hin
    have hin := (hi t).1 hin
    obtain ⟨new, htask, ha, hp⟩ := h.inside t hin
    exact ⟨new, (old (h.holder_lt hin.1)).trans htask, ha, hp⟩
  · intro t hm
    obtain ⟨hl, hh⟩ := h.queued t hm
    exact ⟨(Machine.atLock_congr (old (atLock_lt hl))).2 hl, hh⟩

/-- A task that does not have the lock changes its program, and does not wait for the lock then. -/
theorem replace (h : Kept T s o) {t : TaskId} (hne : s.holder ≠ some t)
    (ht : ∀ i, t ≠ i → s'.tasks[i]? = s.tasks[i]?) (hh : s'.holder = s.holder)
    (hq : s'.queue.Sublist s.queue) (hm : t ∉ s'.queue) (htr : s'.pool = s.pool)
    (hc : s'.world.custody = s.world.custody)
    (hp : ∀ task, s'.tasks[t]? = some task → Lawful T none task.program) : Kept T s' o := by
  have ne : ∀ {i}, s.holder = some i → t ≠ i := by
    rintro i hi rfl
    exact hne hi
  have hi : ∀ {i}, s.holder = some i → (s'.Inside i ↔ s.Inside i) :=
    fun hi => Machine.inside_congr (ht _ (ne hi)) hh
  refine ⟨htr ▸ h.tracks, hc ▸ h.always, ?_, ?_, ?_, ?_, h.nodup.sublist hq, fun hn => ?_⟩
  · intro hr
    rw [hc]
    exact h.rest fun i hin => hr i ((hi hin.1).2 hin)
  · intro i task htask hn
    by_cases he : t = i
    · subst he
      exact hp task htask
    · refine h.outside i task (ht i he ▸ htask) fun hin => hn ?_
      exact (hi hin.1).2 hin
  · intro i hin
    have hin' := (hi (hh ▸ hin.1)).1 hin
    obtain ⟨task, htask, ha, hp⟩ := h.inside i hin'
    rw [hc]
    exact ⟨task, (ht i (ne hin'.1)).trans htask, ha, hp⟩
  · intro i hi
    obtain ⟨hli, hhi⟩ := h.queued i (hq.mem hi)
    have he : t ≠ i := by
      rintro rfl
      exact hm hi
    exact ⟨(Machine.atLock_congr (ht i he)).2 hli, hh ▸ hhi⟩
  · rw [h.free (hh ▸ hn)] at hq
    exact List.sublist_nil.1 hq

/-- A task apart from the lock, and from the queue for it, goes on. -/
theorem goesOn (h : Kept T s o) {t : TaskId} (hin : ¬s.Inside t) (hl : ¬s.AtLock t)
    (ht : ∀ i, t ≠ i → s'.tasks[i]? = s.tasks[i]?) (hh : s'.holder = s.holder)
    (hq : s'.queue = s.queue) (htr : s'.pool = s.pool) (hc : s'.world.custody = s.world.custody)
    (hp : ∀ task, s'.tasks[t]? = some task → Lawful T none task.program) : Kept T s' o :=
  h.replace (fun hi => hin ⟨hi, hl⟩) ht hh (hq ▸ .refl _)
    (fun hm => hl (h.queued t (hq ▸ hm)).1) htr hc hp

/-- A task with the lock that keeps to the terms is inside. -/
theorem inside_of_lawful {t : TaskId} {task : Task} {m : Option Pending × Custody}
    (hh : s.holder = some t) (htask : s.tasks[t]? = some task)
    (hp : Lawful T (some m) task.program) : s.Inside t := by
  refine ⟨hh, ?_⟩
  rintro ⟨task', next, htask', -, hlock⟩
  obtain rfl : task = task' := Option.some.inj (htask.symm.trans htask')
  rw [hlock] at hp
  exact Lawful.not_lock hp

/-- The task inside goes on, and stays inside. -/
theorem proceed (h : Kept T s o) {t : TaskId} (hin : s.Inside t)
    (ht : ∀ i, t ≠ i → s'.tasks[i]? = s.tasks[i]?) (hh : s'.holder = s.holder)
    (hq : s'.queue = s.queue) (htr : Tracks s'.pool o') (hc : T.always s'.world.custody)
    {task : Task} (htask : s'.tasks[t]? = some task) (ha : task.alive = true)
    (hp : Lawful T (some (o', s'.world.custody)) task.program) : Kept T s' o' := by
  have hin' : s'.Inside t := inside_of_lawful (hh.trans hin.1) htask hp
  refine ⟨htr, hc, fun hr => absurd hin' (hr t), ?_, ?_, ?_, hq ▸ h.nodup,
    fun hn => hq ▸ h.free (hh ▸ hn)⟩
  · intro i other hother hn
    by_cases he : t = i
    · subst he
      exact absurd hin' hn
    · exact h.outside i other (ht i he ▸ hother) fun hi => he (hin.unique hi)
  · intro i hi
    obtain rfl := hin'.unique hi
    exact ⟨task, htask, ha, hp⟩
  · intro i hm
    obtain ⟨hli, hhi⟩ := h.queued i (hq ▸ hm)
    have he : t ≠ i := by
      rintro rfl
      exact hin.2 hli
    exact ⟨(Machine.atLock_congr (ht i he)).2 hli, hh ▸ hhi⟩

/-- A task gets the lock, and is inside. -/
theorem enter (h : Kept T s o) {t : TaskId} {task : Task} {next : Unit → Program Reply}
    (htask : s.tasks[t]? = some task) (ha : task.alive = true)
    (hp : task.program = .ask .lock next) (hh : s.holder = none ∨ s.holder = some t) :
    Kept T { s.goOn t (next ()) with holder := some t } o := by
  have hl : s.AtLock t := ⟨task, next, htask, ha, hp⟩
  have hr : s.AtRest := by
    intro i hi
    rcases hh with hh | hh
    · exact absurd (hh.symm.trans hi.1) (by simp)
    · obtain rfl := Option.some.inj (hh.symm.trans hi.1)
      exact hi.2 hl
  -- Nobody was inside, so the terms of rest hold, and its program may rely on them.
  obtain ⟨rfl, hrest⟩ := h.rest hr
  have hlaw : Lawful T (some (none, s.world.custody)) (next ()) := by
    have hlaw := h.outside t task htask (hr t)
    rw [hp] at hlaw
    exact hlaw _ h.always hrest
  have hnew := Machine.tasks_goOn_self (next ()) htask
  have hin : ({ s.goOn t (next ()) with holder := some t } : Machine).Inside t :=
    inside_of_lawful rfl hnew hlaw
  refine ⟨h.tracks, h.always, fun hr => absurd hin (hr t), ?_, ?_, ?_, h.nodup, nofun⟩
  · intro i other hother hn
    by_cases he : t = i
    · subst he
      exact absurd hin hn
    · exact h.outside i other ((Machine.tasks_goOn_other s _ he) ▸ hother) (hr i)
  · intro i hi
    obtain rfl : t = i := Option.some.inj hi.1
    exact ⟨_, hnew, ha, hlaw⟩
  · intro i hm
    obtain ⟨hli, hhi⟩ := h.queued i hm
    have he : t ≠ i := by
      rintro rfl
      rcases hh with hh | hh
      · rw [show ({ s.goOn t (next ()) with holder := some t } : Machine).queue = s.queue from rfl,
          h.free hh] at hm
        cases hm
      · exact hhi hh
    refine ⟨(Machine.atLock_congr (Machine.tasks_goOn_other s _ he)).2 hli, fun hi => ?_⟩
    exact he (Option.some.inj hi)

/-- Tasks that wait for the lock ask for it, also after the task inside has gone on. -/
theorem atLock_goOn (h : Kept T s o) {t : TaskId} (hin : s.Inside t) (p : Program Reply)
    {i : TaskId} (hm : i ∈ s.queue) : t ≠ i ∧ (s.passLock.goOn t p).AtLock i := by
  obtain ⟨hli, -⟩ := h.queued i hm
  have he : t ≠ i := by
    rintro rfl
    exact hin.2 hli
  exact ⟨he, (Machine.atLock_congr (Machine.tasks_goOn_other s.passLock p he)).2 hli⟩

/-- Nobody is inside when the lock was given back. -/
theorem atRest_leave (h : Kept T s o) {t : TaskId} (hin : s.Inside t) (p : Program Reply) :
    (s.passLock.goOn t p).AtRest := fun _ hi =>
  hi.2 (h.atLock_goOn hin p (List.mem_of_head? hi.1)).2

/-- The task inside gives the lock back. -/
theorem leave (h : Kept T s o) {t : TaskId} (hin : s.Inside t) (ho : o = none)
    (hr : T.rest s.world.custody) {p : Program Reply} (hp : Lawful T none p) :
    Kept T (s.passLock.goOn t p) none := by
  subst ho
  have rest := h.atRest_leave hin p
  refine ⟨h.tracks, h.always, fun _ => ⟨rfl, hr⟩, ?_, fun i hi => absurd hi (rest i), ?_, ?_, ?_⟩
  · intro i task htask hn
    by_cases he : t = i
    · subst he
      rw [Machine.tasks_goOn, Option.map_eq_some_iff] at htask
      obtain ⟨task', -, rfl⟩ := htask
      rwa [if_pos rfl]
    · rw [Machine.tasks_goOn_other _ p he] at htask
      exact h.outside i task htask fun hi => he (hin.unique hi)
  · intro i hm
    have hm : i ∈ s.queue.tail := hm
    refine ⟨(h.atLock_goOn hin p (List.mem_of_mem_tail hm)).2, fun hi => ?_⟩
    have hi : s.queue.head? = some i := hi
    -- The lock goes to the head of the queue, which is not in the rest of it.
    have hn := h.nodup
    cases hq : s.queue with
    | nil => rw [hq] at hm; cases hm
    | cons j queue =>
        rw [hq] at hm hi hn
        obtain rfl := Option.some.inj hi
        exact (List.nodup_cons.1 hn).1 hm
  · exact h.nodup.sublist (List.tail_sublist _)
  · intro hn
    have hn : s.queue.head? = none := hn
    show s.queue.tail = []
    rw [List.head?_eq_none_iff.1 hn]
    rfl

/-- A task waits for the lock. -/
theorem queueUp (h : Kept T s o) {t : TaskId} (hl : s.AtLock t) (hh : s.holder ≠ some t)
    (hm : t ∉ s.queue) (hn : s.holder ≠ none) : Kept T { s with queue := s.queue ++ [t] } o where
  tracks := h.tracks
  always := h.always
  rest := h.rest
  outside := h.outside
  inside := h.inside
  queued i hi := by
    rcases List.mem_append.1 hi with hi | hi
    · exact h.queued i hi
    · rw [List.mem_singleton.1 hi]
      exact ⟨hl, hh⟩
  nodup := by
    rw [List.nodup_append]
    refine ⟨h.nodup, by simp, fun i hi j hj => ?_⟩
    rw [List.mem_singleton.1 hj]
    rintro rfl
    exact hm hi
  free hf := absurd hf hn

end Kept

end TunnelKeeper.Service
