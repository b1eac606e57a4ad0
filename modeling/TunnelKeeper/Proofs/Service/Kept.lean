import TunnelKeeper.Proofs.Service.Answers

/-!
# Kept terms — a whole run, step by step

Whatever step a machine takes, what was kept before it is kept after it.

* `Kept.step_apart`: whatever is not a turn of the task inside only lets the pending start drift.
* `Kept.turn_inside`: a turn of the task inside does what its program demands.
* `Reach.kept`: so terms that every section keeps are kept by every run.
-/

namespace TunnelKeeper.Service

variable {T : Terms} {s s' : Machine} {o o' : Option Pending}

namespace Kept

/-- **The task inside is answered**, and stays inside.  What its question demands besides, it gets
as well. -/
theorem turn_asked (h : Kept T s o) {t : TaskId} {around : Surroundings} (hin : s.Inside t)
    (hr : T.rely around) {task : Task} {q : Ask} {next : q.Answer → Program Reply}
    (htask : s.tasks[t]? = some task) (hprog : task.program = .ask q next) (hq : q ≠ .unlock)
    {K : q.Answer → Option Pending → Custody → Prop} (hK : T.Asked o s.world.custody q K)
    {a : q.Answer} (hs : s.respond t around q = some (a, s')) :
    ∃ o', Kept T (s'.goOn t (next a)) o' ∧ (s'.goOn t (next a)).Inside t ∧
      K a o' s'.world.custody := by
  obtain ⟨task', htask', ha, hp⟩ := h.inside t hin
  obtain rfl : task = task' := Option.some.inj (htask.symm.trans htask')
  rw [hprog] at hp
  have hasked := (hp.asked hq).and hK
  by_cases hreactor : q = .spawnReactor
  · subst hreactor
    cases hs
    let reactor : Task := ⟨Task.idle, some (s.world.channels.length - 1), true⟩
    have hk : Kept T (s.addTask reactor).2 o := h.addTask rfl
    have hold : (s.addTask reactor).2.tasks[t]? = s.tasks[t]? :=
      List.getElem?_append_left (List.getElem?_eq_some_iff.1 htask).1
    have hnew := Machine.tasks_goOn_self (next ()) (hold.trans htask)
    exact ⟨o, hk.proceed ((Machine.inside_congr hold rfl).2 hin)
      (fun i hi => Machine.tasks_goOn_other _ _ hi) rfl rfl hk.tracks hk.always hnew ha hasked.1,
      inside_of_lawful hin.1 hnew hasked.1, hasked.2⟩
  obtain ⟨ht, hh, hqueue, hc, o', htr, hnext, hK⟩ :=
    respond_asked h.tracks h.always hr hasked hs hreactor
  have hnew := Machine.tasks_goOn_self (next a) (ht ▸ htask)
  refine ⟨o', h.proceed hin (fun i hi => ?_) hh hqueue htr hc hnew ha hnext,
    inside_of_lawful (hh.trans hin.1) hnew hnext, hK⟩
  rw [Machine.tasks_goOn_other s' _ hi, ht]

/-- **A turn of the task inside.** -/
theorem turn_inside (h : Kept T s o) {t : TaskId} {around : Surroundings} (hin : s.Inside t)
    (hr : T.rely around) (hs : s.turn? t around = some s') : ∃ o', Kept T s' o' := by
  obtain ⟨task, htask, ha, hp⟩ := h.inside t hin
  cases hprog : task.program with
  | done r => rw [hprog] at hp; cases hp
  | ask q next =>
      rw [hprog] at hp
      by_cases hlock : q = .lock
      · subst hlock
        exact absurd hp Lawful.not_lock
      obtain ⟨a, s₁, hs₁, rfl⟩ := turn?_ask htask ha hprog hlock hs
      by_cases hunlock : q = .unlock
      · subst hunlock
        cases hs₁
        obtain ⟨ho, hrest, hp⟩ := hp.unlocks
        exact ⟨none, h.leave hin ho hrest hp⟩
      · obtain ⟨o', hk, -⟩ := h.turn_asked hin hr htask hprog hunlock (hp.asked hunlock) hs₁
        exact ⟨o', hk⟩

/-- A task that asks for the lock gets it, or waits. -/
theorem takeLock (h : Kept T s o) {t : TaskId} {task : Task} {next : Unit → Program Reply}
    (htask : s.tasks[t]? = some task) (ha : task.alive = true)
    (hp : task.program = .ask .lock next) (hs : s.takeLock t (next ()) = some s') :
    Kept T s' o ∧ s'.world = s.world ∧ s.Stays s' := by
  obtain ⟨hh, rfl⟩ | ⟨⟨hn, hne, hm⟩, rfl⟩ := takeLock_cases hs
  · refine ⟨h.enter htask ha hp hh, rfl, fun i hi => ?_⟩
    rcases hh with hh | hh
    · exact absurd (hh.symm.trans hi.1) nofun
    · obtain rfl : t = i := Option.some.inj (hh.symm.trans hi.1)
      exact absurd ⟨task, next, htask, ha, hp⟩ hi.2
  · exact ⟨h.queueUp ⟨task, next, htask, ha, hp⟩ hne hm hn, rfl, fun i _ => ⟨rfl, rfl⟩⟩

/-- An idle reactor takes an event, or ends. -/
theorem receive (hT : T.Lasting) (h : Kept T s o) {t : TaskId} (hin : ¬s.Inside t)
    (hl : ¬s.AtLock t) {task : Task} (hs : s.receive t task = some s')
    (hp : Lawful T none task.program) :
    Kept T s' o ∧ s'.world.custody = s.world.custody ∧ s.Stays s' := by
  have ne : ∀ {i}, s.Inside i → t ≠ i := by
    rintro i hi rfl
    exact hin hi
  obtain ⟨registration, channel, -, ⟨e, rest, -, rfl⟩ | rfl⟩ := receive_cases hs
  · refine ⟨h.goesOn hin hl (fun i hi => Machine.tasks_goOn_other s _ hi) rfl rfl rfl rfl ?_, rfl,
      fun i hi => ⟨rfl, Machine.tasks_goOn_other s _ (ne hi)⟩⟩
    intro task' htask'
    obtain ⟨old, -, rfl⟩ :=
      Option.map_eq_some_iff.1 ((Machine.tasks_goOn s t t _).symm.trans htask')
    rw [if_pos rfl]
    exact .bind (lawful_react hT s.limits e) fun _ => rfl
  · refine ⟨h.goesOn hin hl (fun i hi => List.getElem?_set_ne hi) rfl rfl rfl rfl ?_, rfl,
      fun i hi => ⟨rfl, List.getElem?_set_ne (ne hi)⟩⟩
    intro task' htask'
    obtain ⟨hi, hset⟩ := List.getElem?_eq_some_iff.1 htask'
    rw [← hset]
    simpa [Machine.setTask] using hp

/-- **A turn of a task apart from the lock** only lets the pending start drift. -/
theorem turn_apart (hT : T.Lasting) (h : Kept T s o) {t : TaskId} {around : Surroundings}
    (hin : ¬s.Inside t) (hs : s.turn? t around = some s') :
    ∃ o', Kept T s' o' ∧ Drifts o s.world.custody o' s'.world.custody ∧ s.Stays s' := by
  obtain ⟨task, htask, ha⟩ := turn?_alive hs
  have hp := h.outside t task htask hin
  by_cases hlock : s.AtLock t
  · obtain ⟨task', next, htask', -, hprog⟩ := hlock
    obtain rfl : task = task' := Option.some.inj (htask.symm.trans htask')
    rw [turn?_lock htask ha hprog] at hs
    obtain ⟨hk, hw, hst⟩ := h.takeLock htask ha hprog hs
    exact ⟨o, hk, hw ▸ .refl _ _, hst⟩
  cases hprog : task.program with
  | done r =>
      rw [turn?_eq htask ha, hprog] at hs
      obtain ⟨hk, hw, hst⟩ := h.receive hT hin hlock hs hp
      exact ⟨o, hk, hw ▸ .refl _ _, hst⟩
  | ask q next =>
      have hq : q ≠ .lock := by
        rintro rfl
        exact hlock ⟨task, next, htask, ha, hprog⟩
      rw [hprog] at hp
      obtain ⟨a, s₁, hs₁, rfl⟩ := turn?_ask htask ha hprog hq hs
      obtain ⟨hfree, hnext⟩ := hp.free_of_ne_lock hq
      obtain ⟨ht, hh, hqueue, o', htr, hd⟩ := respond_free h.tracks hfree hs₁
      have hk := h.frame ht hh hqueue htr hd
      have htask₁ : s₁.tasks[t]? = some task := ht ▸ htask
      refine ⟨o', hk.goesOn (t := t) ?_ ?_ (fun i hi => Machine.tasks_goOn_other s₁ _ hi)
        rfl rfl rfl rfl ?_, hd, fun i hi => ⟨hh, ?_⟩⟩
      · rwa [Machine.inside_congr (htask₁.trans htask.symm) hh]
      · rwa [Machine.atLock_congr (htask₁.trans htask.symm)]
      · intro task' htask'
        obtain rfl := Option.some.inj ((Machine.tasks_goOn_self _ htask₁).symm.trans htask')
        exact hnext a
      · have hne : t ≠ i := by
          rintro rfl
          exact hin hi
        rw [Machine.tasks_goOn_other s₁ _ hne, ht]

/-- A task that does not have the lock ends early. -/
theorem dropTask (h : Kept T s o) {t : TaskId} (hne : s.holder ≠ some t) :
    ∃ o', Kept T (s.dropTask t) o' ∧ Drifts o s.world.custody o' (s.dropTask t).world.custody ∧
      s.Stays (s.dropTask t) := by
  unfold Machine.dropTask
  split
  case h_1 => exact ⟨o, h, .refl _ _, fun i _ => ⟨rfl, rfl⟩⟩
  case h_2 task htask =>
    obtain ⟨o', htr, hd⟩ := h.tracks.dropsAll t s.world.custody
    have hk : Kept T { s with pool := s.pool.dropAll t } o' := h.frame rfl rfl rfl htr hd
    -- Its channel may be closed besides, which concerns nothing that is kept.
    have gone : ∀ {s' : Machine} {dead : Task}, dead.program = Task.idle →
        s'.tasks = s.tasks.set t dead → s'.holder = s.holder →
        s'.queue = s.queue.filter (· != t) → s'.pool = s.pool.dropAll t →
        s'.world.custody = s.world.custody → Kept T s' o' := by
      intro s' dead hdead ht hh hq hp hc
      refine hk.replace hne (fun i hi => ?_) hh ?_ ?_ hp hc fun task' htask' => ?_
      · rw [ht]
        exact List.getElem?_set_ne hi
      · rw [hq]
        exact List.filter_sublist
      · rw [hq]
        simp
      · rw [ht] at htask'
        obtain ⟨hi, hset⟩ := List.getElem?_eq_some_iff.1 htask'
        rw [List.getElem_set_self] at hset
        rw [← hset, hdead]
        rfl
    have ne : ∀ {i}, s.Inside i → t ≠ i := by
      rintro i hi rfl
      exact hne hi.1
    have hb : (s.holder == some t) = false := by simpa using hne
    simp only [Machine.setTask, hb, Bool.false_eq_true, if_false]
    split
    · exact ⟨o', gone rfl rfl rfl rfl rfl rfl, hd, fun i hi => ⟨rfl, List.getElem?_set_ne (ne hi)⟩⟩
    · exact ⟨o', gone rfl rfl rfl rfl rfl rfl, hd, fun i hi => ⟨rfl, List.getElem?_set_ne (ne hi)⟩⟩

/-- **Whatever is not a turn of the task inside** only lets the pending start drift. -/
theorem step_apart (hT : T.Lasting) (h : Kept T s o) {l : Label} (hl : T.Allows s l)
    (hn : ∀ t around, l = .turn t around → ¬s.Inside t) (hs : s.step? l = some s') :
    ∃ o', Kept T s' o' ∧ Drifts o s.world.custody o' s'.world.custody ∧ s.Stays s' := by
  have framed : ∀ {s' : Machine}, s'.tasks = s.tasks → s'.holder = s.holder → s'.queue = s.queue →
      (∃ o', Tracks s'.pool o' ∧ Drifts o s.world.custody o' s'.world.custody) →
      ∃ o', Kept T s' o' ∧ Drifts o s.world.custody o' s'.world.custody ∧ s.Stays s' := by
    rintro s' ht hh hq ⟨o', htr, hd⟩
    exact ⟨o', h.frame ht hh hq htr hd, hd, fun i _ => ⟨hh, by rw [ht]⟩⟩
  cases l with
  | call op =>
      obtain rfl := Option.some.inj hs
      have hd : op = .destroy → T.destroys := fun hop => hl.2.1 (congrArg Label.call hop)
      refine ⟨o, h.addTask (op.lawful hT s.limits hd), .refl _ _, fun i hi => ⟨rfl, ?_⟩⟩
      obtain ⟨task, htask, -⟩ := h.inside i hi
      exact List.getElem?_append_left (List.getElem?_eq_some_iff.1 htask).1
  | turn t around => exact h.turn_apart hT (hn t around rfl) hs
  | ask id =>
      obtain ⟨pool, ha, rfl⟩ := step?_ask hs
      exact framed rfl rfl rfl ⟨o, h.tracks.asks ha, .refl _ _⟩
  | begin id =>
      obtain ⟨pool, u, hb, hu, rfl⟩ := begin?_eq_some.1 hs
      exact framed rfl rfl rfl (h.tracks.begins hb hu s.world)
  | finish | panic =>
      obtain ⟨u, hu, hr, rfl⟩ := end?_eq_some.1 hs
      exact framed rfl rfl rfl (h.tracks.ends hu hr s.world _)
  | deliver registration e =>
      obtain rfl := step?_deliver hs
      exact framed rfl rfl rfl ⟨o, h.tracks, .refl _ _⟩
  | silence registration =>
      obtain rfl := Option.some.inj hs
      exact framed rfl rfl rfl ⟨o, h.tracks, .refl _ _⟩
  | drop t =>
      obtain ⟨-, -, -, rfl⟩ := step?_drop hs
      exact h.dropTask hl.1
  | occupy work =>
      obtain rfl := Option.some.inj hs
      exact framed rfl rfl rfl ⟨o, h.tracks.spawns none hl.1, .refl _ _⟩
  | vacate id =>
      obtain rfl := Option.some.inj hs
      exact framed rfl rfl rfl (h.tracks.drops id _)
  | closePool =>
      obtain rfl := Option.some.inj hs
      exact framed rfl rfl rfl (h.tracks.closes _)
  | elapse span =>
      obtain rfl := Option.some.inj hs
      exact framed rfl rfl rfl ⟨o, h.tracks, .refl _ _⟩

/-- **Every step keeps the terms.** -/
theorem step (hT : T.Lasting) (h : Kept T s o) {l : Label} (hl : T.Allows s l)
    (hs : s.step? l = some s') : ∃ o', Kept T s' o' := by
  by_cases hn : ∃ t around, l = .turn t around ∧ s.Inside t
  · obtain ⟨t, around, rfl, hin⟩ := hn
    exact h.turn_inside hin (hl.2.2 t around rfl) hs
  · obtain ⟨o', hk, -⟩ := h.step_apart hT hl (fun t around hl hin => hn ⟨t, around, hl, hin⟩) hs
    exact ⟨o', hk⟩

end Kept

/-- **Every run keeps the terms.** -/
theorem Reach.kept (hT : T.Lasting) {s₀ : Machine} (h₀ : Kept T s₀ none)
    (h : Reach T.Allows s₀ s) : ∃ o, Kept T s o := by
  induction h with
  | start => exact ⟨none, h₀⟩
  | step _ hl hs ih =>
      obtain ⟨o, hk⟩ := ih
      exact hk.step hT hl hs

/-- Terms that demand nothing. -/
def Terms.loose : Terms := {}

theorem loose_lasting : Terms.loose.Lasting where
  met := ⟨{}, trivial⟩
  kept _ _ _ _ _ := (Terms.along_of_always fun _ => trivial).2 trivial

theorem kept_loose (limits : Limits) (poolSize : Nat) (store : Store.Persisted) :
    Kept Terms.loose (Machine.fresh limits poolSize store) none :=
  .fresh limits poolSize store trivial trivial

theorem allows_loose {l : Label} (h : s.Orderly l) : Terms.loose.Allows s l :=
  ⟨h, fun _ => trivial, fun _ _ _ => trivial⟩

/-- An orderly run from a fresh service needs no terms to be kept. -/
theorem Reach.orderly_kept {limits : Limits} {poolSize : Nat} {store : Store.Persisted}
    (h : Reach Machine.Orderly (Machine.fresh limits poolSize store) s) :
    ∃ o, Kept .loose s o :=
  (h.mono fun _ _ => allows_loose).kept loose_lasting (kept_loose ..)

/-- What the terms demand of a custody at rest holds whenever the lock is free. -/
theorem Reach.atRest (hT : T.Lasting) {s₀ : Machine} (h₀ : Kept T s₀ none)
    (h : Reach T.Allows s₀ s) (hr : s.AtRest) : T.rest s.world.custody := by
  obtain ⟨o, hk⟩ := h.kept hT h₀
  exact (hk.rest hr).2

/-- What the terms demand at all times holds at all times. -/
theorem Reach.always (hT : T.Lasting) {s₀ : Machine} (h₀ : Kept T s₀ none)
    (h : Reach T.Allows s₀ s) : T.always s.world.custody := by
  obtain ⟨o, hk⟩ := h.kept hT h₀
  exact hk.always

end TunnelKeeper.Service
