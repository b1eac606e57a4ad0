import TunnelKeeper.Proofs.Service.Standings

/-!
# Attended ledgers — every step leaves callers attended

A turn lets one caller in, answers the one inside, or lets it out, and all others stand where they
stood.

* `Attended.change`: all that a step can be.
* `Attended.step`: every step leaves callers attended.
* `Attended.reply_step`: whoever has answered has answered for good.
-/

namespace TunnelKeeper.Service

variable {s s' : Machine} {t : TaskId}

namespace Attended

variable {C : Collaborators} {mayCall : Machine → Prop} {x x' : Ledger}

/-! ### Turns -/

variable {around : Surroundings} {task : Task}

/-- Whoever is done is not in a section, -/
theorem not_inside_of_done (h : Attended x) (htask : x.machine.tasks[t]? = some task) {r : Reply}
    (hp : task.program = .done r) : ¬x.machine.Inside t := by
  intro hin
  obtain ⟨-, g, -, hg⟩ := h.inside t task hin htask
  rw [hp] at hg
  exact hg

/-- so nobody gets in or out when a reactor ends. -/
theorem inside_ended (h : Attended x) (htask : x.machine.tasks[t]? = some task) {r : Reply}
    (hp : task.program = .done r) (i : TaskId) :
    (x.machine.setTask t { task with alive := false }).Inside i ↔ x.machine.Inside i := by
  have hn := h.not_inside_of_done htask hp
  by_cases hi : t = i
  · subst hi
    refine iff_of_false (fun hin => hn ⟨hin.1, ?_⟩) hn
    rintro ⟨task', next, htask', -, hp'⟩
    obtain rfl : task = task' := Option.some.inj (htask.symm.trans htask')
    exact absurd (hp.symm.trans hp') nofun
  · exact Machine.inside_congr (List.getElem?_set_ne hi) rfl

/-- Who asks for the lock is a caller that has not had it, and then has it. -/
theorem held_of_lock (h : Attended x) (htask : x.machine.tasks[t]? = some task)
    {next : Unit → Program Reply} (hp : task.program = .ask .lock next) :
    t ∉ x.admitted ∧ Held {} (next ()) ∧ ∃ op, (t, op) ∈ x.calls ∧
      op.program x.machine.limits = .ask .lock next := by
  cases h.stands t task htask with
  | answered hp' => exact absurd (hp'.symm.trans hp) nofun
  | inside hin =>
      obtain ⟨-, g, -, hg⟩ := h.inside t task hin htask
      rw [hp] at hg
      exact hg.not_lock.elim
  | waits hc hp' hn =>
      obtain ⟨op, hop⟩ := hc
      have hprog := (hp' op hop).symm.trans hp
      refine ⟨hn, ?_, op, hop, hprog⟩
      rcases op.refused_or_held x.machine.limits (h.called _ hop).2 with ⟨r, hr⟩ | ⟨next', hn', hh⟩
      · exact absurd (hr.symm.trans hprog) nofun
      · cases hn'.symm.trans hprog
        exact hh

theorem inside_entered (h : Attended x) (htask : x.machine.tasks[t]? = some task)
    {next : Unit → Program Reply} (hp : task.program = .ask .lock next) (i : TaskId) :
    ({ x.machine.goOn t (next ()) with holder := some t } : Machine).Inside i ↔ i = t :=
  inside_goOn_of_held (s := { x.machine with holder := some t }) htask rfl
    (h.held_of_lock htask hp).2.1 i

theorem held_answered (h : Attended x) (hin : x.machine.Inside t)
    (htask : x.machine.tasks[t]? = some task) {q : Ask} {next : q.Answer → Program Reply}
    (hp : task.program = .ask q next) (hq : q ≠ .unlock) {a : q.Answer}
    (hs : x.machine.respond t around q = some (a, s)) :
    ∃ g : Grip, g.Fits s.pool ∧ Held g (next a) := by
  obtain ⟨-, g, hg, hh⟩ := h.inside t task hin htask
  rw [hp] at hh
  exact ⟨g.after q a, hg.respond hs, (hh.2 hq).2 a⟩

theorem inside_answered (h : Attended x) (hin : x.machine.Inside t)
    (htask : x.machine.tasks[t]? = some task) {q : Ask} {next : q.Answer → Program Reply}
    (hp : task.program = .ask q next) (hq : q ≠ .unlock) {a : q.Answer}
    (hs : x.machine.respond t around q = some (a, s)) (i : TaskId) :
    (s.goOn t (next a)).Inside i ↔ i = t := by
  obtain ⟨g, -, hh⟩ := h.held_answered hin htask hp hq hs
  exact inside_goOn_of_held (tasks_respond hs htask) ((holder_respond hq hs).1.trans hin.1) hh i

/-- Nobody is inside when the lock was given back. -/
theorem atRest_left (h : Attended x) (hin : x.machine.Inside t) (p : Program Reply) :
    (x.machine.passLock.goOn t p).AtRest := by
  obtain ⟨o, hk⟩ := h.kept
  exact hk.atRest_leave hin p

/-- A caller that gets the lock is admitted, -/
theorem admits_entered (h : Attended x) (htask : x.machine.tasks[t]? = some task)
    {next : Unit → Program Reply} (hp : task.program = .ask .lock next) (hr : x.machine.AtRest) :
    x.machine.admits { x.machine.goOn t (next ()) with holder := some t } = [t] :=
  Machine.admits_of_enters (hr t) ((h.inside_entered htask hp t).2 rfl)

/-- and nobody is when it is answered -/
theorem admits_answered (h : Attended x) (hin : x.machine.Inside t)
    (htask : x.machine.tasks[t]? = some task) {q : Ask} {next : q.Answer → Program Reply}
    (hp : task.program = .ask q next) (hq : q ≠ .unlock) {a : q.Answer}
    (hs : x.machine.respond t around q = some (a, s)) :
    x.machine.admits (s.goOn t (next a)) = [] :=
  Machine.admits_of_inside fun i hi => (h.inside_answered hin htask hp hq hs i).1 hi ▸ hin

/-- or gives the lock back. -/
theorem admits_left (h : Attended x) (hin : x.machine.Inside t) (p : Program Reply) :
    x.machine.admits (x.machine.passLock.goOn t p) = [] :=
  Machine.admits_of_inside fun i hi => absurd hi (h.atRest_left hin p i)

/-- A reactor ends. -/
theorem ended (h : Attended x) (htask : x.machine.tasks[t]? = some task) {r : Reply}
    (hp : task.program = .done r)
    (hk : ∃ o, Kept Terms.loose (x.machine.setTask t { task with alive := false }) o) :
    Attended ⟨x.machine.setTask t { task with alive := false }, x.calls, x.admitted⟩ := by
  have hn := h.not_inside_of_done htask hp
  have hi := h.inside_ended htask hp
  have other : ∀ {i}, t ≠ i → (x.machine.setTask t { task with alive := false }).tasks[i]? =
      x.machine.tasks[i]? := fun hne => List.getElem?_set_ne hne
  refine h.quietly hk h.silent (.refl _) rfl hi (fun i hin => other ?_) (fun _ hc => hc)
    (fun c hc => ?_) fun i task' htask' => ?_
  · rintro rfl
    exact hn hin
  · show c.1 < (x.machine.tasks.set t _).length ∧ _
    rw [List.length_set]
    exact h.called c hc
  · by_cases he : t = i
    · subst he
      have hset : (x.machine.tasks.set t { task with alive := false })[t]? = some task' := htask'
      rw [List.getElem?_set_self (List.getElem?_eq_some_iff.1 htask).1] at hset
      obtain rfl := Option.some.inj hset
      cases h.stands t task htask with
      | waits hc hp' hn =>
          refine .waits hc hp' hn fun hr => ?_
          exact absurd (hr.symm.trans (Task.reply?_eq_some.2 hp)) nofun
      | inside hin => exact absurd hin hn
      | answered hp ha => exact .answered hp ha
    · exact (h.stands i task' ((other he).symm.trans htask')).frame rfl rfl id id (hi i).2

/-- A caller gets the lock. -/
theorem entered (h : Attended x) (htask : x.machine.tasks[t]? = some task)
    {next : Unit → Program Reply} (hp : task.program = .ask .lock next) (hr : x.machine.AtRest)
    (hk : ∃ o, Kept Terms.loose { x.machine.goOn t (next ()) with holder := some t } o) :
    Attended
      ⟨{ x.machine.goOn t (next ()) with holder := some t }, x.calls, x.admitted ++ [t]⟩ := by
  have hi := h.inside_entered htask hp
  obtain ⟨hnew, held, op, hop, -⟩ := h.held_of_lock htask hp
  refine ⟨hk, h.sound, h.silent, fun c hc => ?_, fun i hm => ?_, ?_, fun i task' htask' => ?_,
    fun i task' hin htask' => ?_, fun hr => absurd ((hi t).2 rfl) (hr t)⟩
  · show c.1 < (x.machine.tasks.modify t _).length ∧ _
    rw [List.length_modify]
    exact h.called c hc
  · rcases List.mem_append.1 hm with hm | hm
    · exact h.known i hm
    · exact ⟨op, List.mem_singleton.1 hm ▸ hop⟩
  · refine List.nodup_append.2 ⟨h.once, by simp, fun i hm j hj => ?_⟩
    rw [List.mem_singleton.1 hj]
    rintro rfl
    exact hnew hm
  · by_cases he : t = i
    · exact .inside ((hi i).2 he.symm)
    · have htask' := (Machine.tasks_goOn_other x.machine _ he).symm.trans htask'
      refine (h.stands i task' htask').frame rfl rfl (List.mem_append_left _) (fun hm => ?_)
        fun hin => absurd hin (hr i)
      exact (List.mem_append.1 hm).resolve_right fun hm => he (List.mem_singleton.1 hm).symm
  · obtain rfl := (hi i).1 hin
    obtain rfl := Option.some.inj ((Machine.tasks_goOn_self _ htask).symm.trans htask')
    exact ⟨List.mem_append_right _ (List.mem_singleton_self _), {}, .of_quiet (h.rest hr), held⟩

/-- A caller is answered in its section. -/
theorem answered (h : Attended x) (hin : x.machine.Inside t)
    (htask : x.machine.tasks[t]? = some task) {q : Ask} {next : q.Answer → Program Reply}
    (hp : task.program = .ask q next) (hq : q ≠ .unlock) {a : q.Answer}
    (hs : x.machine.respond t around q = some (a, s))
    (hk : ∃ o, Kept Terms.loose (s.goOn t (next a)) o) :
    Attended ⟨s.goOn t (next a), x.calls, x.admitted⟩ := by
  have hi := h.inside_answered hin htask hp hq hs
  have sp := (Machine.Spares.respond hs).goOn (next a)
  refine ⟨hk, sp.sound h.sound, sp.silent h.silent, fun c hc => ?_, h.known, h.once,
    fun i task' htask' => ?_, fun i task' hin' htask' => ?_,
    fun hr => absurd ((hi t).2 rfl) (hr t)⟩
  · exact ⟨Nat.lt_of_lt_of_le (h.called c hc).1 sp.length, (h.called c hc).2⟩
  · by_cases he : t = i
    · exact .inside ((hi i).2 he.symm)
    · rcases sp.tasks i task' he htask' with htask' | ⟨hlen, r, hr⟩
      · exact (h.stands i task' htask').frame sp.limits rfl id id
          fun hin' => absurd (hin.unique hin') he
      · -- The new reactor is no caller.
        exact .answered hr fun op hop => absurd (h.called _ hop).1 (Nat.not_lt_of_le hlen)
  · obtain rfl := (hi i).1 hin'
    obtain rfl := Option.some.inj
      ((Machine.tasks_goOn_self _ (tasks_respond hs htask)).symm.trans htask')
    obtain ⟨g, hg, hh⟩ := h.held_answered hin htask hp hq hs
    exact ⟨(h.inside i task hin htask).1, g, hg, hh⟩

/-- A caller leaves its section, and has its answer. -/
theorem left (h : Attended x) (hin : x.machine.Inside t) (htask : x.machine.tasks[t]? = some task)
    {next : Unit → Program Reply} (hp : task.program = .ask .unlock next)
    (hr : (x.machine.passLock.goOn t (next ())).AtRest)
    (hk : ∃ o, Kept Terms.loose (x.machine.passLock.goOn t (next ())) o) :
    Attended ⟨x.machine.passLock.goOn t (next ()), x.calls, x.admitted⟩ := by
  obtain ⟨hm, g, hg, hh⟩ := h.inside t task hin htask
  rw [hp] at hh
  obtain ⟨howed, hdone⟩ := hh.1 rfl
  refine ⟨hk, h.sound, h.silent, fun c hc => ?_, h.known, h.once, fun i task' htask' => ?_,
    fun i task' hin' => absurd hin' (hr i), fun _ => hg.quiet howed⟩
  · show c.1 < (x.machine.tasks.modify t _).length ∧ _
    rw [List.length_modify]
    exact h.called c hc
  · by_cases he : t = i
    · subst he
      obtain rfl := Option.some.inj
        ((Machine.tasks_goOn_self (s := x.machine.passLock) _ htask).symm.trans htask')
      obtain ⟨r, hr⟩ := hdone ()
      exact .answered hr fun _ _ => hm
    · have htask' := (Machine.tasks_goOn_other x.machine.passLock _ he).symm.trans htask'
      exact (h.stands i task' htask').frame rfl rfl id id fun hin' => absurd (hin.unique hin') he

/-- A turn is one of these. -/
theorem change_turn (h : Attended x)
    (hs : x.machine.turn? t (C.answers x.machine.world.records) = some s) :
    Change C mayCall x ⟨s, x.calls, x.admitted ++ x.machine.admits s⟩ := by
  obtain ⟨task, htask, ha⟩ := turn?_alive hs
  -- Whoever is done is a reactor, and reads from a channel in which nothing waits.
  have idle : ∀ {r}, task.program = .done r →
      Change C mayCall x ⟨s, x.calls, x.admitted ++ x.machine.admits s⟩ := by
    intro r hp
    rw [turn?_eq htask ha, hp] at hs
    rw [receive_silent h.silent hs,
      Machine.admits_of_inside fun i => (h.inside_ended htask hp i).1, List.append_nil]
    exact .ended htask hp
  cases h.stands t task htask with
  | answered hp => exact idle hp
  | waits hc hp =>
      obtain ⟨op, hop⟩ := hc
      rcases op.refused_or_held x.machine.limits (h.called _ hop).2 with ⟨r, hr⟩ | ⟨next, hn, -⟩
      · exact idle ((hp op hop).trans hr)
      · have hp := (hp op hop).trans hn
        rw [turn?_lock htask ha hp] at hs
        obtain ⟨hh, rfl⟩ | ⟨-, rfl⟩ := takeLock_cases hs
        · have hr := atRest_of_entered htask ha hp hh
          rw [h.admits_entered htask hp hr]
          exact .entered htask hp hr
        · have hn : x.machine.admits { x.machine with queue := x.machine.queue ++ [t] } = [] :=
            Machine.admits_of_tasks rfl rfl
          rw [hn, List.append_nil]
          exact .queued
  | inside hin =>
      obtain ⟨-, g, -, hg⟩ := h.inside t task hin htask
      cases hp : task.program with
      | done r =>
          rw [hp] at hg
          exact hg.elim
      | ask q next =>
          have hl : q ≠ .lock := by
            rintro rfl
            rw [hp] at hg
            exact hg.not_lock
          obtain ⟨a, s₁, hs₁, rfl⟩ := turn?_ask htask ha hp hl hs
          by_cases hu : q = .unlock
          · subst hu
            cases hs₁
            rw [h.admits_left hin, List.append_nil]
            exact .left hin htask hp
          · rw [h.admits_answered hin htask hp hu hs₁, List.append_nil]
            exact .answered hin htask hp hu hs₁

/-- **A step is one of these.** -/
theorem change (h : Attended x) (hs : Ledger.Step C mayCall x x') : Change C mayCall x x' := by
  cases hs with
  | call hm hw hs =>
      obtain rfl := Option.some.inj hs
      exact .called hm hw
  | @move l s hl hs =>
      cases l with
      | turn t around =>
          obtain rfl : around = C.answers x.machine.world.records := hl
          exact h.change_turn hs
      | ask | begin | finish | panic | elapse =>
          rw [admits_works rfl hs, List.append_nil]
          exact .worked rfl hl hs
      | _ => exact hl.elim

/-- **Every step leaves callers attended.** -/
theorem step (h : Attended x) (hs : Ledger.Step C mayCall x x') : Attended x' := by
  -- What the lock guards is kept on any terms.
  have hk : ∃ o, Kept Terms.loose x'.machine o := by
    obtain ⟨o, hk⟩ := h.kept
    cases hs with
    | @call op s hm hw hs => exact hk.step loose_lasting (allows_loose (l := .call op) trivial) hs
    | @move l s hl hs =>
        refine hk.step loose_lasting (allows_loose (l := l) ?_) hs
        cases l with
        | drop | occupy => exact hl.elim
        | _ => trivial
  cases h.change hs with
  | called hm hw => exact h.call hw hk
  | worked hw _ hs₁ => exact h.works hw hs₁ hk
  | ended htask hp => exact h.ended htask hp hk
  | @queued t =>
      have hi : ∀ i, ({ x.machine with queue := x.machine.queue ++ [t] } : Machine).Inside i ↔
          x.machine.Inside i := fun _ => Machine.inside_congr rfl rfl
      exact h.quietly hk h.silent (.refl _) rfl hi (fun i _ => rfl) (fun _ hc => hc) h.called
        fun i task htask => (h.stands i task htask).frame rfl rfl id id (hi i).2
  | entered htask hp hr => exact h.entered htask hp hr hk
  | answered hin htask hp hq hs₁ => exact h.answered hin htask hp hq hs₁ hk
  | left hin htask hp => exact h.left hin htask hp (h.atRest_left hin _) hk

theorem serves (h : Attended x) (hs : Ledger.Serves C mayCall x x') : Attended x' := by
  induction hs with
  | refl => exact h
  | tail _ hs ih => exact ih.step hs

end Attended

/-! ### Answers are final -/

variable {C : Collaborators} {mayCall : Machine → Prop} {x x' : Ledger}

/-- Who is asked something has not answered. -/
theorem ne_of_reply {i : TaskId} {r : Reply} (hr : s.reply? i = some r) {task : Task} {q : Ask}
    {next : q.Answer → Program Reply} (htask : s.tasks[t]? = some task)
    (hp : task.program = .ask q next) : t ≠ i := by
  rintro rfl
  exact absurd (hp.symm.trans (Machine.program_of_reply hr htask)) nofun

theorem reply?_of_tasks {s s' : Machine} {i : TaskId} {r : Reply} (hr : s.reply? i = some r)
    (ht : ∀ task, s.tasks[i]? = some task → s'.tasks[i]? = some task) : s'.reply? i = some r := by
  obtain ⟨task, htask, hp⟩ := Machine.reply?_eq_some.1 hr
  exact Machine.reply?_eq_some.2 ⟨task, ht task htask, hp⟩

/-- **Whoever has answered has answered for good.** -/
theorem Attended.reply_step (h : Attended x) (hs : Ledger.Step C mayCall x x') {i : TaskId}
    {r : Reply} (hr : x.machine.reply? i = some r) : x'.machine.reply? i = some r := by
  cases h.change hs with
  | called =>
      exact reply?_of_tasks hr fun task htask =>
        (Kept.tasks_addTask _ _ (List.getElem?_eq_some_iff.1 htask).1).trans htask
  | worked hw _ hs₁ =>
      obtain ⟨world, pool, rfl, -⟩ := works_advances hw hs₁
      exact hr
  | @ended t task r' htask hp =>
      obtain ⟨task', htask', hp'⟩ := Machine.reply?_eq_some.1 hr
      by_cases he : t = i
      · subst he
        obtain rfl : task = task' := Option.some.inj (htask.symm.trans htask')
        refine Machine.reply?_eq_some.2 ⟨{ task with alive := false }, ?_, hp'⟩
        exact List.getElem?_set_self (List.getElem?_eq_some_iff.1 htask).1
      · exact Machine.reply?_eq_some.2 ⟨task', (List.getElem?_set_ne he).trans htask', hp'⟩
  | queued => exact hr
  | entered htask hp _ =>
      have hne := ne_of_reply hr htask hp
      exact reply?_of_tasks hr fun task htask =>
        (Machine.tasks_goOn_other x.machine _ hne).trans htask
  | answered hin htask hp hq hs₁ =>
      have hne := ne_of_reply hr htask hp
      exact reply?_of_tasks hr fun task htask =>
        (Machine.tasks_goOn_other _ _ hne).trans (tasks_respond hs₁ htask)
  | left hin htask hp =>
      have hne := ne_of_reply hr htask hp
      exact reply?_of_tasks hr fun task htask =>
        (Machine.tasks_goOn_other x.machine.passLock _ hne).trans htask

theorem Attended.limits_step (h : Attended x) (hs : Ledger.Step C mayCall x x') :
    x'.machine.limits = x.machine.limits := by
  cases h.change hs with
  | worked hw _ hs₁ =>
      obtain ⟨world, pool, rfl, -⟩ := works_advances hw hs₁
      rfl
  | answered _ _ _ _ hs₁ => exact (Machine.Spares.respond hs₁).limits
  | called | ended | queued | entered | left => rfl

theorem Attended.limits_serves (h : Attended x) (hs : Ledger.Serves C mayCall x x') :
    x'.machine.limits = x.machine.limits := by
  induction hs with
  | refl => rfl
  | tail hs' hs ih => exact ((h.serves hs').limits_step hs).trans ih

theorem Attended.reply_serves (h : Attended x) (hs : Ledger.Serves C mayCall x x') {i : TaskId}
    {r : Reply} (hr : x.machine.reply? i = some r) : x'.machine.reply? i = some r := by
  induction hs with
  | refl => exact hr
  | tail hs' hs ih => exact (h.serves hs').reply_step hs ih

end TunnelKeeper.Service
