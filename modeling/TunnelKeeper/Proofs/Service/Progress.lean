import TunnelKeeper.Proofs.Service.Attended

/-!
# Progress — every caller is answered

From wherever a run has come to, tasks and workers can go on, with no further caller, until every
caller has its answer: units of work come to their end (`Attended.settles`), so the task in its
section is answered whatever it asks and leaves it (`Attended.leaves`), and then the next one gets
in (`Attended.lets_in`).
-/

namespace TunnelKeeper.Service

open Ledger (Step Serves)

variable {C : Collaborators} {mayCall : Machine → Prop} {x x' : Ledger} {s s' : Machine}
  {t : TaskId}

/-! ### Workers -/

/-- As long as a unit waits or runs, a worker can make a step, and fewer are left. -/
theorem exists_work (C : Collaborators) (h : s.pool.Sound) (hl : 0 < s.pool.live) :
    ∃ l s', l.isWork = true ∧ C.Governs s l ∧ s.step? l = some s' ∧ s'.pool.live < s.pool.live := by
  rcases h.moves hl with ⟨id, u, hu, hr⟩ | ⟨id, pool, ha | hb⟩
  · -- A unit that runs ends as the collaborators have it.
    have ends : ∀ result, ∃ s', s.end? id result = some s' ∧ s'.pool.live < s.pool.live := by
      refine fun result => ⟨_, end?_eq_some.2 ⟨u, hu, hr, rfl⟩, ?_⟩
      refine Pool.live_release hu hr ?_
      cases result <;> exact ⟨nofun, nofun⟩
    cases ho : C.outcome s.world.records id u.work with
    | none =>
        obtain ⟨s', hs, hlt⟩ := ends none
        exact ⟨.panic id, s', rfl, ⟨u, hu, ho⟩, hs, hlt⟩
    | some b =>
        obtain ⟨s', hs, hlt⟩ := ends (some b)
        exact ⟨.finish id b, s', rfl, ⟨u, hu, ho⟩, hs, hlt⟩
  · exact ⟨.ask id, _, rfl, trivial, Option.map_eq_some_iff.2 ⟨_, ha, rfl⟩, Pool.live_asks ha⟩
  · obtain ⟨u, hu, -, -, rfl⟩ := Pool.begin?_inv hb
    have hu' : (s.pool.setStage id .running).units[id]? = some { u with stage := .running } := by
      rw [Tracks.units_setStage, hu, Option.map_some, if_pos rfl]
    exact ⟨.begin id, _, rfl, trivial, begin?_eq_some.2 ⟨_, _, hb, hu', rfl⟩, Pool.live_begins hb⟩

/-- What a task may ask in its section is answered once no unit moves any more. -/
theorem exists_respond {g : Grip} (hg : g.Fits s.pool) (hl : s.pool.Quiet) {q : Ask}
    (hq : g.Permits q) (t : TaskId) (around : Surroundings) :
    ∃ a s', s.respond t around q = some (a, s') := by
  cases q with
  | lock | unlock => exact hq.elim
  | join id limit =>
      obtain ⟨joined, hj⟩ := (hg.wanted id hq).joined (Pool.live_eq_zero_iff.2 hl)
      exact ⟨joined, s, respond_join.2 ⟨rfl, .inl hj⟩⟩
  | _ => exact ⟨_, _, rfl⟩

/-- How many callers have no answer yet. -/
def Ledger.unanswered (x : Ledger) : Nat :=
  x.calls.countP fun c => (x.machine.reply? c.1).isNone

theorem unanswered_lt (hc : x'.calls = x.calls)
    (hr : ∀ i r, x.machine.reply? i = some r → x'.machine.reply? i = some r) {op : Operation}
    (hop : (t, op) ∈ x.calls) (hn : x.machine.reply? t = none) {r : Reply}
    (ha : x'.machine.reply? t = some r) : x'.unanswered < x.unanswered := by
  obtain ⟨before, after, hsplit⟩ := List.append_of_mem hop
  have le : ∀ cs : List (TaskId × Operation), cs.countP (fun c => (x'.machine.reply? c.1).isNone) ≤
      cs.countP fun c => (x.machine.reply? c.1).isNone := by
    refine fun cs => List.countP_mono_left fun c _ hc => ?_
    cases hi : x.machine.reply? c.1 with
    | none => rfl
    | some r =>
        rw [hr c.1 r hi] at hc
        cases hc
  have hb := le before
  have ha' := le after
  unfold Ledger.unanswered
  rw [hc, hsplit, List.countP_append, List.countP_append, List.countP_cons, List.countP_cons, hn,
    ha]
  simp only [Option.isNone_some, Option.isNone_none, Bool.false_eq_true, if_false, if_true]
  omega

namespace Attended

/-- **Units of work come to their end**, and no task is concerned. -/
theorem settles (h : Attended x) : ∃ s, Serves C mayCall x ⟨s, x.calls, x.admitted⟩ ∧
    s.pool.Quiet ∧ s.tasks = x.machine.tasks ∧ s.holder = x.machine.holder := by
  induction hn : x.machine.pool.live using Nat.strongRecOn generalizing x with
  | ind n ih =>
      subst hn
      by_cases hl : x.machine.pool.live = 0
      · exact ⟨x.machine, .refl, Pool.live_eq_zero_iff.1 hl, rfl, rfl⟩
      obtain ⟨l, s, hw, hg, hs, hlt⟩ := exists_work C h.sound (Nat.pos_of_ne_zero hl)
      have hstep : Step C mayCall x _ := .move hg hs
      rw [admits_works hw hs, List.append_nil] at hstep
      obtain ⟨s', hs', hq, ht, hh⟩ := ih _ hlt (h.step hstep) rfl
      obtain ⟨world, pool, rfl, -⟩ := works_advances hw hs
      exact ⟨s', hs'.head hstep, hq, ht, hh⟩

/-- **The task in its section leaves it**, and has its answer. -/
theorem leaves (h : Attended x) (hin : x.machine.Inside t) : ∃ x', Serves C mayCall x x' ∧
    x'.calls = x.calls ∧ x'.machine.AtRest ∧ ∃ r, x'.machine.reply? t = some r := by
  obtain ⟨task, htask⟩ : ∃ task, x.machine.tasks[t]? = some task := by
    obtain ⟨o, hk⟩ := h.kept
    obtain ⟨task, htask, -⟩ := hk.inside t hin
    exact ⟨task, htask⟩
  -- The induction is on what is left of the program.
  induction hp : task.program generalizing x task with
  | done r => exact absurd hin (h.not_inside_of_done htask hp)
  | ask q next ih =>
      -- Once no unit moves, whatever it asks is answered.
      obtain ⟨s, hserves, hquiet, htasks, hholder⟩ := h.settles
      have h₁ := h.serves hserves
      have hin₁ : s.Inside t := (Machine.inside_congr (by rw [htasks]) hholder).2 hin
      have htask₁ : s.tasks[t]? = some task := by rw [htasks, htask]
      obtain ⟨-, g, hg, hheld⟩ := h₁.inside t task hin₁ htask₁
      obtain ⟨o₁, hk₁⟩ := h₁.kept
      obtain ⟨task', htask', ha, -⟩ := hk₁.inside t hin₁
      obtain rfl : task = task' := Option.some.inj (htask₁.symm.trans htask')
      rw [hp] at hheld
      by_cases hq : q = .unlock
      · subst hq
        obtain ⟨r, hr⟩ := (hheld.1 rfl).2 ()
        have hstep : Step C mayCall ⟨s, x.calls, x.admitted⟩ _ :=
          .move (l := .turn t _) rfl (turn?_of_respond htask₁ ha hp rfl)
        refine ⟨_, hserves.tail hstep, rfl, h₁.atRest_left hin₁ _, r, ?_⟩
        exact Machine.reply?_eq_some.2 ⟨_, Machine.tasks_goOn_self (s := s.passLock) _ htask₁, hr⟩
      · obtain ⟨a, s', hs⟩ := exists_respond hg hquiet (hheld.2 hq).1 t (C.answers s.world.records)
        have hstep : Step C mayCall ⟨s, x.calls, x.admitted⟩ _ :=
          .move (l := .turn t _) rfl (turn?_of_respond htask₁ ha hp hs)
        obtain ⟨x', hx', hc, hr⟩ := ih a (h₁.step hstep)
          ((h₁.inside_answered hin₁ htask₁ hp hq hs t).2 rfl) _
          (Machine.tasks_goOn_self _ (tasks_respond hs htask₁)) rfl
        exact ⟨x', (hserves.tail hstep).trans hx', hc, hr⟩

/-- A caller without an answer waits for the lock, when nobody is inside. -/
theorem atLock_of_unanswered (h : Attended x) (hr : x.machine.AtRest) {op : Operation}
    (hop : (t, op) ∈ x.calls) (hn : x.machine.reply? t = none) : x.machine.AtLock t := by
  have hlt : t < x.machine.tasks.length := (h.called _ hop).1
  have htask := List.getElem?_eq_getElem hlt
  have unanswered : ∀ r, x.machine.tasks[t].program ≠ .done r := fun r hp =>
    absurd (hn.symm.trans (Machine.reply?_eq_some.2 ⟨_, htask, hp⟩)) nofun
  cases h.stands t _ htask with
  | inside hin => exact absurd hin (hr t)
  | answered hp => exact absurd hp (unanswered _)
  | waits _ hp _ ha =>
      have hp := hp op hop
      rcases op.refused_or_held x.machine.limits (h.called _ hop).2 with ⟨r, hr⟩ | ⟨next, hnext, -⟩
      · exact absurd (hp.trans hr) (unanswered r)
      · refine ⟨_, next, htask, ha ?_, hp.trans hnext⟩
        exact (congrArg (Option.bind · Task.reply?) htask).symm.trans hn

/-- **Somebody gets the lock**, if a caller waits for it and nobody is inside. -/
theorem lets_in (h : Attended x) (hr : x.machine.AtRest) {op : Operation} (hop : (t, op) ∈ x.calls)
    (hn : x.machine.reply? t = none) : ∃ i x', Step C mayCall x x' ∧ x'.calls = x.calls ∧
      x'.machine.Inside i ∧ x.machine.reply? i = none ∧ ∃ op, (i, op) ∈ x.calls := by
  -- It was handed to a task already, or it is free.
  obtain ⟨i, hl, hh⟩ : ∃ i, x.machine.AtLock i ∧
      (x.machine.holder = none ∨ x.machine.holder = some i) := by
    cases hh : x.machine.holder with
    | none => exact ⟨t, h.atLock_of_unanswered hr hop hn, .inl rfl⟩
    | some i => exact ⟨i, Classical.not_not.1 fun hl => hr i ⟨hh, hl⟩, .inr rfl⟩
  obtain ⟨task, next, htask, ha, hp⟩ := hl
  have hturn := (turn?_lock htask ha hp (C.answers x.machine.world.records)).trans
    (takeLock_free hh (next ()))
  obtain ⟨-, -, op', hop', -⟩ := h.held_of_lock htask hp
  refine ⟨i, _, .move (l := .turn i _) rfl hturn, rfl, (h.inside_entered htask hp i).2 rfl, ?_, op',
    hop'⟩
  cases hr : x.machine.reply? i with
  | none => rfl
  | some r => exact absurd rfl (ne_of_reply hr htask hp)

/-- **Every caller is answered in the end**, if tasks and workers go on. -/
theorem answers (h : Attended x) : ∃ x', Serves C mayCall x x' ∧ x'.calls = x.calls ∧
    ∀ c ∈ x.calls, ∃ r, x'.machine.reply? c.1 = some r := by
  induction hn : x.unanswered using Nat.strongRecOn generalizing x with
  | ind n ih =>
      subst hn
      -- Whoever is inside leaves first.
      obtain ⟨x₁, hs₁, hc₁, hr₁⟩ : ∃ x₁, Serves C mayCall x x₁ ∧ x₁.calls = x.calls ∧
          x₁.machine.AtRest := by
        by_cases hr : x.machine.AtRest
        · exact ⟨x, .refl, rfl, hr⟩
        · obtain ⟨t, ht⟩ := Classical.not_forall.1 hr
          obtain ⟨x₁, hs, hc, hr, -⟩ := h.leaves (Classical.not_not.1 ht)
          exact ⟨x₁, hs, hc, hr⟩
      have h₁ := h.serves hs₁
      by_cases hall : ∀ c ∈ x.calls, ∃ r, x₁.machine.reply? c.1 = some r
      · exact ⟨x₁, hs₁, hc₁, hall⟩
      obtain ⟨⟨t, op⟩, hall⟩ := Classical.not_forall.1 hall
      obtain ⟨hop, hnone⟩ := Classical.not_imp.1 hall
      have hnone : x₁.machine.reply? t = none := Option.eq_none_iff_forall_ne_some.2 fun r hr =>
        hnone ⟨r, hr⟩
      -- Then somebody gets in and leaves, and is one fewer of those without an answer.
      obtain ⟨i, x₂, hs₂, hc₂, hin, hi, op', hop'⟩ := h₁.lets_in hr₁ (hc₁ ▸ hop) hnone
      have h₂ := h₁.step hs₂
      obtain ⟨x₃, hs₃, hc₃, -, r, hr⟩ := h₂.leaves hin
      have hs : Serves C mayCall x x₃ := (hs₁.tail hs₂).trans hs₃
      have hlt : x₃.unanswered < x.unanswered := by
        refine unanswered_lt (hc₃.trans (hc₂.trans hc₁)) (fun _ _ => h.reply_serves hs)
          (hc₁ ▸ hop') ?_ hr
        cases hx : x.machine.reply? i with
        | none => rfl
        | some r => exact absurd (hi.symm.trans (h.reply_serves hs₁ hx)) nofun
      obtain ⟨x', hx', hc', hall⟩ := ih _ hlt (h.serves hs) rfl
      have hc : x₃.calls = x.calls := hc₃.trans (hc₂.trans hc₁)
      exact ⟨x', hs.trans hx', hc'.trans hc, hc ▸ hall⟩

end Attended

end TunnelKeeper.Service
