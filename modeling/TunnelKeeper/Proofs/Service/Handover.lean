import Mathlib.Data.List.Forall2
import TunnelKeeper.Proofs.Service.Announcements
import TunnelKeeper.Proofs.Service.Phases

/-!
# Handover — what readers see while one tunnel replaces another

A start that finds a tunnel active keeps to the phases of a handover, whoever else takes steps
meanwhile.  So readers see the old tunnel, the new one, and at last none, in this order, and none
only after it was announced that the start has failed.

* `Passes`: a part of an execution, with all the machines it comes through.
* `Passes.phases`: what they are, one after the other.
* `replacement_has_no_gap`: what readers see, in every run.
-/

namespace TunnelKeeper.Service

variable {α β : Type} {old : Option Descriptor} {d : Descriptor}

/-! ### Executions that are under way -/

/-- **A part of an execution** of a program by a task, which goes on with `k`: the machines that it
comes through, and what is left of the program then. -/
inductive Passes (rule : Machine → Label → Prop) (t : TaskId) (k : α → Program Reply) :
    Machine → Program α → List Machine → Program α → Prop where
  | here {s : Machine} {p : Program α} : Passes rule t k s p [s] p
  /-- The task is answered. -/
  | turn {s s₁ : Machine} {around : Surroundings} {task : Task} {q : Ask}
      {next : q.Answer → Program α} {a : q.Answer} {ms : List Machine} {p' : Program α}
      (hl : rule s (.turn t around)) (htask : s.tasks[t]? = some task)
      (hp : task.program = (Dialogue.ask q next).bind k) (hs : s.respond t around q = some (a, s₁))
      (h : Passes rule t k (s₁.goOn t ((next a).bind k)) (next a) ms p') :
      Passes rule t k s (.ask q next) (s :: ms) p'
  /-- Something else happens. -/
  | other {s s₁ : Machine} {p : Program α} {l : Label} {ms : List Machine} {p' : Program α}
      (hl : rule s l) (hn : ∀ around, l ≠ .turn t around) (hs : s.step? l = some s₁)
      (h : Passes rule t k s₁ p ms p') : Passes rule t k s p (s :: ms) p'

/-- A whole execution is one of its parts. -/
theorem Performs.passes {rule : Machine → Label → Prop} {t : TaskId} {k : α → Program Reply}
    {s s' : Machine} {p : Program α} {a : α} (h : Performs rule t k s p s' a) :
    ∃ ms, Passes rule t k s p ms (.done a) := by
  induction h with
  | done => exact ⟨_, .here⟩
  | turn hl htask hp hs _ ih =>
      obtain ⟨ms, h⟩ := ih
      exact ⟨_, .turn hl htask hp hs h⟩
  | other hl hn hs _ ih =>
      obtain ⟨ms, h⟩ := ih
      exact ⟨_, .other hl hn hs h⟩

variable {rule : Machine → Label → Prop} {s₀ s s' : Machine} {t : TaskId}
  {k : α → Program Reply} {post : α → Handover → Prop} {x : Handover} {p p' : Program α}
  {ms : List Machine}

/-! ### Events -/

/-- A world has come after another one, and the failure was told since if that is so. -/
def World.Follows (d : Descriptor) (told : Bool) (w w' : World) : Prop :=
  ∃ since, w'.events = w.events ++ since ∧ (told = true → ∃ e ∈ since, TellsFailure d e)

theorem World.Follows.refl (w : World) : w.Follows d false w :=
  ⟨[], (List.append_nil _).symm, nofun⟩

theorem World.Follows.grow {w w' w'' : World} {told : Bool} (h : w.Follows d told w')
    {e : Option Entry} (hlog : w''.log = w'.log ++ e.toList) : w.Follows d told w'' := by
  obtain ⟨since, he, htold⟩ := h
  refine ⟨since ++ e.toList.filterMap Entry.event?, ?_, fun ht => ?_⟩
  · rw [World.events, hlog, List.filterMap_append, ← List.append_assoc, ← he]
    rfl
  · obtain ⟨e, hm, hf⟩ := htold ht
    exact ⟨e, List.mem_append_left _ hm, hf⟩

/-- The failure is told. -/
theorem World.Follows.tell {w w' : World} {told : Bool} (h : w.Follows d told w') {e : Event}
    (he : TellsFailure d e) (t : TaskId) (around : Surroundings) :
    w.Follows d true (w'.perform t around (.emit e)).2 := by
  obtain ⟨since, hs, -⟩ := h
  refine ⟨since ++ [e], ?_, fun _ => ⟨e, by simp, he⟩⟩
  have hlog : (w'.perform t around (.emit e)).2.log = w'.log ++ [.called t (.emit e) ()] := rfl
  rw [World.events, hlog, List.filterMap_append, ← List.append_assoc, ← hs]
  rfl

/-! ### Phases of an execution -/

/-- **A machine in a phase**, in an execution that has begun in another machine. -/
structure Handover.Holds (old : Option Descriptor) (d : Descriptor) (x : Handover)
    (s₀ s : Machine) : Prop where
  visible : s.world.visibleActive = x.visible old d
  active : s.world.session.active = x.active old d
  follows : s₀.world.Follows d x.isTold s.world

/-- **A task hands over**: it is inside, and what is left of its program keeps to the phases. -/
structure HandingOver (old : Option Descriptor) (d : Descriptor) (post : α → Handover → Prop)
    (t : TaskId) (s₀ s : Machine) (p : Program α) (x : Handover) : Prop where
  queues : s.Queues
  published : ∃ st, Published s st
  inside : s.Inside t
  holds : x.Holds old d s₀ s
  hands : HandsOver old d post x p

/-- What is asked is answered in the same phase, or in the next one. -/
theorem Handover.Holds.answered (h : x.Holds old d s₀ s) {around : Surroundings} {q : Ask}
    {a : q.Answer} {K : q.Answer → Handover → Prop} (hq : x.Poses old d q K)
    (hs : s.respond t around q = some (a, s')) :
    q ≠ .unlock ∧ ∃ x' : Handover, x'.Holds old d s₀ s' ∧ x.rank ≤ x'.rank ∧ K a x' := by
  obtain ⟨e, hlog, -⟩ := log_respond hs
  have hf := h.follows.grow hlog
  -- Mild questions change neither copy, and everything else is in the phases.
  have mild : q.isMild = true → K a x →
      q ≠ .unlock ∧ ∃ x' : Handover, x'.Holds old d s₀ s' ∧ x.rank ≤ x'.rank ∧ K a x' := by
    intro hm hK
    obtain ⟨hv, ha⟩ := active_respond hm hs
    refine ⟨?_, x, ⟨hv.trans h.visible, ha.trans h.active, hf⟩, Nat.le_refl _, hK⟩
    rintro rfl
    cases hm
  cases q with
  | session =>
      cases hs
      exact mild rfl (hq _ h.active)
  | publishActive active =>
      refine ⟨nofun, ?_⟩
      cases hs
      cases x with
      | before =>
          obtain ⟨rfl, hK⟩ := hq
          exact ⟨.ahead, ⟨rfl, h.active, hf⟩, Nat.zero_le _, hK⟩
      | failed =>
          obtain ⟨rfl, hK⟩ := hq
          exact ⟨.fading, ⟨rfl, h.active, hf⟩, Nat.le_succ _, hK⟩
      | _ => exact nomatch hq.1
  | setActive active =>
      refine ⟨nofun, ?_⟩
      cases hs
      cases x with
      | ahead =>
          obtain ⟨rfl, hK⟩ := hq
          exact ⟨.shown, ⟨h.visible, rfl, hf⟩, Nat.le_refl _, hK⟩
      | fading =>
          obtain ⟨rfl, hK⟩ := hq
          exact ⟨.gone, ⟨h.visible, rfl, hf⟩, Nat.le_refl _, hK⟩
      | _ => exact nomatch hq.1
  | call k =>
      cases k with
      | emit e =>
          cases x with
          | shown =>
              rcases hq with hK | ⟨he, hK⟩
              · exact mild rfl hK
              · cases hs
                exact ⟨nofun, .failed, ⟨h.visible, h.active, h.follows.tell he t around⟩,
                  Nat.le_refl _, hK⟩
          | _ => exact mild rfl (hq.2 a)
      | _ => cases x <;> exact mild rfl (hq.2 a)
  | lock | unlock => cases x <;> exact nomatch hq.1
  | _ => cases x <;> exact mild rfl (hq.2 a)

namespace HandingOver

/-- The task is answered, in the same phase or in the next one. -/
theorem answered {q : Ask} {next : q.Answer → Program α} {around : Surroundings} {a : q.Answer}
    {task : Task} (h : HandingOver old d post t s₀ s (.ask q next) x)
    (htask : s.tasks[t]? = some task) (hp : task.program = (Dialogue.ask q next).bind k)
    (hs : s.respond t around q = some (a, s')) : ∃ x' : Handover, x.rank ≤ x'.rank ∧
      HandingOver old d post t s₀ (s'.goOn t ((next a).bind k)) (next a) x' := by
  obtain ⟨hu, x', hholds, hle, hnext⟩ := h.holds.answered h.hands hs
  obtain ⟨st, hpub⟩ := h.published
  obtain ⟨st', hpub, hin⟩ := hpub.turn_inside h.queues h.inside htask hp hs
  have hlock : q ≠ .lock := by
    rintro rfl
    cases hs
  have hqueues := h.queues.answered htask hp hlock hs
  exact ⟨x', hle, hqueues, ⟨st', hpub⟩, hin hu,
    ⟨hholds.visible, hholds.active, hholds.follows⟩, hnext⟩

/-- Something else happens, in the same phase. -/
theorem aside (h : HandingOver old d post t s₀ s p x) {l : Label}
    (hn : ∀ around, l ≠ .turn t around) (hd : l ≠ .drop t) (hs : s.step? l = some s') :
    HandingOver old d post t s₀ s' p x := by
  obtain ⟨st, hpub⟩ := h.published
  obtain ⟨st', haside⟩ := hpub.step_apart h.queues (fun i hi => by
    obtain rfl := h.inside.unique hi
    exact ⟨hn, hd⟩) hs
  obtain ⟨e, hlog, -⟩ := log_step hs
  exact ⟨h.queues.step hs, ⟨st', haside.published⟩, h.inside.stays haside.stays,
    ⟨haside.visible.trans h.holds.visible, haside.active.trans h.holds.active,
      h.holds.follows.grow hlog⟩, h.hands⟩

end HandingOver

/-- **What an execution comes through**: phases, one after the other. -/
theorem Passes.phases (hrule : ∀ s l, rule s l → l ≠ .drop t) (h : Passes rule t k s p ms p')
    (hh : HandingOver old d post t s₀ s p x) :
    ∃ xs y, List.Forall₂ (fun s z => Handover.Holds old d z s₀ s) ms (xs ++ [y]) ∧
      (xs ++ [y]).Pairwise (fun x y => x.rank ≤ y.rank) ∧ (∀ z ∈ xs ++ [y], x.rank ≤ z.rank) ∧
      HandsOver old d post y p' := by
  induction h generalizing x with
  | here =>
      refine ⟨[], x, .cons hh.holds .nil, List.pairwise_singleton _ _, fun z hz => ?_, hh.hands⟩
      exact Nat.le_of_eq (congrArg Handover.rank (List.mem_singleton.1 hz).symm)
  | turn hl htask hp hs _ ih =>
      obtain ⟨x', hle, hh'⟩ := hh.answered htask hp hs
      obtain ⟨xs, y, hall, hsorted, hfrom, hlast⟩ := ih hh'
      refine ⟨x :: xs, y, .cons hh.holds hall, List.pairwise_cons.2 ⟨fun z hz => ?_, hsorted⟩,
        fun z hz => ?_, hlast⟩
      · exact Nat.le_trans hle (hfrom z hz)
      · rcases List.mem_cons.1 hz with rfl | hz
        · exact Nat.le_refl _
        · exact Nat.le_trans hle (hfrom z hz)
  | other hl hn hs _ ih =>
      obtain ⟨xs, y, hall, hsorted, hfrom, hlast⟩ := ih (hh.aside hn (hrule _ _ hl) hs)
      refine ⟨x :: xs, y, .cons hh.holds hall, List.pairwise_cons.2 ⟨hfrom, hsorted⟩,
        fun z hz => ?_, hlast⟩
      rcases List.mem_cons.1 hz with rfl | hz
      · exact Nat.le_refl _
      · exact hfrom z hz

/-- What is seen in phases that come one after the other: the old tunnel, the new one, and none. -/
theorem Handover.visible_of_sorted {xs : List Handover}
    (h : xs.Pairwise fun x y => x.rank ≤ y.rank) : ∃ a b c, xs.map (visible old d) =
      List.replicate a old ++ List.replicate b (some d) ++ List.replicate c none := by
  refine ⟨xs.countP (·.rank == 0), xs.countP (·.rank == 1), xs.countP (·.rank == 2), ?_⟩
  induction xs with
  | nil => rfl
  | cons x xs ih =>
      obtain ⟨hx, h⟩ := List.pairwise_cons.1 h
      -- No earlier phase comes after this one.
      have later : ∀ r < x.rank, xs.countP (·.rank == r) = 0 := by
        refine fun r hr => List.countP_eq_zero.2 fun y hy he => ?_
        have hy := hx y hy
        rw [beq_iff_eq] at he
        omega
      rw [List.map_cons, ih h, List.countP_cons, List.countP_cons, List.countP_cons]
      cases x with
      | before => rfl
      | ahead | shown | failed =>
          rw [later 0 (by decide)]
          rfl
      | fading | gone =>
          rw [later 0 (by decide), later 1 (by decide)]
          rfl

/-- What is seen in the machines of an execution is what is seen in its phases. -/
theorem Handover.map_visible {xs : List Handover}
    (h : List.Forall₂ (fun s z => Handover.Holds old d z s₀ s) ms xs) :
    ms.map (·.world.visibleActive) = xs.map (visible old d) := by
  rw [← List.forall₂_eq_eq_eq, List.forall₂_map_left_iff, List.forall₂_map_right_iff]
  exact h.imp fun _ _ hholds => hholds.visible

/-- Every machine of an execution is in a phase. -/
theorem Handover.exists_phase {xs : List Handover}
    (h : List.Forall₂ (fun s z => Handover.Holds old d z s₀ s) ms xs) (hm : s ∈ ms) :
    ∃ z ∈ xs, Handover.Holds old d z s₀ s := by
  induction h with
  | nil => cases hm
  | cons hholds _ ih =>
      rcases List.mem_cons.1 hm with rfl | hm
      · exact ⟨_, List.mem_cons_self, hholds⟩
      · obtain ⟨z, hz, hholds⟩ := ih hm
        exact ⟨z, List.mem_cons_of_mem _ hz, hholds⟩

/-! ### Every run -/

/-- A task that asks mildly has not made a tunnel visible that is not in the session. -/
theorem Published.same_of_mild {st : Publishing} (h : Published s st) (hin : s.Inside t)
    {task : Task} {q : Ask} {next : q.Answer → Program Reply} (htask : s.tasks[t]? = some task)
    (hp : task.program = .ask q next) (hq : q.isMild = true) :
    s.world.visibleActive = s.world.session.active := by
  obtain ⟨hst, task', htask', hpub⟩ := h.inside t hin
  obtain rfl := Option.some.inj (htask.symm.trans htask')
  rw [hp] at hpub
  obtain ⟨st', hasks, -⟩ := hpub
  have hagrees := h.agrees
  cases hasks with
  | mild hn =>
      cases st with
      | ahead active => exact absurd rfl (hn active)
      | apart | level => exact hagrees
  | _ => cases hq

/-- Where a start finds a tunnel active, it hands over. -/
theorem handingOver_startLocked (hq : s.Queues) {st : Publishing} (h : Published s st)
    (hin : s.Inside t) {task : Task} {limits : Limits} {auto : Bool} {k : ErrorCode → Program Reply}
    (htask : s.tasks[t]? = some task)
    (hp : task.program = (Program.startLocked limits d auto).bind k)
    (ha : s.world.session.active = old) :
    HandingOver old d HandsOver.Ends t s s (Program.startLocked limits d auto) .before where
  queues := hq
  published := ⟨st, h⟩
  inside := hin
  holds := ⟨(h.same_of_mild hin htask hp rfl).trans ha, ha, .refl _⟩
  hands := .startLocked limits auto

/-- **No gap in the active tunnel.**  In every run, whatever is dropped in it, whoever reads the
active tunnel is answered at once, and reads what is in the session whenever the lock is free.
While a start replaces the tunnel `old` by `d`, what is read is `old`, then `d`, and then that there
is no tunnel; the last only after the host was told that the start of `d` has failed, and so not at
all if it does not fail. -/
theorem replacement_has_no_gap {limits : Limits} {poolSize : Nat} {store : Store.Persisted}
    {s : Machine} (hs : Reach (fun _ _ => True) (Machine.fresh limits poolSize store) s) :
    (∀ r around, s.respond r around .visibleActive = some (s.world.visibleActive, s)) ∧
    (s.AtRest → s.world.visibleActive = s.world.session.active) ∧
    ∀ {t : TaskId} {task : Task} {limits : Limits} {old d : Descriptor} {auto : Bool}
      {k : ErrorCode → Program Reply} {ms : List Machine} {p : Program ErrorCode},
      s.Inside t → s.tasks[t]? = some task →
      task.program = (Program.startLocked limits d auto).bind k →
      s.world.session.active = some old →
      Passes (fun _ l => l ≠ .drop t) t k s (Program.startLocked limits d auto) ms p →
      (∃ a b c, ms.map (·.world.visibleActive) = List.replicate a (some old) ++
        List.replicate b (some d) ++ List.replicate c none) ∧
      (∀ s' ∈ ms, s'.world.visibleActive = none → ∃ since code,
        s'.world.events = s.world.events ++ since ∧ .started (some d.id) code ∈ since ∧
          code.isContinuable = false) ∧
      ∀ code, p = .done code → code.isContinuable = true →
        ∀ s' ∈ ms, s'.world.visibleActive ≠ none := by
  have hq := hs.queues (.fresh limits poolSize store)
  obtain ⟨st, hpub⟩ := hs.published (.fresh ..) (.fresh limits poolSize store)
  refine ⟨fun _ _ => rfl, hpub.same, ?_⟩
  intro t task limits old d auto k ms p hin htask hp ha hpasses
  obtain ⟨xs, y, hall, hsorted, -, hlast⟩ := hpasses.phases (fun _ _ hl => hl)
    (handingOver_startLocked hq hpub hin htask hp ha)
  -- Where no tunnel is seen, the start is in one of the last phases.
  have unseen : ∀ s' ∈ ms, s'.world.visibleActive = none →
      ∃ z ∈ xs ++ [y], z.rank = 2 ∧ z.Holds (some old) d s s' := by
    intro s' hm hnone
    obtain ⟨z, hz, hholds⟩ := Handover.exists_phase hall hm
    refine ⟨z, hz, ?_, hholds⟩
    cases z with
    | fading | gone => rfl
    | _ => exact nomatch hholds.visible.symm.trans hnone
  refine ⟨?_, fun s' hm hnone => ?_, fun code hcode hc s' hm hnone => ?_⟩
  · rw [Handover.map_visible hall]
    exact Handover.visible_of_sorted hsorted
  · obtain ⟨z, -, hrank, hholds⟩ := unseen s' hm hnone
    obtain ⟨since, hsince, htold⟩ := hholds.follows
    obtain ⟨-, he, code, rfl, hc⟩ := htold (by cases z <;> first | rfl | cases hrank)
    exact ⟨since, code, hsince, he, hc⟩
  · obtain ⟨z, hz, hrank, -⟩ := unseen s' hm hnone
    subst hcode
    obtain rfl : y = .shown := hlast hc
    -- No phase comes after the one in which it ends.
    have hle : z.rank ≤ Handover.shown.rank := by
      rcases List.mem_append.1 hz with hz | hz
      · exact (List.pairwise_append.1 hsorted).2.2 z hz _ (List.mem_singleton_self _)
      · exact Nat.le_of_eq (congrArg Handover.rank (List.mem_singleton.1 hz))
    rw [hrank] at hle
    exact absurd hle (by decide)

/-- A start that fails replaces the tunnel of a service that has resumed it. -/
theorem failed_replacement_is_told : ∃ ms,
    Passes (fun _ l => l ≠ .drop 2) 2 afterStart replacingService
      (Program.startLocked {} incompleteTunnel false) ms (.done .illegalServerConfiguration) ∧
    (∃ a b c, ms.map (·.world.visibleActive) = List.replicate a (some completeTunnel) ++
      List.replicate b (some incompleteTunnel) ++ List.replicate c none) ∧
    ∀ s ∈ ms, s.world.visibleActive = none → ∃ since code,
      s.world.events = replacingService.world.events ++ since ∧
        .started (some incompleteTunnel.id) code ∈ since ∧ code.isContinuable = false := by
  obtain ⟨s, hperforms⟩ := @performs_replacingService (fun _ l => l ≠ .drop 2) fun _ => nofun
  obtain ⟨ms, hpasses⟩ := hperforms.passes
  have hreach : Reach (fun _ _ => True) rememberingService replacingService :=
    (reach_resumedService fun _ _ _ => trivial).trans (reach_replacingService fun _ _ _ => trivial)
  obtain ⟨hseen, htold, -⟩ := (replacement_has_no_gap hreach).2.2 inside_replacingService
    task_replacingService rfl rfl hpasses
  exact ⟨ms, hpasses, hseen, htold⟩

end TunnelKeeper.Service
