import TunnelKeeper.Proofs.Service.Reactions

/-!
# Heeding — what reactors know is true

A reactor knows which tunnel it has reported, and in its section what it has found there
(`Sight.Holds`).  Whatever reactors have done under the lock, they did it to the tunnel that stood
(`ReactorsAct`).

* `Heeding.step_apart`: what others do, and the reactor outside of its section, leaves that true.
-/

namespace TunnelKeeper.Service

variable {s s' : Machine} {o o' : Option Pending} {l : Label} {t : TaskId}

/-! ### What reactors know is true -/

/-- A task has last reported a tunnel, if it knows one. -/
def Knows (s : Machine) (t : TaskId) (reported : Option Descriptor) : Prop :=
  ∀ d, reported = some d → (account s.world.log).reported t = some d

/-- A task is in its section and has done nothing there that concerns the session. -/
structure Watches (s : Machine) (o : Option Pending) (t : TaskId) : Prop where
  inside : s.Inside t
  pending : o = none
  stood : Stood s.world.custody

/-- **What a reactor knows is true.** -/
def Sight.Holds (s : Machine) (o : Option Pending) (t : TaskId) : Sight → Prop
  | .apart reported => Knows s t reported
  | .entered reported => Knows s t reported ∧ Watches s o t
  | .seeing reported active =>
    Knows s t reported ∧ Watches s o t ∧ s.world.session.active = active
  | .restarting => s.Inside t ∧ (account s.world.log).replacing = some t

/-- **Whatever reactors have done under the lock**, they did it to the tunnel that stood. -/
def ReactorsAct (s : Machine) : Prop :=
  ∀ before t k a since task, s.world.log = before ++ .called t k a :: since →
    s.tasks[t]? = some task → task.registration.isSome = true → k.isGuarded = true →
    (account before).Reacts t k

/-- **Reactors heed what they know**, and what they have done was right. -/
structure Heeding (s : Machine) (o : Option Pending) : Prop where
  reactors : ∀ t task, s.tasks[t]? = some task → task.registration.isSome = true →
    ∃ m : Sight, Heeds (fun _ _ => True) m task.program ∧ m.Holds s o t
  callers : ∀ t k a, .called t k a ∈ s.world.log → ∃ task, s.tasks[t]? = some task
  acts : ReactorsAct s

theorem Knows.after {reported : Option Descriptor} (h : Knows s t reported) {e : Option Entry}
    (hlog : s'.world.log = s.world.log ++ e.toList)
    (he : ∀ k a, e = some (.called t k a) → k.isGuarded = false) : Knows s' t reported := by
  intro d hd
  rw [hlog, account_append, ← h d hd]
  cases e with
  | none => rfl
  | some e => exact (account s.world.log).reported_after e fun k a hk => he k a (congrArg some hk)

/-- A task that is not inside knows at most what it has reported. -/
theorem Sight.Holds.apart {m : Sight} (h : m.Holds s o t) (hin : ¬s.Inside t) :
    ∃ reported, m = .apart reported ∧ Knows s t reported := by
  cases m with
  | apart reported => exact ⟨reported, rfl, h⟩
  | entered reported => exact absurd h.2.inside hin
  | seeing reported active => exact absurd h.2.1.inside hin
  | restarting => exact absurd h.1 hin

/-- What a task knows stays true while others do nothing under the lock. -/
theorem Sight.Holds.frame {m : Sight} (h : m.Holds s o t) (hin : s.Inside t) (hst : s.Stays s')
    (hd : Drifts o s.world.custody o' s'.world.custody) {e : Option Entry}
    (hlog : s'.world.log = s.world.log ++ e.toList)
    (he : ∀ i k a, e = some (.called i k a) → k.isGuarded = false) : m.Holds s' o' t := by
  have knows : ∀ {reported}, Knows s t reported → Knows s' t reported :=
    fun hk => hk.after hlog (he t)
  have watches : Watches s o t → Watches s' o' t ∧
      s'.world.session.active = s.world.session.active := by
    rintro ⟨-, rfl, hstood⟩
    obtain ⟨ho, hc⟩ := hd.none_inv
    refine ⟨⟨hin.stays hst, ho, ?_⟩, congrArg (fun c => c.session.active) hc⟩
    rw [hc]
    exact hstood
  cases m with
  | apart reported => exact knows h
  | entered reported => exact ⟨knows h.1, (watches h.2).1⟩
  | seeing reported active =>
      obtain ⟨hw, ha⟩ := watches h.2.1
      exact ⟨knows h.1, hw, ha.trans h.2.2⟩
  | restarting =>
      refine ⟨hin.stays hst, ?_⟩
      rw [hlog, account_append]
      cases e with
      | none => exact h.2
      | some e =>
          have hcalled := fun i k a (hk : e = _) => he i k a (congrArg some hk)
          rw [Option.elim_some, Account.replacing_after _ _ hcalled]
          exact h.2

namespace Heeding

theorem fresh (limits : Limits) (poolSize : Nat) (store : Store.Persisted) :
    Heeding (Machine.fresh limits poolSize store) none where
  reactors _ _ h := by cases h
  callers _ _ _ h := by cases h
  acts before _ _ _ _ _ h := by
    have h : ([] : List Entry) = before ++ _ :: _ := h
    exact absurd h (by simp)

/-- A step adds at most one entry to the log, which is as right as the others. -/
theorem acts_step (h : Heeding s o) (hs : s.step? l = some s') {e : Option Entry}
    (hlog : s'.world.log = s.world.log ++ e.toList)
    (he : ∀ t k a task, e = some (.called t k a) → s.tasks[t]? = some task →
      task.registration.isSome = true → k.isGuarded = true → (account s.world.log).Reacts t k)
    (hcaller : ∀ t k a, e = some (.called t k a) → ∃ task, s.tasks[t]? = some task) :
    (∀ t k a, .called t k a ∈ s'.world.log → ∃ task, s'.tasks[t]? = some task) ∧
      ReactorsAct s' := by
  have before : ∀ t k a, .called t k a ∈ s'.world.log → ∃ task, s.tasks[t]? = some task := by
    intro t k a hm
    rw [hlog, List.mem_append, Option.mem_toList] at hm
    exact hm.elim (h.callers t k a) (hcaller t k a)
  refine ⟨fun t k a hm => ?_, fun before' t k a since task hsplit htask hr hg => ?_⟩
  · obtain ⟨task, htask⟩ := before t k a hm
    exact exists_task_step hs htask
  · -- The task was there, and was a reactor then.
    obtain ⟨old, hold⟩ := before t k a (by rw [hsplit]; simp)
    obtain ⟨task', htask', hregistration⟩ := registration_step hs hold
    obtain rfl : task = task' := Option.some.inj (htask.symm.trans htask')
    rw [hregistration] at hr
    obtain ⟨hnew, rfl⟩ | ⟨rest, hpast⟩ := split_of_grown (hlog.symm.trans hsplit)
    · exact he t k a old hnew hold hr hg
    · exact h.acts before' t k a rest old hpast hold hr hg

/-- A reactor that was not inside. -/
theorem apart (h : Heeding s o) (hk : Kept upstanding s o) (hk' : Kept upstanding s' o')
    (hs : s.step? l = some s') (hst : s.Stays s')
    (hd : Drifts o s.world.custody o' s'.world.custody) {e : Option Entry}
    (hlog : s'.world.log = s.world.log ++ e.toList)
    (he : ∀ k a, e = some (.called t k a) → k.isGuarded = false) {task : Task}
    (htask : s'.tasks[t]? = some task) (hr : task.registration.isSome = true)
    (hin : ¬s.Inside t) :
    ∃ m : Sight, Heeds (fun _ _ => True) m task.program ∧ m.Holds s' o' t := by
  have known : ∀ old, s.tasks[t]? = some old → old.registration.isSome = true →
      ∃ reported, Heeds (fun _ _ => True) (.apart reported) old.program ∧
        Knows s' t reported := by
    intro old hold hr
    obtain ⟨m, hm, hh⟩ := h.reactors t old hold hr
    obtain ⟨reported, rfl, hknows⟩ := hh.apart hin
    exact ⟨reported, hm, hknows.after hlog he⟩
  have hlaw : ¬s'.Inside t → Lawful upstanding none task.program := hk'.outside t task htask
  have hc := continues_step hs htask
  generalize task.program = p, task.registration = registration at hc hr hlaw ⊢
  cases hc with
  | called op => cases hr
  | spawned | dropped => exact ⟨.apart none, trivial, nofun⟩
  | reacts hold e =>
      exact ⟨.apart none, .bind ((heeds_react s.limits e).mono fun _ _ _ => trivial), nofun⟩
  | stays hold =>
      obtain ⟨reported, hm, hknows⟩ := known _ hold hr
      exact ⟨_, hm, hknows⟩
  | @answered old q next hold hp hq a =>
      obtain ⟨reported, hm, hknows⟩ := known _ hold hr
      rw [hp] at hm
      exact ⟨.apart reported, (Sight.Poses.free hm hq).2 a, hknows⟩
  | @entered old next hold hp =>
      obtain ⟨reported, hm, hknows⟩ := known _ hold hr
      rw [hp] at hm
      have hm : Heeds (fun _ _ => True) (.entered reported) (next ()) := hm
      by_cases hin' : s'.Inside t
      · -- Nobody was inside before, so the tunnel that stands is the active one.
        have hrest : s.AtRest := fun i hi => hin (hin'.unique (hi.stays hst) ▸ hi)
        obtain ⟨rfl, hstood⟩ := hk.rest hrest
        obtain ⟨ho, hcustody⟩ := hd.none_inv
        exact ⟨.entered reported, hm, hknows, hin', ho, by rw [hcustody]; exact hstood⟩
      · -- It asks for the session next, which is not free.
        have hlaw := hlaw hin'
        generalize next () = p at hm hlaw
        cases p with
        | done r => exact ⟨.apart none, trivial, nofun⟩
        | ask q next =>
            cases q with
            | session => exact absurd (hlaw.free_of_ne_lock nofun).1 nofun
            | _ => exact hm.elim

/-- **What is not a turn of the task inside** keeps true what reactors know. -/
theorem step_apart (h : Heeding s o) (hk : Kept upstanding s o) (hk' : Kept upstanding s' o')
    (hs : s.step? l = some s') (hn : ∀ t around, l = .turn t around → ¬s.Inside t)
    (hd : Drifts o s.world.custody o' s'.world.custody) (hst : s.Stays s') : Heeding s' o' := by
  obtain ⟨e, hlog, he⟩ := log_step hs
  -- Whoever calls is not inside, and so calls nothing that the lock guards.
  have quiet : ∀ t k a, e = some (.called t k a) → k.isGuarded = false := by
    intro t k a hk₁
    obtain ⟨around, task, next, hl, htask, hp⟩ := he t k a hk₁
    have hlaw := hk.outside t task htask (hn t around hl)
    rw [hp] at hlaw
    exact not_guarded_of_isFree (hlaw.free_of_ne_lock nofun).1
  obtain ⟨hcallers, hacts⟩ := h.acts_step hs hlog
    (fun t k a _ hk₁ _ _ hg => absurd ((quiet t k a hk₁).symm.trans hg) nofun) fun t k a hk₁ => by
      obtain ⟨-, task, -, -, htask, -⟩ := he t k a hk₁
      exact ⟨task, htask⟩
  refine ⟨fun t task htask hr => ?_, hcallers, hacts⟩
  by_cases hin : s.Inside t
  · rw [(hst t hin).2] at htask
    obtain ⟨m, hm, hh⟩ := h.reactors t task htask hr
    exact ⟨m, hm, hh.frame hin hst hd hlog quiet⟩
  · exact h.apart hk hk' hs hst hd hlog (quiet t) htask hr hin

end Heeding

end TunnelKeeper.Service
