import TunnelKeeper.Proofs.Proxy.Bound

/-!
# Mourning — processes that have died while their start waits

Where the address answers for the process alone (`Label.Undisputed`), nobody answers for a dead one:
it is found dead at the next look, whenever it has died.

* `Mourned.step`: a process that has died of itself is lost to its start, in undisputed steps.
* `Gone.fails`: its start can always go on to fail because of that.
-/

namespace TunnelKeeper.Proxy

open Launcher

variable {l l' : Launcher} {label : Label} {call : CallId} {stage : Stage} {around : Surroundings}
  {child : ProcessId} {e : LaunchError} {how : String} {past : List Label}
  {deadline wake : Instant}

/-! ### Processes that have died of themselves -/

/-- A process has ended by itself, in some way. -/
structure Gone (child : ProcessId) (how : String) (l : Launcher) : Prop where
  dead : child ∉ l.alive
  old : child < l.launched
  words : l.exitWords child = how

theorem exitWords_exits (l : Launcher) (process : ProcessId) (how : String) (p : ProcessId) :
    ({ l.kill process with exits := (process, how) :: l.exits } : Launcher).exitWords p =
      if p = process then how else l.exitWords p := by
  by_cases hp : p = process
  · simp [exitWords, hp]
  · simp [exitWords, hp, List.lookup_cons, beq_eq_false_iff_ne.2 hp]

namespace Gone

/-- No process has the number of a former one, and none ends twice. -/
theorem step (h : Gone child how l) (hs : l.step? label = some l') : Gone child how l' := by
  obtain ⟨dead, old, words⟩ := h
  cases does_of_step hs with
  | refuses | asks => exact ⟨dead, old, words⟩
  | acts around here ha =>
      cases ha with
      | takes | goesOn | fills => exact ⟨dead, old, words⟩
      | launches =>
          refine ⟨fun hp => ?_, Nat.lt_succ_of_lt old, words⟩
          rcases List.mem_cons.1 hp with rfl | hp
          · exact Nat.lt_irrefl _ old
          · exact dead (mem_killAll.1 hp).1
      | ends => exact ⟨fun hp => dead (mem_killAll.1 hp).1, old, words⟩
  | drops here => exact ⟨fun hp => dead (mem_killAll.1 hp).1, old, words⟩
  | exits process how' =>
      have hne : child ≠ process := by
        rintro rfl
        simp [step?, dead] at hs
      refine ⟨fun hp => dead (List.mem_filter.1 hp).1, old, ?_⟩
      rw [exitWords_exits, if_neg hne, words]

end Gone

/-- A step in which a process can be looked at, and the address answers for no dead process. -/
def Label.Undisputed (l : Launcher) : Label → Prop
  | .turn call around => around.observes = true ∧
      ∀ {child : ProcessId} {deadline : Instant},
        l.calls[call]? = some (.connecting child deadline) → around.accepts = true → child ∈ l.alive
  | _ => True

/-- All steps are so. -/
def Launcher.Undisputed (l : Launcher) : List Label → Prop
  | [] => True
  | label :: rest => label.Undisputed l ∧ ∀ {l'}, l.step? label = some l' → l'.Undisputed rest

/-- A process has died of itself while its call waits for it; or that has been found. -/
structure Mourned (call : CallId) (child : ProcessId) (how : String) (l : Launcher) : Prop where
  gone : Gone child how l
  bound : Bound call child (fun stage => stage.Awaits child ∨ stage.GivesUp child (.exited how)) l

namespace Mourned

/-- What a call can do while its process is dead: nobody answers, and it finds that out. -/
theorem turn (h : Mourned call child how l) (hu : (Label.turn call around).Undisputed l)
    (hs : l.turn? call around = some l') :
    (∃ next, l'.calls[call]? = some next ∧
      (next.Awaits child ∨ next.GivesUp child (.exited how))) ∧ l'.slot ≠ some child := by
  obtain ⟨stage, hat, hwaits | hgives⟩ := h.bound.here
  · cases hwaits with
    | connecting deadline =>
        have hnot : ¬around.accepts = true := fun hacc => h.gone.dead (hu.2 hat hacc)
        rw [turn?_connecting hat, if_neg hnot] at hs
        cases hs
        exact ⟨⟨_, set_self hat _, .inl (.looking deadline)⟩, h.bound.slot⟩
    | looking deadline =>
        rw [turn?_looking hat, look_dead hu.1 h.gone.dead, h.gone.words] at hs
        cases hs
        exact ⟨⟨_, set_self hat _, .inr .discarding⟩, h.bound.slot⟩
    | resting deadline wake =>
        rw [turn?_resting hat] at hs
        split at hs
        · cases hs
          exact ⟨⟨_, set_self hat _, .inl (.connecting deadline)⟩, h.bound.slot⟩
        · cases hs
  · have hgave : GaveUp call child (.exited how) l :=
      ⟨⟨stage, hat, hgives⟩, h.bound.alone, h.bound.old, h.bound.slot⟩
    obtain ⟨⟨next, hnext, hgives⟩, hslot⟩ := hgave.turn hs
    exact ⟨⟨next, hnext, .inr hgives⟩, hslot⟩

/-- **A process that has died is lost**, as long as nobody answers for it. -/
theorem step (h : Mourned call child how l) (hu : label.Undisputed l)
    (hs : l.step? label = some l') : Mourned call child how l' where
  gone := h.gone.step hs
  bound := h.bound.step hs (.inr .dropped) fun {around} hl => by
    subst hl
    exact h.turn hu hs

theorem run (h : Mourned call child how l) {labels : List Label} (hu : l.Undisputed labels)
    (hr : l.run? labels = some l') : Mourned call child how l' := by
  induction labels generalizing l with
  | nil => cases hr; exact h
  | cons label rest ih =>
      obtain ⟨m, hs, hr⟩ := Option.bind_eq_some_iff.1 hr
      exact ih (h.step hu.1 hs) (hu.2 hs) hr

theorem lost (h : Mourned call child how l) : Lost call child (.exited how) l where
  slot := h.bound.slot
  told hr := by
    rw [result?_eq_some] at hr
    obtain ⟨stage, hat, hkind⟩ := h.bound.here
    rw [hat] at hr
    cases hr
    rcases hkind with hwaits | hgives
    · cases hwaits
    · cases hgives
      rfl

end Mourned

/-! ### A start whose process is dead comes to its end -/

/-- A turn of a call in which nobody answers. -/
inductive Label.Unanswered (call : CallId) : Label → Prop where
  | turn {around : Surroundings} (observes : around.observes = true)
      (accepts : around.accepts = false) : Unanswered call (.turn call around)

/-- Some turns without an answer bring a call to a result. -/
def Fails (l : Launcher) (call : CallId) (e : LaunchError) : Prop :=
  ∃ turns l', (∀ label ∈ turns, label.Unanswered call) ∧ l.run? turns = some l' ∧
    l'.result? call = some (.error e)

theorem Fails.after {m : Launcher} (hl : label.Unanswered call) (hs : l.step? label = some m)
    (h : Fails m call e) : Fails l call e := by
  obtain ⟨turns, l', hall, hr, hres⟩ := h
  refine ⟨label :: turns, l', List.forall_mem_cons.2 ⟨hl, hall⟩, ?_, hres⟩
  exact Option.bind_eq_some_iff.2 ⟨m, hs, hr⟩

/-- A turn in which nobody answers, at some time. -/
def unanswered (call : CallId) (clock : Instant) : Label := .turn call { clock }

theorem unanswered_is (call : CallId) (clock : Instant) :
    (unanswered call clock).Unanswered call := .turn rfl rfl

theorem fails_discarding (hat : l.calls[call]? = some (.discarding child e)) : Fails l call e :=
  ⟨[unanswered call 0], (l.kill child).finish call (.error e),
    fun _ hm => List.mem_singleton.1 hm ▸ unanswered_is call 0,
    Option.bind_eq_some_iff.2 ⟨_, turn?_discarding hat, rfl⟩,
    result?_eq_some.2 (set_self hat _)⟩

theorem fails_looking (hat : l.calls[call]? = some (.looking child deadline))
    (h : Gone child how l) : Fails l call (.exited how) := by
  have hs : l.step? (unanswered call 0) = some (l.move call (.discarding child (.exited how))) := by
    have hlook : l.look child deadline { clock := 0 } = _ := look_dead rfl h.dead
    rw [← h.words, ← hlook]
    exact turn?_looking hat
  exact .after (unanswered_is call 0) hs (fails_discarding (set_self hat _))

theorem fails_connecting (hat : l.calls[call]? = some (.connecting child deadline))
    (h : Gone child how l) : Fails l call (.exited how) := by
  have hs : l.step? (unanswered call 0) = some (l.move call (.looking child deadline)) :=
    turn?_connecting hat
  exact .after (unanswered_is call 0) hs (fails_looking (set_self hat _) (h.step hs))

/-- **A start whose process has died can go on to fail**, wherever it is in its waiting. -/
theorem Gone.fails (h : Gone child how l) (hat : l.calls[call]? = some stage)
    (waits : stage.Awaits child) : Fails l call (.exited how) := by
  cases waits with
  | connecting deadline => exact fails_connecting hat h
  | looking deadline => exact fails_looking hat h
  | resting deadline wake =>
      have hs : l.step? (unanswered call wake) = some (l.move call (.connecting child deadline)) :=
        (turn?_resting hat).trans (if_pos (Nat.le_refl wake))
      exact .after (unanswered_is call wake) hs (fails_connecting (set_self hat _) (h.step hs))

end TunnelKeeper.Proxy
