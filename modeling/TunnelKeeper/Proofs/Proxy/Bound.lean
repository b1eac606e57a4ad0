import TunnelKeeper.Proofs.Proxy.Ownership

/-!
# Bound — a process that one call alone may put into the slot

Each turn of a start that has launched its process is told by where the start is.  As long as it has
not put its process into the slot, nobody else can, since nobody else is told of it.

* `Bound.step`: nobody but the call that has launched a process can put it into the slot.
* `GaveUp.run`: a process that its start has given up is never put into the slot, and the start can
  only fail with what it has given it up for.
-/

namespace TunnelKeeper.Proxy

open Launcher

variable {l l' : Launcher} {label : Label} {call : CallId} {stage : Stage} {around : Surroundings}
  {child : ProcessId} {e : LaunchError} {how : String} {past : List Label}
  {deadline wake : Instant}

/-! ### Single turns of a start that has launched its process -/

namespace Stage

/-- A call waits for its process to come up. -/
inductive Awaits (child : ProcessId) : Stage → Prop where
  | connecting (deadline : Instant) : Awaits child (.connecting child deadline)
  | looking (deadline : Instant) : Awaits child (.looking child deadline)
  | resting (deadline wake : Instant) : Awaits child (.resting child deadline wake)

/-- A call has given its process up because of an error, and may be over since. -/
inductive GivesUp (child : ProcessId) (e : LaunchError) : Stage → Prop where
  | discarding : GivesUp child e (.discarding child e)
  | finished : GivesUp child e (.finished (.error e))
  | dropped : GivesUp child e .dropped

theorem Awaits.child?_eq (h : stage.Awaits child) : stage.child? = some child := by
  cases h <;> rfl

end Stage

namespace Launcher

theorem turn?_connecting (hat : l.calls[call]? = some (.connecting child deadline)) :
    l.turn? call around =
      if around.accepts then some { l.finish call (.ok ()) with slot := some child }
      else some (l.move call (.looking child deadline)) := by
  simp only [turn?, hat, Option.bind_eq_bind, Option.bind_some]

theorem turn?_looking (hat : l.calls[call]? = some (.looking child deadline)) :
    l.turn? call around = some (l.move call (l.look child deadline around)) := by
  simp only [turn?, hat, Option.bind_eq_bind, Option.bind_some]

theorem turn?_resting (hat : l.calls[call]? = some (.resting child deadline wake)) :
    l.turn? call around =
      if wake ≤ around.clock then some (l.move call (.connecting child deadline)) else none := by
  simp only [turn?, hat, Option.bind_eq_bind, Option.bind_some]

theorem turn?_discarding (hat : l.calls[call]? = some (.discarding child e)) :
    l.turn? call around = some ((l.kill child).finish call (.error e)) := by
  simp only [turn?, hat, Option.bind_eq_bind, Option.bind_some]

theorem turn?_over (hat : l.calls[call]? = some stage) (hover : stage.isOver = true) :
    l.turn? call around = none := by
  cases stage with
  | finished | dropped => simp only [turn?, hat, Option.bind_eq_bind, Option.bind_some]
  | starting | ending | replacing | stopping => cases hover
  | connecting | looking | resting | discarding => cases hover

/-- A process that is looked at and is dead is given up. -/
theorem look_dead (observes : around.observes = true) (dead : child ∉ l.alive) :
    l.look child deadline around = .discarding child (.exited (l.exitWords child)) := by
  have hdead : l.alive.contains child = false := by
    simpa using dead
  simp only [look, observes, hdead, Bool.not_true, Bool.not_false, Bool.false_eq_true, if_false,
    if_true]

end Launcher

/-- Whatever a turn does, it takes its own call to another stage, and no other. -/
theorem Acts.calls (ha : Acts l call stage l') : ∃ next, l'.calls = l.calls.set call next := by
  cases ha with
  | takes | launches | goesOn | fills | ends => exact ⟨_, rfl⟩

/-- Processes that were launched stay counted. -/
theorem Does.launched_le (hd : Does l label l') : l.launched ≤ l'.launched := by
  cases hd with
  | refuses | asks | drops | exits => exact Nat.le_refl _
  | acts around here ha =>
      cases ha with
      | launches => exact Nat.le_succ _
      | takes | goesOn | fills | ends => exact Nat.le_refl _

/-! ### A process that one call alone may put into the slot -/

/-- A process is not in the slot, and the only call that may have it is at some kind of stage. -/
structure Bound (call : CallId) (child : ProcessId) (kind : Stage → Prop) (l : Launcher) :
    Prop where
  here : ∃ stage, l.calls[call]? = some stage ∧ kind stage
  alone : ∀ {c : CallId} {t : Stage}, l.calls[c]? = some t → t.child? = some child → c = call
  old : child < l.launched
  slot : l.slot ≠ some child

namespace Bound

variable {kind : Stage → Prop} {launchers : List CallId}

/-- So it is of the process of a call that has launched one. -/
theorem of_known (hk : Known past launchers l) (ho : Owned l) (hat : l.calls[call]? = some stage)
    (has : stage.child? = some child) (hkind : kind stage) : Bound call child kind l where
  here := ⟨stage, hat, hkind⟩
  alone hc hd := by
    have hby := (hk.newest hc hd).2
    rw [(hk.newest hat has).2] at hby
    exact (Option.some.inj hby).symm
  old := (hk.newest hat has).1 ▸ Nat.lt_succ_self child
  slot := by
    rw [(ho.turn hat (Stage.of_child has).2.1).2]
    nofun

/-- A turn of another call leaves the process alone. -/
theorem act_other (h : Bound call child kind l) {other : CallId} (hne : other ≠ call)
    (hat : l.calls[other]? = some stage) (ha : Acts l other stage l') :
    Bound call child kind l' := by
  obtain ⟨s, hs, hkind⟩ := h.here
  have stays (next : Stage) : (l.calls.set other next)[call]? = some s :=
    (List.getElem?_set_ne hne).trans hs
  have alone {next : Stage} (hnext : next.child? ≠ some child) {c : CallId} {t : Stage}
      (hc : (l.calls.set other next)[c]? = some t) (hd : t.child? = some child) : c = call := by
    rcases set_cases hc with ⟨-, rfl⟩ | ⟨-, hc⟩
    · exact absurd hd hnext
    · exact h.alone hc hd
  have ended {result : Except LaunchError Unit} : (Stage.finished result).child? ≠ some child :=
    nofun
  cases ha with
  | @takes former next waits first full held noChild purpose =>
      have hnext : next.child? ≠ some child := noChild ▸ nofun
      exact ⟨⟨s, stays next, hkind⟩, alone hnext, h.old, nofun⟩
  | launches deadline turn noChild start =>
      -- What is launched gets a number that no process has had.
      have hnext : (Stage.connecting l.launched deadline).child? ≠ some child := fun hd =>
        Nat.ne_of_gt h.old (Option.some.inj hd)
      exact ⟨⟨s, stays _, hkind⟩, alone hnext, Nat.lt_succ_of_lt h.old, h.slot⟩
  | @goesOn own next had has lawful =>
      have hnext : next.child? ≠ some child := fun hd =>
        hne (h.alone hat (had.trans (has.symm.trans hd)))
      exact ⟨⟨s, stays next, hkind⟩, alone hnext, h.old, h.slot⟩
  | @fills own had =>
      have hown : some own ≠ some child := fun hd => hne (h.alone hat (had.trans hd))
      exact ⟨⟨s, stays _, hkind⟩, alone ended, h.old, hown⟩
  | ends turn stop lawful => exact ⟨⟨s, stays _, hkind⟩, alone ended, h.old, h.slot⟩

/-- A new call has no process yet. -/
theorem comes (h : Bound call child kind l) (next : Stage) (waits : next.hasSlot = false)
    (more : List CallId) :
    Bound call child kind { l with calls := l.calls ++ [next], line := l.line ++ more } where
  here := by
    obtain ⟨s, hat, hkind⟩ := h.here
    exact ⟨s, (List.getElem?_append_left (List.getElem?_eq_some_iff.1 hat).1).trans hat, hkind⟩
  alone hc hd := by
    rcases append_cases hc with hc | ⟨-, rfl⟩
    · exact h.alone hc hd
    · rw [(Stage.of_child hd).2.1] at waits
      cases waits
  old := h.old
  slot := h.slot

/-- A call is dropped, this one or another. -/
theorem dropped (h : Bound call child kind l) {other : CallId}
    (hat : l.calls[other]? = some stage) (hkind : kind .dropped) :
    Bound call child kind ((l.killAll stage.held).leave other .dropped) where
  here := by
    by_cases hne : other = call
    · subst hne
      exact ⟨.dropped, set_self hat .dropped, hkind⟩
    · obtain ⟨s, hs, hk⟩ := h.here
      exact ⟨s, (List.getElem?_set_ne hne).trans hs, hk⟩
  alone hc hd := by
    rcases set_cases hc with ⟨-, rfl⟩ | ⟨-, hc⟩
    · cases hd
    · exact h.alone hc hd
  old := h.old
  slot := h.slot

/-- **Only a turn of the call** can take it to a stage of another kind, or fill the slot with the
process. -/
theorem step (h : Bound call child kind l) (hs : l.step? label = some l') (hdrop : kind .dropped)
    (own : ∀ {around : Surroundings}, label = .turn call around →
      (∃ next, l'.calls[call]? = some next ∧ kind next) ∧ l'.slot ≠ some child) :
    Bound call child kind l' := by
  have hle := (does_of_step hs).launched_le
  cases does_of_step hs with
  | refuses config e =>
      have hc := h.comes (.finished (.error (.config e))) rfl []
      rwa [List.append_nil] at hc
  | asks made is waits => exact h.comes _ waits _
  | @acts other stage _ around here ha =>
      by_cases hne : other = call
      · subst hne
        obtain ⟨hhere, hslot⟩ := own rfl
        refine ⟨hhere, fun {c t} hc hd => ?_, Nat.lt_of_lt_of_le h.old hle, hslot⟩
        obtain ⟨next, hcalls⟩ := ha.calls
        rw [hcalls] at hc
        rcases set_cases hc with ⟨rfl, -⟩ | ⟨-, hc⟩
        · rfl
        · exact h.alone hc hd
      · exact h.act_other hne here ha
  | drops here => exact h.dropped here hdrop
  | exits process how => exact ⟨h.here, h.alone, h.old, h.slot⟩

end Bound

/-! ### Processes that are given up -/

/-- A process that its start has given up because of an error. -/
abbrev GaveUp (call : CallId) (child : ProcessId) (e : LaunchError) (l : Launcher) : Prop :=
  Bound call child (Stage.GivesUp child e) l

namespace GaveUp

/-- A call that has given its process up only kills it and fails. -/
theorem turn (h : GaveUp call child e l) (hs : l.turn? call around = some l') :
    (∃ next, l'.calls[call]? = some next ∧ next.GivesUp child e) ∧ l'.slot ≠ some child := by
  obtain ⟨stage, hat, hgives⟩ := h.here
  cases hgives with
  | discarding =>
      rw [turn?_discarding hat] at hs
      cases hs
      exact ⟨⟨_, set_self hat _, .finished⟩, h.slot⟩
  | finished | dropped =>
      rw [turn?_over hat rfl] at hs
      cases hs

theorem step (h : GaveUp call child e l) (hs : l.step? label = some l') :
    GaveUp call child e l' :=
  Bound.step h hs .dropped fun {around} hl => by
    subst hl
    exact h.turn hs

theorem run (h : GaveUp call child e l) {labels : List Label} (hr : l.run? labels = some l') :
    GaveUp call child e l' := by
  induction labels generalizing l with
  | nil => cases hr; exact h
  | cons label rest ih =>
      obtain ⟨m, hs, hr⟩ := Option.bind_eq_some_iff.1 hr
      exact ih (h.step hs) hr

end GaveUp

/-- A process is not in the slot, and if its call has a result, then this is an error. -/
structure Lost (call : CallId) (child : ProcessId) (e : LaunchError) (l : Launcher) : Prop where
  slot : l.slot ≠ some child
  told : ∀ {result : Except LaunchError Unit}, l.result? call = some result → result = .error e

theorem GaveUp.lost (h : GaveUp call child e l) : Lost call child e l where
  slot := h.slot
  told hr := by
    rw [result?_eq_some] at hr
    obtain ⟨stage, hat, hgives⟩ := h.here
    rw [hat] at hr
    cases hr
    cases hgives
    rfl

end TunnelKeeper.Proxy
