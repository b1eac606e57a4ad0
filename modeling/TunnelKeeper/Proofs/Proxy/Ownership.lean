import TunnelKeeper.Proofs.Proxy.Launches

/-!
# Ownership — whose a process is when a call ends

A call that is over has given its process away, into the slot or to be killed, and how it has ended
tells which: a start that went well leaves its process in the slot, and whoever failed, was dropped
or stopped leaves none.

* `Ends.settles`: how a call comes to its end.
* `one_process_owned`: at most one process, and whose it is however a call comes to its end.
-/

namespace TunnelKeeper.Proxy

open Settings (ProxySettings)

open Launcher

variable {l l' : Launcher} {label : Label} {call : CallId} {stage : Stage} {around : Surroundings}

/-! ### How a call ends -/

/-- A step after which a call has a result. -/
structure Ends (l : Launcher) (label : Label) (call : CallId) (l' : Launcher)
    (result : Except LaunchError Unit) : Prop where
  step : l.step? label = some l'
  before : l.result? call = none
  after : l'.result? call = some result

/-- How it comes to have it. -/
inductive Settles (l : Launcher) (label : Label) (call : CallId) (l' : Launcher) :
    Except LaunchError Unit → Prop where
  /-- It is new and over at once. -/
  | refused (e : ConfigError) (new : call = l.calls.length) (made : label.purpose? = some .start)
      (slot : l'.slot = l.slot) (alive : l'.alive = l.alive) :
      Settles l label call l' (.error (.config e))
  /-- It puts the process it has launched into the slot. -/
  | filled {stage : Stage} {child : ProcessId} (here : l.calls[call]? = some stage)
      (had : stage.child? = some child) (slot : l'.slot = some child) (alive : l'.alive = l.alive)
      (launched : l'.launched = l.launched) :
      Settles l label call l' (.ok ())
  /-- It has the turn and kills what it holds. -/
  | ended {stage : Stage} {result : Except LaunchError Unit} (here : l.calls[call]? = some stage)
      (turn : stage.hasSlot = false → l.HasTurn call)
      (stop : result = .ok () → stage.purpose? = some .stop)
      (lawful : ∀ e, result = .error (.config e) → ∃ child, stage = .discarding child (.config e))
      (slot : l'.slot = l.slot) (alive : l'.alive = (l.killAll stage.held).alive) :
      Settles l label call l' result

theorem result?_eq_some {result : Except LaunchError Unit} :
    l.result? call = some result ↔ l.calls[call]? = some (.finished result) := by
  unfold result?
  split
  case h_1 r h => rw [h]; simp
  case h_2 hn => exact ⟨nofun, fun h => absurd h (hn result)⟩

/-- Of what a turn can do, filling the slot and ending after a kill give a result. -/
theorem settles_of_acts {c : CallId} {result : Except LaunchError Unit}
    (here : l.calls[c]? = some stage) (ha : Acts l c stage l')
    (before : l.calls[call]? ≠ some (.finished result))
    (after : l'.calls[call]? = some (.finished result)) : Settles l label call l' result := by
  cases ha with
  | takes waits first full held noChild purpose =>
      rcases set_cases after with ⟨-, rfl⟩ | ⟨-, hc⟩
      · cases held
      · exact absurd hc before
  | launches deadline turn noChild start =>
      rcases set_cases after with ⟨-, he⟩ | ⟨-, hc⟩
      · cases he
      · exact absurd hc before
  | goesOn had has lawful =>
      rcases set_cases after with ⟨-, rfl⟩ | ⟨-, hc⟩
      · cases has
      · exact absurd hc before
  | fills had =>
      rcases set_cases after with ⟨rfl, he⟩ | ⟨-, hc⟩
      · cases he
        exact .filled here had rfl rfl rfl
      · exact absurd hc before
  | ends turn stop lawful =>
      rcases set_cases after with ⟨rfl, he⟩ | ⟨-, hc⟩
      · cases he
        exact .ended here turn stop lawful rfl rfl
      · exact absurd hc before

namespace Ends

variable {past : List Label} {launchers : List CallId} {result : Except LaunchError Unit}
  {e : LaunchError} {c : ConfigError}

theorem not_finished (h : Ends l label call l' result) :
    l.calls[call]? ≠ some (.finished result) := by
  intro hc
  have hn := h.before
  rw [result?_eq_some.2 hc] at hn
  cases hn

theorem settles (h : Ends l label call l' result) : Settles l label call l' result := by
  have hnot := h.not_finished
  have hr := result?_eq_some.1 h.after
  cases does_of_step h.step with
  | refuses config e =>
      rcases append_cases hr with hc | ⟨rfl, he⟩
      · exact absurd hc hnot
      · cases he
        exact .refused e rfl rfl rfl rfl
  | @asks _ next purpose made is waits =>
      rcases append_cases hr with hc | ⟨-, rfl⟩
      · exact absurd hc hnot
      · cases is
  | acts around here ha => exact settles_of_acts here ha hnot hr
  | drops here =>
      rcases set_cases hr with ⟨-, he⟩ | ⟨-, hc⟩
      · cases he
      · exact absurd hc hnot
  | exits process how => exact absurd hr hnot

theorem started (ho : Owned l) (hk : Known past launchers l) (h : Ends l label call l' (.ok ()))
    (start : (purposes (past ++ [label]))[call]? = some .start) :
    ∃ child, l'.slot = some child ∧ launchers[child]? = some call ∧ child + 1 = l'.launched ∧
      ∀ p ∈ l'.alive, p = child := by
  cases h.settles with
  | @filled stage child here had slot alive launched =>
      obtain ⟨hheld, hslot, -⟩ := Stage.of_child had
      obtain ⟨hnew, hby⟩ := hk.newest here had
      refine ⟨child, slot, hby, hnew.trans launched.symm, fun p hp => ?_⟩
      have hm : p ∈ stage.held := ho.held here (ho.turn here hslot) (alive ▸ hp)
      rw [hheld] at hm
      exact List.mem_singleton.1 hm
  | ended here turn stop lawful slot alive =>
      rw [hk.meant_after here (stop rfl)] at start
      cases start

theorem failed (ho : Owned l) (h : Ends l label call l' (.error e)) (hc : ∀ c, e ≠ .config c) :
    l'.HasNone := by
  cases h.settles with
  | refused c => exact absurd rfl (hc c)
  | ended here turn stop lawful slot alive =>
      have hturn := ho.hasTurn here turn
      exact ⟨slot.trans hturn.2, alive.trans (ho.none_left here hturn)⟩

theorem refused (hk : Known past launchers l)
    (h : Ends l label call l' (.error (.config c))) :
    l'.slot = l.slot ∧ l'.alive = l.alive := by
  cases h.settles with
  | refused _ new made slot alive => exact ⟨slot, alive⟩
  | ended here turn stop lawful slot alive =>
      obtain ⟨child, rfl⟩ := lawful c rfl
      exact absurd here hk.lawful

theorem stopped (ho : Owned l) (hk : Known past launchers l) (h : Ends l label call l' result)
    (stop : (purposes (past ++ [label]))[call]? = some .stop) : l'.HasNone := by
  cases h.settles with
  | refused e new made slot alive =>
      rw [purposes_made made, new, hk.counted, List.getElem?_concat_length] at stop
      cases stop
  | filled here had slot alive launched =>
      rw [hk.meant_after here (Stage.of_child had).2.2] at stop
      cases stop
  | ended here turn _ lawful slot alive =>
      have hturn := ho.hasTurn here turn
      exact ⟨slot.trans hturn.2, alive.trans (ho.none_left here hturn)⟩

end Ends

theorem dropped_none (ho : Owned l) (hs : l.step? (.drop call) = some l')
    (hat : l.calls[call]? = some stage) (hslot : stage.hasSlot = true) : l'.HasNone := by
  cases does_of_step hs with
  | drops here =>
      cases hat.symm.trans here
      exact ⟨(ho.turn hat hslot).2, ho.none_left hat (ho.turn hat hslot)⟩
  | asks made is waits => cases made

/-- **Whose the process is** after a sequence of steps, and after one more that ends a call. -/
structure OneOwned (settings : ProxySettings) (labels : List Label) (l : Launcher) : Prop where
  /-- There is at most one process. -/
  one : l.alive.length ≤ 1
  /-- While no call is in progress, it is the one in the slot. -/
  idle : (∀ stage ∈ l.calls, stage.isOver = true) → ∀ p ∈ l.alive, l.slot = some p
  /-- A start that went well leaves the process it has launched in the slot, which is the newest,
  and every former one is dead. -/
  started : ∀ {label : Label} {call : CallId} {l' : Launcher}, Ends l label call l' (.ok ()) →
    (purposes (labels ++ [label]))[call]? = some .start →
      ∃ child, l'.slot = some child ∧
        (Launcher.launchers { settings } labels)[child]? = some call ∧
        child + 1 = l'.launched ∧ ∀ p ∈ l'.alive, p = child
  /-- A start that has failed leaves the slot empty and no process, -/
  failed : ∀ {label : Label} {call : CallId} {l' : Launcher} {e : LaunchError},
    Ends l label call l' (.error e) → (∀ c, e ≠ .config c) → l'.HasNone
  /-- unless it was refused, which changes nothing. -/
  refused : ∀ {label : Label} {call : CallId} {l' : Launcher} {c : ConfigError},
    Ends l label call l' (.error (.config c)) → l'.slot = l.slot ∧ l'.alive = l.alive
  /-- So does a stop, -/
  stopped : ∀ {label : Label} {call : CallId} {l' : Launcher} {result : Except LaunchError Unit},
    Ends l label call l' result → (purposes (labels ++ [label]))[call]? = some .stop → l'.HasNone
  /-- and a call that is dropped once it has the slot, whatever it is at. -/
  dropped : ∀ {call : CallId} {stage : Stage} {l' : Launcher}, l.step? (.drop call) = some l' →
    l.calls[call]? = some stage → stage.hasSlot = true → l'.HasNone

/-- **One process, and it is owned.**  However starts, stops, drops and exits interleave, and
whatever the program and the local address do: there is at most one process, and between the calls
it is the one in the slot; and how a call ends tells whether its process is in the slot or dead. -/
theorem one_process_owned {settings : ProxySettings} {labels : List Label}
    (h : ({ settings } : Launcher).run? labels = some l) : OneOwned settings labels l := by
  have owned : Owned l := (Owned.fresh settings).run h
  have known : Known labels (Launcher.launchers { settings } labels) l :=
    (Known.fresh settings).run (Owned.fresh settings) h
  exact {
    one := owned.one
    idle := fun isOver p hp => owned.in_slot_of_over isOver hp
    started := fun ends start => ends.started owned known start
    failed := fun ends hc => ends.failed owned hc
    refused := fun ends => ends.refused known
    stopped := fun ends stop => ends.stopped owned known stop
    dropped := fun hs hat hslot => dropped_none owned hs hat hslot }

def reachableTunnel : TunnelConfig :=
  ⟨[("host", .text "h"), ("password", .text "p"), ("port", Settings.naturalJson 443)]⟩

/-- A start goes well.  A second one kills its process and is dropped while its own comes up; a
third one has waited behind it, and launches one more. -/
def contending : List Label :=
  [.start reachableTunnel, .turn 0 {}, .turn 0 { accepts := true }, .start reachableTunnel,
    .start reachableTunnel, .turn 1 {}, .turn 1 {}, .turn 1 {}, .turn 1 {}, .drop 1, .turn 2 {}]

def contended : Launcher := (({ settings := {} } : Launcher).run? contending).get (by rfl)

def settledDown : Launcher :=
  (contended.step? (.turn 2 { accepts := true })).get (by rfl)

/-- In the end there is the third process alone, and it is the third start's. -/
theorem contended_proxy_owned :
    contended.alive.length ≤ 1 ∧ settledDown.alive = [2] ∧
      ∃ child, settledDown.slot = some child ∧
        (Launcher.launchers { settings := {} } contending)[child]? = some 2 ∧
        child + 1 = settledDown.launched ∧ ∀ p ∈ settledDown.alive, p = child := by
  have h : ({ settings := {} } : Launcher).run? contending = some contended :=
    (Option.some_get _).symm
  have hs : contended.step? (.turn 2 { accepts := true }) = some settledDown :=
    (Option.some_get _).symm
  have ends : Ends contended (.turn 2 { accepts := true }) 2 settledDown (.ok ()) := ⟨hs, rfl, rfl⟩
  exact ⟨(one_process_owned h).one, rfl, (one_process_owned h).started ends rfl⟩

end TunnelKeeper.Proxy
