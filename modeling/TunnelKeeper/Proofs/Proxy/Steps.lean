import TunnelKeeper.Proxy.Launcher

/-!
# Steps of a launcher — what they do with the slot and the processes

A step makes a call, drops one, ends a process from outside, or is a turn of a call; and of a turn
only five things matter to the processes (`Acts`).  A call takes the process out of the slot; it
kills what it holds and launches the program; it goes on with what it has launched, puts it into the
slot, or kills what it holds and ends.  Which of them a stage allows is told by a few of its traits:
whether the call has the slot, what it is to do, and which process it has launched.

* `acts_of_turn`, `does_of_step`: nothing else can happen.
* `purposes`: what the calls are to do, in the order of calling.
-/

namespace TunnelKeeper.Proxy

/-! ### Calls by what they are to do -/

/-- What a call is to do. -/
inductive Purpose where
  | start
  | stop
deriving DecidableEq

/-- What the call that a label makes is to do. -/
def Label.purpose? : Label → Option Purpose
  | .start _ => some .start
  | .stop => some .stop
  | _ => none

/-- What the calls of a sequence of steps are to do, each under its number. -/
def purposes (labels : List Label) : List Purpose := labels.filterMap Label.purpose?

theorem purposes_append (labels more : List Label) :
    purposes (labels ++ more) = purposes labels ++ purposes more :=
  List.filterMap_append

variable {labels : List Label} {label : Label}

theorem purposes_made {purpose : Purpose} (h : label.purpose? = some purpose) :
    purposes (labels ++ [label]) = purposes labels ++ [purpose] := by
  rw [purposes_append, purposes, purposes, List.filterMap_cons_some h]
  rfl

theorem purposes_quiet (h : label.purpose? = none) :
    purposes (labels ++ [label]) = purposes labels := by
  rw [purposes_append, purposes, purposes, List.filterMap_cons_none h]
  exact List.append_nil _

namespace Stage

/-- Whether a call has had its turn on the slot and is not over. -/
def hasSlot : Stage → Bool
  | starting _ => false
  | ending => false
  | finished _ => false
  | dropped => false
  | _ => true

/-- What a call is to do, as long as it is not over. -/
def purpose? : Stage → Option Purpose
  | ending => some .stop
  | stopping _ => some .stop
  | finished _ => none
  | dropped => none
  | _ => some .start

/-- The process that a start has launched. -/
def child? : Stage → Option ProcessId
  | connecting child _ => some child
  | looking child _ => some child
  | resting child _ _ => some child
  | discarding child _ => some child
  | _ => none

variable {stage : Stage} {child p : ProcessId}

theorem held_of_not_hasSlot (h : stage.hasSlot = false) : stage.held = [] := by
  cases stage with
  | starting | ending | finished | dropped => rfl
  | replacing | stopping | connecting | looking | resting | discarding => cases h

theorem hasSlot_of_mem_held (h : p ∈ stage.held) : stage.hasSlot = true := by
  cases hs : stage.hasSlot with
  | true => rfl
  | false => rw [held_of_not_hasSlot hs] at h; cases h

theorem not_hasSlot_of_isOver (h : stage.isOver = true) : stage.hasSlot = false := by
  cases stage with
  | finished | dropped => rfl
  | starting | ending | replacing | stopping => cases h
  | connecting | looking | resting | discarding => cases h

/-- A call with a process of its own is a start that has had its turn. -/
theorem of_child (h : stage.child? = some child) :
    stage.held = [child] ∧ stage.hasSlot = true ∧ stage.purpose? = some .start := by
  cases stage with
  | connecting | looking | resting | discarding => cases h; exact ⟨rfl, rfl, rfl⟩
  | starting | ending | replacing | stopping | finished | dropped => cases h

end Stage

/-! ### What a step can do -/

namespace Launcher

/-- Several processes end at the hand of the launcher. -/
def killAll (l : Launcher) (processes : List ProcessId) : Launcher :=
  { l with alive := l.alive.filter (!processes.contains ·) }

theorem killAll_nil (l : Launcher) : l.killAll [] = l := by
  have halive : l.alive.filter (!([] : List ProcessId).contains ·) = l.alive :=
    List.filter_eq_self.2 fun _ _ => rfl
  rw [killAll, halive]

theorem foldl_kill (processes : List ProcessId) :
    ∀ l : Launcher, processes.foldl kill l = l.killAll processes := by
  induction processes with
  | nil => intro l; exact (killAll_nil l).symm
  | cons p rest ih =>
      intro l
      rw [List.foldl_cons, ih]
      simp only [killAll, kill, List.filter_filter, List.contains_cons, Bool.not_or, bne,
        Bool.and_comm]

theorem killAll_singleton (l : Launcher) (p : ProcessId) : l.killAll [p] = l.kill p :=
  (foldl_kill [p] l).symm

theorem mem_killAll {l : Launcher} {processes : List ProcessId} {p : ProcessId} :
    p ∈ (l.killAll processes).alive ↔ p ∈ l.alive ∧ p ∉ processes := by
  simp [killAll]

/-- The slot is empty and no process is alive. -/
def HasNone (l : Launcher) : Prop := l.slot = none ∧ l.alive = []

/-- A call is the first of the line and the slot is empty. -/
def HasTurn (l : Launcher) (call : CallId) : Prop := l.line.head? = some call ∧ l.slot = none

end Launcher

open Launcher

/-- What a turn of a call can do, by what it is at. -/
inductive Acts (l : Launcher) (call : CallId) (stage : Stage) : Launcher → Prop where
  /-- It has its turn and takes the process out of the slot. -/
  | takes {former : ProcessId} {next : Stage} (waits : stage.hasSlot = false)
      (first : l.line.head? = some call) (full : l.slot = some former) (held : next.held = [former])
      (noChild : next.child? = none) (purpose : next.purpose? = stage.purpose?) :
      Acts l call stage { l.move call next with slot := none }
  /-- It kills what it holds and launches the program. -/
  | launches (deadline : Instant) (turn : stage.hasSlot = false → l.HasTurn call)
      (noChild : stage.child? = none) (start : stage.purpose? = some .start) :
      Acts l call stage
        { (l.killAll stage.held).move call (.connecting l.launched deadline) with
          alive := l.launched :: (l.killAll stage.held).alive, launched := l.launched + 1 }
  /-- It goes on with the process it has launched. -/
  | goesOn {child : ProcessId} {next : Stage} (had : stage.child? = some child)
      (has : next.child? = some child) (lawful : ∀ e, next ≠ .discarding child (.config e)) :
      Acts l call stage (l.move call next)
  /-- It puts the process it has launched into the slot. -/
  | fills {child : ProcessId} (had : stage.child? = some child) :
      Acts l call stage { l.finish call (.ok ()) with slot := some child }
  /-- It kills what it holds and ends. -/
  | ends {result : Except LaunchError Unit} (turn : stage.hasSlot = false → l.HasTurn call)
      (stop : result = .ok () → stage.purpose? = some .stop)
      (lawful : ∀ e, result = .error (.config e) → ∃ child, stage = .discarding child (.config e)) :
      Acts l call stage ((l.killAll stage.held).finish call result)

/-- What a step can do. -/
inductive Does (l : Launcher) : Label → Launcher → Prop where
  /-- A start is over before it asks for the slot. -/
  | refuses (config : TunnelConfig) (e : ConfigError) :
      Does l (.start config) { l with calls := l.calls ++ [.finished (.error (.config e))] }
  | asks {label : Label} {stage : Stage} {purpose : Purpose} (made : label.purpose? = some purpose)
      (is : stage.purpose? = some purpose) (waits : stage.hasSlot = false) :
      Does l label (l.enter stage)
  | acts {call : CallId} {stage : Stage} {l' : Launcher} (around : Surroundings)
      (here : l.calls[call]? = some stage) (h : Acts l call stage l') :
      Does l (.turn call around) l'
  | drops {call : CallId} {stage : Stage} (here : l.calls[call]? = some stage) :
      Does l (.drop call) ((l.killAll stage.held).leave call .dropped)
  | exits (process : ProcessId) (how : String) :
      Does l (.exit process how) { l.kill process with exits := (process, how) :: l.exits }

variable {l l' : Launcher} {call : CallId} {stage : Stage} {around : Surroundings}

theorem acts_launch (stage : Stage) (turn : stage.hasSlot = false → l.HasTurn call)
    (noChild : stage.child? = none) (start : stage.purpose? = some .start) :
    Acts l call stage ((l.killAll stage.held).launch call around) := by
  unfold launch
  split
  · exact .launches _ turn noChild start
  · exact .ends turn nofun nofun

/-- What a look decides is never said of a tunnel's settings. -/
theorem look_lawful (l : Launcher) (child : ProcessId) (deadline : Instant)
    (around : Surroundings) :
    (l.look child deadline around).child? = some child ∧
      ∀ e, l.look child deadline around ≠ .discarding child (.config e) := by
  unfold look
  split
  · exact ⟨rfl, nofun⟩
  · split
    · exact ⟨rfl, nofun⟩
    · split
      · exact ⟨rfl, nofun⟩
      · exact ⟨rfl, nofun⟩

/-- **What a turn does.** -/
theorem acts_of_turn (hat : l.calls[call]? = some stage) (h : l.turn? call around = some l') :
    Acts l call stage l' := by
  simp only [turn?, hat, Option.bind_eq_bind, Option.bind_some] at h
  cases stage with
  | starting args =>
      dsimp only at h
      split at h
      case isFalse => cases h
      case isTrue hf =>
        split at h
        case h_1 former hs =>
          cases h
          exact .takes rfl (eq_of_beq hf) hs rfl rfl rfl
        case h_2 hs =>
          cases h
          have ha : Acts l call (.starting args) ((l.killAll []).launch call around) :=
            acts_launch (.starting args) (fun _ => ⟨eq_of_beq hf, hs⟩) rfl rfl
          rwa [killAll_nil] at ha
  | ending =>
      dsimp only at h
      split at h
      case isFalse => cases h
      case isTrue hf =>
        split at h
        case h_1 former hs =>
          cases h
          exact .takes rfl (eq_of_beq hf) hs rfl rfl rfl
        case h_2 hs =>
          cases h
          have ha : Acts l call .ending ((l.killAll []).finish call (.ok ())) :=
            .ends (fun _ => ⟨eq_of_beq hf, hs⟩) (fun _ => rfl) nofun
          rwa [killAll_nil] at ha
  | replacing former args =>
      cases h
      rw [← killAll_singleton]
      exact acts_launch (.replacing former args) nofun rfl rfl
  | stopping former =>
      cases h
      rw [← killAll_singleton]
      show Acts l call _ ((l.killAll (Stage.stopping former).held).finish call _)
      exact .ends nofun (fun _ => rfl) nofun
  | connecting child deadline =>
      dsimp only at h
      split at h
      · cases h; exact .fills rfl
      · cases h; exact .goesOn rfl rfl nofun
  | looking child deadline =>
      cases h
      have hlook := look_lawful l child deadline around
      exact .goesOn rfl hlook.1 hlook.2
  | resting child deadline wake =>
      dsimp only at h
      split at h
      · cases h; exact .goesOn rfl rfl nofun
      · cases h
  | discarding child e =>
      cases h
      rw [← killAll_singleton]
      show Acts l call _ ((l.killAll (Stage.discarding child e).held).finish call _)
      refine .ends nofun nofun fun _ he => ?_
      cases he
      exact ⟨child, rfl⟩
  | finished => cases h
  | dropped => cases h

/-- **What a step does.** -/
theorem does_of_step (h : l.step? label = some l') : Does l label l' := by
  cases label with
  | start config =>
      simp only [step?] at h
      split at h
      · cases h; exact .refuses config _
      · cases h; exact .asks rfl rfl rfl
  | stop => cases h; exact .asks rfl rfl rfl
  | turn call around =>
      cases hat : l.calls[call]? with
      | none => simp [step?, turn?, hat] at h
      | some stage => exact .acts around hat (acts_of_turn hat h)
  | drop call =>
      simp only [step?, drop?] at h
      cases hat : l.calls[call]? with
      | none => simp [hat] at h
      | some stage =>
          simp only [hat, Option.bind_eq_bind, Option.bind_some, foldl_kill] at h
          split at h
          · cases h; exact .drops hat
          · cases h
  | exit process how =>
      simp only [step?] at h
      split at h
      · cases h; exact .exits process how
      · cases h

/-! ### Calls and the line -/

/-- What a call is at after one of them has gone on. -/
theorem set_cases {calls : List Stage} {c : CallId} {next t : Stage}
    (h : (calls.set call next)[c]? = some t) :
    (c = call ∧ t = next) ∨ (c ≠ call ∧ calls[c]? = some t) := by
  by_cases hc : c = call
  · subst hc
    rw [List.getElem?_set_self'] at h
    obtain ⟨s, -, rfl⟩ := Option.map_eq_some_iff.1 h
    exact .inl ⟨rfl, rfl⟩
  · rw [List.getElem?_set_ne (Ne.symm hc)] at h
    exact .inr ⟨hc, h⟩

theorem set_self {calls : List Stage} (h : calls[call]? = some stage) (next : Stage) :
    (calls.set call next)[call]? = some next :=
  List.getElem?_set_self (List.getElem?_eq_some_iff.1 h).1

/-- What a call is at after another one was made. -/
theorem append_cases {calls : List Stage} {c : CallId} {next t : Stage}
    (h : (calls ++ [next])[c]? = some t) : calls[c]? = some t ∨ (c = calls.length ∧ t = next) := by
  rcases Nat.lt_trichotomy c calls.length with hlt | rfl | hgt
  · rw [List.getElem?_append_left hlt] at h
    exact .inl h
  · rw [List.getElem?_concat_length] at h
    exact .inr ⟨rfl, (Option.some.inj h).symm⟩
  · rw [List.getElem?_eq_none (by rw [List.length_append]; exact hgt)] at h
    cases h

theorem head?_append {line : List CallId} (h : line.head? = some call) (more : List CallId) :
    (line ++ more).head? = some call := by
  cases line with
  | nil => cases h
  | cons first rest => exact h

theorem head?_filter {line : List CallId} {other : CallId} (h : line.head? = some call)
    (hne : call ≠ other) : (line.filter (· != other)).head? = some call := by
  cases line with
  | nil => cases h
  | cons first rest =>
      cases h
      have hf : (call != other) = true := bne_iff_ne.2 hne
      rw [List.filter_cons, if_pos hf]
      rfl

end TunnelKeeper.Proxy
