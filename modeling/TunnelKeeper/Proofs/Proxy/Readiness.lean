import TunnelKeeper.Proofs.Proxy.Mourning

/-!
# Readiness — what a start knows of its process

A start that waits for its process connects to the local address, looks at the process where nobody
answers, and rests.  It looks at nothing else: whoever answers, the start has gone well.  So what it
knows of its process is what it has seen at its last look.  A process that it finds dead is given
up, and from then on the start can only fail because of that.  But a process that dies after the
last look, or is never looked at, is not missed as long as somebody answers
(`answered_for_dead_process`).

* `Traced.step`: a process that a start goes on with is alive, or it is known how it has ended.
* `started_proxy_watched`: what a start knows of its process, in every run.
-/

namespace TunnelKeeper.Proxy

open Settings (ProxySettings)

open Launcher

variable {l l' : Launcher} {label : Label} {call : CallId} {stage : Stage} {around : Surroundings}
  {child : ProcessId} {e : LaunchError} {how : String} {past : List Label}
  {deadline wake : Instant}

/-! ### How a process can have died that a start goes on with -/

/-- Every process that a start goes on with is alive, or has ended by itself. -/
def Traced (past : List Label) (l : Launcher) : Prop :=
  ∀ {call : CallId} {stage : Stage} {child : ProcessId}, l.calls[call]? = some stage →
    stage.child? = some child → child ∈ l.alive ∨ .exit child (l.exitWords child) ∈ past

namespace Traced

theorem fresh (settings : ProxySettings) : Traced [] { settings } := fun h => nomatch h

/-- Only the call itself kills the process of a call that has the slot. -/
theorem killed (h : Traced past l) (ho : Owned l) (hat : l.calls[call]? = some stage)
    {c : CallId} {t : Stage} (hc : l.calls[c]? = some t) (hne : c ≠ call)
    (hd : t.child? = some child) :
    child ∈ (l.killAll stage.held).alive ∨ .exit child (l.exitWords child) ∈ past := by
  refine (h hc hd).imp_left fun hp => mem_killAll.2 ⟨hp, fun hm => hne ?_⟩
  -- Both calls hold a process, and so both are the first of the line.
  have hfirst := (ho.turn hat (Stage.hasSlot_of_mem_held hm)).1
  have hown := (ho.turn hc (Stage.of_child hd).2.1).1
  exact Option.some.inj (hown.symm.trans hfirst)

theorem step (h : Traced past l) (ho : Owned l) (hs : l.step? label = some l') :
    Traced (past ++ [label]) l' := by
  intro c t child hc hd
  have before {p : ProcessId} (hp : p ∈ l.alive ∨ .exit p (l.exitWords p) ∈ past) :
      p ∈ l.alive ∨ .exit p (l.exitWords p) ∈ past ++ [label] :=
    hp.imp_right (List.mem_append_left _)
  cases does_of_step hs with
  | refuses config e =>
      rcases append_cases hc with hc | ⟨-, rfl⟩
      · exact before (h hc hd)
      · cases hd
  | asks made is waits =>
      rcases append_cases hc with hc | ⟨-, rfl⟩
      · exact before (h hc hd)
      · rw [(Stage.of_child hd).2.1] at waits
        cases waits
  | acts around here ha =>
      cases ha with
      | takes waits first full held noChild purpose =>
          rcases set_cases hc with ⟨-, rfl⟩ | ⟨-, hc⟩
          · rw [noChild] at hd
            cases hd
          · exact before (h hc hd)
      | launches deadline turn noChild start =>
          rcases set_cases hc with ⟨-, rfl⟩ | ⟨hne, hc⟩
          · cases hd
            exact .inl List.mem_cons_self
          · exact (h.killed ho here hc hne hd).imp (List.mem_cons_of_mem _) (List.mem_append_left _)
      | goesOn had has lawful =>
          rcases set_cases hc with ⟨-, rfl⟩ | ⟨-, hc⟩
          · exact before (h here (had.trans (has.symm.trans hd)))
          · exact before (h hc hd)
      | fills had =>
          rcases set_cases hc with ⟨-, rfl⟩ | ⟨-, hc⟩
          · cases hd
          · exact before (h hc hd)
      | ends turn stop lawful =>
          rcases set_cases hc with ⟨-, rfl⟩ | ⟨hne, hc⟩
          · cases hd
          · exact (h.killed ho here hc hne hd).imp_right (List.mem_append_left _)
  | drops here =>
      rcases set_cases hc with ⟨-, rfl⟩ | ⟨hne, hc⟩
      · cases hd
      · exact (h.killed ho here hc hne hd).imp_right (List.mem_append_left _)
  | exits process how =>
      rw [exitWords_exits]
      by_cases hp : child = process
      · subst hp
        rw [if_pos rfl]
        exact .inr (List.mem_append_right _ List.mem_cons_self)
      · rw [if_neg hp]
        refine (before (h hc hd)).imp_left fun ha => List.mem_filter.2 ⟨ha, ?_⟩
        exact bne_iff_ne.2 hp

theorem run (h : Traced past l) (ho : Owned l) {labels : List Label}
    (hr : l.run? labels = some l') : Traced (past ++ labels) l' := by
  induction labels generalizing l past with
  | nil =>
      cases hr
      rwa [List.append_nil]
  | cons label rest ih =>
      obtain ⟨m, hs, hr⟩ := Option.bind_eq_some_iff.1 hr
      rw [List.append_cons]
      exact ih (h.step ho hs) (ho.step hs) hr

end Traced

/-! ### How a start goes well -/

namespace Ends

variable {result : Except LaunchError Unit}

/-- A result that is not a refusal is reached in a turn of the call. -/
theorem turned (h : Ends l label call l' result) (lawful : ∀ c, result ≠ .error (.config c)) :
    ∃ around, label = .turn call around := by
  have hnot := h.not_finished
  have hr := result?_eq_some.1 h.after
  cases does_of_step h.step with
  | refuses config c =>
      rcases append_cases hr with hc | ⟨-, he⟩
      · exact absurd hc hnot
      · cases he
        exact absurd rfl (lawful c)
  | @asks _ next purpose made is waits =>
      rcases append_cases hr with hc | ⟨-, rfl⟩
      · exact absurd hc hnot
      · cases is
  | acts around here ha =>
      obtain ⟨next, hcalls⟩ := ha.calls
      rw [hcalls] at hr
      rcases set_cases hr with ⟨rfl, -⟩ | ⟨-, hc⟩
      · exact ⟨around, rfl⟩
      · exact absurd hc hnot
  | drops here =>
      rcases set_cases hr with ⟨-, he⟩ | ⟨-, hc⟩
      · cases he
      · exact absurd hc hnot
  | exits process how => exact absurd hr hnot

/-- **A start goes well where somebody answers**, and then its process is put into the slot. -/
theorem answered {launchers : List CallId} (hk : Known past launchers l)
    (h : Ends l label call l' (.ok ()))
    (start : (purposes (past ++ [label]))[call]? = some .start) :
    ∃ child deadline around, label = .turn call around ∧ around.accepts = true ∧
      l.calls[call]? = some (.connecting child deadline) ∧
      l' = { l.finish call (.ok ()) with slot := some child } := by
  obtain ⟨around, rfl⟩ := h.turned nofun
  have hs : l.turn? call around = some l' := h.step
  have hr := result?_eq_some.1 h.after
  cases h.settles with
  | ended here turn stop lawful slot alive =>
      rw [hk.meant_after here (stop rfl)] at start
      cases start
  | @filled stage child here had slot alive launched =>
      have unmoved {next : Stage} (hnext : next.child? = some child)
          (hl : l' = l.move call next) : False := by
        subst hl
        rw [show (l.move call next).calls[call]? = some next from set_self here next] at hr
        cases hr
        cases hnext
      cases stage with
      | connecting own deadline =>
          cases had
          rw [turn?_connecting here] at hs
          split at hs
          case isTrue hacc =>
            cases hs
            exact ⟨child, deadline, around, rfl, hacc, here, rfl⟩
          case isFalse => exact (unmoved rfl (Option.some.inj hs).symm).elim
      | looking own deadline =>
          cases had
          rw [turn?_looking here] at hs
          exact (unmoved (look_lawful l child deadline around).1 (Option.some.inj hs).symm).elim
      | resting own deadline wake =>
          cases had
          rw [turn?_resting here] at hs
          split at hs
          · exact (unmoved rfl (Option.some.inj hs).symm).elim
          · cases hs
      | discarding own e =>
          rw [turn?_discarding here] at hs
          cases hs
          rw [show ((l.kill own).finish call (.error e)).calls[call]? = some (.finished (.error e))
            from set_self here _] at hr
          cases hr
      | starting | ending | replacing | stopping | finished | dropped => cases had

end Ends

/-- **What a start knows of its process** after a sequence of steps, and after one more. -/
structure Watched (settings : ProxySettings) (labels : List Label) (l : Launcher) : Prop where
  /-- A start that goes well has launched a process, somebody has answered at the address, and the
  process is in the slot.  It is alive, or it has ended by itself in the meantime. -/
  started : ∀ {label : Label} {call : CallId} {l' : Launcher}, Ends l label call l' (.ok ()) →
    (purposes (labels ++ [label]))[call]? = some .start →
      ∃ child deadline around, label = .turn call around ∧ around.accepts = true ∧
        l.calls[call]? = some (.connecting child deadline) ∧
        (Launcher.launchers { settings } labels)[child]? = some call ∧ l'.slot = some child ∧
        (child ∈ l'.alive ∨ .exit child (l'.exitWords child) ∈ labels)
  /-- Whoever answers, the start goes well, also where its process has ended. -/
  answered : ∀ {call : CallId} {child : ProcessId} {deadline : Instant} {around : Surroundings},
    l.calls[call]? = some (.connecting child deadline) → around.accepts = true →
      ∃ l', Ends l (.turn call around) call l' (.ok ()) ∧ l'.slot = some child ∧
        l'.alive = l.alive
  /-- Where the address answers for the process alone, the process is alive when a start goes
  well. -/
  lives : ∀ {label : Label} {call : CallId} {l' : Launcher}, Ends l label call l' (.ok ()) →
    (purposes (labels ++ [label]))[call]? = some .start → label.Undisputed l →
      ∃ child ∈ l'.alive, l'.slot = some child
  /-- A process that is found dead is never put into the slot, and its start fails for that and for
  nothing else, whatever happens from then on. -/
  found : ∀ {call : CallId} {child : ProcessId} {deadline : Instant} {around : Surroundings}
    {l' : Launcher}, l.calls[call]? = some (.looking child deadline) → child ∉ l.alive →
      around.observes = true → l.step? (.turn call around) = some l' →
        ∀ {more : List Label} {m : Launcher}, l'.run? more = some m →
          Lost call child (.exited (l.exitWords child)) m
  /-- Where the address answers for the process alone, so it is with a process that has ended at any
  time, from then on; -/
  told : ∀ {call : CallId} {stage : Stage} {child : ProcessId}, l.calls[call]? = some stage →
    stage.Awaits child → child ∉ l.alive →
      ∀ {more : List Label} {m : Launcher}, l.Undisputed more → l.run? more = some m →
        Lost call child (.exited (l.exitWords child)) m
  /-- and its start can go on to fail. -/
  fails : ∀ {call : CallId} {stage : Stage} {child : ProcessId}, l.calls[call]? = some stage →
    stage.Awaits child → child ∉ l.alive → Fails l call (.exited (l.exitWords child))

/-- **What a start knows of its process.**  However starts, stops, drops and exits interleave, and
whatever the program and the local address do: a start goes well exactly where somebody answers, and
its process is then alive, unless it has ended since it was last looked at and somebody else has
answered.  A process that is found dead is reported and never put into the slot. -/
theorem started_proxy_watched {settings : ProxySettings} {labels : List Label}
    (h : ({ settings } : Launcher).run? labels = some l) : Watched settings labels l := by
  have owned : Owned l := (Owned.fresh settings).run h
  have known : Known labels (Launcher.launchers { settings } labels) l :=
    (Known.fresh settings).run (Owned.fresh settings) h
  have traced : Traced labels l := Traced.run (Traced.fresh settings) (Owned.fresh settings) h
  have gone {call : CallId} {stage : Stage} {child : ProcessId} (hat : l.calls[call]? = some stage)
      (has : stage.child? = some child) (dead : child ∉ l.alive) :
      Gone child (l.exitWords child) l :=
    ⟨dead, (known.newest hat has).1 ▸ Nat.lt_succ_self child, rfl⟩
  refine ⟨?started, ?answered, ?lives, ?found, ?told, ?fails⟩
  case started =>
    intro label call l' ends start
    obtain ⟨child, deadline, around, rfl, hacc, hat, rfl⟩ := ends.answered known start
    exact ⟨child, deadline, around, rfl, hacc, hat, (known.newest hat rfl).2, rfl, traced hat rfl⟩
  case answered =>
    intro call child deadline around hat hacc
    refine ⟨{ l.finish call (.ok ()) with slot := some child }, ⟨?_, ?_, ?_⟩, rfl, rfl⟩
    · exact (turn?_connecting hat).trans (if_pos hacc)
    · simp only [result?, hat]
    · exact result?_eq_some.2 (set_self hat _)
  case lives =>
    intro label call l' ends start hu
    obtain ⟨child, deadline, around, rfl, hacc, hat, rfl⟩ := ends.answered known start
    exact ⟨child, hu.2 hat hacc, rfl⟩
  case found =>
    intro call child deadline around l' hat dead observes hs more m hr
    have hs : l.turn? call around = some l' := hs
    rw [turn?_looking hat, look_dead observes dead] at hs
    cases hs
    have bound : Bound call child (fun _ => True) l := .of_known known owned hat rfl trivial
    have given : GaveUp call child (.exited (l.exitWords child))
        (l.move call (.discarding child (.exited (l.exitWords child)))) := by
      refine ⟨⟨_, set_self hat _, .discarding⟩, fun {c t} hc hd => ?_, bound.old, bound.slot⟩
      rcases set_cases hc with ⟨rfl, -⟩ | ⟨-, hc⟩
      · rfl
      · exact bound.alone hc hd
    exact (given.run hr).lost
  case told =>
    intro call stage child hat waits dead more m hu hr
    have mourned : Mourned call child (l.exitWords child) l :=
      ⟨gone hat waits.child?_eq dead, .of_known known owned hat waits.child?_eq (.inl waits)⟩
    exact (mourned.run hu hr).lost
  case fails =>
    intro call stage child hat waits dead
    exact (gone hat waits.child?_eq dead).fails hat waits

/-- A start rests while its process ends. -/
def resting : List Label :=
  [.start reachableTunnel, .turn 0 {}, .turn 0 {}, .turn 0 {}, .exit 0 "exit status: 3"]

def rested : Launcher := (({ settings := {} } : Launcher).run? resting).get (by rfl)

/-- Nobody answers when it has rested, and so it looks again. -/
def lookingAgain : List Label :=
  [unanswered 0 restMs, unanswered 0 restMs, unanswered 0 restMs, unanswered 0 restMs]

def disappointed : Launcher := (rested.run? lookingAgain).get (by rfl)

/-- It is told how its process has ended; and the process of a start that goes well is alive. -/
theorem resting_start_told :
    Lost 0 0 (.exited "exit status: 3") disappointed ∧
      disappointed.result? 0 = some (.error (.exited "exit status: 3")) ∧
      Fails rested 0 (.exited "exit status: 3") ∧
      ∃ child ∈ settledDown.alive, settledDown.slot = some child := by
  have h : ({ settings := {} } : Launcher).run? resting = some rested := (Option.some_get _).symm
  have hr : rested.run? lookingAgain = some disappointed := (Option.some_get _).symm
  have hat : rested.calls[0]? = some (.resting 0 5000 restMs) := rfl
  have dead : 0 ∉ rested.alive := by decide
  have undisputed : rested.Undisputed lookingAgain :=
    ⟨⟨rfl, nofun⟩, fun _ => ⟨⟨rfl, nofun⟩, fun _ => ⟨⟨rfl, nofun⟩, fun _ => ⟨⟨rfl, nofun⟩,
      fun _ => trivial⟩⟩⟩⟩
  have hc : ({ settings := {} } : Launcher).run? contending = some contended :=
    (Option.some_get _).symm
  have hs : contended.step? (.turn 2 { accepts := true }) = some settledDown :=
    (Option.some_get _).symm
  have ends : Ends contended (.turn 2 { accepts := true }) 2 settledDown (.ok ()) := ⟨hs, rfl, rfl⟩
  have answers : (Label.turn 2 { accepts := true }).Undisputed contended := by
    refine ⟨rfl, fun {child deadline} hat _ => ?_⟩
    have hlaunched : contended.calls[2]? = some (.connecting 2 5000) := rfl
    rw [hlaunched] at hat
    cases hat
    decide
  exact ⟨(started_proxy_watched h).told hat (.resting 5000 restMs) dead undisputed hr, rfl,
    (started_proxy_watched h).fails hat (.resting 5000 restMs) dead,
    (started_proxy_watched hc).lives ends rfl answers⟩

/-- A process ends before its start has connected for the first time. -/
def overtaken : List Label := [.start reachableTunnel, .turn 0 {}, .exit 0 "exit status: 3"]

def bereft : Launcher := (({ settings := {} } : Launcher).run? overtaken).get (by rfl)

def deceived : Launcher := (bereft.step? (.turn 0 { accepts := true })).get (by rfl)

/-- **Where somebody else listens at the address, a start goes well with a dead process**, which is
put into the slot: it was never looked at. -/
theorem answered_for_dead_process :
    ({ settings := {} } : Launcher).run? overtaken = some bereft ∧ bereft.alive = [] ∧
      Ends bereft (.turn 0 { accepts := true }) 0 deceived (.ok ()) ∧
      deceived.slot = some 0 ∧ deceived.alive = [] := by
  have h : ({ settings := {} } : Launcher).run? overtaken = some bereft := (Option.some_get _).symm
  have hs : bereft.step? (.turn 0 { accepts := true }) = some deceived := (Option.some_get _).symm
  exact ⟨h, rfl, ⟨hs, rfl, rfl⟩, rfl, rfl⟩

end TunnelKeeper.Proxy
