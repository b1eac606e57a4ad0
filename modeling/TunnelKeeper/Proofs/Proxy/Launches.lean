import TunnelKeeper.Proofs.Proxy.Owners

/-!
# Launches — which call a process was launched by

Processes are numbered in the order of launching, and `Launcher.launchers` tells which calls they
were launched by.  What the calls were made for and what they have launched can be told from the
steps alone (`Known`), and the launcher keeps to it.

* `Known.act`, `Known.comes`: what a call does, and that another one comes.
* `Known.step`, `Known.run`: what is known after every step, and after every sequence of steps.
-/

namespace TunnelKeeper.Proxy

open Settings (ProxySettings)

open Launcher

variable {l l' : Launcher} {label : Label} {call : CallId} {stage : Stage} {around : Surroundings}

/-! ### The calls that launched -/

namespace Launcher

/-- The call that a step launches a process for. -/
def launcher? (l l' : Launcher) : Label → Option CallId
  | .turn call _ => if l.launched < l'.launched then some call else none
  | _ => none

/-- The calls that launch a process in a sequence of steps, in order. -/
def launchers (l : Launcher) : List Label → List CallId
  | [] => []
  | label :: rest =>
    match l.step? label with
    | none => []
    | some l' => (l.launcher? l' label).toList ++ l'.launchers rest

end Launcher

theorem launcher?_same (h : l'.launched = l.launched) : (l.launcher? l' label).toList = [] := by
  have hlt : ¬l.launched < l'.launched := h ▸ Nat.lt_irrefl l.launched
  cases label with
  | turn call around => rw [launcher?, if_neg hlt]; rfl
  | start | stop | drop | exit => rfl

/-- What is known of the calls and the processes of a launcher after a sequence of steps. -/
structure Known (labels : List Label) (launchers : List CallId) (l : Launcher) : Prop where
  counted : l.calls.length = (purposes labels).length
  meant : ∀ {call : CallId} {stage : Stage} {purpose : Purpose}, l.calls[call]? = some stage →
    stage.purpose? = some purpose → (purposes labels)[call]? = some purpose
  numbered : launchers.length = l.launched
  /-- A start that goes on has launched the newest process. -/
  newest : ∀ {call : CallId} {stage : Stage} {child : ProcessId}, l.calls[call]? = some stage →
    stage.child? = some child → child + 1 = l.launched ∧ launchers[child]? = some call
  /-- No process is given up because of a tunnel's settings. -/
  lawful : ∀ {call : CallId} {child : ProcessId} {e : ConfigError},
    l.calls[call]? ≠ some (.discarding child (.config e))

namespace Known

variable {past : List Label} {launchers : List CallId}

theorem fresh (settings : ProxySettings) : Known [] [] { settings } where
  counted := rfl
  meant h := nomatch h
  numbered := rfl
  newest h := nomatch h
  lawful := nofun

/-- What a call is to do does not change with what comes after it. -/
theorem meant_after (h : Known past launchers l) (hat : l.calls[call]? = some stage)
    {purpose : Purpose} (hp : stage.purpose? = some purpose) :
    (purposes (past ++ [label]))[call]? = some purpose := by
  have hm := h.meant hat hp
  rw [purposes_append, List.getElem?_append_left (List.getElem?_eq_some_iff.1 hm).1]
  exact hm

theorem unlaunched {labels : List Label} (same : l'.launched = l.launched)
    (h : Known labels launchers l') :
    Known labels (launchers ++ (l.launcher? l' label).toList) l' := by
  rw [launcher?_same same, List.append_nil]
  exact h

/-- A step that makes no call and takes one call to another stage of what it is about, as far as its
processes are right. -/
theorem moved (h : Known past launchers l) (quiet : label.purpose? = none)
    (hat : l.calls[call]? = some stage) (next : Stage)
    (purpose : ∀ {p}, next.purpose? = some p → stage.purpose? = some p)
    (lawful : ∀ {c e}, next ≠ .discarding c (.config e))
    (calls : l'.calls = l.calls.set call next) {launchers' : List CallId}
    (numbered : launchers'.length = l'.launched)
    (newest : ∀ {c : CallId} {t : Stage} {child : ProcessId},
      (l.calls.set call next)[c]? = some t → t.child? = some child →
        child + 1 = l'.launched ∧ launchers'[child]? = some c) :
    Known (past ++ [label]) launchers' l' where
  counted := by
    rw [calls, List.length_set, purposes_quiet quiet]
    exact h.counted
  meant hc hp := by
    rw [purposes_quiet quiet]
    rw [calls] at hc
    rcases set_cases hc with ⟨rfl, rfl⟩ | ⟨-, hc⟩
    · exact h.meant hat (purpose hp)
    · exact h.meant hc hp
  numbered := numbered
  newest hc hd := newest (calls ▸ hc) hd
  lawful hc := by
    rw [calls] at hc
    rcases set_cases hc with ⟨-, hd⟩ | ⟨-, hc⟩
    · exact lawful hd.symm
    · exact h.lawful hc

/-- A call goes on with what it has. -/
theorem goes (h : Known past launchers l) (quiet : label.purpose? = none)
    (hat : l.calls[call]? = some stage) (next : Stage)
    (purpose : ∀ {p}, next.purpose? = some p → stage.purpose? = some p)
    (child : ∀ {c}, next.child? = some c → stage.child? = some c)
    (lawful : ∀ {c e}, next ≠ .discarding c (.config e))
    (calls : l'.calls = l.calls.set call next) (launched : l'.launched = l.launched) :
    Known (past ++ [label]) launchers l' := by
  refine h.moved quiet hat next purpose lawful calls (h.numbered.trans launched.symm)
    fun hc hd => ?_
  rw [launched]
  rcases set_cases hc with ⟨rfl, rfl⟩ | ⟨-, hc⟩
  · exact h.newest hat (child hd)
  · exact h.newest hc hd

/-- A start launches the next process, and no other start has one. -/
theorem launches (h : Known past launchers l) (ho : Owned l) (quiet : label.purpose? = none)
    (hat : l.calls[call]? = some stage) (turn : l.HasTurn call)
    (start : stage.purpose? = some .start) {deadline : Instant}
    (calls : l'.calls = l.calls.set call (.connecting l.launched deadline))
    (launched : l'.launched = l.launched + 1) :
    Known (past ++ [label]) (launchers ++ [call]) l' := by
  refine h.moved quiet hat (.connecting l.launched deadline) (fun hp => ?_) nofun calls ?_
    fun hc hd => ?_
  · rw [start, ← hp]
    rfl
  · rw [List.length_append, h.numbered, launched]
    rfl
  · rcases set_cases hc with ⟨rfl, rfl⟩ | ⟨hne, hc⟩
    · cases hd
      refine ⟨launched.symm, ?_⟩
      rw [← h.numbered]
      exact List.getElem?_concat_length
    · have hs := ho.others turn.1 hc hne
      rw [(Stage.of_child hd).2.1] at hs
      cases hs

/-- A new call. -/
theorem comes (h : Known past launchers l) {purpose : Purpose} (next : Stage)
    (made : label.purpose? = some purpose)
    (is : ∀ {p}, next.purpose? = some p → p = purpose) (waits : next.hasSlot = false)
    (calls : l'.calls = l.calls ++ [next]) (launched : l'.launched = l.launched) :
    Known (past ++ [label]) launchers l' where
  counted := by
    rw [calls, purposes_made made, List.length_append, List.length_append, h.counted]
    rfl
  meant hc hp := by
    rw [calls] at hc
    rcases append_cases hc with hc | ⟨rfl, rfl⟩
    · exact h.meant_after hc hp
    · rw [purposes_made made, h.counted, is hp]
      exact List.getElem?_concat_length
  numbered := h.numbered.trans launched.symm
  newest hc hd := by
    rw [launched]
    rw [calls] at hc
    rcases append_cases hc with hc | ⟨-, rfl⟩
    · exact h.newest hc hd
    · rw [(Stage.of_child hd).2.1] at waits
      cases waits
  lawful hc := by
    rw [calls] at hc
    rcases append_cases hc with hc | ⟨-, hd⟩
    · exact h.lawful hc
    · rw [← hd] at waits
      cases waits

theorem act (h : Known past launchers l) (ho : Owned l) (hat : l.calls[call]? = some stage)
    (ha : Acts l call stage l') :
    Known (past ++ [.turn call around])
      (launchers ++ (l.launcher? l' (.turn call around)).toList) l' := by
  have quiet : (Label.turn call around).purpose? = none := rfl
  cases ha with
  | @takes former next waits first full held noChild purpose =>
      refine .unlaunched rfl
        (h.goes quiet hat next (fun hp => purpose ▸ hp) (fun hc => ?_) ?_ rfl rfl)
      · rw [noChild] at hc
        cases hc
      · rintro c e rfl
        cases noChild
  | launches deadline turn noChild start =>
      have hlt : l.launched < l.launched + 1 := Nat.lt_succ_self l.launched
      simp only [launcher?, hlt, if_true]
      exact h.launches ho quiet hat (ho.hasTurn hat turn) start rfl rfl
  | @goesOn child next had has lawful =>
      refine .unlaunched rfl (h.goes quiet hat next (fun hp => ?_) (fun hc => ?_) ?_ rfl rfl)
      · rw [(Stage.of_child had).2.2, ← (Stage.of_child has).2.2]
        exact hp
      · rw [had, ← has]
        exact hc
      · rintro c e rfl
        cases has
        exact lawful e rfl
  | fills had =>
      exact .unlaunched rfl (h.goes quiet hat (.finished (.ok ())) nofun nofun nofun rfl rfl)
  | @ends result turn stop lawful =>
      exact .unlaunched rfl (h.goes quiet hat (.finished result) nofun nofun nofun rfl rfl)

/-- **Every step keeps the histories**, and may add a call and a process to them. -/
theorem step (h : Known past launchers l) (ho : Owned l) (hs : l.step? label = some l') :
    Known (past ++ [label]) (launchers ++ (l.launcher? l' label).toList) l' := by
  cases does_of_step hs with
  | refuses config e =>
      exact .unlaunched rfl
        (h.comes (.finished (.error (.config e))) rfl nofun rfl rfl rfl)
  | @asks _ next purpose made is waits =>
      exact .unlaunched rfl
        (h.comes next made (fun hp => Option.some.inj (hp.symm.trans is)) waits rfl rfl)
  | acts around here ha => exact h.act ho here ha
  | drops here =>
      exact .unlaunched rfl (h.goes rfl here .dropped nofun nofun nofun rfl rfl)
  | exits process how =>
      refine .unlaunched rfl ?_
      have quiet : (Label.exit process how).purpose? = none := rfl
      refine ⟨?_, ?_, h.numbered, h.newest, h.lawful⟩
      · rw [purposes_quiet quiet]
        exact h.counted
      · rw [purposes_quiet quiet]
        exact h.meant

theorem run (h : Known past launchers l) (ho : Owned l) {labels : List Label}
    (hr : l.run? labels = some l') :
    Known (past ++ labels) (launchers ++ Launcher.launchers l labels) l' := by
  induction labels generalizing l past launchers with
  | nil =>
      cases hr
      rw [List.append_nil, show Launcher.launchers l' [] = [] from rfl, List.append_nil]
      exact h
  | cons label rest ih =>
      obtain ⟨m, hs, hr⟩ := Option.bind_eq_some_iff.1 hr
      have hm := ih (h.step ho hs) (ho.step hs) hr
      have hl : Launcher.launchers l (label :: rest) =
          (l.launcher? m label).toList ++ Launcher.launchers m rest := by
        simp only [Launcher.launchers, hs]
      rw [hl, ← List.append_assoc, List.append_cons]
      exact hm

end Known

end TunnelKeeper.Proxy
