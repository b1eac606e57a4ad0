import TunnelKeeper.Proofs.Proxy.Steps

/-!
# Owners — one process, in the slot or held by one call

A process that is alive has one owner.  Between the calls that is the slot; while a call works, the
slot is empty and the process is the call's.  The line keeps the calls apart: only its first call
takes the slot's process or launches one, and it stays the first until it is over.  So a call whose
turn it is finds no process but the one of the slot, kills it before it launches another, and there
is never a second one (`Owned`).

* `Owned.act`, `Owned.dropped`, `Owned.comes`: what a call does, that it is dropped, and another
  one.
* `Owned.step`, `Owned.run`: every step leaves each process with its owner, and so does every run.
-/

namespace TunnelKeeper.Proxy

open Settings (ProxySettings)

open Launcher

variable {l l' : Launcher} {label : Label} {call : CallId} {stage : Stage} {around : Surroundings}

/-! ### The owner of a process -/

/-- A process that is alive is in the slot or held by the one call that has the slot. -/
structure Owned (l : Launcher) : Prop where
  /-- Only the first of the line can have the slot, and it has emptied it. -/
  turn : ∀ {call : CallId} {stage : Stage}, l.calls[call]? = some stage →
    stage.hasSlot = true → l.HasTurn call
  owner : ∀ p ∈ l.alive, l.slot = some p ∨
    ∃ (call : CallId) (stage : Stage), l.calls[call]? = some stage ∧ p ∈ stage.held
  one : l.alive.length ≤ 1

namespace Owned

theorem fresh (settings : ProxySettings) : Owned { settings } where
  turn h := nomatch h
  owner := nofun
  one := Nat.zero_le 1

/-- While one call has the turn, no other has the slot. -/
theorem others (h : Owned l) (first : l.line.head? = some call) {c : CallId} {t : Stage}
    (hc : l.calls[c]? = some t) (hne : c ≠ call) : t.hasSlot = false := by
  cases hs : t.hasSlot with
  | false => rfl
  | true => exact absurd (Option.some.inj ((h.turn hc hs).1.symm.trans first)) hne

theorem hasTurn (h : Owned l) (hat : l.calls[call]? = some stage)
    (turn : stage.hasSlot = false → l.HasTurn call) : l.HasTurn call := by
  cases hs : stage.hasSlot with
  | false => exact turn hs
  | true => exact h.turn hat hs

/-- A call that has the turn holds every process there is. -/
theorem held (h : Owned l) (hat : l.calls[call]? = some stage) (turn : l.HasTurn call)
    {p : ProcessId} (hp : p ∈ l.alive) : p ∈ stage.held := by
  rcases h.owner p hp with hs | ⟨c, t, hc, hm⟩
  · rw [turn.2] at hs
    cases hs
  · by_cases he : c = call
    · subst he
      rw [hat] at hc
      cases hc
      exact hm
    · have hs := h.others turn.1 hc he
      rw [Stage.held_of_not_hasSlot hs] at hm
      cases hm

/-- When a call with the turn kills what it holds, none is left. -/
theorem none_left (h : Owned l) (hat : l.calls[call]? = some stage) (turn : l.HasTurn call) :
    (l.killAll stage.held).alive = [] := by
  refine List.eq_nil_iff_forall_not_mem.2 fun p hp => ?_
  obtain ⟨hp, hm⟩ := mem_killAll.1 hp
  exact hm (h.held hat turn hp)

/-- While the slot is full, its process is the only one. -/
theorem in_slot (h : Owned l) {former : ProcessId} (full : l.slot = some former) {p : ProcessId}
    (hp : p ∈ l.alive) : p = former := by
  rcases h.owner p hp with hs | ⟨c, t, hc, hm⟩
  · exact Option.some.inj (hs.symm.trans full)
  · have hs := (h.turn hc (Stage.hasSlot_of_mem_held hm)).2
    rw [full] at hs
    cases hs

/-- A call that goes on from its turn stays the only one that may have the slot. -/
theorem turn_set (h : Owned l) (first : l.line.head? = some call) {next t : Stage} {c : CallId}
    (hc : (l.calls.set call next)[c]? = some t) (hs : t.hasSlot = true) :
    c = call ∧ next.hasSlot = true := by
  rcases set_cases hc with ⟨rfl, rfl⟩ | ⟨hne, hc⟩
  · exact ⟨rfl, hs⟩
  · rw [h.others first hc hne] at hs
    cases hs

/-- A call with the turn leaves it, and nothing of its own is alive outside the slot. -/
theorem leaves (h : Owned l) (slot : Option ProcessId) (alive : List ProcessId)
    (first : l.line.head? = some call) {next : Stage} (isOver : next.isOver = true)
    (owner : ∀ p ∈ alive, slot = some p) (one : alive.length ≤ 1) :
    Owned { l.leave call next with slot, alive } where
  turn hc hs := by
    have hn := (h.turn_set first hc hs).2
    rw [Stage.not_hasSlot_of_isOver isOver] at hn
    cases hn
  owner p hp := .inl (owner p hp)
  one := one

/-- A call with the turn leaves it and kills what it holds. -/
theorem gives_up (h : Owned l) (hat : l.calls[call]? = some stage) (turn : l.HasTurn call)
    {next : Stage} (isOver : next.isOver = true) :
    Owned ((l.killAll stage.held).leave call next) := by
  have hnone := h.none_left hat turn
  refine h.leaves l.slot (l.killAll stage.held).alive turn.1 isOver ?_ ?_
  · rw [hnone]
    exact nofun
  · rw [hnone]
    exact Nat.zero_le 1

/-- A call goes on with the turn, and holds every process that is alive then. -/
theorem keeps (h : Owned l) (hat : l.calls[call]? = some stage) (first : l.line.head? = some call)
    (next : Stage) (calls : l'.calls = l.calls.set call next) (line : l'.line = l.line)
    (slot : l'.slot = none) (held : ∀ p ∈ l'.alive, p ∈ next.held) (one : l'.alive.length ≤ 1) :
    Owned l' where
  turn hc hs := by
    rw [calls] at hc
    obtain ⟨rfl, -⟩ := h.turn_set first hc hs
    exact ⟨line ▸ first, slot⟩
  owner p hp := .inr ⟨call, next, calls ▸ set_self hat next, held p hp⟩
  one := one

/-- **No turn makes a second process.** -/
theorem act (h : Owned l) (hat : l.calls[call]? = some stage) (ha : Acts l call stage l') :
    Owned l' := by
  cases ha with
  | @takes former next waits first full held noChild purpose =>
      refine h.keeps hat first next rfl rfl rfl (fun p hp => ?_) h.one
      rw [held, h.in_slot full hp]
      exact List.mem_singleton.2 rfl
  | launches deadline turn noChild start =>
      have hturn := h.hasTurn hat turn
      have hnew : l.launched :: (l.killAll stage.held).alive = [l.launched] := by
        rw [h.none_left hat hturn]
      refine h.keeps hat hturn.1 (.connecting l.launched deadline) rfl rfl hturn.2
        (fun p hp => ?_) (Nat.le_of_eq (congrArg List.length hnew))
      have hp : p ∈ l.launched :: (l.killAll stage.held).alive := hp
      rwa [hnew] at hp
  | @goesOn child next had has lawful =>
      obtain ⟨hheld, hslot, -⟩ := Stage.of_child had
      have hturn := h.turn hat hslot
      refine h.keeps hat hturn.1 next rfl rfl hturn.2 (fun p hp => ?_) h.one
      rw [(Stage.of_child has).1, ← hheld]
      exact h.held hat hturn hp
  | @fills child had =>
      obtain ⟨hheld, hslot, -⟩ := Stage.of_child had
      have hturn := h.turn hat hslot
      refine h.leaves (some child) l.alive hturn.1 rfl (fun p hp => ?_) h.one
      have hm : p ∈ stage.held := h.held hat hturn hp
      rw [hheld] at hm
      rw [List.mem_singleton.1 hm]
  | ends turn stop lawful => exact h.gives_up hat (h.hasTurn hat turn) rfl

/-- A call that still waits for its turn is dropped, and nothing is killed. -/
theorem drop_waiting (h : Owned l) (hat : l.calls[call]? = some stage)
    (waits : stage.hasSlot = false) : Owned (l.leave call .dropped) where
  turn hc hs := by
    rcases set_cases hc with ⟨rfl, rfl⟩ | ⟨hne, hc⟩
    · cases hs
    · have hturn := h.turn hc hs
      exact ⟨head?_filter hturn.1 hne, hturn.2⟩
  owner p hp := by
    rcases h.owner p hp with hs | ⟨c, t, hc, hm⟩
    · exact .inl hs
    · refine .inr ⟨c, t, ?_, hm⟩
      have hne : call ≠ c := by
        rintro rfl
        rw [hat] at hc
        cases hc
        rw [Stage.held_of_not_hasSlot waits] at hm
        cases hm
      exact (List.getElem?_set_ne hne).trans hc
  one := h.one

theorem dropped (h : Owned l) (hat : l.calls[call]? = some stage) :
    Owned ((l.killAll stage.held).leave call .dropped) := by
  cases hs : stage.hasSlot with
  | false =>
      rw [Stage.held_of_not_hasSlot hs, killAll_nil]
      exact h.drop_waiting hat hs
  | true => exact h.gives_up hat (h.turn hat hs) rfl

/-- A new call has nothing yet. -/
theorem comes (h : Owned l) (next : Stage) (waits : next.hasSlot = false) (more : List CallId) :
    Owned { l with calls := l.calls ++ [next], line := l.line ++ more } where
  turn hc hs := by
    rcases append_cases hc with hc | ⟨rfl, rfl⟩
    · have hturn := h.turn hc hs
      exact ⟨head?_append hturn.1 more, hturn.2⟩
    · rw [waits] at hs
      cases hs
  owner p hp := by
    rcases h.owner p hp with hs | ⟨c, t, hc, hm⟩
    · exact .inl hs
    · have hlt := (List.getElem?_eq_some_iff.1 hc).1
      exact .inr ⟨c, t, (List.getElem?_append_left hlt).trans hc, hm⟩
  one := h.one

/-- **No step makes a second process.** -/
theorem step (h : Owned l) (hs : l.step? label = some l') : Owned l' := by
  cases does_of_step hs with
  | refuses config e =>
      have hc := h.comes (.finished (.error (.config e))) rfl []
      rwa [List.append_nil] at hc
  | asks made is waits => exact h.comes _ waits _
  | acts around here ha => exact h.act here ha
  | drops here => exact h.dropped here
  | exits process how =>
      refine ⟨h.turn, fun p hp => h.owner p (List.mem_filter.1 hp).1, ?_⟩
      exact Nat.le_trans (List.length_filter_le _ _) h.one

theorem run (h : Owned l) {labels : List Label} (hr : l.run? labels = some l') : Owned l' := by
  induction labels generalizing l with
  | nil => cases hr; exact h
  | cons label rest ih =>
      obtain ⟨m, hs, hr⟩ := Option.bind_eq_some_iff.1 hr
      exact ih (h.step hs) hr

/-- Between the calls every process is the one in the slot. -/
theorem in_slot_of_over (h : Owned l) (isOver : ∀ stage ∈ l.calls, stage.isOver = true)
    {p : ProcessId} (hp : p ∈ l.alive) : l.slot = some p := by
  rcases h.owner p hp with hs | ⟨call, stage, hat, hm⟩
  · exact hs
  · have hslot := Stage.not_hasSlot_of_isOver (isOver stage (List.mem_of_getElem? hat))
    rw [Stage.hasSlot_of_mem_held hm] at hslot
    cases hslot

end Owned

end TunnelKeeper.Proxy
