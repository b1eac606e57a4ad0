import TunnelKeeper.Workers.Pool

/-!
# Permits — none is lost, and work comes to an end

A permit is free or held by a unit that runs, and those that queue for one wait (`Pool.Sound`),
whatever is handed in, asks, begins, ends or is given up.  So as long as there is a unit that may
still move, one of them can: a unit that runs ends, one that has not asked for a permit does, and
where all have asked and none runs all permits are set aside.  Every such move brings the pool
nearer to its rest (`Pool.live`).

* `Pool.Settled`: nobody can ask or begin.
* `Pool.Sound.moves`: work can go on as long as there is any.
-/

namespace TunnelKeeper.Pool

variable {ω α : Type} {p p' : Pool ω α}

/-! ### Counting units -/

/-- A unit that moves is counted as what it becomes. -/
theorem countP_setStage (f : WorkUnit ω α → Bool) {id : UnitId} {u : WorkUnit ω α}
    (hu : p.units[id]? = some u) (stage : Stage α) :
    (p.setStage id stage).units.countP f + (if f u then 1 else 0) =
      p.units.countP f + (if f { u with stage } then 1 else 0) := by
  obtain ⟨hlt, rfl⟩ := List.getElem?_eq_some_iff.1 hu
  have hsplit : p.units.countP f =
      (p.units.take id ++ p.units[id] :: p.units.drop (id + 1)).countP f := by
    rw [← List.drop_eq_getElem_cons hlt, List.take_append_drop]
  rw [hsplit, setStage, List.modify_eq_take_cons_drop hlt, List.countP_append, List.countP_append,
    List.countP_cons, List.countP_cons]
  omega

theorem isWaiting_of_isRunning {u : WorkUnit ω α} (h : isRunning u = true) :
    isWaiting u = false := by
  unfold isRunning at h
  unfold isWaiting
  split at h
  case h_1 hs => rw [hs]
  case h_2 => cases h

/-- A stage in which a unit neither waits nor runs. -/
def Settles (stage : Stage α) : Prop := stage ≠ .waiting ∧ stage ≠ .running

theorem Settles.not_waiting {stage : Stage α} (h : Settles stage) (u : WorkUnit ω α) :
    isWaiting { u with stage } = false := by
  unfold isWaiting
  split
  case h_1 hs => exact absurd hs h.1
  case h_2 => rfl

theorem Settles.not_running {stage : Stage α} (h : Settles stage) (u : WorkUnit ω α) :
    isRunning { u with stage } = false := by
  unfold isRunning
  split
  case h_1 hs => exact absurd hs h.2
  case h_2 => rfl

/-- **What the asking of a unit is.** -/
theorem ask?_inv {id : UnitId} (h : p.ask? id = some p') :
    ∃ u, p.units[id]? = some u ∧ isWaiting u = true ∧ id ∉ p.queue ∧
      p' = { p with queue := p.queue ++ [id] } := by
  obtain ⟨hc, he⟩ := Option.ite_none_right_eq_some.1 h
  obtain ⟨hw, hq⟩ := Bool.and_eq_true_iff.1 hc
  obtain ⟨u, hu, hw⟩ := (Option.any_eq_true ..).1 hw
  exact ⟨u, hu, hw, by simpa using hq, (Option.some.inj he).symm⟩

/-- **What the beginning of a unit is.** -/
theorem begin?_inv {id : UnitId} (h : p.begin? id = some p') :
    ∃ u, p.units[id]? = some u ∧ isWaiting u = true ∧ id ∈ p.granted ∧
      p' = { p.setStage id .running with free := p.free - 1, queue := p.queue.erase id } := by
  obtain ⟨hc, he⟩ := Option.ite_none_right_eq_some.1 h
  obtain ⟨hw, hg⟩ := Bool.and_eq_true_iff.1 hc
  obtain ⟨u, hu, hw⟩ := (Option.any_eq_true ..).1 hw
  exact ⟨u, hu, hw, List.contains_iff_mem.1 hg, (Option.some.inj he).symm⟩

theorem begin?_of_granted {id : UnitId} (hw : p.units[id]?.any isWaiting = true)
    (hg : id ∈ p.granted) : p.begin? id =
      some { p.setStage id .running with free := p.free - 1, queue := p.queue.erase id } :=
  if_pos (Bool.and_eq_true_iff.2 ⟨hw, List.contains_iff_mem.2 hg⟩)

/-- A permit that is set aside is not held by anybody. -/
theorem free_pos_of_granted {id : UnitId} (h : id ∈ p.granted) : 0 < p.free := by
  have hlen := List.length_pos_of_mem h
  rw [granted, List.length_take] at hlen
  omega

theorem mem_queue_of_granted {id : UnitId} (h : id ∈ p.granted) : id ∈ p.queue :=
  List.mem_of_mem_take h

theorem release_of_running {id : UnitId} {u : WorkUnit ω α} (hu : p.units[id]? = some u)
    (hr : isRunning u = true) (stage : Stage α) :
    p.release id stage = { p.setStage id stage with free := p.free + 1 } := by
  simp only [release, hu, hr, if_true]

/-! ### Permits -/

/-- A unit that moves is not another one. -/
theorem any_setStage_of_ne (f : WorkUnit ω α → Bool) {id i : UnitId} (hne : i ≠ id)
    (stage : Stage α) : (p.setStage id stage).units[i]?.any f = p.units[i]?.any f := by
  unfold setStage
  rw [List.getElem?_modify]
  cases p.units[i]? with
  | none => rfl
  | some u => exact congrArg (Option.any f ∘ some) (if_neg (Ne.symm hne))

/-- **No permit is lost**: each of them is free or held by a unit that runs.  The queue is made of
units that wait. -/
structure Sound (p : Pool ω α) : Prop where
  permits : p.free + p.running = p.size
  room : 0 < p.size
  waits : ∀ id ∈ p.queue, p.units[id]?.any isWaiting = true
  once : p.queue.Nodup

namespace Sound

theorem ofSize (size : Nat) : Sound (ofSize size : Pool ω α) where
  permits := rfl
  room := Nat.lt_of_lt_of_le (by decide) (Nat.le_max_right size leastSize)
  waits := nofun
  once := .nil

theorem spawn (h : Sound p) (owner : Option Nat) (work : ω) : Sound (p.spawn owner work).2 := by
  have hr : (p.spawn owner work).2.running = p.running := by
    unfold running TunnelKeeper.Pool.spawn
    rw [List.countP_append, List.countP_singleton]
    cases p.closed <;> rfl
  refine ⟨?_, h.room, fun i hi => ?_, h.once⟩
  · rw [hr]
    exact h.permits
  · have hw := h.waits i hi
    obtain ⟨u, hu, -⟩ := (Option.any_eq_true ..).1 hw
    unfold TunnelKeeper.Pool.spawn
    rwa [List.getElem?_append_left (List.getElem?_eq_some_iff.1 hu).1]

theorem asks (h : Sound p) {id : UnitId} (ha : p.ask? id = some p') : Sound p' := by
  obtain ⟨u, hu, hw, hn, rfl⟩ := ask?_inv ha
  refine ⟨h.permits, h.room, fun i hi => ?_, ?_⟩
  · rcases List.mem_append.1 hi with hi | hi
    · exact h.waits i hi
    · obtain rfl := List.mem_singleton.1 hi
      exact (Option.any_eq_true ..).2 ⟨u, hu, hw⟩
  · refine List.nodup_append.2 ⟨h.once, List.nodup_cons.2 ⟨nofun, .nil⟩, fun i hi j hj => ?_⟩
    rintro rfl
    exact hn (List.mem_singleton.1 hj ▸ hi)

/-- One that leaves the queue leaves the others as they are. -/
theorem waits_erase (h : Sound p) (id : UnitId) (stage : Stage α) :
    ∀ i ∈ p.queue.erase id, (p.setStage id stage).units[i]?.any isWaiting = true := fun i hi => by
  obtain ⟨hne, hi⟩ := h.once.mem_erase_iff.1 hi
  rw [any_setStage_of_ne isWaiting hne]
  exact h.waits i hi

theorem begins (h : Sound p) {id : UnitId} (hb : p.begin? id = some p') : Sound p' := by
  obtain ⟨u, hu, hw, hg, rfl⟩ := begin?_inv hb
  have hf := free_pos_of_granted hg
  have hr : isRunning u = false := by
    cases hr : isRunning u with
    | false => rfl
    | true => rw [isWaiting_of_isRunning hr] at hw; cases hw
  have hc := countP_setStage isRunning hu .running
  rw [hr, show isRunning { u with stage := .running } = true from rfl,
    if_neg Bool.false_ne_true, if_pos rfl] at hc
  have hp : p.free + p.units.countP isRunning = p.size := h.permits
  refine ⟨?_, h.room, h.waits_erase id .running, h.once.erase id⟩
  show p.free - 1 + (p.setStage id .running).units.countP isRunning = p.size
  omega

theorem drop_of_waiting (h : Sound p) {id : UnitId} {u : WorkUnit ω α}
    (hu : p.units[id]? = some u) (hw : isWaiting u = true) :
    Sound { p.setStage id .dropped with queue := p.queue.erase id } := by
  have hr : isRunning u = false := by
    cases hr : isRunning u with
    | false => rfl
    | true => rw [isWaiting_of_isRunning hr] at hw; cases hw
  have hc := countP_setStage isRunning hu .dropped
  rw [hr] at hc
  exact ⟨(congrArg (p.free + ·) hc).trans h.permits, h.room, h.waits_erase id .dropped,
    h.once.erase id⟩

theorem release (h : Sound p) (id : UnitId) {stage : Stage α} (hs : Settles stage) :
    Sound (p.release id stage) := by
  cases hu : p.units[id]? with
  | none => simpa only [TunnelKeeper.Pool.release, hu] using h
  | some u =>
      cases hr : isRunning u with
      | false =>
          simpa only [TunnelKeeper.Pool.release, hu, hr, Bool.false_eq_true, if_false] using h
      | true =>
          rw [release_of_running hu hr]
          have hc := countP_setStage isRunning hu stage
          rw [hr, hs.not_running u, if_pos rfl, if_neg Bool.false_ne_true] at hc
          have hp : p.free + p.units.countP isRunning = p.size := h.permits
          refine ⟨?_, h.room, fun i hi => ?_, h.once⟩
          · show p.free + 1 + (p.setStage id stage).units.countP isRunning = p.size
            omega
          · have hw := h.waits i hi
            -- A unit that runs is not in the queue.
            have hne : i ≠ id := by
              rintro rfl
              rw [hu, Option.any_some, isWaiting_of_isRunning hr] at hw
              cases hw
            exact (any_setStage_of_ne isWaiting hne stage).trans hw

theorem drop (h : Sound p) (id : UnitId) : Sound (p.drop id) := by
  unfold TunnelKeeper.Pool.drop
  split
  case h_2 => exact h
  case h_1 u hu =>
    split
    case isTrue hw => exact h.drop_of_waiting hu hw
    case isFalse => exact h.release id ⟨nofun, nofun⟩

theorem close (h : Sound p) : Sound p.close := by
  have hr : ∀ u : WorkUnit ω α,
      isRunning (if isWaiting u then { u with stage := .refused } else u) = isRunning u := by
    rintro ⟨owner, work, stage⟩
    cases stage <;> rfl
  refine ⟨?_, h.room, nofun, .nil⟩
  show p.free + (p.units.map _).countP isRunning = p.size
  rw [List.countP_map, show isRunning ∘ _ = isRunning from funext hr]
  exact h.permits

/-- **Every move keeps the permits.** -/
theorem step (h : Sound p) {l : Label ω α} (hs : p.step? l = some p') : Sound p' := by
  cases l with
  | spawn owner work =>
      obtain rfl := Option.some.inj hs
      exact h.spawn owner work
  | ask id => exact h.asks hs
  | begin id => exact h.begins hs
  | finish id | panic id =>
      simp only [step?, Option.ite_none_right_eq_some] at hs
      obtain rfl := Option.some.inj hs.2
      exact h.release id ⟨nofun, nofun⟩
  | drop id =>
      obtain rfl := Option.some.inj hs
      exact h.drop id
  | close =>
      obtain rfl := Option.some.inj hs
      exact h.close

theorem run (h : Sound p) {labels : List (Label ω α)} (hr : p.run? labels = some p') :
    Sound p' := by
  induction labels generalizing p with
  | nil =>
      obtain rfl := Option.some.inj hr
      exact h
  | cons l labels ih =>
      obtain ⟨q, hq, hr⟩ := Option.bind_eq_some_iff.1 hr
      exact ih (h.step hq) hr

end Sound

/-! ### Turns -/

theorem mem_fresh {id : UnitId} :
    id ∈ p.fresh ↔ p.units[id]?.any isWaiting = true ∧ id ∉ p.queue := by
  rw [fresh, List.mem_filter, List.mem_range, Bool.and_eq_true, Bool.not_eq_true',
    List.contains_eq_mem, decide_eq_false_iff_not]
  refine ⟨And.right, fun h => ⟨?_, h⟩⟩
  obtain ⟨u, hu, -⟩ := (Option.any_eq_true ..).1 h.1
  exact (List.getElem?_eq_some_iff.1 hu).1

/-- Exactly the units that have not asked yet can ask. -/
theorem ask?_eq_none_iff {id : UnitId} : p.ask? id = none ↔ id ∉ p.fresh := by
  rw [mem_fresh, ask?]
  simp [List.contains_eq_mem]

theorem exists_ask {id : UnitId} (h : id ∈ p.fresh) : ∃ q, p.ask? id = some q :=
  Option.ne_none_iff_exists'.1 fun hn => ask?_eq_none_iff.1 hn h

/-- **No unit has a turn to take**: nobody can ask for a permit, and nobody can begin. -/
def Settled (p : Pool ω α) : Prop := ∀ id, p.ask? id = none ∧ p.begin? id = none

theorem settled_iff : p.Settled ↔ p.fresh = [] ∧ ∀ id ∈ p.granted, (p.begin? id).isNone = true := by
  constructor
  · intro hs
    exact ⟨List.eq_nil_iff_forall_not_mem.2 fun id => ask?_eq_none_iff.1 (hs id).1,
      fun id _ => Option.isNone_iff_eq_none.2 (hs id).2⟩
  · rintro ⟨hf, hg⟩ id
    refine ⟨ask?_eq_none_iff.2 (hf ▸ List.not_mem_nil), Option.eq_none_iff_forall_ne_some.2 ?_⟩
    intro q hb
    obtain ⟨u, -, -, hid, -⟩ := begin?_inv hb
    exact nomatch (Option.isNone_iff_eq_none.1 (hg id hid)).symm.trans hb

instance (p : Pool ω α) : Decidable p.Settled := decidable_of_iff _ settled_iff.symm

theorem Sound.exists_begin (h : Sound p) {id : UnitId} (hg : id ∈ p.granted) :
    ∃ q, p.begin? id = some q :=
  ⟨_, begin?_of_granted (h.waits id (mem_queue_of_granted hg)) hg⟩

/-- Then each unit that waits has asked for a permit, and none is set aside. -/
theorem Sound.settled (h : Sound p) (hs : p.Settled) : p.fresh = [] ∧ p.granted = [] := by
  refine ⟨(settled_iff.1 hs).1, List.eq_nil_iff_forall_not_mem.2 fun id hid => ?_⟩
  obtain ⟨q, hq⟩ := h.exists_begin hid
  exact nomatch hq.symm.trans (hs id).2

/-- Where nobody has a turn to take, those that wait do so for want of a permit. -/
theorem Sound.free_eq_zero (h : Sound p) (hs : p.Settled) {id : UnitId}
    (hw : p.units[id]?.any isWaiting = true) : p.free = 0 := by
  obtain ⟨hf, hg⟩ := h.settled hs
  have hq : id ∈ p.queue := Decidable.byContradiction fun hn =>
    List.not_mem_nil (hf ▸ mem_fresh.2 ⟨hw, hn⟩)
  rcases List.take_eq_nil_iff.1 hg with hf | hn
  · exact hf
  · rw [hn] at hq
    cases hq

/-- Where somebody has a turn to take, it can ask or begin. -/
theorem exists_turn (hs : ¬p.Settled) : ∃ id q, p.ask? id = some q ∨ p.begin? id = some q := by
  obtain ⟨id, hid⟩ := Classical.not_forall.1 hs
  refine ⟨id, ?_⟩
  cases ha : p.ask? id with
  | some q => exact ⟨q, .inl rfl⟩
  | none =>
      obtain ⟨q, hq⟩ := Option.ne_none_iff_exists'.1 fun hb => hid ⟨ha, hb⟩
      exact ⟨q, .inr hq⟩

/-! ### Work comes to an end -/

/-- How many moves are left to the units, if each of them asks, begins and ends. -/
def live (p : Pool ω α) : Nat := 2 * p.units.countP isWaiting + p.running + p.fresh.length

/-- Where a unit ceases to wait, and the others keep their places, nobody else has still to ask. -/
theorem length_fresh_le (id : UnitId) (stage : Stage α)
    (hs : ∀ u : WorkUnit ω α, isWaiting { u with stage } = false)
    (hu : p'.units = (p.setStage id stage).units) (hq : ∀ i ≠ id, i ∈ p.queue → i ∈ p'.queue) :
    p'.fresh.length ≤ p.fresh.length := by
  have hsub : ∀ i ∈ p'.fresh, i ∈ p.fresh := fun i hi => by
    obtain ⟨hw, hn⟩ := mem_fresh.1 hi
    rw [hu] at hw
    have hne : i ≠ id := by
      rintro rfl
      unfold setStage at hw
      rw [List.getElem?_modify] at hw
      cases hi : p.units[i]? with
      | none => simp [hi] at hw
      | some u => simp [hi, hs u] at hw
    rw [any_setStage_of_ne isWaiting hne] at hw
    exact mem_fresh.2 ⟨hw, fun hi => hn (hq i hne hi)⟩
  have hlen : p'.units.length = p.units.length := hu ▸ List.length_modify ..
  unfold fresh at hsub ⊢
  rw [hlen] at hsub ⊢
  rw [← List.countP_eq_length_filter, ← List.countP_eq_length_filter]
  exact List.countP_mono_left fun i hi h =>
    (List.mem_filter.1 (hsub i (List.mem_filter.2 ⟨hi, h⟩))).2

/-- Where nobody waits, nobody has still to ask. -/
theorem length_fresh_eq_zero (h : p.units.countP isWaiting = 0) : p.fresh.length = 0 := by
  refine List.length_eq_zero_iff.2 (List.eq_nil_iff_forall_not_mem.2 fun id hid => ?_)
  obtain ⟨u, hu, hw⟩ := (Option.any_eq_true ..).1 (mem_fresh.1 hid).1
  exact List.countP_eq_zero.1 h u (List.mem_of_getElem? hu) hw

/-- Whoever asks has done so, and nobody else has. -/
theorem fresh_asks {id : UnitId} (ha : p.ask? id = some p') :
    p'.fresh = p.fresh.filter (· != id) := by
  obtain ⟨-, -, -, -, rfl⟩ := ask?_inv ha
  unfold fresh
  rw [List.filter_filter]
  refine List.filter_congr fun i _ => ?_
  rw [Bool.eq_iff_iff]
  simp [List.contains_eq_mem, and_comm, and_assoc]

/-- Whoever asks has one move less to make. -/
theorem live_asks {id : UnitId} (ha : p.ask? id = some p') : p'.live < p.live := by
  have hfresh := fresh_asks ha
  obtain ⟨u, hu, hw, hn, rfl⟩ := ask?_inv ha
  have hmem : id ∈ p.fresh := mem_fresh.2 ⟨(Option.any_eq_true ..).2 ⟨u, hu, hw⟩, hn⟩
  have hlt : (p.fresh.filter (· != id)).length < p.fresh.length :=
    List.length_filter_lt_length_iff_exists.2 ⟨id, hmem, by simp⟩
  unfold live
  rw [hfresh]
  exact Nat.add_lt_add_left hlt _

theorem live_begins {id : UnitId} (hb : p.begin? id = some p') : p'.live < p.live := by
  obtain ⟨u, hu, hw, -, he⟩ := begin?_inv hb
  have hf : p'.fresh.length ≤ p.fresh.length :=
    length_fresh_le id .running (fun _ => rfl) (he ▸ rfl)
      fun i hi hq => he ▸ (List.mem_erase_of_ne hi).2 hq
  have hc := countP_setStage isWaiting hu .running
  have hc' := countP_setStage isRunning hu .running
  rw [hw, if_pos rfl, show isWaiting { u with stage := .running } = false from rfl] at hc
  rw [show isRunning { u with stage := .running } = true from rfl] at hc'
  have hl : p'.live = 2 * (p.setStage id .running).units.countP isWaiting +
      (p.setStage id .running).units.countP isRunning + p'.fresh.length := by rw [he]; rfl
  rw [hl]
  unfold live running
  split at hc' <;> simp at hc hc' <;> omega

theorem live_release {id : UnitId} {u : WorkUnit ω α} (hu : p.units[id]? = some u)
    (hr : isRunning u = true) {stage : Stage α} (hs : Settles stage) :
    (p.release id stage).live < p.live := by
  rw [release_of_running hu hr]
  have hf : { p.setStage id stage with free := p.free + 1 }.fresh.length ≤ p.fresh.length :=
    length_fresh_le id stage hs.not_waiting rfl fun _ _ hi => hi
  have hc := countP_setStage isWaiting hu stage
  have hc' := countP_setStage isRunning hu stage
  rw [isWaiting_of_isRunning hr, hs.not_waiting u] at hc
  rw [hr, hs.not_running u] at hc'
  show 2 * (p.setStage id stage).units.countP isWaiting +
    (p.setStage id stage).units.countP isRunning +
    { p.setStage id stage with free := p.free + 1 }.fresh.length < p.live
  unfold live running
  simp at hc hc'
  omega

/-- **As long as a unit may still move, one of them can.** -/
theorem Sound.moves (h : Sound p) (hl : 0 < p.live) :
    (∃ (id : UnitId) (u : WorkUnit ω α), p.units[id]? = some u ∧ isRunning u = true) ∨
      ∃ id q, p.ask? id = some q ∨ p.begin? id = some q := by
  by_cases hr : p.running = 0
  · -- All permits are free, so they are set aside for those that wait, once these have asked.
    refine .inr (exists_turn fun hs => ?_)
    have hw : 0 < p.units.countP isWaiting := by
      rw [live, (h.settled hs).1, hr] at hl
      simpa using hl
    obtain ⟨u, hu, hw⟩ := List.countP_pos_iff.1 hw
    obtain ⟨id, hid⟩ := List.getElem?_of_mem hu
    have hfree := h.free_eq_zero hs ((Option.any_eq_true ..).2 ⟨u, hid, hw⟩)
    have hp := h.permits
    have hroom := h.room
    omega
  · left
    obtain ⟨u, hu, hr⟩ := List.countP_pos_iff.1 (Nat.pos_of_ne_zero hr)
    obtain ⟨id, hid⟩ := List.getElem?_of_mem hu
    exact ⟨id, u, hid, hr⟩

end TunnelKeeper.Pool
