import TunnelKeeper.Proofs.Workers.Permits

/-!
# Conservation — what the moves of a pool tell of its permits

Which units are at work can be told from the moves of a pool alone, without a look at what the pool
keeps of them: a unit is at work once it has begun, until its work ends or panics or the unit is
given up (`Pool.atWork`).  The permits that are free and the units at work so told always make up
the size of the pool (`Counted`).

* `Counted.step`, `Counted.run`: every move, and so every list of moves, keeps it.
* `Pool.exists_settled`: units that have a turn to take do so, until none of them has.
* `permits_conserved`: both, from a pool without work.
-/

namespace TunnelKeeper

variable {ω α : Type}

/-! ### Stages -/

/-- What giving up a unit makes of it: nothing, once it has come to an end. -/
def Stage.givenUp : Stage α → Stage α
  | .waiting | .running => .dropped
  | stage => stage

/-- What closing the pool makes of a unit: nothing, unless it waits. -/
def Stage.shutOut : Stage α → Stage α
  | .waiting => .refused
  | stage => stage

namespace Pool

variable {p p' : Pool ω α}

theorem isRunning_iff {u : WorkUnit ω α} : isRunning u = true ↔ u.stage = .running := by
  unfold isRunning
  cases u.stage <;> simp

theorem isWaiting_iff {u : WorkUnit ω α} : isWaiting u = true ↔ u.stage = .waiting := by
  unfold isWaiting
  cases u.stage <;> simp

theorem stage?_setStage (p : Pool ω α) (id i : UnitId) (stage : Stage α) :
    (p.setStage id stage).stage? i =
      if id = i then (p.stage? i).map fun _ => stage else p.stage? i := by
  unfold stage? setStage
  rw [List.getElem?_modify]
  cases p.units[i]? <;> split <;> rfl

theorem stage?_eq_none_iff {id : UnitId} : p.stage? id = none ↔ p.units.length ≤ id := by
  rw [stage?, Option.map_eq_none_iff, List.getElem?_eq_none_iff]

/-- Where a unit is handed in, the others stay as they are, and it is not at work. -/
theorem stage?_spawn (p : Pool ω α) (owner : Option Nat) (work : ω) (i : UnitId) :
    (p.spawn owner work).2.stage? i =
      if i = p.units.length then some (if p.closed then .refused else .waiting) else p.stage? i := by
  unfold stage? spawn
  by_cases he : i = p.units.length
  · rw [if_pos he, he, List.getElem?_concat_length]
    rfl
  rw [if_neg he]
  by_cases hlt : i < p.units.length
  · rw [List.getElem?_append_left hlt]
  · have hle : p.units.length + 1 ≤ i := Nat.lt_of_le_of_ne (Nat.le_of_not_lt hlt) (Ne.symm he)
    rw [List.getElem?_eq_none (Nat.le_of_not_lt hlt), List.getElem?_eq_none (by simpa using hle)]

/-- Closing refuses those that wait, and leaves those at work alone. -/
theorem stage?_close (p : Pool ω α) (i : UnitId) :
    p.close.stage? i = (p.stage? i).map Stage.shutOut := by
  unfold stage? close
  rw [List.getElem?_map]
  cases p.units[i]? with
  | none => rfl
  | some u =>
      obtain ⟨owner, work, stage⟩ := u
      cases stage <;> rfl

/-- Only a unit at work gives a permit back. -/
theorem release_of_not_running {id : UnitId} (h : p.stage? id ≠ some .running) (stage : Stage α) :
    p.release id stage = p := by
  unfold release
  split
  case h_2 => rfl
  case h_1 u hu =>
    refine if_neg fun hr => h ?_
    rw [stage?, hu, Option.map_some, isRunning_iff.1 hr]

/-- **What giving up a unit is.** -/
theorem drop_cases (p : Pool ω α) (id : UnitId) :
    p.stage? id = some .waiting ∧
      p.drop id = { p.setStage id .dropped with queue := p.queue.erase id } ∨
      p.stage? id ≠ some .waiting ∧ p.drop id = p.release id .dropped := by
  unfold drop
  split
  case h_1 u hu =>
    have hs : p.stage? id = some u.stage := by rw [stage?, hu, Option.map_some]
    split
    case isTrue hw => exact .inl ⟨hs.trans (congrArg some (isWaiting_iff.1 hw)), rfl⟩
    case isFalse hw =>
      exact .inr ⟨fun h => hw (isWaiting_iff.2 (Option.some.inj (hs.symm.trans h))), rfl⟩
  case h_2 hn =>
    have hs : p.stage? id = none := by rw [stage?, hn, Option.map_none]
    rw [release_of_not_running (by rw [hs]; nofun)]
    exact .inr ⟨by rw [hs]; nofun, rfl⟩

/-! ### Units at work -/

/-- The units at work after a move, in the order in which they began. -/
def worksAfter (ids : List UnitId) : Label ω α → List UnitId
  | .begin id => ids ++ [id]
  | .finish id _ | .panic id | .drop id => ids.erase id
  | .spawn _ _ | .ask _ | .close => ids

/-- The units at work after a list of moves: those that have begun, without those whose work has
ended or was given up since. -/
def atWork (labels : List (Label ω α)) : List UnitId := labels.foldl worksAfter []

/-- **Each permit is free, or one unit at work holds it.** -/
structure Counted (p : Pool ω α) (ids : List UnitId) : Prop where
  permits : p.free + ids.length = p.size
  once : ids.Nodup
  works : ∀ id, id ∈ ids ↔ p.stage? id = some .running

namespace Counted

variable {ids : List UnitId}

theorem ofSize (size : Nat) : Counted (ofSize size : Pool ω α) [] :=
  ⟨rfl, .nil, fun _ => ⟨nofun, nofun⟩⟩

/-- Where permits stay where they are, and the same units are at work. -/
theorem frame (h : Counted p ids) (hf : p'.free = p.free) (hz : p'.size = p.size)
    (hs : ∀ id, p'.stage? id = some .running ↔ p.stage? id = some .running) : Counted p' ids :=
  ⟨hf ▸ hz ▸ h.permits, h.once, fun id => (h.works id).trans (hs id).symm⟩

/-- A unit begins, and takes a permit. -/
theorem begins (h : Counted p ids) {id : UnitId} (hb : p.begin? id = some p') :
    Counted p' (ids ++ [id]) := by
  obtain ⟨u, hu, hw, hg, rfl⟩ := begin?_inv hb
  have hf := free_pos_of_granted hg
  have hs : p.stage? id = some .waiting := by rw [stage?, hu, Option.map_some, isWaiting_iff.1 hw]
  have hnew : id ∉ ids := fun hid => nomatch hs.symm.trans ((h.works id).1 hid)
  refine ⟨?_, ?_, fun i => ?_⟩
  · have hp := h.permits
    show p.free - 1 + (ids ++ [id]).length = p.size
    rw [List.length_append, List.length_singleton]
    omega
  · rw [List.nodup_append]
    refine ⟨h.once, List.nodup_cons.2 ⟨nofun, .nil⟩, fun i hi j hj => ?_⟩
    rw [List.mem_singleton.1 hj]
    rintro rfl
    exact hnew hi
  · have hset : i ∈ ids ++ [id] ↔ (p.setStage id .running).stage? i = some .running := by
      rw [stage?_setStage, List.mem_append, List.mem_singleton, h.works]
      split
      case isTrue he => simp [← he, hs]
      case isFalse he => simp [Ne.symm he]
    exact hset

/-- Work ends or is given up, and its permit comes back, if it had one. -/
theorem release (h : Counted p ids) (id : UnitId) {stage : Stage α} (hn : stage ≠ .running) :
    Counted (p.release id stage) (ids.erase id) := by
  by_cases hr : p.stage? id = some .running
  · obtain ⟨u, hu, hs⟩ := Option.map_eq_some_iff.1 hr
    have hid : id ∈ ids := (h.works id).2 hr
    rw [release_of_running hu (isRunning_iff.2 hs)]
    refine ⟨?_, h.once.erase id, fun i => ?_⟩
    · have hp := h.permits
      have hl := List.length_pos_of_mem hid
      show p.free + 1 + (ids.erase id).length = p.size
      rw [List.length_erase_of_mem hid]
      omega
    · have hset : i ∈ ids.erase id ↔ (p.setStage id stage).stage? i = some .running := by
        rw [stage?_setStage, h.once.mem_erase_iff, h.works]
        split
        case isTrue he => simp [← he, hr, hn]
        case isFalse he => simp [Ne.symm he]
      exact hset
  · have hid : id ∉ ids := fun hid => hr ((h.works id).1 hid)
    rw [release_of_not_running hr, List.erase_of_not_mem hid]
    exact h

/-- A unit is given up: one that waits never had a permit. -/
theorem drop (h : Counted p ids) (id : UnitId) : Counted (p.drop id) (ids.erase id) := by
  obtain ⟨hw, hd⟩ | ⟨-, hd⟩ := p.drop_cases id
  · have hid : id ∉ ids := fun hid => nomatch hw.symm.trans ((h.works id).1 hid)
    rw [hd, List.erase_of_not_mem hid]
    refine h.frame rfl rfl fun i => ?_
    show (p.setStage id .dropped).stage? i = _ ↔ _
    rw [stage?_setStage]
    split
    case isTrue he => simp [← he, hw]
    case isFalse => exact Iff.rfl
  · rw [hd]
    exact h.release id nofun

/-- **Every move keeps the permits.** -/
theorem step (h : Counted p ids) {l : Label ω α} (hs : p.step? l = some p') :
    Counted p' (worksAfter ids l) := by
  cases l with
  | spawn owner work =>
      obtain rfl := Option.some.inj hs
      refine h.frame rfl rfl fun i => ?_
      rw [stage?_spawn]
      split
      case isTrue he =>
        rw [stage?_eq_none_iff.2 (Nat.le_of_eq he.symm)]
        cases p.closed <;> simp
      case isFalse => exact Iff.rfl
  | ask id =>
      obtain ⟨-, -, -, -, rfl⟩ := ask?_inv hs
      exact h.frame rfl rfl fun _ => Iff.rfl
  | begin id => exact h.begins hs
  | finish id result =>
      simp only [step?, Option.ite_none_right_eq_some] at hs
      obtain ⟨-, hs⟩ := hs
      obtain rfl := Option.some.inj hs
      refine h.release id fun he => ?_
      cases he
  | panic id =>
      simp only [step?, Option.ite_none_right_eq_some] at hs
      obtain ⟨-, hs⟩ := hs
      obtain rfl := Option.some.inj hs
      refine h.release id fun he => ?_
      cases he
  | drop id =>
      obtain rfl := Option.some.inj hs
      exact h.drop id
  | close =>
      obtain rfl := Option.some.inj hs
      refine h.frame rfl rfl fun i => ?_
      rw [stage?_close]
      cases p.stage? i with
      | none => rfl
      | some stage => cases stage <;> simp [Stage.shutOut]

/-- **Every list of moves keeps the permits.** -/
theorem run (h : Counted p ids) {labels : List (Label ω α)} (hr : p.run? labels = some p') :
    Counted p' (labels.foldl worksAfter ids) := by
  induction labels generalizing p ids with
  | nil =>
      obtain rfl := Option.some.inj hr
      exact h
  | cons l labels ih =>
      obtain ⟨q, hq, hr⟩ := Option.bind_eq_some_iff.1 hr
      exact ih (h.step hq) hr

end Counted

/-! ### Settled pools -/

/-- A move by which a unit takes its turn, without an end of its work. -/
def Label.isTurn : Label ω α → Bool
  | .ask _ | .begin _ => true
  | _ => false

/-- **Units that have a turn to take do so**, one after the other, until none of them has. -/
theorem exists_settled (p : Pool ω α) :
    ∃ turns q, (∀ l ∈ turns, l.isTurn = true) ∧ p.run? turns = some q ∧ q.Settled := by
  -- Each turn is one of the moves that are left to the units.
  induction hl : p.live using Nat.strongRecOn generalizing p with
  | ind live ih =>
      by_cases hs : p.Settled
      · exact ⟨[], p, nofun, rfl, hs⟩
      obtain ⟨l, q, hl', hq, hlt⟩ : ∃ l q, l.isTurn = true ∧ p.step? l = some q ∧
          q.live < p.live := by
        obtain ⟨id, q, hq | hq⟩ := exists_turn hs
        · exact ⟨.ask id, q, rfl, hq, live_asks hq⟩
        · exact ⟨.begin id, q, rfl, hq, live_begins hq⟩
      obtain ⟨turns, r, hturns, hr, hsettled⟩ := ih _ (hl ▸ hlt) q rfl
      exact ⟨l :: turns, r, List.forall_mem_cons.2 ⟨hl', hturns⟩,
        Option.bind_eq_some_iff.2 ⟨q, hq, hr⟩, hsettled⟩

theorem any_isWaiting_iff {id : UnitId} :
    p.units[id]?.any isWaiting = true ↔ p.stage? id = some .waiting := by
  rw [stage?, Option.any_eq_true, Option.map_eq_some_iff]
  exact exists_congr fun u => and_congr_right fun _ => isWaiting_iff

/-- Where nobody has a turn to take, those that wait do so for want of a permit. -/
theorem Sound.no_permit (h : p.Sound) (hs : p.Settled) {id : UnitId}
    (hw : p.stage? id = some .waiting) : p.free = 0 :=
  h.free_eq_zero hs (any_isWaiting_iff.2 hw)

/-- Where nobody has a turn to take, no permit is set aside. -/
theorem Sound.available (h : p.Sound) (hs : p.Settled) : p.available = p.free := by
  unfold TunnelKeeper.Pool.available
  rcases List.take_eq_nil_iff.1 (h.settled hs).2 with hf | hq
  · rw [hf, Nat.zero_sub]
  · rw [hq, List.length_nil, Nat.sub_zero]

/-! ### Permits and size -/

theorem size_release (p : Pool ω α) (id : UnitId) (stage : Stage α) :
    (p.release id stage).size = p.size := by
  unfold release
  split
  · split <;> rfl
  · rfl

/-- No move changes how many permits there are. -/
theorem size_step {l : Label ω α} (h : p.step? l = some p') : p'.size = p.size := by
  cases l with
  | spawn | close =>
      obtain rfl := Option.some.inj h
      rfl
  | ask id =>
      obtain ⟨-, -, -, -, rfl⟩ := ask?_inv h
      rfl
  | begin id =>
      obtain ⟨-, -, -, -, rfl⟩ := begin?_inv h
      rfl
  | finish id | panic id =>
      simp only [step?, Option.ite_none_right_eq_some] at h
      obtain rfl := Option.some.inj h.2
      exact p.size_release id _
  | drop id =>
      obtain rfl := Option.some.inj h
      obtain ⟨-, hd⟩ | ⟨-, hd⟩ := p.drop_cases id
      · rw [hd]
        rfl
      · rw [hd]
        exact p.size_release id _

theorem size_run {labels : List (Label ω α)} (h : p.run? labels = some p') : p'.size = p.size := by
  induction labels generalizing p with
  | nil =>
      obtain rfl := Option.some.inj h
      rfl
  | cons l labels ih =>
      obtain ⟨q, hq, h⟩ := Option.bind_eq_some_iff.1 h
      exact (ih h).trans (size_step hq)

/-- **No permit is lost, and none is handed out twice.**  After any moves of a pool, the permits
that are free and the units that have begun, and neither ended nor been given up, make up its size;
so no more units are at work than it has permits.  All units that have a turn to take do so, and
where none has any more, no free permit is set aside, and a unit waits only if none is left. -/
theorem permits_conserved {n : Nat} (hn : leastSize ≤ n) {labels : List (Label ω α)} {p : Pool ω α}
    (h : (ofSize n : Pool ω α).run? labels = some p) :
    p.free + (atWork labels).length = n ∧
    (atWork labels).length ≤ n ∧
    (atWork labels).Nodup ∧
    (∀ id, id ∈ atWork labels ↔ p.stage? id = some .running) ∧
    (∃ turns q, (∀ l ∈ turns, l.isTurn = true) ∧ p.run? turns = some q ∧ q.Settled) ∧
    (p.Settled → p.available + (atWork labels).length = n ∧
      ∀ id, p.stage? id = some .waiting → p.available = 0) := by
  have hc : p.Counted (atWork labels) := (Counted.ofSize n).run h
  have sound : p.Sound := (Sound.ofSize n).run h
  have hsize : p.size = n := (size_run h).trans (Nat.max_eq_left hn)
  have hp : p.free + (atWork labels).length = n := hsize ▸ hc.permits
  have hle := Nat.le.intro ((Nat.add_comm _ _).trans hp)
  refine ⟨hp, hle, hc.once, hc.works, p.exists_settled, fun hs => ?_⟩
  rw [sound.available hs]
  exact ⟨hp, fun id => sound.no_permit hs⟩

/-- Six units are handed in to a pool of four.  One is given up before it begins and one at work; of
the others one ends, and one panics.  At the end the unit that asked last is at work, beside one
that began before, and the pool is closed. -/
theorem permits_come_back :
    let labels : List (Label Unit Nat) :=
      List.replicate 6 (.spawn none ()) ++ (List.range 6).map .ask ++ (List.range 4).map .begin ++
        [.drop 4, .drop 1, .begin 5, .finish 0 7, .panic 2, .close, .spawn none ()]
    ∃ p, (ofSize 4 : Pool Unit Nat).run? labels = some p ∧ p.free + 2 = 4 ∧
      atWork labels = [3, 5] := by
  intro labels
  have hr : ((ofSize 4 : Pool Unit Nat).run? labels).isSome = true := rfl
  obtain ⟨p, hp⟩ := Option.isSome_iff_exists.1 hr
  have hw : atWork labels = [3, 5] := rfl
  obtain ⟨hfree, -⟩ := permits_conserved (Nat.le_refl 4) hp
  rw [hw] at hfree
  exact ⟨p, hp, hfree, hw⟩

end Pool

end TunnelKeeper
