import TunnelKeeper.Proofs.Workers.Fates

/-!
# Unsettled units — units of work that may still move

A unit that waits or is at work may still move (`Pool.Unsettled`), and no move brings back one that
may not.  Whoever waits for a unit wants it (`Pool.Wanted`), and as long as it is not given up it
goes on to be wanted, whatever workers bring about (`Pool.Advances`).

* `Pool.live_eq_zero_iff`: a pool is at rest when no unit may move.
* `Pool.Wanted.joined`: a unit that is wanted can be joined then.
* `Pool.unsettled_run`, `Pool.Unsettled.of_dropAll`: no list of moves brings back a unit, and those
  that are given up are none of them.
-/

namespace TunnelKeeper.Pool

variable {ω α : Type} {p p' : Pool ω α}

/-! ### Units that may still move -/

/-- A unit waits or runs. -/
def Unsettled (p : Pool ω α) (id : UnitId) : Prop :=
  ∃ u, p.units[id]? = some u ∧ (isWaiting u = true ∨ isRunning u = true)

/-- No unit waits or runs. -/
def Quiet (p : Pool ω α) : Prop := ∀ id, ¬p.Unsettled id

theorem live_eq_zero_iff : p.live = 0 ↔ p.Quiet := by
  have hl : p.live = 0 ↔ p.units.countP isWaiting = 0 ∧ p.units.countP isRunning = 0 := by
    have hf : p.units.countP isWaiting = 0 → p.fresh.length = 0 := length_fresh_eq_zero
    unfold live running
    omega
  rw [hl, List.countP_eq_zero, List.countP_eq_zero]
  constructor
  · rintro ⟨hw, hr⟩ id ⟨u, hu, h⟩
    have hm := List.mem_of_getElem? hu
    exact h.elim (hw u hm) (hr u hm)
  · intro h
    constructor
    · intro u hu hw
      obtain ⟨id, hid⟩ := List.getElem?_of_mem hu
      exact h id ⟨u, hid, .inl hw⟩
    · intro u hu hr
      obtain ⟨id, hid⟩ := List.getElem?_of_mem hu
      exact h id ⟨u, hid, .inr hr⟩

theorem quiet_ofSize (size : Nat) : Quiet (ofSize size : Pool ω α) := by
  rintro id ⟨u, hu, -⟩
  cases hu

theorem unsettled_iff {id : UnitId} :
    p.Unsettled id ↔ p.stage? id = some .waiting ∨ p.stage? id = some .running := by
  have told : ∀ stage, p.stage? id = some stage ↔ ∃ u, p.units[id]? = some u ∧ u.stage = stage :=
    fun stage => by rw [stage?, Option.map_eq_some_iff]
  rw [told, told, Unsettled, ← exists_or]
  refine exists_congr fun u => ?_
  rw [isWaiting_iff, isRunning_iff, and_or_left]

/-- What can be joined has come to its end. -/
theorem settled_of_joined {id : UnitId} {joined : Joined α} (h : p.joined? id = some joined) :
    ¬p.Unsettled id := by
  intro hu
  rcases unsettled_iff.1 hu with hs | hs
  · simp [joined?, hs] at h
  · simp [joined?, hs] at h

namespace Unsettled

variable {id i : UnitId}

theorem of_asks (ha : p.ask? id = some p') (h : p'.Unsettled i) : p.Unsettled i := by
  obtain ⟨-, -, -, -, rfl⟩ := ask?_inv ha
  exact h

theorem of_begins (hb : p.begin? id = some p') (h : p'.Unsettled i) : p.Unsettled i := by
  have hs : p.step? (.begin id) = some p' := hb
  rw [unsettled_iff, stage?_step hs] at h
  by_cases he : id = i
  · exact unsettled_iff.2 (.inl (waiting_of_begins hs (congrArg some he)))
  · exact unsettled_iff.2 ((if_neg he : p.stageAfter i (.begin id) = _) ▸ h)

theorem of_release {stage : Stage α} (h : (p.release id stage).Unsettled i) : p.Unsettled i := by
  by_cases hr : p.stage? id = some .running
  · rw [unsettled_iff, stage?_release hr] at h
    split at h
    case isTrue he => exact unsettled_iff.2 (.inr (he ▸ hr))
    case isFalse => exact unsettled_iff.2 h
  · rwa [release_of_not_running hr] at h

theorem of_drop (h : (p.drop id).Unsettled i) : i ≠ id ∧ p.Unsettled i := by
  rw [unsettled_iff, stage?_drop] at h
  split at h
  case isTrue he =>
    cases hs : p.stage? i with
    | none => simp [hs] at h
    | some stage => cases stage <;> simp [hs, Stage.givenUp] at h
  case isFalse hne => exact ⟨fun he => hne he.symm, unsettled_iff.2 h⟩

theorem of_spawn {owner : Option Nat} {work : ω} (h : (p.spawn owner work).2.Unsettled i) :
    i = (p.spawn owner work).1 ∨ p.Unsettled i := by
  rw [unsettled_iff, stage?_spawn] at h
  split at h
  case isTrue he => exact .inl he
  case isFalse => exact .inr (unsettled_iff.2 h)

end Unsettled

/-- A unit was handed in, and not given up. -/
def Wanted (p : Pool ω α) (id : UnitId) : Prop :=
  ∃ u, p.units[id]? = some u ∧ u.stage ≠ .dropped

/-- A unit that is wanted can be joined once no unit moves any more. -/
theorem Wanted.joined {id : UnitId} (h : p.Wanted id) (hl : p.live = 0) :
    ∃ joined, p.joined? id = some joined := by
  obtain ⟨u, hu, hs⟩ := h
  have hstage : p.stage? id = some u.stage := by rw [stage?, hu, Option.map_some]
  have hq := live_eq_zero_iff.1 hl id
  rw [unsettled_iff, hstage, not_or] at hq
  unfold joined?
  rw [hstage]
  cases hend : u.stage with
  | waiting => exact absurd (congrArg some hend) hq.1
  | running => exact absurd (congrArg some hend) hq.2
  | dropped => exact absurd hend hs
  | finished | panicked | refused => exact ⟨_, rfl⟩

theorem Wanted.setStage {id i : UnitId} (h : p.Wanted i) {stage : Stage α} (hs : stage ≠ .dropped) :
    (p.setStage id stage).Wanted i := by
  obtain ⟨u, hu, hu'⟩ := h
  have hm : (p.setStage id stage).units[i]? = some (if id = i then { u with stage } else u) := by
    unfold TunnelKeeper.Pool.setStage
    rw [List.getElem?_modify, hu]
    rfl
  refine ⟨_, hm, ?_⟩
  split
  · exact hs
  · exact hu'

theorem Wanted.asks {id i : UnitId} (h : p.Wanted i) (ha : p.ask? id = some p') : p'.Wanted i := by
  obtain ⟨-, -, -, -, rfl⟩ := ask?_inv ha
  exact h

theorem Wanted.begins {id i : UnitId} (h : p.Wanted i) (hb : p.begin? id = some p') :
    p'.Wanted i := by
  obtain ⟨u, -, -, -, rfl⟩ := begin?_inv hb
  exact h.setStage nofun

theorem Wanted.release {id i : UnitId} (h : p.Wanted i) {stage : Stage α} (hs : stage ≠ .dropped) :
    (p.release id stage).Wanted i := by
  unfold TunnelKeeper.Pool.release
  split
  · split
    · exact h.setStage hs
    · exact h
  · exact h

theorem Wanted.spawn {i : UnitId} (h : p.Wanted i) (owner : Option Nat) (work : ω) :
    (p.spawn owner work).2.Wanted i := by
  obtain ⟨u, hu, hu'⟩ := h
  refine ⟨u, ?_, hu'⟩
  exact (List.getElem?_append_left (List.getElem?_eq_some_iff.1 hu).1).trans hu

/-- A unit that is handed in is wanted. -/
theorem wanted_spawn (owner : Option Nat) (work : ω) :
    (p.spawn owner work).2.Wanted (p.spawn owner work).1 := by
  refine ⟨_, List.getElem?_concat_length, ?_⟩
  cases p.closed <;> nofun

/-! ### Work that goes on -/

/-- **What workers bring about**: no permit is lost, no unit is given up, and none comes to life. -/
structure Advances (p p' : Pool ω α) : Prop where
  sound : p.Sound → p'.Sound
  wanted : ∀ id, p.Wanted id → p'.Wanted id
  unsettled : ∀ id, p'.Unsettled id → p.Unsettled id

theorem Advances.refl (p : Pool ω α) : p.Advances p := ⟨id, fun _ => id, fun _ => id⟩

theorem advances_asks {id : UnitId} (ha : p.ask? id = some p') : p.Advances p' where
  sound h := h.asks ha
  wanted _ h := h.asks ha
  unsettled _ h := h.of_asks ha

theorem advances_begins {id : UnitId} (hb : p.begin? id = some p') : p.Advances p' where
  sound h := h.begins hb
  wanted _ h := h.begins hb
  unsettled _ h := h.of_begins hb

theorem advances_release (p : Pool ω α) (id : UnitId) {stage : Stage α}
    (hs : Settles stage) (hd : stage ≠ .dropped) : p.Advances (p.release id stage) where
  sound h := h.release id hs
  wanted _ h := h.release hd
  unsettled _ h := h.of_release

/-! ### Units that are given up -/

variable {id : UnitId} {owner : Nat}

/-- No unit comes back to life. -/
theorem unsettled_run {labels : List (Label ω α)} (h : p.run? labels = some p')
    (hid : id < p.units.length) (hu : p'.Unsettled id) : p.Unsettled id := by
  rw [unsettled_iff] at hu ⊢
  cases hs : p.stage? id with
  | none => exact absurd (stage?_eq_none_iff.1 hs) (Nat.not_le_of_lt hid)
  | some stage =>
      refine Classical.byContradiction fun hn => ?_
      obtain ⟨hw, hr⟩ := not_or.1 hn
      have hsettles : Settles stage := ⟨fun he => hw (he ▸ rfl), fun he => hr (he ▸ rfl)⟩
      rw [(settled_run hsettles hs h).1] at hu
      exact hu.elim (fun hu => hsettles.1 (Option.some.inj hu)) fun hu =>
        hsettles.2 (Option.some.inj hu)

/-- The units of an owner. -/
def ownedBy (p : Pool ω α) (owner : Nat) : List UnitId :=
  (List.range p.units.length).filter fun id => (p.units[id]?.bind (·.owner)) == some owner

/-- An owner gives up its units one after the other. -/
theorem dropAll_run (p : Pool ω α) (owner : Nat) :
    p.run? ((p.ownedBy owner).map .drop) = some (p.dropAll owner) := by
  have drops : ∀ (ids : List UnitId) (q : Pool ω α),
      q.run? (ids.map .drop) = some (ids.foldl (fun q id => q.drop id) q) := by
    intro ids
    induction ids with
    | nil => exact fun _ => rfl
    | cons id ids ih => exact fun q => ih (q.drop id)
  rw [drops, ownedBy, List.foldl_filter]
  rfl

/-- **Nothing of an owner is left** that has given up its units. -/
theorem Unsettled.of_dropAll (h : (p.dropAll owner).Unsettled id) : id ∉ p.ownedBy owner := by
  intro hid
  have hlt : id < p.units.length := List.mem_range.1 (List.mem_filter.1 hid).1
  obtain ⟨before, after, hsplit⟩ := List.append_of_mem (List.mem_map_of_mem (f := Label.drop) hid)
  have hrun := p.dropAll_run owner
  rw [hsplit] at hrun
  obtain ⟨q, r, hq, hdrop, hafter⟩ := run?_split hrun
  have hlt : id < q.units.length := Nat.lt_of_lt_of_le hlt (length_le_run hq)
  obtain ⟨stage, hs, hsettles⟩ := settled_of_drop hlt hdrop
  rw [unsettled_iff, (settled_run hsettles hs hafter).1] at h
  exact h.elim (fun h => hsettles.1 (Option.some.inj h)) fun h => hsettles.2 (Option.some.inj h)

end TunnelKeeper.Pool
