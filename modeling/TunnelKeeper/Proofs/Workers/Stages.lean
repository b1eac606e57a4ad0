import TunnelKeeper.Proofs.Workers.Conservation

/-!
# Stages — what the moves of a pool make of its units

A unit waits until it begins, is given up, or finds the pool closed; once it is at work it ends,
panics, or is given up.  Nothing leads out of any of these ends.

* `stage?_step`: what a move makes of every unit.
* `comes_step`: how a unit comes to its stage.
* `settled_run`: a unit that has come to an end stays there, and makes no step.
-/

namespace TunnelKeeper.Pool

variable {ω α : Type} {p p' : Pool ω α} {l : Label ω α} {labels : List (Label ω α)} {id : UnitId}

/-! ### What a move makes of a unit -/

/-- The stage of a unit after a move. -/
def stageAfter (p : Pool ω α) (id : UnitId) : Label ω α → Option (Stage α)
  | .spawn _ _ =>
    if id = p.units.length then some (if p.closed then .refused else .waiting) else p.stage? id
  | .ask _ => p.stage? id
  | .begin i => if i = id then some .running else p.stage? id
  | .finish i result => if i = id then some (.finished result) else p.stage? id
  | .panic i => if i = id then some .panicked else p.stage? id
  | .drop i => if i = id then (p.stage? id).map Stage.givenUp else p.stage? id
  | .close => (p.stage? id).map Stage.shutOut

theorem lt_of_stage? {stage : Stage α} (h : p.stage? id = some stage) : id < p.units.length :=
  Nat.lt_of_not_le fun hle => nomatch h.symm.trans (stage?_eq_none_iff.2 hle)

theorem any_isRunning_iff : p.units[id]?.any isRunning = true ↔ p.stage? id = some .running := by
  rw [stage?, Option.any_eq_true, Option.map_eq_some_iff]
  exact exists_congr fun u => and_congr_right fun _ => isRunning_iff

/-- Only a unit at work ends or panics. -/
theorem step?_release {stage : Stage α}
    (h : (if p.units[id]?.any isRunning then some (p.release id stage) else none) = some p') :
    p.stage? id = some .running ∧ p' = p.release id stage := by
  obtain ⟨hr, h⟩ := Option.ite_none_right_eq_some.1 h
  exact ⟨any_isRunning_iff.1 hr, (Option.some.inj h).symm⟩

/-- A unit at work comes to a stage, and the others stay as they are. -/
theorem stage?_release (hr : p.stage? id = some .running) (stage : Stage α) (i : UnitId) :
    (p.release id stage).stage? i = if id = i then some stage else p.stage? i := by
  obtain ⟨u, hu, hs⟩ := Option.map_eq_some_iff.1 hr
  rw [release_of_running hu (isRunning_iff.2 hs)]
  refine (p.stage?_setStage id i stage).trans ?_
  split
  case isTrue he =>
    subst he
    rw [hr, Option.map_some]
  case isFalse => rfl

theorem stage?_drop (p : Pool ω α) (id i : UnitId) :
    (p.drop id).stage? i = if id = i then (p.stage? i).map Stage.givenUp else p.stage? i := by
  obtain ⟨hw, hd⟩ | ⟨hw, hd⟩ := p.drop_cases id
  · rw [hd]
    refine (p.stage?_setStage id i .dropped).trans ?_
    split
    case isTrue he =>
      subst he
      rw [hw]
      rfl
    case isFalse => rfl
  rw [hd]
  by_cases hr : p.stage? id = some .running
  · rw [stage?_release hr]
    split
    case isTrue he =>
      subst he
      rw [hr]
      rfl
    case isFalse => rfl
  · -- It neither waits nor is at work.
    rw [release_of_not_running hr]
    split
    case isTrue he =>
      subst he
      cases hs : p.stage? id with
      | none => rfl
      | some stage =>
          cases stage with
          | waiting => exact absurd hs hw
          | running => exact absurd hs hr
          | finished | panicked | refused | dropped => rfl
    case isFalse => rfl

/-- **What a move makes of every unit.** -/
theorem stage?_step (h : p.step? l = some p') (id : UnitId) : p'.stage? id = p.stageAfter id l := by
  cases l with
  | spawn owner work =>
      obtain rfl := Option.some.inj h
      exact p.stage?_spawn owner work id
  | ask i =>
      obtain ⟨-, -, -, -, rfl⟩ := ask?_inv h
      rfl
  | begin i =>
      obtain ⟨u, hu, -, -, rfl⟩ := begin?_inv h
      refine (p.stage?_setStage i id .running).trans ?_
      show _ = if i = id then some .running else p.stage? id
      split
      case isTrue he =>
        subst he
        rw [stage?, hu]
        rfl
      case isFalse => rfl
  | finish i result =>
      obtain ⟨hr, rfl⟩ := step?_release h
      exact stage?_release hr _ id
  | panic i =>
      obtain ⟨hr, rfl⟩ := step?_release h
      exact stage?_release hr _ id
  | drop i =>
      obtain rfl := Option.some.inj h
      exact p.stage?_drop i id
  | close =>
      obtain rfl := Option.some.inj h
      exact p.stage?_close id

/-- Whether a move hands in a unit. -/
def Label.handsIn : Label ω α → Bool
  | .spawn _ _ => true
  | _ => false

/-- How many units a list of moves hands in. -/
def handedIn (labels : List (Label ω α)) : Nat := labels.countP Label.handsIn

theorem frame_release (p : Pool ω α) (id : UnitId) (stage : Stage α) :
    (p.release id stage).closed = p.closed ∧
      (p.release id stage).units.length = p.units.length := by
  unfold release
  split
  · split
    · exact ⟨rfl, List.length_modify ..⟩
    · exact ⟨rfl, rfl⟩
  · exact ⟨rfl, rfl⟩

/-- Only closing closes, and only handing in makes more units. -/
theorem frame_step (h : p.step? l = some p') :
    (p'.closed = true ↔ p.closed = true ∨ l = .close) ∧
      p'.units.length = p.units.length + handedIn [l] := by
  have same : ∀ {q : Pool ω α}, q.closed = p.closed ∧ q.units.length = p.units.length →
      l ≠ .close → handedIn [l] = 0 → (q.closed = true ↔ p.closed = true ∨ l = .close) ∧
        q.units.length = p.units.length + handedIn [l] := by
    rintro q ⟨hc, hl⟩ hclose hspawn
    rw [hc, hl, hspawn]
    exact ⟨(or_iff_left hclose).symm, rfl⟩
  cases l with
  | spawn owner work =>
      obtain rfl := Option.some.inj h
      exact ⟨(or_iff_left nofun).symm, List.length_append⟩
  | ask i =>
      obtain ⟨-, -, -, -, rfl⟩ := ask?_inv h
      exact same ⟨rfl, rfl⟩ nofun rfl
  | begin i =>
      obtain ⟨-, -, -, -, rfl⟩ := begin?_inv h
      exact same ⟨rfl, List.length_modify ..⟩ nofun rfl
  | finish i | panic i =>
      obtain ⟨-, rfl⟩ := step?_release h
      exact same (p.frame_release i _) nofun rfl
  | drop i =>
      obtain rfl := Option.some.inj h
      obtain ⟨-, hd⟩ | ⟨-, hd⟩ := p.drop_cases i
      · exact same (hd ▸ ⟨rfl, List.length_modify ..⟩) nofun rfl
      · exact same (hd ▸ p.frame_release i _) nofun rfl
  | close =>
      obtain rfl := Option.some.inj h
      exact ⟨iff_of_true rfl (.inr rfl), List.length_map ..⟩

/-! ### Who begins -/

/-- The unit that begins with a move, if one does. -/
def Label.begins? : Label ω α → Option UnitId
  | .begin id => some id
  | _ => none

/-- The units that begin in a list of moves, in the order in which they do. -/
def beginnings (labels : List (Label ω α)) : List UnitId := labels.filterMap Label.begins?

theorem Label.begins?_eq_some (h : l.begins? = some id) : l = .begin id := by
  cases l with
  | begin i =>
      obtain rfl := Option.some.inj h
      rfl
  | _ => cases h

/-- Whoever begins has waited. -/
theorem waiting_of_begins (h : p.step? l = some p') (hb : l.begins? = some id) :
    p.stage? id = some .waiting := by
  obtain rfl := Label.begins?_eq_some hb
  obtain ⟨u, hu, hw, -, -⟩ := begin?_inv h
  rw [stage?, hu, Option.map_some, isWaiting_iff.1 hw]

theorem beginnings_cons (l : Label ω α) (labels : List (Label ω α)) :
    beginnings (l :: labels) = l.begins?.toList ++ beginnings labels := by
  cases l <;> rfl

theorem beginnings_append (before after : List (Label ω α)) :
    beginnings (before ++ after) = beginnings before ++ beginnings after :=
  List.filterMap_append

theorem run?_append {before after : List (Label ω α)} :
    p.run? (before ++ after) = (p.run? before).bind (·.run? after) :=
  List.foldlM_append

theorem run?_split {before after : List (Label ω α)} (h : p.run? (before ++ l :: after) = some p') :
    ∃ q r, p.run? before = some q ∧ q.step? l = some r ∧ r.run? after = some p' := by
  rw [run?_append] at h
  obtain ⟨q, hq, h⟩ := Option.bind_eq_some_iff.1 h
  obtain ⟨r, hr, h⟩ := Option.bind_eq_some_iff.1 h
  exact ⟨q, r, hq, hr, h⟩

/-- No unit vanishes. -/
theorem length_le_run (h : p.run? labels = some p') : p.units.length ≤ p'.units.length := by
  induction labels generalizing p with
  | nil =>
      obtain rfl := Option.some.inj h
      exact Nat.le_refl _
  | cons l labels ih =>
      obtain ⟨q, hq, h⟩ := Option.bind_eq_some_iff.1 h
      exact Nat.le_trans ((frame_step hq).2 ▸ Nat.le_add_right ..) (ih h)

/-! ### Ends -/

/-- Whether a move is a step of the work of a unit. -/
def Label.isStepOf (id : UnitId) : Label ω α → Bool
  | .finish i _ | .panic i => i == id
  | _ => false

/-- A unit that has come to an end stays there, and makes no step. -/
theorem settled_step {stage : Stage α} (hs : Settles stage) (hp : p.stage? id = some stage)
    (h : p.step? l = some p') :
    p'.stage? id = some stage ∧ l.begins? ≠ some id ∧ l.isStepOf id = false := by
  have waits : l.begins? ≠ some id := fun hb =>
    hs.1 (Option.some.inj (hp.symm.trans (waiting_of_begins h hb)))
  have works : p.stage? id ≠ some .running := fun hr => hs.2 (Option.some.inj (hp.symm.trans hr))
  rw [stage?_step h]
  refine ⟨?_, waits, ?_⟩
  · cases l with
    | spawn => exact (if_neg (Nat.ne_of_lt (lt_of_stage? hp))).trans hp
    | ask => exact hp
    | begin => exact (if_neg fun he => waits (congrArg some he)).trans hp
    | finish i | panic i =>
        refine (if_neg ?_).trans hp
        rintro rfl
        exact works (step?_release h).1
    | drop i =>
        unfold stageAfter
        rw [hp]
        cases stage with
        | waiting => exact absurd rfl hs.1
        | running => exact absurd rfl hs.2
        | finished | panicked | refused | dropped => exact ite_self _
    | close =>
        unfold stageAfter
        rw [hp]
        cases stage with
        | waiting => exact absurd rfl hs.1
        | running | finished | panicked | refused | dropped => rfl
  · cases l with
    | finish i | panic i =>
        refine beq_eq_false_iff_ne.2 ?_
        rintro rfl
        exact works (step?_release h).1
    | spawn | ask | begin | drop | close => rfl

/-- Whatever a unit that is given up was doing, it has come to an end. -/
theorem settled_of_drop (hid : id < p.units.length) (hs : p.step? (.drop id) = some p') :
    ∃ stage, p'.stage? id = some stage ∧ Settles stage := by
  cases hstage : p.stage? id with
  | none => exact absurd (stage?_eq_none_iff.1 hstage) (Nat.not_le_of_lt hid)
  | some stage =>
      refine ⟨stage.givenUp, ?_, ?_⟩
      · rw [stage?_step hs]
        simp [stageAfter, hstage]
      · cases stage <;> exact ⟨nofun, nofun⟩

/-- **Nothing leads out of an end.** -/
theorem settled_run {stage : Stage α} (hs : Settles stage) (hp : p.stage? id = some stage)
    (h : p.run? labels = some p') :
    p'.stage? id = some stage ∧ id ∉ beginnings labels ∧
      ∀ l ∈ labels, l.isStepOf id = false := by
  induction labels generalizing p with
  | nil =>
      obtain rfl := Option.some.inj h
      exact ⟨hp, nofun, nofun⟩
  | cons l labels ih =>
      obtain ⟨q, hq, h⟩ := Option.bind_eq_some_iff.1 h
      obtain ⟨hstage, hbegins, hstep⟩ := settled_step hs hp hq
      obtain ⟨hend, hbegun, hsteps⟩ := ih hstage h
      refine ⟨hend, ?_, List.forall_mem_cons.2 ⟨hstep, hsteps⟩⟩
      rw [beginnings_cons, List.mem_append, Option.mem_toList]
      exact not_or.2 ⟨hbegins, hbegun⟩

/-- **How a unit comes to its stage** with a move. -/
inductive Comes (p : Pool ω α) (l : Label ω α) (id : UnitId) : Stage α → Prop where
  | stays {stage : Stage α} (h : p.stage? id = some stage) (hb : l.begins? ≠ some id)
      (hc : l = .close → stage ≠ .waiting) : Comes p l id stage
  | handedIn (hid : id = p.units.length) (ho : p.closed = false) (hl : l.handsIn = true) :
      Comes p l id .waiting
  | turnedAway (hid : id = p.units.length) (hc : p.closed = true) : Comes p l id .refused
  | begins (hw : p.stage? id = some .waiting) (hb : l.begins? = some id) : Comes p l id .running
  | finishes {result : α} (hr : p.stage? id = some .running) (hl : l = .finish id result) :
      Comes p l id (.finished result)
  | panics (hr : p.stage? id = some .running) (hl : l = .panic id) : Comes p l id .panicked
  | givenUp (hid : id < p.units.length) (hl : l = .drop id) : Comes p l id .dropped
  | shutOut (hw : p.stage? id = some .waiting) (hl : l = .close) : Comes p l id .refused

theorem comes_step {stage : Stage α} (h : p.step? l = some p') (hs : p'.stage? id = some stage) :
    Comes p l id stage := by
  rw [stage?_step h] at hs
  cases l with
  | spawn =>
      dsimp only [stageAfter] at hs
      split at hs
      case isTrue hid =>
        cases hc : p.closed with
        | true =>
            rw [hc] at hs
            cases hs
            exact .turnedAway hid hc
        | false =>
            rw [hc] at hs
            cases hs
            exact .handedIn hid hc rfl
      case isFalse => exact .stays hs nofun nofun
  | ask => exact .stays hs nofun nofun
  | begin i =>
      dsimp only [stageAfter] at hs
      split at hs
      case isTrue he =>
        subst he
        cases hs
        exact .begins (waiting_of_begins h rfl) rfl
      case isFalse he => exact .stays hs (fun hb => he (Option.some.inj hb)) nofun
  | finish i result =>
      dsimp only [stageAfter] at hs
      split at hs
      case isTrue he =>
        subst he
        cases hs
        exact .finishes (step?_release h).1 rfl
      case isFalse => exact .stays hs nofun nofun
  | panic i =>
      dsimp only [stageAfter] at hs
      split at hs
      case isTrue he =>
        subst he
        cases hs
        exact .panics (step?_release h).1 rfl
      case isFalse => exact .stays hs nofun nofun
  | drop i =>
      dsimp only [stageAfter] at hs
      split at hs
      case isTrue he =>
        subst he
        obtain ⟨old, hold, rfl⟩ := Option.map_eq_some_iff.1 hs
        cases old with
        | waiting | running => exact .givenUp (lt_of_stage? hold) rfl
        | finished | panicked | refused | dropped => exact .stays hold nofun nofun
      case isFalse => exact .stays hs nofun nofun
  | close =>
      obtain ⟨old, hold, rfl⟩ := Option.map_eq_some_iff.1 hs
      cases old with
      | waiting => exact .shutOut hold rfl
      | running | finished | panicked | refused | dropped => exact .stays hold nofun nofun

/-- Whoever waits has waited, if it was there. -/
theorem waiting_step (h : p.step? l = some p') (hid : id < p.units.length)
    (hw : p'.stage? id = some .waiting) : p.stage? id = some .waiting := by
  cases comes_step h hw with
  | stays hw => exact hw
  | handedIn hnew => exact absurd hid (hnew ▸ Nat.lt_irrefl _)

/-- Whoever is at work was so, or has just begun. -/
theorem running_step (h : p.step? l = some p') (hr : p'.stage? id = some .running) :
    l.begins? = some id ∨ p.stage? id = some .running := by
  cases comes_step h hr with
  | stays hr => exact .inr hr
  | begins _ hb => exact .inl hb

/-- In a closed pool nobody waits, so nobody begins. -/
theorem shut_run (hc : p.closed = true) (hn : ∀ i, p.stage? i ≠ some .waiting)
    (h : p.run? labels = some p') : beginnings labels = [] := by
  induction labels generalizing p with
  | nil => rfl
  | cons l labels ih =>
      obtain ⟨q, hq, h⟩ := Option.bind_eq_some_iff.1 h
      have hbegins : l.begins? = none := Option.eq_none_iff_forall_ne_some.2 fun i hi =>
        hn i (waiting_of_begins hq hi)
      rw [beginnings_cons, hbegins]
      refine ih ((frame_step hq).1.2 (.inl hc)) (fun i hi => ?_) h
      cases comes_step hq hi with
      | stays hw => exact hn i hw
      | handedIn _ ho => exact absurd (hc.symm.trans ho) nofun

end TunnelKeeper.Pool
