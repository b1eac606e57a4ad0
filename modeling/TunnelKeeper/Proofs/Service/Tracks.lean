import TunnelKeeper.Proofs.Service.Custody
import TunnelKeeper.Proofs.Workers.Permits

/-!
# Tracks — the one start of the proxy in a pool

Only the task with the lock starts the proxy, and it starts one at a time.  `Tracks pool o` says
that `o` is the start that is pending in the pool, and that there is no other: whichever unit
begins, ends or is given up, either that is a move of the pending start (`Drift`), or nothing that
the lock guards is concerned.

* `Tracks.begins`, `Tracks.ends`, `Tracks.drops`, `Tracks.dropsAll`, `Tracks.closes`: the moves.
* `Tracks.spawns`, `Tracks.starts`: a unit is handed in.
* `Tracks.joins`, `Tracks.timesOut`, `Tracks.abandons`: what becomes of the pending start.
-/

namespace TunnelKeeper.Service

variable {pool : Pool Work Bool} {o : Option Pending} {c : Custody}

theorem World.custody_note (w : World) (e : Entry) :
    (w.note e).custody = { w.custody with deeds := w.custody.deeds ++ e.deed?.toList } := by
  simp only [World.custody, World.deeds, World.note, List.filterMap_append, List.filterMap_cons,
    List.filterMap_nil]
  cases e.deed? <;> rfl

theorem Entry.deed?_began_other {id : UnitId} {work : Work}
    (h : ∀ config, work ≠ .startProxy config) : (Entry.began id work).deed? = none := by
  cases work with
  | startProxy config => exact absurd rfl (h config)
  | _ => rfl

theorem Entry.deed?_ended_other {id : UnitId} {work : Work} {result : Option Bool}
    (h : ∀ config, work ≠ .startProxy config) : (Entry.ended id work result).deed? = none := by
  cases work with
  | startProxy config => exact absurd rfl (h config)
  | _ => rfl

/-- Whether a unit may still move. -/
def isLive (stage : Stage Bool) : Prop := stage = .waiting ∨ stage = .running

theorem stage_of_isWaiting {u : WorkUnit Work Bool} (h : Pool.isWaiting u = true) :
    u.stage = .waiting := by
  unfold Pool.isWaiting at h
  split at h
  · assumption
  · cases h

theorem stage_of_isRunning {u : WorkUnit Work Bool} (h : Pool.isRunning u = true) :
    u.stage = .running := by
  unfold Pool.isRunning at h
  split at h
  · assumption
  · cases h

/-- The stage of a unit that has ended, with a result or without one. -/
def endStage : Option Bool → Stage Bool
  | some b => .finished b
  | none => .panicked

/-- **What is pending in a pool**: of the units that may still move, at most this one starts the
proxy. -/
structure Tracks (pool : Pool Work Bool) (o : Option Pending) : Prop where
  there : ∀ p, o = some p → ∃ u, pool.units[p.id]? = some u ∧ u.work = .startProxy p.config ∧
    u.stage = p.stage
  only : ∀ id u config, pool.units[id]? = some u → u.work = .startProxy config → isLive u.stage →
    ∃ p, o = some p ∧ p.id = id

namespace Tracks

theorem empty (size : Nat) : Tracks (Pool.ofSize size) none where
  there _ h := by cases h
  only id u _ h := by simp [Pool.ofSize] at h

/-- The pending start is the unit that it tracks. -/
theorem unit (h : Tracks pool o) {id : UnitId} {u : WorkUnit Work Bool} {config : TunnelConfig}
    (hu : pool.units[id]? = some u) (hw : u.work = .startProxy config) (hl : isLive u.stage) :
    o = some ⟨id, config, u.stage⟩ := by
  obtain ⟨p, rfl, rfl⟩ := h.only id u config hu hw hl
  obtain ⟨u', hu', hw', hs⟩ := h.there p rfl
  obtain rfl : u = u' := by simpa [hu] using hu'
  obtain rfl : config = p.config := by simpa [hw] using hw'
  rw [hs]

/-! ### Moves -/

theorem units_setStage (pool : Pool Work Bool) (id i : UnitId) (stage : Stage Bool) :
    (pool.setStage id stage).units[i]? =
      pool.units[i]?.map fun u => if id = i then { u with stage } else u :=
  List.getElem?_modify _ id pool.units i

/-- A unit that does not start the proxy moves. -/
theorem setStage_other (h : Tracks pool o) {id : UnitId} {u : WorkUnit Work Bool}
    (hu : pool.units[id]? = some u) (hw : ∀ config, u.work ≠ .startProxy config)
    {pool' : Pool Work Bool} {stage : Stage Bool}
    (hp : pool'.units = (pool.setStage id stage).units) : Tracks pool' o where
  there p ho := by
    obtain ⟨v, hv, hvw, hvs⟩ := h.there p ho
    refine ⟨v, ?_, hvw, hvs⟩
    -- The pending start is another unit, as this one does other work.
    have hne : id ≠ p.id := by
      rintro rfl
      rw [hu, Option.some.injEq] at hv
      exact hw p.config (hv ▸ hvw)
    rw [hp, units_setStage, hv, Option.map_some, if_neg hne]
  only i v config hv hvw hl := by
    rw [hp, units_setStage] at hv
    obtain ⟨v, hv', rfl⟩ := Option.map_eq_some_iff.1 hv
    split at hvw
    case isTrue he =>
      subst he
      rw [hu, Option.some.injEq] at hv'
      exact absurd (hv' ▸ hvw) (hw config)
    case isFalse he =>
      rw [if_neg he] at hl
      exact h.only i v config hv' hvw hl

/-- The pending start moves. -/
theorem setStage_pending {p : Pending} (h : Tracks pool (some p)) {pool' : Pool Work Bool}
    {stage : Stage Bool} (hp : pool'.units = (pool.setStage p.id stage).units) :
    Tracks pool' (some { p with stage }) where
  there q hq := by
    cases hq
    obtain ⟨v, hv, hvw, -⟩ := h.there p rfl
    refine ⟨{ v with stage }, ?_, hvw, rfl⟩
    rw [hp, units_setStage, hv, Option.map_some, if_pos rfl]
  only i v config hv hvw hl := by
    rw [hp, units_setStage] at hv
    obtain ⟨v, hv', rfl⟩ := Option.map_eq_some_iff.1 hv
    split at hvw
    case isTrue he => exact ⟨_, rfl, he⟩
    case isFalse he =>
      rw [if_neg he] at hl
      obtain ⟨q, hq, rfl⟩ := h.only i v config hv' hvw hl
      exact ⟨_, rfl, by cases hq; rfl⟩

/-- A unit moves from one stage to another: it is the pending start, or it is no matter. -/
theorem setStage (h : Tracks pool o) {id : UnitId} {u : WorkUnit Work Bool}
    (hu : pool.units[id]? = some u) (hl : isLive u.stage) (stage : Stage Bool)
    {pool' : Pool Work Bool} (hp : pool'.units = (pool.setStage id stage).units) {c' : Custody}
    (other : (∀ config, u.work ≠ .startProxy config) → c' = c)
    (pending : ∀ config, u.work = .startProxy config →
      Drift (some ⟨id, config, u.stage⟩) c (some ⟨id, config, stage⟩) c') :
    ∃ o', Tracks pool' o' ∧ Drifts o c o' c' := by
  by_cases hw : ∃ config, u.work = .startProxy config
  · obtain ⟨config, hw⟩ := hw
    obtain rfl := h.unit hu hw hl
    exact ⟨_, h.setStage_pending hp, .one (pending config hw)⟩
  · rw [not_exists] at hw
    rw [other hw]
    exact ⟨o, h.setStage_other hu hw hp, .refl _ _⟩

/-- Who asks for a permit moves no unit. -/
theorem asks (h : Tracks pool o) {id : UnitId} {pool' : Pool Work Bool}
    (ha : pool.ask? id = some pool') : Tracks pool' o := by
  obtain ⟨-, -, -, -, rfl⟩ := Pool.ask?_inv ha
  exact ⟨h.there, h.only⟩

theorem begins (h : Tracks pool o) {id : UnitId} {pool' : Pool Work Bool}
    (hb : pool.begin? id = some pool') {u : WorkUnit Work Bool} (hu : pool'.units[id]? = some u)
    (w : World) : ∃ o', Tracks pool' o' ∧
      Drifts o w.custody o' (w.note (.began id u.work)).custody := by
  obtain ⟨v, hv, hwait, -, rfl⟩ := Pool.begin?_inv hb
  have hs : v.stage = .waiting := stage_of_isWaiting hwait
  have hw : u.work = v.work := by
    have hu : (pool.setStage id .running).units[id]? = some u := hu
    rw [units_setStage, hv, Option.map_some, if_pos rfl] at hu
    rw [← Option.some.inj hu]
  refine h.setStage hv (.inl hs) .running ?_ (fun ho => ?_) fun config hc => ?_
  · rfl
  · rw [World.custody_note, Entry.deed?_began_other (hw ▸ ho)]
    simp
  · rw [World.custody_note, hw, hc, hs]
    exact .begins rfl

/-- A running unit gives its permit back and ends in a stage. -/
theorem units_release {id : UnitId} {u : WorkUnit Work Bool} (hu : pool.units[id]? = some u)
    (hr : Pool.isRunning u = true) (stage : Stage Bool) :
    (pool.release id stage).units = (pool.setStage id stage).units := by
  rw [Pool.release_of_running hu hr]

theorem ends (h : Tracks pool o) {id : UnitId} {u : WorkUnit Work Bool}
    (hu : pool.units[id]? = some u) (hr : Pool.isRunning u = true) (w : World)
    (result : Option Bool) :
    ∃ o', Tracks (pool.release id (endStage result)) o' ∧
      Drifts o w.custody o' (w.note (.ended id u.work result)).custody := by
  have hs : u.stage = .running := stage_of_isRunning hr
  refine h.setStage hu (.inr hs) _ (units_release hu hr _) (fun hw => ?_) fun config hw => ?_
  · rw [World.custody_note, Entry.deed?_ended_other hw]
    simp
  · rw [World.custody_note, hw, hs]
    cases result with
    | some b => exact .ends b rfl
    | none => exact .panics rfl

/-- A unit that is given up stays what it was, or is dropped. -/
theorem drop_cases (pool : Pool Work Bool) (id : UnitId) :
    (pool.drop id = pool ∧ ∀ u, pool.units[id]? = some u → ¬isLive u.stage) ∨
      ∃ u, pool.units[id]? = some u ∧ isLive u.stage ∧
        (pool.drop id).units = (pool.setStage id .dropped).units := by
  unfold Pool.drop
  split
  case h_2 hu => exact .inl ⟨rfl, fun u h => by rw [hu] at h; cases h⟩
  case h_1 u hu =>
    cases hw : Pool.isWaiting u with
    | true => exact .inr ⟨u, hu, .inl (stage_of_isWaiting hw), rfl⟩
    | false =>
        cases hr : Pool.isRunning u with
        | true => exact .inr ⟨u, hu, .inr (stage_of_isRunning hr), units_release hu hr _⟩
        | false =>
            refine .inl ⟨by simp [Pool.release, hu, hr], fun v hv hl => ?_⟩
            obtain rfl : u = v := by simpa [hu] using hv
            rcases hl with hl | hl
            · simp [Pool.isWaiting, hl] at hw
            · simp [Pool.isRunning, hl] at hr

/-- A unit that is given up by anybody. -/
theorem drops (h : Tracks pool o) (id : UnitId) (c : Custody) :
    ∃ o', Tracks (pool.drop id) o' ∧ Drifts o c o' c := by
  rcases drop_cases pool id with ⟨hp, -⟩ | ⟨u, hu, hl, hp⟩
  · exact ⟨o, by rwa [hp], .refl _ _⟩
  · exact h.setStage hu hl _ hp (fun _ => rfl) fun config _ => .dropped hl

theorem dropsAll (h : Tracks pool o) (owner : Nat) (c : Custody) :
    ∃ o', Tracks (pool.dropAll owner) o' ∧ Drifts o c o' c := by
  suffices hs : ∀ (ids : List UnitId) {q : Pool Work Bool} {o : Option Pending}, Tracks q o →
      ∃ o', Tracks (ids.foldl (fun q id =>
        if (pool.units[id]?.bind (·.owner)) == some owner then q.drop id else q) q) o' ∧
          Drifts o c o' c from hs _ h
  intro ids
  induction ids with
  | nil => exact fun {q o} h => ⟨o, h, .refl _ _⟩
  | cons id ids ih =>
      intro q o h
      rw [List.foldl_cons]
      split
      · obtain ⟨o₁, h₁, hd₁⟩ := h.drops id c
        obtain ⟨o₂, h₂, hd₂⟩ := ih h₁
        exact ⟨o₂, h₂, hd₁.trans hd₂⟩
      · exact ih h

theorem units_close (pool : Pool Work Bool) (i : UnitId) :
    pool.close.units[i]? = pool.units[i]?.map fun u =>
      if Pool.isWaiting u then { u with stage := .refused } else u :=
  List.getElem?_map

/-- The pool takes no more work. -/
theorem closes (h : Tracks pool o) (c : Custody) :
    ∃ o', Tracks pool.close o' ∧ Drifts o c o' c := by
  have only : ∀ {i v config}, pool.close.units[i]? = some v → v.work = .startProxy config →
      isLive v.stage → ∃ p, o = some p ∧ p.id = i := by
    intro i v config hv hw hl
    rw [units_close] at hv
    obtain ⟨u, hu, rfl⟩ := Option.map_eq_some_iff.1 hv
    cases hs : Pool.isWaiting u with
    | true => simp [hs, isLive] at hl
    | false =>
        rw [hs] at hw hl
        exact h.only i u config hu hw hl
  cases o with
  | none =>
      refine ⟨none, ⟨by simp, fun i v config hv hw hl => only hv hw hl⟩, .refl _ _⟩
  | some p =>
      obtain ⟨u, hu, hw, hs⟩ := h.there p rfl
      have hc : pool.close.units[p.id]? = some
          (if Pool.isWaiting u then { u with stage := .refused } else u) := by
        rw [units_close, hu, Option.map_some]
      -- The pending start is refused if it waits, and otherwise it goes on.
      cases hk : Pool.isWaiting u with
      | true =>
          rw [hk, if_pos rfl] at hc
          refine ⟨some { p with stage := .refused },
            ⟨fun q hq => ?_, fun i v config hv hw hl => ?_⟩,
            .one (.refused (hs ▸ stage_of_isWaiting hk))⟩
          · cases hq
            exact ⟨_, hc, hw, rfl⟩
          · obtain ⟨q, hq, rfl⟩ := only hv hw hl
            exact ⟨_, rfl, by cases hq; rfl⟩
      | false =>
          rw [hk] at hc
          refine ⟨some p, ⟨fun q hq => ?_, fun i v config hv hw hl => only hv hw hl⟩, .refl _ _⟩
          cases hq
          exact ⟨u, hc, hw, hs⟩

/-! ### Handing in and joining -/

theorem units_spawn (pool : Pool Work Bool) (owner : Option Nat) (work : Work) (i : UnitId) :
    (pool.spawn owner work).2.units[i]? = if i = pool.units.length then
      some ⟨owner, work, if pool.closed then .refused else .waiting⟩ else pool.units[i]? := by
  rcases Nat.lt_trichotomy i pool.units.length with hi | rfl | hi
  · rw [if_neg (Nat.ne_of_lt hi)]
    exact List.getElem?_append_left hi
  · rw [if_pos rfl]
    exact List.getElem?_concat_length
  · rw [if_neg (Nat.ne_of_gt hi), List.getElem?_eq_none (Nat.le_of_lt hi)]
    exact List.getElem?_eq_none (by simpa [Pool.spawn] using Nat.succ_le_of_lt hi)

theorem spawns (h : Tracks pool o) (owner : Option Nat) {work : Work}
    (hw : ∀ config, work ≠ .startProxy config) : Tracks (pool.spawn owner work).2 o where
  there p ho := by
    obtain ⟨u, hu, huw, hus⟩ := h.there p ho
    refine ⟨u, ?_, huw, hus⟩
    have hlt : p.id < pool.units.length := (List.getElem?_eq_some_iff.1 hu).1
    rw [units_spawn, if_neg (Nat.ne_of_lt hlt), hu]
  only i u config hu huw hl := by
    rw [units_spawn] at hu
    split at hu
    · cases hu
      exact absurd huw (hw config)
    · exact h.only i u config hu huw hl

/-- The task with the lock hands in a start of the proxy. -/
theorem starts (h : Tracks pool none) (owner : Option Nat) (config : TunnelConfig) :
    Tracks (pool.spawn owner (.startProxy config)).2
      (some ⟨pool.units.length, config, if pool.closed then .refused else .waiting⟩) where
  there p hp := by
    cases hp
    exact ⟨_, by rw [units_spawn, if_pos rfl], rfl, rfl⟩
  only i u config hu huw hl := by
    rw [units_spawn] at hu
    split at hu
    case isTrue hi => exact ⟨_, rfl, hi.symm⟩
    case isFalse =>
      obtain ⟨p, hp, -⟩ := h.only i u config hu huw hl
      cases hp

/-- A pending start that has ended is no longer pending. -/
theorem settled {p : Pending} (h : Tracks pool (some p)) (hp : ¬isLive p.stage) :
    Tracks pool none where
  there _ ho := by cases ho
  only i u config hu hw hl := by
    have hq := h.unit hu hw hl
    cases hq
    exact absurd hl hp

theorem joins (h : Tracks pool o) {id : UnitId} {joined : Pool.Joined Bool}
    (hj : pool.joined? id = some joined) : ∃ o', Pending.Joins o id joined o' ∧ Tracks pool o' := by
  cases o with
  | none => exact ⟨none, rfl, h⟩
  | some p =>
      by_cases hp : p.id = id
      · subst hp
        obtain ⟨u, hu, -, hs⟩ := h.there p rfl
        simp only [Pool.joined?, Pool.stage?, hu, Option.map_some, hs] at hj
        refine ⟨none, Pending.joins_self.2 (.inl ⟨?_, rfl⟩), h.settled ?_⟩
        · rw [← hj]
          cases p.stage <;> rfl
        · rintro (hl | hl) <;> rw [hl] at hj <;> cases hj
      · exact ⟨some p, by simp [Pending.Joins, hp], h⟩

theorem timesOut (h : Tracks pool o) (id : UnitId) :
    ∃ o', Pending.Joins o id .timedOut o' ∧ Tracks pool o' := by
  refine ⟨o, ?_, h⟩
  cases o with
  | none => rfl
  | some p =>
      by_cases hp : p.id = id
      · subst hp
        exact Pending.joins_self.2 (.inr ⟨rfl, rfl⟩)
      · simp [Pending.Joins, hp]

/-- A unit that is given up by the task with the lock is no longer pending. -/
theorem abandons (h : Tracks pool o) (id : UnitId) :
    Tracks (pool.drop id) (Pending.abandon o id) := by
  rcases drop_cases pool id with ⟨hp, hn⟩ | ⟨u, hu, hl, hp⟩
  · rw [hp]
    cases o with
    | none => exact h
    | some p =>
        by_cases hi : p.id = id
        · subst hi
          obtain ⟨u, hu, -, hs⟩ := h.there p rfl
          rw [Pending.abandon_self]
          exact h.settled (hs ▸ hn u hu)
        · rwa [Pending.abandon_other fun q hq => by cases hq; exact hi]
  · by_cases hw : ∃ config, u.work = .startProxy config
    · obtain ⟨config, hw⟩ := hw
      obtain rfl := h.unit hu hw hl
      rw [Pending.abandon_self ⟨id, config, u.stage⟩]
      exact (h.setStage_pending hp).settled (by simp [isLive])
    · rw [not_exists] at hw
      rw [Pending.abandon_other]
      · exact h.setStage_other hu hw hp
      · rintro p rfl rfl
        obtain ⟨v, hv, hvw, -⟩ := h.there p rfl
        rw [hu, Option.some.injEq] at hv
        exact hw p.config (hv ▸ hvw)

end Tracks

end TunnelKeeper.Service
