import TunnelKeeper.Proofs.Workers.Turns

/-!
# Fates — every unit has one, and the moves of the pool tell which

The stage of a unit tells which of the moves so far were its own (`Told`), and nothing leads out of
its end.  So the fate of every unit can be read from the list of moves alone.

* `Told.step`, `told_run`: the stage of a unit tells its past.
* `one_fate_each`: which units begin, how they get their permits, and what joining one gives.
* `later_unit_begins_first`: units need not begin in the order in which they were handed in.
-/

namespace TunnelKeeper.Pool

variable {ω α : Type} {p p' : Pool ω α} {l : Label ω α} {labels : List (Label ω α)} {id : UnitId}

/-! ### What a stage tells -/

/-- A unit is given up by a list of moves, once it was handed in. -/
def GivenUp (labels : List (Label ω α)) (id : UnitId) : Prop :=
  ∃ before after, labels = before ++ .drop id :: after ∧ id < handedIn before

/-- What the stage of a unit tells of the moves so far. -/
def Tells (labels : List (Label ω α)) (id : UnitId) : Stage α → Prop
  | .waiting => id ∉ beginnings labels ∧ .close ∉ labels
  | .running => id ∈ beginnings labels
  | .finished result => id ∈ beginnings labels ∧ .finish id result ∈ labels
  | .panicked => id ∈ beginnings labels ∧ .panic id ∈ labels
  | .refused => id ∉ beginnings labels ∧ .close ∈ labels
  | .dropped => GivenUp labels id

/-- **What a pool has come to tells of its moves**, which were `labels`. -/
structure Told (p : Pool ω α) (labels : List (Label ω α)) : Prop where
  once : (beginnings labels).Nodup
  known : ∀ i ∈ beginnings labels, i < p.units.length
  handedIn : p.units.length = handedIn labels
  closed : p.closed = true ↔ .close ∈ labels
  tells : ∀ id stage, p.stage? id = some stage → Tells labels id stage

theorem GivenUp.more (h : GivenUp labels id) (l : Label ω α) : GivenUp (labels ++ [l]) id := by
  obtain ⟨before, after, rfl, hid⟩ := h
  exact ⟨before, after ++ [l], by simp, hid⟩

/-- With one move more, one unit more may have begun. -/
theorem mem_beginnings_concat {i : UnitId} :
    i ∈ beginnings (labels ++ [l]) ↔ i ∈ beginnings labels ∨ l.begins? = some i := by
  have hone : beginnings [l] = l.begins?.toList :=
    (beginnings_cons l []).trans (List.append_nil _)
  rw [beginnings_append, List.mem_append, hone, Option.mem_toList]

/-- What the stage tells of a unit that stays as it is. -/
theorem Tells.more {stage : Stage α} (h : Tells labels id stage) (hb : l.begins? ≠ some id)
    (hc : l = .close → stage ≠ .waiting) : Tells (labels ++ [l]) id stage := by
  have begun : id ∈ beginnings labels → id ∈ beginnings (labels ++ [l]) := fun hi =>
    mem_beginnings_concat.2 (.inl hi)
  have waited : id ∉ beginnings labels → id ∉ beginnings (labels ++ [l]) := fun hn hi =>
    (mem_beginnings_concat.1 hi).elim hn hb
  cases stage with
  | waiting =>
      refine ⟨waited h.1, fun hl => ?_⟩
      rcases List.mem_append.1 hl with hl | hl
      · exact h.2 hl
      · exact hc (List.mem_singleton.1 hl).symm rfl
  | running => exact begun h
  | finished | panicked => exact ⟨begun h.1, List.mem_append_left _ h.2⟩
  | refused => exact ⟨waited h.1, List.mem_append_left _ h.2⟩
  | dropped => exact GivenUp.more h l

namespace Told

theorem ofSize (size : Nat) : Told (ofSize size : Pool ω α) [] :=
  ⟨.nil, nofun, rfl, ⟨nofun, nofun⟩, fun _ _ h => nomatch h⟩

/-- **Every move tells.** -/
theorem step (h : Told p labels) (hs : p.step? l = some p') : Told p' (labels ++ [l]) := by
  obtain ⟨hclosed, hlength⟩ := frame_step hs
  have later : ∀ {i}, i ∈ beginnings (labels ++ [l]) → i < p.units.length := fun hi =>
    (mem_beginnings_concat.1 hi).elim (h.known _) fun hb => lt_of_stage? (waiting_of_begins hs hb)
  refine ⟨?_, fun i hi => ?_, ?_, ?_, fun id stage hstage => ?_⟩
  · rw [beginnings_append, beginnings_cons]
    refine List.nodup_append.2 ⟨h.once, ?_, fun i hi j hj => ?_⟩
    · cases l.begins? with
      | none => exact .nil
      | some i => exact List.nodup_cons.2 ⟨nofun, .nil⟩
    · rintro rfl
      have hb : l.begins? = some i := by simpa [beginnings] using hj
      exact (h.tells i _ (waiting_of_begins hs hb)).1 hi
  · exact Nat.lt_of_lt_of_le (later hi) (hlength ▸ Nat.le_add_right ..)
  · rw [hlength, h.handedIn]
    exact (List.countP_append ..).symm
  · rw [hclosed, h.closed, List.mem_append, List.mem_singleton, @eq_comm _ l]
  · have unbegun : id = p.units.length → id ∉ beginnings (labels ++ [l]) := fun hid hi =>
      Nat.ne_of_lt (later hi) hid
    have begun : id ∈ beginnings labels → id ∈ beginnings (labels ++ [l]) := fun hi =>
      mem_beginnings_concat.2 (.inl hi)
    cases comes_step hs hstage with
    | stays hstage hb hc => exact (h.tells id stage hstage).more hb hc
    | handedIn hid ho hl =>
        refine ⟨unbegun hid, fun hc => ?_⟩
        rcases List.mem_append.1 hc with hc | hc
        · exact absurd (ho.symm.trans (h.closed.2 hc)) nofun
        · rw [← List.mem_singleton.1 hc] at hl
          cases hl
    | turnedAway hid hc => exact ⟨unbegun hid, List.mem_append_left _ (h.closed.1 hc)⟩
    | begins _ hb => exact mem_beginnings_concat.2 (.inr hb)
    | finishes hr hl => exact ⟨begun (h.tells id _ hr), hl ▸ List.mem_concat_self⟩
    | panics hr hl => exact ⟨begun (h.tells id _ hr), hl ▸ List.mem_concat_self⟩
    | givenUp hid hl => exact ⟨labels, [], hl ▸ rfl, h.handedIn ▸ hid⟩
    | shutOut hw hl =>
        refine ⟨fun hi => ?_, hl ▸ List.mem_concat_self⟩
        refine (mem_beginnings_concat.1 hi).elim (h.tells id _ hw).1 fun hb => ?_
        rw [hl] at hb
        cases hb

/-- **Every list of moves tells.** -/
theorem run (h : Told p labels) {more : List (Label ω α)} (hr : p.run? more = some p') :
    Told p' (labels ++ more) := by
  induction more generalizing p labels with
  | nil =>
      obtain rfl := Option.some.inj hr
      rw [List.append_nil]
      exact h
  | cons l more ih =>
      obtain ⟨q, hq, hr⟩ := Option.bind_eq_some_iff.1 hr
      have hnext := ih (h.step hq) hr
      rw [List.append_assoc] at hnext
      exact hnext

end Told

theorem told_run {size : Nat} (h : (ofSize size : Pool ω α).run? labels = some p) :
    Told p labels := by
  simpa using (Told.ofSize size).run h

/-! ### Fates -/

theorem joined?_eq_value_iff {result : α} :
    p.joined? id = some (.value result) ↔ p.stage? id = some (.finished result) := by
  unfold joined?
  split <;> simp_all

theorem joined?_eq_panicked_iff : p.joined? id = some .panicked ↔ p.stage? id = some .panicked := by
  unfold joined?
  split <;> simp_all

theorem joined?_eq_refused_iff : p.joined? id = some .refused ↔ p.stage? id = some .refused := by
  unfold joined?
  split <;> simp_all

/-- **One fate for each unit**: what the moves from `p₀` to `p` tell of it. -/
structure OneFate (p₀ : Pool ω α) (labels : List (Label ω α)) (p : Pool ω α) : Prop where
  /-- No unit begins twice. -/
  once : (beginnings labels).Nodup
  /-- Permits go to units in the order of asking.  A unit that begins has asked for one, and everybody
  who has asked before it and still waits has one as well, and can begin. -/
  inTurn : ∀ before id after q, labels = before ++ .begin id :: after → p₀.run? before = some q →
    id ∈ askings before ∧ ∀ j, [j, id].Sublist (askings before) → q.stage? j = some .waiting →
      ∃ r, q.begin? j = some r
  /-- Who can begin can still do so whatever others do, as long as the pool is open. -/
  kept : ∀ id r, p.begin? id = some r → ∀ more q, p.run? more = some q → .begin id ∉ more →
    .drop id ∉ more → .close ∉ more → ∃ r, q.begin? id = some r
  /-- Joining gives a value where the unit began and ended with it, -/
  value : ∀ id result, p.joined? id = some (.value result) ↔
    id ∈ beginnings labels ∧ .finish id result ∈ labels
  /-- an abnormal end where it began and panicked, -/
  panicked : ∀ id, p.joined? id = some .panicked ↔
    id ∈ beginnings labels ∧ .panic id ∈ labels
  /-- and nothing where the pool was closed before it began. -/
  refused : ∀ id, id < handedIn labels → ¬GivenUp labels id → (p.joined? id = some .refused ↔
    ∃ before after, labels = before ++ .close :: after ∧ id ∉ beginnings before)
  unbegun : ∀ id, p.joined? id = some .refused → id ∉ beginnings labels
  /-- A unit that is not given up can be joined, as soon as it neither waits nor is at work. -/
  joins : ∀ id, id < handedIn labels → ¬GivenUp labels id → p.stage? id ≠ some .waiting →
    p.stage? id ≠ some .running → ∃ joined, p.joined? id = some joined
  /-- A unit that has begun can still give any value, be the pool closed or not. -/
  works : ∀ id ∈ beginnings labels, (∀ l ∈ labels, l.isStepOf id = false) →
    ¬GivenUp labels id → ∀ result, ∃ q, p.step? (.finish id result) = some q ∧
      q.joined? id = some (.value result)
  /-- A unit that is given up makes no step from then on, and does not begin any more. -/
  givenUp : ∀ id before after, labels = before ++ .drop id :: after → id < handedIn before →
    (∀ l ∈ after, l.isStepOf id = false) ∧
      (id ∈ beginnings labels → id ∈ beginnings before)

/-- A unit that a move has brought to an end is still there. -/
theorem stage?_of_mem {p₀ : Pool ω α} (h : p₀.run? labels = some p) (hl : l ∈ labels)
    {stage : Stage α} (hs : Settles stage) (hend : ∀ q, stageAfter q id l = some stage) :
    p.stage? id = some stage := by
  obtain ⟨before, after, rfl⟩ := List.append_of_mem hl
  obtain ⟨q, r, -, hstep, hafter⟩ := run?_split h
  exact (settled_run hs ((stage?_step hstep id).trans (hend q)) hafter).1

/-- Once the pool is closed nobody begins. -/
theorem beginnings_shut {p₀ : Pool ω α} {before after : List (Label ω α)}
    (h : p₀.run? (before ++ .close :: after) = some p) :
    beginnings (before ++ .close :: after) = beginnings before := by
  obtain ⟨q, r, -, hclose, hafter⟩ := run?_split h
  obtain rfl := Option.some.inj hclose
  have hshut : beginnings after = [] := by
    refine shut_run rfl (fun i hi => ?_) hafter
    cases comes_step hclose hi with
    | stays _ _ hw => exact hw rfl rfl
    | handedIn _ _ hl => cases hl
  rw [beginnings_append, beginnings_cons, hshut]
  exact List.append_nil _

namespace Told

theorem staged (h : Told p labels) (hid : id < Pool.handedIn labels) :
    ∃ stage, p.stage? id = some stage ∧ Tells labels id stage := by
  cases hs : p.stage? id with
  | none => exact absurd (stage?_eq_none_iff.1 hs) (Nat.not_le_of_lt (h.handedIn ▸ hid))
  | some stage => exact ⟨stage, rfl, h.tells id stage hs⟩

/-- What was handed in, did not begin before the pool was closed and is not given up is refused. -/
theorem shut (h : Told p labels) (hid : id < Pool.handedIn labels) (hkept : ¬GivenUp labels id)
    (hclose : .close ∈ labels) (hn : id ∉ beginnings labels) : p.stage? id = some .refused := by
  obtain ⟨stage, hs, htells⟩ := h.staged hid
  cases stage with
  | refused => exact hs
  | waiting => exact absurd hclose htells.2
  | running => exact absurd htells hn
  | finished | panicked => exact absurd htells.1 hn
  | dropped => exact absurd htells hkept

/-- What has begun, has made no step to its end and is not given up is at work. -/
theorem atWork (h : Told p labels) (hid : id ∈ beginnings labels) (hkept : ¬GivenUp labels id)
    (hsteps : ∀ l ∈ labels, l.isStepOf id = false) : p.stage? id = some .running := by
  obtain ⟨stage, hs, htells⟩ := h.staged (h.handedIn ▸ h.known id hid)
  cases stage with
  | running => exact hs
  | waiting | refused => exact absurd hid htells.1
  | finished | panicked =>
      have hstep := hsteps _ htells.2
      rw [Label.isStepOf, beq_self_eq_true] at hstep
      cases hstep
  | dropped => exact absurd htells hkept

/-- What neither waits nor is at work and is not given up can be joined. -/
theorem joins (h : Told p labels) (hid : id < Pool.handedIn labels) (hkept : ¬GivenUp labels id)
    (hw : p.stage? id ≠ some .waiting) (hr : p.stage? id ≠ some .running) :
    ∃ joined, p.joined? id = some joined := by
  obtain ⟨stage, hs, htells⟩ := h.staged hid
  cases stage with
  | waiting => exact absurd hs hw
  | running => exact absurd hs hr
  | finished result => exact ⟨_, joined?_eq_value_iff.2 hs⟩
  | panicked => exact ⟨_, joined?_eq_panicked_iff.2 hs⟩
  | refused => exact ⟨_, joined?_eq_refused_iff.2 hs⟩
  | dropped => exact absurd htells hkept

end Told

/-- **Each unit has one fate.**  After any moves of a pool, whoever takes part in it, units have got
their permits in the order in which they have asked for them, and what joining a unit gives tells
whether it began, and how it ended, or that the pool was closed before.  Time may pass between any
two moves. -/
theorem one_fate_each {size : Nat} (h : (ofSize size : Pool ω α).run? labels = some p) :
    OneFate (ofSize size) labels p := by
  have told := told_run h
  have sound : p.Sound := (Sound.ofSize size).run h
  refine ⟨told.once, fun before id after q hsplit hq => ?_,
    fun id r hb more q hq hbegin hdrop hclose => ?_, fun id result => ?_, fun id => ?_,
    fun id hid hkept => ?_, fun id hj => ?_,
    fun id hid hkept hw hr => told.joins hid hkept hw hr, fun id hid hsteps hkept result => ?_,
    fun id before after hsplit hid => ?_⟩
  · subst hsplit
    obtain ⟨q', r, hq', hb, -⟩ := run?_split h
    obtain rfl := Option.some.inj (hq'.symm.trans hq)
    obtain ⟨u, -, -, hg, -⟩ := begin?_inv hb
    have queues := queues_run hq
    have sound : q'.Sound := (Sound.ofSize size).run hq
    exact ⟨queues.order.subset (mem_queue_of_granted hg),
      fun j hs hw => sound.exists_begin (queues.granted hs hg hw)⟩
  · obtain ⟨u, -, -, hg, -⟩ := begin?_inv hb
    exact (sound.run hq).exists_begin (granted_run hq hg hbegin hdrop hclose)
  · rw [joined?_eq_value_iff]
    refine ⟨told.tells id _, fun hl => stage?_of_mem h hl.2 ⟨nofun, nofun⟩ fun q => ?_⟩
    exact if_pos rfl
  · rw [joined?_eq_panicked_iff]
    refine ⟨told.tells id _, fun hl => stage?_of_mem h hl.2 ⟨nofun, nofun⟩ fun q => ?_⟩
    exact if_pos rfl
  · rw [joined?_eq_refused_iff]
    constructor
    · intro hs
      obtain ⟨hn, hl⟩ := told.tells id _ hs
      obtain ⟨before, after, rfl⟩ := List.append_of_mem hl
      exact ⟨before, after, rfl, beginnings_shut h ▸ hn⟩
    · rintro ⟨before, after, rfl, hn⟩
      have hclose : .close ∈ before ++ .close :: after :=
        List.mem_append_right before List.mem_cons_self
      exact told.shut hid hkept hclose ((beginnings_shut h).symm ▸ hn)
  · exact (told.tells id _ (joined?_eq_refused_iff.1 hj)).1
  · have hr := told.atWork hid hkept hsteps
    have hstep : p.step? (.finish id result) = some (p.finish id result) :=
      if_pos (any_isRunning_iff.2 hr)
    refine ⟨_, hstep, joined?_eq_value_iff.2 ?_⟩
    exact (stage?_step hstep id).trans (if_pos rfl)
  · subst hsplit
    obtain ⟨q, r, hq, hdrop, hafter⟩ := run?_split h
    have hlt : id < q.units.length := (told_run hq).handedIn ▸ hid
    obtain ⟨stage, hs, hsettles⟩ := settled_of_drop hlt hdrop
    obtain ⟨-, hbegun, hsteps⟩ := settled_run hsettles hs hafter
    refine ⟨hsteps, fun hi => ?_⟩
    rw [beginnings_append, beginnings_cons, List.mem_append] at hi
    exact hi.resolve_right hbegun

/-- Seven units are handed in to a pool of four, and one more when it is closed.  One is given up
before it begins and one at work, one panics, one is at work when the pool is closed and ends with a
value all the same, and one still waits then, although a permit is set aside for it. -/
theorem units_meet_their_fates :
    let labels : List (Label Unit Nat) :=
      List.replicate 7 (.spawn none ()) ++ (List.range 7).map .ask ++ (List.range 4).map .begin ++
        [.drop 4, .drop 1, .begin 5, .panic 2, .close, .spawn none (), .finish 0 7]
    ∃ p, (ofSize 4 : Pool Unit Nat).run? labels = some p ∧
      beginnings labels = [0, 1, 2, 3, 5] ∧
      p.joined? 0 = some (.value 7) ∧ p.joined? 2 = some .panicked ∧
      p.joined? 6 = some .refused := by
  intro labels
  have hr : ((ofSize 4 : Pool Unit Nat).run? labels).isSome = true := rfl
  obtain ⟨p, hp⟩ := Option.isSome_iff_exists.1 hr
  have hb : beginnings labels = [0, 1, 2, 3, 5] := rfl
  have fates := one_fate_each hp
  have hkept : ¬GivenUp labels 6 := by
    rintro ⟨before, after, hsplit, -⟩
    have hmem : .drop 6 ∈ labels := hsplit ▸ List.mem_append_right before List.mem_cons_self
    simp [labels] at hmem
  refine ⟨p, hp, hb, (fates.value 0 7).2 ⟨by simp [hb], by simp [labels]⟩,
    (fates.panicked 2).2 ⟨by simp [hb], by simp [labels]⟩, ?_⟩
  have hwaits : 6 ∉ beginnings (labels.take 22) := by
    rw [show beginnings (labels.take 22) = [0, 1, 2, 3, 5] from rfl]
    decide
  exact (fates.refused 6 (by decide) hkept).2 ⟨labels.take 22, labels.drop 23, rfl, hwaits⟩

/-- **A unit begins before one that was handed in earlier.**  All permits are taken and the fifth
unit has asked for one.  Two units are given up, which sets a permit aside for the fifth unit and
leaves one over; and then a sixth one is handed in, asks, and begins, before the fifth has had its
turn. -/
theorem later_unit_begins_first :
    let labels : List (Label Unit Nat) :=
      List.replicate 5 (.spawn none ()) ++ (List.range 5).map .ask ++ (List.range 4).map .begin ++
        [.drop 0, .drop 1, .spawn none (), .ask 5, .begin 5, .begin 4]
    ((ofSize 4 : Pool Unit Nat).run? labels).isSome = true ∧
      beginnings labels = [0, 1, 2, 3, 5, 4] ∧ ¬(beginnings labels).Pairwise (· < ·) := by
  intro labels
  have hb : beginnings labels = [0, 1, 2, 3, 5, 4] := rfl
  refine ⟨rfl, hb, ?_⟩
  rw [hb]
  decide

end TunnelKeeper.Pool
