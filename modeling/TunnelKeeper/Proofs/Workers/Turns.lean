import TunnelKeeper.Proofs.Workers.Stages

/-!
# Turns — permits go to units in the order of asking

The queue of a pool is made of the units that have asked for a permit and still wait, in the order
in which they have asked (`Queues`).  Permits are set aside for the first of them.  So where one is
set aside for a unit, one is set aside for everybody who has asked before it and still waits
(`Queues.granted`); and nobody loses a permit that is set aside for it, unless it begins, is given
up, or the pool is closed (`granted_step`).

Nothing is said of the order in which those units begin for which permits are set aside.

* `Queues.step`, `queues_run`: every move keeps the order of asking.
-/

namespace TunnelKeeper.Pool

variable {ω α : Type} {p p' : Pool ω α} {l : Label ω α} {labels : List (Label ω α)}
  {asked : List UnitId} {i j : UnitId}

/-! ### Places in a queue -/

section Places

variable {queue : List UnitId} {n : Nat}

/-- Whoever stands among the first stays there when somebody leaves. -/
theorem mem_take_erase (hne : j ≠ i) (h : j ∈ queue.take n) : j ∈ (queue.erase i).take n := by
  induction queue generalizing n with
  | nil => rwa [List.erase_nil]
  | cons k queue ih =>
      cases n with
      | zero => cases h
      | succ n =>
          rw [List.take_succ_cons] at h
          rw [List.erase_cons]
          split
          case isTrue hk =>
            obtain rfl := eq_of_beq hk
            have hj : j ∈ queue.take n := (List.mem_cons.1 h).resolve_left hne
            exact List.take_subset_take_left queue (Nat.le_succ n) hj
          case isFalse =>
            rw [List.take_succ_cons]
            exact (List.mem_cons.1 h).elim (fun he => he ▸ List.mem_cons_self)
              fun hj => List.mem_cons_of_mem k (ih hj)

/-- Where one of the first leaves, the others are among one less. -/
theorem mem_take_pred_erase (hne : j ≠ i) (hi : i ∈ queue.take n) (hj : j ∈ queue.take n) :
    j ∈ (queue.erase i).take (n - 1) := by
  induction queue generalizing n with
  | nil => simp at hi
  | cons k queue ih =>
      cases n with
      | zero => cases hi
      | succ n =>
          rw [List.take_succ_cons] at hi hj
          rw [List.erase_cons, Nat.add_sub_cancel]
          split
          case isTrue hk =>
            obtain rfl := eq_of_beq hk
            exact (List.mem_cons.1 hj).resolve_left hne
          case isFalse hk =>
            have hi : i ∈ queue.take n :=
              (List.mem_cons.1 hi).resolve_left fun he => hk (he ▸ beq_self_eq_true _)
            cases n with
            | zero => cases hi
            | succ n =>
                rw [List.take_succ_cons]
                exact (List.mem_cons.1 hj).elim (fun he => he ▸ List.mem_cons_self)
                  fun hj => List.mem_cons_of_mem k (ih hi hj)

/-- Whoever stands before one of the first is one of the first. -/
theorem mem_take_of_before (hn : queue.Nodup) (hs : [j, i].Sublist queue) (hi : i ∈ queue.take n) :
    j ∈ queue.take n := by
  induction queue generalizing n with
  | nil => cases hs
  | cons k queue ih =>
      cases n with
      | zero => cases hi
      | succ n =>
          rw [List.take_succ_cons] at hi ⊢
          cases hs with
          | cons _ hs =>
              have hne : i ≠ k := fun he =>
                (List.nodup_cons.1 hn).1 (he ▸ hs.subset (List.mem_cons_of_mem j List.mem_cons_self))
              exact List.mem_cons_of_mem k
                (ih (List.nodup_cons.1 hn).2 hs ((List.mem_cons.1 hi).resolve_left hne))
          | cons_cons _ _ => exact List.mem_cons_self

/-- Those that are left stand in the old order. -/
theorem before_of_sublist (hn : asked.Nodup) (hq : queue.Sublist asked)
    (hs : [j, i].Sublist asked) (hj : j ∈ queue) (hi : i ∈ queue) : [j, i].Sublist queue := by
  induction hq with
  | slnil => cases hj
  | cons k hq ih =>
      obtain ⟨hk, hn⟩ := List.nodup_cons.1 hn
      cases hs with
      | cons _ hs => exact ih hn hs hj hi
      | cons_cons _ _ => exact absurd (hq.subset hj) hk
  | @cons_cons few all k hq ih =>
      obtain ⟨hk, hn⟩ := List.nodup_cons.1 hn
      have later : ∀ {m}, m ∈ all → m ∈ k :: few → m ∈ few := fun hm hmem =>
        (List.mem_cons.1 hmem).resolve_left fun he => hk (he ▸ hm)
      cases hs with
      | cons _ hs =>
          exact .cons k (ih hn hs (later (hs.subset List.mem_cons_self) hj)
            (later (hs.subset (List.mem_cons_of_mem j List.mem_cons_self)) hi))
      | cons_cons _ hs =>
          exact .cons_cons _ (List.singleton_sublist.2
            (later (List.singleton_sublist.1 hs) hi))

end Places

/-! ### Who asks -/

/-- The unit that asks for a permit with a move, if one does. -/
def Label.asks? : Label ω α → Option UnitId
  | .ask id => some id
  | _ => none

/-- The units that ask for a permit in a list of moves, in the order in which they do. -/
def askings (labels : List (Label ω α)) : List UnitId := labels.filterMap Label.asks?

/-- A release leaves the queue as it is. -/
theorem queue_release (p : Pool ω α) (id : UnitId) (stage : Stage α) :
    (p.release id stage).queue = p.queue := by
  unfold release
  split
  · split <;> rfl
  · rfl

/-- **What a move makes of the queue.**  Only whoever asks joins it, at its end. -/
theorem queue_step (h : p.step? l = some p') :
    p'.queue.Sublist (p.queue ++ l.asks?.toList) := by
  have same : p.queue.Sublist (p.queue ++ []) := List.sublist_append_left ..
  cases l with
  | spawn owner work =>
      obtain rfl := Option.some.inj h
      exact same
  | ask id =>
      obtain ⟨-, -, -, -, rfl⟩ := ask?_inv h
      exact List.Sublist.refl _
  | begin id =>
      obtain ⟨-, -, -, -, rfl⟩ := begin?_inv h
      exact List.erase_sublist.trans same
  | finish id | panic id =>
      obtain ⟨-, rfl⟩ := step?_release h
      exact (p.queue_release id _).symm ▸ same
  | drop id =>
      obtain rfl := Option.some.inj h
      obtain ⟨-, hd⟩ | ⟨-, hd⟩ := p.drop_cases id
      · rw [hd]
        exact List.erase_sublist.trans same
      · rw [hd, p.queue_release]
        exact same
  | close =>
      obtain rfl := Option.some.inj h
      exact List.nil_sublist _

/-- Whoever waits has its place. -/
theorem mem_queue_step (h : p.step? l = some p') (hi : i ∈ p.queue ++ l.asks?.toList)
    (hw : p'.stage? i = some .waiting) : i ∈ p'.queue := by
  have same (hl : l.asks? = none) : i ∈ p.queue := by simpa [hl] using hi
  cases l with
  | spawn owner work =>
      obtain rfl := Option.some.inj h
      exact same rfl
  | ask id =>
      obtain ⟨-, -, -, -, rfl⟩ := ask?_inv h
      exact hi
  | begin id =>
      have hne : i ≠ id := by
        rintro rfl
        rw [stage?_step h, stageAfter, if_pos rfl] at hw
        cases hw
      obtain ⟨-, -, -, -, rfl⟩ := begin?_inv h
      exact (List.mem_erase_of_ne hne).2 (same rfl)
  | finish id | panic id =>
      obtain ⟨-, rfl⟩ := step?_release h
      exact (p.queue_release id _).symm ▸ same rfl
  | drop id =>
      have hne : i ≠ id := by
        rintro rfl
        rw [stage?_step h, stageAfter, if_pos rfl] at hw
        obtain ⟨stage, -, hs⟩ := Option.map_eq_some_iff.1 hw
        cases stage <;> cases hs
      obtain rfl := Option.some.inj h
      obtain ⟨-, hd⟩ | ⟨-, hd⟩ := p.drop_cases id
      · rw [hd]
        exact (List.mem_erase_of_ne hne).2 (same rfl)
      · rw [hd, p.queue_release]
        exact same rfl
  | close =>
      rw [stage?_step h] at hw
      obtain ⟨stage, -, hs⟩ := Option.map_eq_some_iff.1 hw
      cases stage <;> cases hs

/-! ### The order of asking -/

/-- **A pool keeps the order of asking**, where `asked` are the units that have asked. -/
structure Queues (p : Pool ω α) (asked : List UnitId) : Prop where
  once : asked.Nodup
  order : p.queue.Sublist asked
  waits : ∀ id ∈ asked, p.stage? id = some .waiting → id ∈ p.queue
  known : ∀ id ∈ asked, id < p.units.length

namespace Queues

theorem ofSize (size : Nat) : Queues (ofSize size : Pool ω α) [] :=
  ⟨.nil, .slnil, nofun, nofun⟩

theorem step (h : Queues p asked) (hs : p.step? l = some p') :
    Queues p' (asked ++ l.asks?.toList) := by
  have asks : ∀ id ∈ l.asks?.toList, l = .ask id := fun id hid => by
    cases l with
    | ask k =>
        obtain rfl := List.mem_singleton.1 hid
        rfl
    | _ => cases hid
  have fresh : ∀ id ∈ l.asks?.toList, p.stage? id = some .waiting ∧ id ∉ p.queue := fun id hid => by
    obtain rfl := asks id hid
    obtain ⟨u, hu, hw, hn, -⟩ := ask?_inv hs
    exact ⟨by rw [stage?, hu, Option.map_some, isWaiting_iff.1 hw], hn⟩
  refine ⟨?_, ?_, fun id hid hw => ?_, fun id hid => ?_⟩
  · refine List.nodup_append.2 ⟨h.once, ?_, fun i hi j hj => ?_⟩
    · cases l.asks? with
      | none => exact .nil
      | some id => exact List.nodup_cons.2 ⟨List.not_mem_nil, .nil⟩
    · rintro rfl
      exact (fresh i hj).2 (h.waits i hi (fresh i hj).1)
  · exact (queue_step hs).trans (h.order.append (List.Sublist.refl _))
  · refine mem_queue_step hs (List.mem_append.2 ?_) hw
    refine (List.mem_append.1 hid).imp_left fun hold => ?_
    cases comes_step hs hw with
    | stays hw => exact h.waits id hold hw
    | handedIn hnew => exact absurd (h.known id hold) (hnew ▸ Nat.lt_irrefl _)
  · have hlen : p.units.length ≤ p'.units.length := (frame_step hs).2 ▸ Nat.le_add_right ..
    refine Nat.lt_of_lt_of_le ?_ hlen
    exact (List.mem_append.1 hid).elim (h.known id) fun hid => lt_of_stage? (fresh id hid).1

/-- **Every list of moves keeps the order of asking.** -/
theorem run (h : Queues p asked) (hr : p.run? labels = some p') :
    Queues p' (asked ++ askings labels) := by
  induction labels generalizing p asked with
  | nil =>
      obtain rfl := Option.some.inj hr
      exact (List.append_nil asked).symm ▸ h
  | cons l labels ih =>
      obtain ⟨q, hq, hr⟩ := Option.bind_eq_some_iff.1 hr
      have hnext := ih (h.step hq) hr
      rw [List.append_assoc] at hnext
      have hcons : askings (l :: labels) = l.asks?.toList ++ askings labels := by cases l <;> rfl
      rw [hcons]
      exact hnext

/-- **Where a permit is set aside for a unit**, one is set aside for everybody who has asked before
it and waits. -/
theorem granted (h : Queues p asked) (hs : [j, i].Sublist asked) (hi : i ∈ p.granted)
    (hj : p.stage? j = some .waiting) : j ∈ p.granted :=
  mem_take_of_before (h.order.nodup h.once)
    (before_of_sublist h.once h.order hs (h.waits j (hs.subset List.mem_cons_self) hj)
      (mem_queue_of_granted hi)) hi

end Queues

theorem queues_run {size : Nat} (h : (ofSize size : Pool ω α).run? labels = some p) :
    Queues p (askings labels) := by
  simpa using (Queues.ofSize size).run h

/-! ### Permits that are set aside -/

theorem granted_release (hj : j ∈ p.granted) (id : UnitId) (stage : Stage α) :
    j ∈ (p.release id stage).granted := by
  unfold release
  split
  · split
    · exact List.take_subset_take_left p.queue (Nat.le_succ p.free) hj
    · exact hj
  · exact hj

/-- **Nobody loses a permit that is set aside for it**, unless it begins or is given up, or the pool
is closed. -/
theorem granted_step (h : p.step? l = some p') (hj : j ∈ p.granted) (hb : l ≠ .begin j)
    (hd : l ≠ .drop j) (hc : l ≠ .close) : j ∈ p'.granted := by
  cases l with
  | spawn owner work =>
      obtain rfl := Option.some.inj h
      exact hj
  | ask id =>
      obtain ⟨-, -, -, -, rfl⟩ := ask?_inv h
      show j ∈ (p.queue ++ [id]).take p.free
      rw [List.take_append]
      exact List.mem_append_left _ hj
  | begin id =>
      obtain ⟨-, -, -, hid, rfl⟩ := begin?_inv h
      have hne : j ≠ id := fun he => hb (he ▸ rfl)
      exact mem_take_pred_erase hne hid hj
  | finish id | panic id =>
      obtain ⟨-, rfl⟩ := step?_release h
      exact granted_release hj id _
  | drop id =>
      obtain rfl := Option.some.inj h
      obtain ⟨-, he⟩ | ⟨-, he⟩ := p.drop_cases id
      · rw [he]
        have hne : j ≠ id := fun he => hd (he ▸ rfl)
        exact mem_take_erase hne hj
      · exact he ▸ granted_release hj id _
  | close => exact absurd rfl hc

/-- So it is as long as others move and the pool is open. -/
theorem granted_run (h : p.run? labels = some p') (hj : j ∈ p.granted) (hb : .begin j ∉ labels)
    (hd : .drop j ∉ labels) (hc : .close ∉ labels) : j ∈ p'.granted := by
  induction labels generalizing p with
  | nil =>
      obtain rfl := Option.some.inj h
      exact hj
  | cons l labels ih =>
      obtain ⟨q, hq, h⟩ := Option.bind_eq_some_iff.1 h
      obtain ⟨hb, hb'⟩ := not_or.1 (mt List.mem_cons.2 hb)
      obtain ⟨hd, hd'⟩ := not_or.1 (mt List.mem_cons.2 hd)
      obtain ⟨hc, hc'⟩ := not_or.1 (mt List.mem_cons.2 hc)
      exact ih h (granted_step hq hj (Ne.symm hb) (Ne.symm hd) (Ne.symm hc)) hb' hd' hc'

/-- So nobody who waits has lost one. -/
theorem granted_waits (h : p.run? labels = some p') (hid : j < p.units.length)
    (hj : p.stage? j = some .waiting → j ∈ p.granted) (hw : p'.stage? j = some .waiting) :
    j ∈ p'.granted := by
  induction labels generalizing p with
  | nil =>
      obtain rfl := Option.some.inj h
      exact hj hw
  | cons l labels ih =>
      obtain ⟨q, hq, h⟩ := Option.bind_eq_some_iff.1 h
      have hlen : p.units.length ≤ q.units.length := (frame_step hq).2 ▸ Nat.le_add_right ..
      refine ih h (Nat.lt_of_lt_of_le hid hlen) fun hw => ?_
      have hstage := stage?_step hq j
      rw [hw] at hstage
      refine granted_step hq (hj (waiting_step hq hid hw)) ?_ ?_ ?_
      · rintro rfl
        rw [stageAfter, if_pos rfl] at hstage
        cases hstage
      · rintro rfl
        rw [stageAfter, if_pos rfl] at hstage
        obtain ⟨stage, -, hs⟩ := Option.map_eq_some_iff.1 hstage.symm
        cases stage <;> cases hs
      · rintro rfl
        obtain ⟨stage, -, hs⟩ := Option.map_eq_some_iff.1 hstage.symm
        cases stage <;> cases hs

/-- Where nobody has a turn to take, nobody waits for whom a permit is set aside. -/
theorem Settled.not_waiting (hs : p.Settled) (hj : j ∈ p.granted) :
    p.stage? j ≠ some .waiting := fun hw =>
  nomatch (hs j).2.symm.trans (begin?_of_granted (any_isWaiting_iff.2 hw) hj)

end TunnelKeeper.Pool
