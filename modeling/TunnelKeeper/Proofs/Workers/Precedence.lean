import Mathlib.Data.List.Perm.Subperm
import TunnelKeeper.Proofs.Workers.Fates

/-!
# Precedence — nobody waits for those who ask later

Permits go to units in the order of asking.  So a unit that has asked and waits, while none has a
turn to take, waits for units that had begun or asked when it had (`Leads`): they hold all permits,
and none of them waits for another one's result.  And where there are permits for all units that
wait, to each of them one is set aside as soon as it asks (`Roomy`).

* `Handles.stage?`: to hand in and to give up units leaves the others as they are.
* `exists_running`: as long as a unit has not come to its end, one is at work.
* `Leads.step`, `Leads.exists_running`: those who are at work are among those who came first.
* `Roomy.run`, `Roomy.granted`: permits for all who wait.
-/

namespace TunnelKeeper.Pool

variable {ω α : Type} {p p' : Pool ω α} {l : Label ω α} {labels : List (Label ω α)}
  {id : UnitId}

/-! ### Handing in and giving up -/

/-- A move that hands in a unit or gives one up, or by which a unit asks for a permit. -/
def Label.isHandling : Label ω α → Bool
  | .spawn _ _ | .ask _ | .drop _ => true
  | _ => false

/-- **Units are handed in, ask, and are given up**, and none of them begins or ends. -/
def Handles (p p' : Pool ω α) : Prop :=
  ∃ labels, p.run? labels = some p' ∧ ∀ l ∈ labels, l.isHandling = true

theorem Handles.refl (p : Pool ω α) : p.Handles p := ⟨[], rfl, List.forall_mem_nil _⟩

theorem Handles.of_step (h : p.step? l = some p') (hl : l.isHandling = true) : p.Handles p' :=
  ⟨[l], Option.bind_eq_some_iff.2 ⟨_, h, rfl⟩, by simpa using hl⟩

theorem Handles.drop (p : Pool ω α) (id : UnitId) : p.Handles (p.drop id) :=
  .of_step (l := .drop id) rfl rfl

theorem Handles.ask (ha : p.ask? id = some p') : p.Handles p' :=
  .of_step (l := .ask id) ha rfl

theorem Handles.spawn (p : Pool ω α) (owner : Option Nat) (work : ω) :
    p.Handles (p.spawn owner work).2 :=
  .of_step (l := .spawn owner work) rfl rfl

/-- **A unit that is there stays as it is**, or is given up. -/
theorem Handles.stage? (h : p.Handles p') (hid : id < p.units.length) :
    p'.stage? id = p.stage? id ∨ p'.stage? id = some .dropped := by
  obtain ⟨labels, hrun, hl⟩ := h
  induction labels generalizing p with
  | nil =>
      obtain rfl := Option.some.inj hrun
      exact .inl rfl
  | cons l labels ih =>
      obtain ⟨q, hq, hrun⟩ := Option.bind_eq_some_iff.1 hrun
      obtain ⟨hlabel, hl⟩ := List.forall_mem_cons.1 hl
      have hid' : id < q.units.length :=
        Nat.lt_of_lt_of_le hid ((frame_step hq).2 ▸ Nat.le_add_right ..)
      obtain ⟨stage, hstage⟩ := Option.ne_none_iff_exists'.1
        (mt stage?_eq_none_iff.1 (Nat.not_le_of_lt hid'))
      have hfirst : q.stage? id = p.stage? id ∨ q.stage? id = some .dropped := by
        rw [hstage]
        cases comes_step hq hstage with
        | stays hold => exact .inl hold.symm
        | givenUp => exact .inr rfl
        | handedIn hnew | turnedAway hnew => exact absurd hnew (Nat.ne_of_lt hid)
        | begins _ hb => exact absurd hlabel (by rw [Label.begins?_eq_some hb]; nofun)
        | finishes _ he | panics _ he | shutOut _ he => exact absurd hlabel (by rw [he]; nofun)
      obtain hrest | hrest := ih hid' hrun hl
      · exact hfirst.imp hrest.trans hrest.trans
      · exact .inr hrest

/-- Nobody closes the pool by that. -/
theorem Handles.closed (h : p.Handles p') : p'.closed = p.closed := by
  obtain ⟨labels, hrun, hl⟩ := h
  induction labels generalizing p with
  | nil =>
      obtain rfl := Option.some.inj hrun
      rfl
  | cons l labels ih =>
      obtain ⟨q, hq, hrun⟩ := Option.bind_eq_some_iff.1 hrun
      obtain ⟨hlabel, hl⟩ := List.forall_mem_cons.1 hl
      have hclose : l ≠ .close := fun he => nomatch he ▸ hlabel
      rw [ih hrun hl, Bool.eq_iff_iff, (frame_step hq).1, or_iff_left hclose]

/-! ### Those who came first -/

/-- Whoever ends takes no permit. -/
theorem free_le_release (p : Pool ω α) (id : UnitId) (stage : Stage α) :
    p.free ≤ (p.release id stage).free := by
  unfold release
  split
  · split
    · exact Nat.le_succ _
    · exact Nat.le_refl _
  · exact Nat.le_refl _

/-- **As long as a unit has not come to its end, one is at work**, where none has a turn to take. -/
theorem exists_running (sound : p.Sound) (hs : p.Settled)
    (hu : p.stage? id = some .waiting ∨ p.stage? id = some .running) :
    ∃ i, p.stage? i = some .running := by
  obtain hw | hr := hu
  · -- All permits are taken.
    have hfree := sound.no_permit hs hw
    have hrunning : 0 < p.units.countP isRunning := by
      have hp : p.free + p.units.countP isRunning = p.size := sound.permits
      have hroom := sound.room
      omega
    obtain ⟨u, hu, hr⟩ := List.countP_pos_iff.1 hrunning
    obtain ⟨i, hi⟩ := List.getElem?_of_mem hu
    exact ⟨i, by rw [stage?, hi, Option.map_some, isRunning_iff.1 hr]⟩
  · exact ⟨id, hr⟩

/-- **Some units lead the others.**  Those that have asked and wait stand before all others in the
queue, and where another unit is at work, permits are set aside for all of them. -/
structure Leads (p : Pool ω α) (front : UnitId → Prop) : Prop where
  known : ∀ i, front i → i < p.units.length
  waits : ∀ i, front i → p.stage? i = some .waiting → i ∈ p.queue
  queue : ∃ first rest, p.queue = first ++ rest ∧ (∀ i ∈ first, front i) ∧ (∀ i ∈ rest, ¬front i) ∧
    ∀ i, p.stage? i = some .running → ¬front i → first.length ≤ p.free

namespace Leads

variable {front : UnitId → Prop}

/-- Those who are at work or stand first in the queue lead all others. -/
theorem of_first {first rest : List UnitId} (sound : p.Sound) (hq : p.queue = first ++ rest) :
    p.Leads fun i => p.stage? i = some .running ∨ i ∈ first where
  known i hi := by
    refine hi.elim lt_of_stage? fun hi => lt_of_stage? (any_isWaiting_iff.1 (sound.waits i ?_))
    exact hq ▸ List.mem_append_left rest hi
  waits i hi hw := by
    refine hq ▸ List.mem_append_left rest (hi.resolve_left fun hr => ?_)
    exact nomatch hr.symm.trans hw
  queue := by
    refine ⟨first, rest, hq, fun _ => .inr, fun i hi hfront => ?_, fun i hr hn => absurd (.inl hr) hn⟩
    obtain hr | hi' := hfront
    · have hw := any_isWaiting_iff.1 (sound.waits i (hq ▸ List.mem_append_right first hi))
      exact nomatch hr.symm.trans hw
    · exact (List.nodup_append.1 (hq ▸ sound.once)).2.2 i hi' i hi rfl

/-- **No move takes the lead from those who have it.** -/
theorem step (h : p.Leads front) (hs : p.step? l = some p') : p'.Leads front := by
  refine ⟨fun i hi => ?_, fun i hi hw => ?_, ?_⟩
  · exact Nat.lt_of_lt_of_le (h.known i hi) ((frame_step hs).2 ▸ Nat.le_add_right ..)
  · have hq := h.waits i hi (waiting_step hs (h.known i hi) hw)
    exact mem_queue_step hs (List.mem_append_left _ hq) hw
  have running : ∀ i, l.begins? ≠ some i → p'.stage? i = some .running →
      p.stage? i = some .running := fun i hb hr => (running_step hs hr).resolve_left hb
  have never (i : UnitId) : none ≠ some i := (Option.some_ne_none i).symm
  obtain ⟨first, rest, he, hfirst, hrest, hothers⟩ := h.queue
  cases l with
  | spawn owner work =>
      obtain rfl := Option.some.inj hs
      exact ⟨first, rest, he, hfirst, hrest, fun i hr => hothers i (running i (never i) hr)⟩
  | ask id =>
      -- Whoever asks now is none of them, and stands behind them.
      obtain ⟨u, hu, hw, hn, rfl⟩ := ask?_inv hs
      have hid : ¬front id := fun hfront => hn (h.waits id hfront
        (any_isWaiting_iff.1 ((Option.any_eq_true ..).2 ⟨u, hu, hw⟩)))
      refine ⟨first, rest ++ [id], ?_, hfirst, fun i hi => ?_, hothers⟩
      · show p.queue ++ [id] = _
        rw [he, List.append_assoc]
      · exact (List.mem_append.1 hi).elim (hrest i) fun hi => List.mem_singleton.1 hi ▸ hid
  | begin id =>
      obtain ⟨u, -, -, hg, rfl⟩ := begin?_inv hs
      show ∃ first rest, p.queue.erase id = first ++ rest ∧ _
      by_cases hid : id ∈ first
      · rw [he, List.erase_append_left _ hid]
        refine ⟨_, _, rfl, fun i hi => hfirst i (List.mem_of_mem_erase hi), hrest, fun i hr hn => ?_⟩
        have hne : id ≠ i := fun he => hn (he ▸ hfirst id hid)
        rw [List.length_erase_of_mem hid]
        exact Nat.sub_le_sub_right (hothers i (running i (mt Option.some.inj hne) hr) hn) 1
      · -- It stands behind them and has a permit, so they have one each.
        have hlt : first.length < p.free := Nat.lt_of_not_le fun hle => hid (by
          rw [granted, he, List.take_append_of_le_length hle] at hg
          exact List.mem_of_mem_take hg)
        rw [he, List.erase_append_right _ hid]
        exact ⟨_, _, rfl, hfirst, fun i hi => hrest i (List.mem_of_mem_erase hi),
          fun _ _ _ => Nat.le_sub_one_of_lt hlt⟩
  | finish id | panic id =>
      obtain ⟨-, rfl⟩ := step?_release hs
      rw [p.queue_release]
      exact ⟨first, rest, he, hfirst, hrest, fun i hr hn =>
        Nat.le_trans (hothers i (running i (never i) hr) hn) (p.free_le_release id _)⟩
  | drop id =>
      obtain rfl := Option.some.inj hs
      obtain ⟨-, hd⟩ | ⟨-, hd⟩ := p.drop_cases id
      · rw [hd] at running ⊢
        show ∃ first rest, p.queue.erase id = first ++ rest ∧ _
        by_cases hid : id ∈ first
        · rw [he, List.erase_append_left _ hid]
          exact ⟨_, _, rfl, fun i hi => hfirst i (List.mem_of_mem_erase hi), hrest, fun i hr hn =>
            Nat.le_trans List.length_erase_le (hothers i (running i (never i) hr) hn)⟩
        · rw [he, List.erase_append_right _ hid]
          exact ⟨_, _, rfl, hfirst, fun i hi => hrest i (List.mem_of_mem_erase hi),
            fun i hr hn => hothers i (running i (never i) hr) hn⟩
      · rw [hd] at running ⊢
        rw [p.queue_release]
        exact ⟨first, rest, he, hfirst, hrest, fun i hr hn =>
          Nat.le_trans (hothers i (running i (never i) hr) hn) (p.free_le_release id _)⟩
  | close =>
      obtain rfl := Option.some.inj hs
      have nobody : ∀ {q : UnitId → Prop}, ∀ i ∈ [], q i := fun i hi => absurd hi List.not_mem_nil
      exact ⟨[], [], rfl, nobody, nobody, fun _ _ _ => Nat.zero_le _⟩

/-- **No list of moves does.** -/
theorem run (h : p.Leads front) (hr : p.run? labels = some p') : p'.Leads front := by
  induction labels generalizing p with
  | nil =>
      obtain rfl := Option.some.inj hr
      exact h
  | cons l labels ih =>
      obtain ⟨q, hq, hr⟩ := Option.bind_eq_some_iff.1 hr
      exact ih (h.step hq) hr

/-- **Whoever leads and waits waits for work that is being done**, of units that lead. -/
theorem exists_running (h : p.Leads front) (sound : p.Sound) (hs : p.Settled) (hid : front id)
    (hw : p.stage? id = some .waiting) : ∃ i, front i ∧ p.stage? i = some .running := by
  obtain ⟨i, hr⟩ := Pool.exists_running sound hs (.inl hw)
  refine ⟨i, Classical.byContradiction fun hn => ?_, hr⟩
  obtain ⟨first, rest, he, -, hrest, hothers⟩ := h.queue
  -- All permits are taken, but some would be set aside.
  have hlen := sound.no_permit hs hw ▸ hothers i hr hn
  have hfirst : first = [] := List.length_eq_zero_iff.1 (Nat.le_zero.1 hlen)
  rw [hfirst, List.nil_append] at he
  exact hrest id (he ▸ h.waits id hid hw) hid

end Leads

/-! ### Permits for all -/

/-- The units of some kind, by their numbers. -/
theorem countP_eq_length_range (p : Pool ω α) (f : WorkUnit ω α → Bool) :
    p.units.countP f = ((List.range p.units.length).filter fun i => p.units[i]?.any f).length := by
  have hunits : p.units.map some = (List.range p.units.length).map (p.units[·]?) :=
    List.ext_getElem (by simp) (by simp)
  rw [← List.countP_eq_length_filter]
  calc p.units.countP f
    _ = (p.units.map some).countP (Option.any f) := by rw [List.countP_map]; rfl
    _ = (List.range p.units.length).countP fun i => p.units[i]?.any f := by
      rw [hunits, List.countP_map]
      rfl

/-- No more units stand in the queue than wait. -/
theorem Sound.length_queue_le (h : p.Sound) : p.queue.length ≤ p.units.countP isWaiting := by
  rw [countP_eq_length_range]
  refine (List.subperm_of_subset h.once fun i hi => ?_).length_le
  have hw := h.waits i hi
  exact List.mem_filter.2 ⟨List.mem_range.2 (lt_of_stage? (any_isWaiting_iff.1 hw)), hw⟩

/-- **There are permits for all** units that wait, and for those that are handed in until there are
`m` of them. -/
def Roomy (p : Pool ω α) (m : Nat) : Prop :=
  p.units.countP isWaiting + (m - p.units.length) ≤ p.free

instance (m : Nat) : Decidable (p.Roomy m) := inferInstanceAs (Decidable (_ ≤ _))

namespace Roomy

variable {m : Nat}

/-- Where a unit ceases to wait, one less does. -/
theorem countP_of_waiting {u : WorkUnit ω α} (hu : p.units[id]? = some u)
    (hw : isWaiting u = true) (stage : Stage α) (hs : isWaiting { u with stage } = false) :
    (p.setStage id stage).units.countP isWaiting + 1 = p.units.countP isWaiting := by
  simpa only [hw, hs, if_true, Bool.false_eq_true, if_false, Nat.add_zero] using
    countP_setStage isWaiting hu stage

/-- A unit at work ends or is given up, and leaves a permit. -/
theorem release {stage : Stage α} (h : p.Roomy m) (hs : Settles stage) :
    (p.release id stage).Roomy m := by
  by_cases hr : p.stage? id = some .running
  · obtain ⟨u, hu, hstage⟩ := Option.map_eq_some_iff.1 hr
    have hr := isRunning_iff.2 hstage
    have hc : (p.setStage id stage).units.countP isWaiting = p.units.countP isWaiting := by
      simpa only [isWaiting_of_isRunning hr, hs.not_waiting u, Bool.false_eq_true, if_false,
        Nat.add_zero] using countP_setStage isWaiting hu stage
    rw [release_of_running hu hr]
    show (p.setStage id stage).units.countP isWaiting + (m - (p.setStage id stage).units.length) ≤
      p.free + 1
    rw [hc, show (p.setStage id stage).units.length = p.units.length from List.length_modify ..]
    exact Nat.le_succ_of_le h
  · exact (release_of_not_running hr _).symm ▸ h

/-- **Every move keeps permits for all**, as long as no more units are handed in. -/
theorem step (h : p.Roomy m) (hs : p.step? l = some p') (hm : p'.units.length ≤ m) :
    p'.Roomy m := by
  have hroom : p.units.countP isWaiting + (m - p.units.length) ≤ p.free := h
  have same : ∀ id stage, (p.setStage id stage).units.length = p.units.length := fun _ _ =>
    List.length_modify ..
  cases l with
  | spawn owner work =>
      obtain rfl := Option.some.inj hs
      have hlen : (p.spawn owner work).2.units.length = p.units.length + 1 := List.length_append
      have hw : (p.spawn owner work).2.units.countP isWaiting ≤ p.units.countP isWaiting + 1 := by
        show (p.units ++ [_]).countP isWaiting ≤ _
        rw [List.countP_append]
        exact Nat.add_le_add_left List.countP_le_length _
      show (p.spawn owner work).2.units.countP isWaiting + _ ≤ p.free
      omega
  | ask id =>
      obtain ⟨-, -, -, -, rfl⟩ := ask?_inv hs
      exact h
  | begin id =>
      obtain ⟨u, hu, hw, -, rfl⟩ := begin?_inv hs
      have hc := countP_of_waiting hu hw .running rfl
      have hlen := same id .running
      show (p.setStage id .running).units.countP isWaiting +
        (m - (p.setStage id .running).units.length) ≤ p.free - 1
      omega
  | finish id | panic id =>
      obtain ⟨-, rfl⟩ := step?_release hs
      exact h.release ⟨nofun, nofun⟩
  | drop id =>
      obtain rfl := Option.some.inj hs
      obtain ⟨hw, hd⟩ | ⟨-, hd⟩ := p.drop_cases id
      · obtain ⟨u, hu, hstage⟩ := Option.map_eq_some_iff.1 hw
        have hc := countP_of_waiting hu (isWaiting_iff.2 hstage) .dropped rfl
        have hlen := same id .dropped
        rw [hd]
        show (p.setStage id .dropped).units.countP isWaiting +
          (m - (p.setStage id .dropped).units.length) ≤ p.free
        omega
      · exact hd ▸ h.release ⟨nofun, nofun⟩
  | close =>
      obtain rfl := Option.some.inj hs
      have hw : p.close.units.countP isWaiting = 0 := by
        refine List.countP_eq_zero.2 fun u hu hw => ?_
        obtain ⟨v, -, rfl⟩ := List.mem_map.1 hu
        split at hw
        · cases hw
        · contradiction
      have hlen : p.close.units.length = p.units.length := List.length_map ..
      show p.close.units.countP isWaiting + _ ≤ p.free
      omega

/-- **So does every list of moves.** -/
theorem run (h : p.Roomy m) (hr : p.run? labels = some p') (hm : p'.units.length ≤ m) :
    p'.Roomy m := by
  induction labels generalizing p with
  | nil =>
      obtain rfl := Option.some.inj hr
      exact h
  | cons l labels ih =>
      obtain ⟨q, hq, hr⟩ := Option.bind_eq_some_iff.1 hr
      exact ih (h.step hq (Nat.le_trans (length_le_run hr) hm)) hr

/-- Then a permit is set aside for everybody who has asked. -/
theorem granted (h : p.Roomy m) (sound : p.Sound) (hid : id ∈ p.queue) : id ∈ p.granted := by
  have hlen : p.queue.length ≤ p.free :=
    Nat.le_trans sound.length_queue_le (Nat.le_trans (Nat.le_add_right ..) h)
  rwa [TunnelKeeper.Pool.granted, List.take_of_length_le hlen]

end Roomy

end TunnelKeeper.Pool
