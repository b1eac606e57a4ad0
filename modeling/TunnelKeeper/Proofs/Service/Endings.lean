import TunnelKeeper.Proofs.Service.CutOff

/-!
# Endings — whole runs of attempts that are cut off

What is known of one step with the limit and one without it is known of whole runs.

* `CutOff.run`, `CutOff.run_back`: a run with the limit is one without it until the end, and the
  other way round.
* `CutOff.overrun`: one that is not done when the end comes gives up then.
* `CutOff.canEnd`: with a limit there is always a way to the end, by turns of the task alone and
  time that passes.
-/

namespace TunnelKeeper.Service

open Pool (Joined)

variable {α β : Type} {s s' : Machine} {t : TaskId} {l : Label} {labels : List Label}
  {ending clock : Time} {out : α}

/-! ### Whole runs -/

theorem GivesUp.run {x y : Passage α} (hp : GivesUp out x.program)
    (h : x.run? t labels = some y) :
    GivesUp out y.program ∧ y.machine.world.clock = x.machine.world.clock := by
  induction labels generalizing x with
  | nil =>
      obtain rfl := Option.some.inj h
      exact ⟨hp, rfl⟩
  | cons l labels ih =>
      obtain ⟨x₁, hs, h⟩ := Option.bind_eq_some_iff.1 h
      obtain ⟨hp₁, hclock₁⟩ := hp.step hs
      obtain ⟨hp, hclock⟩ := ih hp₁ h
      exact ⟨hp, hclock.trans hclock₁⟩

/-- A program that gives up is soon done. -/
theorem GivesUp.ends {p : Program α} (hp : GivesUp out p) (t : TaskId) (s : Machine) :
    ∃ n s', Passage.run? t ⟨s, p⟩ (List.replicate n (.turn t {})) = some ⟨s', .done out⟩ ∧
      s'.world.clock = s.world.clock := by
  induction hp generalizing s with
  | done => exact ⟨0, s, rfl, rfl⟩
  | @abandon id next _ ih =>
      obtain ⟨n, s', hrun, hclock⟩ := ih { s with pool := s.pool.drop id }
      have hstep : Passage.step? t ⟨s, .ask (.abandon id) next⟩ (.turn t {}) = some _ :=
        Passage.step?_turn rfl
      exact ⟨n + 1, s', Option.bind_eq_some_iff.2 ⟨_, hstep, hrun⟩, hclock⟩

/-- A wait for a unit that does not come to its end is over at its limit. -/
theorem wait_out {id : UnitId} {time : Time} (hj : s.pool.joined? id = none)
    (hle : s.world.clock ≤ time) (t : TaskId) (next : Joined Bool → Program α) :
    ∃ s', Passage.run? t ⟨s, .ask (.join id (some time)) next⟩
      [.elapse (time - s.world.clock), .turn t {}] = some ⟨s', next .timedOut⟩ ∧
        s'.world.clock = time := by
  have hclock : s.world.clock + (time - s.world.clock) = time := Nat.add_sub_of_le hle
  let s' := { s with world := { s.world with clock := s.world.clock + (time - s.world.clock) } }
  have hpass : s.mayPass (time - s.world.clock) (.join id (some time)) = true :=
    mayPass_join.2 ⟨hj, fun _ he => Option.some.inj he ▸ Nat.le_of_eq hclock⟩
  have hjoin : s'.respond t {} (.join id (some time)) = some (.timedOut, s') :=
    respond_join.2 ⟨rfl, .inr ⟨hj, rfl, time, rfl, Nat.le_of_eq hclock.symm⟩⟩
  refine ⟨s', Option.bind_eq_some_iff.2 ⟨_, Passage.step?_other rfl hpass rfl, ?_⟩, hclock⟩
  exact Option.bind_eq_some_iff.2 ⟨_, Passage.step?_turn hjoin, rfl⟩

/-- Whether a step is a turn of the task, or lets time pass. -/
def Label.isOwn (t : TaskId) : Label → Bool
  | .turn i _ => i == t
  | .elapse _ => true
  | _ => false

/-- **The task can come to the end of the passage**, if it goes on and time passes. -/
def Passage.CanEnd (t : TaskId) (x : Passage α) : Prop :=
  ∃ labels s a, (∀ l ∈ labels, l.isOwn t = true) ∧ x.run? t labels = some ⟨s, .done a⟩

theorem Passage.CanEnd.before {x y : Passage α} (hl : ∀ l ∈ labels, l.isOwn t = true)
    (hs : x.run? t labels = some y) (h : y.CanEnd t) : x.CanEnd t := by
  obtain ⟨rest, s, a, hrest, hrun⟩ := h
  refine ⟨labels ++ rest, s, a, fun l => ?_, ?_⟩
  · exact fun h => (List.mem_append.1 h).elim (hl l) (hrest l)
  · rw [Passage.run?_append, hs]
    exact hrun

theorem Passage.CanEnd.answered {q : Ask} {next : q.Answer → Program α} {a : q.Answer}
    (hr : s.respond t {} q = some (a, s')) (h : CanEnd t ⟨s', next a⟩) :
    CanEnd t ⟨s, .ask q next⟩ := by
  have hrun : run? t ⟨s, .ask q next⟩ [.turn t {}] = some ⟨s', next a⟩ :=
    Option.bind_eq_some_iff.2 ⟨_, step?_turn hr, rfl⟩
  exact h.before (by simp [Label.isOwn]) hrun

theorem GivesUp.canEnd {p : Program α} (hp : GivesUp out p) (s : Machine) :
    Passage.CanEnd t ⟨s, p⟩ := by
  obtain ⟨n, s', hrun, -⟩ := hp.ends t s
  refine ⟨_, s', out, fun l hl => ?_, hrun⟩
  rw [List.eq_of_mem_replicate hl]
  exact beq_self_eq_true t

/-- A task waits until its unit has come to its end, or until its limit. -/
theorem exists_joined (id : UnitId) (time : Time) (t : TaskId) (s : Machine)
    (next : Joined Bool → Program α) : ∃ labels s' joined, (∀ l ∈ labels, l.isOwn t = true) ∧
      Passage.run? t ⟨s, .ask (.join id (some time)) next⟩ labels = some ⟨s', next joined⟩ ∧
      s'.world.clock ≤ max s.world.clock time := by
  have turn : ∀ joined, s.respond t {} (.join id (some time)) = some (joined, s) →
      ∃ labels s' joined, (∀ l ∈ labels, l.isOwn t = true) ∧
        Passage.run? t ⟨s, .ask (.join id (some time)) next⟩ labels = some ⟨s', next joined⟩ ∧
        s'.world.clock ≤ max s.world.clock time := fun joined hr =>
    ⟨[.turn t {}], s, joined, by simp [Label.isOwn],
      Option.bind_eq_some_iff.2 ⟨_, Passage.step?_turn hr, rfl⟩, Nat.le_max_left _ _⟩
  cases hj : s.pool.joined? id with
  | some joined => exact turn joined (respond_join.2 ⟨rfl, .inl hj⟩)
  | none =>
      rcases Nat.le_total time s.world.clock with hle | hle
      · exact turn .timedOut (respond_join.2 ⟨rfl, .inr ⟨hj, rfl, time, rfl, hle⟩⟩)
      · obtain ⟨s', hrun, hclock⟩ := wait_out hj hle t next
        refine ⟨_, s', _, by simp [Label.isOwn], hrun, ?_⟩
        exact hclock ▸ Nat.le_max_right _ _

/-- Time does not go back. -/
theorem Passage.clock_le_run {x y : Passage α} (hs : x.run? t labels = some y) :
    x.machine.world.clock ≤ y.machine.world.clock := by
  induction labels generalizing x with
  | nil =>
      obtain rfl := Option.some.inj hs
      exact Nat.le_refl _
  | cons l labels ih =>
      obtain ⟨x₁, hs₁, hs⟩ := Option.bind_eq_some_iff.1 hs
      refine Nat.le_trans ?_ (ih hs)
      obtain ⟨s, p⟩ := x
      cases p with
      | done a => exact absurd hs₁ Passage.not_step?_done
      | ask q next =>
          obtain ⟨around, a, s', -, hr, rfl⟩ | ⟨s', -, -, hs', rfl⟩ := Passage.step?_cases hs₁
          · exact Nat.le_of_eq (world_respond hr).1.symm
          · exact (world_step hs').1 ▸ Nat.le_add_right _ _

namespace CutOff

variable {p p' : Program α} {x y : Passage α}

/-- **A run with the limit** is one without it, or the attempt without it is not done when the one
with it gives up, at its end. -/
theorem run (h : CutOff ending out s.world.clock p p') (hc : s.world.clock ≤ ending)
    (hs : Passage.run? t ⟨s, p⟩ labels = some y) :
    (∃ q', Passage.run? t ⟨s, p'⟩ labels = some ⟨y.machine, q'⟩ ∧
      y.machine.world.clock ≤ ending ∧ CutOff ending out y.machine.world.clock y.program q') ∨
    y.machine.world.clock = ending ∧ GivesUp out y.program ∧ ∃ before after z,
      labels = before ++ after ∧ Passage.run? t ⟨s, p'⟩ before = some z ∧
        z.machine.world.clock = ending ∧ ∀ a, z.program ≠ .done a := by
  induction labels generalizing s p p' with
  | nil =>
      obtain rfl := Option.some.inj hs
      exact .inl ⟨p', rfl, hc, h⟩
  | cons l labels ih =>
      obtain ⟨x₁, hs₁, hs⟩ := Option.bind_eq_some_iff.1 hs
      obtain ⟨q', hs₁', hc₁, h₁⟩ | ⟨hend, hend₁, hout, hdone⟩ := h.step hc hs₁
      · obtain ⟨q, hrun, hle⟩ | ⟨hend, hout, before, after, z, rfl, hz⟩ := ih h₁ hc₁ hs
        · exact .inl ⟨q, Option.bind_eq_some_iff.2 ⟨_, hs₁', hrun⟩, hle⟩
        · refine .inr ⟨hend, hout, l :: before, after, z, rfl, ?_, hz.2⟩
          exact Option.bind_eq_some_iff.2 ⟨_, hs₁', hz.1⟩
      · obtain ⟨hout, hclock⟩ := hout.run hs
        exact .inr ⟨hclock.trans hend₁, hout, [], l :: labels, ⟨s, p'⟩, rfl, rfl, hend, hdone⟩

/-- **A run without the limit** is one with it, as long as the attempt has not come to its end. -/
theorem run_back (h : CutOff ending out s.world.clock p p')
    (hs : Passage.run? t ⟨s, p'⟩ labels = some y) (hy : y.machine.world.clock ≤ ending) :
    ∃ q, Passage.run? t ⟨s, p⟩ labels = some ⟨y.machine, q⟩ ∧
      CutOff ending out y.machine.world.clock q y.program := by
  induction labels generalizing s p p' with
  | nil =>
      obtain rfl := Option.some.inj hs
      exact ⟨p, rfl, h⟩
  | cons l labels ih =>
      have hc := Nat.le_trans (Passage.clock_le_run hs) hy
      obtain ⟨x₁, hs₁, hs⟩ := Option.bind_eq_some_iff.1 hs
      obtain ⟨q, hs₁', h₁⟩ := h.step_back hc hs₁ (Nat.le_trans (Passage.clock_le_run hs) hy)
      obtain ⟨q', hrun, h'⟩ := ih h₁ hs
      exact ⟨q', Option.bind_eq_some_iff.2 ⟨_, hs₁', hrun⟩, h'⟩

/-- Whenever the attempt without the limit is still waiting when time goes on past the end, the one
with it gives up at the end. -/
theorem overstep (h : CutOff ending out s.world.clock p p') (hc : s.world.clock ≤ ending)
    (hs : Passage.step? t ⟨s, p'⟩ l = some y) (hy : ending < y.machine.world.clock) :
    ∃ span span' n s', l = .elapse span ∧ span' ≤ span ∧
      Passage.run? t ⟨s, p⟩ (.elapse span' :: List.replicate n (.turn t {})) =
        some ⟨s', .done out⟩ ∧ s'.world.clock = ending := by
  generalize hclock : s.world.clock = clock at h
  cases h with
  | done a => exact absurd hs Passage.not_step?_done
  | now =>
      obtain ⟨he, -⟩ := step?_same (fun _ => rfl) hs
      exact absurd (he ▸ hy) (Nat.not_lt_of_le hc)
  | instant hq =>
      obtain ⟨he, -⟩ := step?_same (mayPass_instant hq) hs
      exact absurd (he ▸ hy) (Nat.not_lt_of_le hc)
  | @join _ id wait next next' h hout =>
      obtain ⟨around, joined, s', rfl, hr, rfl⟩ | ⟨s', hn, hl, hs', rfl⟩ := Passage.step?_cases hs
      · obtain ⟨rfl, -⟩ := respond_uncut hc hr
        exact absurd hy (Nat.not_lt_of_le hc)
      have hlate : ending < s.world.clock + l.span := (world_step hs').1 ▸ hy
      cases l with
      | elapse span =>
          have hlate : ending < s.world.clock + span := hlate
          obtain ⟨hj, hwait⟩ := mayPass_join.1 hl
          -- The wait goes on past the end, so the end cuts it short.
          obtain ⟨hfirst, he, -⟩ | ⟨-, -, time, rfl, hle⟩ := earlier_cases wait ending
          · rw [he]
            obtain ⟨s₁, hrun, hclock₁⟩ := wait_out hj hc t next
            obtain ⟨n, s₂, hrest, hclock₂⟩ := (hout hfirst).ends t s₁
            refine ⟨span, ending - s.world.clock, n + 1, s₂, rfl, ?_, ?_, hclock₂.trans hclock₁⟩
            · exact Nat.sub_le_iff_le_add'.2 (Nat.le_of_lt hlate)
            · refine (Passage.run?_append _ [.elapse _, .turn t {}] _).trans ?_
              rw [hrun]
              exact hrest
          · exact absurd (Nat.le_trans (hwait time rfl) hle) (Nat.not_le_of_lt hlate)
      | _ => exact absurd hlate (Nat.not_lt_of_le hc)

/-- **A run without the limit that goes on past the end** was going to be cut off there. -/
theorem overrun (h : CutOff ending out s.world.clock p p') (hc : s.world.clock ≤ ending)
    (hs : Passage.run? t ⟨s, p'⟩ labels = some y) (hy : ending < y.machine.world.clock) :
    ∃ before span after span' n s', labels = before ++ .elapse span :: after ∧ span' ≤ span ∧
      Passage.run? t ⟨s, p⟩ (before ++ .elapse span' :: List.replicate n (.turn t {})) =
        some ⟨s', .done out⟩ ∧ s'.world.clock = ending := by
  induction labels generalizing s p p' with
  | nil =>
      obtain rfl := Option.some.inj hs
      exact absurd hy (Nat.not_lt_of_le hc)
  | cons l labels ih =>
      obtain ⟨x₁, hs₁, hs⟩ := Option.bind_eq_some_iff.1 hs
      by_cases hc₁ : x₁.machine.world.clock ≤ ending
      · obtain ⟨q, hs₁', h₁⟩ := h.step_back hc hs₁ hc₁
        obtain ⟨before, span, after, span', n, s', rfl, hspan, hrun, hclock⟩ := ih h₁ hc₁ hs
        refine ⟨l :: before, span, after, span', n, s', rfl, hspan, ?_, hclock⟩
        exact Option.bind_eq_some_iff.2 ⟨_, hs₁', hrun⟩
      · obtain ⟨span, span', n, s', rfl, hspan, hrun, hclock⟩ :=
          h.overstep hc hs₁ (Nat.lt_of_not_le hc₁)
        exact ⟨[], span, labels, span', n, s', rfl, hspan, hrun, hclock⟩

/-- **An attempt with a limit comes to its end**, if only the task goes on. -/
theorem canEnd (h : CutOff ending out clock p p') (hs : s.world.clock = clock)
    (hc : clock ≤ ending) : Passage.CanEnd t ⟨s, p⟩ := by
  induction h generalizing s with
  | done a => exact ⟨[], s, a, List.forall_mem_nil _, rfl⟩
  | now _ ih => exact .answered (a := s.world.clock) rfl (hs ▸ ih hs hc)
  | @instant clock q next next' hq _ ih =>
      obtain ⟨a, s', hr⟩ : ∃ a s', s.respond t {} q = some (a, s') := by
        cases q with
        | spawn | abandon | call => exact ⟨_, _, rfl⟩
        | _ => cases hq
      exact .answered hr (ih a ((world_respond hr).1.trans hs) hc)
  | @join clock id wait next next' _ hout ih =>
      obtain ⟨time, htime, hle⟩ : ∃ time, earlier wait (some ending) = some time ∧
          time ≤ ending := by
        obtain ⟨-, he, -⟩ | ⟨-, he, time, rfl, hle⟩ := earlier_cases wait ending
        · exact ⟨ending, he, Nat.le_refl _⟩
        · exact ⟨time, he, hle⟩
      rw [htime]
      obtain ⟨labels, s', joined, hown, hrun, hmax⟩ := exists_joined id time t s next
      have hc' : s'.world.clock ≤ ending := Nat.le_trans hmax (Nat.max_le.2 ⟨hs ▸ hc, hle⟩)
      refine .before hown hrun ?_
      by_cases hlate : joined = .timedOut ∧ attemptFirst wait (some ending) = true
      · obtain ⟨rfl, hfirst⟩ := hlate
        exact (hout hfirst).canEnd s'
      · exact ih _ joined (fun he => Bool.eq_false_iff.2 fun hf => hlate ⟨he, hf⟩) rfl hc'

end CutOff

end TunnelKeeper.Service
