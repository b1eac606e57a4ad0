import TunnelKeeper.Proofs.Service.Moves

/-!
# Callers — outside, let in, and done

A caller asks for the lock first of all, has it once, and is done when it gives it back (`Held`); or
else it asks only what needs no lock (`Bare`).  So a caller that is not in its section has not been
let in yet and is about to carry out its operation from the beginning, or has nothing to do with the
lock any more (`CallersStand`).

* `CallersStand.step`: every step leaves callers so.
* `Reach.callersStand`: so does every run.
-/

namespace TunnelKeeper.Service

variable {α β : Type} {s s' : Machine} {o : Option Pending} {l : Label}

/-! ### Programs without the lock -/

/-- A program that asks only what leaves alone what the lock guards. -/
abbrev Bare (p : Program α) : Prop := Asks (fun q => q.isFree = true) p

theorem bare_isActive (id : String) : Bare (Program.isActive id) := by
  unfold Program.isActive
  split
  · trivial
  · exact .bind (.question rfl) fun _ => trivial

theorem bare_overview (id : Option String) : Bare (Program.overview id) := by
  refine .bind ?_ fun active => ?_
  · cases id with
    | none => trivial
    | some id => exact .bind (bare_isActive id) fun _ => trivial
  · cases active with
    | error e => trivial
    | ok active =>
        refine .bind (.question rfl) fun status => .bind (.question rfl) fun tunnel => ?_
        exact .bind (.question rfl) fun udp => trivial

/-- An operation that does not wait for the lock has nothing to do with it. -/
theorem Operation.bare (limits : Limits) {op : Operation} (hw : op.waits = false) :
    Bare (op.program limits) := by
  cases op with
  | isActive id => exact .bind (bare_isActive id) fun _ => trivial
  | overview id => exact .bind (bare_overview id) fun _ => trivial
  | start | stop | resume | revoke | destroy => cases hw

/-! ### Callers -/

/-- An operation that is about to ask for the lock. -/
def Operation.Awaits (limits : Limits) (op : Operation) (p : Program Reply) : Prop :=
  op.waits = true ∧ p = op.program limits

/-- What such an operation asks is the lock, and nothing else. -/
theorem Operation.Awaits.ask {limits : Limits} {op : Operation} {q : Ask}
    {next : q.Answer → Program Reply} (h : op.Awaits limits (.ask q next)) :
    q = .lock ∧ ∀ a, Held {} (next a) := by
  obtain ⟨hw, hp⟩ := h
  obtain ⟨r, hr⟩ | ⟨next', hn, hheld⟩ := op.refused_or_held limits hw
  · exact nomatch hp.trans hr
  · cases hp.trans hn
    exact ⟨rfl, fun _ => hheld⟩

/-- **How callers stand**: in the section that they had to wait for, or outside. -/
def CallersStand (s : Machine) : Prop :=
  ∀ i task, s.tasks[i]? = some task → task.registration = none →
    (s.Inside i → ∃ g, Held g task.program) ∧
    (¬s.Inside i → Bare task.program ∨ ∃ op : Operation, op.Awaits s.limits task.program)

/-- The limits are the same in every step. -/
theorem limits_step (hs : s.step? l = some s') : s'.limits = s.limits := by
  cases l with
  | turn t around =>
      obtain ⟨task, -, -, hturn⟩ := turn?_cases hs
      cases hturn with
      | reads | ends | enters | queues => rfl
      | @answered q next a s₁ _ hq hs₁ =>
          show s₁.limits = s.limits
          cases q with
          | lock => exact absurd rfl hq
          | join id limit =>
              obtain ⟨rfl, -⟩ := respond_join.1 hs₁
              rfl
          | _ =>
              cases hs₁
              rfl
  | ask id =>
      obtain ⟨pool, -, rfl⟩ := step?_ask hs
      rfl
  | begin id =>
      obtain ⟨pool, u, -, -, rfl⟩ := begin?_eq_some.1 hs
      rfl
  | finish | panic =>
      obtain ⟨u, -, -, rfl⟩ := end?_eq_some.1 hs
      rfl
  | deliver registration e =>
      obtain rfl := step?_deliver hs
      rfl
  | drop t =>
      obtain ⟨old, hold, -, rfl⟩ := step?_drop hs
      simp only [Machine.dropTask, hold]
      split <;> split <;> rfl
  | call | silence | occupy | vacate | closePool | elapse =>
      obtain rfl := Option.some.inj hs
      rfl

/-- **Every step leaves callers as they stand**, inside or outside. -/
theorem CallersStand.step (h : CallersStand s) (hk : Kept .loose s o) (hl : s.Orderly l)
    (hs : s.step? l = some s') : CallersStand s' := by
  intro i task htask hr
  rw [limits_step hs]
  have hmoves := hk.moves hl hs htask
  generalize task.program = p, task.registration = registration at hmoves hr
  cases hmoves with
  | called op _ hin =>
      refine ⟨fun hin' => absurd hin' hin, fun _ => ?_⟩
      cases hw : op.waits with
      | true => exact .inr ⟨op, hw, rfl⟩
      | false => exact .inl (op.bare s.limits hw)
  | spawned => cases hr
  | dropped _ hin => exact ⟨fun hin' => absurd hin' hin, fun _ => .inl trivial⟩
  | stays hold _ hin =>
      rw [hin]
      exact h i _ hold hr
  | reacts _ _ _ hreads => exact nomatch hr.symm.trans hreads
  | entered _ hold hp _ _ hrest hin =>
      refine ⟨fun _ => ?_, fun hout => absurd hin hout⟩
      have hout := (h i _ hold hr).2 (hrest i)
      rw [hp] at hout
      obtain hbare | ⟨op, hop⟩ := hout
      · exact absurd hbare.1 nofun
      · exact ⟨{}, hop.ask.2 ()⟩
  | @answered _ _ q next a _ _ hold hp hlock hunlock _ _ hin =>
      rw [hin]
      have hold := h i _ hold hr
      rw [hp] at hold
      refine ⟨fun hin => ?_, fun hout => ?_⟩
      · obtain ⟨g, hheld⟩ := hold.1 hin
        exact ⟨_, (hheld.2 hunlock).2 a⟩
      · obtain hbare | ⟨op, hop⟩ := hold.2 hout
        · exact .inl (hbare.2 a)
        · exact absurd hop.ask.1 hlock
  | @left _ _ next _ hold hp _ hin hrest =>
      refine ⟨fun hin => absurd hin (hrest i), fun _ => .inl ?_⟩
      obtain ⟨g, hheld⟩ := (h i _ hold hr).1 hin
      rw [hp] at hheld
      obtain ⟨r, hdone⟩ := (hheld.1 rfl).2 ()
      rw [hdone]
      trivial

/-- **Every run leaves callers as they stand.** -/
theorem Reach.callersStand {limits : Limits} {poolSize : Nat} {store : Store.Persisted}
    (h : Reach Machine.Orderly (Machine.fresh limits poolSize store) s) : CallersStand s := by
  induction h with
  | start => exact fun _ _ htask => nomatch htask
  | step h hl hs ih =>
      obtain ⟨o, hk⟩ := h.orderly_kept
      exact ih.step hk hl hs

end TunnelKeeper.Service
