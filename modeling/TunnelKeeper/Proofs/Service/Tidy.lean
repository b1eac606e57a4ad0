import TunnelKeeper.Proofs.Service.Ledger

/-!
# Tidy programs — what is handed in is seen to its end

Whatever a program hands in to the pool of workers, it owes until it has seen the end of it or given
it up, and no program of the service is done while it owes anything (`Tidy`).  That is a fact about
the text of the programs: it does not matter who answers them, nor what else goes on beside them.

* `Operation.tidy`, `tidy_react`: every program of the service is tidy.
-/

namespace TunnelKeeper.Service

variable {α β : Type} {g g' : Grip}

/-! ### Tidy programs -/

/-- **A tidy program** owes no unit of work when it is done, whoever answers it. -/
def Tidy : Grip → Program α → Prop
  | g, .done _ => g.owed = []
  | g, .ask q next => ∀ a, Tidy (g.after q a) (next a)

namespace Tidy

/-- Whoever owes less is done with no more. -/
theorem mono {p : Program α} (ho : ∀ id ∈ g'.owed, id ∈ g.owed) (hp : Tidy g p) : Tidy g' p := by
  induction p generalizing g g' with
  | done a =>
      have hp : g.owed = [] := hp
      exact List.eq_nil_iff_forall_not_mem.2 fun id hid => List.not_mem_nil (hp ▸ ho id hid)
  | ask q next ih => exact fun a => ih a (Grip.owed_after ho q a) (hp a)

theorem bind {f : α → Program β} {p : Program α} (hp : Tidy g p) (hf : ∀ a, Tidy {} (f a)) :
    Tidy g (p.bind f) := by
  induction p generalizing g with
  | done a =>
      have hp : g.owed = [] := hp
      exact (hf a).mono (by simp [hp])
  | ask q next ih => exact fun a => ih a (hp a)

/-- A question that hands in no work. -/
theorem question {q : Ask} (hq : ∀ work, q ≠ .spawn work) : Tidy {} (Dialogue.question q) := by
  intro a
  cases q with
  | spawn work => exact absurd rfl (hq work)
  | join id limit => cases (a : Pool.Joined Bool) <;> rfl
  | call k => exact Careful.owed_call {} k a
  | _ => rfl

end Tidy

theorem Careful.tidy {p : Program α} (hp : Careful g p) : Tidy g p := by
  induction p generalizing g with
  | done a => exact hp
  | ask q next ih => exact fun a => ih a (hp.2 a)

/-- A program that has the lock is done when it has given it back. -/
theorem Held.tidy {p : Program α} (hp : Held g p) : Tidy g p := by
  induction p generalizing g with
  | done a => exact hp.elim
  | ask q next ih =>
      by_cases hq : q = .unlock
      · subst hq
        intro a
        obtain ⟨r, hr⟩ := (hp.1 rfl).2 a
        rw [hr]
        exact (hp.1 rfl).1
      · exact fun a => ih a ((hp.2 hq).2 a)

theorem tidy_isActive (id : String) : Tidy {} (Program.isActive id) := by
  unfold Program.isActive
  split
  · rfl
  · exact .bind (.question nofun) fun _ => rfl

theorem tidy_overview (id : Option String) : Tidy {} (Program.overview id) := by
  refine .bind ?_ fun active => ?_
  · cases id with
    | none => rfl
    | some id => exact .bind (tidy_isActive id) fun _ => rfl
  · cases active with
    | error e => rfl
    | ok active =>
        exact .bind (.question nofun) fun _ => .bind (.question nofun) fun _ =>
          .bind (.question nofun) fun _ => rfl

/-- **The operations of the service are tidy.** -/
theorem Operation.tidy (limits : Limits) (op : Operation) : Tidy {} (op.program limits) := by
  cases hw : op.waits with
  | true =>
      obtain ⟨r, hp⟩ | ⟨next, hp, hheld⟩ := op.refused_or_held limits hw
      · exact hp ▸ rfl
      · exact hp ▸ fun a => hheld.tidy
  | false =>
      cases op with
      | isActive id => exact .bind (tidy_isActive id) fun _ => rfl
      | overview id => exact .bind (tidy_overview id) fun _ => rfl
      | start | stop | resume | revoke | destroy => cases hw

theorem tidy_reportStatus (status : Status) : Tidy {} (Program.reportStatus status) := by
  refine .bind (.question nofun) fun _ => .bind (.question nofun) fun (session : Session) => ?_
  cases session.active with
  | none => exact .bind (.question nofun) fun _ => rfl
  | some d =>
      exact .bind (.question nofun) fun _ => .bind (.question nofun) fun _ =>
        .bind (.question nofun) fun _ => .bind (.question nofun) fun _ => rfl

theorem tidy_recordUdp (d : Descriptor) (udp : Bool) : Tidy {} (Program.recordUdp d udp) := by
  refine .bind (.question nofun) fun _ => .bind (.question nofun) fun session => ?_
  split
  · exact .bind (.question nofun) fun _ => .bind (.bind (.question nofun) fun _ => rfl)
      fun _ => .bind (.question nofun) fun _ => rfl
  · exact .bind (.question nofun) fun _ => rfl

theorem tidy_restartIfActive (limits : Limits) (d : Descriptor) :
    Tidy {} (Program.restartIfActive limits d) := by
  refine .bind (.question nofun) fun _ => .bind (.question nofun) fun session => ?_
  split
  · exact .bind (careful_startLocked limits d false).tidy fun _ => .bind (.question nofun) fun _ =>
      rfl
  · exact .bind (.question nofun) fun _ => rfl

theorem tidy_recheckUdp (limits : Limits) (d : Descriptor) :
    Tidy {} (Program.recheckUdp limits d) := by
  refine .bind (.question nofun) fun proxy => .bind (careful_probeUdp _ _).tidy fun udp => ?_
  refine .bind (tidy_recordUdp d udp) fun recorded => ?_
  cases recorded with
  | none => rfl
  | some previous =>
      dsimp only
      split
      · exact .bind (tidy_restartIfActive limits d) fun _ => rfl
      · rfl

/-- **What a reactor does about an event is tidy.** -/
theorem tidy_react (limits : Limits) (e : NetworkEvent) : Tidy {} (Program.react limits e) := by
  cases e with
  | available network =>
      refine .bind (.question nofun) fun state => ?_
      split
      · refine .bind (tidy_reportStatus .connected) fun active => ?_
        cases active with
        | none => rfl
        | some d => exact .bind (.question nofun) fun _ => tidy_recheckUdp limits d
      · rfl
  | lost network =>
      refine .bind (.question nofun) fun state => ?_
      split
      · rfl
      · refine .bind (tidy_reportStatus .reconnecting) fun active => ?_
        split
        · exact .bind (.question nofun) fun _ => rfl
        · rfl

end TunnelKeeper.Service
