import TunnelKeeper.Proofs.Service.Callers

/-!
# Hiring — when a program starts a reactor

A start asks for a reactor right after it has registered, and no other program asks for one.

* `Hires v p`: the program `p` starts a reactor only for a registration that has none; `v` tells
  whether the latest one is known to have none.
* `Operation.hires`, `hires_react`: that is so of every program of the service.
-/

namespace TunnelKeeper.Service

variable {α β : Type} {v : Bool}

/-! ### Programs that start a reactor -/

/-- What an answer tells of the latest registration: it has no reactor, or it may have one. -/
def Ask.vacancy? : (q : Ask) → q.Answer → Option Bool
  | .spawnReactor, _ | .unlock, _ => some false
  | .call .register, registered => some registered
  | _, _ => none

/-- **A program starts a reactor only where it knows that there is none.** -/
def Hires : Bool → Program α → Prop
  | _, .done _ => True
  | v, .ask q next => (q = .spawnReactor → v = true) ∧ ∀ a, Hires ((q.vacancy? a).getD v) (next a)

namespace Hires

/-- What a program does without knowing, it does knowing. -/
theorem weaken {p : Program α} (hp : Hires false p) (v : Bool) : Hires v p := by
  cases v with
  | true =>
      induction p with
      | done a => trivial
      | ask q next ih =>
          refine ⟨fun _ => rfl, fun a => ?_⟩
          have hnext := hp.2 a
          cases htold : q.vacancy? a with
          | none =>
              rw [htold] at hnext
              exact ih a hnext
          | some vacant =>
              rw [htold] at hnext
              exact hnext
  | false => exact hp

theorem of_asks {allowed : Ask → Prop} (hn : ¬allowed .spawnReactor) {p : Program α}
    (hp : Asks allowed p) : Hires v p := by
  induction p generalizing v with
  | done a => trivial
  | ask q next ih => exact ⟨fun hq => absurd (hq ▸ hp.1) hn, fun a => ih a (hp.2 a)⟩

/-- A part of a start that starts no reactor. -/
theorem of_start (may : Work → Bool) {p : Program α} (hp : StartAsks may false p) : Hires v p :=
  of_asks Bool.false_ne_true hp

theorem question {q : Ask} (hq : q ≠ .spawnReactor) : Hires v (Dialogue.question q) :=
  ⟨fun h => absurd h hq, fun _ => trivial⟩

theorem bind {f : α → Program β} {p : Program α} (hp : Hires v p) (hf : ∀ a, Hires false (f a)) :
    Hires v (p.bind f) := by
  induction p generalizing v with
  | done a => exact (hf a).weaken v
  | ask q next ih => exact ⟨hp.1, fun a => ih a (hp.2 a)⟩

end Hires

theorem hires_startMonitoring : Hires v Program.startMonitoring := by
  refine ⟨nofun, fun (session : Session) => ?_⟩
  show Hires _ (if !session.monitored then _ else _)
  split
  · refine ⟨nofun, fun (registered : Bool) => ?_⟩
    cases registered with
    | true => exact ⟨fun _ => rfl, fun _ => .question nofun⟩
    | false => trivial
  · trivial

theorem hires_launch (limits : Limits) (d : Descriptor) (auto restart : Bool) :
    Hires v (Program.launch limits d auto restart) := by
  refine .bind (.of_start _ (asks_startProxy limits d.config)) fun code => ?_
  have failed : ∀ code, Hires false (Program.failStart code) := fun code =>
    .of_start (Work.isOfStart !auto) (asks_failStart code)
  have connects : Hires false (Program.connectTunnel d auto code) :=
    .of_start (Work.isOfStart !auto) (asks_connectTunnel d auto code)
  have slowly : ∀ {k : Call}, k.isOfStart = true → Hires false (Program.slowly k) := fun hk =>
    .of_start (Work.isOfStart !auto) (asks_slowly hk)
  split
  · exact failed _
  split
  · exact .bind (slowly rfl) fun _ => connects
  · refine .bind (slowly rfl) fun up => ?_
    cases up with
    | true => exact .bind hires_startMonitoring fun _ => connects
    | false => exact failed _

/-- **A start hires one reactor**, right after it has registered. -/
theorem hires_startLocked (limits : Limits) (d : Descriptor) (auto : Bool) :
    Hires v (Program.startLocked limits d auto) := by
  have opened : ∀ restart, Hires false (Program.setActive (some d) >>= fun _ =>
      Program.publishStatus .connecting >>= fun _ => Program.launch limits d auto restart) :=
    fun restart => .bind (.of_start (Work.isOfStart !auto) (asks_setActive _)) fun _ =>
      .bind (.question nofun) fun _ => hires_launch limits d auto restart
  refine .bind (.question nofun) fun session => ?_
  cases session.active with
  | none => exact opened false
  | some old =>
      exact .bind (.question nofun) fun _ => .bind (.question nofun) fun _ =>
        .bind (.question nofun) fun _ => opened true

theorem hires_tearDown : Hires v Program.tearDown :=
  .of_start (fun _ => false) asks_tearDown

theorem hires_bare {p : Program α} (hp : Bare p) : Hires v p := .of_asks Bool.false_ne_true hp

/-- **Every operation hires** only where there is no reactor. -/
theorem Operation.hires (limits : Limits) (op : Operation) : Hires v (op.program limits) := by
  cases op with
  | start id config =>
      refine .bind ?_ fun _ => trivial
      unfold Program.start
      split
      · trivial
      split
      · trivial
      · exact .bind (.question nofun) fun _ => .bind (hires_startLocked limits _ _) fun _ =>
          .bind (.question nofun) fun _ => trivial
  | stop id =>
      refine .bind ?_ fun _ => trivial
      unfold Program.stop
      split
      · trivial
      refine .bind (.question nofun) fun _ => .bind (.question nofun) fun session => ?_
      split
      · exact .bind (.question nofun) fun _ => .bind (.question nofun) fun _ =>
          .bind hires_tearDown fun _ => .bind (.question nofun) fun _ => trivial
      · exact .bind (.question nofun) fun _ => trivial
  | isActive | overview => exact hires_bare (Operation.bare limits rfl)
  | resume =>
      refine .bind ?_ fun _ => trivial
      refine .bind (.question nofun) fun _ => .bind (.question nofun) fun loaded => ?_
      cases Program.resumable? loaded with
      | none => exact .bind (.question nofun) fun _ => .bind (.question nofun) fun _ => trivial
      | some d =>
          refine .bind (.question nofun) fun (prepared : Bool) => ?_
          cases prepared with
          | true =>
              exact .bind (.question nofun) fun _ => .bind (hires_startLocked limits d true)
                fun _ => .bind (.question nofun) fun _ => trivial
          | false => exact .bind (.question nofun) fun _ => .bind (.question nofun) fun _ => trivial
  | revoke =>
      refine .bind ?_ fun _ => trivial
      exact .bind (.question nofun) fun _ => .bind (.question nofun) fun _ =>
        .bind (.question nofun) fun _ => .bind hires_tearDown fun _ => .question nofun
  | destroy =>
      refine .bind ?_ fun _ => trivial
      exact .bind (.question nofun) fun _ => .bind hires_tearDown fun _ => .question nofun

theorem hires_reportStatus (status : Status) : Hires v (Program.reportStatus status) := by
  refine .bind (.question nofun) fun _ => .bind (.question nofun) fun (session : Session) => ?_
  cases session.active with
  | none => exact .bind (.question nofun) fun _ => trivial
  | some d =>
      exact .bind (.question nofun) fun _ => .bind (.question nofun) fun _ =>
        .bind (.question nofun) fun _ => .bind (.question nofun) fun _ => trivial

theorem hires_probeUdp (span : Option Time) (proxy : SocketAddress) :
    Hires v (Program.probeUdp span proxy) := by
  refine .bind (.question nofun) fun id => ?_
  refine .bind (.of_start (fun _ => false) (asks_waitFor _ _ _)) fun waited => ?_
  cases waited <;> exact .bind (.question nofun) fun _ => trivial

theorem hires_recordUdp (d : Descriptor) (udp : Bool) : Hires v (Program.recordUdp d udp) := by
  refine .bind (.question nofun) fun _ => .bind (.question nofun) fun session => ?_
  split
  · exact .bind (.question nofun) fun _ => .bind (.bind (.question nofun) fun _ => trivial)
      fun _ => .bind (.question nofun) fun _ => trivial
  · exact .bind (.question nofun) fun _ => trivial

theorem hires_restartIfActive (limits : Limits) (d : Descriptor) :
    Hires v (Program.restartIfActive limits d) := by
  refine .bind (.question nofun) fun _ => .bind (.question nofun) fun session => ?_
  split
  · exact .bind (hires_startLocked limits d false) fun _ => .bind (.question nofun) fun _ => trivial
  · exact .bind (.question nofun) fun _ => trivial

theorem hires_recheckUdp (limits : Limits) (d : Descriptor) :
    Hires v (Program.recheckUdp limits d) := by
  refine .bind (.question nofun) fun proxy => .bind (hires_probeUdp _ _) fun udp => ?_
  refine .bind (hires_recordUdp d udp) fun recorded => ?_
  cases recorded with
  | none => trivial
  | some previous =>
      show Hires _ (if udp != previous then _ else _)
      split
      · exact .bind (hires_restartIfActive limits d) fun _ => trivial
      · trivial

/-- A reactor hires another one only where it starts the tunnel anew. -/
theorem hires_react (limits : Limits) (e : NetworkEvent) : Hires v (Program.react limits e) := by
  cases e with
  | available network =>
      refine .bind (.question nofun) fun state => ?_
      split
      · refine .bind (hires_reportStatus _) fun active => ?_
        cases active with
        | none => trivial
        | some d => exact .bind (.question nofun) fun _ => hires_recheckUdp limits d
      · trivial
  | lost network =>
      refine .bind (.question nofun) fun state => ?_
      split
      · trivial
      · refine .bind (hires_reportStatus _) fun active => ?_
        split
        · exact .bind (.question nofun) fun _ => trivial
        · trivial

end TunnelKeeper.Service
