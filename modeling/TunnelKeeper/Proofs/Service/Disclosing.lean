import TunnelKeeper.Proofs.Service.Callers

/-!
# Disclosing — programs that show what they put into the session

There are two copies of the active tunnel: the one in the session, which needs the lock, and the one
that anybody may read.  A program shows every tunnel before it puts it into the session, and waits
for nothing in between (`Publishes`).

* `Publishes.bind`: programs that follow each other go on where the last one left off.
* `Operation.publishes` and `publishes_react`: all programs of the service are of this kind.
-/

namespace TunnelKeeper.Service

variable {α β : Type}

/-! ### Programs -/

/-- What a task has done about the active tunnel. -/
inductive Publishing where
  /-- It does not have the lock. -/
  | apart
  /-- It has the lock, and both copies are the same. -/
  | level
  /-- It has made a tunnel visible that is not in the session yet. -/
  | ahead (active : Option Descriptor)

/-- Whether a question neither concerns the lock nor changes the active tunnel. -/
def Ask.isMild : Ask → Bool
  | .lock | .unlock | .setActive _ | .publishActive _ => false
  | _ => true

/-- What may be asked, and what comes of it. -/
inductive Publishing.Asks : Publishing → Ask → Publishing → Prop where
  | lock : Asks .apart .lock .level
  | unlock : Asks .level .unlock .apart
  | publishes (active : Option Descriptor) : Asks .level (.publishActive active) (.ahead active)
  | follows (active : Option Descriptor) : Asks (.ahead active) (.setActive active) .level
  | mild {st : Publishing} {q : Ask} (hst : ∀ active, st ≠ .ahead active) (hq : q.isMild = true) :
      Asks st q st

/-- **A program shows what it puts into the session**, and begins and ends where that is told. -/
def Publishes (last : Publishing) : Publishing → Program α → Prop
  | st, .done _ => st = last
  | st, .ask q next => ∃ st', st.Asks q st' ∧ ∀ a, Publishes last st' (next a)

/-- A program that leaves alone the lock and the active tunnel. -/
abbrev Mild (p : Program α) : Prop := Asks (fun q => q.isMild = true) p

/-- Whether a question is mild and tells the host nothing. -/
def Ask.isTacit : Ask → Bool
  | .call (.emit _) => false
  | q => q.isMild

/-- A mild program that tells the host nothing. -/
abbrev Tacit (p : Program α) : Prop := Asks (fun q => q.isTacit = true) p

namespace Publishes

theorem bind {last mid : Publishing} {f : α → Program β} {st : Publishing} {p : Program α}
    (hp : Publishes mid st p) (hf : ∀ a, Publishes last mid (f a)) :
    Publishes last st (p.bind f) := by
  induction p generalizing st with
  | done a =>
      obtain rfl : st = mid := hp
      exact hf a
  | ask q next ih =>
      obtain ⟨st', hq, hnext⟩ := hp
      exact ⟨st', hq, fun a => ih a (hnext a)⟩

theorem question {st st' : Publishing} {q : Ask} (hq : st.Asks q st') :
    Publishes st' st (Dialogue.question q) :=
  ⟨st', hq, fun _ => rfl⟩

theorem of_mild {st : Publishing} (hst : ∀ active, st ≠ .ahead active) {p : Program α}
    (hp : Mild p) : Publishes st st p := by
  induction p with
  | done a => rfl
  | ask q next ih => exact ⟨st, .mild hst hp.1, fun a => ih a (hp.2 a)⟩

theorem level {p : Program α} (hp : Mild p) : Publishes .level .level p :=
  of_mild (by nofun) hp

theorem apart {p : Program α} (hp : Mild p) : Publishes .apart .apart p :=
  of_mild (by nofun) hp

/-- A question with the lock that leaves the active tunnel alone. -/
theorem asked {q : Ask} (hq : q.isMild = true) : Publishes .level .level (Dialogue.question q) :=
  question (.mild nofun hq)

theorem setActive (active : Option Descriptor) :
    Publishes .level .level (Program.setActive active) :=
  ⟨_, .publishes active, fun _ => ⟨_, .follows active, fun _ => rfl⟩⟩

/-- What is done with the lock. -/
theorem locked {f : Unit → Program α} (hf : Publishes .apart .level (f ())) :
    Publishes .apart .apart (Program.lock.bind f) :=
  ⟨_, .lock, fun _ => hf⟩

/-- The lock is given back at the end. -/
theorem unlocked (a : α) : Publishes .apart .level (Program.unlock.bind fun _ => .done a) :=
  ⟨_, .unlock, fun _ => rfl⟩

end Publishes

theorem Asks.mono {allowed allowed' : Ask → Prop} (h : ∀ q, allowed q → allowed' q)
    {p : Program α} (hp : Asks allowed p) : Asks allowed' p := by
  induction p with
  | done a => trivial
  | ask q next ih => exact ⟨h q hp.1, fun a => ih a (hp.2 a)⟩

theorem Bare.mild {p : Program α} (hp : Bare p) : Mild p := by
  refine hp.mono fun q hq => ?_
  cases q with
  | lock | unlock | setActive | publishActive => cases hq
  | _ => rfl

theorem Tacit.mild {p : Program α} (hp : Tacit p) : Mild p := by
  refine hp.mono fun q hq => ?_
  cases q with
  | call k => rfl
  | _ => exact hq

/-! ### Tacit parts -/

theorem tacit_slowly {k : Call} (hk : Ask.isTacit (.call k) = true) :
    Tacit (Program.slowly k) :=
  ⟨hk, fun _ => ⟨rfl, fun _ => trivial⟩⟩

theorem tacit_activeId : Tacit Program.activeId := ⟨rfl, fun _ => trivial⟩

theorem tacit_write (u : Store.Update) : Tacit (Program.write u) := ⟨rfl, fun _ => trivial⟩

theorem tacit_waitFor (id : UnitId) (span ending : Option Time) :
    Tacit (Program.waitFor id span ending) := by
  refine ⟨rfl, fun _ => ⟨rfl, fun joined => ?_⟩⟩
  cases (joined : Pool.Joined Bool) <;> trivial

theorem tacit_judge (server credentials : UnitId) (span ending : Option Time) :
    Tacit (Program.judge server credentials span ending) := by
  refine .bind (tacit_waitFor _ _ _) fun reached => ?_
  cases reached with
  | outOfTime | failed => trivial
  | answered reachable =>
      refine .bind (tacit_waitFor _ _ _) fun valid => ?_
      cases valid with
      | outOfTime | failed => trivial
      | answered valid => cases valid <;> trivial

theorem tacit_probe (span ending : Option Time) (proxy : SocketAddress) (host : String)
    (port : UInt16) : Tacit (Program.probe span ending proxy host port) := by
  refine .bind (.question rfl) fun (udp : UnitId) => .bind (.question rfl) fun server => ?_
  refine .bind (.question rfl) fun (credentials : UnitId) => ?_
  have given : ∀ verdict : Option ProbeResult, Tacit
      (Program.abandon udp >>= fun _ => Program.abandon server >>= fun _ =>
        Program.abandon credentials >>= fun _ => pure verdict) :=
    fun verdict => ⟨rfl, fun _ => ⟨rfl, fun _ => ⟨rfl, fun _ => trivial⟩⟩⟩
  refine .bind (tacit_waitFor _ _ _) fun relayed => ?_
  cases relayed with
  | outOfTime | failed => exact given _
  | answered relayed =>
      cases relayed with
      | true => exact given _
      | false => exact .bind (tacit_judge _ _ _ _) given

theorem tacit_startProxy (limits : Limits) (config : TunnelConfig) (probing : Bool) :
    Tacit (Program.startProxy limits config probing) := by
  unfold Program.startProxy
  cases config.endpoint with
  | error e => trivial
  | ok endpoint =>
      refine .bind (.question rfl) fun start => .bind ?_ fun _ => trivial
      refine .bind (.question rfl) fun unit => .bind (.question rfl) fun joined => ?_
      cases (joined : Pool.Joined Bool) with
      | timedOut => exact ⟨rfl, fun _ => trivial⟩
      | panicked | refused => trivial
      | value started =>
          cases started with
          | false => trivial
          | true =>
              cases probing with
              | false => trivial
              | true =>
                  refine .bind (.question rfl) fun proxy => ?_
                  exact .bind (tacit_probe _ _ _ _ _) fun _ => trivial

theorem tacit_stopMonitoring : Tacit Program.stopMonitoring := by
  refine ⟨rfl, fun (session : Session) => ?_⟩
  show Asks _ (if session.monitored then _ else _)
  split
  · exact ⟨rfl, fun _ => ⟨rfl, fun _ => trivial⟩⟩
  · trivial

theorem tacit_startMonitoring : Tacit Program.startMonitoring := by
  refine ⟨rfl, fun (session : Session) => ?_⟩
  show Asks _ (if !session.monitored then _ else _)
  split
  · refine ⟨rfl, fun (registered : Bool) => ?_⟩
    cases registered with
    | true => exact ⟨rfl, fun _ => ⟨rfl, fun _ => trivial⟩⟩
    | false => trivial
  · trivial

theorem tacit_storeActive (d : Descriptor) (udp : Bool) : Tacit (Program.storeActive d udp) :=
  .bind (tacit_write _) fun _ => .bind (tacit_write _) fun _ => tacit_write _

/-! ### Operations -/

theorem publishes_tearDown : Publishes .level .level Program.tearDown := by
  have slowly : ∀ {k : Call}, Ask.isTacit (.call k) = true → Mild (Program.slowly k) :=
    fun hk => (tacit_slowly hk).mild
  refine .bind (.level (slowly rfl)) fun _ => .bind (.level (slowly rfl)) fun _ => ?_
  refine .bind (.level (slowly rfl)) fun _ => .bind (.asked rfl) fun _ => ?_
  refine .bind (.setActive none) fun _ => .bind (.level tacit_stopMonitoring.mild) fun _ => ?_
  exact .bind (.asked rfl) fun _ => .level (tacit_write _).mild

theorem publishes_failStart (code : ErrorCode) : Publishes .level .level (Program.failStart code) :=
  .bind (.level tacit_activeId.mild) fun _ => .bind (.asked rfl) fun _ =>
    .bind publishes_tearDown fun _ => rfl

theorem publishes_connectOver (d : Descriptor) (code : ErrorCode) (udp : Bool) :
    Publishes .level .level (Program.connectOver d code udp) := by
  refine .bind (.asked rfl) fun proxy => .bind (.level (tacit_slowly rfl).mild) fun connected => ?_
  cases connected with
  | false => exact publishes_failStart _
  | true =>
      refine .bind (.level tacit_activeId.mild) fun _ => .bind (.asked rfl) fun _ => ?_
      refine .bind (.asked rfl) fun _ => .bind (.asked rfl) fun _ => ?_
      exact .bind (.level (tacit_storeActive d udp).mild) fun _ => rfl

theorem publishes_connectTunnel (d : Descriptor) (auto : Bool) (code : ErrorCode) :
    Publishes .level .level (Program.connectTunnel d auto code) := by
  cases auto with
  | true => exact .bind (.asked rfl) (publishes_connectOver d code)
  | false => exact publishes_connectOver d code _

theorem publishes_launch (limits : Limits) (d : Descriptor) (auto restart : Bool) :
    Publishes .level .level (Program.launch limits d auto restart) := by
  refine .bind (.level (tacit_startProxy _ _ _).mild) fun code => ?_
  split
  · exact publishes_failStart _
  split
  · exact .bind (.level (tacit_slowly rfl).mild) fun _ => publishes_connectTunnel _ _ _
  · refine .bind (.level (tacit_slowly rfl).mild) fun up => ?_
    cases up with
    | true =>
        exact .bind (.level tacit_startMonitoring.mild) fun _ => publishes_connectTunnel _ _ _
    | false => exact publishes_failStart _

/-- **A start shows the tunnel that it makes the active one.** -/
theorem publishes_startLocked (limits : Limits) (d : Descriptor) (auto : Bool) :
    Publishes .level .level (Program.startLocked limits d auto) := by
  have opened : ∀ restart, Publishes .level .level (Program.setActive (some d) >>= fun _ =>
      Program.publishStatus .connecting >>= fun _ => Program.launch limits d auto restart) :=
    fun restart => .bind (.setActive _) fun _ => .bind (.asked rfl) fun _ =>
      publishes_launch limits d auto restart
  refine .bind (.asked rfl) fun session => ?_
  cases session.active with
  | none => exact opened false
  | some old =>
      exact .bind (.level tacit_activeId.mild) fun _ => .bind (.asked rfl) fun _ =>
        .bind (.asked rfl) fun _ => opened true

/-- **Every operation shows what it puts into the session.** -/
theorem Operation.publishes (limits : Limits) (op : Operation) :
    Publishes .apart .apart (op.program limits) := by
  cases op with
  | start id config =>
      refine .bind ?_ fun _ => rfl
      unfold Program.start
      split
      · rfl
      split
      · rfl
      · exact .locked (.bind (publishes_startLocked limits _ _) fun _ => .unlocked _)
  | stop id =>
      refine .bind ?_ fun _ => rfl
      unfold Program.stop
      split
      · rfl
      refine .locked (.bind (.level tacit_activeId.mild) fun active => ?_)
      split
      · exact .bind (.level tacit_activeId.mild) fun _ => .bind (.asked rfl) fun _ =>
          .bind publishes_tearDown fun _ => .unlocked _
      · exact .unlocked _
  | isActive | overview => exact .apart (Operation.bare limits rfl).mild
  | resume =>
      refine .bind ?_ fun _ => rfl
      refine .locked (.bind (.asked rfl) fun loaded => ?_)
      cases Program.resumable? loaded with
      | none => exact .bind (.asked rfl) fun _ => .unlocked _
      | some d =>
          refine .bind (.asked rfl) fun (prepared : Bool) => ?_
          cases prepared with
          | true =>
              exact .bind (.asked rfl) fun _ => .bind (publishes_startLocked limits d true) fun _ =>
                .unlocked _
          | false => exact .bind (.asked rfl) fun _ => .unlocked _
  | revoke =>
      refine .bind ?_ fun _ => rfl
      exact .locked (.bind (.level tacit_activeId.mild) fun _ => .bind (.asked rfl) fun _ =>
        .bind publishes_tearDown fun _ => .question .unlock)
  | destroy =>
      refine .bind ?_ fun _ => rfl
      exact .locked (.bind publishes_tearDown fun _ => .question .unlock)

theorem publishes_reportStatus (status : Status) :
    Publishes .apart .apart (Program.reportStatus status) := by
  refine .locked (.bind (.asked rfl) fun (session : Session) => ?_)
  cases session.active with
  | none => exact .unlocked _
  | some d =>
      exact .bind (.asked rfl) fun _ => .bind (.asked rfl) fun _ => .bind (.asked rfl) fun _ =>
        .unlocked _

theorem publishes_recordUdp (d : Descriptor) (udp : Bool) :
    Publishes .apart .apart (Program.recordUdp d udp) := by
  refine .locked (.bind (.asked rfl) fun session => ?_)
  split
  · exact .bind (.asked rfl) fun _ => .bind (.level (tacit_write _).mild) fun _ => .unlocked _
  · exact .unlocked _

theorem publishes_restartIfActive (limits : Limits) (d : Descriptor) :
    Publishes .apart .apart (Program.restartIfActive limits d) := by
  refine .locked (.bind (.asked rfl) fun session => ?_)
  split
  · exact .bind (publishes_startLocked limits d false) fun _ => .unlocked _
  · exact .unlocked _

theorem tacit_probeUdp (span : Option Time) (proxy : SocketAddress) :
    Tacit (Program.probeUdp span proxy) := by
  refine .bind (.question rfl) fun unit => .bind (tacit_waitFor _ _ _) fun waited => ?_
  cases waited <;> exact .bind (.question rfl) fun _ => trivial

theorem publishes_recheckUdp (limits : Limits) (d : Descriptor) :
    Publishes .apart .apart (Program.recheckUdp limits d) := by
  refine .bind (.question (.mild nofun rfl)) fun proxy => ?_
  refine .bind (.apart (tacit_probeUdp _ _).mild) fun udp => ?_
  refine .bind (publishes_recordUdp d udp) fun recorded => ?_
  cases recorded with
  | none => rfl
  | some previous =>
      show Publishes _ _ (if udp != previous then _ else _)
      split
      · exact .bind (publishes_restartIfActive limits d) fun _ => rfl
      · rfl

/-- **A reactor shows what it puts into the session.** -/
theorem publishes_react (limits : Limits) (e : NetworkEvent) :
    Publishes .apart .apart (Program.react limits e) := by
  have asked : ∀ {q : Ask}, q.isMild = true → Publishes .apart .apart (Dialogue.question q) :=
    fun hq => .question (.mild nofun hq)
  cases e with
  | available network =>
      refine .bind (asked rfl) fun state => ?_
      split
      · refine .bind (publishes_reportStatus _) fun active => ?_
        cases active with
        | none => rfl
        | some d => exact .bind (asked rfl) fun _ => publishes_recheckUdp limits d
      · rfl
  | lost network =>
      refine .bind (asked rfl) fun state => ?_
      split
      · rfl
      · refine .bind (publishes_reportStatus _) fun active => ?_
        split
        · exact .bind (asked rfl) fun _ => rfl
        · rfl

end TunnelKeeper.Service
