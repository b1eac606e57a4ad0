import TunnelKeeper.Proofs.Service.Sections

/-!
# Questions — what a start may ask

Some of what is claimed of a start is that it does not do something, whoever answers it.  Then it is
enough to know the questions that the text of the program holds (`Asks`).  A start asks only what a
start is about (`Ask.isOfStart`): it leaves the lock alone, reports nothing on a tunnel that stays,
reads no tunnel from the store, does not end the service, and hands in checks only if it probes.

* `asks_startLocked`: the questions of a start.
-/

namespace TunnelKeeper.Service

variable {α β : Type}

/-- A program asks only what is allowed. -/
def Asks (allowed : Ask → Prop) : Program α → Prop
  | .done _ => True
  | .ask q next => allowed q ∧ ∀ a, Asks allowed (next a)

theorem Asks.bind {allowed : Ask → Prop} {f : α → Program β} {p : Program α} (hp : Asks allowed p)
    (hf : ∀ a, Asks allowed (f a)) : Asks allowed (p.bind f) := by
  induction p with
  | done a => exact hf a
  | ask q next ih => exact ⟨hp.1, fun a => ih a (hp.2 a)⟩

theorem Asks.question {allowed : Ask → Prop} {q : Ask} (h : allowed q) :
    Asks allowed (Dialogue.question q) :=
  ⟨h, fun _ => trivial⟩

/-- Whether a call reports on a tunnel that stays: that it is connected, or has no network. -/
def Call.isReport : Call → Bool
  | .emit e => e.action == .statusChange && e.status != some .disconnected
  | _ => false

/-- Whether a start may make a call. -/
def Call.isOfStart : Call → Bool
  | .emit e => !(Call.emit e).isReport
  | .load | .isPrepared | .requestExit | .bindNetwork _ | .networkState _ | .activeNetwork => false
  | _ => true

/-- Whether a start may hand in a unit of work: checks only if it probes. -/
def Work.isOfStart (probing : Bool) : Work → Bool
  | .startProxy _ => true
  | .errand _ => false
  | _ => probing

/-- Whether a start, or a part of it that may hand in some work and may start a reactor, may ask a
question. -/
def Ask.isOfStart (may : Work → Bool) (monitors : Bool) : Ask → Bool
  | .lock | .unlock | .visibleActive | .visibleStatus => false
  | .spawnReactor => monitors
  | .spawn work => may work
  | .call k => k.isOfStart
  | _ => true

/-! ### The questions of a start -/

/-- A program asks only what a start may ask. -/
abbrev StartAsks (may : Work → Bool) (monitors : Bool) (p : Program α) : Prop :=
  Asks (fun q => q.isOfStart may monitors = true) p

variable {may : Work → Bool} {monitors probing : Bool}

theorem asks_slowly {k : Call} (hk : k.isOfStart = true) :
    StartAsks may monitors (Program.slowly k) :=
  ⟨hk, fun _ => ⟨rfl, fun _ => trivial⟩⟩

theorem asks_activeId : StartAsks may monitors Program.activeId := ⟨rfl, fun _ => trivial⟩

theorem asks_setActive (active : Option Descriptor) :
    StartAsks may monitors (Program.setActive active) :=
  ⟨rfl, fun _ => ⟨rfl, fun _ => trivial⟩⟩

theorem asks_write (u : Store.Update) : StartAsks may monitors (Program.write u) :=
  ⟨rfl, fun _ => trivial⟩

theorem asks_stopMonitoring : StartAsks may monitors Program.stopMonitoring := by
  refine ⟨rfl, fun (session : Session) => ?_⟩
  show Asks _ (if session.monitored then _ else _)
  split
  · exact ⟨rfl, fun _ => ⟨rfl, fun _ => trivial⟩⟩
  · trivial

theorem asks_startMonitoring : StartAsks may true Program.startMonitoring := by
  refine ⟨rfl, fun (session : Session) => ?_⟩
  show Asks _ (if !session.monitored then _ else _)
  split
  · refine ⟨rfl, fun (registered : Bool) => ?_⟩
    cases registered with
    | true => exact ⟨rfl, fun _ => ⟨rfl, fun _ => trivial⟩⟩
    | false => trivial
  · trivial

theorem asks_tearDown : StartAsks may monitors Program.tearDown := by
  refine .bind (asks_slowly rfl) fun _ => .bind (asks_slowly rfl) fun _ => ?_
  refine .bind (asks_slowly rfl) fun _ => .bind (.question rfl) fun _ => ?_
  refine .bind (asks_setActive none) fun _ => .bind asks_stopMonitoring fun _ => ?_
  exact .bind (.question rfl) fun _ => asks_write _

theorem asks_failStart (code : ErrorCode) : StartAsks may monitors (Program.failStart code) :=
  .bind asks_activeId fun _ => .bind (.question rfl) fun _ => .bind asks_tearDown fun _ => trivial

theorem asks_waitFor (id : UnitId) (span ending : Option Time) :
    StartAsks may monitors (Program.waitFor id span ending) := by
  refine ⟨rfl, fun _ => ⟨rfl, fun joined => ?_⟩⟩
  cases (joined : Pool.Joined Bool) <;> trivial

theorem asks_judge (server credentials : UnitId) (span ending : Option Time) :
    StartAsks may monitors (Program.judge server credentials span ending) := by
  refine .bind (asks_waitFor _ _ _) fun reached => ?_
  cases reached with
  | outOfTime | failed => trivial
  | answered reachable =>
      refine .bind (asks_waitFor _ _ _) fun valid => ?_
      cases valid with
      | outOfTime | failed => trivial
      | answered valid => cases valid <;> trivial

/-- Only a start that probes hands in checks. -/
theorem asks_probe (span ending : Option Time) (proxy : SocketAddress) (host : String)
    (port : UInt16) :
    StartAsks (Work.isOfStart true) monitors (Program.probe span ending proxy host port) := by
  refine .bind (.question rfl) fun (udp : UnitId) => .bind (.question rfl) fun server => ?_
  refine .bind (.question rfl) fun (credentials : UnitId) => ?_
  have given : ∀ verdict : Option ProbeResult, StartAsks (Work.isOfStart true) monitors
      (Program.abandon udp >>= fun _ => Program.abandon server >>= fun _ =>
        Program.abandon credentials >>= fun _ => pure verdict) :=
    fun verdict => ⟨rfl, fun _ => ⟨rfl, fun _ => ⟨rfl, fun _ => trivial⟩⟩⟩
  refine .bind (asks_waitFor _ _ _) fun relayed => ?_
  cases relayed with
  | outOfTime | failed => exact given _
  | answered relayed =>
      cases relayed with
      | true => exact given _
      | false => exact .bind (asks_judge _ _ _ _) given

theorem asks_attempt (limits : Limits) (config : TunnelConfig) (host : String) (port : UInt16)
    (ending : Option Time) : StartAsks (Work.isOfStart probing) monitors
      (Program.attempt limits config host port probing ending) := by
  refine .bind (.question rfl) fun start => .bind (.question rfl) fun joined => ?_
  cases (joined : Pool.Joined Bool) with
  | timedOut => exact ⟨rfl, fun _ => trivial⟩
  | panicked | refused => trivial
  | value started =>
      cases started with
      | false => trivial
      | true =>
          cases probing with
          | false => trivial
          | true =>
              refine .bind (.question rfl) fun proxy => ?_
              exact .bind (asks_probe _ _ _ _ _) fun _ => trivial

theorem asks_startProxy (limits : Limits) (config : TunnelConfig) :
    StartAsks (Work.isOfStart probing) monitors (Program.startProxy limits config probing) := by
  unfold Program.startProxy
  cases config.endpoint with
  | error e => trivial
  | ok endpoint =>
      exact .bind (.question rfl) fun start => .bind (asks_attempt _ _ _ _ _) fun _ => trivial

theorem asks_connectOver (d : Descriptor) (code : ErrorCode) (udp : Bool) :
    StartAsks may monitors (Program.connectOver d code udp) := by
  refine .bind (.question rfl) fun proxy => .bind (asks_slowly rfl) fun connected => ?_
  cases connected with
  | false => exact asks_failStart _
  | true =>
      refine .bind asks_activeId fun _ => .bind (.question rfl) fun _ => ?_
      refine .bind (.question rfl) fun _ => .bind (.question rfl) fun _ => .bind ?_ fun _ => trivial
      exact .bind (asks_write _) fun _ => .bind (asks_write _) fun _ => asks_write _

theorem asks_connectTunnel (d : Descriptor) (auto : Bool) (code : ErrorCode) :
    StartAsks may monitors (Program.connectTunnel d auto code) := by
  cases auto with
  | true => exact .bind (.question rfl) (asks_connectOver d code)
  | false => exact asks_connectOver d code _

theorem asks_launch (limits : Limits) (d : Descriptor) (auto restart : Bool) :
    StartAsks (Work.isOfStart !auto) true (Program.launch limits d auto restart) := by
  refine .bind (asks_startProxy _ _) fun code => ?_
  split
  · exact asks_failStart _
  split
  · exact .bind (asks_slowly rfl) fun _ => asks_connectTunnel _ _ _
  · refine .bind (asks_slowly rfl) fun up => ?_
    cases up with
    | true => exact .bind asks_startMonitoring fun _ => asks_connectTunnel _ _ _
    | false => exact asks_failStart _

/-- **A start asks only what a start may ask.** -/
theorem asks_startLocked (limits : Limits) (d : Descriptor) (auto : Bool) :
    StartAsks (Work.isOfStart !auto) true (Program.startLocked limits d auto) := by
  have opened : ∀ restart, StartAsks (Work.isOfStart !auto) true
      (Program.setActive (some d) >>= fun _ => Program.publishStatus .connecting >>= fun _ =>
        Program.launch limits d auto restart) :=
    fun restart => .bind (asks_setActive _) fun _ => .bind (.question rfl) fun _ =>
      asks_launch limits d auto restart
  refine .bind (.question rfl) fun session => ?_
  cases session.active with
  | none => exact opened false
  | some old =>
      exact .bind asks_activeId fun _ => .bind (.question rfl) fun _ =>
        .bind (.question rfl) fun _ => opened true

end TunnelKeeper.Service
