import TunnelKeeper.Proofs.Service.Endings

/-!
# Deadlines — a start with a limit does what one without a limit does, until its end

* `Machine.HasDeadline`: what a limit makes of the start of a proxy.
* `limited_start_refines`: it makes that of every start, and leaves nothing behind.
-/

namespace TunnelKeeper.Service

open Pool (Joined)

variable {α β : Type} {s s' : Machine} {t : TaskId} {l : Label} {labels : List Label}
  {ending clock : Time} {out : α}

/-! ### Starts with a limit -/

theorem GivesUp.eq_out {a : α} (h : GivesUp out (.done a)) : a = out := by
  cases h
  rfl

/-- Neither is done before the other. -/
theorem CutOff.done_iff {p p' : Program α} (h : CutOff ending out clock p p') (a : α) :
    p = .done a ↔ p' = .done a := by
  cases h with
  | done => exact .rfl
  | now | instant | join => exact iff_of_false nofun nofun

/-- What follows once the proxy has started or has not. -/
def Program.proceed (d : Descriptor) (auto restart : Bool) (code : ErrorCode) :
    Program ErrorCode := do
  if !code.isContinuable then failStart code
  else if restart then
    slowly .disconnect
    connectTunnel d auto code
  else if ← establish then
    startMonitoring
    connectTunnel d auto code
  else failStart .vpnStartFailure

theorem Program.launch_eq (limits : Limits) (d : Descriptor) (auto restart : Bool) :
    launch limits d auto restart =
      (startProxy limits d.config (!auto)).bind (proceed d auto restart) := rfl

/-- A start that fails stops the proxy. -/
theorem calls_failStart (code : ErrorCode) : Calls .stopProxy (Program.failStart code) :=
  .inr fun _ => .inr fun _ => .inl rfl

/-- A task has come to the point where it starts the proxy. -/
def Passage.proxyStart (s : Machine) (limit checks : Option Time) (d : Descriptor) (auto : Bool) :
    Passage ErrorCode :=
  ⟨s, Program.startProxy ⟨limit, checks⟩ d.config (!auto)⟩

open Passage (proxyStart)

/-- **What a limit makes of a start**, whose proxy and checks may take any time and come to any end,
or to none, while anything else happens.  `s` is the machine in which the task `t` comes to start
the proxy. -/
structure Machine.HasDeadline (s : Machine) (t : TaskId) (limit : Time) (checks : Option Time)
    (d : Descriptor) (auto restart : Bool) : Prop where
  /-- The task goes on with `proceed`, and what it does until then are steps of the machine. -/
  genuine : ∀ (limit : Option Time) labels y k,
    (proxyStart s limit checks d auto).run? t labels = some y →
      (s.goOn t ((Program.launch ⟨limit, checks⟩ d auto restart).bind k)).run? labels =
        some (y.whole t fun code => (Program.proceed d auto restart code).bind k)
  /-- A start that is done in time without a limit is done with it: by the same steps, in the same
  machine, and with the same code. -/
  in_time : ∀ labels s' code,
    (proxyStart s none checks d auto).run? t labels = some ⟨s', .done code⟩ →
      s'.world.clock ≤ s.world.clock + limit →
        (proxyStart s (some limit) checks d auto).run? t labels = some ⟨s', .done code⟩
  /-- A start that is not done yet when it is still in time is not done with the limit either, -/
  abreast : ∀ labels y, (proxyStart s none checks d auto).run? t labels = some y →
    y.machine.world.clock ≤ s.world.clock + limit → (∀ code, y.program ≠ .done code) →
      ∃ p, (proxyStart s (some limit) checks d auto).run? t labels = some ⟨y.machine, p⟩ ∧
        ∀ code, p ≠ .done code
  /-- and one that goes on when it is no longer in time fails with the limit when that is over. -/
  overrun : ∀ labels y, (proxyStart s none checks d auto).run? t labels = some y →
    s.world.clock + limit < y.machine.world.clock → ∃ before span after span' n s',
      labels = before ++ .elapse span :: after ∧ span' ≤ span ∧
        (proxyStart s (some limit) checks d auto).run? t
          (before ++ .elapse span' :: List.replicate n (.turn t {})) =
            some ⟨s', .done .proxyStartFailure⟩ ∧ s'.world.clock = s.world.clock + limit
  /-- A start with the limit ends as without it, or it fails when the limit is over, and would not
  have been done by then.  (If it would be done at that very time, either may come first.) -/
  cut : ∀ labels s' code,
    (proxyStart s (some limit) checks d auto).run? t labels = some ⟨s', .done code⟩ →
      (proxyStart s none checks d auto).run? t labels = some ⟨s', .done code⟩ ∨
      code = .proxyStartFailure ∧ s'.world.clock = s.world.clock + limit ∧
        ∃ before after z, labels = before ++ after ∧
          (proxyStart s none checks d auto).run? t before = some z ∧
            z.machine.world.clock = s.world.clock + limit ∧ ∀ code, z.program ≠ .done code
  /-- It never goes on for longer, and can always come to its end. -/
  ends : ∀ labels y, (proxyStart s (some limit) checks d auto).run? t labels = some y →
    y.machine.world.clock ≤ s.world.clock + limit ∧ y.CanEnd t
  /-- Once it has, no unit of work that it has handed in waits or is at work, and whatever happens
  later, none of them begins or ends. -/
  quits : ∀ labels s' code,
    (proxyStart s (some limit) checks d auto).run? t labels = some ⟨s', .done code⟩ →
      ∀ program, (s'.goOn t program).Quits t s.pool.units.length
  /-- So when it has failed, the proxy is stopped for good. -/
  stops : ∀ labels s',
    (proxyStart s (some limit) checks d auto).run? t labels =
      some ⟨s', .done .proxyStartFailure⟩ →
        ∀ later s'' code, Passage.run? t ⟨s', Program.proceed d auto restart .proxyStartFailure⟩
          later = some ⟨s'', .done code⟩ →
            ∃ entries, s''.world.log = s'.world.log ++ entries ∧
              .called t .stopProxy () ∈ entries ∧ ∀ e ∈ entries, ∀ id work,
                s.pool.units.length ≤ id → unitsOf s'.pool t id = some work → e.unit? ≠ some id

/-- A start leaves no unit of work behind that it has handed in. -/
theorem proxyStart_quits {limit checks : Option Time} {d : Descriptor} {auto : Bool}
    {code : ErrorCode}
    (h : (proxyStart s limit checks d auto).run? t labels = some ⟨s', .done code⟩)
    (program : Program Reply) : (s'.goOn t program).Quits t s.pool.units.length := by
  have hleft : ∀ id, s.pool.units.length ≤ id → ¬s'.Owes t id :=
    Passage.not_owes (careful_startProxy _ _ _).tidy h
  exact .of_not_owes hleft

/-- **A limit makes of a start what it promises**: up to the limit the start is the one without it,
then it fails, and it leaves nothing behind. -/
theorem limited_start_refines {task : Task} (htask : s.tasks[t]? = some task)
    (ha : task.alive = true) (limit : Time) (checks : Option Time) (d : Descriptor)
    (auto restart : Bool) : s.HasDeadline t limit checks d auto restart := by
  have cutOff := CutOff.startProxy s.world.clock checks limit d.config (!auto)
  have hc : s.world.clock ≤ s.world.clock + limit := Nat.le_add_right ..
  constructor
  case genuine =>
    intro limit labels y k h
    obtain ⟨hrun, -⟩ := Passage.run?_whole (x := proxyStart s limit checks d auto) htask ha
      (fun code => (Program.proceed d auto restart code).bind k) h
    rw [← hrun, Program.launch_eq, Dialogue.bind_assoc]
    rfl
  case in_time =>
    intro labels s' code h hle
    obtain ⟨q, hrun, hq⟩ := cutOff.run_back h hle
    obtain rfl := (hq.done_iff code).2 rfl
    exact hrun
  case abreast =>
    intro labels y h hle hy
    obtain ⟨q, hrun, hq⟩ := cutOff.run_back h hle
    exact ⟨q, hrun, fun code he => hy code ((hq.done_iff code).1 he)⟩
  case overrun => exact fun labels y h => cutOff.overrun hc h
  case cut =>
    intro labels s' code h
    obtain ⟨q, hrun, -, hq⟩ | ⟨hclock, hout, hcut⟩ := cutOff.run hc h
    · obtain rfl := (hq.done_iff code).1 rfl
      exact .inl hrun
    · exact .inr ⟨hout.eq_out, hclock, hcut⟩
  case ends =>
    intro labels y h
    obtain ⟨q, -, hle, hq⟩ | ⟨hclock, hout, -⟩ := cutOff.run hc h
    · exact ⟨hle, hq.canEnd rfl hle⟩
    · exact ⟨Nat.le_of_eq hclock, hout.canEnd _⟩
  case quits => exact fun labels s' code h => proxyStart_quits h
  case stops =>
    intro labels s' h later s'' code hlater
    obtain ⟨entries, b, hlog, hb⟩ := (calls_failStart .proxyStartFailure).logged hlater
    refine ⟨entries, hlog, hb, ?_⟩
    have htask' : s'.tasks[t]? = some task := (Passage.run?_whole htask ha afterStart h).2
    obtain ⟨hrun, -⟩ := Passage.run?_whole htask' ha afterStart hlater
    obtain ⟨entries', hlog', hsilent⟩ := (proxyStart_quits h _).silent later _ hrun
    obtain rfl := List.append_cancel_left (hlog.symm.trans hlog')
    exact hsilent

/-- A caller has asked for a tunnel. -/
def attemptingService : Machine :=
  ((Machine.fresh {} 4 {}).run? [.call (.start "a" completeTunnel.config)]).get (by rfl)

/-- Its proxy begins to start, and hangs. -/
def hanging : List Label :=
  List.replicate 2 (.turn 0 {}) ++ .ask 0 :: .begin 0 :: .elapse 40 :: List.replicate 2 (.turn 0 {})

/-- The start fails after its limit, and the proxy never comes to start. -/
theorem hanging_start_quits : ∃ s',
    (proxyStart attemptingService (some 40) none completeTunnel false).run? 0 hanging =
      some ⟨s', .done .proxyStartFailure⟩ ∧ s'.world.clock = 40 ∧
        ∀ program, (s'.goOn 0 program).Quits 0 0 := by
  have deadline := limited_start_refines (s := attemptingService) (t := 0) rfl rfl 40 none
    completeTunnel false false
  exact ⟨_, rfl, rfl, deadline.quits hanging _ _ rfl⟩

end TunnelKeeper.Service
