import TunnelKeeper.Proofs.Service.Achieving

/-!
# Givens — what a start comes to

The code of a start is the one that the start of its proxy gives, unless the interface does not come
up (`given_startLocked`).  A start that probes gives the code that says whether datagrams are
relayed, where the check of it has a known outcome (`given_probing`); an automatic one gives no
error as soon as its proxy is up (`given_automatic`).  With the code come the acts of an attempt
(`achieves_startLocked`).
-/

namespace TunnelKeeper.Service

variable {α : Type} {A : Assumption} {units : Units}

namespace Given

theorem slowly {k : Call} {post : Units → k.Answer → Prop}
    (h : ∀ a, A.Allows units (.call k) a → post units a) :
    Given A post units (Program.slowly k) :=
  fun a ha _ _ => h a ha

theorem spawn {post : Units → α → Prop} {work : Work} {f : UnitId → Program α}
    (h : ∀ id, units id = none → Given A post (units.add id work) (f id)) :
    Given A post units ((Program.spawn work).bind f) :=
  h

theorem join {post : Units → α → Prop} {id : UnitId} {limit : Option Time}
    {f : Pool.Joined Bool → Program α}
    (h : ∀ joined, A.Allows units (.join id limit) joined → Given A post units (f joined)) :
    Given A post units ((Program.join id limit).bind f) :=
  h

end Given

/-! ### The interface -/

theorem given_failStart {post : Units → ErrorCode → Prop} {code : ErrorCode}
    (h : post units code) : Given A post units (Program.failStart code) := by
  refine .skip asks_activeId fun _ => .skip (.question rfl) fun _ => ?_
  exact .skip asks_tearDown fun _ => h

/-- The interface comes up, unless a collaborator says that it does not. -/
theorem given_connectOver {post : Units → ErrorCode → Prop} {d : Descriptor} {code : ErrorCode}
    {udp : Bool} (h : post units code)
    (hv : ∀ around, A.rely around → around.connects = false → post units .vpnStartFailure) :
    Given A post units (Program.connectOver d code udp) := by
  refine .skip (.question rfl) fun address => ?_
  refine .bind (.slowly fun connected ⟨c, around, hrely, hconnects⟩ => ?_)
  cases connected with
  | false => exact given_failStart (hv around hrely hconnects)
  | true =>
      refine .skip asks_activeId fun _ => .skip (.question rfl) fun _ => ?_
      refine .skip (.question rfl) fun _ => .skip (.question rfl) fun _ => ?_
      refine .skip (.bind (asks_write _) fun _ => ?_) fun _ => h
      exact .bind (asks_write _) fun _ => asks_write _

theorem given_connectTunnel {post : Units → ErrorCode → Prop} {d : Descriptor} {auto : Bool}
    {code : ErrorCode} (h : post units code)
    (hv : ∀ around, A.rely around → around.connects = false → post units .vpnStartFailure) :
    Given A post units (Program.connectTunnel d auto code) := by
  cases auto with
  | true => exact .skip (.question rfl) fun _ => given_connectOver h hv
  | false => exact given_connectOver h hv

/-- **The code of a start** is the one of its proxy, unless the interface does not come up. -/
theorem given_startLocked {post : Units → ErrorCode → Prop} {limits : Limits} {d : Descriptor}
    {auto : Bool} (hp : Given A post units (Program.startProxy limits d.config (!auto)))
    (hv : ∀ around, A.rely around → around.establishes = false ∨ around.connects = false →
      ∀ units, post units .vpnStartFailure) :
    Given A post units (Program.startLocked limits d auto) := by
  have launched : ∀ restart, Given A post units (Program.launch limits d auto restart) := by
    intro restart
    refine .bind (hp.mono fun units code h => ?_)
    have connects : Given A post units (Program.connectTunnel d auto code) :=
      given_connectTunnel h fun around hr hc => hv around hr (.inr hc) units
    split
    · exact given_failStart h
    split
    · exact .skip (asks_slowly rfl) fun _ => connects
    · refine .bind (.slowly fun up ⟨c, around, hrely, hup⟩ => ?_)
      cases up with
      | false => exact given_failStart (hv around hrely (.inl hup) units)
      | true => exact .skip asks_startMonitoring fun _ => connects
  have opened : ∀ restart, Given A post units (Program.setActive (some d) >>= fun _ =>
      Program.publishStatus .connecting >>= fun _ => Program.launch limits d auto restart) :=
    fun restart => .skip (asks_setActive _) fun _ => .skip (.question rfl) fun _ => launched restart
  refine .skip (.question rfl) fun session => ?_
  cases session.active with
  | none => exact opened false
  | some old =>
      exact .skip asks_activeId fun _ => .skip (.question rfl) fun _ =>
        .skip (.question rfl) fun _ => opened true

/-! ### The proxy and its probe -/

/-- A wait for a unit of work that has an outcome is answered with it. -/
theorem given_waitFor {post : Units → Waited → Prop} {id : UnitId} {work : Work} {b : Bool}
    (hid : units id = some work) (hb : A.outcome work = some b) (span ending : Option Time)
    (h : post units (.answered b)) : Given A post units (Program.waitFor id span ending) := by
  refine .skip (.question rfl) fun start => .join fun joined hj => ?_
  obtain rfl : joined = .value b := hj work b hid hb
  exact h

/-- A verdict without datagrams is never that all is well. -/
theorem given_judge (server credentials : UnitId) (span ending : Option Time) :
    Given A (fun _ verdict => verdict ≠ some .usable) units
      (Program.judge server credentials span ending) := by
  refine .skip (asks_waitFor ..) fun reached => ?_
  cases reached with
  | outOfTime | failed => exact nofun
  | answered reachable =>
      refine .skip (asks_waitFor ..) fun valid => ?_
      cases valid with
      | outOfTime | failed => exact nofun
      | answered valid => cases valid <;> cases reachable <;> exact nofun

/-- **The verdict of a probe** says whether datagrams are relayed. -/
theorem given_probe {b : Bool} (hb : ∀ proxy, A.outcome (.checkUdp proxy) = some b)
    (span ending : Option Time) (proxy : SocketAddress) (host : String) (port : UInt16) :
    Given A (fun _ verdict => ∀ v, verdict = some v → v.isUsable = true → (v == .usable) = b) units
      (Program.probe span ending proxy host port) := by
  refine .spawn fun udp hudp => .spawn fun server hserver => ?_
  refine .spawn fun credentials hcredentials => ?_
  -- The check of datagrams is still the unit that it was, after two more were handed in.
  have hcheck : ((units.add udp (.checkUdp proxy)).add server (.checkServer host port)).add
      credentials (.checkCredentials proxy) udp = some (.checkUdp proxy) := by
    have hself : units.add udp (.checkUdp proxy) udp = some (.checkUdp proxy) := if_pos rfl
    have hs : udp ≠ server := by
      rintro rfl
      exact absurd (hself.symm.trans hserver) nofun
    have hself' : (units.add udp (.checkUdp proxy)).add server (.checkServer host port) udp =
        some (.checkUdp proxy) := (if_neg hs).trans hself
    have hc : udp ≠ credentials := by
      rintro rfl
      exact absurd (hself'.symm.trans hcredentials) nofun
    exact (if_neg hc).trans hself'
  have given : ∀ units (verdict : Option ProbeResult),
      (∀ v, verdict = some v → v.isUsable = true → (v == .usable) = b) →
      Given A (fun _ verdict => ∀ v, verdict = some v → v.isUsable = true → (v == .usable) = b) units
        (Program.abandon udp >>= fun _ => Program.abandon server >>= fun _ =>
          Program.abandon credentials >>= fun _ => pure verdict) :=
    fun _ _ h _ _ _ _ _ _ => h
  refine .bind (given_waitFor hcheck (hb proxy) span ending ?_)
  cases b with
  | true =>
      refine given _ _ fun v hv _ => ?_
      cases hv
      rfl
  | false =>
      refine .bind ((given_judge server credentials span ending).mono fun units verdict hv => ?_)
      refine given units verdict fun v hverdict _ => ?_
      cases v with
      | usable => exact absurd hverdict hv
      | _ => rfl

/-- **A start that probes** is continued with datagrams just if their check says so. -/
theorem given_probing {b : Bool} (hb : ∀ proxy, A.outcome (.checkUdp proxy) = some b)
    (limits : Limits) (config : TunnelConfig) :
    Given A (fun _ code => code.isContinuable = true → (code == .noError) = b) units
      (Program.startProxy limits config true) := by
  unfold Program.startProxy
  cases config.endpoint with
  | error e => exact nofun
  | ok endpoint =>
      refine .skip (.question rfl) fun start => .bind ?_
      refine .spawn fun id _ => .join fun joined _ => ?_
      cases joined with
      | timedOut => exact fun _ _ => nofun
      | panicked | refused => exact nofun
      | value started =>
          cases started with
          | false => exact nofun
          | true =>
              refine .skip (.question rfl) fun proxy => .bind ?_
              refine (given_probe hb _ _ _ _ _).mono fun units verdict hverdict => ?_
              cases verdict with
              | none => exact nofun
              | some v =>
                  intro hc
                  have husable : v.isUsable = true := v.isContinuable_errorCode.symm.trans hc
                  rw [← hverdict v rfl husable]
                  cases v <;> rfl

/-- **An automatic start** gives no error where its proxy comes up. -/
theorem given_automatic {config : TunnelConfig} {endpoint : String × UInt16}
    (hc : config.endpoint = .ok endpoint) (hb : A.outcome (.startProxy config) = some true)
    (limits : Limits) :
    Given A (fun units' code => code = .noError ∧ ∃ id, units' = units.add id (.startProxy config))
      units (Program.startProxy limits config false) := by
  unfold Program.startProxy
  rw [hc]
  refine .skip (.question rfl) fun start => .bind ?_
  refine .spawn fun id _ => .join fun joined hj => ?_
  obtain rfl : joined = .value true := hj _ true (if_pos rfl) hb
  exact ⟨rfl, id, rfl⟩

/-! ### The section -/

/-- **A start achieves what an attempt makes of the custody**, with a code that is given. -/
theorem achieves_startLocked {post : Units → α → Custody → Prop} {given : Units → ErrorCode → Prop}
    {limits : Limits} {d : Descriptor} {auto : Bool} {f : ErrorCode → Program α} {c : Custody}
    (hg : Given A given units (Program.startLocked limits d auto))
    (h : ∀ acts code units, Attempt .loose c d auto acts code → given units code →
      Achieves A post units (some none) (c.afterAll acts) (f code)) :
    Achieves A post units (some none) c ((Program.startLocked limits d auto).bind f) := by
  have secures : Terms.loose.Secures (fun code c' => ∃ acts, Attempt .loose c d auto acts code ∧
      c' = c.afterAll acts) none (Program.startLocked limits d auto) c :=
    .startLocked ⟨{}, trivial⟩ trivial fun acts code ha =>
      (Terms.along_of_always fun _ => trivial).2 ⟨acts, ha, rfl⟩
  refine .held secures hg fun code c' units ⟨acts, ha, hc⟩ hcode => ?_
  rw [hc]
  exact h acts code units ha hcode

end TunnelKeeper.Service
