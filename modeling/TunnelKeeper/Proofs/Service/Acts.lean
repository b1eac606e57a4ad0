import TunnelKeeper.Proofs.Service.Custody

/-!
# Acts — what can happen under the lock

A task that has the lock makes one of a few lists of acts before it gives the lock back.  Each list
is written down here once, as data.  Whatever is claimed of the service from one release of the lock
to the next is then a fact about these lists.

* `tearDownActs`, `failActs`, `openingActs`, `announceActs`: the parts a list is made of.
* `ProxyStart`: a start of the proxy with its probe, and the code it gives.
* `Attempt`: a whole start of a tunnel.  It ends in one of four ways: without a proxy, without an
  interface, without a connection, or connected.
* `Underway`: how far the start of a proxy has come meanwhile.
-/

namespace TunnelKeeper.Service

/-! ### The parts of a section -/

/-- Everything is taken down. -/
def tearDownActs (monitored unregistered written : Bool) : List Act :=
  [.deed (.called .stopProxy ()), .deed (.called .disconnect ()), .deed (.called .tearDown ()),
    .deed (.called (.present .clear) ()), .publishActive none, .setActive none] ++
  (if monitored then [.setMonitored false, .deed (.called .unregister unregistered)] else []) ++
  [.publishStatus .disconnected, .deed (.called (.write (.status .disconnected)) written)]

/-- A start has failed, and everything is taken down. -/
def failActs (d : Descriptor) (code : ErrorCode) (monitored unregistered written : Bool) :
    List Act :=
  .deed (.called (.emit (.started (some d.id) code)) ()) ::
    tearDownActs monitored unregistered written

/-- The tunnel that is replaced disconnects, before the new one is active. -/
def openingActs (old : Option Descriptor) (d : Descriptor) : List Act :=
  (match old with
    | some old => [.deed (.called (.emit (.changed (some old.id) .disconnected)) ()),
        .deed (.called (.present .clear) ())]
    | none => []) ++
  [.publishActive (some d), .setActive (some d), .publishStatus .connecting]

/-- A unit of work starts the proxy. -/
def proxyActs (config : TunnelConfig) (result : Option Bool) : List Act :=
  [.deed (.began config), .deed (.ended config result)]

/-- A tunnel is connected, announced and remembered. -/
def announceActs (d : Descriptor) (address : SocketAddress)
    (udp saved savedUdp savedStatus : Bool) : List Act :=
  [.deed (.called (.connect address udp) true),
    .deed (.called (.emit (.started (some d.id) .noError)) ()),
    .deed (.called (.present (.display d.config.serverName .connected)) ()),
    .publishStatus .connected, .deed (.called (.write (.tunnel d)) saved),
    .deed (.called (.write (.udpSupported udp)) savedUdp),
    .deed (.called (.write (.status .connected)) savedStatus)]

/-- A start of the proxy for a configuration: its acts and its code.  One that fails may have come
to any point. -/
inductive ProxyStart (config : TunnelConfig) (probing : Bool) : List Act → ErrorCode → Prop where
  | illegal {e : ConfigError} (h : config.endpoint = .error e) :
      ProxyStart config probing [] .illegalServerConfiguration
  | unbegun {endpoint : String × UInt16} (h : config.endpoint = .ok endpoint) :
      ProxyStart config probing [] .proxyStartFailure
  | unended {endpoint : String × UInt16} (h : config.endpoint = .ok endpoint) :
      ProxyStart config probing [.deed (.began config)] .proxyStartFailure
  | failed {endpoint : String × UInt16} (h : config.endpoint = .ok endpoint)
      (result : Option Bool) :
      ProxyStart config probing (proxyActs config result) .proxyStartFailure
  | started {endpoint : String × UInt16} (h : config.endpoint = .ok endpoint)
      (hp : probing = false) :
      ProxyStart config probing (proxyActs config (some true)) .noError
  | probed {endpoint : String × UInt16} (h : config.endpoint = .ok endpoint)
      (hp : probing = true) (verdict : ProbeResult) :
      ProxyStart config probing (proxyActs config (some true)) verdict.errorCode

/-- The interface becomes ready to connect: its acts, and whether the network is followed then.  A
restart reuses the interface. -/
inductive Ready (session : Session) : List Act → Bool → Prop where
  | reused {old : Descriptor} (h : session.active = some old) :
      Ready session [.deed (.called .disconnect ())] session.monitored
  | followed (h : session.active = none) (hm : session.monitored = true) :
      Ready session [.deed (.called .establish true)] true
  | fresh (h : session.active = none) (hm : session.monitored = false) (registered : Bool) :
      Ready session ([.deed (.called .establish true), .deed (.called .register registered)] ++
        if registered then [.setMonitored true] else []) registered

/-- **A start of a tunnel**, from the custody `c`: its acts and its code. -/
inductive Attempt (T : Terms) (c : Custody) (d : Descriptor) (auto : Bool) :
    List Act → ErrorCode → Prop where
  | noProxy {acts : List Act} {code : ErrorCode} (hp : ProxyStart d.config (!auto) acts code)
      (hc : code.isContinuable = false) (unregistered written : Bool)
      (hw : T.Writes (.status .disconnected) written) :
      Attempt T c d auto (openingActs c.session.active d ++ (acts ++
        failActs d code c.session.monitored unregistered written)) code
  | noInterface {acts : List Act} {code : ErrorCode} (hp : ProxyStart d.config (!auto) acts code)
      (hc : code.isContinuable = true) (h : c.session.active = none)
      (unregistered written : Bool) (hw : T.Writes (.status .disconnected) written) :
      Attempt T c d auto (openingActs c.session.active d ++ (acts ++
        .deed (.called .establish false) ::
        failActs d .vpnStartFailure c.session.monitored unregistered written)) .vpnStartFailure
  | noConnection {acts ready : List Act} {code : ErrorCode} {monitored : Bool}
      (hp : ProxyStart d.config (!auto) acts code) (hc : code.isContinuable = true)
      (hr : Ready c.session ready monitored) (address : SocketAddress)
      (udp unregistered written : Bool) (hw : T.Writes (.status .disconnected) written) :
      Attempt T c d auto (openingActs c.session.active d ++ (acts ++ (ready ++
        .deed (.called (.connect address udp) false) ::
        failActs d .vpnStartFailure monitored unregistered written))) .vpnStartFailure
  | connected {acts ready : List Act} {code : ErrorCode} {monitored : Bool}
      (hp : ProxyStart d.config (!auto) acts code) (hc : code.isContinuable = true)
      (hr : Ready c.session ready monitored) (address : SocketAddress)
      {saved savedUdp savedStatus : Bool} (hd : T.Writes (.tunnel d) saved)
      (hu : T.Writes
        (.udpSupported (if auto then c.store.udpSupported else code == .noError)) savedUdp)
      (hs : T.Writes (.status .connected) savedStatus) :
      Attempt T c d auto (openingActs c.session.active d ++ (acts ++ (ready ++
        announceActs d address (if auto then c.store.udpSupported else code == .noError)
          saved savedUdp savedStatus))) code

/-- Whether an act only makes a start ready: of the proxy, the interface or the network. -/
def Act.isPreparation : Act → Bool
  | .deed (.called k _) => match k with
    | .disconnect | .establish | .register | .connect _ _ => true
    | _ => false
  | .deed _ | .setMonitored _ => true
  | _ => false

/-- How a start ends, whatever it came through before. -/
inductive Outcome (T : Terms) (c : Custody) (d : Descriptor) : List Act → ErrorCode → Prop where
  | failed {acts : List Act} {code : ErrorCode} (hc : code.isContinuable = false)
      (hp : acts.all Act.isPreparation = true) (monitored unregistered written : Bool)
      (hw : T.Writes (.status .disconnected) written) :
      Outcome T c d (openingActs c.session.active d ++ (acts ++
        failActs d code monitored unregistered written)) code
  | connected {ready : List Act} {code : ErrorCode} {monitored : Bool}
      (hc : code.isContinuable = true) (hr : Ready c.session ready monitored)
      (address : SocketAddress) (udp : Bool) {saved savedUdp savedStatus : Bool}
      (hd : T.Writes (.tunnel d) saved) (hu : T.Writes (.udpSupported udp) savedUdp)
      (hs : T.Writes (.status .connected) savedStatus) :
      Outcome T c d (openingActs c.session.active d ++ ((proxyActs d.config (some true) ++ ready) ++
        announceActs d address udp saved savedUdp savedStatus)) code

/-! ### How far the proxy has come -/

/-- How far a start of the proxy has come that was handed in in the custody `c`. -/
inductive Underway (config : TunnelConfig) (c : Custody) : Stage Bool → Custody → Prop where
  | waiting : Underway config c .waiting c
  | refused : Underway config c .refused c
  | dropped : Underway config c .dropped c
  | running : Underway config c .running (c.after (.deed (.began config)))
  | cut : Underway config c .dropped (c.after (.deed (.began config)))
  | finished (result : Bool) :
      Underway config c (.finished result) (c.afterAll (proxyActs config (some result)))
  | panicked : Underway config c .panicked (c.afterAll (proxyActs config none))

theorem Underway.drift {config : TunnelConfig} {c c₁ c₂ : Custody} {p : Pending}
    {o : Option Pending} (h : Underway config c p.stage c₁) (hp : p.config = config)
    (hd : Drift (some p) c₁ o c₂) :
    ∃ stage, o = some { p with stage } ∧ Underway config c stage c₂ := by
  subst hp
  generalize hs : p.stage = stage at h
  cases hd with
  | begins hw =>
      rw [hs] at hw; subst hw; cases h
      exact ⟨_, rfl, .running⟩
  | ends result hr =>
      rw [hs] at hr; subst hr; cases h
      exact ⟨_, rfl, .finished result⟩
  | panics hr =>
      rw [hs] at hr; subst hr; cases h
      exact ⟨_, rfl, .panicked⟩
  | refused hw =>
      rw [hs] at hw; subst hw; cases h
      exact ⟨_, rfl, .refused⟩
  | dropped hw =>
      rw [hs] at hw
      rcases hw with rfl | rfl
      · cases h; exact ⟨_, rfl, .dropped⟩
      · cases h; exact ⟨_, rfl, .cut⟩

theorem Underway.drifts {config : TunnelConfig} {c c₁ c₂ : Custody} {id : UnitId}
    {stage : Stage Bool} {o : Option Pending} (h : Underway config c stage c₁)
    (hd : Drifts (some ⟨id, config, stage⟩) c₁ o c₂) :
    ∃ stage, o = some ⟨id, config, stage⟩ ∧ Underway config c stage c₂ := by
  generalize ho : some (⟨id, config, stage⟩ : Pending) = o₁ at hd
  induction hd generalizing stage with
  | refl => exact ⟨stage, ho.symm, h⟩
  | more hd _ ih =>
      subst ho
      obtain ⟨stage', rfl, h'⟩ := Underway.drift h rfl hd
      exact ih h' rfl

end TunnelKeeper.Service
