import TunnelKeeper.Proofs.Service.Outcomes

/-!
# Sections — programs that run under the lock

Each program that runs under the lock makes one of the lists of acts that were written down, and no
other (`Terms.Secures`), from its smallest parts up to a whole start.

* `Secures.tearDown`, `Secures.failStart`: what takes a tunnel down.
* `Secures.startProxy`: a start of the proxy, whatever its unit of work and the probe do meanwhile.
* `Secures.startLocked`: a start makes the acts of an `Attempt` and gives its code.
-/

namespace TunnelKeeper.Service

/-- What follows once it is known whether UDP is relayed. -/
def Program.connectOver (d : Descriptor) (code : ErrorCode) (udp : Bool) : Program ErrorCode := do
  let proxy ← proxyAddress
  if ← connect proxy udp then
    emit (.started (← activeId) .noError)
    display d .connected
    publishStatus .connected
    storeActive d udp
    return code
  else failStart .vpnStartFailure

/-- What follows once the new tunnel is the active one. -/
def Program.launch (limits : Limits) (d : Descriptor) (auto restart : Bool) :
    Program ErrorCode := do
  let code ← startProxy limits d.config (!auto)
  if !code.isContinuable then failStart code
  else if restart then
    slowly .disconnect
    connectTunnel d auto code
  else if ← establish then
    startMonitoring
    connectTunnel d auto code
  else failStart .vpnStartFailure

namespace Terms.Secures

variable {T : Terms} {α : Type}

/-! ### Taking down -/

theorem stopMonitoring {post : Unit → Custody → Prop} {c : Custody}
    (h : ∀ unregistered, T.Along (if c.session.monitored then
      [.setMonitored false, .deed (.called .unregister unregistered)] else []) (post ()) c) :
    T.Secures post none Program.stopMonitoring c := by
  show T.Secures post none (if c.session.monitored then _ else _) c
  split
  case isTrue hm =>
    simp only [hm, if_true] at h
    exact ⟨(h true).1, fun a _ => ⟨(h a).2.1, rfl, (h a).2.2⟩⟩
  case isFalse hm =>
    simp only [hm] at h
    exact ⟨rfl, h true⟩

/-- **Everything is taken down.** -/
theorem tearDown {post : Unit → Custody → Prop} {c : Custody}
    (h : ∀ unregistered written, T.Writes (.status .disconnected) written →
      T.Along (tearDownActs c.session.monitored unregistered written) (post ()) c) :
    T.Secures post none Program.tearDown c := by
  have hs := fun u w hw => along_append.1 (along_append.1 (h u w hw))
  refine .bind (.slowly fun _ ha => ?_)
  obtain ⟨written, hw⟩ := ha.writes (.status .disconnected)
  obtain ⟨h₁, h₂, h₃, h₄, h₅, h₆, -⟩ := hs true written hw
  refine ⟨h₁, .bind (.slowly fun _ _ => ⟨h₂, .bind (.slowly fun _ _ => ⟨h₃, ?_⟩)⟩)⟩
  refine .bind (.call fun _ _ => ⟨h₄, .bind (.setActive ⟨h₅, h₆, ?_⟩)⟩)
  refine .bind (.stopMonitoring fun unregistered => ?_)
  refine Along.mono (fun c hc => ?_)
    (Along.forall ⟨written, hw⟩ fun w hw => (hs unregistered w hw).2.2.2.2.2.2)
  exact .bind (.publishStatus ⟨(hc written hw).1, .write fun w hw => (hc w hw).2⟩)

/-- A start that has failed says so and takes everything down. -/
theorem failStart {d : Descriptor} {code : ErrorCode} {monitored : Bool}
    {post : ErrorCode → Custody → Prop} {c : Custody} (hd : c.session.active = some d)
    (hm : c.session.monitored = monitored)
    (h : ∀ unregistered written, T.Writes (.status .disconnected) written →
      T.Along (failActs d code monitored unregistered written) (post code) c) :
    T.Secures post none (Program.failStart code) c := by
  subst hm
  refine .bind (.bind (.session ⟨rfl, ?_⟩))
  rw [hd]
  refine .bind (.call fun _ ha => ?_)
  obtain ⟨written, hw⟩ := ha.writes (.status .disconnected)
  refine ⟨(h true written hw).1, .bind (.tearDown fun u w hw => ?_)⟩
  exact (h u w hw).2.mono fun _ hc => ⟨rfl, hc⟩

/-! ### The proxy and its probe -/

theorem spawn {work : Work} (hw : ∀ config, work ≠ .startProxy config)
    {post : UnitId → Custody → Prop} {c : Custody} (h : ∀ id, post id c) :
    T.Secures post none (Program.spawn work) c := by
  cases work with
  | startProxy config => exact absurd rfl (hw config)
  | checkUdp | checkServer | checkCredentials | errand => exact fun id => ⟨rfl, h id⟩

theorem proxyAddress {post : SocketAddress → Custody → Prop} {c : Custody} (h : ∀ a, post a c) :
    T.Secures post none Program.proxyAddress c :=
  .call fun a _ => h a

/-- Waiting for a unit of work is no act, where nothing is pending. -/
theorem waitFor {id : UnitId} {span attempt : Option Time} {post : Waited → Custody → Prop}
    {c : Custody} (h : ∀ waited, post waited c) :
    T.Secures post none (Program.waitFor id span attempt) c := by
  intro start joined o ho
  obtain rfl : o = none := ho
  cases joined with
  | value b => exact ⟨rfl, h _⟩
  | panicked | refused | timedOut => exact ⟨rfl, h _⟩

theorem judge {server credentials : UnitId} {span attempt : Option Time}
    {post : Option ProbeResult → Custody → Prop} {c : Custody} (h : ∀ verdict, post verdict c) :
    T.Secures post none (Program.judge server credentials span attempt) c := by
  refine .bind (.waitFor fun reached => ?_)
  cases reached with
  | outOfTime | failed => exact ⟨rfl, h _⟩
  | answered reachable =>
      refine .bind (.waitFor fun valid => ?_)
      cases valid with
      | outOfTime | failed => exact ⟨rfl, h _⟩
      | answered valid => cases valid <;> exact ⟨rfl, h _⟩

/-- A probe makes no act, and may end with any verdict. -/
theorem probe {span attempt : Option Time} {proxy : SocketAddress} {host : String} {port : UInt16}
    {post : Option ProbeResult → Custody → Prop} {c : Custody} (h : ∀ verdict, post verdict c) :
    T.Secures post none (Program.probe span attempt proxy host port) c := by
  refine .bind (.spawn (by simp) fun udp => .bind (.spawn (by simp) fun server => ?_))
  refine .bind (.spawn (by simp) fun credentials => ?_)
  have given : ∀ verdict, T.Secures post none (Program.abandon udp >>= fun _ =>
      Program.abandon server >>= fun _ => Program.abandon credentials >>= fun _ =>
        pure verdict) c := fun verdict => ⟨rfl, h verdict⟩
  refine .bind (.waitFor fun relayed => ?_)
  cases relayed with
  | outOfTime | failed => exact given _
  | answered relayed =>
      cases relayed with
      | true => exact given _
      | false => exact .bind (.judge given)

/-- **A start of the proxy**, with its probe.  The unit of work may be at any point when the attempt
comes to its end. -/
theorem attempt {limits : Limits} {config : TunnelConfig} {host : String} {port : UInt16}
    {probing : Bool} {ending : Option Time} {post : ErrorCode → Custody → Prop} {c : Custody}
    (hc : T.always c) (he : config.endpoint = .ok (host, port))
    (h : ∀ acts code, ProxyStart config probing acts code → T.Along acts (post code) c) :
    T.Secures (fun code => post (code.getD .proxyStartFailure)) none
      (Program.attempt limits config host port probing ending) c := by
  -- Wherever the unit of work is, the attempt may fail there.
  have any : ∀ {stage c₁}, Underway config c stage c₁ →
      T.always c₁ ∧ post .proxyStartFailure c₁ := by
    intro stage c₁ hu
    cases hu with
    | waiting | refused | dropped => exact ⟨hc, h _ _ (.unbegun he)⟩
    | running | cut => exact h _ _ (.unended he)
    | finished result => exact (h _ _ (.failed he (some result))).2
    | panicked => exact (h _ _ (.failed he none)).2
  refine ⟨rfl, fun (id : UnitId) stage hs => ⟨beq_self_eq_true id, fun o₁ c₁ hd => ?_⟩⟩
  have h₀ : Underway config c stage c := by
    rcases hs with rfl | rfl
    · exact .waiting
    · exact .refused
  obtain ⟨stage₁, rfl, h₁⟩ := h₀.drifts hd
  refine ⟨(any h₁).1, fun joined o hj => ?_⟩
  rcases Pending.joins_self.1 hj with ⟨hv, rfl⟩ | ⟨rfl, rfl⟩
  -- The unit has come to its end,
  · cases h₁ with
    | waiting | dropped | running | cut => cases hv
    | refused | panicked =>
        cases hv
        exact ⟨rfl, (any (by constructor)).2⟩
    | finished result =>
        cases hv
        cases result with
        | false => exact ⟨rfl, (any (.finished false)).2⟩
        | true =>
            have hn := (any (.finished true)).2
            cases probing with
            | false => exact ⟨rfl, (along_iff.1 (h _ _ (.started he rfl))).2⟩
            | true =>
                refine .bind ⟨rfl, .bind (.proxyAddress fun proxy => ?_)⟩
                refine .bind (.probe fun verdict => ?_)
                cases verdict with
                | none => exact ⟨rfl, hn⟩
                | some verdict => exact ⟨rfl, (along_iff.1 (h _ _ (.probed he rfl verdict))).2⟩
  -- or the time is up, and it is given up.
  · refine ⟨beq_self_eq_true id, fun o₂ c₂ hd => ?_⟩
    obtain ⟨stage₂, rfl, h₂⟩ := h₁.drifts hd
    exact ⟨(any h₂).1, Pending.abandon_self _, (any h₂).2⟩

theorem startProxy {limits : Limits} {config : TunnelConfig} {probing : Bool}
    {post : ErrorCode → Custody → Prop} {c : Custody} (hc : T.always c)
    (h : ∀ acts code, ProxyStart config probing acts code → T.Along acts (post code) c) :
    T.Secures post none (Program.startProxy limits config probing) c := by
  unfold Program.startProxy
  cases he : config.endpoint with
  | error e => exact ⟨rfl, h [] _ (.illegal he)⟩
  | ok endpoint =>
      exact .bind fun start => ⟨rfl, .bind ((attempt hc he h).mono fun code c hc => ⟨rfl, hc⟩)⟩

/-! ### The interface -/

theorem startMonitoring {post : Unit → Custody → Prop} {c : Custody}
    (hm : c.session.monitored = true → post () c)
    (h : c.session.monitored = false → ∀ registered : Bool, T.Along
      (.deed (.called .register registered) ::
        if registered then [.setMonitored true] else []) (post ()) c) :
    T.Secures post none Program.startMonitoring c := by
  show T.Secures post none (if !c.session.monitored then _ else _) c
  split
  case isTrue hn =>
    have hn : c.session.monitored = false := by simpa using hn
    intro registered _
    refine ⟨(h hn registered).1, ?_⟩
    cases registered with
    | true => exact ⟨(h hn true).2.1, rfl, (h hn true).2.2⟩
    | false => exact ⟨rfl, (h hn false).2⟩
  case isFalse hy => exact ⟨rfl, hm (by simpa using hy)⟩

/-- The interface connects and the tunnel is announced, or everything is taken down. -/
theorem connectOver {d : Descriptor} {monitored udp : Bool} {code : ErrorCode}
    {post : ErrorCode → Custody → Prop} {c : Custody} (hd : c.session.active = some d)
    (hm : c.session.monitored = monitored)
    (failed : ∀ address unregistered written, T.Writes (.status .disconnected) written →
      T.Along (.deed (.called (.connect address udp) false) ::
        failActs d .vpnStartFailure monitored unregistered written)
        (post .vpnStartFailure) c)
    (connected : ∀ address saved savedUdp savedStatus, T.Writes (.tunnel d) saved →
      T.Writes (.udpSupported udp) savedUdp → T.Writes (.status .connected) savedStatus →
      T.Along (announceActs d address udp saved savedUdp savedStatus) (post code) c) :
    T.Secures post none (Program.connectOver d code udp) c := by
  refine .bind (.proxyAddress fun address => .bind (.slowly fun worked ha => ?_))
  obtain ⟨written, hw⟩ := ha.writes (.status .disconnected)
  obtain ⟨saved, hs⟩ := ha.writes (.tunnel d)
  obtain ⟨savedUdp, hsu⟩ := ha.writes (.udpSupported udp)
  obtain ⟨savedStatus, hss⟩ := ha.writes (.status .connected)
  cases worked with
  | false =>
      refine ⟨(failed address true written hw).1, .failStart hd hm fun u w hw => ?_⟩
      exact (failed address u w hw).2
  | true =>
      obtain ⟨h₁, h₂, h₃, h₄, h₅, h₆, -⟩ :=
        connected address saved savedUdp savedStatus hs hsu hss
      refine ⟨h₁, .bind (.bind (.session ⟨rfl, .bind (.call fun _ _ => ?_)⟩))⟩
      rw [show (c.after (.deed (.called (.connect address udp) true))).session.active = some d
        from hd]
      refine ⟨h₂, .bind (.call fun _ _ => ⟨h₃, .bind (.publishStatus ⟨h₄, ?_⟩)⟩)⟩
      refine .bind (.bind (.write fun saved hs => ?_))
      have k := fun u w hu hw => (connected address saved u w hs hu hw).2.2.2.2
      refine ⟨(k savedUdp savedStatus hsu hss).1, .bind (.write fun savedUdp hsu => ?_)⟩
      refine ⟨(k savedUdp savedStatus hsu hss).2.1, .write fun savedStatus hss => ?_⟩
      exact ⟨(k savedUdp savedStatus hsu hss).2.2.1, rfl, (k savedUdp savedStatus hsu hss).2.2.2⟩

/-- An automatic start takes the UDP mode from the store. -/
theorem connectTunnel {d : Descriptor} {auto monitored : Bool} {code : ErrorCode}
    {post : ErrorCode → Custody → Prop} {c : Custody} (hd : c.session.active = some d)
    (hm : c.session.monitored = monitored)
    (udp : Bool) (hu : udp = if auto then c.store.udpSupported else code == .noError)
    (failed : ∀ address unregistered written, T.Writes (.status .disconnected) written →
      T.Along (.deed (.called (.connect address udp) false) ::
        failActs d .vpnStartFailure monitored unregistered written)
        (post .vpnStartFailure) c)
    (connected : ∀ address saved savedUdp savedStatus, T.Writes (.tunnel d) saved →
      T.Writes (.udpSupported udp) savedUdp → T.Writes (.status .connected) savedStatus →
      T.Along (announceActs d address udp saved savedUdp savedStatus) (post code) c) :
    T.Secures post none (Program.connectTunnel d auto code) c := by
  have go := connectOver hd hm failed connected
  rw [hu] at go
  cases auto with
  | true =>
      refine .bind (.call fun a ha => ?_)
      obtain ⟨around, -, rfl⟩ := ha
      exact go
  | false => exact .bind ⟨rfl, go⟩

/-! ### A whole start -/

theorem launch {limits : Limits} {d : Descriptor} {auto : Bool}
    {post : ErrorCode → Custody → Prop} {c c₁ : Custody} (hr : ∃ around, T.rely around)
    (ho : c₁ = c.afterAll (openingActs c.session.active d)) (hc : T.always c₁)
    (h : ∀ acts code, Attempt T c d auto (openingActs c.session.active d ++ acts) code →
      T.Along acts (post code) c₁) :
    T.Secures post none (Program.launch limits d auto c.session.active.isSome) c₁ := by
  obtain ⟨around, hr⟩ := hr
  have hw : T.Writes (.status .disconnected) _ := ⟨around, hr, rfl⟩
  have hs : c₁.session = ⟨some d, c.session.monitored⟩ ∧ c₁.store = c.store := by
    rw [ho, afterAll_openingActs]
    exact ⟨rfl, rfl⟩
  refine .bind (.startProxy hc fun acts code hp => ?_)
  have hd : (c₁.afterAll acts).session = ⟨some d, c.session.monitored⟩ := by
    rw [hp.afterAll, hs.1]
  have ht : (c₁.afterAll acts).store = c.store := by rw [hp.afterAll, hs.2]
  have ha : (c₁.afterAll acts).session.active = some d := by rw [hd]
  have hm : (c₁.afterAll acts).session.monitored = c.session.monitored := by rw [hd]
  cases hk : code.isContinuable with
  | false =>
      have k := fun u w hw => along_iff.1 (along_append.1 (h _ _ (.noProxy hp hk u w hw)))
      exact along_iff.2 ⟨(k true _ hw).1, .failStart ha hm fun u w hw => (k u w hw).2⟩
  | true =>
      -- The interface becomes ready, and then it connects.
      have k := fun {ready monitored} (hr : Ready c.session ready monitored) address udp u w hw =>
        along_iff.1 (along_append.1 (h _ _ (.noConnection hp hk hr address udp u w hw)))
      have readies : ∀ {ready monitored}, Ready c.session ready monitored →
          T.Along ready (fun _ => True) (c₁.afterAll acts) := fun hr =>
        (along_iff.1 (along_append.1 (k hr around.proxyAddress false true _ hw).2)).1
      have connects : ∀ {ready monitored}, Ready c.session ready monitored →
          T.Secures post none (Program.connectTunnel d auto code)
            ((c₁.afterAll acts).afterAll ready) := by
        intro ready monitored hr
        refine .connectTunnel (by rw [hr.afterAll hm]; exact ha) (by rw [hr.afterAll hm])
          (if auto then c.store.udpSupported else code == .noError) (by rw [hr.afterAll hm, ht])
          (fun address u w hw => ?_) fun address saved savedUdp savedStatus hs hu hc => ?_
        · exact (along_iff.1 (along_append.1 (k hr address _ u w hw).2)).2
        · have k := along_append.1 (h _ _ (.connected hp hk hr address hs hu hc))
          exact (along_iff.1 (along_append.1 (along_iff.1 k).2)).2
      cases ho : c.session.active with
      | none =>
          have k := fun u w hw => along_iff.1 (along_append.1 (h _ _
            (.noInterface hp hk ho u w hw)))
          refine along_iff.2 ⟨(k true _ hw).1, .bind (.slowly fun up _ => ?_)⟩
          cases up with
          | false =>
              exact ⟨(k true _ hw).2.1, .failStart ha hm fun u w hw => (k u w hw).2.2⟩
          | true =>
              have up : T.always ((c₁.afterAll acts).after (.deed (.called .establish true))) := by
                cases hf : c.session.monitored with
                | true => exact (readies (.followed ho hf)).1
                | false => exact (readies (.fresh ho hf true)).1
              refine ⟨up, .bind (.startMonitoring (fun hf => ?_) fun hf registered => ?_)⟩
              · exact connects (.followed ho (hm.symm.trans hf))
              · have hr := Ready.fresh ho (hm.symm.trans hf) registered
                exact along_iff.2 ⟨(readies hr).2, connects hr⟩
      | some old =>
          have hr := Ready.reused ho
          refine along_iff.2 ⟨(k hr around.proxyAddress false true _ hw).1, .bind ?_⟩
          exact .slowly fun _ _ => ⟨(readies hr).1, connects hr⟩

/-- **A start of a tunnel.** -/
theorem startLocked {limits : Limits} {d : Descriptor} {auto : Bool}
    {post : ErrorCode → Custody → Prop} {c : Custody} (hr : ∃ around, T.rely around)
    (hc : T.always c)
    (h : ∀ acts code, Attempt T c d auto acts code → T.Along acts (post code) c) :
    T.Secures post none (Program.startLocked limits d auto) c := by
  obtain ⟨acts, code, hopen⟩ : ∃ acts code,
      T.Along (openingActs c.session.active d ++ acts) (post code) c := by
    obtain ⟨acts, code, ha⟩ := Attempt.possible hr c d auto
    exact ⟨acts, code, h _ _ ha⟩
  have hopen := (along_iff.1 (along_append.1 hopen)).1
  have k : T.Secures post none (Program.launch limits d auto c.session.active.isSome)
      (c.afterAll (openingActs c.session.active d)) := by
    refine launch hr rfl (along_iff.1 (hopen.always hc)).2.1 fun acts code ha => ?_
    exact (along_iff.1 (along_append.1 (h _ _ ha))).2
  refine .bind (.session ?_)
  cases ho : c.session.active with
  | none =>
      rw [ho] at hopen k
      obtain ⟨h₁, h₂, h₃, -⟩ := hopen
      exact .bind (.setActive ⟨h₁, h₂, .bind (.publishStatus ⟨h₃, k⟩)⟩)
  | some old =>
      rw [ho] at hopen k
      obtain ⟨h₁, h₂, h₃, h₄, h₅, -⟩ := hopen
      refine .bind (.bind (.session ⟨rfl, .bind (.call fun _ _ => ?_)⟩))
      rw [ho]
      refine ⟨h₁, .bind (.call fun _ _ => ⟨h₂, ?_⟩)⟩
      exact .bind (.setActive ⟨h₃, h₄, .bind (.publishStatus ⟨h₅, k⟩)⟩)

end Terms.Secures

end TunnelKeeper.Service
