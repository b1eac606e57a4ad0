import TunnelKeeper.Proofs.Service.Acts

/-!
# Outcomes — what the lists of acts come to

What a list of acts makes of a custody is told from the custody at its beginning.

* `Attempt.outcome`: after a start that has failed, everything is taken down again.
* `Attempt.ends`: the tunnel is active and connected exactly where the code says so.
* `Attempt.reuses`: a restart brings no interface up, and asks for no network events.
* `Attempt.starts`: a start launches the proxy at most once.
-/

namespace TunnelKeeper.Service

/-! ### What the parts make of a custody -/

theorem afterAll_openingActs (c : Custody) (old : Option Descriptor) (d : Descriptor) :
    c.afterAll (openingActs old d) = ⟨⟨some d, c.session.monitored⟩, some d, .connecting, c.store,
      c.deeds ++ deedsOf (openingActs old d)⟩ := by
  refine Custody.eq_of_deeds (c.deeds_afterAll _) ?_ ?_ ?_ ?_ <;> cases old <;> rfl

theorem afterAll_tearDownActs (c : Custody) (monitored unregistered written : Bool) :
    c.afterAll (tearDownActs monitored unregistered written) =
      ⟨⟨none, !monitored && c.session.monitored⟩, none, .disconnected,
        (Deed.called (.write (.status .disconnected)) written).stored c.store,
        c.deeds ++ deedsOf (tearDownActs monitored unregistered written)⟩ := by
  refine Custody.eq_of_deeds (c.deeds_afterAll _) ?_ ?_ ?_ ?_ <;> cases monitored <;> rfl

theorem ProxyStart.afterAll {config : TunnelConfig} {probing : Bool} {acts : List Act}
    {code : ErrorCode} (h : ProxyStart config probing acts code) (c : Custody) :
    c.afterAll acts = { c with deeds := c.deeds ++ deedsOf acts } := by
  refine Custody.eq_of_deeds (c.deeds_afterAll _) ?_ ?_ ?_ ?_ <;> cases h <;> rfl

/-- A start goes on only once the proxy is up. -/
theorem ProxyStart.up {config : TunnelConfig} {probing : Bool} {acts : List Act} {code : ErrorCode}
    (h : ProxyStart config probing acts code) (hc : code.isContinuable = true) :
    acts = proxyActs config (some true) := by
  cases h with
  | illegal | unbegun | unended | failed => cases hc
  | started | probed => rfl

theorem Ready.afterAll {session : Session} {acts : List Act} {monitored : Bool}
    (h : Ready session acts monitored) {c : Custody}
    (hc : c.session.monitored = session.monitored) :
    c.afterAll acts = { c with
      session := ⟨c.session.active, monitored⟩
      deeds := c.deeds ++ deedsOf acts } := by
  refine Custody.eq_of_deeds (c.deeds_afterAll _) ?_ ?_ ?_ ?_
  · cases h with
    | reused => exact congrArg (Session.mk c.session.active) hc
    | followed _ hm => exact congrArg (Session.mk c.session.active) (hc.trans hm)
    | fresh _ hm =>
        cases monitored with
        | true => rfl
        | false => exact congrArg (Session.mk c.session.active) (hc.trans hm)
  all_goals cases h with
    | reused | followed => rfl
    | fresh => cases monitored <;> rfl

theorem afterAll_announceActs (c : Custody) (d : Descriptor) (address : SocketAddress)
    (udp saved savedUdp savedStatus : Bool) :
    c.afterAll (announceActs d address udp saved savedUdp savedStatus) = ⟨c.session,
      c.visibleActive, .connected,
      (Deed.called (.write (.status .connected)) savedStatus).stored
        ((Deed.called (.write (.udpSupported udp)) savedUdp).stored
          ((Deed.called (.write (.tunnel d)) saved).stored c.store)),
      c.deeds ++ deedsOf (announceActs d address udp saved savedUdp savedStatus)⟩ :=
  Custody.eq_of_deeds (c.deeds_afterAll _) rfl rfl rfl rfl

theorem ProxyStart.preparation {config : TunnelConfig} {probing : Bool} {acts : List Act}
    {code : ErrorCode} (h : ProxyStart config probing acts code) :
    acts.all Act.isPreparation = true := by
  cases h <;> rfl

theorem Ready.preparation {session : Session} {acts : List Act} {monitored : Bool}
    (h : Ready session acts monitored) (config : TunnelConfig) (result : Option Bool) :
    (proxyActs config result ++ acts).all Act.isPreparation = true := by
  cases h with
  | reused | followed => rfl
  | fresh => cases monitored <;> rfl

/-- What only makes a start ready changes no more than which networks are followed. -/
theorem afterAll_preparation {acts : List Act} (h : acts.all Act.isPreparation = true)
    (c : Custody) :
    (c.afterAll acts).session.active = c.session.active ∧
      (c.afterAll acts).visibleActive = c.visibleActive ∧
      (c.afterAll acts).visibleStatus = c.visibleStatus ∧ (c.afterAll acts).store = c.store := by
  induction acts generalizing c with
  | nil => exact ⟨rfl, rfl, rfl, rfl⟩
  | cons x acts ih =>
      rw [List.all_cons, Bool.and_eq_true] at h
      -- One act at a time; those that change more are no preparations.
      have hx : (c.after x).session.active = c.session.active ∧
          (c.after x).visibleActive = c.visibleActive ∧
          (c.after x).visibleStatus = c.visibleStatus ∧ (c.after x).store = c.store := by
        cases x with
        | setMonitored => exact ⟨rfl, rfl, rfl, rfl⟩
        | setActive | publishActive | publishStatus => cases h.1
        | deed y =>
            cases y with
            | began | ended => exact ⟨rfl, rfl, rfl, rfl⟩
            | called k => cases k with
              | disconnect | establish | register | connect => exact ⟨rfl, rfl, rfl, rfl⟩
              | _ => cases h.1
      obtain ⟨ha, hv, hs, ht⟩ := ih h.2 (c.after x)
      exact ⟨ha.trans hx.1, hv.trans hx.2.1, hs.trans hx.2.2.1, ht.trans hx.2.2.2⟩

theorem afterAll_failActs (c : Custody) (d : Descriptor) (code : ErrorCode)
    (monitored unregistered written : Bool) :
    c.afterAll (failActs d code monitored unregistered written) =
      ⟨⟨none, !monitored && c.session.monitored⟩, none, .disconnected,
        (Deed.called (.write (.status .disconnected)) written).stored c.store,
        c.deeds ++ deedsOf (failActs d code monitored unregistered written)⟩ := by
  refine Custody.eq_of_deeds (c.deeds_afterAll _) ?_ ?_ ?_ ?_ <;> cases monitored <;> rfl

/-- **A start is connected, or everything is taken down again**, wherever it has failed. -/
theorem Attempt.outcome {T : Terms} {c : Custody} {d : Descriptor} {auto : Bool} {acts : List Act}
    {code : ErrorCode} (h : Attempt T c d auto acts code) : Outcome T c d acts code := by
  have down : ErrorCode.vpnStartFailure.isContinuable = false := rfl
  cases h with
  | noProxy hp hc _ _ hw => exact .failed hc hp.preparation _ _ _ hw
  | @noInterface acts code hp _ _ unregistered written hw =>
      have hprep : (acts ++ [Act.deed (.called .establish false)]).all Act.isPreparation =
          true := by
        rw [List.all_append, hp.preparation]
        rfl
      simpa using Outcome.failed down hprep c.session.monitored unregistered written hw
  | @noConnection acts ready code monitored hp hc hr address udp unregistered written hw =>
      obtain rfl := hp.up hc
      have hprep : ((proxyActs d.config (some true) ++ ready) ++
          [Act.deed (.called (.connect address udp) false)]).all Act.isPreparation = true := by
        rw [List.all_append, hr.preparation]
        rfl
      simpa using Outcome.failed down hprep monitored unregistered written hw
  | connected hp hc hr address hd hu hs =>
      obtain rfl := hp.up hc
      rw [← List.append_assoc (proxyActs _ _)]
      exact .connected hc hr address _ hd hu hs

/-- **How a start ends**: with the new tunnel up and connected, or with none. -/
theorem Attempt.ends {T : Terms} {c : Custody} {d : Descriptor} {auto : Bool} {acts : List Act}
    {code : ErrorCode} (h : Attempt T c d auto acts code) :
    if code.isContinuable then
      (c.afterAll acts).session.active = some d ∧ (c.afterAll acts).visibleActive = some d ∧
        (c.afterAll acts).visibleStatus = .connected
    else
      (c.afterAll acts).session.active = none ∧ (c.afterAll acts).visibleActive = none ∧
        (c.afterAll acts).visibleStatus = .disconnected := by
  cases h.outcome with
  | failed hc =>
      rw [hc, if_neg Bool.false_ne_true, Custody.afterAll_append, Custody.afterAll_append,
        afterAll_failActs]
      exact ⟨rfl, rfl, rfl⟩
  | connected hc hr =>
      rw [hc, if_pos rfl, Custody.afterAll_append, Custody.afterAll_append, afterAll_announceActs]
      obtain ⟨ha, hv, -⟩ := afterAll_preparation (hr.preparation d.config (some true))
        (c.afterAll (openingActs c.session.active d))
      rw [afterAll_openingActs] at ha hv ⊢
      exact ⟨ha, hv, rfl⟩

/-- Some start is possible, wherever it starts from. -/
theorem Attempt.possible {T : Terms} (hr : ∃ around, T.rely around) (c : Custody) (d : Descriptor)
    (auto : Bool) :
    ∃ acts code, Attempt T c d auto (openingActs c.session.active d ++ acts) code := by
  obtain ⟨around, hr⟩ := hr
  have hw : T.Writes (.status .disconnected) _ := ⟨around, hr, rfl⟩
  cases he : d.config.endpoint with
  | error e => exact ⟨_, _, .noProxy (.illegal he) rfl true _ hw⟩
  | ok endpoint => exact ⟨_, _, .noProxy (.unbegun he) rfl true _ hw⟩

/-- Whether only a fresh start makes a deed: it brings the interface up, or asks for network
events. -/
def Deed.isFresh : Deed → Bool
  | .called .establish _ => true
  | .called .register _ => true
  | _ => false

/-- **A restart reuses** the interface and the registration of the tunnel before it. -/
theorem Attempt.reuses {T : Terms} {c : Custody} {d : Descriptor} {auto : Bool}
    {acts : List Act} {code : ErrorCode} (h : Attempt T c d auto acts code)
    (hr : c.session.active ≠ none) : (deedsOf acts).filter Deed.isFresh = [] := by
  have failed : ∀ code monitored unregistered written,
      (deedsOf (failActs d code monitored unregistered written)).filter Deed.isFresh = [] := by
    intro code monitored unregistered written
    cases monitored <;> rfl
  have opened : (deedsOf (openingActs c.session.active d)).filter Deed.isFresh = [] := by
    cases c.session.active <;> rfl
  have started : ∀ {acts code}, ProxyStart d.config (!auto) acts code →
      (deedsOf acts).filter Deed.isFresh = [] := by
    intro acts code hp
    cases hp <;> rfl
  have readied : ∀ {acts monitored}, Ready c.session acts monitored →
      (deedsOf acts).filter Deed.isFresh = [] := by
    intro acts monitored hready
    cases hready with
    | reused => rfl
    | followed ho | fresh ho => exact absurd ho hr
  cases h with
  | noProxy hp =>
      rw [deedsOf_append, deedsOf_append, List.filter_append, List.filter_append, opened,
        started hp, failed]
      rfl
  | noInterface _ _ ho => exact absurd ho hr
  | noConnection hp _ hready address udp =>
      rw [deedsOf_append, deedsOf_append, deedsOf_append, List.filter_append, List.filter_append,
        List.filter_append, opened, started hp, readied hready]
      exact failed .vpnStartFailure _ _ _
  | connected hp _ hready =>
      rw [deedsOf_append, deedsOf_append, deedsOf_append, List.filter_append, List.filter_append,
        List.filter_append, opened, started hp, readied hready]
      rfl

/-- Whether a deed starts the proxy. -/
def Deed.isBegan : Deed → Bool
  | .began _ => true
  | _ => false

/-- **A start starts the proxy once**, at most. -/
theorem Attempt.starts {T : Terms} {c : Custody} {d : Descriptor} {auto : Bool} {acts : List Act}
    {code : ErrorCode} (h : Attempt T c d auto acts code) :
    (deedsOf acts).countP Deed.isBegan ≤ 1 := by
  have failed : ∀ code monitored unregistered written,
      (deedsOf (failActs d code monitored unregistered written)).countP Deed.isBegan = 0 := by
    intro code monitored unregistered written
    cases monitored <;> rfl
  have opened : (deedsOf (openingActs c.session.active d)).countP Deed.isBegan = 0 := by
    cases c.session.active <;> rfl
  have started : ∀ {acts code}, ProxyStart d.config (!auto) acts code →
      (deedsOf acts).countP Deed.isBegan ≤ 1 := by
    intro acts code hp
    cases hp with
    | illegal | unbegun => exact Nat.zero_le 1
    | unended | failed | started | probed => exact Nat.le_refl 1
  have readied : ∀ {acts monitored}, Ready c.session acts monitored →
      (deedsOf acts).countP Deed.isBegan = 0 := by
    intro acts monitored hready
    cases hready with
    | reused | followed => rfl
    | fresh => cases monitored <;> rfl
  have once : ∀ {acts rest code}, ProxyStart d.config (!auto) acts code →
      (deedsOf rest).countP Deed.isBegan = 0 →
      (deedsOf (openingActs c.session.active d ++ (acts ++ rest))).countP Deed.isBegan ≤ 1 := by
    intro acts rest code hp hrest
    rw [deedsOf_append, deedsOf_append, List.countP_append, List.countP_append, opened, hrest]
    simpa using started hp
  cases h with
  | noProxy hp => exact once hp (failed _ _ _ _)
  | noInterface hp => exact once hp (failed .vpnStartFailure _ _ _)
  | noConnection hp _ hready =>
      refine once hp ?_
      rw [deedsOf_append, List.countP_append, readied hready]
      exact (Nat.zero_add _).trans (failed .vpnStartFailure _ _ _)
  | connected hp _ hready =>
      refine once hp ?_
      rw [deedsOf_append, List.countP_append, readied hready]
      rfl

end TunnelKeeper.Service
