import TunnelKeeper.Proofs.Service.Addresses

/-!
# Resources — what a tunnel uses, and gives back

A tunnel uses three things: the proxy, the interface, and the status line that a person sees.  What
has become of them is read off the deeds.  `Settled c` says that a tunnel that is active has all
three, and that one that is not has given them back.

Nothing but the deeds decides whether the interface may be connected.  A restart never brings the
interface up, but relies on the tunnel before it: connecting is safe (`connectsSafely`) because a
tunnel that is active has the interface, and because everything is taken down as soon as there is
none.

* `Attempt.settled`: every start leaves the resources settled, whichever way it ends.
* `settling_lasting`: so does every section, and it connects safely.
* `resources_follow_session`: so the resources follow the session in every run.
-/

namespace TunnelKeeper.Service

/-! ### What has become of the resources -/

/-- What has become of the interface. -/
structure Interface where
  /-- It was brought up, and not down since. -/
  established : Bool := false
  /-- The proxy it was routed into, and not out of since. -/
  attached : Option SocketAddress := none
deriving DecidableEq

/-- What a deed makes of the interface. -/
def Interface.after (i : Interface) : Deed → Interface
  | .called .establish true => { i with established := true }
  | .called (.connect address _) true => { i with attached := some address }
  | .called .disconnect _ => { i with attached := none }
  | .called .tearDown _ => { i with established := false }
  | _ => i

/-- The interface after a list of deeds. -/
def Interface.afterAll (i : Interface) (deeds : List Deed) : Interface := deeds.foldl after i

/-- Whether a deed starts or stops the proxy. -/
def Deed.isProxy : Deed → Bool
  | .called .stopProxy _ => true
  | .called _ _ => false
  | .began _ => true
  | .ended _ _ => true

/-- Whether a deed is about the interface. -/
def Deed.isInterface : Deed → Bool
  | .called .establish _ => true
  | .called (.connect _ _) _ => true
  | .called .disconnect _ => true
  | .called .tearDown _ => true
  | _ => false

/-- Whether a deed connects the interface, or tries to. -/
def Deed.isConnect : Deed → Bool
  | .called (.connect _ _) _ => true
  | _ => false

/-- Whether a deed brings the interface up, or tries to. -/
def Deed.isEstablish : Deed → Bool
  | .called .establish _ => true
  | _ => false

/-- What a person is shown by a deed. -/
def Deed.presentation? : Deed → Option Presentation
  | .called (.present p) _ => some p
  | _ => none

/-- The interface is connected only while it is up and not connected yet. -/
def connectsSafely : Interface → List Deed → Prop
  | _, [] => True
  | i, x :: deeds => (x.isConnect = true → i = ⟨true, none⟩) ∧ connectsSafely (i.after x) deeds

theorem Interface.afterAll_append (i : Interface) (deeds more : List Deed) :
    i.afterAll (deeds ++ more) = (i.afterAll deeds).afterAll more :=
  List.foldl_append

theorem connectsSafely_append {i : Interface} {deeds more : List Deed} :
    connectsSafely i (deeds ++ more) ↔
      connectsSafely i deeds ∧ connectsSafely (i.afterAll deeds) more := by
  induction deeds generalizing i with
  | nil => exact (and_iff_right trivial).symm
  | cons x deeds ih => exact (and_congr_right fun _ => ih).trans and_assoc.symm

/-- Wherever it is connected, it was up and not connected. -/
theorem connectsSafely_iff {i : Interface} {deeds : List Deed} :
    connectsSafely i deeds ↔ ∀ before x rest, deeds = before ++ x :: rest → x.isConnect = true →
      i.afterAll before = ⟨true, none⟩ := by
  constructor
  · rintro h before x rest rfl hx
    exact (connectsSafely_append.1 h).2.1 hx
  · intro h
    induction deeds generalizing i with
    | nil => trivial
    | cons x deeds ih =>
        refine ⟨h [] x deeds rfl, ih fun before y rest hd => ?_⟩
        exact h (x :: before) y rest (congrArg (x :: ·) hd)

theorem connectsSafely_of_none {i : Interface} {deeds : List Deed}
    (h : deeds.all (!·.isConnect) = true) : connectsSafely i deeds := by
  refine connectsSafely_iff.2 ?_
  rintro before x rest rfl hx
  have hx' := List.all_eq_true.1 h x (by simp)
  rw [hx] at hx'
  cases hx'

/-! ### Settled resources -/

/-- A tunnel has the proxy, the interface and the status line. -/
structure Used (d : Descriptor) (status : Status) (deeds : List Deed) : Prop where
  up : status = .connected ∨ status = .reconnecting
  proxy : [.began d.config, .ended d.config (some true)] <:+ deeds.filter Deed.isProxy
  interface : ∃ address, Interface.afterAll {} deeds = ⟨true, some address⟩
  shown : (deeds.filterMap Deed.presentation?).getLast? = some (.display d.config.serverName status)

/-- All three were given back. -/
structure Returned (deeds : List Deed) : Prop where
  proxy : (deeds.filter Deed.isProxy).getLast? = some (.called .stopProxy ())
  interface : [.called .disconnect (), .called .tearDown ()] <:+ deeds.filter Deed.isInterface
  shown : (deeds.filterMap Deed.presentation?).getLast? = some .clear

/-- **The resources are settled**: used by the active tunnel, or given back. -/
def Settled (c : Custody) : Prop :=
  match c.session.active with
  | some d => Used d c.visibleStatus c.deeds
  | none => c.visibleStatus = .disconnected ∧ Interface.afterAll {} c.deeds = {} ∧
      (.called .tearDown () ∈ c.deeds → Returned c.deeds)

/-- The interface is always connected safely, and the resources are settled at rest. -/
def settling : Terms where
  always c := connectsSafely {} c.deeds
  rest := Settled

theorem settling_along {K : Custody → Prop} {acts : List Act} {c : Custody}
    (hc : connectsSafely {} c.deeds)
    (hs : connectsSafely (Interface.afterAll {} c.deeds) (deedsOf acts))
    (hK : K (c.afterAll acts)) : settling.Along acts K c :=
  Terms.along_of_deeds (fun _ _ h => (connectsSafely_append.1 h).1) (fun _ h => h)
    (connectsSafely_append.2 ⟨hc, hs⟩) hK

/-! ### Sections -/

theorem interface_tearDownActs (i : Interface) (monitored unregistered written : Bool) :
    i.afterAll (deedsOf (tearDownActs monitored unregistered written)) = {} := by
  cases monitored <;> rfl

theorem returned_tearDownActs (deeds : List Deed) (monitored unregistered written : Bool) :
    Returned (deeds ++ deedsOf (tearDownActs monitored unregistered written)) := by
  refine ⟨?_, ?_, ?_⟩
  · rw [List.filter_append]
    cases monitored <;> exact List.getLast?_concat
  · rw [List.filter_append]
    cases monitored <;> exact List.suffix_append _ _
  · rw [List.filterMap_append]
    cases monitored <;> exact List.getLast?_concat

/-- Where everything is taken down, the resources are settled. -/
theorem settled_tearDownActs (c : Custody) (monitored unregistered written : Bool) :
    Settled (c.afterAll (tearDownActs monitored unregistered written)) := by
  rw [afterAll_tearDownActs]
  refine ⟨rfl, ?_, fun _ => returned_tearDownActs _ _ _ _⟩
  rw [Interface.afterAll_append, interface_tearDownActs]

theorem settled_failActs (c : Custody) (d : Descriptor) (code : ErrorCode)
    (monitored unregistered written : Bool) :
    Settled (c.afterAll (failActs d code monitored unregistered written)) := by
  rw [failActs, ← List.singleton_append, Custody.afterAll_append]
  exact settled_tearDownActs _ _ _ _

theorem interface_openingActs (i : Interface) (old : Option Descriptor) (d : Descriptor) :
    i.afterAll (deedsOf (openingActs old d)) = i := by
  cases old <;> rfl

theorem ProxyStart.interface {config : TunnelConfig} {probing : Bool} {acts : List Act}
    {code : ErrorCode} (h : ProxyStart config probing acts code) (i : Interface) :
    i.afterAll (deedsOf acts) = i := by
  cases h <;> rfl

/-- A tunnel that is active has the interface up, and where there is none it is down. -/
def UpWithTunnel (session : Session) (i : Interface) : Prop :=
  (∀ old, session.active = some old → i.established = true) ∧ (session.active = none → i = {})

theorem Settled.upWithTunnel {c : Custody} (h : Settled c) :
    UpWithTunnel c.session (Interface.afterAll {} c.deeds) := by
  unfold Settled at h
  unfold UpWithTunnel
  cases ha : c.session.active with
  | none =>
      rw [ha] at h
      exact ⟨nofun, fun _ => h.2.1⟩
  | some d =>
      rw [ha] at h
      obtain ⟨address, hi⟩ := h.interface
      exact ⟨fun _ _ => by rw [hi], nofun⟩

/-- **The interface is ready to connect**, also where it is reused. -/
theorem Ready.interface {session : Session} {acts : List Act} {monitored : Bool} {i : Interface}
    (h : Ready session acts monitored) (hi : UpWithTunnel session i) :
    i.afterAll (deedsOf acts) = ⟨true, none⟩ := by
  cases h with
  | reused ho => exact congrArg (Interface.mk · none) (hi.1 _ ho)
  | followed ho =>
      rw [hi.2 ho]
      rfl
  | fresh ho =>
      rw [hi.2 ho]
      cases monitored <;> rfl

theorem Ready.no_proxy {session : Session} {acts : List Act} {monitored : Bool}
    (h : Ready session acts monitored) : (deedsOf acts).filter Deed.isProxy = [] := by
  cases h with
  | reused | followed => rfl
  | fresh => cases monitored <;> rfl

theorem safe_failActs (i : Interface) (d : Descriptor) (code : ErrorCode)
    (monitored unregistered written : Bool) :
    connectsSafely i (deedsOf (failActs d code monitored unregistered written)) := by
  refine connectsSafely_of_none ?_
  cases monitored <;> rfl

/-- **Every start connects the interface safely.** -/
theorem Attempt.safe {T : Terms} {c : Custody} {d : Descriptor} {auto : Bool} {acts : List Act}
    {code : ErrorCode} (h : Attempt T c d auto acts code)
    (hi : UpWithTunnel c.session (Interface.afterAll {} c.deeds)) :
    connectsSafely (Interface.afterAll {} c.deeds) (deedsOf acts) := by
  have opened : connectsSafely (Interface.afterAll {} c.deeds)
      (deedsOf (openingActs c.session.active d)) := by
    refine connectsSafely_of_none ?_
    cases c.session.active <;> rfl
  have started : ∀ {acts code}, ProxyStart d.config (!auto) acts code →
      connectsSafely (Interface.afterAll {} c.deeds) (deedsOf acts) := by
    intro acts code hp
    refine connectsSafely_of_none ?_
    cases hp <;> rfl
  have readied : ∀ {acts monitored}, Ready c.session acts monitored →
      connectsSafely (Interface.afterAll {} c.deeds) (deedsOf acts) := by
    intro acts monitored hr
    refine connectsSafely_of_none ?_
    cases hr with
    | reused | followed => rfl
    | fresh => cases monitored <;> rfl
  cases h with
  | noProxy hp =>
      rw [deedsOf_append, connectsSafely_append, interface_openingActs, deedsOf_append,
        connectsSafely_append, hp.interface]
      exact ⟨opened, started hp, safe_failActs _ _ _ _ _ _⟩
  | noInterface hp =>
      rw [deedsOf_append, connectsSafely_append, interface_openingActs, deedsOf_append,
        connectsSafely_append, hp.interface]
      exact ⟨opened, started hp, nofun, safe_failActs _ _ _ _ _ _⟩
  | noConnection hp _ hr =>
      rw [deedsOf_append, connectsSafely_append, interface_openingActs, deedsOf_append,
        connectsSafely_append, hp.interface, deedsOf_append, connectsSafely_append,
        hr.interface hi]
      exact ⟨opened, started hp, readied hr, fun _ => rfl, safe_failActs _ _ _ _ _ _⟩
  | connected hp _ hr =>
      rw [deedsOf_append, connectsSafely_append, interface_openingActs, deedsOf_append,
        connectsSafely_append, hp.interface, deedsOf_append, connectsSafely_append,
        hr.interface hi]
      exact ⟨opened, started hp, readied hr, fun _ => rfl, connectsSafely_of_none rfl⟩

/-- **Every start leaves the resources settled**, whichever way it ends. -/
theorem Attempt.settled {T : Terms} {c : Custody} {d : Descriptor} {auto : Bool} {acts : List Act}
    {code : ErrorCode} (h : Attempt T c d auto acts code)
    (hi : UpWithTunnel c.session (Interface.afterAll {} c.deeds)) : Settled (c.afterAll acts) := by
  have hends := h.ends
  cases h.outcome with
  | failed =>
      rw [Custody.afterAll_append, Custody.afterAll_append]
      exact settled_failActs _ _ _ _ _ _
  | @connected ready _ _ hc hr address =>
      rw [hc, if_pos rfl] at hends
      obtain ⟨ha, -, hs⟩ := hends
      rw [Settled, ha, hs, c.deeds_afterAll]
      -- Of each resource the last deeds are those of this start.
      refine ⟨.inl rfl, ?_, ⟨address, ?_⟩, ?_⟩
      · rw [deedsOf_append, deedsOf_append, deedsOf_append, List.filter_append, List.filter_append,
          List.filter_append, List.filter_append, hr.no_proxy, List.append_nil, ← List.append_assoc]
        exact List.suffix_append _ _
      · rw [Interface.afterAll_append, deedsOf_append, Interface.afterAll_append,
          interface_openingActs, deedsOf_append, Interface.afterAll_append, deedsOf_append,
          Interface.afterAll_append]
        -- The proxy does not concern the interface.
        exact congrArg (Interface.afterAll · _) (hr.interface hi)
      · rw [deedsOf_append, deedsOf_append, ← List.append_assoc, ← List.append_assoc,
          List.filterMap_append]
        exact List.getLast?_concat

/-- A deed of another kind leaves the interface alone. -/
theorem Interface.afterAll_other {i : Interface} {deeds : List Deed}
    (h : deeds.filter Deed.isInterface = []) : i.afterAll deeds = i := by
  induction deeds with
  | nil => rfl
  | cons x deeds ih =>
      have hx : x.isInterface = false := by
        simpa using List.filter_eq_nil_iff.1 h x List.mem_cons_self
      have hi : i.after x = i := by
        cases x with
        | called k a => cases k with
          | establish | connect | disconnect | tearDown => cases hx
          | _ => rfl
        | _ => rfl
      rw [List.filter_cons, hx] at h
      exact (congrArg (Interface.afterAll · deeds) hi).trans (ih h)

/-- Where no resource is concerned, they stay settled. -/
theorem Settled.quiet {c : Custody} (h : Settled c) {acts : List Act}
    (hs : (c.afterAll acts).session = c.session)
    (hv : (c.afterAll acts).visibleStatus = c.visibleStatus)
    (hp : (deedsOf acts).filter Deed.isProxy = [])
    (hi : (deedsOf acts).filter Deed.isInterface = [])
    (hd : (deedsOf acts).filterMap Deed.presentation? = []) : Settled (c.afterAll acts) := by
  have hp : (c.deeds ++ deedsOf acts).filter Deed.isProxy = c.deeds.filter Deed.isProxy := by
    rw [List.filter_append, hp, List.append_nil]
  have hi' : (c.deeds ++ deedsOf acts).filter Deed.isInterface =
      c.deeds.filter Deed.isInterface := by
    rw [List.filter_append, hi, List.append_nil]
  have hd : (c.deeds ++ deedsOf acts).filterMap Deed.presentation? =
      c.deeds.filterMap Deed.presentation? := by
    rw [List.filterMap_append, hd, List.append_nil]
  have ha : Interface.afterAll {} (c.deeds ++ deedsOf acts) = Interface.afterAll {} c.deeds := by
    rw [Interface.afterAll_append, Interface.afterAll_other hi]
  have ht : .called .tearDown () ∈ c.deeds ++ deedsOf acts → .called .tearDown () ∈ c.deeds := by
    intro hm
    refine (List.mem_append.1 hm).resolve_right fun hm => ?_
    exact absurd rfl (List.filter_eq_nil_iff.1 hi _ hm)
  unfold Settled at h ⊢
  rw [hs, hv, c.deeds_afterAll, ha]
  cases hact : c.session.active with
  | some d =>
      rw [hact] at h
      obtain ⟨hup, hproxy, hinterface, hshown⟩ := h
      exact ⟨hup, hp ▸ hproxy, ha ▸ hinterface, hd ▸ hshown⟩
  | none =>
      rw [hact] at h
      obtain ⟨hdown, hinterface, hreturned⟩ := h
      refine ⟨hdown, hinterface, fun hm => ?_⟩
      obtain ⟨hproxy, hlast, hshown⟩ := hreturned (ht hm)
      exact ⟨hp ▸ hproxy, hi' ▸ hlast, hd ▸ hshown⟩

/-- A section that ends with everything taken down. -/
theorem settling_tearDown {c : Custody} (hc : connectsSafely {} c.deeds) (acts : List Act)
    (hs : (deedsOf acts).all (!·.isConnect) = true) (monitored unregistered written : Bool) :
    settling.Along (acts ++ tearDownActs monitored unregistered written) Settled c := by
  refine settling_along hc (connectsSafely_of_none ?_) ?_
  · rw [deedsOf_append, List.all_append, hs]
    cases monitored <;> rfl
  · rw [Custody.afterAll_append]
    exact settled_tearDownActs _ _ _ _

/-- **Every section keeps the resources settled**, and connects the interface safely. -/
theorem settling_lasting : settling.Lasting where
  met := ⟨{}, trivial⟩
  kept c acts ha hr h := by
    have ha : connectsSafely {} c.deeds := ha
    have hr : Settled c := hr
    cases h with
    | looked => exact hr
    | started h => exact settling_along ha (h.safe hr.upWithTunnel) (h.settled hr.upWithTunnel)
    | resumed d acts code loaded h =>
        have hi := hr.upWithTunnel
        refine settling_along ha ?_ ?_
        · rw [deedsOf_append, connectsSafely_append]
          refine ⟨connectsSafely_of_none rfl, ?_⟩
          rw [← Interface.afterAll_append, ← Custody.deeds_afterAll]
          refine h.safe ?_
          rw [Custody.deeds_afterAll, Interface.afterAll_append]
          exact hi
        · rw [Custody.afterAll_append]
          refine h.settled ?_
          rw [Custody.deeds_afterAll, Interface.afterAll_append]
          exact hi
    | unloaded | unprepared | recorded =>
        refine settling_along ha (connectsSafely_of_none rfl) ?_
        exact hr.quiet rfl rfl rfl rfl rfl
    | stopped => exact settling_tearDown ha [_] rfl _ _ _
    | revoked => exact settling_tearDown ha [_] rfl _ _ _
    | destroyed => exact settling_tearDown ha [] rfl _ _ _
    | @reported d status hd hs =>
        refine settling_along ha (connectsSafely_of_none rfl) ?_
        rw [Settled, hd] at hr
        show Settled _
        rw [Settled, c.deeds_afterAll, show (c.afterAll [_, _, _]).session = c.session from rfl, hd]
        obtain ⟨-, hproxy, hinterface, -⟩ := hr
        refine ⟨hs, ?_, ?_, ?_⟩
        · rw [List.filter_append]
          exact (List.append_nil _).symm ▸ hproxy
        · obtain ⟨address, hi⟩ := hinterface
          exact ⟨address, (Interface.afterAll_append _ _ _).trans hi⟩
        · rw [List.filterMap_append]
          exact List.getLast?_concat

/-! ### Every run -/

/-- A restart relies on the interface that is there, and never brings it up. -/
theorem Attempt.no_establish {T : Terms} {c : Custody} {d : Descriptor} {auto : Bool}
    {acts : List Act} {code : ErrorCode} (h : Attempt T c d auto acts code)
    (hr : c.session.active ≠ none) : (deedsOf acts).filter Deed.isEstablish = [] := by
  have hf := List.filter_eq_nil_iff.1 (h.reuses hr)
  refine List.filter_eq_nil_iff.2 fun x hx hestablish => hf x hx ?_
  unfold Deed.isEstablish at hestablish
  split at hestablish
  · rfl
  · cases hestablish

theorem kept_settling (limits : Limits) (poolSize : Nat) (store : Store.Persisted) :
    Kept settling (Machine.fresh limits poolSize store) none :=
  .fresh limits poolSize store trivial ⟨rfl, rfl, fun h => by cases h⟩

/-- **Resources follow the session.**  In every run, whenever the lock is free, an active tunnel has
the proxy, the interface and the status line; and where there is none, they were given back, once
anything was taken down.  At all times the interface is connected only while it is up and not
connected, and to the address that the proxy has told; and a restart never brings it up. -/
theorem resources_follow_session {limits : Limits} {poolSize : Nat} {store : Store.Persisted}
    {s : Machine} (h : Reach Machine.Orderly (Machine.fresh limits poolSize store) s) :
    (s.AtRest →
      (∀ d, s.world.session.active = some d → Used d s.world.visibleStatus s.world.deeds) ∧
      (s.world.session.active = none → .called .tearDown () ∈ s.world.deeds →
        s.world.visibleStatus = .disconnected ∧ Returned s.world.deeds)) ∧
    (∀ before address udp connected since,
      s.world.deeds = before ++ .called (.connect address udp) connected :: since →
      Interface.afterAll {} before = ⟨true, none⟩) ∧
    ConnectsWhereTold s.world.log ∧
    ∀ t d auto k task s' code, s.Inside t → s.tasks[t]? = some task →
      task.program = (Program.startLocked limits d auto).bind k →
      Performs Machine.Orderly t k s (Program.startLocked limits d auto) s' code →
      s.world.session.active ≠ none →
      s'.world.deeds.filter Deed.isEstablish = s.world.deeds.filter Deed.isEstablish := by
  have hset : Reach settling.Allows (Machine.fresh limits poolSize store) s :=
    h.mono fun _ _ hl => ⟨hl, fun _ => trivial, fun _ _ _ => trivial⟩
  have h₀ := kept_settling limits poolSize store
  refine ⟨fun hr => ?_, fun before address udp connected since hd => ?_, h.connectsWhereTold,
    fun t d auto k task s' code hin htask hprog hp ho => ?_⟩
  · have hs : Settled s.world.custody := hset.atRest settling_lasting h₀ hr
    unfold Settled at hs
    refine ⟨fun d hd => ?_, fun hn ht => ?_⟩
    · rw [show s.world.custody.session.active = some d from hd] at hs
      exact hs
    · rw [show s.world.custody.session.active = none from hn] at hs
      exact ⟨hs.1, hs.2.2 ht⟩
  · have hs : connectsSafely {} s.world.deeds := hset.always settling_lasting h₀
    exact connectsSafely_iff.1 hs before _ since hd rfl
  · refine (hp.mono fun _ _ => allows_loose).startLocked loose_lasting (kept_loose ..)
      (h.mono fun _ _ => allows_loose) hin htask hprog (fun _ c =>
        c.deeds.filter Deed.isEstablish = s.world.deeds.filter Deed.isEstablish)
      fun acts code ha => ?_
    refine (Terms.along_of_always fun _ => trivial).2 ?_
    rw [Custody.deeds_afterAll, List.filter_append, ha.no_establish ho, List.append_nil]
    rfl

/-- A tunnel that is resumed has all that it uses. -/
theorem resumed_tunnel_uses :
    Used completeTunnel .connected resumedService.world.deeds ∧
      ConnectsWhereTold resumedService.world.log := by
  have h : Reach Machine.Orderly rememberingService resumedService :=
    reach_resumedService (by simp [resuming, Machine.Orderly])
  obtain ⟨hrest, -, htold, -⟩ := resources_follow_session h
  exact ⟨(hrest atRest_resumedService).1 completeTunnel rfl, htold⟩

end TunnelKeeper.Service
