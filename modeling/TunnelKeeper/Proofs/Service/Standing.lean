import TunnelKeeper.Proofs.Service.Remembrance

/-!
# Standing — the tunnel of the session under way

Which tunnel is up can be told from the deeds: it is the one that was last announced as connected,
as long as everything was not taken down since (`standing`).  The last thing that is done to take
everything down is to write that the service is disconnected.

* `Attempt.standing`: a start leaves its own tunnel standing, or none.
* `standing_lasting`: whenever the lock is free, the tunnel that stands is the active one.
-/

namespace TunnelKeeper.Service

/-! ### The session under way -/

/-- Whether a deed is the last one of taking everything down. -/
def Deed.endsSession : Deed → Bool
  | .called (.write (.status .disconnected)) _ => true
  | _ => false

/-- What is known of the session under way after a deed. -/
def Recalled.follow (r : Recalled) (x : Deed) : Recalled := if x.endsSession then {} else r.after x

/-- What is known of the session under way after a list of deeds. -/
def Recalled.followAll (r : Recalled) (deeds : List Deed) : Recalled := deeds.foldl follow r

/-- **The tunnel that stands** after a list of deeds. -/
def standing (deeds : List Deed) : Option Descriptor := (Recalled.followAll {} deeds).connected

namespace Recalled

theorem followAll_append (r : Recalled) (deeds more : List Deed) :
    r.followAll (deeds ++ more) = (r.followAll deeds).followAll more :=
  List.foldl_append

/-- Nothing is known once everything was taken down. -/
theorem followAll_tearDownActs (r : Recalled) (monitored unregistered written : Bool) :
    r.followAll (deedsOf (tearDownActs monitored unregistered written)) = {} := by
  cases monitored <;> rfl

theorem followAll_openingActs (r : Recalled) (old : Option Descriptor) (d : Descriptor) :
    r.followAll (deedsOf (openingActs old d)) = r := by
  cases old <;> rfl

theorem followAll_ready {session : Session} {acts : List Act} {monitored : Bool}
    (h : Ready session acts monitored) (r : Recalled) : r.followAll (deedsOf acts) = r := by
  cases h with
  | reused | followed => rfl
  | fresh => cases monitored <;> rfl

/-- A tunnel that is announced has the configuration of the proxy. -/
theorem followAll_announceActs {r : Recalled} {d : Descriptor} (hp : r.proxied = some d.config)
    (address : SocketAddress) (udp saved savedUdp savedStatus : Bool) :
    r.followAll (deedsOf (announceActs d address udp saved savedUdp savedStatus)) =
      { r with connected := some d } := by
  show { r with connected := r.proxied.map fun config => (⟨d.id, config⟩ : Descriptor) } = _
  rw [hp]
  rfl

/-- It stands as soon as it is announced. -/
theorem followAll_announced {before : List Deed} {d : Descriptor}
    (hp : (followAll {} before).proxied = some d.config) (address : SocketAddress) (udp : Bool) :
    followAll {} (before ++ [.called (.connect address udp) true] ++
      [.called (.emit (.started (some d.id) .noError)) ()]) = ⟨some d.config, some d⟩ := by
  rw [followAll_append, followAll_append]
  generalize followAll {} before = r at hp
  cases r
  cases hp
  rfl

end Recalled

/-- Whatever was done before, nothing stands once everything was taken down. -/
theorem standing_tearDownActs (c : Custody) (acts : List Act)
    (monitored unregistered written : Bool) :
    standing (c.afterAll (acts ++ tearDownActs monitored unregistered written)).deeds = none := by
  rw [c.deeds_afterAll, deedsOf_append, standing, Recalled.followAll_append,
    Recalled.followAll_append, Recalled.followAll_tearDownActs]

/-- Where nothing is announced and nothing is taken down. -/
theorem standing_quiet {c : Custody} {acts : List Act}
    (h : ∀ r : Recalled, r.followAll (deedsOf acts) = r) :
    standing (c.afterAll acts).deeds = standing c.deeds := by
  rw [c.deeds_afterAll, standing, Recalled.followAll_append, h, standing]

/-- **A start leaves its own tunnel standing**, or none. -/
theorem Attempt.standing {T : Terms} {c : Custody} {d : Descriptor} {auto : Bool} {acts : List Act}
    {code : ErrorCode} (h : Attempt T c d auto acts code) :
    standing (c.afterAll acts).deeds = if code.isContinuable then some d else none := by
  cases h.outcome with
  | @failed acts code hc hp monitored unregistered written =>
      have h := standing_tearDownActs c (openingActs c.session.active d ++ (acts ++
        [.deed (.called (.emit (.started (some d.id) code)) ())])) monitored unregistered written
      rw [hc, if_neg Bool.false_ne_true]
      simpa [failActs] using h
  | connected hc hr =>
      rw [c.deeds_afterAll, deedsOf_append, deedsOf_append, deedsOf_append, Service.standing,
        Recalled.followAll_append, Recalled.followAll_append, Recalled.followAll_append,
        Recalled.followAll_append, Recalled.followAll_openingActs, Recalled.followAll_ready hr,
        Recalled.followAll_announceActs rfl, hc]
      rfl

/-! ### The terms -/

/-- The tunnel that stands is the active one. -/
def Stood (c : Custody) : Prop := standing c.deeds = c.session.active

def upstanding : Terms := { rest := Stood }

theorem Attempt.stood {T : Terms} {c : Custody} {d : Descriptor} {auto : Bool} {acts : List Act}
    {code : ErrorCode} (h : Attempt T c d auto acts code) : Stood (c.afterAll acts) := by
  have hends := h.ends
  unfold Stood
  rw [h.standing]
  cases hc : code.isContinuable with
  | true =>
      rw [hc, if_pos rfl] at hends
      exact hends.1.symm
  | false =>
      rw [hc, if_neg Bool.false_ne_true] at hends
      exact hends.1.symm

theorem Stood.quiet {c : Custody} (h : Stood c) {acts : List Act}
    (hd : ∀ r : Recalled, r.followAll (deedsOf acts) = r)
    (hs : (c.afterAll acts).session.active = c.session.active) : Stood (c.afterAll acts) := by
  unfold Stood
  rw [standing_quiet hd, hs]
  exact h

/-- Where everything is taken down, nothing stands and nothing is active. -/
theorem stood_tearDown (c : Custody) (acts : List Act) (monitored unregistered written : Bool) :
    Stood (c.afterAll (acts ++ tearDownActs monitored unregistered written)) := by
  unfold Stood
  rw [standing_tearDownActs, Custody.afterAll_append, afterAll_tearDownActs]

/-- **Every section leaves standing the active tunnel.** -/
theorem standing_lasting : upstanding.Lasting where
  met := ⟨{}, trivial⟩
  kept c acts _ hr h := by
    refine (Terms.along_of_always fun _ => trivial).2 ?_
    have hr : Stood c := hr
    cases h with
    | looked => exact hr
    | started h => exact h.stood
    | resumed d acts code loaded h =>
        rw [Custody.afterAll_append]
        exact h.stood
    | unloaded | unprepared | reported | recorded => exact hr.quiet (fun _ => rfl) rfl
    | stopped => exact stood_tearDown c [_] _ _ _
    | revoked => exact stood_tearDown c [_] _ _ _
    | destroyed => exact stood_tearDown c [] _ _ _

theorem kept_upstanding (limits : Limits) (poolSize : Nat) (store : Store.Persisted) :
    Kept upstanding (Machine.fresh limits poolSize store) none :=
  .fresh limits poolSize store trivial rfl

theorem allows_upstanding {s : Machine} {l : Label} (h : s.Orderly l) : upstanding.Allows s l :=
  ⟨h, fun _ => trivial, fun _ _ _ => trivial⟩

end TunnelKeeper.Service
