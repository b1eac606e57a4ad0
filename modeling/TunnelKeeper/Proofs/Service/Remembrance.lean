import TunnelKeeper.Proofs.Service.Performs

/-!
# Remembrance — the store keeps the last tunnel that worked

Three places write to the store: a tunnel that is connected is remembered, whoever takes everything
down writes that the service is disconnected, and a reactor writes whether datagrams work.  As long
as every write works, the store knows the tunnel that was last announced as connected, whatever else
was tried since (`lastConnected`), and a start that fails leaves nothing behind but the status.

* `Attempt.store`: what a start makes of the store.
* `Attempt.recalled`: which tunnel the deeds of a start tell to be the last one connected.
* `store_remembers_connected`: both for every run.
-/

namespace TunnelKeeper.Service

/-! ### The last tunnel that was connected -/

/-- What the deeds tell of starts: the configuration the proxy was last started with, and the tunnel
that was last announced as connected. -/
structure Recalled where
  proxied : Option TunnelConfig := none
  connected : Option Descriptor := none

/-- What is known after a deed.  A tunnel that is announced has the configuration of the proxy. -/
def Recalled.after (r : Recalled) : Deed → Recalled
  | .ended config (some true) => { r with proxied := some config }
  | .called (.emit e) _ =>
    if e.action = .start ∧ e.errorCode = .noError then
      { r with connected := e.tunnelId.bind fun id => r.proxied.map fun config => ⟨id, config⟩ }
    else r
  | _ => r

/-- What is known after a list of deeds. -/
def Recalled.afterAll (r : Recalled) (deeds : List Deed) : Recalled := deeds.foldl after r

/-- The tunnel of the last start that ended connected. -/
def lastConnected (deeds : List Deed) : Option Descriptor :=
  (Recalled.afterAll {} deeds).connected

theorem Recalled.afterAll_append (r : Recalled) (deeds more : List Deed) :
    r.afterAll (deeds ++ more) = (r.afterAll deeds).afterAll more :=
  List.foldl_append

/-- Only a start that ends without an error changes which tunnel was connected. -/
theorem Recalled.connected_failActs (r : Recalled) (d : Descriptor) {code : ErrorCode}
    (hc : code ≠ .noError) (monitored unregistered written : Bool) :
    (r.afterAll (deedsOf (failActs d code monitored unregistered written))).connected =
      r.connected := by
  have he : r.after (.called (.emit (.started (some d.id) code)) ()) = r :=
    if_neg fun h => hc h.2
  have hd : r.afterAll (deedsOf (failActs d code monitored unregistered written)) =
      (r.after (.called (.emit (.started (some d.id) code)) ())).afterAll
        (deedsOf (tearDownActs monitored unregistered written)) := rfl
  rw [hd, he]
  cases monitored <;> rfl

theorem Recalled.afterAll_openingActs (r : Recalled) (old : Option Descriptor) (d : Descriptor) :
    r.afterAll (deedsOf (openingActs old d)) = r := by
  cases old <;> rfl

/-- What only makes a start ready does not end it. -/
theorem Recalled.connected_preparation {acts : List Act} (h : acts.all Act.isPreparation = true)
    (r : Recalled) : (r.afterAll (deedsOf acts)).connected = r.connected := by
  induction acts generalizing r with
  | nil => rfl
  | cons x acts ih =>
      rw [List.all_cons, Bool.and_eq_true] at h
      have ih := ih h.2
      cases x with
      | setMonitored | setActive | publishActive | publishStatus => exact ih r
      | deed y =>
          refine (ih (r.after y)).trans ?_
          cases y with
          | began => rfl
          | ended config result =>
              cases result with
              | none => rfl
              | some b => cases b <;> rfl
          | called k => cases k with
            | emit => cases h.1
            | _ => rfl

theorem Ready.recalled {session : Session} {acts : List Act} {monitored : Bool}
    (h : Ready session acts monitored) (r : Recalled) : r.afterAll (deedsOf acts) = r := by
  cases h with
  | reused | followed => rfl
  | fresh => cases monitored <;> rfl

theorem ne_noError_of_not_continuable {code : ErrorCode} (h : code.isContinuable = false) :
    code ≠ .noError := by
  rintro rfl
  cases h

/-- **Which tunnel a start leaves as the last one connected**: its own, if it is connected. -/
theorem Attempt.recalled {T : Terms} {c : Custody} {d : Descriptor} {auto : Bool} {acts : List Act}
    {code : ErrorCode} (h : Attempt T c d auto acts code) :
    lastConnected (c.afterAll acts).deeds =
      if code.isContinuable then some d else lastConnected c.deeds := by
  rw [c.deeds_afterAll, lastConnected, Recalled.afterAll_append]
  cases h.outcome with
  | failed hc hp =>
      rw [deedsOf_append, deedsOf_append, Recalled.afterAll_append, Recalled.afterAll_append,
        Recalled.connected_failActs _ _ (ne_noError_of_not_continuable hc),
        Recalled.connected_preparation hp, Recalled.afterAll_openingActs, hc]
      rfl
  | connected hc hr =>
      rw [deedsOf_append, deedsOf_append, deedsOf_append, Recalled.afterAll_append,
        Recalled.afterAll_append, Recalled.afterAll_append, hr.recalled, hc]
      rfl

/-! ### The store -/

/-- Whatever is written to the store is written. -/
def Writable (around : Surroundings) : Prop := ∀ u, around.writes u = true

/-- Where every write works, the store knows the last tunnel that was connected, or what it knew at
first; and it knows the active tunnel to be connected. -/
def Remembered (initial : Option Json) (c : Custody) : Prop :=
  c.store.tunnel = (lastConnected c.deeds).elim initial (fun d => some d.toJson) ∧
    ∀ d, c.session.active = some d → c.store.tunnel = some d.toJson ∧ c.store.status = .connected

def remembering (initial : Option Json) : Terms := { rely := Writable, rest := Remembered initial }

theorem writes_of_writable {T : Terms} (hT : ∀ around, T.rely around → Writable around)
    {u : Store.Update} {worked : Bool} (h : T.Writes u worked) : worked = true := by
  obtain ⟨around, hr, rfl⟩ := h
  exact hT around hr u

/-- **What a start makes of the store.**  One that fails leaves all of it but the status. -/
theorem Attempt.store {T : Terms} (hT : ∀ around, T.rely around → Writable around) {c : Custody}
    {d : Descriptor} {auto : Bool} {acts : List Act} {code : ErrorCode}
    (h : Attempt T c d auto acts code) :
    if code.isContinuable then
      (c.afterAll acts).store.tunnel = some d.toJson ∧ (c.afterAll acts).store.status = .connected
    else (c.afterAll acts).store = { c.store with status := .disconnected } := by
  cases h.outcome with
  | failed hc hp _ _ _ hw =>
      obtain rfl := writes_of_writable hT hw
      rw [hc, if_neg Bool.false_ne_true, Custody.afterAll_append, Custody.afterAll_append,
        afterAll_failActs, (afterAll_preparation hp _).2.2.2, afterAll_openingActs]
      rfl
  | connected hc hr _ _ hd hu hs =>
      obtain rfl := writes_of_writable hT hd
      obtain rfl := writes_of_writable hT hu
      obtain rfl := writes_of_writable hT hs
      rw [hc, if_pos rfl, Custody.afterAll_append, Custody.afterAll_append, afterAll_announceActs]
      exact ⟨rfl, rfl⟩

/-- Where the store keeps the tunnel, and no start has ended. -/
theorem Remembered.quiet {initial : Option Json} {c : Custody} (h : Remembered initial c)
    {acts : List Act} (hd : ∀ r : Recalled, (r.afterAll (deedsOf acts)).connected = r.connected)
    (ht : (c.afterAll acts).store.tunnel = c.store.tunnel)
    (hs : ∀ d, (c.afterAll acts).session.active = some d →
      c.session.active = some d ∧ (c.afterAll acts).store.status = c.store.status) :
    Remembered initial (c.afterAll acts) := by
  have hd : lastConnected (c.afterAll acts).deeds = lastConnected c.deeds := by
    rw [c.deeds_afterAll, lastConnected, Recalled.afterAll_append]
    exact hd _
  refine ⟨by rw [hd, ht, h.1], fun d hd => ?_⟩
  obtain ⟨hd, hstatus⟩ := hs d hd
  rw [ht, hstatus]
  exact h.2 d hd

/-- Where everything is taken down, the tunnel is still known. -/
theorem Remembered.tearDown {initial : Option Json} {c : Custody} (h : Remembered initial c)
    (monitored unregistered : Bool) :
    Remembered initial (c.afterAll (tearDownActs monitored unregistered true)) := by
  refine h.quiet (fun r => ?_) ?_ fun d hd => ?_
  · cases monitored <;> rfl
  · rw [afterAll_tearDownActs]
    rfl
  · rw [afterAll_tearDownActs] at hd
    cases hd

/-- A start leaves known the last tunnel that was connected. -/
theorem Attempt.remembered {initial : Option Json} {c : Custody} {d : Descriptor} {auto : Bool}
    {acts : List Act} {code : ErrorCode} (h : Attempt (remembering initial) c d auto acts code)
    (hr : Remembered initial c) : Remembered initial (c.afterAll acts) := by
  have hstore := h.store fun _ => id
  have hends := h.ends
  unfold Remembered
  rw [h.recalled]
  cases hc : code.isContinuable with
  | true =>
      rw [hc, if_pos rfl] at hstore hends
      refine ⟨hstore.1, fun d' hd' => ?_⟩
      obtain rfl := Option.some.inj (hends.1.symm.trans hd')
      exact hstore
  | false =>
      rw [hc, if_neg Bool.false_ne_true] at hstore hends
      refine ⟨?_, fun d' hd' => absurd (hends.1.symm.trans hd') nofun⟩
      rw [hstore]
      exact hr.1

/-- **Every section leaves the tunnel remembered.** -/
theorem remembering_lasting (initial : Option Json) : (remembering initial).Lasting where
  met := ⟨{}, fun _ => rfl⟩
  kept c acts _ hr h := by
    refine (Terms.along_of_always fun _ => trivial).2 ?_
    have hr : Remembered initial c := hr
    have hw : ∀ {u worked}, (remembering initial).Writes u worked → worked = true :=
      writes_of_writable fun _ => id
    cases h with
    | looked => exact hr
    | started h => exact h.remembered hr
    | resumed d acts code loaded h =>
        rw [Custody.afterAll_append]
        exact h.remembered (hr.quiet (fun _ => rfl) rfl fun d hd => ⟨hd, rfl⟩)
    | unloaded | unprepared => exact hr.quiet (fun _ => rfl) rfl fun d hd => ⟨hd, rfl⟩
    | stopped _ _ _ hwritten =>
        obtain rfl := hw hwritten
        rw [← List.singleton_append, Custody.afterAll_append]
        refine Remembered.tearDown ?_ _ _
        exact hr.quiet (fun _ => rfl) rfl fun d hd => ⟨hd, rfl⟩
    | revoked _ _ hwritten =>
        obtain rfl := hw hwritten
        rw [← List.singleton_append, Custody.afterAll_append]
        refine Remembered.tearDown ?_ _ _
        exact hr.quiet (fun _ => rfl) rfl fun d hd => ⟨hd, rfl⟩
    | destroyed _ _ _ hwritten =>
        obtain rfl := hw hwritten
        exact hr.tearDown _ _
    | reported hd => exact hr.quiet (fun _ => rfl) rfl fun d hd => ⟨hd, rfl⟩
    | recorded udp hwritten =>
        obtain rfl := hw hwritten
        exact hr.quiet (fun _ => rfl) rfl fun d hd => ⟨hd, rfl⟩

/-! ### Every run -/

/-- Any steps, as long as every write to the store works. -/
def Remembers (s : Machine) (l : Label) : Prop :=
  s.Orderly l ∧ ∀ t around, l = .turn t around → Writable around

theorem allows_remembering (initial : Option Json) {s : Machine} {l : Label} (h : Remembers s l) :
    (remembering initial).Allows s l :=
  ⟨h.1, fun _ => trivial, h.2⟩

theorem kept_remembering (limits : Limits) (poolSize : Nat) (store : Store.Persisted) :
    Kept (remembering store.tunnel) (Machine.fresh limits poolSize store) none :=
  .fresh limits poolSize store trivial ⟨rfl, nofun⟩

/-- **The store remembers the last tunnel that was connected.**  In every run in which writes to the
store work, a start that fails leaves all of the store as it was, but for the status, which is that
the service is disconnected.  Whenever the lock is free, the store knows the tunnel that was last
connected, or what it knew at first; and it knows the active tunnel to be connected, whatever is
visible of its status. -/
theorem store_remembers_connected {limits : Limits} {poolSize : Nat} {store : Store.Persisted}
    {s : Machine} (h : Reach Remembers (Machine.fresh limits poolSize store) s) :
    (∀ t d auto k task s' code, s.Inside t → s.tasks[t]? = some task →
      task.program = (Program.startLocked limits d auto).bind k →
      Performs Remembers t k s (Program.startLocked limits d auto) s' code →
      code.isContinuable = false →
        s'.world.store = { s.world.store with status := .disconnected }) ∧
    (s.AtRest →
      s.world.store.tunnel =
        (lastConnected s.world.deeds).elim store.tunnel (fun d => some d.toJson) ∧
      ∀ d, s.world.session.active = some d →
        s.world.store.tunnel = some d.toJson ∧ s.world.store.status = .connected) := by
  have h := h.mono fun _ _ => allows_remembering store.tunnel
  have h₀ := kept_remembering limits poolSize store
  refine ⟨fun t d auto k task s' code hin htask hprog hp hc => ?_,
    h.atRest (remembering_lasting _) h₀⟩
  have hp := hp.mono fun _ _ => allows_remembering store.tunnel
  refine hp.startLocked (remembering_lasting _) h₀ h hin htask hprog (fun code c =>
    code.isContinuable = false → c.store = { s.world.store with status := .disconnected })
    (fun acts code ha => ?_) hc
  refine (Terms.along_of_always fun _ => trivial).2 fun hc => ?_
  have hstore := ha.store fun _ => id
  rw [hc, if_neg Bool.false_ne_true] at hstore
  exact hstore

/-- A tunnel is resumed and remembered, and a start that replaces it fails. -/
theorem resumed_tunnel_remembered :
    resumedService.world.store.tunnel = some completeTunnel.toJson ∧
    resumedService.world.store.status = .connected ∧
    ∃ s : Machine,
      s.world.store = { replacingService.world.store with status := .disconnected } := by
  have h₁ : Reach Remembers rememberingService resumedService :=
    reach_resumedService (by simp [resuming, Remembers, Machine.Orderly, Writable])
  have h₂ : Reach Remembers resumedService replacingService :=
    reach_replacingService (by simp [replacing, Remembers, Machine.Orderly, Writable])
  obtain ⟨-, hrest⟩ := store_remembers_connected h₁
  obtain ⟨ht, hs⟩ := (hrest atRest_resumedService).2 completeTunnel rfl
  refine ⟨ht, hs, ?_⟩
  have hl : ∀ s, Remembers s (.turn 2 {}) := fun _ => ⟨trivial, by simp [Writable]⟩
  obtain ⟨s, hp⟩ := performs_replacingService hl
  exact ⟨s, (store_remembers_connected (h₁.trans h₂)).1 2 incompleteTunnel false afterStart _ s _
    inside_replacingService task_replacingService rfl hp rfl⟩

end TunnelKeeper.Service
