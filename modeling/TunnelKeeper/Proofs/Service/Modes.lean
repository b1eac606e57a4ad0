import TunnelKeeper.Proofs.Service.Standing

/-!
# Modes — with or without datagrams

The interface is connected with datagrams or without them.  Which of the two it was last is read off
the deeds (`connectedMode`), and so is which of the two is right as far as the service knows
(`knownMode`): a reactor may have recorded another one since.  The store keeps what is known, as
long as flags can be written.

* `Attempt.mode`: what a start makes of the mode.
* `moded_lasting`: the store keeps the mode that is known of the active tunnel.
-/

namespace TunnelKeeper.Service

/-! ### Modes -/

/-- The mode that a deed connects the interface with. -/
def Deed.connected? : Deed → Option Bool
  | .called (.connect _ udp) true => some udp
  | _ => none

/-- The flag that a deed writes to the store, if that works. -/
def Deed.flag? : Deed → Option Bool
  | .called (.write (.udpSupported udp)) true => some udp
  | _ => none

/-- The mode that is known by a deed: the interface is connected with it, or it is recorded. -/
def Deed.mode? (x : Deed) : Option Bool := x.connected?.or x.flag?

/-- **The mode that the interface was last connected with.** -/
def connectedMode (deeds : List Deed) : Option Bool := (deeds.filterMap Deed.connected?).getLast?

/-- **The mode that is known** of the tunnel that was last connected. -/
def knownMode (deeds : List Deed) : Option Bool := (deeds.filterMap Deed.mode?).getLast?

theorem connectedMode_append (deeds more : List Deed) :
    connectedMode (deeds ++ more) = (connectedMode more).or (connectedMode deeds) := by
  simp [connectedMode, List.filterMap_append, List.getLast?_append]

theorem knownMode_append (deeds more : List Deed) :
    knownMode (deeds ++ more) = (knownMode more).or (knownMode deeds) := by
  simp [knownMode, List.filterMap_append, List.getLast?_append]

/-- Nothing is connected and no flag is written. -/
def Act.keepsMode : Act → Bool
  | .deed x => x.mode?.isNone
  | _ => true

/-- What keeps the mode leaves it. -/
theorem mode_of_keeps {acts : List Act} (h : acts.all Act.keepsMode = true) :
    connectedMode (deedsOf acts) = none ∧ knownMode (deedsOf acts) = none := by
  have none : ∀ x ∈ deedsOf acts, x.mode? = none := by
    intro x hx
    obtain ⟨act, hact, hdeed⟩ := List.mem_filterMap.1 hx
    have hkeeps := List.all_eq_true.1 h act hact
    cases act with
    | deed y =>
        cases hdeed
        simpa [Act.keepsMode] using hkeeps
    | _ => cases hdeed
  have connected : ∀ x ∈ deedsOf acts, x.connected? = .none := by
    intro x hx
    have hmode := none x hx
    unfold Deed.mode? at hmode
    exact (Option.or_eq_none_iff.1 hmode).1
  unfold connectedMode knownMode
  rw [List.filterMap_eq_nil_iff.2 none, List.filterMap_eq_nil_iff.2 connected]
  exact ⟨rfl, rfl⟩

theorem keepsMode_openingActs (old : Option Descriptor) (d : Descriptor) :
    (openingActs old d).all Act.keepsMode = true := by
  cases old <;> rfl

theorem ProxyStart.keepsMode {config : TunnelConfig} {probing : Bool} {acts : List Act}
    {code : ErrorCode} (h : ProxyStart config probing acts code) :
    acts.all Act.keepsMode = true := by
  cases h <;> rfl

theorem Ready.keepsMode {session : Session} {acts : List Act} {monitored : Bool}
    (h : Ready session acts monitored) : acts.all Act.keepsMode = true := by
  cases h with
  | reused | followed => rfl
  | fresh => cases monitored <;> rfl

theorem keepsMode_failActs (d : Descriptor) (code : ErrorCode)
    (monitored unregistered written : Bool) :
    (failActs d code monitored unregistered written).all Act.keepsMode = true := by
  cases monitored <;> rfl

/-- The mode that a start takes: an automatic one relies on the store, any other on its probe. -/
def startMode (c : Custody) (auto : Bool) (code : ErrorCode) : Bool :=
  if auto then c.store.udpSupported else code == .noError

/-- **The mode that a start connects with**, if it comes so far. -/
theorem Attempt.mode {T : Terms} {c : Custody} {d : Descriptor} {auto : Bool} {acts : List Act}
    {code : ErrorCode} (h : Attempt T c d auto acts code) :
    if code.isContinuable then
      Service.connectedMode (deedsOf acts) = some (startMode c auto code) ∧
        knownMode (deedsOf acts) = some (startMode c auto code)
    else Service.connectedMode (deedsOf acts) = none ∧ knownMode (deedsOf acts) = none := by
  have opening := keepsMode_openingActs c.session.active d
  have down : ErrorCode.vpnStartFailure.isContinuable = false := rfl
  cases h with
  | noProxy hp hc =>
      rw [hc, if_neg Bool.false_ne_true]
      refine mode_of_keeps ?_
      rw [List.all_append, List.all_append, opening, hp.keepsMode, keepsMode_failActs]
      rfl
  | noInterface hp =>
      rw [down, if_neg Bool.false_ne_true]
      refine mode_of_keeps ?_
      rw [List.all_append, List.all_append, List.all_cons, opening, hp.keepsMode,
        keepsMode_failActs]
      rfl
  | noConnection hp _ hr =>
      rw [down, if_neg Bool.false_ne_true]
      refine mode_of_keeps ?_
      rw [List.all_append, List.all_append, List.all_append, List.all_cons, opening, hp.keepsMode,
        hr.keepsMode, keepsMode_failActs]
      rfl
  | @connected acts ready code monitored hp hc hr address saved savedUdp savedStatus =>
      rw [hc, if_pos rfl]
      have before :
          (openingActs c.session.active d ++ (acts ++ ready)).all Act.keepsMode = true := by
        rw [List.all_append, List.all_append, opening, hp.keepsMode, hr.keepsMode]
        rfl
      obtain ⟨hconnected, hknown⟩ := mode_of_keeps before
      rw [← List.append_assoc acts, ← List.append_assoc, deedsOf_append, connectedMode_append,
        knownMode_append, hconnected, hknown]
      cases savedUdp <;> exact ⟨rfl, rfl⟩

/-! ### The terms -/

/-- Flags can be written. -/
def FlagsWritable (around : Surroundings) : Prop := ∀ udp, around.writes (.udpSupported udp) = true

/-- The store keeps the mode that is known of the active tunnel. -/
def Moded (c : Custody) : Prop :=
  ∀ d, c.session.active = some d → knownMode c.deeds = some c.store.udpSupported

def moded : Terms := { rely := FlagsWritable, rest := Moded }

/-- Where flags can be written, the store keeps the mode that a start has taken. -/
theorem Attempt.flag {T : Terms} (hT : ∀ around, T.rely around → FlagsWritable around) {c : Custody}
    {d : Descriptor} {auto : Bool} {acts : List Act} {code : ErrorCode}
    (h : Attempt T c d auto acts code) (hc : code.isContinuable = true) :
    (c.afterAll acts).store.udpSupported = startMode c auto code := by
  cases h with
  | noProxy _ hn => exact absurd (hc.symm.trans hn) nofun
  | noInterface | noConnection => cases hc
  | connected _ _ _ _ _ hu hs =>
      obtain ⟨around, hr, rfl⟩ := hu
      rw [hT around hr, Custody.afterAll_append, Custody.afterAll_append, Custody.afterAll_append,
        afterAll_announceActs]
      obtain ⟨_, -, rfl⟩ := hs
      cases Surroundings.writes _ (.status .connected) <;> rfl

theorem Attempt.moded {T : Terms} (hT : ∀ around, T.rely around → FlagsWritable around) {c : Custody}
    {d : Descriptor} {auto : Bool} {acts : List Act} {code : ErrorCode}
    (h : Attempt T c d auto acts code) : Moded (c.afterAll acts) := by
  intro d' hd'
  have hends := h.ends
  have hmode := h.mode
  cases hc : code.isContinuable with
  | true =>
      rw [hc, if_pos rfl] at hmode
      rw [h.flag hT hc, c.deeds_afterAll, knownMode_append, hmode.2]
      rfl
  | false =>
      rw [hc, if_neg Bool.false_ne_true] at hends
      exact absurd (hends.1.symm.trans hd') nofun

/-- Where nothing becomes active, and neither the mode nor the flag changes. -/
theorem Moded.quiet {c : Custody} (h : Moded c) {acts : List Act}
    (hk : acts.all Act.keepsMode = true)
    (ht : (c.afterAll acts).store.udpSupported = c.store.udpSupported)
    (hs : (c.afterAll acts).session.active = c.session.active) : Moded (c.afterAll acts) := by
  intro d hd
  rw [c.deeds_afterAll, knownMode_append, (mode_of_keeps hk).2, ht]
  exact h d (hs ▸ hd)

/-- Where everything is taken down, no tunnel is active. -/
theorem active_tearDown (c : Custody) (acts : List Act) (monitored unregistered written : Bool)
    (d : Descriptor) :
    (c.afterAll (acts ++ tearDownActs monitored unregistered written)).session.active ≠ some d := by
  rw [Custody.afterAll_append, afterAll_tearDownActs]
  nofun

/-- **Every section leaves the store with the mode that is known.** -/
theorem moded_lasting : moded.Lasting where
  met := ⟨{}, fun _ => rfl⟩
  kept c acts _ hr h := by
    refine (Terms.along_of_always fun _ => trivial).2 ?_
    have hr : Moded c := hr
    cases h with
    | looked => exact hr
    | started h => exact h.moded fun _ => id
    | resumed d acts code loaded h =>
        rw [Custody.afterAll_append]
        exact h.moded fun _ => id
    | unloaded | unprepared | reported => exact hr.quiet rfl rfl rfl
    | stopped | revoked => exact fun d hd => absurd hd (active_tearDown c [_] _ _ _ d)
    | destroyed => exact fun d hd => absurd hd (active_tearDown c [] _ _ _ d)
    | recorded udp hw =>
        obtain ⟨around, hflags, rfl⟩ := hw
        intro d hd
        rw [hflags udp, c.deeds_afterAll, knownMode_append]
        rfl

/-- Any steps, as long as flags can be written to the store. -/
def KeepsFlags (s : Machine) (l : Label) : Prop :=
  s.Orderly l ∧ ∀ t around, l = .turn t around → FlagsWritable around

theorem allows_moded {s : Machine} {l : Label} (h : KeepsFlags s l) : moded.Allows s l :=
  ⟨h.1, fun _ => trivial, h.2⟩

theorem kept_moded (limits : Limits) (poolSize : Nat) (store : Store.Persisted) :
    Kept moded (Machine.fresh limits poolSize store) none :=
  .fresh limits poolSize store trivial nofun

end TunnelKeeper.Service
