import TunnelKeeper.Proofs.Service.Givens

/-!
# Adapting — what a reactor makes of an event

A reactor that nobody disturbs leaves a custody that can be told from the one that it found.  It
changes nothing, or it reports; and where it has found a network connected, it records what it has
checked, and restarts the tunnel if that is not what the store had (`Adapted`, `Reacted`).

* `achieves_followUp`: what is achieved once a reactor knows how a network stands.
* `achieves_react`: what is achieved by whatever a reactor does about an event.
-/

namespace TunnelKeeper

/-! ### A tunnel is the same as itself -/

namespace Json

theorem Number.same_self (n : Number) : n.same n = true := by
  cases n <;> simp [Number.same, Double.sameNumber]

mutual

theorem same_self : ∀ j : Json, same j j = true
  | .null => rfl
  | .bool b => by simp [same]
  | .number n => by simp [same, n.same_self]
  | .text s => by simp [same]
  | .list items => by simp [same, sameItems_self items]
  | .object entries => by simp [same, sameEntries_self entries]

theorem sameItems_self : ∀ items : List Json, sameItems items items = true
  | [] => rfl
  | j :: items => by simp [sameItems, same_self j, sameItems_self items]

theorem sameEntries_self : ∀ entries : List (String × Json), sameEntries entries entries = true
  | [] => rfl
  | (key, j) :: entries => by simp [sameEntries, same_self j, sameEntries_self entries]

end

end Json

theorem Descriptor.isSame_self (d : Descriptor) : Descriptor.isSame (some d) d = true := by
  simp [Descriptor.isSame, Descriptor.same, TunnelConfig.same, Json.sameEntries_self]

namespace Service

variable {A : Assumption} {units : Units} {c : Custody}

/-! ### What is checked -/

/-- What a check gives is what every check of datagrams is assumed to give, if that is assumed. -/
def Assumption.Agrees (A : Assumption) (udp : Bool) : Prop :=
  ∀ b, (∀ proxy, A.outcome (.checkUdp proxy) = some b) → udp = b

/-- What is given in each of several cases is given in all of them. -/
theorem Given.forall {α ι : Type} {p : ι → Prop} {post : ι → Units → α → Prop}
    {program : Program α} (h : ∀ i, p i → Given A (post i) units program) :
    Given A (fun units a => ∀ i, p i → post i units a) units program := by
  induction program generalizing units with
  | done a => exact h
  | ask q next ih => exact fun a ha => ih a fun i hi => h i hi a ha

/-- The code of a restart agrees with the checks, if it can be continued with. -/
theorem given_restart (limits : Limits) (d : Descriptor) :
    Given A (fun _ code => ∀ b, (∀ proxy, A.outcome (.checkUdp proxy) = some b) →
      code.isContinuable = true → (code == .noError) = b)
      units (Program.startLocked limits d false) :=
  .forall fun _ hb =>
    given_startLocked (given_probing hb limits d.config) fun _ _ _ _ => nofun

/-! ### The programs of a reactor -/

/-- A report on a tunnel. -/
def reportActs (d : Descriptor) (status : Status) : List Act :=
  [.deed (.called (.emit (.changed (some d.id) status)) ()),
    .deed (.called (.present (.display d.config.serverName status)) ()), .publishStatus status]

theorem achieves_reportStatus {status : Status}
    {post : Units → Option Descriptor → Custody → Prop}
    (idle : c.session.active = none → post units none c)
    (reports : ∀ d, c.session.active = some d →
      post units (some d) (c.afterAll (reportActs d status))) :
    Achieves A post units none c (Program.reportStatus status) := by
  refine .lock (.session ?_)
  cases hd : c.session.active with
  | none => exact .unlock ⟨rfl, idle hd⟩
  | some d =>
      refine .call fun _ _ _ => .call fun _ _ _ => .publishStatus (.unlock ⟨rfl, ?_⟩)
      exact reports d hd

theorem achieves_recordUdp {d : Descriptor} {udp : Bool}
    {post : Units → Option Bool → Custody → Prop}
    (hd : Descriptor.isSame c.session.active d = true)
    (h : ∀ around, A.rely around → post units (some c.store.udpSupported)
      (c.after (.deed (.called (.write (.udpSupported udp)) (around.writes (.udpSupported udp)))))) :
    Achieves A post units none c (Program.recordUdp d udp) := by
  refine .lock (.session ?_)
  rw [if_pos hd]
  refine .call fun previous hprevious _ => .call fun written _ hwritten => .unlock ⟨rfl, ?_⟩
  obtain ⟨_, -, rfl⟩ := hprevious
  obtain ⟨_, around, hrely, rfl⟩ := hwritten
  exact h around hrely

/-- What a check of datagrams comes to while nobody disturbs the task that waits for it. -/
theorem achieves_probeUdp {post : Units → Bool → Custody → Prop} (span : Option Time)
    (proxy : SocketAddress) (h : ∀ units udp, A.Agrees udp → post units udp c) :
    Achieves A post units none c (Program.probeUdp span proxy) := by
  refine .free rfl fun id _ => .bind (.free rfl fun start _ => .free rfl fun joined hj => ?_)
  have checked : ∀ b, (∀ proxy, A.outcome (.checkUdp proxy) = some b) → joined = .value b :=
    fun b hb => hj _ b (if_pos rfl) (hb proxy)
  cases joined with
  | value udp =>
      refine ⟨rfl, .free rfl fun _ _ => ⟨rfl, h _ udp fun b hb => ?_⟩⟩
      cases checked b hb
      rfl
  | panicked | refused | timedOut =>
      exact ⟨rfl, .free rfl fun _ _ => ⟨rfl, h _ false fun b hb => nomatch checked b hb⟩⟩

theorem achieves_restartIfActive {limits : Limits} {d : Descriptor}
    {post : Units → Option ErrorCode → Custody → Prop} {given : Units → ErrorCode → Prop}
    (hd : Descriptor.isSame c.session.active d = true)
    (hg : Given A given units (Program.startLocked limits d false))
    (h : ∀ acts code units, Attempt .loose c d false acts code → given units code →
      post units (some code) (c.afterAll acts)) :
    Achieves A post units none c (Program.restartIfActive limits d) := by
  refine .lock (.session ?_)
  rw [if_pos hd]
  refine achieves_startLocked hg fun acts code units ha hcode => ?_
  exact .unlock ⟨rfl, h acts code units ha hcode⟩

/-- A report, and what is checked is recorded. -/
def recheckActs (d : Descriptor) (udp written : Bool) : List Act :=
  reportActs d .connected ++ [.deed (.called (.write (.udpSupported udp)) written)]

/-! ### What is left -/

/-- **What a reactor leaves** of the custody that it found, once it knows that a network is
connected. -/
inductive Adapted (A : Assumption) (c : Custody) : Custody → Prop where
  | idle (h : c.session.active = none) : Adapted A c c
  | recorded {d : Descriptor} {udp : Bool} {around : Surroundings} (hd : c.session.active = some d)
      (hu : A.Agrees udp) (hr : A.rely around) (hs : udp = c.store.udpSupported) :
      Adapted A c (c.afterAll (recheckActs d udp (around.writes (.udpSupported udp))))
  | restarted {d : Descriptor} {udp : Bool} {around : Surroundings} {acts : List Act}
      {code : ErrorCode} (hd : c.session.active = some d) (hu : A.Agrees udp) (hr : A.rely around)
      (hs : udp ≠ c.store.udpSupported)
      (ha : Attempt .loose (c.afterAll (recheckActs d udp (around.writes (.udpSupported udp)))) d
        false acts code)
      (hc : code.isContinuable = true → A.Agrees (code == .noError)) :
      Adapted A c
        ((c.afterAll (recheckActs d udp (around.writes (.udpSupported udp)))).afterAll acts)

/-- **What a reactor leaves** of the custody that it found, after an event. -/
inductive Reacted (A : Assumption) (c : Custody) : NetworkEvent → Custody → Prop where
  | unconnected {network : NetworkId} {around : Surroundings} (hr : A.rely around)
      (hn : around.networkState network ≠ some .connected) : Reacted A c (.available network) c
  | connected {network : NetworkId} {around : Surroundings} {c' : Custody} (hr : A.rely around)
      (hn : around.networkState network = some .connected) (h : Adapted A c c') :
      Reacted A c (.available network) c'
  | elsewhere {network : NetworkId} {around : Surroundings} (hr : A.rely around)
      (hn : around.activeNetwork = some .connected) : Reacted A c (.lost network) c
  | unreported {network : NetworkId} {around : Surroundings} (hr : A.rely around)
      (hn : around.activeNetwork ≠ some .connected) (h : c.session.active = none) :
      Reacted A c (.lost network) c
  | reported {network : NetworkId} {around : Surroundings} {d : Descriptor} (hr : A.rely around)
      (hn : around.activeNetwork ≠ some .connected) (hd : c.session.active = some d) :
      Reacted A c (.lost network) (c.afterAll (reportActs d .reconnecting))

/-- What a reactor does once it knows how a network stands. -/
def Program.followUp (limits : Limits) (network : NetworkId) (state : Option NetworkState) :
    Program Unit := do
  if state == some .connected then
    match ← reportStatus .connected with
    | none => return ()
    | some active =>
      let _ ← call (.bindNetwork (some network))
      recheckUdp limits active

theorem Program.onAvailable_eq (limits : Limits) (network : NetworkId) :
    onAvailable limits network = (networkState network).bind (followUp limits network) :=
  rfl

/-- **A reactor knows how a network stands**, and nobody disturbs it. -/
theorem achieves_followUp {limits : Limits} {network : NetworkId} {state : Option NetworkState}
    {post : Units → Unit → Custody → Prop} (unconnected : state ≠ some .connected → post units () c)
    (connected : state = some .connected → ∀ units c', Adapted A c c' → post units () c') :
    Achieves A post units none c (Program.followUp limits network state) := by
  by_cases hstate : state = some .connected
  · subst hstate
    have connected := connected rfl
    refine .bind (achieves_reportStatus (fun hn => ⟨rfl, connected _ _ (.idle hn)⟩) fun d hd => ?_)
    have same : Descriptor.isSame (c.afterAll (reportActs d .connected)).session.active d = true :=
      hd ▸ d.isSame_self
    refine .free rfl fun _ _ => .free rfl fun proxy _ => .bind ?_
    refine achieves_probeUdp _ proxy fun units udp hu => .bind ?_
    refine achieves_recordUdp same fun around hr => ?_
    show Achieves A _ units none
      (c.afterAll (recheckActs d udp (around.writes (.udpSupported udp))))
      (if udp != c.store.udpSupported then _ else _)
    by_cases hflag : udp = c.store.udpSupported
    · rw [if_neg (by simpa using hflag)]
      exact ⟨rfl, connected _ _ (.recorded hd hu hr hflag)⟩
    · rw [if_pos (by simpa using hflag)]
      refine .bind (achieves_restartIfActive same (given_restart limits d) ?_)
      exact fun acts code units ha hc =>
        ⟨rfl, connected _ _ (.restarted hd hu hr hflag ha fun hk b hb => hc b hb hk)⟩
  · have hn : ¬(state == some .connected) = true := by simpa using hstate
    show Achieves A post units none c (if state == some .connected then _ else _)
    rw [if_neg hn]
    exact ⟨rfl, unconnected hstate⟩

/-- **A reactor has taken an event**, and nobody disturbs it. -/
theorem achieves_react {limits : Limits} {e : NetworkEvent} {post : Units → Unit → Custody → Prop}
    (h : ∀ units c', Reacted A c e c' → post units () c') :
    Achieves A post units none c (Program.react limits e) := by
  cases e with
  | available network =>
      rw [Program.react, Program.onAvailable_eq]
      refine .free rfl fun state ⟨_, around, hr, hstate⟩ => ?_
      have hstate : around.networkState network = state := hstate
      exact achieves_followUp (fun hn => h _ _ (.unconnected hr (hstate ▸ hn)))
        fun hn units c' hc' => h _ _ (.connected hr (hstate.trans hn) hc')
  | lost network =>
      refine .free rfl fun (state : Option NetworkState) ⟨_, around, hr, hstate⟩ => ?_
      have hstate : around.activeNetwork = state := hstate
      show Achieves A post units none c (if state == some .connected then _ else _)
      by_cases hn : state = some .connected
      · rw [if_pos (by simpa using hn)]
        exact ⟨rfl, h _ _ (.elsewhere hr (hstate.trans hn))⟩
      · rw [if_neg (by simpa using hn)]
        have hn : around.activeNetwork ≠ some .connected := hstate ▸ hn
        refine .bind (achieves_reportStatus (fun hidle => ?_) fun d hd => ?_)
        · exact ⟨rfl, h _ _ (.unreported hr hn hidle)⟩
        · exact .free rfl fun _ _ => ⟨rfl, h _ _ (.reported hr hn hd)⟩

end Service

end TunnelKeeper
