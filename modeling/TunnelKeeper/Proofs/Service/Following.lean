import TunnelKeeper.Proofs.Service.Adapting
import TunnelKeeper.Proofs.Service.Modes

/-!
# Following — the mode after a network has become available

A reactor that learns of a network checks datagrams once more, and restarts the tunnel if the result
differs from the flag in the store.  So the mode that the interface is left with follows the network
as long as the store keeps the mode that the interface is connected with, which a flag that cannot
be written may spoil.

* `achieves_onAvailable`: what a reactor achieves that nobody disturbs.
* `mode_follows_flag`: the mode that the interface is left with, for every run.
* `unwritten_flag_keeps_mode`: after a flag could not be written, the mode does not follow.
-/

namespace TunnelKeeper.Service

/-! ### The mode that is left -/

variable {A : Assumption} {units : Units} {c : Custody}

/-- The mode that the interface is left with, if a tunnel is up, after a reactor has got `b` where
the store has the flag `flag`. -/
def modeAfter (b flag : Bool) (mode : Option Bool) : Option Bool :=
  if b = flag then mode else some b

theorem connectedMode_recheckActs (c : Custody) (d : Descriptor) (udp written : Bool) :
    connectedMode (c.afterAll (recheckActs d udp written)).deeds = connectedMode c.deeds := by
  rw [c.deeds_afterAll, connectedMode_append]
  rfl

/-- The tunnel is restarted if the check does not agree with the flag in the store. -/
theorem Adapted.mode {b : Bool} {c' : Custody} (h : Adapted A c c')
    (hb : ∀ proxy, A.outcome (.checkUdp proxy) = some b) (up : c'.session.active ≠ none) :
    c.session.active ≠ none ∧
      connectedMode c'.deeds = modeAfter b c.store.udpSupported (connectedMode c.deeds) := by
  cases h with
  | idle hn => exact absurd hn up
  | recorded hd hu _ hs =>
      refine ⟨hd ▸ nofun, ?_⟩
      rw [connectedMode_recheckActs, modeAfter, if_pos ((hu b hb).symm.trans hs)]
  | @restarted d udp around acts code hd hu _ hs ha hc =>
      refine ⟨hd ▸ nofun, ?_⟩
      -- It is up again, so the start has gone through, with the mode that the check gave.
      have hends := ha.ends
      have hmode := ha.mode
      cases hk : code.isContinuable with
      | false =>
          rw [hk, if_neg Bool.false_ne_true] at hends
          exact absurd hends.1 up
      | true =>
          rw [hk, if_pos rfl] at hmode
          have hstart : (code == .noError) = b := hc hk b hb
          have hflag : b ≠ c.store.udpSupported := hu b hb ▸ hs
          rw [Custody.deeds_afterAll, connectedMode_append, hmode.1, modeAfter, if_neg hflag]
          exact congrArg some hstart

/-- **A network has become available**, and nobody disturbs the reactor. -/
theorem achieves_onAvailable {b : Bool} {limits : Limits} {network : NetworkId}
    (hnet : ∀ around, A.rely around → around.networkState network = some .connected)
    (hb : ∀ proxy, A.outcome (.checkUdp proxy) = some b) :
    Achieves A (fun _ _ c' => c'.session.active ≠ none → c.session.active ≠ none ∧
        connectedMode c'.deeds = modeAfter b c.store.udpSupported (connectedMode c.deeds))
      units none c (Program.react limits (.available network)) := by
  refine achieves_react fun units c' h up => ?_
  cases h with
  | unconnected hr hn => exact absurd (hnet _ hr) hn
  | connected _ _ h => exact h.mode hb up

/-! ### Every run -/

/-- A network is connected, and datagrams are relayed, or not, whenever that is checked. -/
def measuring (network : NetworkId) (b : Bool) : Assumption where
  rely around := around.networkState network = some .connected
  outcome
    | .checkUdp _ => some b
    | _ => none

/-- **The mode follows the flag.**  In every run, whatever fails to be written: if a reactor that
nobody disturbs comes to its end with a network that has become available, where every check of
datagrams gives `b`, and a tunnel is up then, its mode is `b`, unless `b` was the flag in the store
already.  So the mode is `b` wherever flags can be written, and no flag was written since the
interface was connected. -/
theorem mode_follows_flag {limits : Limits} {poolSize : Nat} {store : Store.Persisted}
    {s s' : Machine} {t : TaskId} {task : Task} {network : NetworkId} {b : Bool} {r : Reply}
    (h : Reach Machine.Orderly (Machine.fresh limits poolSize store) s) (hr : s.AtRest)
    (htask : s.tasks[t]? = some task) (ha : task.alive = true)
    (hp : task.program = (Program.react s.limits (.available network)).bind fun _ => Task.idle)
    (h' : Reach (Machine.Undisturbed (measuring network b) t) s s') (hreply : s'.reply? t = some r)
    (up : s'.world.session.active ≠ none) :
    connectedMode s'.world.deeds =
      modeAfter b s.world.store.udpSupported (connectedMode s.world.deeds) ∧
    (Reach KeepsFlags (Machine.fresh limits poolSize store) s →
      connectedMode s.world.deeds = knownMode s.world.deeds →
        connectedMode s'.world.deeds = some b) := by
  obtain ⟨o, hk⟩ := (h.mono fun _ _ => allows_loose).kept loose_lasting (kept_loose ..)
  have achieves : Achieves (measuring network b) (fun _ _ c' => c'.session.active ≠ none →
      s.world.session.active ≠ none ∧ connectedMode c'.deeds =
        modeAfter b s.world.store.udpSupported (connectedMode s.world.deeds))
      (unitsOf s.pool t) none s.world.custody task.program := by
    rw [hp]
    refine .bind (Achieves.mono ?_ (achieves_onAvailable (fun _ => id) fun _ => rfl))
    exact fun _ _ _ hmode => ⟨rfl, hmode⟩
  obtain ⟨hbefore, hmode⟩ := (Achieves.reach hk hr htask ha achieves h' hreply).2 up
  refine ⟨hmode, fun hkeeps hknown => ?_⟩
  obtain ⟨d, hd⟩ := Option.ne_none_iff_exists'.1 hbefore
  have hmoded : Moded s.world.custody :=
    (hkeeps.mono fun _ _ => allows_moded).atRest moded_lasting (kept_moded ..) hr
  have hstored : connectedMode s.world.deeds = some s.world.store.udpSupported :=
    hknown.trans (hmoded d hd)
  refine hmode.trans ?_
  by_cases hflag : b = s.world.store.udpSupported
  · rw [modeAfter, if_pos hflag, hstored, hflag]
  · exact if_neg hflag

/-! ### A network becomes available -/

/-- Every network is connected. -/
def networked : Surroundings := { networkState := fun _ => some .connected }

/-- The first reactor has been told that a network is available. -/
def hearing (network : NetworkId) : Task :=
  ⟨(Program.react {} (.available network)).bind fun _ => Task.idle, some 0, true⟩

/-- A network has become available under the tunnel that was resumed. -/
def hearingService : Machine :=
  (resumedService.run? [.deliver 0 (.available 7), .turn 1 {}]).get (by rfl)

/-- Datagrams are relayed there, and the tunnel is restarted. -/
def adapting : List Label := List.flatten
  [.replicate 11 (.turn 1 networked), carryOut 1 true, .replicate 18 (.turn 1 networked),
    carryOut 2 true, .replicate 6 (.turn 1 networked), carryOut 3 true,
    .replicate 17 (.turn 1 networked)]

def adaptedService : Machine :=
  (hearingService.checkedRun? (Machine.isUndisturbed (measuring 7 true) 1) adapting).get (by rfl)

theorem undisturbed_of_networked {network : NetworkId} {b : Bool} {t : TaskId}
    {around : Surroundings} (hnet : around.networkState network = some .connected)
    {labels : List Label} (hl : ∀ i around', .turn i around' ∈ labels → around' = around)
    {s s' : Machine}
    (hs : s.checkedRun? (Machine.isUndisturbed (measuring network b) t) labels = some s') :
    Reach (Machine.Undisturbed (measuring network b) t) s s' := by
  refine .of_checkedRun? (fun l hmem s hcheck => Machine.undisturbed_of_check hcheck ?_) hs
  rintro i around' rfl
  rw [hl i around' hmem]
  exact hnet

/-- A tunnel that was resumed without datagrams goes on with them. -/
theorem adapted_mode_follows : connectedMode adaptedService.world.deeds = some true := by
  have h : Reach KeepsFlags rememberingService hearingService := by
    refine Reach.trans (reach_resumedService ?_) (.of_run? ?_ (Option.some_get _).symm)
    · simp [resuming, KeepsFlags, Machine.Orderly, FlagsWritable]
    · simp [KeepsFlags, Machine.Orderly, FlagsWritable]
  have htask : hearingService.tasks[1]? = some (hearing 7) := rfl
  have hl : ∀ i around, .turn i around ∈ adapting → around = networked := by simp [adapting]
  exact (mode_follows_flag (h.mono fun _ _ h => h.1) (Machine.atRest_of_free rfl) htask rfl rfl
    (undisturbed_of_networked rfl hl (Option.some_get _).symm) rfl
    (Option.ne_none_iff_exists'.2 ⟨completeTunnel, rfl⟩)).2 h rfl

/-- No flag can be written. -/
def flagless : Surroundings where
  networkState _ := some .connected
  writes
    | .udpSupported _ => false
    | _ => true

/-- A tunnel is started with datagrams, which cannot be remembered, and a network becomes
available. -/
def starting : List Label := List.flatten
  [[.call (.start completeTunnel.id completeTunnel.config)], .replicate 7 (.turn 0 flagless),
    carryOut 0 true, .replicate 6 (.turn 0 flagless), carryOut 1 true,
    .replicate 21 (.turn 0 flagless), [.deliver 0 (.available 7), .turn 1 {}]]

def forgetfulService : Machine := (rememberingService.run? starting).get (by rfl)

/-- Datagrams are not relayed any more, as the store has had it all along. -/
def overlooking : List Label := List.flatten
  [.replicate 11 (.turn 1 flagless), carryOut 4 false, .replicate 7 (.turn 1 flagless)]

def unadaptedService : Machine :=
  (forgetfulService.checkedRun? (Machine.isUndisturbed (measuring 7 false) 1) overlooking).get
    (by rfl)

/-- A tunnel whose flag could not be written keeps its mode when the network has another one. -/
theorem unwritten_flag_keeps_mode : ¬∀ (s s' : Machine) (task : Task) (b : Bool) (r : Reply),
    Reach Machine.Orderly rememberingService s → s.AtRest → s.tasks[1]? = some task →
      task.alive = true →
      task.program = (Program.react s.limits (.available 7)).bind (fun _ => Task.idle) →
      Reach (Machine.Undisturbed (measuring 7 b) 1) s s' → s'.reply? 1 = some r →
      s'.world.session.active ≠ none → connectedMode s'.world.deeds = some b := by
  intro h
  have hl : ∀ l ∈ starting, ∀ s : Machine, s.Orderly l := by simp [starting, Machine.Orderly]
  have hreach : Reach Machine.Orderly rememberingService forgetfulService :=
    .of_run? hl (Option.some_get _).symm
  have hturns : ∀ i around, .turn i around ∈ overlooking → around = flagless := by
    simp [overlooking]
  have hundisturbed : Reach (Machine.Undisturbed (measuring 7 false) 1) forgetfulService
      unadaptedService := undisturbed_of_networked rfl hturns (Option.some_get _).symm
  have hmode := h _ _ (hearing 7) _ _ hreach (Machine.atRest_of_free rfl) rfl rfl rfl hundisturbed
    rfl (Option.ne_none_iff_exists'.2 ⟨completeTunnel, rfl⟩)
  exact absurd hmode (by decide +kernel)

end TunnelKeeper.Service
