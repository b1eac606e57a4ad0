import TunnelKeeper.Proofs.Service.Flags
import TunnelKeeper.Proofs.Service.Following
import TunnelKeeper.Proofs.Service.Vigil

/-!
# Restarts — at most one, while checks give the same

Two ways lead to the flag in the store: a reactor records what it has checked, and the start that it
may make after that records what its own probe has given.  As long as datagrams are relayed whenever
that is checked, or never are, both come to the same flag (`Adapted.calm`), so once it is there no
reaction restarts the tunnel (`Reacted.deeds_of_calm`).

* `no_restart_storm`: a vigil restarts a tunnel at most once, and keeps the flag that was checked.
-/

namespace TunnelKeeper.Service

variable {b : Bool} {c c' : Custody} {e : NetworkEvent}

/-! ### A flag that agrees -/

/-- Writes to the store work, and datagrams are relayed, or not, whenever that is checked. -/
def steady (b : Bool) : Assumption where
  rely around := ∀ u, around.writes u = true
  outcome
    | .checkUdp _ => some b
    | _ => none

/-- **The flag agrees with the checks**, if a tunnel is active. -/
def Calm (b : Bool) (c : Custody) : Prop := c.session.active ≠ none → c.store.udpSupported = b

/-- A start that probes leaves a flag that agrees with its probe, whatever of it is written. -/
theorem Attempt.flag_stays {T : Terms} {d : Descriptor} {auto : Bool} {acts : List Act}
    {code : ErrorCode} (h : Attempt T c d auto acts code) (hb : c.store.udpSupported = b)
    (hm : code.isContinuable = true → startMode c auto code = b) :
    (c.afterAll acts).store.udpSupported = b := by
  cases hc : code.isContinuable with
  | false =>
      cases h.outcome with
      | connected hk => exact absurd (hc.symm.trans hk) nofun
      | failed _ hp _ _ written =>
          obtain ⟨-, -, -, hstore⟩ :=
            afterAll_preparation hp (c.afterAll (openingActs c.session.active d))
          rw [Custody.afterAll_append, Custody.afterAll_append, afterAll_failActs, hstore,
            afterAll_openingActs]
          cases written <;> exact hb
  | true =>
      have hm := hm hc
      cases h with
      | noProxy _ hn => exact absurd (hc.symm.trans hn) nofun
      | noInterface | noConnection => cases hc
      | @connected acts ready code monitored hp _ hr address saved savedUdp savedStatus =>
          obtain rfl := hp.up hc
          obtain ⟨-, -, -, hstore⟩ := afterAll_preparation (hr.preparation d.config (some true))
            (c.afterAll (openingActs c.session.active d))
          rw [← List.append_assoc (proxyActs _ _), Custody.afterAll_append, Custody.afterAll_append,
            afterAll_announceActs, hstore, afterAll_openingActs]
          cases savedUdp with
          | true => cases savedStatus <;> exact hm
          | false => cases savedStatus <;> cases saved <;> exact hb

/-- **A reactor that has found a network connected leaves a flag that agrees.** -/
theorem Adapted.calm (h : Adapted (steady b) c c') : Calm b c' := by
  cases h with
  | idle hn => exact fun up => absurd hn up
  | @recorded d udp around hd hu hr =>
      rw [hr]
      exact fun _ => hu b fun _ => rfl
  | @restarted d udp around acts code hd hu hr hs ha hc =>
      rw [hr] at ha ⊢
      exact fun _ => ha.flag_stays (hu b fun _ => rfl) fun hk => hc hk b fun _ => rfl

theorem Reacted.calm (h : Reacted (steady b) c e c') (hc : Calm b c) : Calm b c' := by
  cases h with
  | unconnected | elsewhere | unreported => exact hc
  | connected _ _ h => exact h.calm
  | reported => exact hc

/-! ### What is done -/

/-- All flags that are written are the same. -/
def Flagged (b : Bool) (deeds : List Deed) : Prop := ∀ x ∈ deeds, ∀ udp, x.flag? = some udp → udp = b

theorem Flagged.written {deeds : List Deed} (h : Flagged b deeds) {udp : Bool}
    (hw : writtenFlag deeds = some udp) : udp = b := by
  obtain ⟨x, hx, hudp⟩ := List.mem_filterMap.1 (List.mem_of_getLast? hw)
  exact h x hx udp hudp

/-- **A reaction that finds a flag that agrees restarts nothing**, and writes no other flag. -/
theorem Reacted.deeds_of_calm (h : Reacted (steady b) c e c') (hc : Calm b c) :
    ∃ more, c'.deeds = c.deeds ++ more ∧ more.countP Deed.isBegan = 0 ∧ Flagged b more := by
  have same : ∃ more, c.deeds = c.deeds ++ more ∧ more.countP Deed.isBegan = 0 ∧ Flagged b more :=
    ⟨[], (List.append_nil _).symm, rfl, fun _ hx => absurd hx List.not_mem_nil⟩
  cases h with
  | unconnected | elsewhere | unreported => exact same
  | reported => exact ⟨_, c.deeds_afterAll _, rfl, by simp [Flagged, deedsOf, reportActs, Act.deed?,
      Deed.flag?]⟩
  | connected _ _ h =>
      cases h with
      | idle => exact same
      | @recorded d udp around hd hu =>
          obtain rfl : udp = b := hu b fun _ => rfl
          refine ⟨_, c.deeds_afterAll _, rfl, ?_⟩
          cases hw : around.writes (.udpSupported udp) <;>
            simp [Flagged, deedsOf, recheckActs, reportActs, Act.deed?, Deed.flag?]
      | @restarted d udp around acts code hd hu _ hs =>
          have hactive : c.session.active ≠ none := hd ▸ Option.some_ne_none d
          exact absurd ((hu b fun _ => rfl).trans (hc hactive).symm) hs

/-- **A reaction restarts the tunnel once**, at most, and then the flag agrees. -/
theorem Reacted.starts (h : Reacted (steady b) c e c') :
    c'.deeds.countP Deed.isBegan ≤ c.deeds.countP Deed.isBegan + 1 ∧
      (c'.deeds.countP Deed.isBegan = c.deeds.countP Deed.isBegan ∨ Calm b c') := by
  cases h with
  | unconnected | elsewhere | unreported => exact ⟨Nat.le_succ _, .inl rfl⟩
  | @reported _ _ d =>
      have hsame : (c.afterAll (reportActs d .reconnecting)).deeds.countP Deed.isBegan =
          c.deeds.countP Deed.isBegan := by
        rw [c.deeds_afterAll, List.countP_append]
        rfl
      exact ⟨hsame ▸ Nat.le_succ _, .inl hsame⟩
  | connected _ _ h =>
      refine ⟨?_, .inr h.calm⟩
      have recheck : ∀ d udp written,
          (c.afterAll (recheckActs d udp written)).deeds.countP Deed.isBegan =
            c.deeds.countP Deed.isBegan := by
        intro d udp written
        rw [c.deeds_afterAll, List.countP_append]
        rfl
      cases h with
      | idle => exact Nat.le_succ _
      | recorded => exact recheck _ _ _ ▸ Nat.le_succ _
      | restarted _ _ _ _ ha =>
          rw [Custody.deeds_afterAll, List.countP_append, recheck]
          exact Nat.add_le_add_left ha.starts _

/-! ### A whole vigil -/

/-- So many starts of the proxy, or one more and a flag that agrees. -/
def Restarted (b : Bool) (starts : Nat) (c : Custody) : Prop :=
  c.deeds.countP Deed.isBegan ≤ starts + 1 ∧ (c.deeds.countP Deed.isBegan = starts ∨ Calm b c)

theorem Restarted.reacted {starts : Nat} (h : Restarted b starts c)
    (hr : Reacted (steady b) c e c') : Restarted b starts c' := by
  obtain ⟨hle, hsame | hc⟩ := h
  · obtain ⟨hle', hsame' | hc'⟩ := hr.starts
    · exact ⟨by omega, .inl (hsame'.trans hsame)⟩
    · exact ⟨by omega, .inr hc'⟩
  · obtain ⟨more, hd, hn, -⟩ := hr.deeds_of_calm hc
    refine ⟨?_, .inr (hr.calm hc)⟩
    rw [hd, List.countP_append, hn]
    exact hle

/-- A flag that agrees, and no other written since so many deeds. -/
def CalmSince (b : Bool) (n : Nat) (c : Custody) : Prop :=
  Calm b c ∧ n ≤ c.deeds.length ∧ Flagged b (c.deeds.drop n)

theorem CalmSince.reacted {n : Nat} (h : CalmSince b n c) (hr : Reacted (steady b) c e c') :
    CalmSince b n c' := by
  obtain ⟨hc, hn, hflagged⟩ := h
  obtain ⟨more, hd, -, hmore⟩ := hr.deeds_of_calm hc
  refine ⟨hr.calm hc, ?_, ?_⟩
  · rw [hd, List.length_append]
    omega
  · rw [hd, List.drop_append_of_le_length hn]
    exact fun x hx => (List.mem_append.1 hx).elim (hflagged x) (hmore x)

variable {s s₀ s₁ s₂ s' : Machine} {t : TaskId}

/-- **A reactor finds a network connected** that it was told of. -/
structure Finds (t : TaskId) (network : NetworkId) (s s' : Machine) : Prop where
  told : ∃ task, s.tasks[t]? = some task ∧
    task.program = (Program.react s.limits (.available network)).bind fun _ => Task.idle
  turns : ∃ around, around.networkState network = some .connected ∧ s.turn? t around = some s'

/-- A reactor that has found a network connected is about to leave a flag that agrees. -/
theorem Finds.keeping {I : Custody → Prop} {network : NetworkId} (hf : Finds t network s s')
    (h : Keeping (steady b) I t s) : Keeping (steady b) (Calm b) t s' := by
  obtain ⟨⟨task, htask, hp⟩, around, hnet, hs⟩ := hf
  obtain ⟨task', htask', ha⟩ := turn?_alive hs
  obtain rfl := Option.some.inj (htask.symm.trans htask')
  obtain ⟨o, hk⟩ := h.kept
  have hr : s.AtRest := by
    cases h with
    | going h =>
        obtain ⟨_, m, _, _, hat, _⟩ := h
        match m with
        | none => exact hat
        | some _ => exact absurd hat.1 (hk.apart_of_react htask hp)
    | ended _ hr => exact hr
  obtain ⟨hk', hr', -⟩ := hk.rests_turn hr htask (fun _ hlock => nomatch hp.symm.trans hlock) hs
  have hask : task.program = .ask (.call (.networkState network)) fun state =>
      (Program.followUp s.limits network state).bind fun _ => Task.idle := hp
  obtain ⟨a, s₁, hs₁, rfl⟩ := turn?_ask htask ha hask nofun hs
  have htask₁ := tasks_respond hs₁ htask
  cases hs₁
  refine .going ⟨none, none, _, hk', hr', Machine.tasks_goOn_self _ htask₁, ha, .bind ?_⟩
  exact achieves_followUp (fun hn => absurd hnet hn) fun _ units c' hc' => ⟨rfl, hc'.calm⟩

/-- What was done stays done. -/
theorem Reach.deeds_grow {rule : Machine → Label → Prop} (h : Reach rule s s') :
    ∃ since, s'.world.deeds = s.world.deeds ++ since := by
  induction h with
  | start => exact ⟨[], (List.append_nil _).symm⟩
  | step _ _ hs ih =>
      obtain ⟨since, hsince⟩ := ih
      obtain ⟨e, hlog, -⟩ := log_step hs
      refine ⟨since ++ e.toList.filterMap Entry.deed?, ?_⟩
      rw [World.deeds, hlog, List.filterMap_append, ← List.append_assoc, ← hsince]
      rfl

/-- **No restart storm.**  Let a reactor that is done keep vigil from any point on at which the lock
is free, while datagrams are relayed whenever that is checked, or never are, and writes to the store
work.  Whatever events it takes, it starts the proxy once at most.  As soon as it has found one
network connected, and is done with that, the flag in the store is what was checked, if a tunnel is
active then, and it stays so. -/
theorem no_restart_storm {limits : Limits} {poolSize : Nat} {store : Store.Persisted}
    {r : Reply} (h : Reach Machine.Orderly (Machine.fresh limits poolSize store) s) (hr : s.AtRest)
    (hdone : s.reply? t = some r) :
    (∀ s', Reach (Machine.Vigil (steady b) t) s s' → ∃ since,
      s'.world.deeds = s.world.deeds ++ since ∧ since.countP Deed.isBegan ≤ 1) ∧
    ∀ s₀ s₁ s₂ s' network r, Reach (Machine.Vigil (steady b) t) s s₀ → Finds t network s₀ s₁ →
      Reach (Machine.Vigil (steady b) t) s₁ s₂ → s₂.reply? t = some r →
      s₂.world.session.active ≠ none → Reach (Machine.Vigil (steady b) t) s₂ s' →
      s'.world.store.udpSupported = b := by
  obtain ⟨o, hk⟩ := h.orderly_kept
  have hA : ∃ around, (steady b).rely around := ⟨{}, fun _ => rfl⟩
  have vigil : ∀ {s'}, Reach (Machine.Vigil (steady b) t) s s' →
      Keeping (steady b) (Restarted b (s.world.deeds.countP Deed.isBegan)) t s' := fun hs =>
    (Keeping.of_done hk hr hdone ⟨Nat.le_succ _, .inl rfl⟩).reach Restarted.reacted hs
  refine ⟨fun s' hs => ?_, fun s₀ s₁ s₂ s' network r hs₀ hf hs₁ hdone₂ up hs => ?_⟩
  · have hle : s'.world.deeds.countP Deed.isBegan ≤ s.world.deeds.countP Deed.isBegan + 1 := by
      refine ((vigil hs).mono fun _ h => h.1).bounds (P := fun deeds =>
        deeds.countP Deed.isBegan ≤ s.world.deeds.countP Deed.isBegan + 1) ?_ hA fun _ => rfl
      intro deeds more hmore
      rw [List.countP_append] at hmore
      omega
    obtain ⟨since, hsince⟩ := hs.deeds_grow
    refine ⟨since, hsince, ?_⟩
    rw [hsince, List.countP_append] at hle
    omega
  · have hcalm := (hf.keeping (vigil hs₀)).reach (fun hc hr => hr.calm hc) hs₁
    obtain ⟨hr₂, hc₂⟩ := hcalm.done hdone₂
    obtain ⟨o₂, hk₂⟩ := hcalm.kept
    have keeping : Keeping (steady b) (CalmSince b s₂.world.deeds.length) t s' :=
      (Keeping.of_done hk₂ hr₂ hdone₂ ⟨hc₂, Nat.le_refl _, by simp [Flagged, World.custody]⟩).reach
        CalmSince.reacted hs
    have hflagged : Flagged b (s'.world.deeds.drop s₂.world.deeds.length) := by
      refine (keeping.mono fun _ h => h.2.2).bounds (P := fun deeds =>
        Flagged b (deeds.drop s₂.world.deeds.length)) ?_ hA fun _ => rfl
      intro deeds more hmore x hx
      rw [List.drop_append] at hmore
      exact hmore x (List.mem_append_left _ hx)
    obtain ⟨since, hsince⟩ := hs.deeds_grow
    rw [hsince, List.drop_left] at hflagged
    -- The store holds the flag that was written last, which was there before or is the same.
    obtain ⟨_, around, -, hturn⟩ := hf
    have h₂ := (h.trans (hs₀.mono fun _ _ hl => hl.orderly)).step (l := .turn t around) trivial hturn
    have h₂ := h₂.trans (hs₁.mono fun _ _ hl => hl.orderly)
    have h' := h₂.trans (hs.mono fun _ _ hl => hl.orderly)
    have hflag₂ : s₂.world.store.udpSupported = b := hc₂ up
    rw [h₂.booked, (store_of_deeds _ _).2] at hflag₂
    rw [h'.booked, (store_of_deeds _ _).2, hsince, writtenFlag_append]
    cases hw : writtenFlag since with
    | none => exact hflag₂
    | some udp => exact hflagged.written hw

/-! ### A tunnel that is restarted once -/

/-- The first reactor has found its network connected. -/
def findingService : Machine := (hearingService.run? [.turn 1 networked]).get (by rfl)

/-- It restarts the tunnel, because datagrams are relayed there. -/
def restartedService : Machine :=
  (findingService.checkedRun? (Machine.isVigil (steady true) 1) adapting.tail).get (by rfl)

/-- The network is lost, and another one becomes available. -/
def roaming : List Label := List.flatten
  [[.deliver 0 (.lost 7), .deliver 0 (.available 8)], .replicate 21 (.turn 1 networked),
    carryOut 6 true, .replicate 7 (.turn 1 networked)]

def roamingService : Machine :=
  (restartedService.checkedRun? (Machine.isVigil (steady true) 1) roaming).get (by rfl)

theorem vigil_of_writable (labels : List Label)
    (hl : ∀ i around, .turn i around ∈ labels → ∀ u, around.writes u = true)
    (hs : s.checkedRun? (Machine.isVigil (steady b) t) labels = some s') :
    Reach (Machine.Vigil (steady b) t) s s' :=
  .of_checkedRun? (fun _ hmem _ hcheck =>
    Machine.vigil_of_check hcheck fun i around hturn => hl i around (hturn ▸ hmem)) hs

/-- The other network does not restart it again. -/
theorem roaming_tunnel_stays :
    (∃ since, roamingService.world.deeds = resumedService.world.deeds ++ since ∧
      since.countP Deed.isBegan ≤ 1) ∧ roamingService.world.store.udpSupported = true := by
  have h : Reach Machine.Orderly rememberingService resumedService :=
    reach_resumedService (by simp [resuming, Machine.Orderly])
  have hears : Reach (Machine.Vigil (steady true) 1) resumedService hearingService :=
    vigil_of_writable [.deliver 0 (.available 7), .turn 1 {}] (by simp) rfl
  have finds : Reach (Machine.Vigil (steady true) 1) hearingService findingService :=
    vigil_of_writable [.turn 1 networked] (by simp [networked]) rfl
  have restarts : Reach (Machine.Vigil (steady true) 1) findingService restartedService :=
    vigil_of_writable adapting.tail (by simp [adapting, networked]) (Option.some_get _).symm
  have roams : Reach (Machine.Vigil (steady true) 1) restartedService roamingService :=
    vigil_of_writable roaming (by simp [roaming, networked]) (Option.some_get _).symm
  have found : Finds 1 7 hearingService findingService := ⟨⟨_, rfl, rfl⟩, networked, rfl, rfl⟩
  obtain ⟨once, stays⟩ := no_restart_storm h atRest_resumedService (t := 1) (b := true) rfl
  exact ⟨once _ (hears.trans (finds.trans (restarts.trans roams))),
    stays _ _ _ _ 7 _ hears found restarts rfl
      (Option.ne_none_iff_exists'.2 ⟨completeTunnel, rfl⟩) roams⟩

end TunnelKeeper.Service
