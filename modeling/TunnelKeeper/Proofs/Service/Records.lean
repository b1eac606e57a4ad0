import TunnelKeeper.Proofs.Service.Modes

/-!
# Records — what is written of a tunnel

A start that is connected saves its tunnel and then, in a write of its own, whether datagrams work
with it.  Which tunnel was saved is read off the deeds (`savedTunnel`), and so is which tunnel stood
when the flag was last written (`flagOwner`).  A flag is written right (`RightFrom`) if it is for
the tunnel that stands, whose save was the last one that was tried.

* `store_of_deeds`: what the store holds of a tunnel is read off the deeds.
* `Attempt.recorded`: a start writes right, however it ends.
* `recording_lasting`: so does everything that is done under the lock.
-/

namespace TunnelKeeper.Service

/-! ### What was written -/

/-- The tunnel that a deed tries to save. -/
def Deed.tried? : Deed → Option Descriptor
  | .called (.write (.tunnel d)) _ => some d
  | _ => none

/-- The tunnel that a deed saves. -/
def Deed.saved? : Deed → Option Descriptor
  | .called (.write (.tunnel d)) true => some d
  | _ => none

/-- The tunnel that was last tried to save. -/
def triedTunnel (deeds : List Deed) : Option Descriptor := (deeds.filterMap Deed.tried?).getLast?

/-- **The tunnel that was last saved.** -/
def savedTunnel (deeds : List Deed) : Option Descriptor := (deeds.filterMap Deed.saved?).getLast?

/-- The flag that was last written. -/
def writtenFlag (deeds : List Deed) : Option Bool := (deeds.filterMap Deed.flag?).getLast?

/-- Whose flag it is after more deeds. -/
def ownerFrom (before : List Deed) (owner : Option Descriptor) : List Deed → Option Descriptor
  | [] => owner
  | x :: deeds =>
    ownerFrom (before ++ [x]) (if x.flag?.isSome then standing before else owner) deeds

/-- **The tunnel that the flag was last written for**: the one that stood then. -/
def flagOwner (deeds : List Deed) : Option Descriptor := ownerFrom [] none deeds

/-- Whether the last thing that was done is a save. -/
def endsWithSave (deeds : List Deed) : Bool := deeds.getLast?.any fun x => x.tried?.isSome

theorem ownerFrom_append (before : List Deed) (owner : Option Descriptor) (deeds more : List Deed) :
    ownerFrom before owner (deeds ++ more) =
      ownerFrom (before ++ deeds) (ownerFrom before owner deeds) more := by
  induction deeds generalizing before owner with
  | nil => rw [List.nil_append, List.append_nil, ownerFrom]
  | cons x deeds ih => simp [ownerFrom, ih]

theorem flagOwner_snoc (deeds : List Deed) (x : Deed) :
    flagOwner (deeds ++ [x]) = if x.flag?.isSome then standing deeds else flagOwner deeds := by
  rw [flagOwner, ownerFrom_append]
  rfl

theorem savedTunnel_append (deeds more : List Deed) :
    savedTunnel (deeds ++ more) = (savedTunnel more).or (savedTunnel deeds) := by
  simp [savedTunnel, List.getLast?_append]

theorem triedTunnel_append (deeds more : List Deed) :
    triedTunnel (deeds ++ more) = (triedTunnel more).or (triedTunnel deeds) := by
  simp [triedTunnel, List.getLast?_append]

theorem writtenFlag_append (deeds more : List Deed) :
    writtenFlag (deeds ++ more) = (writtenFlag more).or (writtenFlag deeds) := by
  simp [writtenFlag, List.getLast?_append]

theorem endsWithSave_snoc (deeds : List Deed) (x : Deed) :
    endsWithSave (deeds ++ [x]) = x.tried?.isSome := by
  simp [endsWithSave]

/-- What a deed makes of the tunnel and the flag in the store. -/
theorem Deed.stored_fields (x : Deed) (store : Store.Persisted) :
    (x.stored store).tunnel = (savedTunnel [x]).elim store.tunnel (fun d => some d.toJson) ∧
      (x.stored store).udpSupported = (writtenFlag [x]).getD store.udpSupported := by
  rcases x with ⟨k, a⟩ | config | ⟨config, result⟩
  · cases k with
    | write u =>
        cases (a : Bool) <;> cases u <;> exact ⟨rfl, rfl⟩
    | _ => exact ⟨rfl, rfl⟩
  · exact ⟨rfl, rfl⟩
  · exact ⟨rfl, rfl⟩

/-- **What the store holds** is what was last written. -/
theorem store_of_deeds (deeds : List Deed) (initial : Store.Persisted) :
    (deeds.foldl (fun store x => x.stored store) initial).tunnel =
        (savedTunnel deeds).elim initial.tunnel (fun d => some d.toJson) ∧
      (deeds.foldl (fun store x => x.stored store) initial).udpSupported =
        (writtenFlag deeds).getD initial.udpSupported := by
  induction deeds generalizing initial with
  | nil => exact ⟨rfl, rfl⟩
  | cons x deeds ih =>
      obtain ⟨htunnel, hflag⟩ := ih (x.stored initial)
      obtain ⟨hx, hy⟩ := x.stored_fields initial
      rw [List.foldl_cons, htunnel, hflag, hx, hy, show x :: deeds = [x] ++ deeds from rfl,
        savedTunnel_append, writtenFlag_append]
      constructor
      · cases savedTunnel deeds <;> rfl
      · cases writtenFlag deeds <;> rfl

/-! ### Right records -/

/-- **A deed that is right** after those before it.  A tunnel is saved while it stands.  A flag is
written next, and it is the mode that the interface was connected with; or it is written later, for
the tunnel that stands and was the last one that was tried to save. -/
def Deed.IsRight (before : List Deed) : Deed → Prop
  | .called (.write (.tunnel d)) _ => endsWithSave before = false ∧ standing before = some d
  | .called (.write (.udpSupported udp)) _ =>
    ∃ d, standing before = some d ∧ triedTunnel before = some d ∧
      (endsWithSave before = true → connectedMode before = some udp)
  | _ => endsWithSave before = false

/-- Deeds that are right, one after the other. -/
def RightFrom (before : List Deed) : List Deed → Prop
  | [] => True
  | x :: deeds => x.IsRight before ∧ RightFrom (before ++ [x]) deeds

theorem rightFrom_append {before deeds more : List Deed} : RightFrom before (deeds ++ more) ↔
    RightFrom before deeds ∧ RightFrom (before ++ deeds) more := by
  induction deeds generalizing before with
  | nil => simp [RightFrom]
  | cons x deeds ih => simp [RightFrom, ih, and_assoc]

/-- Whether an act writes neither a tunnel nor a flag to the store. -/
def Act.isQuiet : Act → Bool
  | .deed (.called (.write (.tunnel _)) _) | .deed (.called (.write (.udpSupported _)) _) => false
  | _ => true

/-- What is quiet is right unless a save came before it, and saves nothing. -/
theorem rightFrom_quiet {acts : List Act} (h : acts.all Act.isQuiet = true) {before : List Deed}
    (hb : endsWithSave before = false) : RightFrom before (deedsOf acts) ∧
      endsWithSave (before ++ deedsOf acts) = false ∧ triedTunnel (deedsOf acts) = none := by
  induction acts generalizing before with
  | nil => exact ⟨trivial, by simpa [deedsOf] using hb, rfl⟩
  | cons x acts ih =>
      rw [List.all_cons, Bool.and_eq_true] at h
      cases x with
      | setActive | setMonitored | publishActive | publishStatus => exact ih h.2 hb
      | deed y =>
          have hy : y.IsRight before ∧ y.tried? = none := by
            rcases y with ⟨k, a⟩ | config | ⟨config, result⟩
            · cases k with
              | write u => cases u with
                | tunnel | udpSupported => cases h.1
                | status => exact ⟨hb, rfl⟩
              | _ => exact ⟨hb, rfl⟩
            · exact ⟨hb, rfl⟩
            · exact ⟨hb, rfl⟩
          have hb' : endsWithSave (before ++ [y]) = false := by
            rw [endsWithSave_snoc, hy.2]
            rfl
          obtain ⟨hright, hends, htried⟩ := ih h.2 hb'
          refine ⟨⟨hy.1, hright⟩, by simpa [deedsOf, Act.deed?] using hends, ?_⟩
          show triedTunnel ([y] ++ deedsOf acts) = none
          rw [triedTunnel_append, htried]
          simp [triedTunnel, hy.2]

theorem isQuiet_openingActs (old : Option Descriptor) (d : Descriptor) :
    (openingActs old d).all Act.isQuiet = true := by
  cases old <;> rfl

theorem isQuiet_failActs (d : Descriptor) (code : ErrorCode)
    (monitored unregistered written : Bool) :
    (failActs d code monitored unregistered written).all Act.isQuiet = true := by
  cases monitored <;> rfl

theorem isQuiet_preparation {acts : List Act} (h : acts.all Act.isPreparation = true) :
    acts.all Act.isQuiet = true := by
  rw [List.all_eq_true] at h ⊢
  intro x hx
  have hprep := h x hx
  unfold Act.isQuiet
  split
  · cases hprep
  · cases hprep
  · rfl

/-- **What a connected tunnel writes is right.** -/
theorem rightFrom_announceActs {before : List Deed} (hb : endsWithSave before = false)
    {d : Descriptor} (hp : (Recalled.followAll {} before).proxied = some d.config)
    (address : SocketAddress) (udp saved savedUdp savedStatus : Bool) :
    RightFrom before (deedsOf (announceActs d address udp saved savedUdp savedStatus)) := by
  have opened := Recalled.followAll_announced hp address udp
  refine ⟨hb, endsWithSave_snoc _ _, endsWithSave_snoc _ _, ⟨endsWithSave_snoc _ _, ?_⟩,
    ⟨d, ?_, ?_, fun _ => ?_⟩, endsWithSave_snoc _ _, trivial⟩
  · rw [standing, Recalled.followAll_append, opened]
    rfl
  · rw [standing, Recalled.followAll_append, Recalled.followAll_append, opened]
    rfl
  · rw [triedTunnel_append]
    rfl
  · rw [connectedMode_append, connectedMode_append, connectedMode_append, connectedMode_append]
    rfl

/-! ### The terms -/

/-- With nobody at work, the tunnel that stands is the one that was last tried to save, and its
start has come to its end. -/
structure Recorded (c : Custody) : Prop where
  stood : Stood c
  ended : endsWithSave c.deeds = false
  tried : ∀ d, c.session.active = some d → triedTunnel c.deeds = some d

def recording : Terms := { always := fun c => RightFrom [] c.deeds, rest := Recorded }

theorem along_recording {K : Custody → Prop} {acts : List Act} {c : Custody}
    (hc : RightFrom [] c.deeds) (h : RightFrom c.deeds (deedsOf acts)) (hK : K (c.afterAll acts)) :
    recording.Along acts K c := by
  induction acts generalizing c with
  | nil => exact hK
  | cons x acts ih =>
      cases x with
      | setActive | setMonitored | publishActive | publishStatus => exact ⟨hc, ih hc h hK⟩
      | deed y =>
          have hy : RightFrom [] (c.deeds ++ [y]) := rightFrom_append.2 ⟨hc, h.1, trivial⟩
          exact ⟨hy, ih hy h.2 hK⟩

/-- Where nothing is written but the status. -/
theorem Recorded.quiet {c : Custody} (h : Recorded c) {acts : List Act}
    (hq : acts.all Act.isQuiet = true) (hs : Stood (c.afterAll acts))
    (ha : ∀ d, (c.afterAll acts).session.active = some d → c.session.active = some d) :
    RightFrom c.deeds (deedsOf acts) ∧ Recorded (c.afterAll acts) := by
  obtain ⟨hright, hends, htried⟩ := rightFrom_quiet hq h.ended
  refine ⟨hright, hs, by rwa [c.deeds_afterAll], fun d hd => ?_⟩
  rw [c.deeds_afterAll, triedTunnel_append, htried]
  exact h.tried d (ha d hd)

theorem Attempt.recorded {T : Terms} {c : Custody} {d : Descriptor} {auto : Bool} {acts : List Act}
    {code : ErrorCode} (h : Attempt T c d auto acts code) (hr : Recorded c) :
    RightFrom c.deeds (deedsOf acts) ∧ Recorded (c.afterAll acts) := by
  have hstood := h.stood
  have hends := h.ends
  cases h.outcome with
  | failed hc hp =>
      rw [hc, if_neg Bool.false_ne_true] at hends
      refine hr.quiet ?_ hstood fun d' hd' => absurd (hends.1.symm.trans hd') nofun
      rw [List.all_append, List.all_append, isQuiet_openingActs, isQuiet_preparation hp,
        isQuiet_failActs]
      rfl
  | @connected ready code monitored hc hready address udp saved savedUdp savedStatus =>
      rw [hc, if_pos rfl] at hends
      have hq : (openingActs c.session.active d ++
          (proxyActs d.config (some true) ++ ready)).all Act.isQuiet = true := by
        rw [List.all_append, isQuiet_openingActs,
          isQuiet_preparation (hready.preparation d.config (some true))]
        rfl
      obtain ⟨hright, hb, -⟩ := rightFrom_quiet hq hr.ended
      have hproxied : (Recalled.followAll {} (c.deeds ++ deedsOf (openingActs c.session.active d ++
          (proxyActs d.config (some true) ++ ready)))).proxied = some d.config := by
        rw [deedsOf_append, deedsOf_append, Recalled.followAll_append, Recalled.followAll_append,
          Recalled.followAll_append, Recalled.followAll_openingActs, Recalled.followAll_ready hready]
        rfl
      have hannounce := rightFrom_announceActs hb hproxied address udp saved savedUdp savedStatus
      rw [← List.append_assoc] at hstood hends ⊢
      refine ⟨?_, hstood, ?_, fun d' hd' => ?_⟩
      · rw [deedsOf_append]
        exact rightFrom_append.2 ⟨hright, hannounce⟩
      · rw [c.deeds_afterAll, deedsOf_append, ← List.append_assoc, endsWithSave,
          List.getLast?_append]
        rfl
      · obtain rfl := Option.some.inj (hends.1.symm.trans hd')
        rw [c.deeds_afterAll, deedsOf_append, triedTunnel_append, triedTunnel_append]
        rfl

/-- Where everything is taken down, nothing is active. -/
theorem Recorded.tearDown {c : Custody} (h : Recorded c) (acts : List Act)
    (hq : acts.all Act.isQuiet = true) (monitored unregistered written : Bool) :
    RightFrom c.deeds (deedsOf (acts ++ tearDownActs monitored unregistered written)) ∧
      Recorded (c.afterAll (acts ++ tearDownActs monitored unregistered written)) := by
  refine h.quiet ?_ (stood_tearDown c acts _ _ _) fun d hd => ?_
  · rw [List.all_append, hq]
    cases monitored <;> rfl
  · rw [Custody.afterAll_append, afterAll_tearDownActs] at hd
    cases hd

/-- **Every section writes what is right.** -/
theorem recording_lasting : recording.Lasting where
  met := ⟨{}, trivial⟩
  kept c acts hc hr h := by
    have hr : Recorded c := hr
    have done : RightFrom c.deeds (deedsOf acts) ∧ Recorded (c.afterAll acts) := by
      cases h with
      | looked => exact ⟨trivial, hr⟩
      | started h => exact h.recorded hr
      | resumed d acts code loaded h =>
          have hquiet : List.all [.deed (.called .load loaded), .deed (.called .isPrepared true),
              .deed (.called (.present (.display d.config.serverName .reconnecting)) ())]
              Act.isQuiet = true := rfl
          obtain ⟨hright, hloaded⟩ :=
            hr.quiet hquiet (hr.stood.quiet (fun _ => rfl) rfl) fun d hd => hd
          obtain ⟨hstart, hrecorded⟩ := h.recorded hloaded
          rw [deedsOf_append, Custody.afterAll_append]
          rw [c.deeds_afterAll] at hstart
          exact ⟨rightFrom_append.2 ⟨hright, hstart⟩, hrecorded⟩
      | unloaded | unprepared | reported =>
          exact hr.quiet rfl (hr.stood.quiet (fun _ => rfl) rfl) fun d hd => hd
      | stopped => exact hr.tearDown [_] rfl _ _ _
      | revoked => exact hr.tearDown [_] rfl _ _ _
      | destroyed => exact hr.tearDown [] rfl _ _ _
      | @recorded udp written hw d hd =>
          have hs : Stood (c.afterAll [.deed (.called (.write (.udpSupported udp)) written)]) :=
            hr.stood.quiet (fun _ => rfl) rfl
          have hstands : standing c.deeds = some d := hr.stood.trans hd
          refine ⟨⟨⟨d, hstands, hr.tried d hd, fun h => ?_⟩, trivial⟩, hs, ?_, fun d' hd' => ?_⟩
          · rw [hr.ended] at h
            cases h
          · exact endsWithSave_snoc _ _
          · show triedTunnel (c.deeds ++ [.called (.write (.udpSupported udp)) written]) = some d'
            rw [triedTunnel_append]
            exact hr.tried d' hd'
    exact along_recording hc done.1 done.2

theorem kept_recording (limits : Limits) (poolSize : Nat) (store : Store.Persisted) :
    Kept recording (Machine.fresh limits poolSize store) none :=
  .fresh limits poolSize store trivial ⟨rfl, rfl, nofun⟩

theorem allows_recording {s : Machine} {l : Label} (h : s.Orderly l) : recording.Allows s l :=
  ⟨h, fun _ => trivial, fun _ _ _ => trivial⟩

end TunnelKeeper.Service
