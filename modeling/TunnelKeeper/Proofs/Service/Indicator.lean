import TunnelKeeper.Proofs.Service.Flags
import TunnelKeeper.Proofs.Service.Resources

/-!
# Indicator — the name that a person sees

A presenter that writes lines keeps the first name it is shown until it is cleared.  What it holds
can be told from the deeds (`indicator`), and so can the line it writes for each further one.

A start that replaces a tunnel clears the indicator before it shows the new one, and so does taking
everything down.  A resumption shows the tunnel that it brings back before its start clears
anything.  So a line has the name of the tunnel it is written for, unless that is a resumption while
another tunnel stands, and then it has the name of that one (`Deed.IsNamed`).

* `Attempt.named`: a start names its own tunnel, if the indicator holds no name that would stay.
* `naming_lasting`: whenever the lock is free, the indicator has the name of the active tunnel.
* `lines_name_standing`: so every line of every run is named for the tunnel that stands, if any.
* `resumption_names_other`: and a resumption does write the name of another tunnel.
-/

namespace TunnelKeeper.Service

/-! ### What the indicator holds -/

/-- What a deed makes of a presenter that writes lines. -/
def showing (p : LogPresenter) (x : Deed) : LogPresenter :=
  match x.presentation? with
  | some request => (p.present request).1
  | none => p

/-- What deeds make of it. -/
def showingAll (p : LogPresenter) (deeds : List Deed) : LogPresenter := deeds.foldl showing p

/-- **The indicator** after a list of deeds. -/
def indicator (deeds : List Deed) : LogPresenter := showingAll {} deeds

theorem showingAll_append (p : LogPresenter) (deeds more : List Deed) :
    showingAll p (deeds ++ more) = showingAll (showingAll p deeds) more :=
  List.foldl_append

theorem indicator_append (deeds more : List Deed) :
    indicator (deeds ++ more) = showingAll (indicator deeds) more :=
  showingAll_append _ _ _

/-- Nothing is held once everything was taken down. -/
theorem showingAll_tearDownActs (p : LogPresenter) (monitored unregistered written : Bool) :
    showingAll p (deedsOf (tearDownActs monitored unregistered written)) = {} := by
  obtain ⟨current⟩ := p
  cases monitored <;> cases current <;> rfl

/-- Nothing is held once a start replaces a tunnel. -/
theorem showingAll_openingActs (p : LogPresenter) (old : Option Descriptor) (d : Descriptor) :
    showingAll p (deedsOf (openingActs old d)) = if old = none then p else {} := by
  obtain ⟨current⟩ := p
  cases old <;> cases current <;> rfl

theorem showingAll_ready {session : Session} {acts : List Act} {monitored : Bool}
    (h : Ready session acts monitored) (p : LogPresenter) : showingAll p (deedsOf acts) = p := by
  cases h with
  | reused | followed => rfl
  | fresh => cases monitored <;> rfl

theorem showingAll_announceActs (p : LogPresenter) (d : Descriptor) (address : SocketAddress)
    (udp saved savedUdp savedStatus : Bool) :
    showingAll p (deedsOf (announceActs d address udp saved savedUdp savedStatus)) =
      ⟨some (p.current.getD d.config.serverName)⟩ :=
  rfl

/-! ### Named lines -/

/-- A stored tunnel is about to be resumed. -/
def Resumes (deeds : List Deed) (d : Descriptor) : Prop :=
  ∃ earlier loaded, Program.resumable? loaded = some d ∧
    deeds = earlier ++ [.called .load loaded, .called .isPrepared true]

/-- The line that names a tunnel. -/
def nameLine (d : Descriptor) (status : Status) : LogLevel × String :=
  (.info, "[" ++ d.config.serverName ++ "] " ++ status.title)

/-- **A deed that is named** after those before it.  What is shown is the tunnel that stands, or one
that is resumed; the line names the tunnel that stands, if there is one, and else the one shown. -/
def Deed.IsNamed (before : List Deed) : Deed → Prop
  | .called (.present (.display name status)) _ =>
    ∃ d : Descriptor, d.config.serverName = name ∧
      (standing before = some d ∨ status = .reconnecting ∧ Resumes before d) ∧
      ((indicator before).present (.display name status)).2 =
        [nameLine ((standing before).getD d) status]
  | _ => True

/-- Deeds that are named, one after the other. -/
def NamedFrom (before : List Deed) : List Deed → Prop
  | [] => True
  | x :: deeds => x.IsNamed before ∧ NamedFrom (before ++ [x]) deeds

theorem namedFrom_append {before deeds more : List Deed} : NamedFrom before (deeds ++ more) ↔
    NamedFrom before deeds ∧ NamedFrom (before ++ deeds) more := by
  induction deeds generalizing before with
  | nil => simp [NamedFrom]
  | cons x deeds ih => simp [NamedFrom, ih, and_assoc]

/-- Whether an act shows nothing but, perhaps, a cleared indicator. -/
def Act.isBlank : Act → Bool
  | .deed (.called (.present (.display _ _)) _) => false
  | _ => true

theorem namedFrom_blank {acts : List Act} (h : acts.all Act.isBlank = true) (before : List Deed) :
    NamedFrom before (deedsOf acts) := by
  induction acts generalizing before with
  | nil => trivial
  | cons x acts ih =>
      rw [List.all_cons, Bool.and_eq_true] at h
      cases x with
      | setActive | setMonitored | publishActive | publishStatus => exact ih h.2 before
      | deed y =>
          refine ⟨?_, ih h.2 _⟩
          unfold Deed.IsNamed
          split
          case h_1 => cases h.1
          case h_2 => trivial

/-- A line is named for the tunnel that stands, if the indicator holds its name or none. -/
theorem Deed.isNamed_of_standing {before : List Deed} {d : Descriptor} {status : Status}
    (hs : standing before = some d)
    (hi : (indicator before).current.getD d.config.serverName = d.config.serverName) :
    Deed.IsNamed before (.called (.present (.display d.config.serverName status)) ()) := by
  refine ⟨d, rfl, .inl hs, ?_⟩
  rw [hs, LogPresenter.present, hi]
  rfl

/-! ### Sections -/

/-- **The indicator has the name of the active tunnel**, whenever the lock is free. -/
structure Named (c : Custody) : Prop where
  stood : Stood c
  name : (indicator c.deeds).current = c.session.active.map (·.config.serverName)

def naming : Terms := { always := fun c => NamedFrom [] c.deeds, rest := Named }

theorem naming_along {acts : List Act} {c : Custody} (hc : NamedFrom [] c.deeds)
    (h : NamedFrom c.deeds (deedsOf acts)) (hK : Named (c.afterAll acts)) :
    naming.Along acts Named c :=
  Terms.along_of_deeds (P := NamedFrom []) (fun _ _ h => (namedFrom_append.1 h).1)
    (fun _ hc => hc) (namedFrom_append.2 ⟨hc, h⟩) hK

theorem isBlank_openingActs (old : Option Descriptor) (d : Descriptor) :
    (openingActs old d).all Act.isBlank = true := by
  cases old <;> rfl

theorem isBlank_tearDownActs (monitored unregistered written : Bool) :
    (tearDownActs monitored unregistered written).all Act.isBlank = true := by
  cases monitored <;> rfl

theorem isBlank_preparation {acts : List Act} (h : acts.all Act.isPreparation = true) :
    acts.all Act.isBlank = true := by
  rw [List.all_eq_true] at h ⊢
  intro x hx
  have hprep := h x hx
  unfold Act.isBlank
  split
  case h_1 => cases hprep
  case h_2 => rfl

/-- Where everything is taken down, no name is held. -/
theorem named_tearDown (c : Custody) (acts : List Act) (hb : acts.all Act.isBlank = true)
    (monitored unregistered written : Bool) :
    NamedFrom c.deeds (deedsOf (acts ++ tearDownActs monitored unregistered written)) ∧
      Named (c.afterAll (acts ++ tearDownActs monitored unregistered written)) := by
  refine ⟨namedFrom_blank (by rw [List.all_append, hb, isBlank_tearDownActs]; rfl) _,
    stood_tearDown c acts _ _ _, ?_⟩
  rw [c.deeds_afterAll, deedsOf_append, ← List.append_assoc, indicator_append,
    showingAll_tearDownActs, Custody.afterAll_append, afterAll_tearDownActs]
  rfl

/-- **A start names its own tunnel**, if the indicator holds no other name that nothing clears. -/
theorem Attempt.named {T : Terms} {c : Custody} {d : Descriptor} {auto : Bool} {acts : List Act}
    {code : ErrorCode} (h : Attempt T c d auto acts code)
    (hi : c.session.active = none →
      (indicator c.deeds).current.getD d.config.serverName = d.config.serverName) :
    NamedFrom c.deeds (deedsOf acts) ∧ Named (c.afterAll acts) := by
  have hstood := h.stood
  have hends := h.ends
  cases h.outcome with
  | @failed acts code hc hp monitored unregistered written =>
      have hblank : (openingActs c.session.active d ++ (acts ++
          [Act.deed (.called (.emit (.started (some d.id) code)) ())])).all Act.isBlank = true := by
        rw [List.all_append, isBlank_openingActs, List.all_append, isBlank_preparation hp]
        rfl
      simpa [failActs] using named_tearDown c _ hblank monitored unregistered written
  | @connected ready code monitored hc hready address udp saved savedUdp savedStatus =>
      rw [hc, if_pos rfl] at hends
      have hblank : (openingActs c.session.active d ++
          (proxyActs d.config (some true) ++ ready)).all Act.isBlank = true := by
        rw [List.all_append, isBlank_openingActs,
          isBlank_preparation (hready.preparation d.config (some true))]
        rfl
      rw [← List.append_assoc] at hstood hends ⊢
      -- Before the tunnel is announced the indicator is clear, or has its name.
      have hclear : (showingAll (indicator c.deeds) (deedsOf (openingActs c.session.active d ++
          (proxyActs d.config (some true) ++ ready)))).current.getD d.config.serverName =
            d.config.serverName := by
        rw [deedsOf_append, deedsOf_append, showingAll_append, showingAll_append,
          showingAll_openingActs, showingAll_ready hready]
        split
        case isTrue hnone => exact hi hnone
        case isFalse => rfl
      refine ⟨?_, hstood, ?_⟩
      · rw [deedsOf_append]
        refine namedFrom_append.2 ⟨namedFrom_blank hblank _, trivial, trivial,
          Deed.isNamed_of_standing ?_ ?_, trivial, trivial, trivial, trivial⟩
        · refine congrArg Recalled.connected (Recalled.followAll_announced ?_ address udp)
          rw [deedsOf_append, deedsOf_append, Recalled.followAll_append, Recalled.followAll_append,
            Recalled.followAll_append, Recalled.followAll_openingActs,
            Recalled.followAll_ready hready]
          rfl
        · rw [indicator_append, indicator_append, indicator_append]
          exact hclear
      · rw [hends.1, c.deeds_afterAll, deedsOf_append, ← List.append_assoc, indicator_append,
          indicator_append, showingAll_announceActs, hclear]
        rfl

theorem Named.quiet {c : Custody} (h : Named c) {acts : List Act}
    (hb : acts.all Act.isBlank = true) (hd : ∀ r : Recalled, r.followAll (deedsOf acts) = r)
    (hi : ∀ p, showingAll p (deedsOf acts) = p)
    (hs : (c.afterAll acts).session.active = c.session.active) :
    NamedFrom c.deeds (deedsOf acts) ∧ Named (c.afterAll acts) := by
  refine ⟨namedFrom_blank hb _, h.stood.quiet hd hs, ?_⟩
  rw [c.deeds_afterAll, indicator_append, hi, hs, h.name]

/-- **A report names the active tunnel.** -/
theorem Named.reported {c : Custody} (h : Named c) {d : Descriptor}
    (hd : c.session.active = some d) (status : Status) :
    let acts := [.deed (.called (.emit (.changed (some d.id) status)) ()),
      .deed (.called (.present (.display d.config.serverName status)) ()), .publishStatus status]
    NamedFrom c.deeds (deedsOf acts) ∧ Named (c.afterAll acts) := by
  have hname : (indicator c.deeds).current = some d.config.serverName := by
    rw [h.name, hd]
    rfl
  refine ⟨⟨trivial, Deed.isNamed_of_standing ?_ ?_, trivial⟩,
    h.stood.quiet (fun _ => rfl) rfl, ?_⟩
  · rw [standing, Recalled.followAll_append]
    exact h.stood.trans hd
  · rw [indicator_append]
    show (indicator c.deeds).current.getD _ = _
    rw [hname]
    rfl
  · rw [c.deeds_afterAll, indicator_append]
    show some ((indicator c.deeds).current.getD _) = c.session.active.map _
    rw [hname, hd]
    rfl

/-- **A resumption is named for the active tunnel**, if there is one. -/
theorem Named.resumes {c : Custody} (h : Named c) {d : Descriptor}
    {loaded : Except Store.StoreError (Option Descriptor)}
    (hd : Program.resumable? loaded = some d) :
    let acts := [.deed (.called .load loaded), .deed (.called .isPrepared true),
      .deed (.called (.present (.display d.config.serverName .reconnecting)) ())]
    NamedFrom c.deeds (deedsOf acts) ∧
      (indicator (c.afterAll acts).deeds).current =
        some (c.session.active.getD d).config.serverName := by
  have hname : (indicator c.deeds).current.getD d.config.serverName =
      (c.session.active.getD d).config.serverName := by
    rw [h.name]
    cases c.session.active <;> rfl
  have hstands : standing (c.deeds ++ [.called .load loaded] ++ [.called .isPrepared true]) =
      c.session.active := by
    rw [standing, Recalled.followAll_append, Recalled.followAll_append]
    exact h.stood
  refine ⟨⟨trivial, trivial, ⟨d, rfl, .inr ⟨rfl, c.deeds, loaded, hd, by simp⟩, ?_⟩, trivial⟩, ?_⟩
  · rw [hstands, indicator_append, indicator_append]
    show [(LogLevel.info,
      "[" ++ (indicator c.deeds).current.getD d.config.serverName ++ "] " ++ _)] = _
    rw [hname]
    rfl
  · rw [c.deeds_afterAll, indicator_append]
    exact congrArg some hname

/-- **Every section keeps the indicator named.** -/
theorem naming_lasting : naming.Lasting where
  met := ⟨{}, trivial⟩
  kept c acts hc hr h := by
    have hr : Named c := hr
    have done : NamedFrom c.deeds (deedsOf acts) ∧ Named (c.afterAll acts) := by
      cases h with
      | looked => exact ⟨trivial, hr⟩
      | @started d auto acts code h =>
          refine h.named fun hnone => ?_
          rw [hr.name, hnone]
          rfl
      | resumed d acts code loaded h hd =>
          obtain ⟨hshown, hname⟩ := hr.resumes hd
          obtain ⟨hstart, hnamed⟩ := h.named fun hnone => by
            rw [hname, show c.session.active = none from hnone]
            rfl
          rw [deedsOf_append, Custody.afterAll_append]
          rw [c.deeds_afterAll] at hstart
          exact ⟨namedFrom_append.2 ⟨hshown, hstart⟩, hnamed⟩
      | unloaded | unprepared | recorded =>
          exact hr.quiet rfl (fun _ => rfl) (fun _ => rfl) rfl
      | reported hd => exact hr.reported hd _
      | stopped => exact named_tearDown c [_] rfl _ _ _
      | revoked => exact named_tearDown c [_] rfl _ _ _
      | destroyed => exact named_tearDown c [] rfl _ _ _
    exact naming_along hc done.1 done.2

theorem kept_naming (limits : Limits) (poolSize : Nat) (store : Store.Persisted) :
    Kept naming (Machine.fresh limits poolSize store) none :=
  .fresh limits poolSize store trivial ⟨rfl, rfl⟩

theorem allows_naming {s : Machine} {l : Label} (h : s.Orderly l) : naming.Allows s l :=
  ⟨h, fun _ => trivial, fun _ _ _ => trivial⟩

/-! ### Every run -/

/-- **A line is named for the tunnel that stands, if any.**  In every run, whatever the store holds
and whatever fails, what is shown is the name of the tunnel that stands, or of a stored one that is
being resumed.  The line written for it has the name of the tunnel that stands; only where none
stands it has the name that is shown.  So it has another name than the one shown exactly in a
resumption while another tunnel stands whose name is different. -/
theorem lines_name_standing {limits : Limits} {poolSize : Nat} {store : Store.Persisted}
    {s : Machine} (h : Reach Machine.Orderly (Machine.fresh limits poolSize store) s)
    {before since : List Deed} {name : String} {status : Status}
    (hd : s.world.deeds = before ++ .called (.present (.display name status)) () :: since) :
    ∃ d : Descriptor, d.config.serverName = name ∧
      (standing before = some d ∨ status = .reconnecting ∧ Resumes before d) ∧
      ((indicator before).present (.display name status)).2 =
        [nameLine ((standing before).getD d) status] := by
  have hnamed : NamedFrom [] s.world.deeds :=
    (h.mono fun _ _ => allows_naming).always naming_lasting (kept_naming ..)
  rw [hd] at hnamed
  exact (namedFrom_append.1 hnamed).2.1

/-! ### Two tunnels -/

/-- A complete tunnel with a name. -/
def namedTunnel : Descriptor := ⟨"b", completeTunnel.config.set "name" (.text "n")⟩

/-- A tunnel is started that cannot be saved, and then the stored one is resumed. -/
def switching : List Label := List.flatten
  [[.call (.start namedTunnel.id namedTunnel.config)], .replicate 7 (.turn 0 saveless),
    carryOut 0 true, .replicate 6 (.turn 0 saveless), carryOut 1 true,
    .replicate 21 (.turn 0 saveless), [.call .resume], .replicate 4 (.turn 2 {})]

def switchingService : Machine := (rememberingService.run? switching).get (by rfl)

theorem reach_switchingService : Reach Machine.Orderly rememberingService switchingService :=
  .of_run? (by simp [switching, Machine.Orderly]) (Option.some_get _).symm

/-- What was done before the stored tunnel is shown. -/
def untilSwitching : List Deed := switchingService.world.deeds.dropLast

theorem deeds_switchingService : switchingService.world.deeds =
    untilSwitching ++ [.called (.present (.display "h" .reconnecting)) ()] :=
  rfl

/-- The other tunnel stands, and its name is in the line. -/
theorem resumption_line_named :
    ∃ d : Descriptor, d.config.serverName = "h" ∧
      (standing untilSwitching = some d ∨
        Status.reconnecting = .reconnecting ∧ Resumes untilSwitching d) ∧
      ((indicator untilSwitching).present (.display "h" .reconnecting)).2 =
        [nameLine namedTunnel .reconnecting] := by
  obtain ⟨d, hd, hshown, hline⟩ := lines_name_standing reach_switchingService deeds_switchingService
  have hstands : standing untilSwitching = some namedTunnel := rfl
  rw [hstands] at hline
  exact ⟨d, hd, hshown, hline⟩

/-- **A resumption writes the name of another tunnel** than the one that it shows. -/
theorem resumption_names_other : ¬∀ s, Reach Machine.Orderly rememberingService s →
    ∀ before name status since,
      s.world.deeds = before ++ .called (.present (.display name status)) () :: since →
        ((indicator before).present (.display name status)).2 =
          [(.info, "[" ++ name ++ "] " ++ status.title)] := by
  intro h
  have hline := h _ reach_switchingService _ _ _ _ deeds_switchingService
  have hindicator : indicator untilSwitching = ⟨some "n"⟩ := rfl
  rw [hindicator] at hline
  exact absurd hline (by decide)

end TunnelKeeper.Service
