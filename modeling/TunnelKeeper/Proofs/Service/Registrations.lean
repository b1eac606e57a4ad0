import Mathlib.Data.List.Chain
import TunnelKeeper.Proofs.Service.Performs

/-!
# Registrations — one for each session

The service asks for network events when a session begins and gives that up when it ends.  Both can
fail.  What the deeds tell of it are marks: a registration that worked, and one that is given up,
whether that works or not (`Deed.mark?`).

`Marks b deeds` says that the two take turns in the deeds, registering first, and that `b` tells
whether a registration is outstanding.  A session that is followed has one, because its
`Session.monitored` is set where a registration has worked and cleared where it is given up, and
because nothing but the start that brings the interface up registers (`hasRegistered`).

* `Attempt.registered`: every start leaves the registration with the session, however it ends.
* `registering_lasting`: so does every section.
* `registrations_match_sessions`: so registrations are one to one with sessions in every run.
-/

namespace TunnelKeeper.Service

/-! ### Marks -/

/-- What a deed tells of registrations: one has worked, or is given up. -/
def Deed.mark? : Deed → Option Bool
  | .called .register true => some true
  | .called .unregister _ => some false
  | _ => none

/-- The marks among deeds. -/
def marksOf (deeds : List Deed) : List Bool := deeds.filterMap Deed.mark?

theorem marksOf_append (deeds more : List Deed) :
    marksOf (deeds ++ more) = marksOf deeds ++ marksOf more :=
  List.filterMap_append

theorem true_mem_marksOf {deeds : List Deed} :
    true ∈ marksOf deeds ↔ .called .register true ∈ deeds := by
  refine List.mem_filterMap.trans ⟨?_, fun h => ⟨_, h, rfl⟩⟩
  rintro ⟨x, hx, hm⟩
  unfold Deed.mark? at hm
  split at hm
  case h_1 => exact hx
  case h_2 | h_3 => cases hm

/-- Registering and giving up take turns, and registering comes first. -/
def Alternate (marks : List Bool) : Prop := marks.IsChain (· ≠ ·) ∧ marks.head? ≠ some false

theorem Alternate.of_append {marks more : List Bool} (h : Alternate (marks ++ more)) :
    Alternate marks := by
  refine ⟨h.1.left_of_append, fun hm => h.2 ?_⟩
  rw [List.head?_append, hm]
  rfl

/-- **Marks that alternate**, and whether a registration is outstanding after them. -/
inductive Marks : Bool → List Bool → Prop where
  | none : Marks false []
  | registered {marks : List Bool} (h : Marks false marks) : Marks true (marks ++ [true])
  | givenUp {marks : List Bool} (h : Marks true marks) : Marks false (marks ++ [false])

namespace Marks

theorem outstanding {b : Bool} {marks : List Bool} (h : Marks b marks) :
    marks.getLast? = some true ↔ b = true := by
  cases h with
  | none => simp
  | registered | givenUp => simp

theorem alternate {b : Bool} {marks : List Bool} (h : Marks b marks) : Alternate marks := by
  have turn : ∀ {marks : List Bool} {b : Bool}, Alternate marks → (marks = [] → b = true) →
      marks.getLast? ≠ some b → Alternate (marks ++ [b]) := by
    intro marks b h hn hl
    refine ⟨List.isChain_append.2 ⟨h.1, .singleton b, ?_⟩, ?_⟩
    · rintro x hx y hy rfl
      cases hy
      exact hl hx
    · cases marks with
      | nil => simp [hn rfl]
      | cons x marks => exact h.2
  induction h with
  | none => exact ⟨.nil, nofun⟩
  | registered h ih => exact turn ih (fun _ => rfl) (fun hl => nomatch h.outstanding.1 hl)
  | givenUp h ih =>
      have hl := h.outstanding.2 rfl
      exact turn ih (fun hn => by rw [hn] at hl; cases hl) (by rw [hl]; simp)

end Marks

/-- A registration that may have worked. -/
theorem Marks.tried {marks : List Bool} (h : Marks false marks) (worked : Bool) :
    Marks worked (marks ++ if worked then [true] else []) := by
  cases worked with
  | true => exact h.registered
  | false => exact (List.append_nil marks).symm ▸ h

/-- The registration is given up, if there is one. -/
theorem Marks.cleared {outstanding : Bool} {marks : List Bool} (h : Marks outstanding marks) :
    Marks false (marks ++ if outstanding then [false] else []) := by
  cases outstanding with
  | true => exact h.givenUp
  | false => exact (List.append_nil marks).symm ▸ h

/-! ### The session that is followed -/

/-- Whether a start has registered, after one more deed; one that brings the interface up anew has
not yet. -/
def Deed.registers (registered : Bool) : Deed → Bool
  | .called .establish _ => false
  | .called .register answer => answer
  | _ => registered

/-- Whether the start that was the last to bring the interface up has registered. -/
def hasRegistered (deeds : List Deed) : Bool := deeds.foldl Deed.registers false

/-- **The registration is that of the session**, whenever the lock is free. -/
structure Registered (c : Custody) : Prop where
  marks : Marks c.session.monitored (marksOf c.deeds)
  session : c.session.monitored = (c.session.active.isSome && hasRegistered c.deeds)

/-- Registering and giving up take turns at all times, and at rest the session knows which is the
last. -/
def registering : Terms where
  always c := Alternate (marksOf c.deeds)
  rest := Registered

theorem registering_along {acts : List Act} {c : Custody} (h : Registered (c.afterAll acts)) :
    registering.Along acts Registered c := by
  refine Terms.along_of_deeds (P := fun deeds => Alternate (marksOf deeds))
    (fun deeds more hm => ?_) (fun _ hc => hc) ?_ h
  · rw [marksOf_append] at hm
    exact hm.of_append
  · rw [← Custody.deeds_afterAll]
    exact h.marks.alternate

/-! ### Sections -/

theorem hasRegistered_afterAll (c : Custody) (acts : List Act) :
    hasRegistered (c.afterAll acts).deeds =
      (deedsOf acts).foldl Deed.registers (hasRegistered c.deeds) := by
  rw [c.deeds_afterAll]
  exact List.foldl_append

/-- Deeds that tell nothing of registrations. -/
def Unmarked (deeds : List Deed) : Prop :=
  marksOf deeds = [] ∧ ∀ registered, deeds.foldl Deed.registers registered = registered

theorem unmarked_openingActs (old : Option Descriptor) (d : Descriptor) :
    Unmarked (deedsOf (openingActs old d)) := by
  cases old <;> exact ⟨rfl, fun _ => rfl⟩

theorem ProxyStart.unmarked {config : TunnelConfig} {probing : Bool} {acts : List Act}
    {code : ErrorCode} (h : ProxyStart config probing acts code) : Unmarked (deedsOf acts) := by
  cases h <;> exact ⟨rfl, fun _ => rfl⟩

theorem unmarked_announceActs {d : Descriptor} {address : SocketAddress}
    {udp saved savedUdp savedStatus : Bool} :
    Unmarked (deedsOf (announceActs d address udp saved savedUdp savedStatus)) :=
  ⟨rfl, fun _ => rfl⟩

/-- A registration is outstanding just when the network is followed. -/
def Marked (c : Custody) : Prop := Marks c.session.monitored (marksOf c.deeds)

namespace Marked

variable {c : Custody}

theorem quiet (h : Marked c) {acts : List Act} (hd : marksOf (deedsOf acts) = [])
    (hm : (c.afterAll acts).session.monitored = c.session.monitored) : Marked (c.afterAll acts) := by
  unfold Marked
  rw [hm, c.deeds_afterAll, marksOf_append, hd, List.append_nil]
  exact h

/-- **Where everything is taken down, the registration is given up.** -/
theorem tearDown (h : Marked c) (unregistered written : Bool) :
    Registered (c.afterAll (tearDownActs c.session.monitored unregistered written)) := by
  rw [afterAll_tearDownActs, Bool.not_and_self]
  refine ⟨?_, rfl⟩
  have hm : marksOf (deedsOf (tearDownActs c.session.monitored unregistered written)) =
      if c.session.monitored then [false] else [] := by
    cases c.session.monitored <;> rfl
  show Marks false (marksOf _)
  rw [marksOf_append, hm]
  exact Marks.cleared h

theorem failed (h : Marked c) {monitored : Bool} (hm : c.session.monitored = monitored)
    (d : Descriptor) (code : ErrorCode) (unregistered written : Bool) :
    Registered (c.afterAll (failActs d code monitored unregistered written)) := by
  subst hm
  rw [failActs, ← List.singleton_append, Custody.afterAll_append]
  have hq : Marked (c.afterAll [.deed (.called (.emit (.started (some d.id) code)) ())]) :=
    h.quiet rfl rfl
  exact hq.tearDown _ _

/-- Where the interface becomes ready, a registration that works is noted. -/
theorem ready {session : Session} {acts : List Act} {monitored : Bool} (h : Marked c)
    (hr : Ready session acts monitored) (hm : c.session.monitored = session.monitored) :
    Marked (c.afterAll acts) := by
  unfold Marked
  rw [hr.afterAll hm]
  show Marks monitored (marksOf (c.deeds ++ deedsOf acts))
  unfold Marked at h
  rw [marksOf_append]
  cases hr with
  | reused => exact (List.append_nil (marksOf c.deeds)).symm ▸ hm ▸ h
  | followed _ hf =>
      rw [hm, hf] at h
      exact (List.append_nil (marksOf c.deeds)).symm ▸ h
  | fresh _ hf =>
      rw [hm, hf] at h
      cases monitored with
      | true => exact h.tried true
      | false => exact h.tried false

end Marked

/-- The tunnel that is connected is followed just when the start that brought the interface up has
registered. -/
theorem Ready.hasRegistered {session : Session} {acts : List Act} {monitored : Bool}
    (h : Ready session acts monitored) {registered : Bool}
    (hs : session.monitored = (session.active.isSome && registered)) :
    monitored = (deedsOf acts).foldl Deed.registers registered := by
  cases h with
  | reused ho =>
      rw [hs, ho]
      rfl
  | followed ho hm =>
      rw [hm, ho] at hs
      cases hs
  | fresh => cases monitored <;> rfl

theorem Attempt.registered {T : Terms} {c : Custody} {d : Descriptor} {auto : Bool}
    {acts : List Act} {code : ErrorCode} (h : Attempt T c d auto acts code) (hr : Registered c) :
    Registered (c.afterAll acts) := by
  let opened := c.afterAll (openingActs c.session.active d)
  have hs : opened.session = ⟨some d, c.session.monitored⟩ := by
    rw [show opened = _ from afterAll_openingActs c c.session.active d]
  have hopened : Marked opened :=
    Marked.quiet hr.marks (unmarked_openingActs _ d).1 (congrArg Session.monitored hs :)
  -- The start of the proxy leaves the session alone,
  have started : ∀ {acts code}, ProxyStart d.config (!auto) acts code →
      Marked (opened.afterAll acts) ∧
        (opened.afterAll acts).session = ⟨some d, c.session.monitored⟩ := by
    intro acts code hp
    have hp' : (opened.afterAll acts).session = opened.session := by rw [hp.afterAll]
    exact ⟨hopened.quiet hp.unmarked.1 (congrArg Session.monitored hp' :), hp'.trans hs⟩
  -- and a registration that is tried afterwards is noted.
  have readied : ∀ {acts code ready monitored}, ProxyStart d.config (!auto) acts code →
      Ready c.session ready monitored → Marked ((opened.afterAll acts).afterAll ready) ∧
        ((opened.afterAll acts).afterAll ready).session = ⟨some d, monitored⟩ := by
    intro acts code ready monitored hp hready
    obtain ⟨hm, hs⟩ := started hp
    have hsame := congrArg Session.monitored hs
    refine ⟨hm.ready hready hsame, ?_⟩
    rw [hready.afterAll hsame, hs]
  cases h with
  | noProxy hp =>
      rw [Custody.afterAll_append, Custody.afterAll_append]
      obtain ⟨hm, hs⟩ := started hp
      exact hm.failed (congrArg Session.monitored hs) d _ _ _
  | @noInterface acts _ hp =>
      rw [Custody.afterAll_append, Custody.afterAll_append, ← List.singleton_append,
        Custody.afterAll_append]
      obtain ⟨hm, hs⟩ := started hp
      have hm : Marked ((opened.afterAll acts).afterAll [.deed (.called .establish false)]) :=
        hm.quiet rfl rfl
      exact hm.failed (congrArg Session.monitored hs) d _ _ _
  | @noConnection acts ready _ _ hp _ hready address udp =>
      rw [Custody.afterAll_append, Custody.afterAll_append, Custody.afterAll_append,
        ← List.singleton_append, Custody.afterAll_append]
      obtain ⟨hm, hs⟩ := readied hp hready
      have hm : Marked (((opened.afterAll acts).afterAll ready).afterAll
          [.deed (.called (.connect address udp) false)]) := hm.quiet rfl rfl
      exact hm.failed (congrArg Session.monitored hs) d _ _ _
  | @connected acts ready _ monitored hp _ hready =>
      rw [Custody.afterAll_append, Custody.afterAll_append, Custody.afterAll_append]
      obtain ⟨hm, hs⟩ := readied hp hready
      refine ⟨hm.quiet rfl rfl, ?_⟩
      have hc : monitored = hasRegistered ((opened.afterAll acts).afterAll ready).deeds := by
        rw [hasRegistered_afterAll, hasRegistered_afterAll, hp.unmarked.2, hasRegistered_afterAll,
          (unmarked_openingActs _ d).2]
        exact hready.hasRegistered hr.session
      rw [hasRegistered_afterAll]
      show ((opened.afterAll acts).afterAll ready).session.monitored =
        (((opened.afterAll acts).afterAll ready).session.active.isSome &&
          hasRegistered ((opened.afterAll acts).afterAll ready).deeds)
      rw [hs]
      exact hc

/-- Where nothing tells of registrations and the session stays, nothing changes. -/
theorem Registered.quiet {c : Custody} (h : Registered c) {acts : List Act}
    (hd : Unmarked (deedsOf acts)) (hs : (c.afterAll acts).session = c.session) :
    Registered (c.afterAll acts) := by
  refine ⟨Marked.quiet h.marks hd.1 (congrArg Session.monitored hs :), ?_⟩
  rw [hs, hasRegistered_afterAll, hd.2]
  exact h.session

/-- **Every section leaves the registration with the session.** -/
theorem registering_lasting : registering.Lasting where
  met := ⟨{}, trivial⟩
  kept c acts _ hr h := by
    have hr : Registered c := hr
    have told : ∀ x : Deed, Unmarked [x] → Marked (c.afterAll [.deed x]) := fun x hx =>
      Marked.quiet hr.marks hx.1 rfl
    refine registering_along ?_
    cases h with
    | looked => exact hr
    | started h => exact h.registered hr
    | resumed d acts code loaded h =>
        rw [Custody.afterAll_append]
        exact h.registered (hr.quiet ⟨rfl, fun _ => rfl⟩ rfl)
    | unloaded | unprepared | reported | recorded => exact hr.quiet ⟨rfl, fun _ => rfl⟩ rfl
    | stopped | revoked =>
        rw [← List.singleton_append, Custody.afterAll_append]
        exact (told _ ⟨rfl, fun _ => rfl⟩).tearDown _ _
    | destroyed => exact Marked.tearDown hr.marks _ _

/-! ### Every run -/

/-- A start that finds no tunnel and connects is the one that tells whether anything is registered.
-/
theorem Attempt.opens {T : Terms} {c : Custody} {d : Descriptor} {auto : Bool} {acts : List Act}
    {code : ErrorCode} (h : Attempt T c d auto acts code) (ho : c.session.active = none)
    (hc : code.isContinuable = true) :
    hasRegistered (c.afterAll acts).deeds = true ↔ .called .register true ∈ deedsOf acts := by
  cases h with
  | noProxy _ hn => rw [hc] at hn; cases hn
  | noInterface | noConnection => cases hc
  | @connected _ _ _ monitored hp _ hready =>
      rw [hasRegistered_afterAll, ← true_mem_marksOf, deedsOf_append, deedsOf_append,
        deedsOf_append, List.foldl_append, List.foldl_append, (unmarked_openingActs _ d).2,
        hp.unmarked.2, List.foldl_append, unmarked_announceActs.2, marksOf_append, marksOf_append,
        marksOf_append, (unmarked_openingActs _ d).1, hp.unmarked.1, unmarked_announceActs.1,
        List.nil_append, List.nil_append, List.append_nil]
      cases hready with
      | reused hold => rw [ho] at hold; cases hold
      | followed => exact iff_of_false Bool.false_ne_true List.not_mem_nil
      | fresh =>
          cases monitored with
          | true => exact iff_of_true rfl List.mem_cons_self
          | false => exact iff_of_false Bool.false_ne_true List.not_mem_nil

theorem kept_registering (limits : Limits) (poolSize : Nat) (store : Store.Persisted) :
    Kept registering (Machine.fresh limits poolSize store) none :=
  .fresh limits poolSize store ⟨.nil, nofun⟩ ⟨.none, rfl⟩

/-- **Registrations are one to one with sessions.**  In every run, whatever registering and giving
up come to, registrations that work and those that are given up take turns, and a registration comes
first.  Whenever the lock is free, one is outstanding just when there is an active tunnel and the
start that opened its session has registered.  That start is the one that was the last to bring the
interface up: a start that replaces a tunnel asks for no registration, and one that finds no tunnel
and connects has registered just when it was answered so. -/
theorem registrations_match_sessions {limits : Limits} {poolSize : Nat} {store : Store.Persisted}
    {s : Machine} (h : Reach Machine.Orderly (Machine.fresh limits poolSize store) s) :
    Alternate (marksOf s.world.deeds) ∧
    (s.AtRest → ((marksOf s.world.deeds).getLast? = some true ↔
      s.world.session.active.isSome = true ∧ hasRegistered s.world.deeds = true)) ∧
    ∀ t d auto k task s' code, s.Inside t → s.tasks[t]? = some task →
      task.program = (Program.startLocked limits d auto).bind k →
      Performs Machine.Orderly t k s (Program.startLocked limits d auto) s' code →
      ∃ since, s'.world.deeds = s.world.deeds ++ since ∧
        (s.world.session.active ≠ none → ∀ answer, .called .register answer ∉ since) ∧
        (s.world.session.active = none → code.isContinuable = true →
          (hasRegistered s'.world.deeds = true ↔ .called .register true ∈ since)) := by
  have hreg : Reach registering.Allows (Machine.fresh limits poolSize store) s :=
    h.mono fun _ _ hl => ⟨hl, fun _ => trivial, fun _ _ _ => trivial⟩
  have h₀ := kept_registering limits poolSize store
  refine ⟨hreg.always registering_lasting h₀, fun hr => ?_,
    fun t d auto k task s' code hin htask hprog hp => ?_⟩
  · have hs : Registered s.world.custody := hreg.atRest registering_lasting h₀ hr
    have hm := hs.marks.outstanding
    rw [hs.session, Bool.and_eq_true] at hm
    exact hm
  · refine (hp.mono fun _ _ => allows_loose).startLocked loose_lasting (kept_loose ..)
      (h.mono fun _ _ => allows_loose) hin htask hprog (fun code c => ∃ since,
        c.deeds = s.world.deeds ++ since ∧
        (s.world.session.active ≠ none → ∀ answer, .called .register answer ∉ since) ∧
        (s.world.session.active = none → code.isContinuable = true →
          (hasRegistered c.deeds = true ↔ .called .register true ∈ since)))
      fun acts code ha => ?_
    refine (Terms.along_of_always fun _ => trivial).2
      ⟨deedsOf acts, Custody.deeds_afterAll _ acts, fun ho answer hm => ?_, ha.opens⟩
    exact List.filter_eq_nil_iff.1 (ha.reuses ho) _ hm rfl

/-- A tunnel that is resumed is registered, and the start that replaces it registers nothing. -/
theorem resumed_tunnel_registered :
    marksOf resumedService.world.deeds = [true] ∧ resumedService.world.session.active.isSome = true ∧
    hasRegistered resumedService.world.deeds = true ∧
    ∃ s since, Performs Machine.Orderly 2 afterStart replacingService
        (Program.startLocked {} incompleteTunnel false) s .illegalServerConfiguration ∧
      s.world.deeds = replacingService.world.deeds ++ since ∧
      ∀ answer, .called .register answer ∉ since := by
  have h : Reach Machine.Orderly rememberingService resumedService :=
    reach_resumedService (by simp [resuming, Machine.Orderly])
  have h' : Reach Machine.Orderly rememberingService replacingService :=
    h.trans (reach_replacingService (by simp [replacing, Machine.Orderly]))
  obtain ⟨-, hrest, -⟩ := registrations_match_sessions h
  obtain ⟨ha, hr⟩ := (hrest atRest_resumedService).1 rfl
  obtain ⟨s, hs⟩ : ∃ s, Performs Machine.Orderly 2 afterStart replacingService
      (Program.startLocked {} incompleteTunnel false) s .illegalServerConfiguration :=
    performs_replacingService (by simp [Machine.Orderly])
  obtain ⟨-, -, hstart⟩ := registrations_match_sessions h'
  obtain ⟨since, hd, hn, -⟩ := hstart 2 incompleteTunnel false afterStart _ s _
    inside_replacingService task_replacingService rfl hs
  exact ⟨rfl, ha, hr, s, since, hs, hd, hn nofun⟩

end TunnelKeeper.Service
