import TunnelKeeper.Proofs.Service.Callers
import TunnelKeeper.Proofs.Service.Hushed

/-!
# Lulls — while nobody starts a tunnel

After a tunnel has been taken down, reactors are left over.  They may be anywhere in what they do
about an event, and more events may reach them.  As long as nobody gets the lock to start or resume
a tunnel (`Machine.Lull`), none of them brings the tunnel back: under the lock each one looks for a
tunnel first, and there is none.  Others may go on to stop, revoke and destroy, which changes
nothing that a reactor could see.

* `Lulled.step`: every step of a lull keeps it so, and no reactor does anything that the lock
  guards.
* `reactors_stay_silent`: so does every lull, from wherever a run has come to be without a tunnel.
-/

namespace TunnelKeeper.Service

variable {α : Type} {n : Nat} {c : Custody}

/-! ### A lull -/

variable {s s' : Machine} {o o' : Option Pending} {l : Label} {i t : TaskId}

/-- **A step of a lull**: no caller gets the lock to start or resume a tunnel. -/
def Machine.Lull (s : Machine) (l : Label) : Prop :=
  s.Orderly l ∧ ∀ t around task (op : Operation), l = .turn t around → s.tasks[t]? = some task →
    task.registration = none → op.starts = true → task.program = op.program s.limits →
      s.holder ≠ none ∧ s.holder ≠ some t

/-- What a reactor may know in its section while there is no tunnel. -/
inductive Sight.Vacant : Sight → Prop where
  | entered (reported : Option Descriptor) : Vacant (.entered reported)
  | seeing (reported : Option Descriptor) : Vacant (.seeing reported none)

/-- **What a task may still do**, if it reads a registration or not: a reactor goes by what it sees,
which is no tunnel, and a caller that is in its section brings none back. -/
structure Harmless (n : Nat) (s : Machine) (o : Option Pending) (i : TaskId)
    (registration : Option Nat) (p : Program Reply) : Prop where
  apart : registration.isSome = true → ¬s.Inside i →
    ∃ reported, Heeds (fun _ _ => True) (.apart reported) p
  reactor : registration.isSome = true → s.Inside i →
    o = none ∧ ∃ m : Sight, m.Vacant ∧ Heeds (fun _ _ => True) m p
  caller : registration = none → s.Inside i → Lawful (hushed n) (some (o, s.world.custody)) p

/-- A task without the lock that asks for nothing. -/
theorem Harmless.idle (registration : Option Nat) (hin : ¬s.Inside i) :
    Harmless n s o i registration Task.idle where
  apart _ _ := ⟨none, trivial⟩
  reactor _ h := absurd h hin
  caller _ h := absurd h hin

/-- **A lull goes on.** -/
structure Lulled (n : Nat) (s : Machine) (o : Option Pending) : Prop where
  kept : Kept .loose s o
  hushed : Hushed n s.world.custody
  callers : CallersStand s
  harmless : ∀ i task, s.tasks[i]? = some task → Harmless n s o i task.registration task.program

/-- What is not a turn of the task inside. -/
theorem Lulled.step_apart (h : Lulled n s o) (hl : s.Lull l) (hs : s.step? l = some s')
    (hn : ∀ t around, l = .turn t around → ¬s.Inside t) : ∃ o', Lulled n s' o' := by
  obtain ⟨o', hk, hd, hst⟩ := h.kept.step_apart loose_lasting (allows_loose hl.1) hn hs
  -- What is pending is that of a caller, and it may only come to nothing.
  have hushed : Hushed n s'.world.custody := by
    by_cases hr : s.AtRest
    · obtain ⟨rfl, -⟩ := h.kept.rest hr
      exact hd.none_inv.2 ▸ h.hushed
    · obtain ⟨i, hin⟩ := Classical.not_forall.1 hr
      have hin := Classical.not_not.1 hin
      obtain ⟨task, htask, -, -⟩ := h.kept.inside i hin
      have hi := h.harmless i task htask
      cases hr : task.registration with
      | none => exact (hi.caller hr hin).always_of_drift h.hushed hd
      | some registration =>
          obtain ⟨rfl, -⟩ := hi.reactor (by rw [hr]; rfl) hin
          exact hd.none_inv.2 ▸ h.hushed
  refine ⟨o', hk, hushed, h.callers.step h.kept hl.1 hs, fun i task htask => ?_⟩
  have hmoves := h.kept.moves hl.1 hs htask
  generalize task.program = p, task.registration = registration at hmoves
  cases hmoves with
  | called op _ hin => exact ⟨nofun, nofun, fun _ hin' => absurd hin' hin⟩
  | spawned _ _ _ _ hin | dropped _ hin => exact .idle _ hin
  | stays hold _ hin =>
      obtain ⟨apart, reactor, caller⟩ := h.harmless i _ hold
      rw [← hin] at apart reactor caller
      refine ⟨apart, fun hr hin => ?_, fun hr hin => (caller hr hin).of_drift hd⟩
      obtain ⟨rfl, hm⟩ := reactor hr hin
      exact ⟨hd.none_inv.1, hm⟩
  | reacts _ _ _ hr _ e _ _ _ hin =>
      refine ⟨fun _ _ => ⟨none, ?_⟩, fun _ hin' => absurd hin' hin, fun _ hin' => absurd hin' hin⟩
      exact .bind ((heeds_react s.limits e).mono fun _ _ _ => trivial)
  | @entered old around next hturn hold hp hh _ hrest hin =>
      obtain ⟨rfl, -⟩ := h.kept.rest hrest
      obtain ⟨rfl, hc⟩ := hd.none_inv
      refine ⟨fun _ hout => absurd hin hout, fun hr _ => ⟨rfl, ?_⟩, fun hr _ => ?_⟩
      · obtain ⟨reported, hheeds⟩ := (h.harmless i _ hold).apart hr (hrest i)
        rw [hp] at hheeds
        exact ⟨_, .entered reported, hheeds⟩
      · -- A caller that gets the lock is about to carry out an operation that starts no tunnel.
        rw [hc]
        rcases (h.callers i _ hold hr).2 (hrest i) with hbare | ⟨op, -, hop⟩
        · rw [hp] at hbare
          exact absurd hbare.1 nofun
        · cases hstarts : op.starts with
          | true =>
              obtain ⟨hfree, hother⟩ := hl.2 i around _ op hturn hold hr hstarts hop
              exact absurd hh (not_or.2 ⟨hfree, hother⟩)
          | false =>
              have hlaw : Lawful (Service.hushed n) none (op.program s.limits) :=
                op.hushed s.limits hstarts
              rw [← hop, hp] at hlaw
              exact hlaw _ h.hushed h.hushed
  | @answered old around q next a s₁ hturn hold hp hlock _ _ _ hin =>
      have hout := hn i around hturn
      have hout' : ¬s'.Inside i := fun hin' => hout (hin.1 hin')
      refine ⟨fun hr _ => ?_, fun _ hin' => absurd hin' hout', fun _ hin' => absurd hin' hout'⟩
      obtain ⟨reported, hheeds⟩ := (h.harmless i _ hold).apart hr hout
      rw [hp] at hheeds
      exact ⟨reported, (Sight.Poses.free hheeds hlock).2 a⟩
  | left hturn _ _ _ hin => exact absurd hin (hn i _ hturn)

/-- Nobody else is concerned by a turn of the task inside. -/
theorem Lulled.others (h : Lulled n s o) {around : Surroundings} (hin : s.Inside t)
    (hs : s.turn? t around = some s') (hi : t ≠ i) {task : Task} (htask : s'.tasks[i]? = some task) :
    Harmless n s' o' i task.registration task.program := by
  have hmoves := h.kept.moves (l := .turn t around) trivial hs htask
  generalize task.program = p, task.registration = registration at hmoves
  cases hmoves with
  | called op _ hout => exact ⟨nofun, nofun, fun _ hin' => absurd hin' hout⟩
  | spawned _ _ _ _ hout | dropped _ hout => exact .idle _ hout
  | stays hold _ hsame =>
      have hout : ¬s.Inside i := fun hin' => hi (hin.unique hin')
      have hout' : ¬s'.Inside i := fun hin' => hout (hsame.1 hin')
      exact ⟨fun hr _ => (h.harmless i _ hold).apart hr hout, fun _ hin' => absurd hin' hout',
        fun _ hin' => absurd hin' hout'⟩
  | reacts hturn | entered hturn | answered hturn | left hturn =>
      cases hturn
      exact absurd rfl hi

/-- What is demanded on some terms is demanded on looser ones. -/
theorem Terms.Asked.loosen {T : Terms} (hrely : ∀ around, T.rely around) (hc : T.always c)
    {q : Ask} {K : q.Answer → Option Pending → Custody → Prop} (hq : T.Asked o c q K) :
    Terms.loose.Asked o c q fun a o c => T.always c ∧ K a o c := by
  have loosen : ∀ {acts : List Act} {K : Custody → Prop}, T.Along acts K c →
      Terms.loose.Along acts (fun c => T.always c ∧ K c) c := fun h =>
    (Terms.along_of_always fun _ => trivial).2 (Terms.along_iff.1 (h.always hc)).2
  cases q with
  | lock | unlock => exact hq
  | session | spawnReactor | visibleActive | visibleStatus | abandon | pause => exact ⟨hc, hq⟩
  | setActive | setMonitored | publishActive | publishStatus => exact loosen hq
  | now => exact fun time => ⟨hc, hq time⟩
  | spawn work =>
      cases work with
      | startProxy config => exact ⟨hq.1, fun id stage hs => ⟨hc, hq.2 id stage hs⟩⟩
      | checkUdp | checkServer | checkCredentials | errand => exact fun id => ⟨hc, hq id⟩
  | join id limit => exact fun joined o' hj => ⟨hc, hq joined o' hj⟩
  | call k => exact fun a ⟨around, _, ha⟩ => loosen (hq a ⟨around, hrely around, ha⟩)

/-- What a reactor asks in its section while there is no tunnel: for the session, or to leave. -/
theorem Sight.Vacant.asks {m : Sight} (hm : m.Vacant) {q : Ask} {next : q.Answer → Program α}
    (h : Heeds (fun _ _ => True) m (.ask q next)) :
    (∃ hq : q = .session, ∀ session : Session, session.active = none → ∃ m : Sight, m.Vacant ∧
      Heeds (fun _ _ => True) m (next (hq ▸ session))) ∨
    ∃ hq : q = .unlock, ∃ reported,
      Heeds (fun _ _ => True) (.apart reported) (next (hq ▸ ())) := by
  cases hm with
  | entered reported =>
      cases q with
      | session =>
          refine .inl ⟨rfl, fun session hn => ⟨_, ?_, h session⟩⟩
          rw [hn]
          exact .seeing reported
      | _ => exact h.elim
  | seeing reported =>
      cases q with
      | session => exact .inl ⟨rfl, fun session hn => ⟨_, .seeing reported, h session hn⟩⟩
      | unlock => exact .inr ⟨rfl, reported, h⟩
      | publishStatus => exact absurd h.1 nofun
      | call k =>
          obtain ⟨d, m, hd, -⟩ := h
          cases hd
      | _ => exact h.elim

section Inside

variable {around : Surroundings} {task : Task} {q : Ask} {next : q.Answer → Program Reply}
  {a : q.Answer} {s₁ : Machine}

/-- A reactor in its section looks for a tunnel, or leaves. -/
theorem Lulled.reactor_answered (h : Lulled n s o) (hin : s.Inside t)
    (htask : s.tasks[t]? = some task) (hr : task.registration.isSome = true)
    (hp : task.program = .ask q next) (hs : s.respond t around q = some (a, s₁)) :
    ∃ o', Kept .loose (s₁.goOn t (next a)) o' ∧ Hushed n s₁.world.custody ∧
      Harmless n (s₁.goOn t (next a)) o' t task.registration (next a) := by
  obtain ⟨rfl, m, hm, hheeds⟩ := (h.harmless t task htask).reactor hr hin
  have hcaller : ∀ {P : Prop}, task.registration = none → P := fun hn => by rw [hn] at hr; cases hr
  rw [hp] at hheeds
  obtain ⟨rfl, hnext⟩ | ⟨rfl, reported, hnext⟩ := hm.asks hheeds
  · obtain ⟨o', hk, hin', rfl⟩ :=
      h.kept.turn_asked (K := fun _ o' _ => o' = none) hin trivial htask hp nofun rfl hs
    cases hs
    exact ⟨none, hk, h.hushed, fun _ hout => absurd hin' hout,
      fun _ _ => ⟨rfl, hnext _ h.hushed.session⟩, fun hn => hcaller hn⟩
  · obtain ⟨task', htask', -, hlaw⟩ := h.kept.inside t hin
    obtain rfl := Option.some.inj (htask.symm.trans htask')
    rw [hp] at hlaw
    cases hs
    have hout := h.kept.atRest_leave hin (next ()) t
    exact ⟨none, h.kept.leave hin rfl trivial hlaw.unlocks.2.2, h.hushed,
      fun _ _ => ⟨reported, hnext⟩, fun _ hin' => absurd hin' hout, fun hn => hcaller hn⟩

/-- A caller in its section brings no tunnel back. -/
theorem Lulled.caller_answered (h : Lulled n s o) (hin : s.Inside t)
    (htask : s.tasks[t]? = some task) (hr : task.registration = none)
    (hp : task.program = .ask q next) (hs : s.respond t around q = some (a, s₁)) :
    ∃ o', Kept .loose (s₁.goOn t (next a)) o' ∧ Hushed n s₁.world.custody ∧
      Harmless n (s₁.goOn t (next a)) o' t task.registration (next a) := by
  have hreactor : ∀ {P : Prop}, task.registration.isSome = true → P := fun hn => by
    rw [hr] at hn
    cases hn
  have hlaw := (h.harmless t task htask).caller hr hin
  rw [hp] at hlaw
  by_cases hu : q = .unlock
  · subst hu
    obtain ⟨rfl, -, -⟩ := hlaw.unlocks
    obtain ⟨task', htask', -, hloose⟩ := h.kept.inside t hin
    obtain rfl := Option.some.inj (htask.symm.trans htask')
    rw [hp] at hloose
    cases hs
    have hout := h.kept.atRest_leave hin (next ()) t
    exact ⟨none, h.kept.leave hin rfl trivial hloose.unlocks.2.2, h.hushed, fun hn => hreactor hn,
      fun hn => hreactor hn, fun _ hin' => absurd hin' hout⟩
  · obtain ⟨o', hk, hin', hushed, hnext⟩ := h.kept.turn_asked hin trivial htask hp hu
      ((hlaw.asked hu).loosen (fun _ => trivial) h.hushed) hs
    exact ⟨o', hk, hushed, fun hn => hreactor hn, fun hn => hreactor hn, fun _ _ => hnext⟩

end Inside

/-- **A turn of the task inside.** -/
theorem Lulled.turn_inside (h : Lulled n s o) {around : Surroundings} (hin : s.Inside t)
    (hs : s.turn? t around = some s') : ∃ o', Lulled n s' o' := by
  obtain ⟨task, htask, ha, hlaw⟩ := h.kept.inside t hin
  cases hp : task.program with
  | done r =>
      rw [hp] at hlaw
      cases hlaw
  | ask q next =>
      have hq : q ≠ .lock := by
        rintro rfl
        rw [hp] at hlaw
        exact Lawful.not_lock hlaw
      obtain ⟨a, s₁, hs₁, rfl⟩ := turn?_ask htask ha hp hq hs
      obtain ⟨o', hk, hushed, hself⟩ : ∃ o', Kept .loose (s₁.goOn t (next a)) o' ∧
          Hushed n s₁.world.custody ∧
          Harmless n (s₁.goOn t (next a)) o' t task.registration (next a) := by
        cases hr : task.registration with
        | none => exact hr ▸ h.caller_answered hin htask hr hp hs₁
        | some registration => exact hr ▸ h.reactor_answered hin htask (by rw [hr]; rfl) hp hs₁
      refine ⟨o', hk, hushed, h.callers.step (l := .turn t around) h.kept trivial hs,
        fun i other hother => ?_⟩
      by_cases hi : t = i
      · subst hi
        obtain rfl := Option.some.inj
          ((Machine.tasks_goOn_self (next a) (tasks_respond hs₁ htask)).symm.trans hother)
        exact hself
      · exact h.others hin hs hi hother

/-- **Every step of a lull lets it go on.** -/
theorem Lulled.step (h : Lulled n s o) (hl : s.Lull l) (hs : s.step? l = some s') :
    ∃ o', Lulled n s' o' := by
  by_cases hn : ∃ t around, l = .turn t around ∧ s.Inside t
  · obtain ⟨t, around, rfl, hin⟩ := hn
    exact h.turn_inside hin hs
  · exact h.step_apart hl hs fun t around hturn hin => hn ⟨t, around, hturn, hin⟩

/-- **No reactor does anything that the lock guards.** -/
theorem Lulled.unguarded (h : Lulled n s o) {task : Task} {k : Call}
    {next : k.Answer → Program Reply} (htask : s.tasks[t]? = some task)
    (hr : task.registration.isSome = true) (hp : task.program = .ask (.call k) next) :
    k.isGuarded = false := by
  have hharmless := h.harmless t task htask
  by_cases hin : s.Inside t
  · obtain ⟨-, m, hm, hheeds⟩ := hharmless.reactor hr hin
    rw [hp] at hheeds
    obtain ⟨hq, -⟩ | ⟨hq, -⟩ := hm.asks hheeds <;> cases hq
  · obtain ⟨reported, hheeds⟩ := hharmless.apart hr hin
    rw [hp] at hheeds
    exact not_guarded_of_isFree (Sight.Poses.free hheeds nofun).1

/-! ### Every lull -/

/-- **Silence** from one machine to a later one: there is no tunnel, everybody can see so, and what
was done in between was neither a start of the proxy nor, by any reactor, a call that the lock
guards, such as an event, something shown, a write, or the interface brought up or connected. -/
structure Silent (s s' : Machine) : Prop where
  active : s'.world.session.active = none
  visibleActive : s'.world.visibleActive = none
  visibleStatus : s'.world.visibleStatus = .disconnected
  done : ∃ since, s'.world.log = s.world.log ++ since ∧
    (∀ t k a task, .called t k a ∈ since → s'.tasks[t]? = some task →
      task.registration.isSome = true → k.isGuarded = false) ∧
    ∀ id config, .began id (.startProxy config) ∉ since

/-- A run that has come to be without a tunnel, and to nobody who has the lock. -/
theorem lulled_of_atRest {limits : Limits} {poolSize : Nat} {store : Store.Persisted}
    (h : Reach Machine.Orderly (Machine.fresh limits poolSize store) s) (hr : s.AtRest)
    (hn : s.world.session.active = none) :
    Lulled (s.world.deeds.countP Deed.isBegan) s none := by
  obtain ⟨o, hk⟩ := h.orderly_kept
  obtain ⟨rfl, -⟩ := hk.rest hr
  have hdisclosed : Reach disclosing.Allows (Machine.fresh limits poolSize store) s :=
    h.mono fun _ _ hl => ⟨hl, fun _ => trivial, fun _ _ _ => trivial⟩
  obtain ⟨ha, hv⟩ := hdisclosed.atRest disclosing_lasting (kept_disclosing ..) hr hn
  obtain ⟨o, -, hheeding⟩ := h.heeding
  refine ⟨hk, ⟨hn, ha, hv, rfl⟩, h.callersStand, fun i task htask => ⟨fun hreactor hin => ?_,
    fun _ hin => absurd hin (hr i), fun _ hin => absurd hin (hr i)⟩⟩
  obtain ⟨m, hm, hholds⟩ := hheeding.reactors i task htask hreactor
  obtain ⟨reported, rfl, -⟩ := hholds.apart hin
  exact ⟨reported, hm⟩

/-- **A lull as a whole**: it goes on, and no reactor has called anything that the lock guards. -/
theorem Reach.lulled {limits : Limits} {poolSize : Nat} {store : Store.Persisted}
    (h : Reach Machine.Orderly (Machine.fresh limits poolSize store) s) (hs : Lulled n s none)
    (hl : Reach Machine.Lull s s') : ∃ o, Lulled n s' o ∧ ∃ since,
      s'.world.log = s.world.log ++ since ∧ ∀ t k a task, .called t k a ∈ since →
        s'.tasks[t]? = some task → task.registration.isSome = true → k.isGuarded = false := by
  induction hl with
  | start => exact ⟨none, hs, [], (List.append_nil _).symm, fun _ _ _ _ hm => nomatch hm⟩
  | @step s₁ s₂ l hl₁ hl hstep ih =>
      obtain ⟨o, hlulled, since, hlog, hquiet⟩ := ih
      obtain ⟨o', hlulled'⟩ := hlulled.step hl hstep
      obtain ⟨e, hlog', he⟩ := log_step hstep
      obtain ⟨_, -, hheeding⟩ := (h.trans (hl₁.mono fun _ _ hl => hl.1)).heeding
      refine ⟨o', hlulled', since ++ e.toList, ?_, fun t k a task hm htask hr => ?_⟩
      · rw [hlog', hlog, List.append_assoc]
      · -- The task was there before the step, and was a reactor then.
        have known : ∀ old, s₁.tasks[t]? = some old → old.registration.isSome = true := by
          intro old hold
          obtain ⟨task', htask', hregistration⟩ := registration_step hstep hold
          obtain rfl := Option.some.inj (htask.symm.trans htask')
          exact hregistration ▸ hr
        rcases List.mem_append.1 hm with hm | hm
        · have hlogged : .called t k a ∈ s₁.world.log := hlog ▸ List.mem_append_right _ hm
          obtain ⟨old, hold⟩ := hheeding.callers t k a hlogged
          exact hquiet t k a old hm hold (known old hold)
        · obtain ⟨-, old, next, -, hold, hp⟩ := he t k a (Option.mem_toList.1 hm)
          exact hlulled.unguarded hold (known old hold) hp

/-- **Taking everything down** leaves no tunnel. -/
theorem Performs.tearDown {k : Unit → Program Reply} {task : Task} (hk : Kept .loose s o)
    (hin : s.Inside t) (htask : s.tasks[t]? = some task)
    (hprog : task.program = Program.tearDown.bind k)
    (h : Performs Terms.loose.Allows t k s Program.tearDown s' ()) :
    s'.world.session.active = none := by
  obtain ⟨task', htask', -, hlaw⟩ := hk.inside t hin
  obtain rfl := Option.some.inj (htask.symm.trans htask')
  rw [hprog] at hlaw
  have ho : o = none := by
    cases o with
    | none => rfl
    | some p => exact absurd hlaw.1 (by simp [Ask.isAbout])
  subst ho
  have secured : Terms.loose.Secures (fun _ c => c.session.active = none) none Program.tearDown
      s.world.custody := by
    refine .tearDown fun unregistered written _ => (Terms.along_of_always fun _ => trivial).2 ?_
    rw [afterAll_tearDownActs]
  exact h.secures loose_lasting hk hin secured

/-- **No reactor brings a tunnel back.**  In every run, where a start has failed or everything has
been taken down there is no tunnel.  From any such point on at which the lock is free, and as long
as no start and no resumption gets it, there is silence: whichever reactors are left over, wherever
they are in what they do, and whatever reaches them, in any order. -/
theorem reactors_stay_silent {limits : Limits} {poolSize : Nat} {store : Store.Persisted}
    (h : Reach Machine.Orderly (Machine.fresh limits poolSize store) s) :
    (∀ t d auto k task s' code, s.Inside t → s.tasks[t]? = some task →
      task.program = (Program.startLocked limits d auto).bind k →
      Performs Machine.Orderly t k s (Program.startLocked limits d auto) s' code →
      code.isContinuable = false → s'.world.session.active = none) ∧
    (∀ t k task s', s.Inside t → s.tasks[t]? = some task →
      task.program = Program.tearDown.bind k →
      Performs Machine.Orderly t k s Program.tearDown s' () → s'.world.session.active = none) ∧
    (s.AtRest → s.world.session.active = none → ∀ s', Reach Machine.Lull s s' → Silent s s') := by
  have hloose := h.mono fun _ _ => allows_loose
  refine ⟨fun t d auto k task s' code hin htask hprog hp hc => ?_,
    fun t k task s' hin htask hprog hp => ?_, fun hr hn s' hl => ?_⟩
  · refine (hp.mono fun _ _ => allows_loose).startLocked loose_lasting (kept_loose ..) hloose hin
      htask hprog (fun code c => code.isContinuable = false → c.session.active = none)
      (fun acts code ha => (Terms.along_of_always fun _ => trivial).2 fun hc => ?_) hc
    have hends := ha.ends
    rw [hc, if_neg Bool.false_ne_true] at hends
    exact hends.1
  · obtain ⟨o, hk⟩ := h.orderly_kept
    exact (hp.mono fun _ _ => allows_loose).tearDown hk hin htask hprog
  · obtain ⟨o, hlulled, since, hlog, hquiet⟩ := h.lulled (lulled_of_atRest h hr hn) hl
    obtain ⟨ha, hv, hs, hstarts⟩ := hlulled.hushed
    refine ⟨ha, hv, hs, since, hlog, hquiet, fun id config hm => ?_⟩
    -- As many starts of the proxy have begun as before.
    have hdeeds : s'.world.deeds = s.world.deeds ++ since.filterMap Entry.deed? := by
      rw [World.deeds, hlog, List.filterMap_append]
      rfl
    have hnone : (since.filterMap Entry.deed?).countP Deed.isBegan = 0 := by
      have hcount : s'.world.deeds.countP Deed.isBegan = s.world.deeds.countP Deed.isBegan := hstarts
      rw [hdeeds, List.countP_append] at hcount
      omega
    exact List.countP_eq_zero.1 hnone (.began config) (List.mem_filterMap.2 ⟨_, hm, rfl⟩) rfl

/-! ### A reactor that is left over -/

/-- A reactor measures whether datagrams work.  Meanwhile the network is lost, and the tunnel is
stopped. -/
def abandoning : List Label := List.flatten
  [[.deliver 0 (.available 7), .turn 1 {}, .turn 1 { networkState := fun _ => some .connected }],
    .replicate 10 (.turn 1 {}), [.deliver 0 (.lost 7), .call (.stop completeTunnel.id)],
    .replicate 19 (.turn 2 {})]

def abandoningService : Machine := (resumedService.run? abandoning).get (by rfl)

/-- The measurement ends, and so does what the reactor does about it and about the loss. -/
def lingering : List Label := carryOut 1 true ++ .replicate 10 (.turn 1 {})

/-- Whether a step is none that could get the lock to start a tunnel. -/
def Machine.isLulled (s : Machine) : Label → Bool
  | .turn t _ => s.tasks[t]?.all (·.registration.isSome)
  | .drop _ | .occupy _ => false
  | _ => true

def lingeringService : Machine :=
  (abandoningService.checkedRun? Machine.isLulled lingering).get (by rfl)

theorem lull_of_check {l : Label} (h : s.isLulled l = true) : s.Lull l := by
  refine ⟨?_, fun t around task op hl htask hr _ _ => ?_⟩
  · cases l with
    | drop t | occupy work => cases h
    | _ => trivial
  · subst hl
    have h : s.tasks[t]?.all (·.registration.isSome) = true := h
    rw [htask, Option.all_some, hr] at h
    cases h

/-- The reactor does nothing. -/
theorem leftover_reactor_stays_silent : Silent abandoningService lingeringService := by
  have h₁ : Reach Machine.Orderly rememberingService resumedService :=
    reach_resumedService (by simp [resuming, Machine.Orderly])
  have hl : ∀ l ∈ abandoning, ∀ s : Machine, s.Orderly l := by simp [abandoning, Machine.Orderly]
  have h₂ : Reach Machine.Orderly rememberingService abandoningService :=
    h₁.trans (.of_run? hl (Option.some_get _).symm)
  have h₃ : Reach Machine.Lull abandoningService lingeringService :=
    .of_checkedRun? (fun _ _ _ => lull_of_check) (Option.some_get _).symm
  obtain ⟨-, -, hsilent⟩ := reactors_stay_silent h₂
  exact hsilent (Machine.atRest_of_free rfl) rfl _ h₃

end TunnelKeeper.Service
