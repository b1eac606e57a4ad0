import TunnelKeeper.Proofs.Service.Heeding

/-!
# Isolation — how far a reactor reaches

A reactor outlives its session: events that were delivered before still wait for it, and it may be
in the middle of one.  Whatever it does then, it does to the tunnel of the session under way, and it
records and restarts only a tunnel that is the same as the one it has reported (`ReactorsAct`).  It
may well reach a later session, if that has a tunnel with the same id and configuration
(`late_reactor_reaches`).

* `Heeding.turn_inside`: a reactor in its section goes on to know what is true.
* `reactors_act_on_standing`: so what reactors do is right in every run.
-/

namespace TunnelKeeper.Service

variable {s s' : Machine} {o o' : Option Pending} {l : Label} {t : TaskId}

/-! ### The reactor inside -/

section Inside

variable {task : Task} {q : Ask} {next : q.Answer → Program Reply} {a : q.Answer} {s₁ : Machine}
  {around : Surroundings}

/-- Where nothing is pending, nothing is after a question that hands in no start of the proxy. -/
theorem Watches.answered (h : Watches s o t) (hk : Kept upstanding s o)
    (htask : s.tasks[t]? = some task) (hp : task.program = .ask q next) (hq : q ≠ .unlock)
    (hK : upstanding.Asked none s.world.custody q fun _ o' _ => o' = none)
    (hs : s.respond t around q = some (a, s₁)) (hstood : Stood s₁.world.custody) :
    Kept upstanding (s₁.goOn t (next a)) none ∧ Watches (s₁.goOn t (next a)) none t := by
  obtain ⟨hin, rfl, -⟩ := h
  obtain ⟨o', hk', hin', rfl⟩ := hk.turn_asked hin trivial htask hp hq hK hs
  exact ⟨hk', hin', rfl, hstood⟩

/-- What a reactor calls while it sees a tunnel is right. -/
theorem Sight.Calls.reacts {reported : Option Descriptor} {d : Descriptor} {k : Call} {m : Sight}
    (h : Sight.Calls reported d k m) (hknows : Knows s t reported) (hw : Watches s o t)
    (hd : s.world.session.active = some d) (hg : k.isGuarded = true) :
    (account s.world.log).Reacts t k := by
  have hd : (account s.world.log).standing = some d := by
    rw [standing_account, ← hd]
    exact hw.stood
  cases h with
  | looks hk => exact absurd (hk.symm.trans hg) nofun
  | connected => exact .reports hd (.inl rfl)
  | reconnecting => exact .reports hd (.inr rfl)
  | shows hs => exact .shows hd hs
  | records udp hr h => exact .records udp hd (hknows _ hr) h
  | restarts hr h => exact .restarts hd (hknows _ hr) h

/-- What a call makes of the log, and of what the lock guards. -/
theorem respond_call {k : Call} {a : k.Answer} (hs : s.respond t around (.call k) = some (a, s₁)) :
    s₁.world.log = s.world.log ++ [.called t k a] ∧
      s₁.world.custody = s.world.custody.afterAll (Act.ofCall k a) ∧
      s₁.world.session = s.world.session := by
  have hcustody := s.world.custody_perform t around k
  cases hs
  exact ⟨congrArg (· ++ [_]) (s.world.log_afterCall k _), hcustody,
    congrArg Custody.session (s.world.custody_afterCall k _)⟩

/-- What a reactor calls while it sees a tunnel neither announces one nor takes one down. -/
theorem Sight.Calls.follows {reported : Option Descriptor} {d : Descriptor} {k : Call} {m : Sight}
    (h : Sight.Calls reported d k m) (a : k.Answer) (r : Recalled) :
    r.followAll (deedsOf (Act.ofCall k a)) = r := by
  cases h with
  | looks hk =>
      rw [Act.ofCall, hk]
      rfl
  | connected | reconnecting | shows | records | restarts => rfl

/-- After a call it goes on knowing what is true. -/
theorem Sight.Calls.holds {reported : Option Descriptor} {d : Descriptor} {k : Call} {m : Sight}
    (h : Sight.Calls reported d k m) (hknows : Knows s t reported) (hw : Watches s o t)
    (hd : s.world.session.active = some d) {a : k.Answer}
    (hs : s.respond t around (.call k) = some (a, s₁)) (hw' : Watches s' none t)
    (hworld : s'.world = s₁.world) : m.Holds s' none t := by
  obtain ⟨hlog, -, hsession⟩ := respond_call hs
  have haccount : account s'.world.log = (account s.world.log).after (.called t k a) := by
    rw [hworld, hlog]
    exact account_append s.world.log (some _)
  have hactive : s'.world.session.active = some d := by rw [hworld, hsession, hd]
  have quiet : k.tells .connected = false → Knows s' t reported := by
    intro hk d hd
    rw [haccount, Account.reported_called _ hk, hknows d hd]
  cases h with
  | looks hg =>
      refine ⟨fun d hd => ?_, hw', hactive⟩
      rw [haccount, Account.after_unguarded _ hg, hknows d hd]
  | connected =>
      refine ⟨fun _ hd => ?_, hw', hactive⟩
      have hstanding : (account s.world.log).standing = some d := by
        rw [standing_account, ← ‹s.world.session.active = some d›]
        exact hw.stood
      rw [haccount, ← hd, ← hstanding]
      show (if _ then _ else _) = _
      simp [Call.tells, Event.changed]
  | reconnecting | shows | records => exact ⟨quiet rfl, hw', hactive⟩
  | restarts => exact ⟨hw'.inside, by rw [haccount]; rfl⟩

/-- A reactor that sees a tunnel is answered to a call. -/
theorem Sight.Calls.answered {reported : Option Descriptor} {d : Descriptor} {k : Call} {m : Sight}
    (h : Sight.Calls reported d k m) (hknows : Knows s t reported) (hw : Watches s o t)
    (hd : s.world.session.active = some d) (hk : Kept upstanding s o)
    (htask : s.tasks[t]? = some task) {next : k.Answer → Program Reply} {a : k.Answer}
    (hp : task.program = .ask (.call k) next) (hs : s.respond t around (.call k) = some (a, s₁)) :
    Kept upstanding (s₁.goOn t (next a)) none ∧ m.Holds (s₁.goOn t (next a)) none t := by
  obtain ⟨-, hcustody, hsession⟩ := respond_call hs
  have hstood : Stood s₁.world.custody := by
    rw [hcustody]
    refine hw.stood.quiet (h.follows a) ?_
    rw [← hcustody]
    exact congrArg Session.active hsession
  obtain ⟨hk', hw'⟩ := hw.answered hk htask hp nofun
    (fun _ _ => (Terms.along_of_always fun _ => trivial).2 rfl) hs hstood
  exact ⟨hk', h.holds hknows hw hd hs hw' rfl⟩

/-- Whoever restarts the tunnel goes on with it, until the lock is given back. -/
theorem replacing_answered (h : Sight.restarting.Holds s o t) (hk : Kept upstanding s o)
    (htask : s.tasks[t]? = some task) (hp : task.program = .ask q next) (hu : q ≠ .unlock)
    (hr : ∀ k, q = .call k → k.isReport = false) (hs : s.respond t around q = some (a, s₁)) :
    ∃ o', Kept upstanding (s₁.goOn t (next a)) o' ∧
      Sight.restarting.Holds (s₁.goOn t (next a)) o' t := by
  obtain ⟨hin, hreplacing⟩ := h
  obtain ⟨task', htask', -, hlaw⟩ := hk.inside t hin
  obtain rfl : task = task' := Option.some.inj (htask.symm.trans htask')
  rw [hp] at hlaw
  obtain ⟨o', hk', hin', -⟩ := hk.turn_asked hin trivial htask hp hu (hlaw.asked hu) hs
  refine ⟨o', hk', hin', ?_⟩
  by_cases hcall : ∃ k, q = .call k
  · obtain ⟨k, rfl⟩ := hcall
    show (account s₁.world.log).replacing = some t
    rw [(respond_call hs).1]
    have happend := account_append s.world.log (some (.called t k a))
    rw [Option.toList_some, Option.elim_some] at happend
    rw [happend]
    exact Account.replacing_called hreplacing (hr k rfl) a
  · obtain ⟨e, hlog, he⟩ := log_respond hs
    show (account s₁.world.log).replacing = some t
    rw [hlog, account_append]
    cases e with
    | none => exact hreplacing
    | some e =>
        rw [Option.elim_some, Account.replacing_after _ _ fun i k b hk₁ => ?_]
        · exact hreplacing
        · exact absurd ⟨k, (he i k b (congrArg some hk₁)).2⟩ hcall

/-- **A reactor that is answered in its section** goes on knowing what is true, and what it calls is
right. -/
theorem Sight.Holds.answered {m : Sight} (hh : m.Holds s o t) (hk : Kept upstanding s o)
    (hin : s.Inside t) (htask : s.tasks[t]? = some task) (ha : task.alive = true)
    (hp : task.program = .ask q next) (hq : q ≠ .lock)
    (hm : Heeds (fun _ _ => True) m (.ask q next)) (hs : s.respond t around q = some (a, s₁)) :
    (∃ o', Kept upstanding (s₁.goOn t (next a)) o' ∧ ∃ m' : Sight,
      Heeds (fun _ _ => True) m' (next a) ∧ m'.Holds (s₁.goOn t (next a)) o' t) ∧
    ∀ k, q = .call k → k.isGuarded = true → (account s.world.log).Reacts t k := by
  obtain ⟨o', hk'⟩ := hk.turn_inside hin trivial (turn?_of_respond htask ha hp hs)
  obtain ⟨e, hlog, he⟩ := log_respond hs
  have knows : ∀ {reported}, (∀ k, q = .call k → k.isGuarded = false) → Knows s t reported →
      Knows (s₁.goOn t (next a)) t reported := fun hq hknows =>
    hknows.after hlog fun k b hk₁ => hq k (he t k b hk₁).2
  cases m with
  | apart reported =>
      obtain ⟨hfree, hnext⟩ := Sight.Poses.free hm hq
      have unguarded : ∀ k, q = .call k → k.isGuarded = false := by
        rintro k rfl
        exact not_guarded_of_isFree hfree
      refine ⟨⟨o', hk', .apart reported, hnext a, knows unguarded hh⟩, fun k hk₁ hg => ?_⟩
      exact absurd ((unguarded k hk₁).symm.trans hg) nofun
  | entered reported =>
      obtain ⟨hknows, hw⟩ := hh
      cases q with
      | session =>
          have answered := hw.answered hk htask hp nofun rfl hs
          cases hs
          obtain ⟨hk', hw'⟩ := answered hw.stood
          exact ⟨⟨none, hk', _, hm _, hknows, hw', rfl⟩, fun _ h => nomatch h⟩
      | _ => exact hm.elim
  | seeing reported active =>
      obtain ⟨hknows, hw, hactive⟩ := hh
      cases q with
      | unlock =>
          cases hs
          exact ⟨⟨o', hk', .apart reported, hm, hknows⟩, fun _ h => nomatch h⟩
      | session =>
          have answered := hw.answered hk htask hp nofun rfl hs
          cases hs
          obtain ⟨hk', hw'⟩ := answered hw.stood
          exact ⟨⟨none, hk', _, hm _ hactive, hknows, hw', hactive⟩, fun _ h => nomatch h⟩
      | publishStatus status =>
          have answered := hw.answered hk htask hp nofun ⟨trivial, rfl⟩ hs
          cases hs
          obtain ⟨hk', hw'⟩ := answered hw.stood
          exact ⟨⟨none, hk', _, hm.2, hknows, hw', hactive⟩, fun _ h => nomatch h⟩
      | call k =>
          obtain ⟨d, m', rfl, hcalls, hnext⟩ := hm
          obtain ⟨hk', hholds⟩ := hcalls.answered hknows hw hactive hk htask hp hs
          refine ⟨⟨none, hk', m', hnext a, hholds⟩, ?_⟩
          rintro k' ⟨⟩ hg
          exact hcalls.reacts hknows hw hactive hg
      | _ => exact hm.elim
  | restarting =>
      have goesOn : ∀ k, q = .call k → k.isReport = false := by
        rintro k rfl
        exact hm.1
      refine ⟨?_, fun k hk₁ _ => .goesOn hh.2 (goesOn k hk₁)⟩
      by_cases hu : q = .unlock
      · subst hu
        exact ⟨o', hk', .apart none, hm, fun _ h => nomatch h⟩
      · obtain ⟨o', hk', hholds⟩ := replacing_answered hh hk htask hp hu goesOn hs
        refine ⟨o', hk', .restarting, ?_, hholds⟩
        cases q with
        | lock => exact absurd rfl hq
        | unlock => exact absurd rfl hu
        | call k => exact hm.2 a
        | _ => exact hm a

end Inside

namespace Heeding

/-- **A turn of the task inside** keeps true what reactors know. -/
theorem turn_inside (h : Heeding s o) (hk : Kept upstanding s o) {around : Surroundings}
    (hin : s.Inside t) (hs : s.turn? t around = some s') :
    ∃ o', Kept upstanding s' o' ∧ Heeding s' o' := by
  have hstep : s.step? (.turn t around) = some s' := hs
  obtain ⟨task, htask, ha, hlaw⟩ := hk.inside t hin
  cases hp : task.program with
  | done r =>
      rw [hp] at hlaw
      cases hlaw
  | ask q next =>
      have hq : q ≠ .lock := by
        rintro rfl
        rw [hp] at hlaw
        exact Lawful.not_lock hlaw
      obtain ⟨a, s₁, hs₁, rfl⟩ := turn?_ask htask ha hp hq hs
      obtain ⟨e, hlog, he⟩ := log_respond hs₁
      -- The task inside may be a reactor, or not.
      obtain ⟨o', hk', hself, hcalls⟩ : ∃ o', Kept upstanding (s₁.goOn t (next a)) o' ∧
          (task.registration.isSome = true → ∃ m : Sight, Heeds (fun _ _ => True) m (next a) ∧
            m.Holds (s₁.goOn t (next a)) o' t) ∧
          (task.registration.isSome = true → ∀ k, q = .call k → k.isGuarded = true →
            (account s.world.log).Reacts t k) := by
        cases hr : task.registration.isSome with
        | false =>
            obtain ⟨o', hk'⟩ := hk.turn_inside hin trivial hs
            exact ⟨o', hk', nofun, nofun⟩
        | true =>
            obtain ⟨m, hm, hh⟩ := h.reactors t task htask hr
            rw [hp] at hm
            obtain ⟨⟨o', hk', hm'⟩, hcalls⟩ := hh.answered hk hin htask ha hp hq hm hs₁
            exact ⟨o', hk', fun _ => hm', fun _ => hcalls⟩
      obtain ⟨hcallers, hacts⟩ := h.acts_step hstep hlog (fun i k b task' hk₁ htask' hr hg => by
        obtain ⟨rfl, hk₁⟩ := he i k b hk₁
        obtain rfl : task = task' := Option.some.inj (htask.symm.trans htask')
        exact hcalls hr k hk₁ hg) fun i k b hk₁ => by
          obtain ⟨rfl, -⟩ := he i k b hk₁
          exact ⟨task, htask⟩
      refine ⟨o', hk', fun i task' htask' hr => ?_, hcallers, hacts⟩
      by_cases hi : t = i
      · subst hi
        rw [Machine.tasks_goOn_self _ (tasks_respond hs₁ htask)] at htask'
        cases htask'
        exact hself hr
      · -- Nobody else is inside, and others go on knowing what they have reported.
        rw [Machine.tasks_goOn_other _ _ hi] at htask'
        rcases continues_respond hs₁ htask' with hold | ⟨-, hidle⟩
        · obtain ⟨m, hm, hh⟩ := h.reactors i task' hold hr
          obtain ⟨reported, rfl, hknows⟩ := hh.apart fun hin' => hi (hin.unique hin')
          refine ⟨_, hm, hknows.after hlog fun k b hk₁ => ?_⟩
          exact absurd (he i k b hk₁).1.symm hi
        · rw [hidle]
          exact ⟨.apart none, trivial, nofun⟩

/-- **Every step keeps true what reactors know.** -/
theorem step (h : Heeding s o) (hk : Kept upstanding s o) (hl : s.Orderly l)
    (hs : s.step? l = some s') : ∃ o', Kept upstanding s' o' ∧ Heeding s' o' := by
  by_cases hn : ∃ t around, l = .turn t around ∧ s.Inside t
  · obtain ⟨t, around, rfl, hin⟩ := hn
    exact h.turn_inside hk hin hs
  · have hn : ∀ t around, l = .turn t around → ¬s.Inside t :=
      fun t around hl hin => hn ⟨t, around, hl, hin⟩
    obtain ⟨o', hk', hd, hst⟩ := hk.step_apart standing_lasting (allows_upstanding hl) hn hs
    exact ⟨o', hk', h.step_apart hk hk' hs hn hd hst⟩

end Heeding

/-! ### Every run -/

theorem Reach.heeding {limits : Limits} {poolSize : Nat} {store : Store.Persisted}
    (h : Reach Machine.Orderly (Machine.fresh limits poolSize store) s) :
    ∃ o, Kept upstanding s o ∧ Heeding s o := by
  induction h with
  | start => exact ⟨none, kept_upstanding .., .fresh limits poolSize store⟩
  | step _ hl hs ih =>
      obtain ⟨o, hk, hh⟩ := ih
      exact hh.step hk hl hs

/-- The registration of the session under way, and how many there were, after an entry. -/
def registered (x : Nat × Option Nat) : Entry → Nat × Option Nat
  | .called _ .register true => (x.1 + 1, some x.1)
  | .called _ (.write (.status .disconnected)) _ => (x.1, none)
  | _ => x

end TunnelKeeper.Service
