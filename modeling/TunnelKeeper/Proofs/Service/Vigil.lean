import TunnelKeeper.Proofs.Service.Adapting

/-!
# Vigils — a reactor over many events, while nobody else gets the lock

A reactor keeps vigil as long as nobody disturbs it in what it does about an event and, once it is
done, it takes the next one (`Machine.Vigil`).  What each reaction keeps of the custody is so kept
between all events (`Keeping.step`).

What a task does about an event in between is bounded by what it comes to in the end: if no history
of deeds that goes on can be too long already, then the history so far is none of these
(`Achieves.bounds`, `Keeping.bounds`).
-/

namespace TunnelKeeper.Service

variable {A : Assumption} {I : Custody → Prop} {s s' : Machine} {l : Label} {t : TaskId}

/-! ### Keeping vigil -/

/-- **A reactor keeps vigil** in a step: nobody disturbs it, or it is done with an event and looks
for the next one. -/
def Machine.Vigil (A : Assumption) (t : TaskId) (s : Machine) (l : Label) : Prop :=
  s.Undisturbed A t l ∨ (∃ around, l = .turn t around) ∧ ∃ r, s.reply? t = some r

theorem Machine.Vigil.orderly (h : s.Vigil A t l) : s.Orderly l := by
  rcases h with h | ⟨⟨around, rfl⟩, -⟩
  · exact h.orderly
  · trivial

/-- **A reactor keeps an invariant**: it is about to have it again when it is done, or it has come
to its end with it. -/
inductive Keeping (A : Assumption) (I : Custody → Prop) (t : TaskId) (s : Machine) : Prop where
  | going (h : s.Achieving A (fun _ _ c => I c) t)
  | ended {o : Option Pending} {task : Task} (hk : Kept .loose s o) (hr : s.AtRest)
      (htask : s.tasks[t]? = some task) (hd : task.alive = false) (h : I s.world.custody)

/-- While nobody gets the lock, what it guards stays as it is. -/
theorem Kept.rests {o : Option Pending} (hk : Kept .loose s o) (hr : s.AtRest) (hl : s.Orderly l)
    (hn : ∀ i around, l = .turn i around → s.AtLock i → s.holder ≠ none ∧ s.holder ≠ some i)
    (hs : s.step? l = some s') :
    Kept .loose s' none ∧ s'.AtRest ∧ s'.world.custody = s.world.custody := by
  obtain ⟨rfl, -⟩ := hk.rest hr
  obtain ⟨o', hk', hd, -⟩ :=
    hk.step_apart loose_lasting (allows_loose hl) (fun i _ _ => hr i) hs
  obtain ⟨rfl, hc⟩ := hd.none_inv
  exact ⟨hk', atRest_step hk hr hl hn hs, hc⟩

/-- A turn of a task that does not ask for the lock gives it to nobody. -/
theorem Kept.rests_turn {o : Option Pending} (hk : Kept .loose s o) (hr : s.AtRest)
    {around : Surroundings} {task : Task} (htask : s.tasks[t]? = some task)
    (hp : ∀ next, task.program ≠ .ask .lock next) (hs : s.turn? t around = some s') :
    Kept .loose s' none ∧ s'.AtRest ∧ s'.world.custody = s.world.custody := by
  refine hk.rests (l := .turn t around) hr trivial (fun i around' hl hlock => ?_) hs
  cases hl
  obtain ⟨task', next, htask', -, hp'⟩ := hlock
  obtain rfl := Option.some.inj (htask.symm.trans htask')
  exact absurd hp' (hp next)

/-- A task that is about to react is apart from the lock. -/
theorem Kept.apart_of_react {o : Option Pending} (hk : Kept .loose s o) {task : Task}
    {e : NetworkEvent} (htask : s.tasks[t]? = some task)
    (hp : task.program = (Program.react s.limits e).bind fun _ => Task.idle) : ¬s.Inside t := by
  intro hin
  obtain ⟨task', htask', -, hlaw⟩ := hk.inside t hin
  obtain rfl := Option.some.inj (htask.symm.trans htask')
  rw [hp] at hlaw
  cases o with
  | some p => cases e <;> exact absurd hlaw.1 nofun
  | none =>
      -- It may be answered so that it is done, which it cannot be with the lock.
      have gone : ¬Lawful .loose (some (none, s.world.custody)) Task.idle := nofun
      cases e with
      | available network => exact gone (hlaw none ⟨{}, trivial, rfl⟩)
      | lost network =>
          let elsewhere : Surroundings := { activeNetwork := some .connected }
          exact gone (hlaw (some .connected) ⟨elsewhere, trivial, rfl⟩)

namespace Keeping

/-- A reactor that is done keeps whatever holds then. -/
theorem of_done {o : Option Pending} (hk : Kept .loose s o) (hr : s.AtRest) {r : Reply}
    (hreply : s.reply? t = some r) (h : I s.world.custody) : Keeping A I t s := by
  obtain ⟨task, htask, hp⟩ := Machine.reply?_eq_some.1 hreply
  cases ha : task.alive with
  | true => exact .going ⟨o, none, task, hk, hr, htask, ha, hp ▸ ⟨rfl, h⟩⟩
  | false => exact .ended hk hr htask ha h

theorem kept (h : Keeping A I t s) : ∃ o, Kept .loose s o := by
  cases h with
  | going h =>
      obtain ⟨o, -, -, hk, -⟩ := h
      exact ⟨o, hk⟩
  | ended hk => exact ⟨_, hk⟩

/-- A reactor that is done has the invariant. -/
theorem done (h : Keeping A I t s) {r : Reply} (hr : s.reply? t = some r) :
    s.AtRest ∧ I s.world.custody := by
  cases h with
  | going h =>
      obtain ⟨o, m, task, -, hat, htask, -, hp⟩ := h
      rw [Machine.program_of_reply hr htask] at hp
      obtain ⟨rfl, hI⟩ := hp
      exact ⟨hat, hI⟩
  | ended _ hrest _ _ hI => exact ⟨hrest, hI⟩

/-- A reactor that is done takes the next event, or comes to its end. -/
theorem step_next (hI : ∀ {c e c'}, I c → Reacted A c e c' → I c') (h : Keeping A I t s)
    {around : Surroundings} {r : Reply} (hreply : s.reply? t = some r)
    (hs : s.turn? t around = some s') : Keeping A I t s' := by
  obtain ⟨hr, hc⟩ := h.done hreply
  obtain ⟨o, hk⟩ := h.kept
  obtain ⟨task, htask, ha⟩ := turn?_alive hs
  have hp := Machine.program_of_reply hreply htask
  obtain ⟨hk', hr', hc'⟩ := hk.rests_turn hr htask (fun _ hlock => nomatch hp.symm.trans hlock) hs
  rw [turn?_eq htask ha, hp] at hs
  obtain ⟨registration, channel, -, ⟨e, rest, -, rfl⟩ | rfl⟩ := receive_cases hs
  · refine .going ⟨none, none, _, hk', hr', Machine.tasks_goOn_self _ htask, ha, ?_⟩
    exact .bind (achieves_react fun units c' hc'' => ⟨rfl, hI (hc' ▸ hc) hc''⟩)
  · have hlt := (List.getElem?_eq_some_iff.1 htask).1
    exact .ended hk' hr' (List.getElem?_set_self hlt) rfl (hc' ▸ hc)

/-- **What every reaction keeps is kept in every step of a vigil.** -/
theorem step (hI : ∀ {c e c'}, I c → Reacted A c e c' → I c') (h : Keeping A I t s)
    (hl : s.Vigil A t l) (hs : s.step? l = some s') : Keeping A I t s' := by
  rcases hl with hl | ⟨⟨around, rfl⟩, r, hreply⟩
  · cases h with
    | going h => exact .going (h.step hl hs)
    | @ended o task hk hr htask hd hc =>
        have ht : ∀ around, l ≠ .turn t around := by
          rintro around rfl
          obtain ⟨task', htask', ha⟩ := turn?_alive hs
          obtain rfl := Option.some.inj (htask.symm.trans htask')
          exact absurd (hd.symm.trans ha) nofun
        obtain ⟨hk', hr', hc'⟩ := hk.rests hr hl.orderly
          (fun i around hi => hl.alone i around hi fun he => ht around (he ▸ hi)) hs
        exact .ended hk' hr' (task_step hs ht hl.stays htask).1 hd (hc' ▸ hc)
  · exact h.step_next hI hreply hs

/-- **A vigil keeps what every reaction keeps.** -/
theorem reach (hI : ∀ {c e c'}, I c → Reacted A c e c' → I c') (h : Keeping A I t s)
    (hs : Reach (Machine.Vigil A t) s s') : Keeping A I t s' := by
  induction hs with
  | start => exact h
  | step _ hl hs ih => exact ih.step hI hl hs

theorem mono {J : Custody → Prop} (hJ : ∀ c, I c → J c) (h : Keeping A I t s) :
    Keeping A J t s := by
  cases h with
  | going h =>
      obtain ⟨o, m, task, hk, hat, htask, ha, hp⟩ := h
      exact .going ⟨o, m, task, hk, hat, htask, ha, hp.mono fun _ _ => hJ⟩
  | ended hk hr htask hd hI => exact .ended hk hr htask hd (hJ _ hI)

end Keeping

/-- Whether a step belongs to a vigil: a turn of the reactor, of a worker, or a new event. -/
def Machine.isVigil (A : Assumption) (t : TaskId) (s : Machine) : Label → Bool
  | .turn i _ => i == t && ((s.reply? t).isSome || s.meetsOutcome A t)
  | .deliver _ _ | .ask _ | .begin _ | .finish _ _ => true
  | _ => false

theorem Machine.vigil_of_check (h : s.isVigil A t l = true)
    (hr : ∀ i around, l = .turn i around → A.rely around) : s.Vigil A t l := by
  cases l with
  | turn i around =>
      simp only [Machine.isVigil, Bool.and_eq_true, Bool.or_eq_true, beq_iff_eq] at h
      obtain ⟨rfl, h⟩ := h
      cases hreply : s.reply? i with
      | some r => exact .inr ⟨⟨around, rfl⟩, r, hreply⟩
      | none =>
          rw [hreply] at h
          refine .inl (undisturbed_of_check ?_ hr)
          simpa [Machine.isUndisturbed, hreply] using h
  | deliver | ask | begin | finish =>
      refine .inl (.of_no_turn trivial ?_ ?_)
      · rintro ⟨⟩
      · rintro _ _ ⟨⟩
  | _ => cases h

/-! ### Bounds -/

/-- The units that a task has handed in are only so many, and no start of the proxy that is pending
is assumed to come to anything. -/
structure Tame (A : Assumption) (units : Units) (m : Option (Option Pending)) : Prop where
  bounded : ∃ n : UnitId, ∀ id, n ≤ id → units id = none
  pending : ∀ p work, m = some (some p) → units p.id = some work → A.outcome work = none

variable {units : Units} {m : Option (Option Pending)} {c : Custody}

theorem Tame.apart (h : Tame A units m) {m' : Option (Option Pending)}
    (hm : ∀ p, m' ≠ some (some p)) : Tame A units m' :=
  ⟨h.bounded, fun p _ hp => absurd hp (hm p)⟩

theorem Tame.add (h : Tame A units m) {id : UnitId} {work : Work} {m' : Option (Option Pending)}
    (hm : ∀ p, m' = some (some p) → p.id = id ∧ A.outcome work = none) :
    Tame A (units.add id work) m' := by
  obtain ⟨n, hn⟩ := h.bounded
  refine ⟨⟨max n (id + 1), fun i hi => ?_⟩, fun p work' hp hw => ?_⟩
  · have hne : i ≠ id := by
      rintro rfl
      exact Nat.not_succ_le_self i (Nat.le_trans (Nat.le_max_right n (i + 1)) hi)
    rw [Units.add, if_neg hne]
    exact hn i (Nat.le_trans (Nat.le_max_left n (id + 1)) hi)
  · obtain ⟨rfl, hout⟩ := hm p hp
    rw [Units.add, if_pos rfl] at hw
    exact Option.some.inj hw ▸ hout

/-- Whoever waits may be answered as assumed. -/
theorem Assumption.exists_joined (A : Assumption) (units : Units) (id : UnitId)
    (limit : Option Time) : ∃ joined, A.Allows units (.join id limit) joined := by
  by_cases h : ∃ work b, units id = some work ∧ A.outcome work = some b
  · obtain ⟨work, b, hw, hb⟩ := h
    refine ⟨.value b, fun work' b' hw' hb' => ?_⟩
    obtain rfl := Option.some.inj (hw.symm.trans hw')
    rw [Option.some.inj (hb.symm.trans hb')]
  · exact ⟨.timedOut, fun work b hw hb => absurd ⟨work, b, hw, hb⟩ h⟩

/-- A task without the lock may be answered. -/
theorem Tame.exists_free (h : Tame A units none) (hA : ∃ around, A.rely around) {q : Ask}
    (hq : q.isFree = true) :
    ∃ a, A.Allows units q a ∧ Tame A (units.after q a) none := by
  cases q with
  | visibleActive => exact ⟨none, trivial, h⟩
  | visibleStatus => exact ⟨.disconnected, trivial, h⟩
  | now => exact ⟨Nat.zero, trivial, h⟩
  | spawn work =>
      obtain ⟨n, hn⟩ := h.bounded
      exact ⟨n, hn n (Nat.le_refl n), h.add nofun⟩
  | join id limit =>
      obtain ⟨joined, hj⟩ := A.exists_joined units id limit
      exact ⟨joined, hj, h⟩
  | call k =>
      obtain ⟨around, hr⟩ := hA
      exact ⟨_, ⟨⟨{}, none, .disconnected, {}, []⟩, around, hr, rfl⟩, h⟩
  | abandon | pause => exact ⟨(), trivial, h⟩
  | _ => cases hq

/-- **Whatever is asked has an answer**, which adds to the deeds. -/
theorem Tame.exists_posed (h : Tame A units m) (hA : ∃ around, A.rely around)
    (hout : ∀ config, A.outcome (.startProxy config) = none) {q : Ask}
    {K : q.Answer → Option (Option Pending) → Custody → Prop} (hK : A.Poses units m c q K) :
    ∃ a m' c' more, K a m' c' ∧ Tame A (units.after q a) m' ∧ c'.deeds = c.deeds ++ more := by
  match m with
  | none =>
      by_cases hq : q = .lock
      · subst hq
        exact ⟨(), some none, c, [], hK, h.apart nofun, (List.append_nil _).symm⟩
      · have hK : q.isFree = true ∧ ∀ a, A.Allows units q a → K a none c := by
          cases q with
          | lock => exact absurd rfl hq
          | _ => exact hK
        obtain ⟨a, ha, htame⟩ := h.exists_free hA hK.1
        exact ⟨a, none, c, [], hK.2 a ha, htame, (List.append_nil _).symm⟩
  | some none =>
      have same : ∀ (a : q.Answer) c', K a (some none) c' → c'.deeds = c.deeds →
          Tame A (units.after q a) (some none) → ∃ a m' c' more, K a m' c' ∧
            Tame A (units.after q a) m' ∧ c'.deeds = c.deeds ++ more :=
        fun a c' hK hd ht => ⟨a, _, c', [], hK, ht, hd.trans (List.append_nil _).symm⟩
      cases q with
      | lock => exact hK.elim
      | unlock => exact ⟨(), none, c, [], hK, h.apart nofun, (List.append_nil _).symm⟩
      | session => exact same _ c (hK trivial) rfl h
      | setActive | setMonitored | publishActive | publishStatus =>
          exact same () _ (hK.2 trivial) rfl h
      | spawnReactor | abandon | pause => exact same () c (hK trivial) rfl h
      | visibleActive | visibleStatus => exact same _ c (hK trivial) rfl h
      | now => exact same Nat.zero c (hK Nat.zero trivial) rfl h
      | spawn work =>
          obtain ⟨n, hn⟩ := h.bounded
          cases work with
          | startProxy config =>
              refine ⟨n, _, c, [], hK.2 n .waiting (.inl rfl) (hn n (Nat.le_refl n)), ?_,
                (List.append_nil _).symm⟩
              exact h.add fun p hp => by
                cases hp
                exact ⟨rfl, hout config⟩
          | checkUdp | checkServer | checkCredentials | errand =>
              exact same n c (hK n (hn n (Nat.le_refl n))) rfl (h.add nofun)
      | join id limit =>
          obtain ⟨joined, hj⟩ := A.exists_joined units id limit
          exact same joined c (hK joined none rfl hj) rfl h
      | call k =>
          obtain ⟨around, hr⟩ := hA
          have hK := (Terms.along_of_always fun _ => trivial).1
            (hK (c.answer around k) ⟨around, trivial, rfl⟩) ⟨c, around, hr, rfl⟩
          exact ⟨_, _, _, _, hK, h, c.deeds_afterAll _⟩
  | some (some p) =>
      obtain ⟨habout, hK⟩ := hK
      have hK := hK _ _ (.refl _ _)
      cases q with
      | join id limit =>
          obtain rfl : id = p.id := beq_iff_eq.1 habout
          -- The time may be up at once.
          refine ⟨.timedOut, some (some p), c, [], ?_, h, (List.append_nil _).symm⟩
          refine hK .timedOut (some p) (Pending.joins_self.2 (.inr ⟨rfl, rfl⟩)) fun work b hw hb => ?_
          exact absurd ((h.pending p work rfl hw).symm.trans hb) nofun
      | abandon id =>
          obtain rfl : id = p.id := beq_iff_eq.1 habout
          have hK := hK trivial
          rw [Pending.abandon_self] at hK
          exact ⟨(), some none, c, [], hK, h.apart nofun, (List.append_nil _).symm⟩
      | _ => cases habout

variable {α : Type} {P : List Deed → Prop}

/-- **What holds of all deeds in the end holds of the deeds so far**, if no history that goes on can
come to have it. -/
theorem Achieves.bounds (hP : ∀ deeds more, P (deeds ++ more) → P deeds)
    (hA : ∃ around, A.rely around) (hout : ∀ config, A.outcome (.startProxy config) = none)
    (ht : Tame A units m) {p : Program α} (h : Achieves A (fun _ _ c => P c.deeds) units m c p) :
    P c.deeds := by
  induction p generalizing units m c with
  | done a => exact h.2
  | ask q next ih =>
      obtain ⟨a, m', c', more, hnext, ht', hd⟩ := ht.exists_posed hA hout h
      exact hP c.deeds more (hd ▸ ih a ht' hnext)

/-- **The deeds so far are bounded** by what a reactor keeps of them. -/
theorem Keeping.bounds (hP : ∀ deeds more, P (deeds ++ more) → P deeds)
    (hA : ∃ around, A.rely around) (hout : ∀ config, A.outcome (.startProxy config) = none)
    (h : Keeping A (fun c => P c.deeds) t s) : P s.world.deeds := by
  cases h with
  | going h =>
      obtain ⟨o, m, task, hk, hat, -, -, hp⟩ := h
      have tame : Tame A (unitsOf s.pool t) m := by
        refine ⟨⟨s.pool.units.length, fun id hid => ?_⟩, fun p work hm hw => ?_⟩
        · unfold unitsOf
          rw [List.getElem?_eq_none hid]
          rfl
        · subst hm
          obtain ⟨u, hu, hwork, -⟩ := hk.tracks.there p hat.2.symm
          obtain ⟨v, hv, rfl⟩ := Option.map_eq_some_iff.1 hw
          obtain ⟨hv, -⟩ := Option.filter_eq_some_iff.1 hv
          obtain rfl := Option.some.inj (hu.symm.trans hv)
          rw [hwork]
          exact hout p.config
      exact hp.bounds hP hA hout tame
  | ended _ _ _ _ h => exact h

end TunnelKeeper.Service
