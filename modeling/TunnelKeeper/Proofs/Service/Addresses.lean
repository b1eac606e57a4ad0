import TunnelKeeper.Proofs.Service.Careful
import TunnelKeeper.Proofs.Service.Continuing

/-!
# Addresses — connecting where the proxy listens

The interface is connected to the address that the proxy told the same task, after all else that was
done under the lock.  A task that asks for the address is steady (`Steady`), so it connects next or
forgets the address; and meanwhile nobody else does anything that the lock guards.

* `Guided.step_apart`, `Guided.turn_inside`: every step keeps tasks guided.
* `Reach.guided`: so does every run.
-/

namespace TunnelKeeper.Service

variable {s s' : Machine} {l : Label}

/-! ### Told addresses -/

/-- A task was told an address by the proxy, and nothing has been done under the lock since. -/
def Told (log : List Entry) (t : TaskId) (address : SocketAddress) : Prop :=
  ∃ before since, log = before ++ .called t .proxyAddress address :: since ∧
    since.filterMap Entry.deed? = []

/-- Wherever the interface was connected, the task was told the address. -/
def ConnectsWhereTold (log : List Entry) : Prop :=
  ∀ before t address udp b since, log = before ++ .called t (.connect address udp) b :: since →
    Told before t address

theorem Told.quiet {log more : List Entry} {t : TaskId} {address : SocketAddress}
    (h : Told log t address) (hm : more.filterMap Entry.deed? = []) :
    Told (log ++ more) t address := by
  obtain ⟨before, since, rfl, hs⟩ := h
  refine ⟨before, since ++ more, by simp, ?_⟩
  rw [List.filterMap_append, hs, hm]
  rfl

/-- An entry of a log that has grown is the new one, or was there before. -/
theorem split_of_grown {log before since : List Entry} {e : Option Entry} {x : Entry}
    (h : log ++ e.toList = before ++ x :: since) :
    (e = some x ∧ before = log) ∨ ∃ rest, log = before ++ x :: rest := by
  cases e with
  | none => exact .inr ⟨since, by rwa [Option.toList_none, List.append_nil] at h⟩
  | some e =>
      rcases List.eq_nil_or_concat since with rfl | ⟨rest, last, rfl⟩
      · obtain ⟨rfl, hlast⟩ := List.append_inj' h rfl
        exact .inl ⟨congrArg some (List.head_eq_of_cons_eq hlast), rfl⟩
      · have h : log ++ [e] = (before ++ x :: rest) ++ [last] := by simpa using h
        exact .inr ⟨rest, (List.append_inj' h rfl).1⟩

theorem ConnectsWhereTold.append {log : List Entry} (h : ConnectsWhereTold log) {e : Option Entry}
    (he : ∀ t address udp b, e = some (.called t (.connect address udp) b) → Told log t address) :
    ConnectsWhereTold (log ++ e.toList) := by
  intro before t address udp b since hlog
  obtain ⟨hnew, rfl⟩ | ⟨rest, hold⟩ := split_of_grown hlog
  · exact he t address udp b hnew
  · exact h before t address udp b rest hold

/-- What is at hand outside a section is no address. -/
theorem Steady.forget {T : Terms} {g : Grip} {p : Program Reply} (hp : Steady g p)
    (hl : Lawful T none p) : Steady { g with address := none } p := by
  cases p with
  | done r => trivial
  | ask q next =>
      refine ⟨fun hlock hunlock => ?_, fun a => ?_⟩
      · have hg := hp.1 hlock hunlock
        have hf := (hl.free_of_ne_lock hlock).1
        cases q with
        | call k => cases k with
          | connect => cases hf
          | _ => trivial
        | _ => exact hg
      · have hg := hp.2 a
        cases q with
        | call k => cases k <;> exact hg
        | join id limit => cases (a : Pool.Joined Bool) <;> exact hg
        | _ => exact hg

/-- **Tasks are guided**: each of them is steady, and has an address at hand only if it is inside
and was told so. -/
structure Guided (s : Machine) (o : Option Pending) : Prop where
  steady : ∀ t task, s.tasks[t]? = some task → ∃ g, Steady g task.program ∧
    ∀ address, g.address = some address → s.Inside t ∧ o = none ∧ Told s.world.log t address
  connects : ConnectsWhereTold s.world.log

namespace Guided

variable {T : Terms} {o o' : Option Pending}

theorem fresh (limits : Limits) (poolSize : Nat) (store : Store.Persisted) :
    Guided (Machine.fresh limits poolSize store) none where
  steady _ _ h := by cases h
  connects before _ _ _ _ _ h := by
    have h : ([] : List Entry) = before ++ _ :: _ := h
    exact absurd h (by simp)

/-- Whatever becomes of a task that was not inside, it has no address at hand. -/
theorem apart (h : Guided s o) (hk : Kept T s o) (hs : s.step? l = some s') {t : TaskId}
    {task : Task} (htask : s'.tasks[t]? = some task) (hin : ¬s.Inside t) :
    ∃ g, Steady g task.program ∧ g.address = none := by
  have hc := continues_step hs htask
  generalize task.program = p, task.registration = registration at hc
  cases hc with
  | called op => exact ⟨{}, op.steady s.limits, rfl⟩
  | spawned | dropped => exact ⟨{}, trivial, rfl⟩
  | reacts hold e => exact ⟨{}, (steady_react s.limits e).bind fun _ => trivial, rfl⟩
  | @stays old hold =>
      obtain ⟨g, hg, -⟩ := h.steady t old hold
      exact ⟨_, hg.forget (hk.outside t old hold hin), rfl⟩
  | @entered old next hold hp =>
      obtain ⟨g, hg, -⟩ := h.steady t old hold
      rw [hp] at hg
      exact ⟨_, hg.2 (), rfl⟩
  | @answered old q next hold hp hq a =>
      obtain ⟨g, hg, -⟩ := h.steady t old hold
      have hl := hk.outside t old hold hin
      rw [hp] at hg hl
      exact ⟨_, (hg.2 a).forget ((hl.free_of_ne_lock hq).2 a), rfl⟩

/-- **What is not a turn of the task inside** keeps tasks guided. -/
theorem step_apart (h : Guided s o) (hk : Kept T s o) (hs : s.step? l = some s')
    (hn : ∀ t around, l = .turn t around → ¬s.Inside t)
    (hd : Drifts o s.world.custody o' s'.world.custody) (hst : s.Stays s') : Guided s' o' := by
  obtain ⟨e, hlog, he⟩ := log_step hs
  refine ⟨fun t task htask => ?_, ?_⟩
  · by_cases hin : s.Inside t
    · rw [(hst t hin).2] at htask
      obtain ⟨g, hg, ha⟩ := h.steady t task htask
      refine ⟨g, hg, fun address haddress => ?_⟩
      obtain ⟨-, rfl, htold⟩ := ha address haddress
      obtain ⟨ho, hc⟩ := hd.none_inv
      refine ⟨hin.stays hst, ho, ?_⟩
      -- Nothing is pending, so nothing was done under the lock.
      have hdeeds : s'.world.deeds = s.world.deeds := congrArg Custody.deeds hc
      rw [World.deeds, hlog, List.filterMap_append] at hdeeds
      rw [hlog]
      exact htold.quiet (List.append_right_eq_self.1 hdeeds)
    · obtain ⟨g, hg, ha⟩ := h.apart hk hs htask hin
      refine ⟨g, hg, fun address haddress => ?_⟩
      exact absurd (ha.symm.trans haddress) (Option.some_ne_none address).symm
  · rw [hlog]
    refine h.connects.append fun t address udp b hb => ?_
    obtain ⟨around, task, next, hl, htask, hp⟩ := he t _ b hb
    have hlaw := hk.outside t task htask (hn t around hl)
    rw [hp] at hlaw
    obtain ⟨hfree, -⟩ := hlaw.free_of_ne_lock (by simp)
    cases hfree

/-- The task inside connects the interface to the address that it has at hand. -/
theorem connects_inside (h : Guided s o) (hk : Kept T s o) {t : TaskId} {around : Surroundings}
    (hin : s.Inside t) (hs : s.turn? t around = some s') : ConnectsWhereTold s'.world.log := by
  obtain ⟨e, hlog, he⟩ := log_step (l := .turn t around) hs
  obtain ⟨task, htask, -⟩ := hk.inside t hin
  obtain ⟨g, hg, hg'⟩ := h.steady t task htask
  rw [hlog]
  refine h.connects.append fun i address udp b hb => ?_
  obtain ⟨around', task', next, hl, htask', hp'⟩ := he i _ b hb
  cases hl
  obtain rfl : task = task' := Option.some.inj (htask.symm.trans htask')
  rw [hp'] at hg
  exact (hg' address (hg.1 nofun nofun)).2.2

/-- **A turn of the task inside** keeps tasks guided. -/
theorem turn_inside (h : Guided s o) (hk : Kept T s o) {t : TaskId} {around : Surroundings}
    (hin : s.Inside t) (hr : T.rely around) (hs : s.turn? t around = some s') :
    ∃ o', Kept T s' o' ∧ Guided s' o' := by
  obtain ⟨task, htask, ha, hp⟩ := hk.inside t hin
  obtain ⟨g, hg, -⟩ := h.steady t task htask
  have connects := h.connects_inside hk hin hs
  cases hprog : task.program with
  | done r =>
      rw [hprog] at hp
      cases hp
  | ask q next =>
      rw [hprog] at hp hg
      have hlock : q ≠ .lock := by
        rintro rfl
        exact Lawful.not_lock hp
      have others : ∀ i task', s'.tasks[i]? = some task' → t ≠ i →
          ∃ g, Steady g task'.program ∧ g.address = none := fun i task' htask' hne =>
        h.apart (l := .turn t around) hk hs htask' fun hi => hne (hin.unique hi)
      obtain ⟨a, s₁, hs₁, rfl⟩ := turn?_ask htask ha hprog hlock hs
      have self : ∀ task', (s₁.goOn t (next a)).tasks[t]? = some task' →
          Steady (g.after q a) task'.program := by
        intro task' htask'
        rw [Machine.tasks_goOn_self (next a) (tasks_respond hs₁ htask)] at htask'
        cases htask'
        exact hg.2 a
      have none_of_other : ∀ {g : Grip} {P : SocketAddress → Prop}, g.address = none →
          ∀ address, g.address = some address → P address :=
        fun hn address ha => absurd (hn.symm.trans ha) nofun
      -- Only the answer to this question is an address, and nothing is pending where it is asked.
      by_cases hq : q = .call .proxyAddress
      · subst hq
        obtain rfl : o = none := by
          cases o with
          | none => rfl
          | some p => exact absurd hp.1 nofun
        obtain ⟨o', hk', hin', ho⟩ := hk.turn_asked hin hr htask hprog nofun
          (K := fun _ o' _ => o' = none) (fun _ _ => rfl) hs₁
        have hadded : s₁.world.log = s.world.log ++ [.called t .proxyAddress a] := by
          cases hs₁
          rfl
        refine ⟨o', hk', fun i task' htask' => ?_, connects⟩
        by_cases hi : t = i
        · subst hi
          refine ⟨_, self task' htask', fun address haddress => ⟨hin', ho, ?_⟩⟩
          obtain rfl := Option.some.inj haddress
          exact ⟨s.world.log, [], hadded, rfl⟩
        · obtain ⟨g, hg, hn⟩ := others i task' htask' hi
          exact ⟨g, hg, none_of_other hn⟩
      · obtain ⟨o', hk'⟩ := hk.turn_inside hin hr hs
        refine ⟨o', hk', fun i task' htask' => ?_, connects⟩
        by_cases hi : t = i
        · subst hi
          exact ⟨_, self task' htask', none_of_other (g.address_after hq a)⟩
        · obtain ⟨g, hg, hn⟩ := others i task' htask' hi
          exact ⟨g, hg, none_of_other hn⟩

/-- **Every step keeps tasks guided.** -/
theorem step (hT : T.Lasting) (h : Guided s o) (hk : Kept T s o) (hl : T.Allows s l)
    (hs : s.step? l = some s') : ∃ o', Kept T s' o' ∧ Guided s' o' := by
  by_cases hn : ∃ t around, l = .turn t around ∧ s.Inside t
  · obtain ⟨t, around, rfl, hin⟩ := hn
    exact h.turn_inside hk hin (hl.2.2 t around rfl) hs
  · have hn : ∀ t around, l = .turn t around → ¬s.Inside t :=
      fun t around hl hin => hn ⟨t, around, hl, hin⟩
    obtain ⟨o', hk', hd, hst⟩ := hk.step_apart hT hl hn hs
    exact ⟨o', hk', h.step_apart hk hs hn hd hst⟩

end Guided

/-- **In every run** the interface is connected only to the address that the proxy has told. -/
theorem Reach.connectsWhereTold {limits : Limits} {poolSize : Nat} {store : Store.Persisted}
    (h : Reach Machine.Orderly (Machine.fresh limits poolSize store) s) :
    ConnectsWhereTold s.world.log := by
  have guided : ∃ o, Kept Terms.loose s o ∧ Guided s o := by
    induction h with
    | start => exact ⟨none, kept_loose .., .fresh limits poolSize store⟩
    | step _ hl hs ih =>
        obtain ⟨o, hk, hg⟩ := ih
        exact hg.step loose_lasting hk (allows_loose hl) hs
  obtain ⟨o, -, hg⟩ := guided
  exact hg.connects

end TunnelKeeper.Service
