import Mathlib.Data.List.Forall2
import TunnelKeeper.Proofs.Service.Performs
import TunnelKeeper.Proofs.Service.Progress

/-!
# Serialised operations — as if each were alone

A run of callers side by side is mirrored, step by step, by a run in which somebody calls only when
nothing is going on (`Machine.Idle`).  The mirror calls for an operation at the moment at which its
caller gets the lock, and from then on makes the same steps; waiting for the lock, and whatever else
is no step of the section, it leaves out.

* `Mirrors.step`: every step is mirrored.
-/

namespace TunnelKeeper.Service

open Ledger (Step Serves)

variable {C : Collaborators} {mayCall : Machine → Prop} {x x' y y' : Ledger} {s : Machine}
  {t : TaskId}

/-! ### The mirror -/

/-- A caller of one ledger and one of another that ask for the same and have the same answer. -/
def Served (x y : Ledger) (t : TaskId) (c : TaskId × Operation) : Prop :=
  (t, c.2) ∈ x.calls ∧ ∃ r, x.machine.reply? t = some r ∧ y.machine.reply? c.1 = some r

/-- **Where callers are in a ledger and in its mirror**: those that have had the lock are served,
and the one that has it is asked the same in both. -/
inductive Places (x y : Ledger) : Prop where
  | atRest (hx : x.machine.AtRest) (hy : y.machine.holder = none)
      (h : List.Forall₂ (Served x y) x.admitted y.calls)
  | busy {t t' : TaskId} {op : Operation} {ts : List TaskId} {cs : List (TaskId × Operation)}
      {task task' : Task} (hx : x.machine.Inside t) (hy : y.machine.Inside t')
      (hts : x.admitted = ts ++ [t]) (hcs : y.calls = cs ++ [(t', op)]) (hop : (t, op) ∈ x.calls)
      (htask : x.machine.tasks[t]? = some task) (htask' : y.machine.tasks[t']? = some task')
      (hp : task'.program = task.program) (h : List.Forall₂ (Served x y) ts cs)

/-- **A ledger is mirrored** by another, in which callers get the lock as soon as they call. -/
structure Mirrors (x y : Ledger) : Prop where
  alike : Alike x.machine y.machine
  queue : y.machine.queue = []
  admitted : y.admitted = y.calls.map Prod.fst
  places : Places x y

theorem Served.mono {c : TaskId × Operation} (h : Served x y t c)
    (hc : ∀ c ∈ x.calls, c ∈ x'.calls)
    (hx : ∀ i r, x.machine.reply? i = some r → x'.machine.reply? i = some r)
    (hy : ∀ i r, y.machine.reply? i = some r → y'.machine.reply? i = some r) :
    Served x' y' t c := by
  obtain ⟨hop, r, hr, hr'⟩ := h
  exact ⟨hc _ hop, r, hx t r hr, hy c.1 r hr'⟩

/-- Steps that are none of the section. -/
theorem Places.frame (h : Places x y) (ha : x'.admitted = x.admitted)
    (hc : ∀ c ∈ x.calls, c ∈ x'.calls) (hi : ∀ i, x'.machine.Inside i ↔ x.machine.Inside i)
    (ht : ∀ i, x.machine.Inside i → x'.machine.tasks[i]? = x.machine.tasks[i]?)
    (hx : ∀ i r, x.machine.reply? i = some r → x'.machine.reply? i = some r)
    (hyc : y'.calls = y.calls) (hyt : y'.machine.tasks = y.machine.tasks)
    (hyh : y'.machine.holder = y.machine.holder) : Places x' y' := by
  have hy : ∀ i r, y.machine.reply? i = some r → y'.machine.reply? i = some r := by
    unfold Machine.reply?
    rw [hyt]
    exact fun _ _ => id
  have hs : ∀ {t c}, Served x y t c → Served x' y' t c := fun hs => hs.mono hc hx hy
  cases h with
  | atRest hr hn h =>
      refine .atRest (fun i hin => hr i ((hi i).1 hin)) (hyh.trans hn) ?_
      rw [ha, hyc]
      exact h.imp fun _ _ => hs
  | busy hin hin' hts hcs hop htask htask' hp h =>
      refine .busy ((hi _).2 hin) ?_ (ha.trans hts) (hyc.trans hcs) (hc _ hop)
        ((ht _ hin).trans htask) (hyt ▸ htask') hp (h.imp fun _ _ => hs)
      exact (Machine.inside_congr (by rw [hyt]) hyh).2 hin'

/-- Steps that the mirror leaves out. -/
theorem Mirrors.stutter (h : Mirrors x y) (hl : x'.machine.limits = x.machine.limits)
    (hw : x'.machine.world = x.machine.world) (hp : x'.machine.pool = x.machine.pool)
    (ha : x'.admitted = x.admitted) (hc : ∀ c ∈ x.calls, c ∈ x'.calls)
    (hi : ∀ i, x'.machine.Inside i ↔ x.machine.Inside i)
    (ht : ∀ i, x.machine.Inside i → x'.machine.tasks[i]? = x.machine.tasks[i]?)
    (hx : ∀ i r, x.machine.reply? i = some r → x'.machine.reply? i = some r) : Mirrors x' y where
  alike := ⟨hl.trans h.alike.limits, hw ▸ h.alike.world, hp ▸ h.alike.pool⟩
  queue := h.queue
  admitted := h.admitted
  places := h.places.frame ha hc hi ht hx rfl rfl rfl

/-- Collaborators answer alike where the same has been done. -/
theorem Collaborators.Governs.alike {q : Machine} {l : Label} (hl : C.Governs s l)
    (h : Alike s q) : C.Governs q l := by
  have hr := h.records
  cases l with
  | turn t around => exact hl.trans (congrArg C.answers hr.symm)
  | finish id result =>
      obtain ⟨u, hu, ho⟩ := hl
      obtain ⟨u', hu', hw, -⟩ := Alike.unit h.pool hu
      exact ⟨u', hu', by rw [hr, hw, ho]⟩
  | panic id =>
      obtain ⟨u, hu, ho⟩ := hl
      obtain ⟨u', hu', hw, -⟩ := Alike.unit h.pool hu
      exact ⟨u', hu', by rw [hr, hw, ho]⟩
  | ask | begin | elapse => trivial
  | _ => exact hl.elim

/-- The mirror is idle when its lock is free: all its callers have had it. -/
theorem Mirrors.idle (h : Mirrors x y) (hy : Attended y) (hn : y.machine.holder = none) :
    y.machine.Idle := by
  have hr := Machine.atRest_of_free hn
  refine ⟨fun task hm => ?_, hy.rest hr⟩
  obtain ⟨i, hi⟩ := List.getElem?_of_mem hm
  cases hy.stands i task hi with
  | answered hp => exact ⟨_, hp⟩
  | inside hin => exact absurd hin (hr i)
  | waits hc _ hn' =>
      obtain ⟨op, hop⟩ := hc
      exact absurd (h.admitted ▸ List.mem_map_of_mem (f := Prod.fst) hop) hn'

namespace Mirrors

/-- **A worker makes a step**, or time does: so it does in the mirror. -/
theorem works (h : Mirrors x y) {l : Label} (hw : l.isWork = true) (hl : C.Governs x.machine l)
    (hs : x.machine.step? l = some s) :
    ∃ y', Step C Machine.Idle y y' ∧ Mirrors ⟨s, x.calls, x.admitted⟩ y' := by
  obtain ⟨q, hq, ha⟩ := h.alike.works hw hs
  have hstep : Step C Machine.Idle y _ := .move (hl.alike h.alike) hq
  rw [admits_works hw hq, List.append_nil] at hstep
  refine ⟨_, hstep, ha, ?_, h.admitted, ?_⟩
  · obtain ⟨world, pool, rfl, -⟩ := works_advances hw hq
    exact h.queue
  · obtain ⟨world, pool, rfl, -⟩ := works_advances hw hs
    obtain ⟨world', pool', rfl, -⟩ := works_advances hw hq
    exact h.places.frame rfl (fun _ => id) (fun _ => Machine.inside_congr rfl rfl) (fun _ _ => rfl)
      (fun _ _ => id) rfl rfl rfl

/-- **A caller gets the lock**: in the mirror it calls now, and gets the lock at once. -/
theorem entered (h : Mirrors x y) (hx : Attended x) (hy : Attended y) {task : Task}
    {next : Unit → Program Reply} (htask : x.machine.tasks[t]? = some task)
    (hp : task.program = .ask .lock next) (hr : x.machine.AtRest)
    (hrep : ∀ i r, x.machine.reply? i = some r →
      ({ x.machine.goOn t (next ()) with holder := some t } : Machine).reply? i = some r) :
    ∃ y', Serves C Machine.Idle y y' ∧ Mirrors
      ⟨{ x.machine.goOn t (next ()) with holder := some t }, x.calls, x.admitted ++ [t]⟩ y' := by
  obtain ⟨-, -, op, hop, hprog⟩ := hx.held_of_lock htask hp
  obtain ⟨hn, hserved⟩ : y.machine.holder = none ∧
      List.Forall₂ (Served x y) x.admitted y.calls := by
    cases h.places with
    | atRest _ hn hs => exact ⟨hn, hs⟩
    | busy hin => exact absurd hin (hr _)
  rw [h.alike.limits] at hprog
  -- The caller calls,
  let new : Task := ⟨op.program y.machine.limits, none, true⟩
  let n := y.machine.tasks.length
  let y₁ : Ledger := ⟨(y.machine.addTask new).2, y.calls ++ [(n, op)], y.admitted⟩
  have hcall : Step C Machine.Idle y y₁ := .call (h.idle hy hn) (hx.called _ hop).2 rfl
  have hy₁ := hy.step hcall
  have htask₁ : y₁.machine.tasks[n]? = some new := List.getElem?_concat_length
  have hr₁ : y₁.machine.AtRest := Machine.atRest_of_free hn
  -- and takes a turn.
  have hturn : y₁.machine.turn? n (C.answers y₁.machine.world.records) =
      some { y₁.machine.goOn n (next ()) with holder := some n } := by
    rw [turn?_lock htask₁ rfl hprog]
    exact takeLock_free (s := y₁.machine) (.inl hn) _
  have hmove : Step C Machine.Idle y₁ _ := .move (l := .turn n _) rfl hturn
  have hrep₁ : ∀ i r, y.machine.reply? i = some r → _ := fun i r hi =>
    hy₁.reply_step hmove (hy.reply_step hcall hi)
  rw [hy₁.admits_entered htask₁ hprog hr₁] at hmove hrep₁
  refine ⟨_, (Relation.ReflTransGen.single hcall).tail hmove,
    ⟨h.alike.limits, h.alike.world, h.alike.pool⟩, h.queue, ?_, ?_⟩
  · show y.admitted ++ [n] = (y.calls ++ [(n, op)]).map Prod.fst
    rw [List.map_append, h.admitted]
    rfl
  · refine .busy ((hx.inside_entered htask hp t).2 rfl) ((hy₁.inside_entered htask₁ hprog n).2 rfl)
      rfl rfl hop (Machine.tasks_goOn_self _ htask) (Machine.tasks_goOn_self _ htask₁) rfl ?_
    exact hserved.imp fun _ _ hs => hs.mono (fun _ => id) hrep hrep₁

/-- The task in its section is asked the same in the mirror. -/
theorem busy (h : Mirrors x y) (hy : Attended y) (hin : x.machine.Inside t) {task : Task}
    (htask : x.machine.tasks[t]? = some task) :
    ∃ t' task' op ts cs, y.machine.Inside t' ∧ y.machine.tasks[t']? = some task' ∧
      task'.alive = true ∧ task'.program = task.program ∧ (t, op) ∈ x.calls ∧
      x.admitted = ts ++ [t] ∧ y.calls = cs ++ [(t', op)] ∧ List.Forall₂ (Served x y) ts cs := by
  cases h.places with
  | atRest hr => exact absurd hin (hr t)
  | @busy i t' op ts cs task₀ task' hx' hy' hts hcs hop htask₀ htask' hp hs =>
      obtain rfl := hin.unique hx'
      obtain rfl : task = task₀ := Option.some.inj (htask.symm.trans htask₀)
      obtain ⟨o, hk⟩ := hy.kept
      obtain ⟨task'', htask'', ha, -⟩ := hk.inside t' hy'
      obtain rfl : task' = task'' := Option.some.inj (htask'.symm.trans htask'')
      exact ⟨t', task', op, ts, cs, hy', htask', ha, hp, hop, hts, hcs, hs⟩

/-- **A caller is answered in its section**: so it is in the mirror. -/
theorem answered (h : Mirrors x y) (hx : Attended x) (hy : Attended y) {task : Task} {q : Ask}
    {next : q.Answer → Program Reply} {a : q.Answer} (hin : x.machine.Inside t)
    (htask : x.machine.tasks[t]? = some task) (hp : task.program = .ask q next) (hq : q ≠ .unlock)
    (hs : x.machine.respond t (C.answers x.machine.world.records) q = some (a, s))
    (hrep : ∀ i r, x.machine.reply? i = some r → (s.goOn t (next a)).reply? i = some r) :
    ∃ y', Step C Machine.Idle y y' ∧ Mirrors ⟨s.goOn t (next a), x.calls, x.admitted⟩ y' := by
  obtain ⟨t', task', op, ts, cs, hin', htask', ha, hp', hop, hts, hcs, hserved⟩ :=
    h.busy hy hin htask
  rw [hp] at hp'
  obtain ⟨s', hs', halike⟩ := h.alike.respond t' hs
  rw [← h.alike.records] at hs'
  have hmove : Step C Machine.Idle y _ :=
    .move (l := .turn t' _) rfl (turn?_of_respond htask' ha hp' hs')
  have hrep' : ∀ i r, y.machine.reply? i = some r → _ := fun i r hi => hy.reply_step hmove hi
  rw [hy.admits_answered hin' htask' hp' hq hs', List.append_nil] at hmove hrep'
  refine ⟨_, hmove, ⟨halike.limits, halike.world, halike.pool⟩,
    (holder_respond hq hs').2.trans h.queue, h.admitted, ?_⟩
  refine .busy ((hx.inside_answered hin htask hp hq hs t).2 rfl)
    ((hy.inside_answered hin' htask' hp' hq hs' t').2 rfl) hts hcs hop
    (Machine.tasks_goOn_self _ (tasks_respond hs htask))
    (Machine.tasks_goOn_self _ (tasks_respond hs' htask')) rfl ?_
  exact hserved.imp fun _ _ hs => hs.mono (fun _ => id) hrep hrep'

/-- **A caller leaves its section**: so it does in the mirror, with the same answer. -/
theorem left (h : Mirrors x y) (hx : Attended x) (hy : Attended y) {task : Task}
    {next : Unit → Program Reply} (hin : x.machine.Inside t)
    (htask : x.machine.tasks[t]? = some task) (hp : task.program = .ask .unlock next)
    (hrep : ∀ i r, x.machine.reply? i = some r →
      (x.machine.passLock.goOn t (next ())).reply? i = some r) :
    ∃ y', Step C Machine.Idle y y' ∧
      Mirrors ⟨x.machine.passLock.goOn t (next ()), x.calls, x.admitted⟩ y' := by
  obtain ⟨t', task', op, ts, cs, hin', htask', ha, hp', hop, hts, hcs, hserved⟩ :=
    h.busy hy hin htask
  rw [hp] at hp'
  obtain ⟨-, g, -, hheld⟩ := hx.inside t task hin htask
  rw [hp] at hheld
  obtain ⟨r, hr⟩ := (hheld.1 rfl).2 ()
  have hmove : Step C Machine.Idle y _ :=
    .move (l := .turn t' _) rfl (turn?_of_respond htask' ha hp' rfl)
  have hrep' : ∀ i r, y.machine.reply? i = some r → _ := fun i r hi => hy.reply_step hmove hi
  rw [hy.admits_left hin', List.append_nil] at hmove hrep'
  refine ⟨_, hmove, ⟨h.alike.limits, h.alike.world, h.alike.pool⟩,
    (congrArg List.tail h.queue :), h.admitted, ?_⟩
  refine .atRest (hx.atRest_left hin _) (congrArg List.head? h.queue) ?_
  show List.Forall₂ _ x.admitted y.calls
  rw [hts, hcs]
  -- Both go on with the same program, which is done now.
  have last : ∀ {s : Machine} {i : TaskId} {task : Task}, s.tasks[i]? = some task →
      (s.passLock.goOn i (next ())).reply? i = some r := fun {s} {i} {task} hi =>
    Machine.reply?_eq_some.2 ⟨_, Machine.tasks_goOn_self (s := s.passLock) _ hi, hr⟩
  refine List.rel_append (hserved.imp fun _ _ hs => hs.mono (fun _ => id) hrep hrep') ?_
  exact .cons ⟨hop, r, last htask, last htask'⟩ .nil

/-- **Every step is mirrored.** -/
theorem step (h : Mirrors x y) (hx : Attended x) (hy : Attended y)
    (hs : Step C mayCall x x') : ∃ y', Serves C Machine.Idle y y' ∧ Mirrors x' y' := by
  have hrep : ∀ i r, x.machine.reply? i = some r → x'.machine.reply? i = some r :=
    fun i r hi => hx.reply_step hs hi
  cases hx.change hs with
  | called =>
      obtain ⟨o, hk⟩ := hx.kept
      refine ⟨y, .refl, h.stutter rfl rfl rfl rfl (fun _ hc => List.mem_append_left _ hc)
        (hk.inside_addTask _) (fun i hi => ?_) hrep⟩
      exact Kept.tasks_addTask _ _ (hk.holder_lt hi.1)
  | worked hw hl hs₁ =>
      obtain ⟨y', hy', hm⟩ := h.works hw hl hs₁
      exact ⟨y', .single hy', hm⟩
  | @ended t task r htask hp =>
      refine ⟨y, .refl, h.stutter rfl rfl rfl rfl (fun _ => id) (hx.inside_ended htask hp)
        (fun i hi => List.getElem?_set_ne ?_) hrep⟩
      rintro rfl
      exact hx.not_inside_of_done htask hp hi
  | queued =>
      exact ⟨y, .refl, h.stutter rfl rfl rfl rfl (fun _ => id)
        (fun _ => Machine.inside_congr rfl rfl) (fun _ _ => rfl) hrep⟩
  | entered htask hp hr => exact h.entered hx hy htask hp hr hrep
  | answered hin htask hp hq hs₁ =>
      obtain ⟨y', hy', hm⟩ := h.answered hx hy hin htask hp hq hs₁ hrep
      exact ⟨y', .single hy', hm⟩
  | left hin htask hp =>
      obtain ⟨y', hy', hm⟩ := h.left hx hy hin htask hp hrep
      exact ⟨y', .single hy', hm⟩

end Mirrors

/-- **Every run is mirrored.** -/
theorem exists_mirror {x₀ : Ledger} (h₀ : Attended x₀) (hm : Mirrors x₀ x₀)
    (hs : Serves C mayCall x₀ x) : ∃ y, Serves C Machine.Idle x₀ y ∧ Mirrors x y := by
  induction hs with
  | refl => exact ⟨x₀, .refl, hm⟩
  | tail hs hstep ih =>
      obtain ⟨y, hy, hm⟩ := ih
      obtain ⟨y', hy', hm⟩ := hm.step (h₀.serves hs) (h₀.serves hy) hstep
      exact ⟨y', hy.trans hy', hm⟩

theorem mirrors_fresh (limits : Limits) (poolSize : Nat) (store : Store.Persisted) :
    Mirrors ⟨.fresh limits poolSize store, [], []⟩ ⟨.fresh limits poolSize store, [], []⟩ where
  alike := ⟨rfl, rfl, rfl⟩
  queue := rfl
  admitted := rfl
  places := .atRest (Machine.atRest_of_free rfl) rfl .nil

/-- Callers that have got the lock have the answers that they have in the mirror. -/
theorem Mirrors.replies (h : Mirrors x y) : List.Forall₂
    (fun t c => (t, c.2) ∈ x.calls ∧ x.machine.reply? t = y.machine.reply? c.1)
    x.admitted y.calls := by
  have served : ∀ t c, Served x y t c →
      (t, c.2) ∈ x.calls ∧ x.machine.reply? t = y.machine.reply? c.1 := by
    rintro t c ⟨hop, r, hr, hr'⟩
    exact ⟨hop, hr.trans hr'.symm⟩
  cases h.places with
  | atRest _ _ hs => exact hs.imp served
  | @busy t t' op ts cs task task' _ _ hts hcs hop htask htask' hp hs =>
      rw [hts, hcs]
      refine List.rel_append (hs.imp served) (.cons ⟨hop, ?_⟩ .nil)
      unfold Machine.reply?
      rw [htask, htask', Option.bind_some, Option.bind_some]
      unfold Task.reply?
      rw [hp]

/-- **Operations are serialised.**  However callers of starts, stops, resumptions, revocations and
the end of the service interleave with each other, with workers and with time, all collaborators are
called, and answer, as if the operations had been carried out one after the other in the order in
which their callers got the lock: each of them begins when nothing is going on, with no unit of work
of the others left.  Each caller has the answer that it has there; one that never waited for the
lock was refused, whatever the others do.  And every caller can have its answer, from wherever the
run has come to. -/
theorem operations_serialise {limits : Limits} {poolSize : Nat} {store : Store.Persisted}
    (hs : Serves C (fun _ => True) ⟨.fresh limits poolSize store, [], []⟩ x) :
    (∃ y, Serves C Machine.Idle ⟨.fresh limits poolSize store, [], []⟩ y ∧
      y.machine.world.records = x.machine.world.records ∧ y.admitted = y.calls.map Prod.fst ∧
      x.admitted.Nodup ∧ List.Forall₂
        (fun t c => (t, c.2) ∈ x.calls ∧ x.machine.reply? t = y.machine.reply? c.1)
        x.admitted y.calls) ∧
    (∀ c ∈ x.calls, c.1 ∉ x.admitted → ∀ r, x.machine.reply? c.1 = some r →
      c.2.program limits = .done r) ∧
    ∃ x', Serves C (fun _ => True) x x' ∧ x'.calls = x.calls ∧
      ∀ c ∈ x.calls, ∃ r, x'.machine.reply? c.1 = some r := by
  have h₀ := Attended.fresh limits poolSize store
  have hx := h₀.serves hs
  obtain ⟨y, hy, hm⟩ := exists_mirror h₀ (mirrors_fresh limits poolSize store) hs
  refine ⟨⟨y, hy, hm.alike.records, hm.admitted, hx.once, hm.replies⟩, ?_, hx.answers⟩
  rintro ⟨t, op⟩ hop hn r hr
  obtain ⟨task, htask, hp⟩ := Machine.reply?_eq_some.1 hr
  have hl : x.machine.limits = limits := h₀.limits_serves hs
  cases hx.stands t task htask with
  | waits _ hp' => exact hl ▸ (hp' op hop).symm.trans hp
  | inside hin => exact absurd hin (hx.not_inside_of_done htask hp)
  | answered _ ha => exact absurd (ha op hop) hn

/-! ### A run to look at -/

/-- Collaborators with which all goes well. -/
def Collaborators.obliging : Collaborators := ⟨fun _ => {}, fun _ _ _ => some true⟩

/-- A step of machines that obliging collaborators may bring about. -/
def Label.obliges : Label → Prop
  | .call op => op.waits = true
  | .turn _ around => around = {}
  | .finish _ result => result = true
  | .ask _ | .begin _ => True
  | _ => False

/-- A ledger after a step of its machine. -/
def Ledger.after (x : Ledger) (l : Label) (s : Machine) : Ledger :=
  match l with
  | .call op => ⟨s, x.calls ++ [(x.machine.tasks.length, op)], x.admitted⟩
  | _ => ⟨s, x.calls, x.admitted ++ x.machine.admits s⟩

/-- A ledger after a list of steps, where all of them are possible. -/
def Ledger.run? (x : Ledger) (labels : List Label) : Option Ledger :=
  labels.foldlM (fun x l => (x.machine.step? l).map (x.after l)) x

theorem step_of_obliges {l : Label} (hl : l.obliges) (hs : x.machine.step? l = some s) :
    Step .obliging (fun _ => True) x (x.after l s) := by
  cases l with
  | call op => exact .call trivial hl hs
  | turn t around => exact .move (l := .turn t around) hl hs
  | ask id => exact .move (l := .ask id) trivial hs
  | begin id => exact .move (l := .begin id) trivial hs
  | finish id result =>
      obtain ⟨u, hu, -⟩ := end?_eq_some.1 hs
      exact .move (l := .finish id result) ⟨u, hu, congrArg some (Eq.symm hl)⟩ hs
  | _ => exact hl.elim

theorem serves_of_run? {labels : List Label} (hl : ∀ l ∈ labels, l.obliges)
    (hs : x.run? labels = some x') : Serves .obliging (fun _ => True) x x' := by
  induction labels generalizing x with
  | nil =>
      obtain rfl := Option.some.inj hs
      exact .refl
  | cons l labels ih =>
      obtain ⟨x₁, hx₁, hs⟩ := Option.bind_eq_some_iff.1 hs
      obtain ⟨s, hstep, rfl⟩ := Option.map_eq_some_iff.1 hx₁
      have h₁ := step_of_obliges (hl l List.mem_cons_self) hstep
      exact (ih (fun l' hl' => hl l' (List.mem_cons_of_mem l hl')) hs).head h₁

/-- One caller asks for the tunnel to be stopped and another for it to be resumed.  The second gets
the lock first, and the first waits for it all the while. -/
def sideBySide : List Label :=
  [.call (.stop completeTunnel.id), .call .resume, .turn 1 {}, .turn 0 {}] ++
    (List.replicate 9 (.turn 1 {}) ++ carryOut 0 true ++ List.replicate 19 (.turn 1 {})) ++
    List.replicate 19 (.turn 0 {})

def stoppedLedger : Ledger :=
  ((⟨rememberingService, [], []⟩ : Ledger).run? sideBySide).get (by rfl)

/-- Both are answered, the second as if it had been the only one, and then the first. -/
theorem stop_waits_for_resumption :
    (stoppedLedger.admitted = [1, 0] ∧
      stoppedLedger.calls = [(0, .stop completeTunnel.id), (1, .resume)]) ∧
    (∃ y, Serves .obliging Machine.Idle ⟨rememberingService, [], []⟩ y ∧
      y.machine.world.records = stoppedLedger.machine.world.records ∧
      y.admitted = y.calls.map Prod.fst ∧ stoppedLedger.admitted.Nodup ∧ List.Forall₂
        (fun t c => (t, c.2) ∈ stoppedLedger.calls ∧
          stoppedLedger.machine.reply? t = y.machine.reply? c.1)
        stoppedLedger.admitted y.calls) := by
  have hl : ∀ l ∈ sideBySide, l.obliges := by simp [sideBySide, Label.obliges, Operation.waits]
  have hs : Serves .obliging (fun _ => True) ⟨rememberingService, [], []⟩ stoppedLedger :=
    serves_of_run? hl (Option.some_get _).symm
  exact ⟨⟨rfl, rfl⟩, (operations_serialise hs).1⟩

end TunnelKeeper.Service
