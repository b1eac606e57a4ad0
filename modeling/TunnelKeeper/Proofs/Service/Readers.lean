import TunnelKeeper.Proofs.Service.Hiring

/-!
# Readers — one reactor for each registration

A start asks for a reactor right after it has registered, and nobody registers in between, because
it has the lock.  So no two reactors read the channel of one registration.

* `Flows`: what a step makes of the channels.
* `Staffed.step`: every step leaves each registration with one reader at most.
* `Reach.staffed`: so does every run.
-/

namespace TunnelKeeper.Service

/-! ### Channels -/

variable {s s' : Machine} {o : Option Pending} {l : Label} {i j : TaskId} {r : Nat}

/-- **What a step makes of the channels.** -/
inductive Flows (s : Machine) (l : Label) (s' : Machine) : List Channel → Prop where
  | same : Flows s l s' s.world.channels
  /-- A task registers. -/
  | opened {t : TaskId} {around : Surroundings} {task : Task}
      {next : (Ask.call .register).Answer → Program Reply} (hl : l = .turn t around)
      (htask : s.tasks[t]? = some task) (hp : task.program = .ask (.call .register) next) :
      Flows s l s' (s.world.channels ++ [({} : Channel)])
  | closed (registration : Nat) : Flows s l s' (s.world.channels.modify registration .closeWriter)
  | delivered {registration : Nat} {e : NetworkEvent} (hl : l = .deliver registration e) :
      Flows s l s' (s.world.channels.modify registration fun c => c.send e)
  /-- A reactor takes an event. -/
  | received {t : TaskId} {around : Surroundings} {task : Task} {registration : Nat}
      {channel : Channel} {e : NetworkEvent} {rest : List NetworkEvent} (hl : l = .turn t around)
      (htask : s.tasks[t]? = some task) (hr : task.registration = some registration)
      (hc : s.world.channels[registration]? = some channel) (hw : channel.waiting = e :: rest)
      (hs : s' = { s.goOn t ((Program.react s.limits e).bind fun _ => Task.idle) with
        world := s.world.changeChannel registration fun _ => { channel with waiting := rest } }) :
      Flows s l s' (s.world.channels.modify registration fun _ => { channel with waiting := rest })
  | dropped {t : TaskId} {task : Task} {registration : Nat} (hl : l = .drop t)
      (htask : s.tasks[t]? = some task) (hr : task.registration = some registration) :
      Flows s l s' (s.world.channels.modify registration .closeReader)

/-- A call opens a channel if it registers, and closes one if it gives that up. -/
theorem World.channels_afterCall (w : World) (k : Call) (a : k.Answer) :
    (w.afterCall k a).channels = w.channels ∨
      k = .register ∧ (w.afterCall k a).channels = w.channels ++ [({} : Channel)] ∨
      ∃ registration, (w.afterCall k a).channels = w.channels.modify registration .closeWriter := by
  cases k with
  | register =>
      cases (a : Bool) with
      | true => exact .inr (.inl ⟨rfl, rfl⟩)
      | false => exact .inl rfl
  | unregister =>
      cases (a : Bool) with
      | true => exact .inr (.inr ⟨_, rfl⟩)
      | false => exact .inl rfl
  | write u => cases (a : Bool) <;> exact .inl rfl
  | _ => exact .inl rfl

/-- A reactor that is dropped closes the channel that it reads. -/
theorem channels_dropTask {t : TaskId} {task : Task} (h : s.tasks[t]? = some task) :
    (s.dropTask t).world.channels = task.registration.elim s.world.channels fun registration =>
      s.world.channels.modify registration .closeReader := by
  cases hr : task.registration <;> simp only [Machine.dropTask, h, hr] <;> split <;> rfl

/-- **Every step** makes of the channels what its label says. -/
theorem flows_step (hs : s.step? l = some s') : Flows s l s' s'.world.channels := by
  cases l with
  | turn t around =>
      obtain ⟨task, htask, -, hturn⟩ := turn?_cases hs
      cases hturn with
      | reads _ hr hc hw => exact .received rfl htask hr hc hw rfl
      | ends | enters | queues => exact .same
      | @answered q next a s₁ hp hq hs₁ =>
          show Flows _ _ _ s₁.world.channels
          cases q with
          | lock => exact absurd rfl hq
          | join id limit =>
              obtain ⟨rfl, -⟩ := respond_join.1 hs₁
              exact .same
          | call k =>
              cases hs₁
              show Flows _ _ _ (s.world.afterCall k (s.world.answer around k)).channels
              obtain h | ⟨rfl, h⟩ | ⟨registration, h⟩ :=
                s.world.channels_afterCall k (s.world.answer around k)
              · exact h ▸ .same
              · exact h ▸ .opened rfl htask hp
              · exact h ▸ .closed registration
          | _ =>
              cases hs₁
              exact .same
  | ask id =>
      obtain ⟨pool, -, rfl⟩ := step?_ask hs
      exact .same
  | begin id =>
      obtain ⟨pool, u, -, -, rfl⟩ := begin?_eq_some.1 hs
      exact .same
  | finish | panic =>
      obtain ⟨u, -, -, rfl⟩ := end?_eq_some.1 hs
      exact .same
  | deliver registration e =>
      obtain rfl := step?_deliver hs
      exact .delivered rfl
  | drop t =>
      obtain ⟨task, htask, -, rfl⟩ := step?_drop hs
      rw [channels_dropTask htask]
      cases hr : task.registration with
      | none => exact .same
      | some registration => exact .dropped rfl htask hr
  | silence registration =>
      obtain rfl := Option.some.inj hs
      exact .closed registration
  | call | occupy | vacate | closePool | elapse =>
      obtain rfl := Option.some.inj hs
      exact .same

/-- There are as many channels as before, unless a task registers. -/
theorem Flows.length {channels : List Channel} (h : Flows s l s' channels) :
    channels.length = s.world.channels.length ∨
      channels.length = s.world.channels.length + 1 ∧ ∃ t around task next, l = .turn t around ∧
        s.tasks[t]? = some task ∧ task.program = .ask (.call .register) next := by
  cases h with
  | same => exact .inl rfl
  | opened hl htask hp => exact .inr ⟨List.length_append, _, _, _, _, hl, htask, hp⟩
  | closed | delivered | received | dropped => exact .inl (List.length_modify ..)

/-! ### Readers -/

/-- A task reads the events of a registration. -/
def Machine.Reads (s : Machine) (i : TaskId) (r : Nat) : Prop :=
  ∃ task, s.tasks[i]? = some task ∧ task.registration = some r

/-- A reader goes on reading what it reads. -/
theorem Machine.Reads.step (h : s.Reads i r) (hs : s.step? l = some s') : s'.Reads i r := by
  obtain ⟨task, htask, hr⟩ := h
  obtain ⟨task', htask', hr'⟩ := registration_step hs htask
  exact ⟨task', htask', hr'.trans hr⟩

/-- A step starts the next task, which is to read the latest registration. -/
def Machine.Appoints (s : Machine) (l : Label) (i : TaskId) (r : Nat) : Prop :=
  i = s.tasks.length ∧ r = s.world.channels.length - 1 ∧ ∃ t around task next, l = .turn t around ∧
    s.tasks[t]? = some task ∧ task.program = .ask .spawnReactor next

/-- **A reader was there before**, or it is a new reactor. -/
theorem Kept.reads_before (hk : Kept .loose s o) (hl : s.Orderly l) (hs : s.step? l = some s')
    (h : s'.Reads i r) : s.Reads i r ∨ s.Appoints l i r := by
  obtain ⟨task, htask, hr⟩ := h
  have hmoves := hk.moves hl hs htask
  generalize task.program = p, task.registration = registration at hmoves hr
  cases hmoves with
  | called => cases hr
  | @spawned t around old next hturn hn hold hp =>
      refine .inr ⟨?_, (Option.some.inj hr).symm, t, around, old, next, hturn, hold, hp⟩
      subst hturn
      obtain ⟨old', hold', ha⟩ := turn?_alive hs
      obtain rfl := Option.some.inj (hold.symm.trans hold')
      obtain ⟨a, s₁, hs₁, rfl⟩ := turn?_ask hold ha hp nofun hs
      cases hs₁
      have hlt := (List.getElem?_eq_some_iff.1 htask).1
      simp only [Machine.goOn, Machine.addTask, List.length_modify, List.length_append,
        List.length_singleton] at hlt
      exact Nat.le_antisymm (Nat.le_of_lt_succ hlt) (List.getElem?_eq_none_iff.1 hn)
  | dropped hold | stays hold | reacts _ hold | entered _ hold | answered _ hold | left _ hold =>
      exact .inl ⟨_, hold, hr⟩

/-- The latest registration has no reader yet. -/
def Unread (s : Machine) : Prop :=
  s.world.channels ≠ [] ∧ ∀ i, ¬s.Reads i (s.world.channels.length - 1)

/-- **Each registration has one reader at most**, and only the task inside may know of one that has
none. -/
structure Staffed (s : Machine) : Prop where
  known : ∀ i r, s.Reads i r → r < s.world.channels.length
  one : ∀ i j r, s.Reads i r → s.Reads j r → i = j
  hires : ∀ i task, s.tasks[i]? = some task →
    ∃ v, Hires v task.program ∧ (v = true → s.Inside i ∧ Unread s)

/-- The latest registration goes without a reader, as long as nobody registers or starts one. -/
theorem Unread.step (h : Unread s) (hk : Kept .loose s o) (hl : s.Orderly l)
    (hs : s.step? l = some s') (hq : ∀ t around task q next, l = .turn t around →
      s.tasks[t]? = some task → task.program = .ask q next →
        q ≠ .spawnReactor ∧ q ≠ .call .register) : Unread s' := by
  obtain ⟨hopen, hn⟩ := h
  have hlength : s'.world.channels.length = s.world.channels.length := by
    refine (flows_step hs).length.resolve_right ?_
    rintro ⟨-, t, around, task, next, hturn, htask, hp⟩
    exact (hq t around task _ next hturn htask hp).2 rfl
  refine ⟨?_, fun i hi => ?_⟩
  · rw [← List.length_pos_iff] at hopen ⊢
    exact hlength ▸ hopen
  · rw [hlength] at hi
    rcases hk.reads_before hl hs hi with hi | ⟨-, -, t, around, task, next, hturn, htask, hp⟩
    · exact hn i hi
    · exact (hq t around task _ next hturn htask hp).1 rfl

/-- Nobody else registers, or starts a reactor, while a task is inside. -/
theorem Unread.step_other (h : Unread s) (hk : Kept .loose s o) (hl : s.Orderly l)
    (hs : s.step? l = some s') (hin : s.Inside i) (hn : ∀ around, l ≠ .turn i around) :
    Unread s' := by
  refine h.step hk hl hs fun t around task q next hturn htask hp => ?_
  -- Whoever takes the turn is apart from the lock, and asks for neither.
  have hout : ¬s.Inside t := fun hin' => hn around (hin.unique hin' ▸ hturn)
  constructor <;> rintro rfl <;> exact hout (hk.inside_of_asked htask hp nofun rfl)

namespace Staffed

theorem fresh (limits : Limits) (poolSize : Nat) (store : Store.Persisted) :
    Staffed (Machine.fresh limits poolSize store) where
  known _ _ h := by
    obtain ⟨_, htask, -⟩ := h
    cases htask
  one _ _ _ h := by
    obtain ⟨_, htask, -⟩ := h
    cases htask
  hires _ _ h := by cases h

/-- A task that starts a reactor knows of a registration that has none. -/
theorem unread (h : Staffed s) {task : Task} {next : Unit → Program Reply}
    (htask : s.tasks[i]? = some task) (hp : task.program = .ask .spawnReactor next) : Unread s := by
  obtain ⟨v, hires, hv⟩ := h.hires i task htask
  rw [hp] at hires
  exact (hv (hires.1 rfl)).2

/-- A registration that is new has no reader. -/
theorem unread_opened (h : Staffed s) (hk : Kept .loose s o) {t : TaskId} {around : Surroundings}
    {task : Task} {next : Bool → Program Reply} (htask : s.tasks[t]? = some task)
    (hp : task.program = .ask (.call .register) next)
    (hs : s.step? (.turn t around) = some s')
    (hlength : s'.world.channels.length = s.world.channels.length + 1) : Unread s' := by
  refine ⟨?_, fun i hi => ?_⟩
  · rw [← List.length_pos_iff, hlength]
    exact Nat.succ_pos _
  · rw [hlength, Nat.add_sub_cancel] at hi
    rcases hk.reads_before (l := .turn t around) trivial hs hi with hi | ⟨-, -, hnew⟩
    · exact absurd (h.known i _ hi) (Nat.lt_irrefl _)
    · obtain ⟨t', around', task', next', hl, htask', hp'⟩ := hnew
      cases hl
      obtain rfl := Option.some.inj (htask.symm.trans htask')
      cases hp.symm.trans hp'

/-- What a task still does after a turn of its own. -/
theorem answered (h : Staffed s) (hk : Kept .loose s o) {around : Surroundings} {task : Task}
    {q : Ask} {next : q.Answer → Program Reply} {a : q.Answer} {s₁ : Machine}
    (htask : s.tasks[i]? = some task) (hp : task.program = .ask q next) (hlock : q ≠ .lock)
    (hunlock : q ≠ .unlock) (hs₁ : s.respond i around q = some (a, s₁))
    (hs : s.step? (.turn i around) = some (s₁.goOn i (next a))) :
    ∃ v, Hires v (next a) ∧
      (v = true → (s₁.goOn i (next a)).Inside i ∧ Unread (s₁.goOn i (next a))) := by
  obtain ⟨v, hires, hv⟩ := h.hires i task htask
  rw [hp] at hires
  refine ⟨_, hires.2 a, fun hvacant => ?_⟩
  rw [hk.inside_answered htask hp hlock hunlock hs₁]
  have quiet : v = true → q ≠ .spawnReactor → q ≠ .call .register →
      s.Inside i ∧ Unread (s₁.goOn i (next a)) := by
    intro hvacant hspawn hregister
    obtain ⟨hin, hu⟩ := hv hvacant
    refine ⟨hin, hu.step (l := .turn i around) hk trivial hs ?_⟩
    intro t around' task' q' next' hl htask' hp'
    cases hl
    obtain rfl := Option.some.inj (htask.symm.trans htask')
    cases hp.symm.trans hp'
    exact ⟨hspawn, hregister⟩
  cases q with
  | spawnReactor => cases hvacant
  | unlock => exact absurd rfl hunlock
  | call k =>
      cases k with
      | register =>
          refine ⟨hk.inside_of_asked htask hp nofun rfl, h.unread_opened hk htask hp hs ?_⟩
          cases hs₁
          have hregisters : around.registers = true := hvacant
          simp [Machine.goOn, World.answer, World.afterCall, hregisters]
      | _ => refine quiet hvacant ?_ ?_ <;> rintro ⟨⟩
  | _ => refine quiet hvacant ?_ ?_ <;> rintro ⟨⟩

/-- **Every step leaves each registration with one reader** at most. -/
theorem step (h : Staffed s) (hk : Kept .loose s o) (hl : s.Orderly l)
    (hs : s.step? l = some s') : Staffed s' where
  known i r hi := by
    have hlength : s.world.channels.length ≤ s'.world.channels.length := by
      rcases (flows_step hs).length with hlength | ⟨hlength, -⟩ <;> omega
    rcases hk.reads_before hl hs hi with hi | ⟨-, rfl, t, -, task, next, -, htask, hp⟩
    · exact Nat.lt_of_lt_of_le (h.known i r hi) hlength
    · have hopen := List.length_pos_iff.2 (h.unread htask hp).1
      omega
  one i j r hi hj := by
    have new : ∀ {i j : TaskId}, s.Reads i r → ¬s.Appoints l j r := by
      rintro i j hi ⟨-, rfl, t, -, task, next, -, htask, hp⟩
      exact (h.unread htask hp).2 i hi
    rcases hk.reads_before hl hs hi with hi | hi <;> rcases hk.reads_before hl hs hj with hj | hj
    · exact h.one i j r hi hj
    · exact absurd hj (new hi)
    · exact absurd hi (new hj)
    · exact hi.1.trans hj.1.symm
  hires i task htask := by
    have hmoves := hk.moves hl hs htask
    generalize task.program = p, task.registration = registration at hmoves
    cases hmoves with
    | called op => exact ⟨false, op.hires s.limits, nofun⟩
    | spawned | dropped => exact ⟨false, trivial, nofun⟩
    | stays hold hn hin =>
        obtain ⟨v, hires, hv⟩ := h.hires i _ hold
        refine ⟨v, hires, fun hvacant => ?_⟩
        obtain ⟨hin', hu⟩ := hv hvacant
        exact ⟨hin.2 hin', hu.step_other hk hl hs hin' fun around he => hn around he hin'⟩
    | reacts => exact ⟨false, .bind (hires_react s.limits _) fun _ => trivial, nofun⟩
    | entered _ hold hp _ _ hrest =>
        obtain ⟨v, hires, hv⟩ := h.hires i _ hold
        rw [hp] at hires
        -- Before it had the lock it knew nothing.
        exact ⟨v, hires.2 (), fun hvacant => absurd (hv hvacant).1 (hrest i)⟩
    | answered hturn hold hp hlock hunlock hs₁ hs' =>
        subst hturn hs'
        exact h.answered hk hold hp hlock hunlock hs₁ hs
    | left _ hold hp =>
        obtain ⟨v, hires, -⟩ := h.hires i _ hold
        rw [hp] at hires
        exact ⟨false, hires.2 (), nofun⟩

end Staffed

/-- **Every run leaves each registration with one reader** at most. -/
theorem Reach.staffed {limits : Limits} {poolSize : Nat} {store : Store.Persisted}
    (h : Reach Machine.Orderly (Machine.fresh limits poolSize store) s) : Staffed s := by
  induction h with
  | start => exact .fresh limits poolSize store
  | step h hl hs ih =>
      obtain ⟨o, hk⟩ := h.orderly_kept
      exact ih.step hk hl hs

end TunnelKeeper.Service
