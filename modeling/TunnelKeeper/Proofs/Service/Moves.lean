import TunnelKeeper.Proofs.Service.Achieving

/-!
# Moves — what a step makes of a task, and whether it is in its section then

A step is told apart by what it makes of one task.  Most steps leave the task as it is, and in its
section if it was there.  Only its own turns bring it into its section and out of it, and nobody
else is there when it comes in or when it has left (`Moves`).

* `Kept.inside_stays`: what is not its own turn neither brings a task into its section nor out of
  it.
* `Kept.moves`: every step makes one of the moves of every task.
-/

namespace TunnelKeeper.Service

variable {s s' : Machine} {o : Option Pending} {l : Label} {i : TaskId}

/-- **What a step makes of the task** `i`: the registration that it reads, its program, and whether
it is in its section. -/
inductive Moves (s : Machine) (l : Label) (s' : Machine) (i : TaskId) :
    Option Nat → Program Reply → Prop where
  /-- It is a new caller, -/
  | called (op : Operation) (h : s.tasks[i]? = none) (hin : ¬s'.Inside i) :
      Moves s l s' i none (op.program s.limits)
  /-- or a new reactor, which the task inside has asked for. -/
  | spawned {t : TaskId} {around : Surroundings} {task : Task} {next : Unit → Program Reply}
      (hl : l = .turn t around) (h : s.tasks[i]? = none) (htask : s.tasks[t]? = some task)
      (hp : task.program = .ask .spawnReactor next) (hin : ¬s'.Inside i) :
      Moves s l s' i (some (s.world.channels.length - 1)) Task.idle
  | dropped {task : Task} (h : s.tasks[i]? = some task) (hin : ¬s'.Inside i) :
      Moves s l s' i task.registration Task.idle
  /-- It stays as it is, which no turn of the task inside leaves it. -/
  | stays {task : Task} (h : s.tasks[i]? = some task)
      (hn : ∀ around, l = .turn i around → ¬s.Inside i) (hin : s'.Inside i ↔ s.Inside i) :
      Moves s l s' i task.registration task.program
  /-- It takes an event. -/
  | reacts {task : Task} {around : Surroundings} {r : Reply} {registration : Nat} {channel : Channel}
      (hl : l = .turn i around) (h : s.tasks[i]? = some task) (hp : task.program = .done r)
      (hr : task.registration = some registration)
      (hc : s.world.channels[registration]? = some channel) (e : NetworkEvent)
      (rest : List NetworkEvent) (hw : channel.waiting = e :: rest)
      (hs : s' = { s.goOn i ((Program.react s.limits e).bind fun _ => Task.idle) with
        world := s.world.changeChannel registration fun _ => { channel with waiting := rest } })
      (hin : ¬s'.Inside i) :
      Moves s l s' i task.registration ((Program.react s.limits e).bind fun _ => Task.idle)
  /-- It gets the lock, which was free. -/
  | entered {task : Task} {around : Surroundings} {next : Unit → Program Reply}
      (hl : l = .turn i around) (h : s.tasks[i]? = some task) (hp : task.program = .ask .lock next)
      (hh : s.holder = none ∨ s.holder = some i)
      (hs : s' = { s.goOn i (next ()) with holder := some i }) (hr : s.AtRest)
      (hin : s'.Inside i) : Moves s l s' i task.registration (next ())
  /-- It is answered, with the lock or without it. -/
  | answered {task : Task} {around : Surroundings} {q : Ask} {next : q.Answer → Program Reply}
      {a : q.Answer} {s₁ : Machine} (hl : l = .turn i around) (h : s.tasks[i]? = some task)
      (hp : task.program = .ask q next) (hlock : q ≠ .lock) (hunlock : q ≠ .unlock)
      (ha : s.respond i around q = some (a, s₁)) (hs : s' = s₁.goOn i (next a))
      (hin : s'.Inside i ↔ s.Inside i) : Moves s l s' i task.registration (next a)
  /-- It gives the lock back. -/
  | left {task : Task} {around : Surroundings} {next : Unit → Program Reply}
      (hl : l = .turn i around) (h : s.tasks[i]? = some task)
      (hp : task.program = .ask .unlock next) (hs : s' = s.passLock.goOn i (next ()))
      (hin : s.Inside i) (hr : s'.AtRest) : Moves s l s' i task.registration (next ())

/-- What needs the lock, only the task inside asks for. -/
theorem Kept.inside_of_asked (hk : Kept .loose s o) {task : Task} {q : Ask}
    {next : q.Answer → Program Reply} (h : s.tasks[i]? = some task) (hp : task.program = .ask q next)
    (hlock : q ≠ .lock) (hq : q.isFree = false) : s.Inside i := by
  refine Classical.not_not.1 fun hin => ?_
  have hlaw := hk.outside i task h hin
  rw [hp] at hlaw
  exact absurd (hq.symm.trans (hlaw.free_of_ne_lock hlock).1) nofun

/-- A task that is answered stays where it is, unless it gives the lock back. -/
theorem Kept.inside_answered (hk : Kept .loose s o) {task : Task} {around : Surroundings} {q : Ask}
    {next : q.Answer → Program Reply} {a : q.Answer} {s₁ : Machine} (h : s.tasks[i]? = some task)
    (hp : task.program = .ask q next) (hlock : q ≠ .lock)
    (hunlock : q ≠ .unlock) (hs : s.respond i around q = some (a, s₁)) :
    (s₁.goOn i (next a)).Inside i ↔ s.Inside i := by
  have hholder : (s₁.goOn i (next a)).holder = s.holder := (holder_respond hunlock hs).1
  constructor
  · rintro ⟨hh, -⟩
    refine ⟨hholder.symm.trans hh, ?_⟩
    rintro ⟨task', next', htask', -, hp'⟩
    obtain rfl := Option.some.inj (h.symm.trans htask')
    rw [hp] at hp'
    cases hp'
    exact hlock rfl
  · intro hin
    obtain ⟨task', htask', -, hlaw⟩ := hk.inside i hin
    obtain rfl := Option.some.inj (h.symm.trans htask')
    rw [hp] at hlaw
    obtain ⟨-, -, hin', -⟩ := hk.turn_asked hin trivial h hp hunlock (hlaw.asked hunlock) hs
    exact hin'

/-- **What is not its own turn** neither brings a task into its section nor out of it. -/
theorem Kept.inside_stays (hk : Kept .loose s o) (hl : s.Orderly l) (hs : s.step? l = some s')
    (ht : ∀ around, l ≠ .turn i around) (hd : l ≠ .drop i) {task : Task}
    (h : s.tasks[i]? = some task) : s'.Inside i ↔ s.Inside i := by
  have hsame : s'.tasks[i]? = s.tasks[i]? := (task_step hs ht hd h).1.trans h.symm
  constructor
  · intro hin'
    refine Classical.not_not.1 fun hin => ?_
    -- It has the lock and does not ask for it, so it has got it just now.
    have hlock : ¬s.AtLock i := fun hlock => hin'.2 ((Machine.atLock_congr hsame).2 hlock)
    have hholder : s'.holder ≠ s.holder := fun hh => hin ⟨hh.symm.trans hin'.1, hlock⟩
    refine hholder (holder_step hk hl (fun t around hturn hin₁ => ?_) (fun t around hturn hlock₁ =>
      ?_) hs)
    · subst hturn
      obtain ⟨old, hold, ha, hlaw⟩ := hk.inside t hin₁
      have hs : s.turn? t around = some s' := hs
      cases hp : old.program with
      | done r =>
          rw [hp] at hlaw
          cases hlaw
      | ask q next =>
          rw [hp] at hlaw
          by_cases hq : q = .lock
          · subst hq
            exact Lawful.not_lock hlaw
          obtain ⟨a, s₁, hs₁, rfl⟩ := turn?_ask hold ha hp hq hs
          by_cases hu : q = .unlock
          · subst hu
            cases hs₁
            exact hk.atRest_leave hin₁ (next ()) i hin'
          · exact hholder (holder_respond hu hs₁).1
    · subst hturn
      obtain ⟨old, next, hold, ha, hp⟩ := hlock₁
      have hs : s.turn? t around = some s' := hs
      rw [turn?_lock hold ha hp] at hs
      obtain ⟨-, rfl⟩ | ⟨⟨hn, hne, -⟩, -⟩ := takeLock_cases hs
      · obtain rfl := Option.some.inj hin'.1
        exact absurd rfl (ht around)
      · exact ⟨hn, hne⟩
  · intro hin
    obtain ⟨-, -, -, hst⟩ := hk.step_apart loose_lasting (allows_loose hl) (fun t around hturn hin₁ =>
      ht around (hin.unique hin₁ ▸ hturn)) hs
    exact hin.stays hst

/-- A turn of the task itself. -/
theorem Kept.moves_turn (hk : Kept .loose s o) {around : Surroundings}
    (hs : s.turn? i around = some s') {task : Task} (h : s'.tasks[i]? = some task) :
    Moves s (.turn i around) s' i task.registration task.program := by
  obtain ⟨old, hold, ha, hturn⟩ := turn?_cases hs
  -- A reactor that is done is not inside, and neither reading nor ending takes the lock.
  have apart : ∀ {r}, old.program = .done r → ¬s.Inside i := by
    intro r hp hin
    obtain ⟨old', hold', -, hlaw⟩ := hk.inside i hin
    obtain rfl := Option.some.inj (hold.symm.trans hold')
    rw [hp] at hlaw
    cases hlaw
  have outside : ∀ {r}, old.program = .done r → s'.holder = s.holder → ¬s'.Inside i := by
    intro r hp hh hin
    refine apart hp ⟨hh.symm.trans hin.1, ?_⟩
    rintro ⟨old', next, hold', -, hp'⟩
    obtain rfl := Option.some.inj (hold.symm.trans hold')
    exact nomatch hp.symm.trans hp'
  cases hturn with
  | @reads _ _ _ e rest hp hr hc hw =>
      have hnew := Machine.tasks_goOn_self
        ((Program.react s.limits e).bind fun _ => Task.idle) hold
      obtain rfl := Option.some.inj (hnew.symm.trans h)
      exact show Moves _ _ _ _ old.registration _ from
        .reacts rfl hold hp hr hc e rest hw rfl (outside hp rfl)
  | ends hp =>
      obtain ⟨hi, hset⟩ := List.getElem?_eq_some_iff.1 h
      obtain rfl : { old with alive := false } = task := by
        rw [← hset]
        exact (List.getElem_set_self _).symm
      exact show Moves _ _ _ _ old.registration old.program from
        .stays hold (fun _ _ => apart hp) (iff_of_false (outside hp rfl) (apart hp))
  | @enters next hp hh =>
      have hnew := Machine.tasks_goOn_self (next ()) hold
      obtain rfl := Option.some.inj (hnew.symm.trans h)
      have hlaw := hk.outside i old hold (atRest_of_entered hold ha hp hh i)
      rw [hp] at hlaw
      exact show Moves _ _ _ _ old.registration (next ()) from
        .entered rfl hold hp hh rfl (atRest_of_entered hold ha hp hh)
          (Kept.inside_of_lawful rfl hnew (hlaw s.world.custody trivial trivial))
  | @queues next hp hh =>
      obtain rfl := Option.some.inj (hold.symm.trans h)
      have apart : ¬s.Inside i := fun hin => hin.2 ⟨old, next, hold, ha, hp⟩
      exact .stays hold (fun _ _ => apart) (iff_of_false (fun hin => hh.2.1 hin.1) apart)
  | @answered q next a s₁ hp hq hs₁ =>
      obtain rfl := Option.some.inj
        ((Machine.tasks_goOn_self (next a) (tasks_respond hs₁ hold)).symm.trans h)
      by_cases hu : q = .unlock
      · subst hu
        cases hs₁
        have hin := hk.inside_of_asked hold hp nofun rfl
        exact show Moves _ _ _ _ old.registration (next ()) from
          .left rfl hold hp rfl hin (hk.atRest_leave hin (next ()))
      · exact show Moves _ _ _ _ old.registration (next a) from
          .answered rfl hold hp hq hu hs₁ rfl (hk.inside_answered hold hp hq hu hs₁)

/-- Only a new reactor is a task that was not there. -/
theorem tasks_respond_eq {t : TaskId} {around : Surroundings} {q : Ask} {a : q.Answer}
    (hq : q ≠ .spawnReactor) (hs : s.respond t around q = some (a, s')) : s'.tasks = s.tasks := by
  cases q with
  | lock => cases hs
  | spawnReactor => exact absurd rfl hq
  | join id limit =>
      obtain ⟨rfl, -⟩ := respond_join.1 hs
      rfl
  | _ =>
      cases hs
      rfl

/-- A task that is not there yet. -/
theorem Kept.moves_new (hk : Kept .loose s o) (hs : s.step? l = some s') {task : Task}
    (hn : s.tasks[i]? = none) (h : s'.tasks[i]? = some task) :
    Moves s l s' i task.registration task.program := by
  have outside : s'.holder = s.holder → ¬s'.Inside i := by
    intro hh hin
    have hlt := hk.holder_lt (hh.symm.trans hin.1)
    exact absurd (List.getElem?_eq_none_iff.1 hn) (Nat.not_le_of_lt hlt)
  have absent : ∀ {new : Task}, (s.tasks ++ [new])[i]? = some task → task = new := by
    intro new h
    rw [List.getElem?_append_right (List.getElem?_eq_none_iff.1 hn)] at h
    exact List.mem_singleton.1 (List.mem_of_getElem? h)
  have set : ∀ {t : TaskId} {new : Task}, ¬(s.tasks.set t new)[i]? = some task := by
    intro t new h
    rw [List.getElem?_eq_none (by simpa using hn)] at h
    cases h
  have goOn : ∀ {s₁ : Machine} {t : TaskId} {p : Program Reply}, s₁.tasks = s.tasks →
      ¬(s₁.goOn t p).tasks[i]? = some task := by
    intro s₁ t p ht h
    rw [Machine.tasks_goOn, ht, hn] at h
    cases h
  have same : ∀ {s₁ : Machine}, s₁.tasks = s.tasks → ¬s₁.tasks[i]? = some task := by
    intro s₁ ht h
    rw [ht, hn] at h
    cases h
  cases l with
  | call op =>
      obtain rfl := Option.some.inj hs
      obtain rfl := absent h
      exact .called op hn (outside rfl)
  | turn t around =>
      obtain ⟨old, hold, -, hturn⟩ := turn?_cases hs
      cases hturn with
      | reads | enters => exact absurd h (goOn rfl)
      | ends => exact absurd h set
      | queues => exact absurd h (same rfl)
      | @answered q next a s₁ hp _ hs₁ =>
          by_cases hspawn : q = .spawnReactor
          · subst hspawn
            cases hs₁
            have hi : t ≠ i := by
              rintro rfl
              exact absurd (hn.symm.trans hold) nofun
            rw [Machine.tasks_goOn_other _ _ hi] at h
            obtain rfl := absent h
            exact .spawned rfl hn hold hp (outside rfl)
          · exact absurd h (goOn (tasks_respond_eq hspawn hs₁))
  | ask id =>
      obtain ⟨pool, -, rfl⟩ := step?_ask hs
      exact absurd h (same rfl)
  | begin id =>
      obtain ⟨pool, u, -, -, rfl⟩ := begin?_eq_some.1 hs
      exact absurd h (same rfl)
  | finish | panic =>
      obtain ⟨u, -, -, rfl⟩ := end?_eq_some.1 hs
      exact absurd h (same rfl)
  | deliver registration e =>
      obtain rfl := step?_deliver hs
      exact absurd h (same rfl)
  | drop t =>
      obtain ⟨old, hold, -, rfl⟩ := step?_drop hs
      rw [tasks_dropTask hold] at h
      exact absurd h set
  | silence | occupy | vacate | closePool | elapse =>
      obtain rfl := Option.some.inj hs
      exact absurd h (same rfl)

/-- **Every step makes a move of every task.** -/
theorem Kept.moves (hk : Kept .loose s o) (hl : s.Orderly l) (hs : s.step? l = some s')
    {task : Task} (h : s'.tasks[i]? = some task) :
    Moves s l s' i task.registration task.program := by
  cases hold : s.tasks[i]? with
  | none => exact hk.moves_new hs hold h
  | some old =>
      by_cases ht : ∃ around, l = .turn i around
      · obtain ⟨around, rfl⟩ := ht
        exact hk.moves_turn hs h
      · have ht : ∀ around, l ≠ .turn i around := fun around he => ht ⟨around, he⟩
        by_cases hd : l = .drop i
        · subst hd
          obtain ⟨-, -, -, rfl⟩ := step?_drop hs
          have hholder : (s.dropTask i).holder = s.holder :=
            holder_step hk hl (fun _ _ he => nomatch he) (fun _ _ he => nomatch he) hs
          rw [tasks_dropTask hold] at h
          obtain ⟨hi, hset⟩ := List.getElem?_eq_some_iff.1 h
          obtain rfl : { old with alive := false, program := Task.idle } = task := by
            rw [← hset]
            exact (List.getElem_set_self _).symm
          exact show Moves _ _ _ _ old.registration Task.idle from
            .dropped hold fun hin => hl (hholder.symm.trans hin.1)
        · obtain rfl := Option.some.inj ((task_step hs ht hd hold).1.symm.trans h)
          exact .stays hold (fun around he => absurd he (ht around))
            (hk.inside_stays hl hs ht hd hold)

end TunnelKeeper.Service
