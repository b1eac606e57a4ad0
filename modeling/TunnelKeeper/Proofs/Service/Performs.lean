import TunnelKeeper.Proofs.Service.Kept

/-!
# Executions — a program carried out within a run

An operation carries out a program as a part of its own: first the part, and then what the
continuation makes of its result.  `Performs rule t k s p s' a` says that the task `t` of the
machine `s` carries out `p` so, that the machine is `s'` when `p` is done, and that its result is
`a`.  Meanwhile other tasks, workers and the surroundings may make any steps that keep the rule.

* `Performs.secures`: what a program secures with the lock holds when it is done.
-/

namespace TunnelKeeper.Service

variable {α : Type}

/-- **An execution** of a program by a task, which goes on with `k`. -/
inductive Performs (rule : Machine → Label → Prop) (t : TaskId) (k : α → Program Reply) :
    Machine → Program α → Machine → α → Prop where
  | done {s : Machine} {a : α} : Performs rule t k s (.done a) s a
  /-- The task is answered. -/
  | turn {s s₁ s' : Machine} {around : Surroundings} {task : Task} {q : Ask}
      {next : q.Answer → Program α} {a : q.Answer} {r : α} (hl : rule s (.turn t around))
      (htask : s.tasks[t]? = some task) (hp : task.program = (Dialogue.ask q next).bind k)
      (hs : s.respond t around q = some (a, s₁))
      (h : Performs rule t k (s₁.goOn t ((next a).bind k)) (next a) s' r) :
      Performs rule t k s (.ask q next) s' r
  /-- Something else happens. -/
  | other {s s₁ s' : Machine} {p : Program α} {l : Label} {r : α} (hl : rule s l)
      (hn : ∀ around, l ≠ .turn t around) (hs : s.step? l = some s₁)
      (h : Performs rule t k s₁ p s' r) : Performs rule t k s p s' r

theorem Performs.mono {rule rule' : Machine → Label → Prop} (hr : ∀ s l, rule s l → rule' s l)
    {t : TaskId} {k : α → Program Reply} {s s' : Machine} {p : Program α} {a : α}
    (h : Performs rule t k s p s' a) : Performs rule' t k s p s' a := by
  induction h with
  | done => exact .done
  | turn hl htask hp hs _ ih => exact .turn (hr _ _ hl) htask hp hs ih
  | other hl hn hs _ ih => exact .other (hr _ _ hl) hn hs ih

variable {T : Terms} {s s' : Machine} {t : TaskId} {k : α → Program Reply}

/-- **What a program secures holds when it is done.** -/
theorem Performs.secures (hT : T.Lasting) {o : Option Pending} (hk : Kept T s o)
    (hin : s.Inside t) {post : α → Custody → Prop} {p : Program α} {a : α}
    (hp : T.Secures post o p s.world.custody) (h : Performs T.Allows t k s p s' a) :
    post a s'.world.custody := by
  induction h generalizing o with
  | done => exact hp.2
  | @turn s s₁ s' around task q next a r hl htask hprog hs h ih =>
      have hasked : T.Asked o s.world.custody q fun a o c => T.Secures post o (next a) c := by
        cases o with
        | none => exact hp
        | some p => exact (hp.2 _ _ (.refl _ _)).2
      have hq : q ≠ .unlock := by
        rintro rfl
        exact hasked.elim
      obtain ⟨o', hk, hin, hp⟩ := hk.turn_asked hin (hl.2.2 t around rfl) htask hprog hq hasked hs
      exact ih hk hin hp
  | other hl hn hs h ih =>
      -- Somebody else only lets the pending start drift.
      obtain ⟨o', hk', hd, hst⟩ := hk.step_apart hT hl (fun t' around hl hin' => by
        obtain rfl := hin.unique hin'
        exact hn around hl) hs
      exact ih hk' (hin.stays hst) (hp.of_drift hd)

/-- A task that starts a tunnel has nothing pending before it. -/
theorem nothing_pending {limits : Limits} {d : Descriptor} {auto : Bool}
    {k : ErrorCode → Program Reply} {o : Option Pending} {c : Custody}
    (h : Lawful T (some (o, c)) ((Program.startLocked limits d auto).bind k)) : o = none := by
  cases o with
  | none => rfl
  | some p => exact absurd h.1 (by simp [Ask.isAbout])

/-- **Every start of a tunnel** that a run comes to makes the acts of an attempt, and gives its
code. -/
theorem Performs.startLocked (hT : T.Lasting) {s₀ : Machine} (h₀ : Kept T s₀ none)
    (hs : Reach T.Allows s₀ s) (hin : s.Inside t) {limits : Limits} {d : Descriptor} {auto : Bool}
    {k : ErrorCode → Program Reply} {task : Task} (htask : s.tasks[t]? = some task)
    (hprog : task.program = (Program.startLocked limits d auto).bind k) {code : ErrorCode}
    (h : Performs T.Allows t k s (Program.startLocked limits d auto) s' code)
    (post : ErrorCode → Custody → Prop)
    (hpost : ∀ acts code, Attempt T s.world.custody d auto acts code →
      T.Along acts (post code) s.world.custody) : post code s'.world.custody := by
  obtain ⟨o, hk⟩ := hs.kept hT h₀
  obtain ⟨task', htask', -, hp⟩ := hk.inside t hin
  obtain rfl : task = task' := Option.some.inj (htask.symm.trans htask')
  rw [hprog] at hp
  obtain rfl := nothing_pending hp
  exact h.secures hT hk hin (.startLocked hT.met hk.always hpost)

/-! ### Undisturbed executions -/

/-- A task carries out a program while nothing else happens, in surroundings that stay the same.  It
is asked at most `n` questions. -/
def Machine.alone (around : Surroundings) (t : TaskId) (k : α → Program Reply) :
    (n : Nat) → Machine → Program α → Option (Machine × α)
  | _, s, .done a => some (s, a)
  | 0, _, .ask _ _ => none
  | n + 1, s, .ask q next =>
    (s.respond t around q).bind fun x =>
      alone around t k n (x.2.goOn t ((next x.1).bind k)) (next x.1)

/-- What is carried out alone is an execution. -/
theorem Performs.of_alone {rule : Machine → Label → Prop} {around : Surroundings}
    (hl : ∀ s, rule s (.turn t around)) {n : Nat} {p : Program α} {a : α} {task : Task}
    (htask : s.tasks[t]? = some task) (hp : task.program = p.bind k)
    (h : Machine.alone around t k n s p = some (s', a)) : Performs rule t k s p s' a := by
  induction n generalizing s p task with
  | zero =>
      cases p with
      | done b =>
          obtain ⟨rfl, rfl⟩ := Prod.mk.inj (Option.some.inj h)
          exact .done
      | ask q next => cases h
  | succ n ih =>
      cases p with
      | done b =>
          obtain ⟨rfl, rfl⟩ := Prod.mk.inj (Option.some.inj h)
          exact .done
      | ask q next =>
          obtain ⟨⟨b, s₁⟩, hs, h⟩ := Option.bind_eq_some_iff.1 h
          have hnew := Machine.tasks_goOn_self ((next b).bind k) (tasks_respond hs htask)
          exact .turn (hl s) htask hp hs (ih hnew rfl h)

/-! ### A run to look at -/

/-- A complete tunnel. -/
def completeTunnel : Descriptor :=
  ⟨"a", ⟨[("host", .text "h"), ("password", .text "p"), ("port", .number (.natural 443))]⟩⟩

/-- A tunnel that cannot be started. -/
def incompleteTunnel : Descriptor := ⟨"b", ⟨[("name", .text "n")]⟩⟩

/-- A service whose store knows a complete tunnel. -/
def rememberingService : Machine := .fresh {} 4 { tunnel := some completeTunnel.toJson }

/-- A task resumes the tunnel, and all goes well. -/
def resuming : List Label :=
  .call .resume :: (List.replicate 10 (.turn 0 {}) ++ carryOut 0 true ++
    List.replicate 19 (.turn 0 {}))

def resumedService : Machine := (rememberingService.run? resuming).get (by rfl)

/-- A task has got the lock to start a tunnel that cannot be started. -/
def replacing : List Label :=
  [.call (.start incompleteTunnel.id incompleteTunnel.config), .turn 2 {}]

/-- What a start does after it has started a tunnel. -/
def afterStart (code : ErrorCode) : Program Reply :=
  Program.unlock.bind fun _ => .done (.started (.ok code))

def replacingService : Machine := (resumedService.run? replacing).get (by rfl)

theorem task_replacingService : replacingService.tasks[2]? =
    some ⟨(Program.startLocked {} incompleteTunnel false).bind afterStart, none, true⟩ := by
  have h : ((Program.startLocked {} incompleteTunnel false).bind fun code =>
      Program.unlock.bind fun _ => .done (Except.ok code)).bind (fun r => .done (.started r)) =
        (Program.startLocked {} incompleteTunnel false).bind afterStart := Dialogue.bind_assoc _ _ _
  rw [← h]
  rfl

theorem inside_replacingService : replacingService.Inside 2 := by
  refine ⟨rfl, ?_⟩
  rintro ⟨task, next, htask, -, hlock⟩
  obtain rfl := Option.some.inj (task_replacingService.symm.trans htask)
  cases hlock

/-- The start fails. -/
theorem performs_replacingService {rule : Machine → Label → Prop}
    (hl : ∀ s, rule s (.turn 2 {})) : ∃ s, Performs rule 2 afterStart replacingService
      (Program.startLocked {} incompleteTunnel false) s .illegalServerConfiguration := by
  have ha : (Machine.alone {} 2 afterStart 23 replacingService
      (Program.startLocked {} incompleteTunnel false)).map (·.2) =
        some .illegalServerConfiguration := rfl
  obtain ⟨⟨s, _⟩, hs, rfl⟩ := Option.map_eq_some_iff.1 ha
  exact ⟨s, .of_alone hl task_replacingService rfl hs⟩

theorem atRest_resumedService : resumedService.AtRest := Machine.atRest_of_free rfl

theorem reach_resumedService {rule : Machine → Label → Prop}
    (hl : ∀ l ∈ resuming, ∀ s, rule s l) : Reach rule rememberingService resumedService :=
  .of_run? hl (Option.some_get _).symm

theorem reach_replacingService {rule : Machine → Label → Prop}
    (hl : ∀ l ∈ replacing, ∀ s, rule s l) : Reach rule resumedService replacingService :=
  .of_run? hl (Option.some_get _).symm

end TunnelKeeper.Service
