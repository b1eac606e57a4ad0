import TunnelKeeper.Proofs.Service.Givens
import TunnelKeeper.Proofs.Service.Modes
import TunnelKeeper.Proofs.Service.Remembrance
import TunnelKeeper.Proofs.Service.Replies

/-!
# Recovery — a tunnel comes back after a crash

A service that ends with a tunnel up leaves in its store what another service needs to bring the
tunnel back: the tunnel, and the mode that is known of it.  A tunnel that is up can be started again
(`restartable_lasting`), so nothing but its collaborators can keep the other service from it.  Where
no tunnel can be resumed, the service asks to be ended, and has touched nothing.

* `achieves_resume`: what a resumption achieves.
* `calling_resume`: what it has called.
* `resumption_recovers`: both for every run that is cut, and the answer of every resumption.
-/

namespace TunnelKeeper

/-! ### Tunnels that can be started again -/

theorem TunnelConfig.isEmpty_of_same {a b : TunnelConfig} (h : a.same b = true) :
    b.isEmpty = a.isEmpty := by
  obtain ⟨entries⟩ := a
  obtain ⟨entries'⟩ := b
  cases entries with
  | nil =>
      cases entries' with
      | nil => rfl
      | cons => cases h
  | cons =>
      cases entries' with
      | nil => cases h
      | cons => rfl

namespace Service

theorem isStartable_of_same {active : Option Descriptor} {d : Descriptor}
    (h : Descriptor.isSame active d = true)
    (hactive : ∀ old, active = some old → isStartable old = true) : isStartable d = true := by
  cases active with
  | none => cases h
  | some old =>
      obtain ⟨hid, hconfig⟩ := Bool.and_eq_true_iff.1 (show (_ && _) = true from h)
      have hold := hactive old rfl
      unfold isStartable at hold ⊢
      rw [← beq_iff_eq.1 hid, TunnelConfig.isEmpty_of_same hconfig]
      exact hold

/-- A start goes on only with a configuration that is complete. -/
theorem ProxyStart.endpoint {config : TunnelConfig} {probing : Bool} {acts : List Act}
    {code : ErrorCode} (h : ProxyStart config probing acts code) (hc : code.isContinuable = true) :
    ∃ endpoint, config.endpoint = .ok endpoint := by
  cases h with
  | illegal => cases hc
  | unbegun h | unended h | failed h | started h | probed h => exact ⟨_, h⟩

theorem Attempt.endpoint {T : Terms} {c : Custody} {d : Descriptor} {auto : Bool} {acts : List Act}
    {code : ErrorCode} (h : Attempt T c d auto acts code) (hc : code.isContinuable = true) :
    ∃ endpoint, d.config.endpoint = .ok endpoint := by
  cases h with
  | noProxy _ hn => exact absurd (hc.symm.trans hn) nofun
  | noInterface hp h | noConnection hp h | connected hp h => exact hp.endpoint h

/-- The active tunnel can be started again. -/
def Restartable (c : Custody) : Prop :=
  ∀ d, c.session.active = some d →
    isStartable d = true ∧ ∃ endpoint, d.config.endpoint = .ok endpoint

def restartable : Terms := { rest := Restartable }

theorem Attempt.restartable {T : Terms} {c : Custody} {d : Descriptor} {auto : Bool}
    {acts : List Act} {code : ErrorCode} (h : Attempt T c d auto acts code)
    (hd : isStartable d = true) : Restartable (c.afterAll acts) := by
  intro d' hd'
  have hends := h.ends
  cases hc : code.isContinuable with
  | true =>
      rw [hc, if_pos rfl] at hends
      obtain rfl := Option.some.inj (hends.1.symm.trans hd')
      exact ⟨hd, h.endpoint hc⟩
  | false =>
      rw [hc, if_neg Bool.false_ne_true] at hends
      exact absurd (hends.1.symm.trans hd') nofun

/-- **Every section leaves a tunnel that can be started again**, or none. -/
theorem restartable_lasting : restartable.Lasting where
  met := ⟨{}, trivial⟩
  kept c acts _ hr h := by
    refine (Terms.along_of_always fun _ => trivial).2 ?_
    have hr : Restartable c := hr
    cases h with
    | looked | unloaded | unprepared | reported | recorded => exact hr
    | started h hd =>
        refine h.restartable (hd.elim id fun hd => ?_)
        exact isStartable_of_same hd fun old ho => (hr old ho).1
    | resumed d acts code loaded h hd =>
        rw [Custody.afterAll_append]
        exact h.restartable (isStartable_of_resumable hd)
    | stopped | revoked => exact fun d hd => absurd hd (active_tearDown c [_] _ _ _ d)
    | destroyed => exact fun d hd => absurd hd (active_tearDown c [] _ _ _ d)

theorem kept_restartable (limits : Limits) (poolSize : Nat) (store : Store.Persisted) :
    Kept restartable (Machine.fresh limits poolSize store) none :=
  .fresh limits poolSize store trivial nofun

theorem allows_restartable {s : Machine} {l : Label} (h : s.Orderly l) : restartable.Allows s l :=
  ⟨h, fun _ => trivial, fun _ _ _ => trivial⟩

/-! ### What a resumption achieves -/

/-- A tunnel is loaded, and shown to be on its way back. -/
def resumingActs (loaded : Except Store.StoreError (Option Descriptor)) (d : Descriptor) :
    List Act :=
  [.deed (.called .load loaded), .deed (.called .isPrepared true),
    .deed (.called (.present (.display d.config.serverName .reconnecting)) ())]

/-- What a store gives, if it can be read. -/
def loadedFrom (store : Store.Persisted) (loads : Bool) :
    Except Store.StoreError (Option Descriptor) :=
  if loads then store.load else .error .io

/-- A store that can be read never says that it cannot. -/
theorem load_ne_io (store : Store.Persisted) : store.load ≠ .error .io := by
  unfold Store.Persisted.load
  split
  · nofun
  · split <;> nofun

variable {A : Assumption} {units : Units} {c : Custody}

theorem loaded_of_answers {loaded : Except Store.StoreError (Option Descriptor)} {loads : Bool}
    (h : Terms.loose.Answers c .load loaded) (ha : A.Allows units (.call .load) loaded)
    (hA : ∀ around, A.rely around → around.loads = loads) :
    loaded = loadedFrom c.store loads := by
  obtain ⟨around, -, hanswer⟩ := h
  obtain ⟨c', around', hrely, hassumed⟩ := ha
  have hanswer : loadedFrom c.store around.loads = loaded := hanswer
  have hassumed : loadedFrom c'.store loads = loaded := hA around' hrely ▸ hassumed
  cases loads with
  | false => exact hassumed.symm
  | true =>
      cases hl : around.loads with
      | true => rw [← hanswer, hl]
      | false =>
          -- Whatever was loaded, it is not that the store could not be read.
          rw [hl] at hanswer
          exact absurd (hassumed.trans hanswer.symm) (load_ne_io c'.store)

/-- **What a resumption achieves**, where the store and the interface answer as assumed. -/
theorem achieves_resume {post : Units → Option ErrorCode → Custody → Prop}
    (given : Units → ErrorCode → Prop) {limits : Limits} {loads prepared : Bool}
    (hA : ∀ around, A.rely around → around.loads = loads ∧ around.prepared = prepared)
    (unloaded : Program.resumable? (loadedFrom c.store loads) = none →
      post units none (c.afterAll
        [.deed (.called .load (loadedFrom c.store loads)), .deed (.called .requestExit ())]))
    (unprepared : prepared = false →
      post units none (c.afterAll [.deed (.called .load (loadedFrom c.store loads)),
        .deed (.called .isPrepared false), .deed (.called .requestExit ())]))
    (resumes : ∀ d, Program.resumable? (loadedFrom c.store loads) = some d → prepared = true →
      Given A given units (Program.startLocked limits d true) ∧
      ∀ acts code units,
        Attempt .loose (c.afterAll (resumingActs (loadedFrom c.store loads) d)) d true acts code →
        given units code →
        post units (some code)
          (c.afterAll (resumingActs (loadedFrom c.store loads) d ++ acts))) :
    Achieves A post units none c (Program.resume limits) := by
  refine .lock (.call fun loaded hanswer hassumed => ?_)
  obtain rfl := loaded_of_answers hanswer hassumed fun around h => (hA around h).1
  cases hd : Program.resumable? (loadedFrom c.store loads) with
  | none => exact .call fun _ _ _ => .unlock ⟨rfl, unloaded hd⟩
  | some d =>
      refine .call fun prepared' _ ⟨_, around, hrely, hprepared⟩ => ?_
      obtain rfl : prepared = prepared' := (hA around hrely).2.symm.trans hprepared
      cases prepared with
      | false => exact .call fun _ _ _ => .unlock ⟨rfl, unprepared rfl⟩
      | true =>
          obtain ⟨hgiven, hpost⟩ := resumes d hd rfl
          refine .call fun _ _ _ => achieves_startLocked hgiven fun acts code units ha hcode => ?_
          have h := hpost acts code units ha hcode
          rw [Custody.afterAll_append] at h
          exact .unlock ⟨rfl, h⟩

/-- What a resumption may have called, by what it ends with. -/
def ResumptionCalls (calls : List Call) : Option ErrorCode → Prop
  | none => calls = [.load, .requestExit] ∨ calls = [.load, .isPrepared, .requestExit]
  | some _ => Call.requestExit ∉ calls

/-- **What a resumption has called**: it asks for the end of the service just if it resumes nothing,
and then calls nothing else that changes anything. -/
theorem calling_resume (limits : Limits) : Calling ResumptionCalls [] (Program.resume limits) := by
  refine .question fun _ => .question fun loaded => ?_
  cases Program.resumable? loaded with
  | none => exact fun _ _ => .inl rfl
  | some d =>
      refine fun (prepared : Bool) => ?_
      cases prepared with
      | false => exact fun _ _ => .inr rfl
      | true =>
          refine fun _ => Calling.bind (p := Program.startLocked limits d true)
            ((Calling.of_asks (asks_startLocked limits d true)).mono ?_)
          intro calls code h _ hexit
          rcases h _ (by simpa [Ask.calls] using hexit) with hmem | hstart
          · simp [Ask.calls] at hmem
          · cases hstart

/-! ### The store knows the tunnel already -/

/-- A write of what the store holds already makes no difference, whether it works or not. -/
theorem stored_of_apply {u : Store.Update} {state : Store.Persisted} (h : state.apply u = state)
    (written : Bool) : (Deed.called (.write u) written).stored state = state := by
  cases written with
  | true => exact h
  | false => rfl

/-- **A tunnel that is brought back is written as it was.** -/
theorem Attempt.store_of_known {T : Terms} {c : Custody} {d : Descriptor} {acts : List Act}
    {code : ErrorCode} (h : Attempt T c d true acts code) (hc : code.isContinuable = true)
    (htunnel : c.store.tunnel = some d.toJson) (hstatus : c.store.status = .connected) :
    (c.afterAll acts).store = c.store := by
  cases h with
  | noProxy _ hn => exact absurd (hc.symm.trans hn) nofun
  | noInterface | noConnection => cases hc
  | @connected _ _ _ _ hp _ hr _ saved savedUdp savedStatus =>
      have hready := hr.preparation d.config none
      rw [List.all_append, Bool.and_eq_true] at hready
      rw [Custody.afterAll_append, Custody.afterAll_append, Custody.afterAll_append,
        afterAll_announceActs, (afterAll_preparation hready.2 _).2.2.2,
        (afterAll_preparation hp.preparation _).2.2.2, afterAll_openingActs]
      -- The three writes, one after the other.
      have hsaved : c.store.apply (.tunnel d) = c.store := by
        rw [Store.Persisted.apply, ← htunnel]
      have hconnected : c.store.apply (.status .connected) = c.store := by
        rw [Store.Persisted.apply, ← hstatus]
      have hflag : c.store.apply (.udpSupported c.store.udpSupported) = c.store := rfl
      calc (Deed.called (.write (.status .connected)) savedStatus).stored
            ((Deed.called (.write (.udpSupported c.store.udpSupported)) savedUdp).stored
              ((Deed.called (.write (.tunnel d)) saved).stored c.store))
        _ = (Deed.called (.write (.status .connected)) savedStatus).stored
            ((Deed.called (.write (.udpSupported c.store.udpSupported)) savedUdp).stored
              c.store) := congrArg _ (congrArg _ (stored_of_apply hsaved saved))
        _ = (Deed.called (.write (.status .connected)) savedStatus).stored c.store :=
          congrArg _ (stored_of_apply hflag savedUdp)
        _ = c.store := stored_of_apply hconnected savedStatus

/-! ### Every run that is cut -/

/-- A caller asks for the last tunnel to be resumed. -/
def Machine.resuming (s : Machine) : Machine :=
  (s.addTask { program := Operation.resume.program s.limits }).2

/-- The store can be read, the interface is prepared and comes up, and so does the proxy. -/
def obliging : Assumption where
  rely around := (around.loads = true ∧ around.prepared = true) ∧
    around.establishes = true ∧ around.connects = true
  outcome
    | .startProxy _ => some true
    | _ => none

/-- The store can be read or not, and the interface is prepared or not. -/
def answering (loads prepared : Bool) : Assumption where
  rely around := around.loads = loads ∧ around.prepared = prepared

/-- **A tunnel is brought back** by a task, from a store. -/
structure Restored (d : Descriptor) (store : Store.Persisted) (t : TaskId) (s : Machine)
    (r : Reply) : Prop where
  reply : r = .resumed (some .noError)
  active : s.world.session.active = some d
  visible : s.world.visibleActive = some d ∧ s.world.visibleStatus = .connected
  mode : connectedMode s.world.deeds = some store.udpSupported
  store : s.world.store = store
  work : ∀ id work, unitsOf s.pool t id = some work → work = .startProxy d.config
  stays : Call.requestExit ∉ callsOf s.world.log t

/-- **Nothing is brought back**: the task has asked for the end of the service, and all is as it
was. -/
structure GivenUp (s : Machine) (t : TaskId) (s' : Machine) : Prop where
  session : s'.world.session = s.world.session
  visible : s'.world.visibleActive = s.world.visibleActive ∧
    s'.world.visibleStatus = s.world.visibleStatus
  store : s'.world.store = s.world.store
  work : unitsOf s'.pool t = unitsOf s.pool t
  calls : callsOf s'.world.log t = [.load, .requestExit] ∨
    callsOf s'.world.log t = [.load, .isPrepared, .requestExit]

/-- There is a tunnel in the store that can be read, and started. -/
def CanResume (store : Store.Persisted) (loads : Bool) : Prop :=
  loads = true ∧ ∃ d, store.load = .ok (some d) ∧ d.id.isEmpty = false ∧ d.config.isEmpty = false

/-- What is resumed is what the store holds, if it can be read, and only what can be started. -/
theorem resumable?_eq_some {store : Store.Persisted} {loads : Bool} {d : Descriptor} :
    Program.resumable? (loadedFrom store loads) = some d ↔
      loads = true ∧ store.load = .ok (some d) ∧ isStartable d = true := by
  cases loads with
  | false => exact ⟨nofun, nofun⟩
  | true =>
      show Program.resumable? store.load = some d ↔ _
      constructor
      · intro h
        refine ⟨rfl, ?_, isStartable_of_resumable h⟩
        unfold Program.resumable? at h
        split at h
        case h_1 d' hload =>
          split at h
          case isTrue =>
            cases h
            exact hload
          case isFalse => cases h
        case h_2 => cases h
      · rintro ⟨-, hload, hd⟩
        rw [hload]
        exact if_pos hd

theorem canResume_iff {store : Store.Persisted} {loads : Bool} :
    CanResume store loads ↔ ∃ d, Program.resumable? (loadedFrom store loads) = some d := by
  have startable : ∀ d : Descriptor, isStartable d = true ↔
      d.id.isEmpty = false ∧ d.config.isEmpty = false := by
    simp [isStartable]
  simp only [CanResume, resumable?_eq_some, startable, exists_and_left]

/-- **A tunnel that the store knows to be connected comes back**, where nothing is in its way. -/
theorem achieves_restored {limits : Limits} {d : Descriptor} {endpoint : String × UInt16}
    (htunnel : c.store.tunnel = some d.toJson) (hstatus : c.store.status = .connected)
    (hd : isStartable d = true) (he : d.config.endpoint = .ok endpoint) :
    Achieves obliging (fun units' code c' => code = some .noError ∧
      c'.session.active = some d ∧ (c'.visibleActive = some d ∧ c'.visibleStatus = .connected) ∧
      connectedMode c'.deeds = some c.store.udpSupported ∧ c'.store = c.store ∧
      ∃ id, units' = units.add id (.startProxy d.config)) units none c (Program.resume limits) := by
  have hresumable : Program.resumable? (loadedFrom c.store true) = some d :=
    resumable?_eq_some.2 ⟨rfl, Store.Persisted.load_of_tunnel htunnel, hd⟩
  have hA : ∀ around, obliging.rely around → around.loads = true ∧ around.prepared = true :=
    fun _ h => h.1
  refine achieves_resume
    (fun units' code => code = .noError ∧ ∃ id, units' = units.add id (.startProxy d.config))
    hA (fun hnone => absurd (hnone.symm.trans hresumable) nofun) nofun ?_
  intro d' hd' _
  obtain rfl := Option.some.inj (hd'.symm.trans hresumable)
  constructor
  · refine given_startLocked (given_automatic he rfl limits) fun around hrely hdown _ => ?_
    rcases hdown with hdown | hdown
    · exact absurd (hrely.2.1.symm.trans hdown) nofun
    · exact absurd (hrely.2.2.symm.trans hdown) nofun
  · rintro acts code units' ha ⟨rfl, hunits⟩
    have hends := ha.ends
    have hmode := ha.mode
    have hstore := ha.store_of_known rfl htunnel hstatus
    rw [show ErrorCode.noError.isContinuable = true from rfl, if_pos rfl] at hends hmode
    rw [Custody.afterAll_append]
    refine ⟨rfl, hends.1, hends.2, ?_, hstore, hunits⟩
    rw [Custody.deeds_afterAll, connectedMode_append, hmode.1]
    rfl

/-- **Nothing is brought back** just if there is nothing that can be resumed, or the interface is
not prepared; and then nothing has happened. -/
theorem achieves_answered {limits : Limits} (loads prepared : Bool) :
    Achieves (answering loads prepared) (fun units' code c' =>
      (code = none ↔ ¬(CanResume c.store loads ∧ prepared = true)) ∧
      (code = none → units' = units ∧ c'.session = c.session ∧ (c'.visibleActive = c.visibleActive ∧
        c'.visibleStatus = c.visibleStatus) ∧ c'.store = c.store)) units none c
      (Program.resume limits) := by
  have hA : ∀ around, (answering loads prepared).rely around →
      around.loads = loads ∧ around.prepared = prepared := fun _ => id
  refine achieves_resume (fun _ _ => True) hA (fun hnone => ?_) (fun hprepared => ?_)
    fun d hd hprepared => ⟨?_, ?_⟩
  · refine ⟨⟨fun _ ⟨hcan, _⟩ => ?_, fun _ => rfl⟩, fun _ => ⟨rfl, rfl, ⟨rfl, rfl⟩, rfl⟩⟩
    obtain ⟨d, hd⟩ := canResume_iff.1 hcan
    exact absurd (hnone.symm.trans hd) nofun
  · refine ⟨⟨fun _ ⟨_, h⟩ => ?_, fun _ => rfl⟩, fun _ => ⟨rfl, rfl, ⟨rfl, rfl⟩, rfl⟩⟩
    exact absurd (hprepared.symm.trans h) nofun
  · exact (Given.of_asks (asks_startLocked limits d true)).mono fun _ _ _ => trivial
  · exact fun _ _ _ _ _ => ⟨⟨nofun, fun h => absurd ⟨canResume_iff.2 ⟨d, hd⟩, hprepared⟩ h⟩, nofun⟩

/-! ### The task that resumes -/

variable {limits : Limits} {poolSize : Nat} {store : Store.Persisted} {s s' : Machine} {r : Reply}

theorem task_resuming (s : Machine) : s.resuming.tasks[s.tasks.length]? =
    some { program := Operation.resume.program s.limits } :=
  List.getElem?_concat_length

/-- **What a resumption has achieved and called when it replies**, wherever it begins. -/
theorem Reach.resuming {post : Units → Option ErrorCode → Custody → Prop}
    (h : Reach Machine.Orderly (Machine.fresh limits poolSize store) s) (hr : s.AtRest)
    (hp : Achieves A post (unitsOf s.pool s.tasks.length) none s.world.custody
      (Program.resume s.limits))
    (hrun : Reach (Machine.Undisturbed A s.tasks.length) s.resuming s')
    (hreply : s'.reply? s.tasks.length = some r) :
    ∃ code, r = .resumed code ∧
      post (unitsOf s'.pool s.tasks.length) code s'.world.custody ∧
      ResumptionCalls (callsOf s'.world.log s.tasks.length) code := by
  obtain ⟨o, hk⟩ := (h.mono fun _ _ => allows_loose).kept loose_lasting (kept_loose ..)
  have hlaw : Lawful .loose none (Operation.resume.program s.limits) :=
    Operation.lawful loose_lasting s.limits nofun
  have hk' : Kept .loose s.resuming o := hk.addTask hlaw
  have hr' : s.resuming.AtRest := fun t ht => hr t ((hk.inside_addTask _ t).1 ht)
  have achieves : Achieves A (fun units r c => ∃ code, r = .resumed code ∧ post units code c)
      (unitsOf s.pool s.tasks.length) none s.world.custody (Operation.resume.program s.limits) :=
    .bind (hp.mono fun _ code _ hpost => ⟨rfl, code, rfl, hpost⟩)
  have calling : Calling (fun calls r => ∃ code, r = .resumed code ∧ ResumptionCalls calls code)
      (callsOf s.resuming.world.log s.tasks.length) (Operation.resume.program s.limits) := by
    have hnone : s.tasks[s.tasks.length]? = none := List.getElem?_eq_none (Nat.le_refl _)
    rw [show callsOf s.resuming.world.log s.tasks.length = [] from h.callsOf_eq_nil hnone]
    exact .bind ((calling_resume s.limits).mono fun _ code hcalls => ⟨code, rfl, hcalls⟩)
  obtain ⟨-, code, rfl, hpost⟩ := Achieves.reach hk' hr' (task_resuming s) rfl achieves hrun hreply
  obtain ⟨code', hcode, hcalls⟩ := Calling.reach (task_resuming s) rfl calling hrun hreply
  cases hcode
  exact ⟨code, rfl, hpost, hcalls⟩

/-- A resumption can reply, if the lock is free and the pool is ready. -/
theorem exists_resuming_reply {around : Surroundings} (hA : A.rely around)
    (hfree : s.holder = none) (hready : s.pool.Ready) :
    ∃ s' r, Reach (Machine.Undisturbed A s.tasks.length) s.resuming s' ∧
      s'.reply? s.tasks.length = some r := by
  obtain ⟨next, hprogram, hheld⟩ := held_resume s.limits
  have hp : Operation.resume.program s.limits = .ask .lock fun a =>
      (next a).bind fun code => .done (.resumed code) := by
    show (Program.resume s.limits).bind _ = _
    rw [hprogram]
    rfl
  exact exists_reply (s := s.resuming) hA hready hfree (task_resuming s) rfl hp (hheld.map _)

/-- **Every resumption over a store that knows a tunnel to be connected** brings it back. -/
theorem restored_of_resuming {d : Descriptor} {endpoint : String × UInt16}
    (htunnel : store.tunnel = some d.toJson) (hstatus : store.status = .connected)
    (hd : isStartable d = true) (he : d.config.endpoint = .ok endpoint)
    (hrun : Reach (Machine.Undisturbed obliging 0)
      (Machine.fresh limits poolSize store).resuming s') (hreply : s'.reply? 0 = some r) :
    Restored d store 0 s' r := by
  obtain ⟨code, rfl, ⟨rfl, hactive, hvisible, hmode, hstore, id, hunits⟩, hcalls⟩ :=
    Reach.start.resuming (s := Machine.fresh limits poolSize store) (Machine.atRest_of_free rfl)
      (achieves_restored htunnel hstatus hd he) hrun hreply
  refine ⟨rfl, hactive, hvisible, hmode, hstore, fun i work hi => ?_, hcalls⟩
  -- Before the resumption, no work was handed in.
  rw [show unitsOf s'.pool 0 = _ from hunits] at hi
  unfold Units.add at hi
  split at hi
  · exact (Option.some.inj hi).symm
  · cases hi

/-- **A tunnel comes back after a crash.**  In every run in which writes to the store work, and that
is cut while the lock is free and a tunnel is up: the store has the mode that was last known of it,
and another service over that store, whose collaborators are obliging, can resume, and whenever it
does it brings the tunnel back, without a check, in that mode, and leaves the store as it was.  In
every run, a resumption ends with no code just if there is nothing to be resumed or the interface is
not prepared; then it has done nothing but ask for the end of the service, which it does not do
otherwise. -/
theorem resumption_recovers
    (h : Reach Machine.Orderly (Machine.fresh limits poolSize store) s) (hr : s.AtRest) :
    (∀ d limits' poolSize', Reach Remembers (Machine.fresh limits poolSize store) s →
      s.world.session.active = some d →
      knownMode s.world.deeds = some s.world.store.udpSupported ∧
      (∃ s' r, Reach (Machine.Undisturbed obliging 0)
        (Machine.fresh limits' poolSize' s.world.store).resuming s' ∧ s'.reply? 0 = some r) ∧
      ∀ s' r, Reach (Machine.Undisturbed obliging 0)
        (Machine.fresh limits' poolSize' s.world.store).resuming s' → s'.reply? 0 = some r →
          Restored d s.world.store 0 s' r) ∧
    ∀ loads prepared,
      (s.holder = none → s.pool.Ready → ∃ s' r,
        Reach (Machine.Undisturbed (answering loads prepared) s.tasks.length) s.resuming s' ∧
          s'.reply? s.tasks.length = some r) ∧
      ∀ s' r, Reach (Machine.Undisturbed (answering loads prepared) s.tasks.length) s.resuming s' →
        s'.reply? s.tasks.length = some r →
          (r = .resumed none ↔ ¬(CanResume s.world.store loads ∧ prepared = true)) ∧
          (r = .resumed none → GivenUp s s.tasks.length s') ∧
          (r ≠ .resumed none → Call.requestExit ∉ callsOf s'.world.log s.tasks.length) := by
  constructor
  · intro d limits' poolSize' hwrites hd
    have hremembered := (hwrites.mono fun _ _ => allows_remembering store.tunnel).atRest
      (remembering_lasting _) (kept_remembering ..) hr
    obtain ⟨htunnel, hstatus⟩ := hremembered.2 d hd
    obtain ⟨hstartable, endpoint, he⟩ := (h.mono fun _ _ => allows_restartable).atRest
      restartable_lasting (kept_restartable ..) hr d hd
    have hmoded := (hwrites.mono fun _ _ hl => allows_moded ⟨hl.1, fun t around ht udp =>
      hl.2 t around ht _⟩).atRest moded_lasting (kept_moded ..) hr
    refine ⟨hmoded d hd, ?_, fun s' r => restored_of_resuming htunnel hstatus hstartable he⟩
    have hA : obliging.rely {} := ⟨⟨rfl, rfl⟩, rfl, rfl⟩
    exact exists_resuming_reply (s := Machine.fresh limits' poolSize' s.world.store) hA rfl
      (.ofSize poolSize')
  · intro loads prepared
    have hA : (answering loads prepared).rely { loads, prepared } := ⟨rfl, rfl⟩
    refine ⟨exists_resuming_reply hA, fun s' r hrun hreply => ?_⟩
    obtain ⟨code, rfl, ⟨hnone, hsame⟩, hcalls⟩ :=
      h.resuming hr (achieves_answered loads prepared) hrun hreply
    have hcode : ∀ code', Reply.resumed code = .resumed code' ↔ code = code' :=
      fun code' => ⟨Reply.resumed.inj, congrArg _⟩
    refine ⟨(hcode none).trans hnone, fun hn => ?_, fun hn => ?_⟩
    · obtain rfl := (hcode none).1 hn
      obtain ⟨hunits, hsession, hvisible, hstore⟩ := hsame rfl
      exact ⟨hsession, hvisible, hstore, hunits, hcalls⟩
    · cases code with
      | none => exact absurd rfl hn
      | some code => exact hcalls

/-- A tunnel that was resumed is resumed once more after a crash, and no tunnel is where the store
cannot be read. -/
theorem crashed_tunnel_recovers :
    (∃ s', Restored completeTunnel resumedService.world.store 0 s' (.resumed (some .noError))) ∧
      ∃ s', s'.reply? 2 = some (.resumed none) ∧ GivenUp resumedService 2 s' := by
  have h : ∀ {rule : Machine → Label → Prop}, (∀ l ∈ resuming, ∀ s, rule s l) →
      Reach rule rememberingService resumedService := reach_resumedService
  obtain ⟨hback, hanswer⟩ := resumption_recovers
    (h (by simp [resuming, Machine.Orderly])) atRest_resumedService
  obtain ⟨-, ⟨s₁, r₁, hrun₁, hreply₁⟩, hrestored⟩ := hback completeTunnel {} 4
    (h (by simp [resuming, Remembers, Machine.Orderly, Writable])) rfl
  have hrestored := hrestored s₁ r₁ hrun₁ hreply₁
  obtain rfl := hrestored.reply
  refine ⟨⟨s₁, hrestored⟩, ?_⟩
  obtain ⟨hcan, hall⟩ := hanswer false true
  obtain ⟨s₂, r₂, hrun₂, hreply₂⟩ := hcan rfl ⟨rfl, by decide, by decide⟩
  obtain ⟨hnone, hsame, -⟩ := hall s₂ r₂ hrun₂ hreply₂
  have hleft : r₂ = .resumed none := hnone.2 fun hcan => Bool.false_ne_true hcan.1.1
  exact ⟨s₂, hleft ▸ hreply₂, hsame hleft⟩

end Service

end TunnelKeeper
