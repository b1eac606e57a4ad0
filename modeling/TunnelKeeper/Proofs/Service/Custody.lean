import TunnelKeeper.Service.Machine

/-!
# Custody — what the lock of the session guards

The task that has the lock is the only one that changes the session, what is visible of it, the
store, and the record of guarded calls (`Call.isGuarded`).  `Custody` is that part of a world, and
an `Act` is one change of it.  A start of the proxy is an act as well, although it is a unit of work
that makes it: the unit belongs to the task with the lock (`Pending`), which waits for it.

`Terms` are what a statement assumes of the surroundings and demands of a custody.
`Terms.Secures post o p c` says that a task with the lock that carries out `p` from the custody `c`
keeps to the terms, whatever it is answered, and ends in `post`.

* `Secures.bind`: what a program secures can be put together from its parts.
* `Secures.of_drift`: nothing is lost while a unit of work of the task goes its way.
* `Along`: the same for a list of acts, where no program is left.
-/

namespace TunnelKeeper.Service

/-! ### Deeds and acts -/

/-- Whether only the task with the lock makes a call. -/
def Call.isGuarded : Call → Bool
  | .proxyAddress => false
  | .bindNetwork _ => false
  | .udpSupported => false
  | .networkState _ => false
  | .activeNetwork => false
  | _ => true

/-- What is done under the lock: a guarded call, or a start of the proxy that begins or ends. -/
inductive Deed where
  | called (c : Call) (answer : c.Answer)
  | began (config : TunnelConfig)
  | ended (config : TunnelConfig) (result : Option Bool)

/-- The deed an entry of the log tells of. -/
def Entry.deed? : Entry → Option Deed
  | .called _ c a => if c.isGuarded then some (.called c a) else none
  | .began _ (.startProxy config) => some (.began config)
  | .ended _ (.startProxy config) result => some (.ended config result)
  | _ => none

/-- The deeds of a world, oldest first. -/
def World.deeds (w : World) : List Deed := w.log.filterMap Entry.deed?

/-- What a deed makes of the store. -/
def Deed.stored (x : Deed) (state : Store.Persisted) : Store.Persisted :=
  match x with
  | .called (.write u) true => state.apply u
  | _ => state

/-- What the lock guards. -/
structure Custody where
  session : Session
  visibleActive : Option Descriptor
  visibleStatus : Status
  store : Store.Persisted
  deeds : List Deed

def World.custody (w : World) : Custody :=
  ⟨w.session, w.visibleActive, w.visibleStatus, w.store, w.deeds⟩

/-- A change of what the lock guards. -/
inductive Act where
  | deed (x : Deed)
  | setActive (active : Option Descriptor)
  | setMonitored (monitored : Bool)
  | publishActive (active : Option Descriptor)
  | publishStatus (status : Status)

/-- The act of a call, unless anybody may make it. -/
def Act.ofCall (k : Call) (a : k.Answer) : List Act :=
  if k.isGuarded then [.deed (.called k a)] else []

namespace Custody

/-- The custody after an act. -/
def after (c : Custody) : Act → Custody
  | .deed x => { c with store := x.stored c.store, deeds := c.deeds ++ [x] }
  | .setActive active => { c with session := { c.session with active } }
  | .setMonitored monitored => { c with session := { c.session with monitored } }
  | .publishActive active => { c with visibleActive := active }
  | .publishStatus status => { c with visibleStatus := status }

/-- The custody after a list of acts. -/
def afterAll (c : Custody) (acts : List Act) : Custody := acts.foldl after c

/-- What a collaborator answers; only the store counts. -/
def answer (c : Custody) (around : Surroundings) (k : Call) : k.Answer :=
  World.answer { store := c.store } around k

theorem afterAll_append (c : Custody) (acts more : List Act) :
    c.afterAll (acts ++ more) = (c.afterAll acts).afterAll more := by
  simp [afterAll]

end Custody

/-- The deed of an act. -/
def Act.deed? : Act → Option Deed
  | .deed x => some x
  | _ => none

/-- The deeds among acts. -/
def deedsOf (acts : List Act) : List Deed := acts.filterMap Act.deed?

theorem deedsOf_append (acts more : List Act) :
    deedsOf (acts ++ more) = deedsOf acts ++ deedsOf more :=
  List.filterMap_append

theorem Custody.deeds_afterAll (c : Custody) (acts : List Act) :
    (c.afterAll acts).deeds = c.deeds ++ deedsOf acts := by
  induction acts generalizing c with
  | nil => exact (List.append_nil _).symm
  | cons x acts ih =>
      rw [show c.afterAll (x :: acts) = (c.after x).afterAll acts from rfl, ih]
      cases x <;> simp [after, deedsOf, Act.deed?, List.filterMap_cons]

/-- Two custodies with the same deeds are told apart by the rest. -/
theorem Custody.eq_of_deeds {c c' : Custody} (hd : c.deeds = c'.deeds) (hs : c.session = c'.session)
    (ha : c.visibleActive = c'.visibleActive) (hv : c.visibleStatus = c'.visibleStatus)
    (ht : c.store = c'.store) : c = c' := by
  cases c
  cases c'
  cases hd; cases hs; cases ha; cases hv; cases ht
  rfl

theorem World.answer_custody (w : World) (around : Surroundings) (k : Call) :
    w.answer around k = w.custody.answer around k := by
  cases k <;> rfl

/-! ### The start of the proxy that is under way -/

/-- A start of the proxy that the task with the lock has handed in. -/
structure Pending where
  id : UnitId
  config : TunnelConfig
  stage : Stage Bool

/-- What a unit that has ended gives to whoever joins it. -/
def joinedAt : Stage Bool → Option (Pool.Joined Bool)
  | .finished result => some (.value result)
  | .panicked => some .panicked
  | .refused => some .refused
  | _ => none

/-- Joining a unit may give `joined` and leave `o'` pending. -/
def Pending.Joins (o : Option Pending) (id : UnitId) (joined : Pool.Joined Bool)
    (o' : Option Pending) : Prop :=
  match o with
  | none => o' = none
  | some p =>
    if p.id = id then
      (joinedAt p.stage = some joined ∧ o' = none) ∨ (joined = .timedOut ∧ o' = some p)
    else o' = some p

theorem Pending.joins_self {p : Pending} {joined : Pool.Joined Bool} {o : Option Pending} :
    Pending.Joins (some p) p.id joined o ↔
      (joinedAt p.stage = some joined ∧ o = none) ∨ (joined = .timedOut ∧ o = some p) := by
  simp [Pending.Joins]

/-- What is pending after a unit was given up. -/
def Pending.abandon (o : Option Pending) (id : UnitId) : Option Pending :=
  o.filter (·.id != id)

theorem Pending.abandon_self (p : Pending) : Pending.abandon (some p) p.id = none := by
  simp [Pending.abandon]

theorem Pending.abandon_other {o : Option Pending} {id : UnitId} (h : ∀ p, o = some p → p.id ≠ id) :
    Pending.abandon o id = o := by
  cases o with
  | none => rfl
  | some p => simp [Pending.abandon, h p rfl]

/-- Whether a question is about a unit.  No other question is asked while the unit is pending. -/
def Ask.isAbout : Ask → UnitId → Bool
  | .join i _, id => i == id
  | .abandon i, id => i == id
  | _, _ => false

/-- One move of the pending unit, which the task with the lock does not make itself. -/
inductive Drift : Option Pending → Custody → Option Pending → Custody → Prop where
  | begins {p : Pending} {c : Custody} (h : p.stage = .waiting) :
      Drift (some p) c (some { p with stage := .running }) (c.after (.deed (.began p.config)))
  | ends {p : Pending} {c : Custody} (result : Bool) (h : p.stage = .running) :
      Drift (some p) c (some { p with stage := .finished result })
        (c.after (.deed (.ended p.config (some result))))
  | panics {p : Pending} {c : Custody} (h : p.stage = .running) :
      Drift (some p) c (some { p with stage := .panicked })
        (c.after (.deed (.ended p.config none)))
  | refused {p : Pending} {c : Custody} (h : p.stage = .waiting) :
      Drift (some p) c (some { p with stage := .refused }) c
  | dropped {p : Pending} {c : Custody} (h : p.stage = .waiting ∨ p.stage = .running) :
      Drift (some p) c (some { p with stage := .dropped }) c

/-- Any number of moves of the pending unit. -/
inductive Drifts : Option Pending → Custody → Option Pending → Custody → Prop where
  | refl (o : Option Pending) (c : Custody) : Drifts o c o c
  | more {o o₁ o₂ : Option Pending} {c c₁ c₂ : Custody} (h : Drift o c o₁ c₁)
      (t : Drifts o₁ c₁ o₂ c₂) : Drifts o c o₂ c₂

namespace Drifts

theorem one {o o' : Option Pending} {c c' : Custody} (h : Drift o c o' c') : Drifts o c o' c' :=
  .more h (.refl _ _)

theorem trans {o o₁ o₂ : Option Pending} {c c₁ c₂ : Custody} (h₁ : Drifts o c o₁ c₁)
    (h₂ : Drifts o₁ c₁ o₂ c₂) : Drifts o c o₂ c₂ := by
  induction h₁ with
  | refl => exact h₂
  | more h _ ih => exact .more h (ih h₂)

/-- Nothing moves where nothing is pending. -/
theorem none_inv {o : Option Pending} {c c' : Custody} (h : Drifts none c o c') :
    o = none ∧ c' = c := by
  cases h with
  | refl => exact ⟨rfl, rfl⟩
  | more h _ => cases h

/-- What is pending stays pending. -/
theorem some_inv {p : Pending} {o : Option Pending} {c c' : Custody} (h : Drifts (some p) c o c') :
    ∃ p', o = some p' ∧ p'.id = p.id := by
  generalize ho : some p = o₀ at h
  induction h generalizing p with
  | refl => exact ⟨p, ho.symm, rfl⟩
  | @more o o₁ o₂ c c₁ c₂ h _ ih =>
      subst ho
      have hi : ∀ {p₁}, o₁ = some p₁ → p₁.id = p.id → ∃ p', o₂ = some p' ∧ p'.id = p.id := by
        rintro p₁ rfl hp
        obtain ⟨p', ho, hp'⟩ := ih rfl
        exact ⟨p', ho, hp'.trans hp⟩
      cases h <;> exact hi rfl rfl

end Drifts

/-! ### Terms -/

/-- What is assumed of the surroundings and demanded of a custody. -/
structure Terms where
  /-- How collaborators may answer. -/
  rely : Surroundings → Prop := fun _ => True
  /-- The service may be asked to end. -/
  destroys : Prop := True
  /-- What holds at all times. -/
  always : Custody → Prop := fun _ => True
  /-- What holds whenever nobody has the lock. -/
  rest : Custody → Prop := fun _ => True

namespace Terms

variable (T : Terms)

/-- A collaborator may answer `a` to the call `k`. -/
def Answers (c : Custody) (k : Call) (a : k.Answer) : Prop :=
  ∃ around, T.rely around ∧ c.answer around k = a

/-- A write to the store may work, or not. -/
def Writes (u : Store.Update) (worked : Bool) : Prop :=
  ∃ around, T.rely around ∧ around.writes u = worked

/-- The acts keep to the terms one by one and end in `K`. -/
def Along : List Act → (Custody → Prop) → Custody → Prop
  | [], K, c => K c
  | x :: acts, K, c => T.always (c.after x) ∧ Along acts K (c.after x)

/-- What a question of the task with the lock demands, so that `K` holds of the answer, of what is
pending then, and of the custody. -/
def Asked (o : Option Pending) (c : Custody) :
    (q : Ask) → (q.Answer → Option Pending → Custody → Prop) → Prop
  | .lock, _ => False
  | .unlock, _ => False
  | .session, K => K c.session o c
  | .setActive active, K => T.Along [.setActive active] (K () o) c
  | .setMonitored monitored, K => T.Along [.setMonitored monitored] (K () o) c
  | .spawnReactor, K => K () o c
  | .publishActive active, K => T.Along [.publishActive active] (K () o) c
  | .publishStatus status, K => T.Along [.publishStatus status] (K () o) c
  | .visibleActive, K => K c.visibleActive o c
  | .visibleStatus, K => K c.visibleStatus o c
  | .now, K => ∀ time, K time o c
  | .spawn (.startProxy config), K =>
    o = none ∧ ∀ id stage, stage = .waiting ∨ stage = .refused → K id (some ⟨id, config, stage⟩) c
  | .spawn _, K => ∀ id, K id o c
  | .join id _, K => ∀ joined o', Pending.Joins o id joined o' → K joined o' c
  | .abandon id, K => K () (Pending.abandon o id) c
  | .call k, K => ∀ a, T.Answers c k a → T.Along (Act.ofCall k a) (K a o) c
  | .pause, K => K () o c

variable {α β : Type}

/-- A task with the lock that carries out the program keeps to the terms, whatever it is answered
and however the unit of work it waits for fares, and ends in `post` with nothing pending. -/
def Secures (post : α → Custody → Prop) : Option Pending → Program α → Custody → Prop
  | o, .done a, c => o = none ∧ post a c
  | none, .ask q next, c => T.Asked none c q fun a o c => Secures post o (next a) c
  | some p, .ask q next, c => q.isAbout p.id = true ∧ ∀ o₁ c₁, Drifts (some p) c o₁ c₁ →
      T.always c₁ ∧ T.Asked o₁ c₁ q fun a o c => Secures post o (next a) c

variable {T}

/-- Where any call is answered, so is a write. -/
theorem Answers.writes {c : Custody} {k : Call} {a : k.Answer} (h : T.Answers c k a)
    (u : Store.Update) : ∃ worked, T.Writes u worked := by
  obtain ⟨around, hr, -⟩ := h
  exact ⟨_, around, hr, rfl⟩

theorem Along.mono {K L : Custody → Prop} (h : ∀ c, K c → L c) {acts : List Act} {c : Custody}
    (hK : T.Along acts K c) : T.Along acts L c := by
  induction acts generalizing c with
  | nil => exact h c hK
  | cons x acts ih => exact ⟨hK.1, ih hK.2⟩

theorem along_append {K : Custody → Prop} {acts more : List Act} {c : Custody} :
    T.Along (acts ++ more) K c ↔ T.Along acts (T.Along more K) c := by
  induction acts generalizing c with
  | nil => exact Iff.rfl
  | cons x acts ih => exact and_congr_right fun _ => ih

/-- Acts that keep to the terms whichever case comes after them keep to them in every case. -/
theorem Along.forall {ι : Type} {p : ι → Prop} {K : ι → Custody → Prop} {acts : List Act}
    {c : Custody} (hp : ∃ i, p i) (h : ∀ i, p i → T.Along acts (K i) c) :
    T.Along acts (fun c => ∀ i, p i → K i c) c := by
  induction acts generalizing c with
  | nil => exact h
  | cons x acts ih =>
      obtain ⟨i, hi⟩ := hp
      exact ⟨(h i hi).1, ih fun j hj => (h j hj).2⟩

/-- What holds at all times holds after acts that keep to the terms. -/
theorem Along.always {K : Custody → Prop} {acts : List Act} {c : Custody} (hc : T.always c)
    (h : T.Along acts K c) : T.Along acts (fun c => T.always c ∧ K c) c := by
  induction acts generalizing c with
  | nil => exact ⟨hc, h⟩
  | cons x acts ih => exact ⟨h.1, ih h.1 h.2⟩

/-- Acts that keep to the terms end in the custody after them. -/
theorem along_iff {K : Custody → Prop} {acts : List Act} {c : Custody} :
    T.Along acts K c ↔ T.Along acts (fun _ => True) c ∧ K (c.afterAll acts) := by
  induction acts generalizing c with
  | nil => exact ⟨fun h => ⟨trivial, h⟩, fun h => h.2⟩
  | cons x acts ih => exact (and_congr_right fun _ => ih).trans and_assoc.symm

theorem Asked.mono {o : Option Pending} {c : Custody} {q : Ask}
    {K L : q.Answer → Option Pending → Custody → Prop} (h : ∀ a o c, K a o c → L a o c)
    (hK : T.Asked o c q K) : T.Asked o c q L := by
  cases q with
  | lock | unlock => exact hK
  | session | spawnReactor | visibleActive | visibleStatus | abandon | pause => exact h _ _ _ hK
  | setActive | setMonitored | publishActive | publishStatus => exact ⟨hK.1, h _ _ _ hK.2⟩
  | now => exact fun time => h _ _ _ (hK time)
  | spawn work =>
      cases work with
      | startProxy config => exact ⟨hK.1, fun id stage hs => h _ _ _ (hK.2 id stage hs)⟩
      | checkUdp | checkServer | checkCredentials | errand => exact fun id => h _ _ _ (hK id)
  | join id limit => exact fun joined o' hj => h _ _ _ (hK joined o' hj)
  | call k => exact fun a ha => (hK a ha).mono fun c => h a o c

/-- Where nothing is demanded at all times, only the custody afterwards counts. -/
theorem along_of_always (h : ∀ c, T.always c) {K : Custody → Prop} {acts : List Act} {c : Custody} :
    T.Along acts K c ↔ K (c.afterAll acts) := by
  induction acts generalizing c with
  | nil => exact Iff.rfl
  | cons x acts ih => exact (and_iff_right (h _)).trans ih

/-- Where the demand at all times is one on the deeds, met by every history that goes on to meet it,
it is enough that it is met in the end. -/
theorem along_of_deeds {P : List Deed → Prop} (hP : ∀ deeds more, P (deeds ++ more) → P deeds)
    (ha : ∀ c, P c.deeds → T.always c) {K : Custody → Prop} {acts : List Act} {c : Custody}
    (h : P (c.deeds ++ deedsOf acts)) (hK : K (c.afterAll acts)) : T.Along acts K c := by
  induction acts generalizing c with
  | nil => exact hK
  | cons x acts ih =>
      have hd : c.deeds ++ deedsOf (x :: acts) = (c.after x).deeds ++ deedsOf acts := by
        cases x <;> simp [Custody.after, deedsOf, Act.deed?, List.filterMap_cons]
      rw [hd] at h
      exact ⟨ha _ (hP _ _ h), ih h hK⟩

theorem Along.and {K L : Custody → Prop} {acts : List Act} {c : Custody} (hK : T.Along acts K c)
    (hL : T.Along acts L c) : T.Along acts (fun c => K c ∧ L c) c :=
  along_iff.2 ⟨(along_iff.1 hK).1, (along_iff.1 hK).2, (along_iff.1 hL).2⟩

theorem Asked.and {o : Option Pending} {c : Custody} {q : Ask}
    {K L : q.Answer → Option Pending → Custody → Prop} (hK : T.Asked o c q K)
    (hL : T.Asked o c q L) : T.Asked o c q fun a o c => K a o c ∧ L a o c := by
  cases q with
  | lock | unlock => exact hK
  | session | spawnReactor | visibleActive | visibleStatus | abandon | pause => exact ⟨hK, hL⟩
  | setActive | setMonitored | publishActive | publishStatus => exact Along.and hK hL
  | now => exact fun time => ⟨hK time, hL time⟩
  | spawn work =>
      cases work with
      | startProxy config =>
          exact ⟨hK.1, fun id stage hs => ⟨hK.2 id stage hs, hL.2 id stage hs⟩⟩
      | checkUdp | checkServer | checkCredentials | errand => exact fun id => ⟨hK id, hL id⟩
  | join id limit => exact fun joined o' hj => ⟨hK joined o' hj, hL joined o' hj⟩
  | call k => exact fun a ha => (hK a ha).and (hL a ha)

namespace Secures

/-- The same question, followed by what secures more. -/
theorem ask {post : α → Custody → Prop} {post' : β → Custody → Prop} {q : Ask}
    {next : q.Answer → Program α} {next' : q.Answer → Program β}
    (h : ∀ a o c, T.Secures post o (next a) c → T.Secures post' o (next' a) c)
    {o : Option Pending} {c : Custody} (hp : T.Secures post o (.ask q next) c) :
    T.Secures post' o (.ask q next') c := by
  cases o with
  | none => exact Asked.mono h hp
  | some p =>
      exact ⟨hp.1, fun o₁ c₁ hd => ⟨(hp.2 o₁ c₁ hd).1, Asked.mono h (hp.2 o₁ c₁ hd).2⟩⟩

theorem mono {post post' : α → Custody → Prop} (h : ∀ a c, post a c → post' a c)
    {o : Option Pending} {p : Program α} {c : Custody} (hp : T.Secures post o p c) :
    T.Secures post' o p c := by
  induction p generalizing o c with
  | done a => exact ⟨hp.1, h a c hp.2⟩
  | ask q next ih => exact .ask (fun a _ _ => ih a) hp

/-- **One program after the other.**  The first leaves nothing pending. -/
theorem bind {post : β → Custody → Prop} {f : α → Program β} {o : Option Pending}
    {p : Program α} {c : Custody}
    (hp : T.Secures (fun a c => T.Secures post none (f a) c) o p c) :
    T.Secures post o (p.bind f) c := by
  induction p generalizing o c with
  | done a =>
      obtain ⟨rfl, h⟩ := hp
      exact h
  | ask q next ih => exact .ask (fun a _ _ => ih a) hp

/-- **Drifting loses nothing.** -/
theorem of_drift {post : α → Custody → Prop} {o o' : Option Pending} {p : Program α}
    {c c' : Custody} (hp : T.Secures post o p c) (hd : Drifts o c o' c') :
    T.Secures post o' p c' := by
  cases o with
  | none =>
      obtain ⟨rfl, rfl⟩ := hd.none_inv
      exact hp
  | some u =>
      obtain ⟨u', rfl, hu⟩ := hd.some_inv
      cases p with
      | done a => exact absurd hp.1 (by simp)
      | ask q next => exact ⟨hu ▸ hp.1, fun o₁ c₁ hd' => hp.2 o₁ c₁ (hd.trans hd')⟩

/-! ### The programs of one question -/

theorem call {k : Call} {post : k.Answer → Custody → Prop} {c : Custody}
    (h : ∀ a, T.Answers c k a → T.Along (Act.ofCall k a) (post a) c) :
    T.Secures post none (Program.call k) c :=
  fun a ha => (h a ha).mono fun _ hp => ⟨rfl, hp⟩

theorem slowly {k : Call} {post : k.Answer → Custody → Prop} {c : Custody}
    (h : ∀ a, T.Answers c k a → T.Along (Act.ofCall k a) (post a) c) :
    T.Secures post none (Program.slowly k) c :=
  fun a ha => (h a ha).mono fun _ hp => ⟨rfl, hp⟩

theorem session {post : Session → Custody → Prop} {c : Custody} (h : post c.session c) :
    T.Secures post none Program.session c :=
  ⟨rfl, h⟩

theorem setActive {active : Option Descriptor} {post : Unit → Custody → Prop} {c : Custody}
    (h : T.Along [.publishActive active, .setActive active] (post ()) c) :
    T.Secures post none (Program.setActive active) c :=
  ⟨h.1, h.2.1, rfl, h.2.2⟩

theorem publishStatus {status : Status} {post : Unit → Custody → Prop} {c : Custody}
    (h : T.Along [.publishStatus status] (post ()) c) :
    T.Secures post none (Program.publishStatus status) c :=
  ⟨h.1, rfl, h.2⟩

theorem write {u : Store.Update} {post : Unit → Custody → Prop} {c : Custody}
    (h : ∀ worked, T.Writes u worked → T.Along [.deed (.called (.write u) worked)] (post ()) c) :
    T.Secures post none (Program.write u) c :=
  fun worked ha => ⟨(h worked ha).1, rfl, (h worked ha).2⟩

end Secures

end Terms

end TunnelKeeper.Service
