import TunnelKeeper.Proofs.Service.Sections

/-!
# Lawful programs — apart from the lock, and with it

A program is apart from the lock or has it.  Apart from it, it asks only what changes nothing that
the lock guards (`Ask.isFree`).  It gets the lock in some custody at rest, and from there it secures
that the custody is at rest again when it gives the lock back, with nothing of its own pending
(`Lawful`).

A list of acts that a task makes between getting the lock and giving it back is a `Section`.  Terms
that every section keeps (`Terms.Lasting`) are kept by every program of the service:

* `Operation.lawful`: the operations are lawful.
* `lawful_react`: and so is what a reactor does about an event.
-/

namespace TunnelKeeper.Service

/-! ### Lawful programs -/

/-- Whether a question leaves alone what the lock guards. -/
def Ask.isFree : Ask → Bool
  | .visibleActive | .visibleStatus | .now | .join _ _ | .abandon _ | .pause => true
  | .spawn (.startProxy _) => false
  | .spawn _ => true
  | .call k => !k.isGuarded
  | _ => false

theorem not_guarded_of_isFree {k : Call} (h : (Ask.call k).isFree = true) : k.isGuarded = false :=
  Eq.mp (Bool.not_eq_true' _) h

/-- Where a task is: apart from the lock, or with it, with what is pending and the custody. -/
abbrev Place := Option (Option Pending × Custody)

/-- What a question demands, so that `K` holds of the answer and the place afterwards. -/
def Posed (T : Terms) : Place → (q : Ask) → (q.Answer → Place → Prop) → Prop
  | none, .lock, K => ∀ c, T.always c → T.rest c → K () (some (none, c))
  | none, q, K => q.isFree = true ∧ ∀ a, K a none
  | some (none, c), .unlock, K => T.rest c ∧ K () none
  | some (none, c), q, K => T.Asked none c q fun a o c => K a (some (o, c))
  | some (some p, c), q, K => q.isAbout p.id = true ∧ ∀ o₁ c₁, Drifts (some p) c o₁ c₁ →
      T.always c₁ ∧ T.Asked o₁ c₁ q fun a o c => K a (some (o, c))

variable {T : Terms} {α β : Type}

theorem Posed.free {q : Ask} {K : q.Answer → Place → Prop} (hq : q.isFree = true)
    (h : ∀ a, K a none) : Posed T none q K := by
  cases q with
  | lock => cases hq
  | _ => exact ⟨hq, h⟩

/-- A task with the lock is asked for no less than without regard to giving it back. -/
theorem Posed.held {o : Option Pending} {c : Custody} {q : Ask} {K : q.Answer → Place → Prop}
    (hq : T.Asked o c q fun a o c => K a (some (o, c))) (hn : o = none) :
    Posed T (some (o, c)) q K := by
  subst hn
  cases q with
  | unlock => exact hq.elim
  | _ => exact hq

theorem Posed.mono {m : Place} {q : Ask} {K L : q.Answer → Place → Prop}
    (h : ∀ a m, K a m → L a m) (hK : Posed T m q K) : Posed T m q L := by
  match m with
  | none =>
      cases q with
      | lock => exact fun c ha hr => h _ _ (hK c ha hr)
      | _ => exact ⟨hK.1, fun a => h _ _ (hK.2 a)⟩
  | some (none, c) =>
      cases q with
      | lock => exact hK.elim
      | unlock => exact ⟨hK.1, h _ _ hK.2⟩
      | _ =>
          exact Terms.Asked.mono (T := T) (K := fun a o c => K a (some (o, c)))
            (fun _ _ _ => h _ _) hK
  | some (some p, c) =>
      exact ⟨hK.1, fun o₁ c₁ hd =>
        ⟨(hK.2 o₁ c₁ hd).1, Terms.Asked.mono (fun _ _ _ => h _ _) (hK.2 o₁ c₁ hd).2⟩⟩

/-- **A lawful program**, from a place.  It ends apart from the lock. -/
def Lawful (T : Terms) : Place → Program α → Prop
  | m, .done _ => m = none
  | m, .ask q next => Posed T m q fun a m => Lawful T m (next a)

namespace Lawful

theorem free {q : Ask} (hq : q.isFree = true) : Lawful T none (Dialogue.question q) :=
  Posed.free hq fun _ => rfl

theorem lock {f : Unit → Program β}
    (h : ∀ c, T.always c → T.rest c → Lawful T (some (none, c)) (f ())) :
    Lawful T none (Program.lock.bind f) :=
  h

theorem bind {f : α → Program β} {m : Place} {p : Program α} (hp : Lawful T m p)
    (hf : ∀ a, Lawful T none (f a)) : Lawful T m (p.bind f) := by
  induction p generalizing m with
  | done a =>
      obtain rfl : m = none := hp
      exact hf a
  | ask q next ih => exact Posed.mono (fun a _ => ih a) hp

/-- What a task secures with the lock it may do before going on with the lock. -/
theorem held {f : α → Program β} {o : Option Pending} {p : Program α} {c : Custody}
    (hp : T.Secures (fun a c => Lawful T (some (none, c)) (f a)) o p c) :
    Lawful T (some (o, c)) (p.bind f) := by
  induction p generalizing o c with
  | done a =>
      obtain ⟨rfl, h⟩ := hp
      exact h
  | ask q next ih =>
      cases o with
      | none => exact Posed.held (Terms.Asked.mono (fun a _ _ => ih a) hp) rfl
      | some p =>
          exact ⟨hp.1, fun o₁ c₁ hd =>
            ⟨(hp.2 o₁ c₁ hd).1, Terms.Asked.mono (fun a _ _ => ih a) (hp.2 o₁ c₁ hd).2⟩⟩

/-- Drifting loses nothing, -/
theorem of_drift {o o' : Option Pending} {p : Program α} {c c' : Custody}
    (hp : Lawful T (some (o, c)) p) (hd : Drifts o c o' c') : Lawful T (some (o', c')) p := by
  cases o with
  | none =>
      obtain ⟨rfl, rfl⟩ := hd.none_inv
      exact hp
  | some u =>
      obtain ⟨u', rfl, hu⟩ := hd.some_inv
      cases p with
      | done a => exact absurd hp (by simp [Lawful])
      | ask q next => exact ⟨hu ▸ hp.1, fun o₁ c₁ hd' => hp.2 o₁ c₁ (hd.trans hd')⟩

/-- and what holds at all times holds after it. -/
theorem always_of_drift {o o' : Option Pending} {p : Program α} {c c' : Custody}
    (hp : Lawful T (some (o, c)) p) (hc : T.always c) (hd : Drifts o c o' c') : T.always c' := by
  cases o with
  | none =>
      obtain ⟨rfl, rfl⟩ := hd.none_inv
      exact hc
  | some u =>
      cases p with
      | done a => exact absurd hp (by simp [Lawful])
      | ask q next => exact (hp.2 o' c' hd).1

/-- A question other than the one that gives the lock back. -/
theorem asked {o : Option Pending} {c : Custody} {q : Ask} {next : q.Answer → Program α}
    (hp : Lawful T (some (o, c)) (.ask q next)) (hq : q ≠ .unlock) :
    T.Asked o c q fun a o c => Lawful T (some (o, c)) (next a) := by
  cases o with
  | none =>
      cases q with
      | unlock => exact absurd rfl hq
      | _ => exact hp
  | some p => exact (hp.2 _ _ (.refl _ _)).2

/-- The lock is given back with nothing pending. -/
theorem unlocks {o : Option Pending} {c : Custody} {next : Unit → Program α}
    (hp : Lawful T (some (o, c)) (.ask .unlock next)) :
    o = none ∧ T.rest c ∧ Lawful T none (next ()) := by
  cases o with
  | none => exact ⟨rfl, hp⟩
  | some p => exact (hp.2 _ _ (.refl _ _)).2.elim

theorem free_of_ne_lock {q : Ask} {next : q.Answer → Program α}
    (hp : Lawful T none (.ask q next)) (hq : q ≠ .lock) :
    q.isFree = true ∧ ∀ a, Lawful T none (next a) := by
  cases q with
  | lock => exact absurd rfl hq
  | _ => exact hp

theorem not_lock {m : Option Pending × Custody} {next : Unit → Program α} :
    ¬Lawful T (some m) (.ask .lock next) := fun hp =>
  asked (o := m.1) (c := m.2) hp nofun

end Lawful

/-! ### Sections -/

/-- Whether a tunnel can be started at all: it has an id and a configuration. -/
def isStartable (d : Descriptor) : Bool := !d.id.isEmpty && !d.config.isEmpty

/-- **What a task does between getting the lock in the custody `c` and giving it back.** -/
inductive Section (T : Terms) (c : Custody) : List Act → Prop where
  /-- It only looks. -/
  | looked : Section T c []
  /-- It starts a tunnel that somebody asks for, or the active one again. -/
  | started {d : Descriptor} {auto : Bool} {acts : List Act} {code : ErrorCode}
      (h : Attempt T c d auto acts code)
      (hd : isStartable d = true ∨ Descriptor.isSame c.session.active d = true) :
      Section T c acts
  | resumed (d : Descriptor) (acts : List Act) (code : ErrorCode)
      (loaded : Except Store.StoreError (Option Descriptor))
      (h : Attempt T (c.afterAll [.deed (.called .load loaded), .deed (.called .isPrepared true),
        .deed (.called (.present (.display d.config.serverName .reconnecting)) ())]) d true acts code)
      (hd : Program.resumable? loaded = some d) :
      Section T c ([.deed (.called .load loaded), .deed (.called .isPrepared true),
        .deed (.called (.present (.display d.config.serverName .reconnecting)) ())] ++ acts)
  | unloaded (loaded : Except Store.StoreError (Option Descriptor)) :
      Section T c [.deed (.called .load loaded), .deed (.called .requestExit ())]
  | unprepared (loaded : Except Store.StoreError (Option Descriptor)) :
      Section T c [.deed (.called .load loaded), .deed (.called .isPrepared false),
        .deed (.called .requestExit ())]
  | stopped {d : Descriptor} (h : c.session.active = some d) (unregistered written : Bool)
      (hw : T.Writes (.status .disconnected) written) :
      Section T c (.deed (.called (.emit (.stopped (some d.id))) ()) ::
        tearDownActs c.session.monitored unregistered written)
  | revoked (unregistered written : Bool) (hw : T.Writes (.status .disconnected) written) :
      Section T c (.deed (.called (.emit (.changed (c.session.active.map (·.id)) .disconnected)) ()) ::
        tearDownActs c.session.monitored unregistered written)
  | destroyed (h : T.destroys) (unregistered written : Bool)
      (hw : T.Writes (.status .disconnected) written) :
      Section T c (tearDownActs c.session.monitored unregistered written)
  | reported {d : Descriptor} {status : Status} (h : c.session.active = some d)
      (hs : status = .connected ∨ status = .reconnecting) :
      Section T c [.deed (.called (.emit (.changed (some d.id) status)) ()),
        .deed (.called (.present (.display d.config.serverName status)) ()), .publishStatus status]
  | recorded (udp : Bool) {written : Bool} (hw : T.Writes (.udpSupported udp) written)
      {d : Descriptor} (hd : c.session.active = some d) :
      Section T c [.deed (.called (.write (.udpSupported udp)) written)]

/-- Terms that every section keeps, and that can be met. -/
structure Terms.Lasting (T : Terms) : Prop where
  met : ∃ around, T.rely around
  kept : ∀ c acts, T.always c → T.rest c → Section T c acts → T.Along acts T.rest c

/-! ### The programs of the service -/

theorem lawful_start (hT : T.Lasting) (limits : Limits) (id : String) (config : TunnelConfig) :
    Lawful T none (Program.start limits id config) := by
  unfold Program.start
  split
  case isTrue => rfl
  case isFalse hid =>
    split
    case isTrue => rfl
    case isFalse hconfig =>
      have hd : isStartable ⟨id, config⟩ = true := by
        simp [isStartable, hid, hconfig]
      refine .lock fun c ha hr => .held (.startLocked hT.met ha fun acts code h => ?_)
      exact (hT.kept c acts ha hr (.started h (.inl hd))).mono fun c hc => ⟨hc, rfl⟩

theorem lawful_stop (hT : T.Lasting) (id : String) : Lawful T none (Program.stop id) := by
  unfold Program.stop
  split
  · rfl
  refine .lock fun c ha hr => .held (.bind (.session ⟨rfl, ?_⟩))
  dsimp only
  split
  case isFalse => exact ⟨hr, rfl⟩
  case isTrue h =>
    obtain ⟨d, hd, rfl⟩ : ∃ d, c.session.active = some d ∧ d.id = id := by simpa using h
    refine .held (.bind (.session ⟨rfl, ?_⟩))
    rw [hd]
    refine .held (.call fun _ hw => ?_)
    obtain ⟨written, hw⟩ := hw.writes (.status .disconnected)
    have k := fun u w hw => hT.kept c _ ha hr (.stopped hd u w hw)
    refine ⟨(k true written hw).1, .held (.tearDown fun u w hw => ?_)⟩
    exact (k u w hw).2.mono fun c hc => ⟨hc, rfl⟩

/-- Only a tunnel that can be started is resumed. -/
theorem isStartable_of_resumable {loaded : Except Store.StoreError (Option Descriptor)}
    {d : Descriptor} (h : Program.resumable? loaded = some d) : isStartable d = true := by
  unfold Program.resumable? at h
  split at h
  case h_1 =>
    split at h
    case isTrue hd =>
      cases h
      exact hd
    case isFalse => cases h
  case h_2 => cases h

theorem lawful_resume (hT : T.Lasting) (limits : Limits) :
    Lawful T none (Program.resume limits) := by
  refine .lock fun c ha hr => .held (.call fun loaded _ => ?_)
  split
  case h_1 =>
    obtain ⟨h₁, h₂, hr⟩ := hT.kept c _ ha hr (.unloaded loaded)
    exact ⟨h₁, .held (.call fun _ _ => ⟨h₂, hr, rfl⟩)⟩
  case h_2 d hd =>
    obtain ⟨h₁, h₂, h₃, hr'⟩ := hT.kept c _ ha hr (.unprepared loaded)
    refine ⟨h₁, .held (.call fun prepared _ => ?_)⟩
    cases prepared with
    | false => exact ⟨h₂, .held (.call fun _ _ => ⟨h₃, hr', rfl⟩)⟩
    | true =>
        have k := fun acts code h => Terms.along_append.1
          (hT.kept c _ ha hr (.resumed d acts code loaded h hd))
        obtain ⟨acts, code, h⟩ := Attempt.possible hT.met _ _ _
        obtain ⟨-, h₂, h₃, -⟩ := k _ _ h
        refine ⟨h₂, .held (.call fun _ _ => ⟨h₃, .held (.startLocked hT.met h₃ ?_)⟩)⟩
        intro acts code h
        have hk : T.Along acts T.rest _ := (k acts code h).2.2.2
        exact hk.mono fun c hc => ⟨hc, rfl⟩

theorem lawful_revoke (hT : T.Lasting) : Lawful T none Program.revoke := by
  refine .lock fun c ha hr => .held (.bind (.session ⟨rfl, .held (.call fun _ hw => ?_)⟩))
  obtain ⟨written, hw⟩ := hw.writes (.status .disconnected)
  have k := fun u w hw => hT.kept c _ ha hr (.revoked u w hw)
  refine ⟨(k true written hw).1, .held (.tearDown fun u w hw => ?_)⟩
  exact (k u w hw).2.mono fun c hc => ⟨hc, rfl⟩

theorem lawful_destroy (hT : T.Lasting) (hd : T.destroys) : Lawful T none Program.destroy :=
  .lock fun c ha hr => .held (.tearDown fun u w hw =>
    (hT.kept c _ ha hr (.destroyed hd u w hw)).mono fun _ hc => ⟨hc, rfl⟩)

theorem lawful_isActive (id : String) : Lawful T none (Program.isActive id) := by
  unfold Program.isActive
  split
  · rfl
  · exact .bind (.free rfl) fun _ => rfl

theorem lawful_overview (id : Option String) : Lawful T none (Program.overview id) := by
  refine .bind ?_ fun active => ?_
  · cases id with
    | none => rfl
    | some id => exact .bind (lawful_isActive id) fun _ => rfl
  · cases active with
    | error e => rfl
    | ok active =>
        refine .bind (.free rfl) fun status => .bind (.free rfl) fun tunnel => ?_
        exact .bind (.free rfl) fun udp => rfl

/-- **The operations of the service are lawful.** -/
theorem Operation.lawful (hT : T.Lasting) (limits : Limits) {op : Operation}
    (h : op = .destroy → T.destroys) : Lawful T none (op.program limits) := by
  cases op with
  | start id config => exact .bind (lawful_start hT limits id config) fun _ => rfl
  | stop id => exact .bind (lawful_stop hT id) fun _ => rfl
  | isActive id => exact .bind (lawful_isActive id) fun _ => rfl
  | overview id => exact .bind (lawful_overview id) fun _ => rfl
  | resume => exact .bind (lawful_resume hT limits) fun _ => rfl
  | revoke => exact .bind (lawful_revoke hT) fun _ => rfl
  | destroy => exact .bind (lawful_destroy hT (h rfl)) fun _ => rfl

/-! ### Reactors -/

theorem lawful_reportStatus (hT : T.Lasting) {status : Status}
    (hs : status = .connected ∨ status = .reconnecting) :
    Lawful T none (Program.reportStatus status) := by
  refine .lock fun c ha hr => .held (.session ?_)
  split
  case h_1 => exact ⟨hr, rfl⟩
  case h_2 d hd =>
    obtain ⟨h₁, h₂, h₃, hr⟩ := hT.kept c _ ha hr (.reported hd hs)
    refine .held (.call fun _ _ => ⟨h₁, .held (.call fun _ _ => ⟨h₂, ?_⟩)⟩)
    exact .held (.publishStatus ⟨h₃, hr, rfl⟩)

theorem lawful_recordUdp (hT : T.Lasting) (d : Descriptor) (udp : Bool) :
    Lawful T none (Program.recordUdp d udp) := by
  refine .lock fun c ha hr => .held (.session ?_)
  split
  case isFalse => exact ⟨hr, rfl⟩
  case isTrue hd =>
    obtain ⟨active, hactive⟩ : ∃ active, c.session.active = some active := by
      cases hc : c.session.active with
      | none => simp [Descriptor.isSame, hc] at hd
      | some active => exact ⟨active, rfl⟩
    refine .held (.call fun previous _ => .held (.write fun written hw => ?_))
    obtain ⟨h, hr⟩ := hT.kept c _ ha hr (.recorded udp hw hactive)
    exact ⟨h, hr, rfl⟩

theorem lawful_restartIfActive (hT : T.Lasting) (limits : Limits) (d : Descriptor) :
    Lawful T none (Program.restartIfActive limits d) := by
  refine .lock fun c ha hr => .held (.session ?_)
  split
  case isFalse => exact ⟨hr, rfl⟩
  case isTrue hd =>
    refine .held (.startLocked hT.met ha fun acts code h => ?_)
    exact (hT.kept c acts ha hr (.started h (.inr hd))).mono fun c hc => ⟨hc, rfl⟩

theorem lawful_probeUdp (span : Option Time) (proxy : SocketAddress) :
    Lawful T none (Program.probeUdp span proxy) := by
  refine .bind (.free rfl) fun udp => .bind ?_ fun relayed => .bind (.free rfl) fun _ => ?_
  · refine .bind (.free rfl) fun start => .bind (.free rfl) fun joined => ?_
    cases joined <;> rfl
  · cases relayed <;> rfl

theorem lawful_recheckUdp (hT : T.Lasting) (limits : Limits) (d : Descriptor) :
    Lawful T none (Program.recheckUdp limits d) := by
  refine .bind (.free rfl) fun proxy => .bind (lawful_probeUdp _ proxy) fun udp => ?_
  refine .bind (lawful_recordUdp hT d udp) fun previous => ?_
  cases previous with
  | none => rfl
  | some previous =>
      dsimp only
      split
      · exact .bind (lawful_restartIfActive hT limits d) fun _ => rfl
      · rfl

/-- **What a reactor does about an event is lawful.** -/
theorem lawful_react (hT : T.Lasting) (limits : Limits) (e : NetworkEvent) :
    Lawful T none (Program.react limits e) := by
  cases e with
  | available network =>
      refine .bind (.free rfl) fun state => ?_
      split
      · refine .bind (lawful_reportStatus hT (.inl rfl)) fun active => ?_
        cases active with
        | none => rfl
        | some d => exact .bind (.free rfl) fun _ => lawful_recheckUdp hT limits d
      · rfl
  | lost network =>
      refine .bind (.free rfl) fun state => ?_
      split
      · rfl
      · refine .bind (lawful_reportStatus hT (.inr rfl)) fun active => ?_
        cases active with
        | none => rfl
        | some d => exact .bind (.free rfl) fun _ => rfl

end TunnelKeeper.Service
