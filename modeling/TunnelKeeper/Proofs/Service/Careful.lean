import TunnelKeeper.Proofs.Service.Sections

/-!
# Careful programs — what a program has at hand

Some questions make sense only after others.  A unit of work is joined only by a program that has
handed it in and has not given it up, and the interface is connected only to the address that the
proxy has just told.  What a program has at hand (`Grip`) follows from its questions and answers, so
both are facts about the text of a program, whoever answers it.

* `Careful g p`: a program that never asks for the lock, nor gives it back, asks for nothing it has
  not at hand, and leaves no unit of work behind.
* `Steady g p`: the same for a whole program, lock and all.
* `Operation.steady` and `steady_react`: every program of the service is steady.
-/

namespace TunnelKeeper.Service

variable {α β : Type}

/-- What a program has at hand. -/
structure Grip where
  /-- The units of work that it may join. -/
  units : List UnitId := []
  /-- The address that the proxy has told in answer to its last question. -/
  address : Option SocketAddress := none
  /-- The units of work that it has neither seen the end of nor given up. -/
  owed : List UnitId := []

/-- What may be asked under the lock with so much at hand. -/
def Grip.Permits (g : Grip) : Ask → Prop
  | .lock | .unlock => False
  | .join id _ => id ∈ g.units
  | .call (.connect address _) => g.address = some address
  | _ => True

/-- What is at hand after a question was answered.  Once a program gives up units it joins none of
those it has. -/
def Grip.after (g : Grip) : (q : Ask) → q.Answer → Grip
  | .spawn _, id => ⟨id :: g.units, none, id :: g.owed⟩
  | .join _ _, .timedOut => ⟨g.units, none, g.owed⟩
  | .join id _, _ => ⟨g.units, none, g.owed.filter (· != id)⟩
  | .abandon id, _ => ⟨[], none, g.owed.filter (· != id)⟩
  | .call .proxyAddress, address => ⟨g.units, some address, g.owed⟩
  | _, _ => ⟨g.units, none, g.owed⟩

theorem Grip.address_after (g : Grip) {q : Ask} (hq : q ≠ .call .proxyAddress) (a : q.Answer) :
    (g.after q a).address = none := by
  cases q with
  | call k => cases k with
    | proxyAddress => exact absurd rfl hq
    | _ => rfl
  | join id limit => cases (a : Pool.Joined Bool) <;> rfl
  | _ => rfl

/-- Something more is at hand. -/
structure Grip.Within (g g' : Grip) : Prop where
  units : ∀ id ∈ g.units, id ∈ g'.units
  address : ∀ a, g.address = some a → g'.address = some a

theorem Grip.nothing_within (g : Grip) : ({} : Grip).Within g := ⟨nofun, nofun⟩

theorem Grip.Within.permits {g g' : Grip} (h : g.Within g') {q : Ask} (hq : g.Permits q) :
    g'.Permits q := by
  cases q with
  | join id limit => exact h.units id hq
  | call k => cases k with
    | connect address udp => exact h.address address hq
    | _ => trivial
  | lock | unlock => exact hq
  | _ => trivial

theorem Grip.Within.after {g g' : Grip} (h : g.Within g') (q : Ask) (a : q.Answer) :
    (g.after q a).Within (g'.after q a) := by
  have same : ∀ address owed owed',
      Grip.Within ⟨g.units, address, owed⟩ ⟨g'.units, address, owed'⟩ :=
    fun _ _ _ => ⟨h.units, fun _ => id⟩
  cases q with
  | spawn work =>
      refine ⟨fun id hid => ?_, nofun⟩
      rcases List.mem_cons.1 hid with rfl | hid
      · exact List.mem_cons_self
      · exact List.mem_cons_of_mem _ (h.units id hid)
  | join id limit => cases (a : Pool.Joined Bool) <;> exact same _ _ _
  | abandon id => exact ⟨fun _ hi => hi, fun _ ha => ha⟩
  | call k => cases k <;> exact same _ _ _
  | _ => exact same _ _ _

/-- No more is owed after a question than before, where no more was owed. -/
theorem Grip.owed_after {g g' : Grip} (h : ∀ id ∈ g'.owed, id ∈ g.owed) (q : Ask) (a : q.Answer) :
    ∀ id ∈ (g'.after q a).owed, id ∈ (g.after q a).owed := by
  have less : ∀ i, ∀ id ∈ g'.owed.filter (· != i), id ∈ g.owed.filter (· != i) := by
    intro i id hid
    obtain ⟨hid, hne⟩ := List.mem_filter.1 hid
    exact List.mem_filter.2 ⟨h id hid, hne⟩
  cases q with
  | spawn work =>
      intro id hid
      rcases List.mem_cons.1 hid with rfl | hid
      · exact List.mem_cons_self
      · exact List.mem_cons_of_mem _ (h id hid)
  | join i limit => cases (a : Pool.Joined Bool) <;> first | exact h | exact less i
  | abandon i => exact less i
  | call k => cases k <;> exact h
  | _ => exact h

/-! ### Under the lock -/

/-- **A careful program** asks for nothing that it has not at hand, leaves the lock alone, and owes
nothing when it is done. -/
def Careful : Grip → Program α → Prop
  | g, .done _ => g.owed = []
  | g, .ask q next => g.Permits q ∧ ∀ a, Careful (g.after q a) (next a)

namespace Careful

theorem mono {g g' : Grip} {p : Program α} (hg : g.Within g') (ho : ∀ id ∈ g'.owed, id ∈ g.owed)
    (hp : Careful g p) : Careful g' p := by
  induction p generalizing g g' with
  | done a =>
      have hp : g.owed = [] := hp
      exact List.eq_nil_iff_forall_not_mem.2 fun id hid => List.not_mem_nil (hp ▸ ho id hid)
  | ask q next ih =>
      exact ⟨hg.permits hp.1, fun a => ih a (hg.after q a) (Grip.owed_after ho q a) (hp.2 a)⟩

theorem of_nothing {g : Grip} {p : Program α} (ho : g.owed = []) (hp : Careful {} p) :
    Careful g p :=
  hp.mono g.nothing_within (by simp [ho])

/-- One program after the other, which uses nothing that the first has at hand. -/
theorem bind {f : α → Program β} {g : Grip} {p : Program α} (hp : Careful g p)
    (hf : ∀ a, Careful {} (f a)) : Careful g (p.bind f) := by
  induction p generalizing g with
  | done a => exact (hf a).of_nothing hp
  | ask q next ih => exact ⟨hp.1, fun a => ih a (hp.2 a)⟩

theorem assoc {γ : Type} {f : α → Program β} {f' : β → Program γ} {g : Grip} {p : Program α}
    (h : Careful g (p.bind fun a => (f a).bind f')) : Careful g ((p.bind f).bind f') := by
  rwa [Dialogue.bind_assoc]

theorem owed_call (g : Grip) (k : Call) (a : k.Answer) : (g.after (.call k) a).owed = g.owed := by
  cases k <;> rfl

theorem slowly {k : Call} (hk : Grip.Permits {} (.call k)) : Careful {} (Program.slowly k) :=
  ⟨hk, fun a => ⟨trivial, fun _ => owed_call {} k a⟩⟩

/-- Waiting for a unit that is at hand leaves at hand all units that were, and owes no more. -/
theorem waitFor_bind {id : UnitId} {span ending : Option Time} {f : Waited → Program β} {g : Grip}
    (hid : id ∈ g.units) (hf : ∀ waited owed, (∀ i ∈ owed, i ∈ g.owed) →
      Careful ⟨g.units, none, owed⟩ (f waited)) :
    Careful g ((Program.waitFor id span ending).bind f) := by
  have less : ∀ i ∈ g.owed.filter (· != id), i ∈ g.owed := fun i hi => (List.mem_filter.1 hi).1
  refine ⟨trivial, fun start => ⟨hid, fun joined => ?_⟩⟩
  cases joined with
  | value | panicked | refused => exact hf _ _ less
  | timedOut => exact hf _ _ fun _ hi => hi

/-- The proxy tells its address, -/
theorem proxyAddress_bind {f : SocketAddress → Program β} {g : Grip}
    (hf : ∀ address, Careful ⟨g.units, some address, g.owed⟩ (f address)) :
    Careful g (Program.proxyAddress.bind f) :=
  ⟨trivial, hf⟩

/-- and the interface is connected to it. -/
theorem connect_bind {proxy : SocketAddress} {udp : Bool} {f : Bool → Program β} {g : Grip}
    (ha : g.address = some proxy) (ho : g.owed = []) (hf : ∀ connected, Careful {} (f connected)) :
    Careful g ((Program.connect proxy udp).bind f) :=
  ⟨ha, fun connected => ⟨trivial, fun _ => (hf connected).of_nothing ho⟩⟩

end Careful

/-- A judgement owes no more than before. -/
theorem careful_judge {server credentials : UnitId} {span ending : Option Time} {g : Grip}
    {f : Option ProbeResult → Program β} (hs : server ∈ g.units) (hc : credentials ∈ g.units)
    (hf : ∀ verdict owed, (∀ i ∈ owed, i ∈ g.owed) → Careful ⟨g.units, none, owed⟩ (f verdict)) :
    Careful g ((Program.judge server credentials span ending).bind f) := by
  refine .assoc (p := Program.waitFor server span ending)
    (.waitFor_bind hs fun reached owed ho => ?_)
  cases reached with
  | outOfTime | failed => exact hf _ _ ho
  | answered reachable =>
      refine .assoc (p := Program.waitFor credentials span ending)
        (.waitFor_bind hc fun valid owed' ho' => ?_)
      cases valid with
      | outOfTime | failed => exact hf _ _ fun i hi => ho i (ho' i hi)
      | answered valid => cases valid <;> exact hf _ _ fun i hi => ho i (ho' i hi)

/-- A probe joins the checks that it has handed in, and gives them all up. -/
theorem careful_probe (span ending : Option Time) (proxy : SocketAddress) (host : String)
    (port : UInt16) : Careful {} (Program.probe span ending proxy host port) := by
  refine ⟨trivial, fun (udp : UnitId) => ⟨trivial, fun (server : UnitId) => ⟨trivial, ?_⟩⟩⟩
  intro (credentials : UnitId)
  -- Whatever was joined of the three, none of them is owed in the end.
  have given : ∀ {g : Grip} (verdict : Option ProbeResult),
      (∀ i ∈ g.owed, i ∈ [credentials, server, udp]) → Careful g (Program.abandon udp >>= fun _ =>
        Program.abandon server >>= fun _ => Program.abandon credentials >>= fun _ =>
          pure verdict) := by
    refine fun {g} verdict ho => ⟨trivial, fun _ => ⟨trivial, fun _ => ⟨trivial, fun _ => ?_⟩⟩⟩
    show ((g.owed.filter (· != udp)).filter (· != server)).filter (· != credentials) = []
    refine List.eq_nil_iff_forall_not_mem.2 fun i hi => ?_
    simp only [List.mem_filter, bne_iff_ne, ne_eq] at hi
    have hmem := ho i hi.1.1.1
    simp only [List.mem_cons, List.not_mem_nil, or_false] at hmem
    rcases hmem with rfl | rfl | rfl
    · exact hi.2 rfl
    · exact hi.1.2 rfl
    · exact hi.1.1.2 rfl
  refine .waitFor_bind (by simp [Grip.after]) fun relayed owed ho => ?_
  cases relayed with
  | outOfTime | failed => exact given _ ho
  | answered relayed =>
      cases relayed with
      | true => exact given _ ho
      | false =>
          refine careful_judge (by simp [Grip.after]) (by simp [Grip.after])
            fun verdict owed' ho' => ?_
          exact given _ fun i hi => ho i (ho' i hi)

theorem careful_probeUdp (span : Option Time) (proxy : SocketAddress) :
    Careful {} (Program.probeUdp span proxy) := by
  refine ⟨trivial, fun (udp : UnitId) => ?_⟩
  refine .waitFor_bind List.mem_cons_self fun relayed owed ho => ⟨trivial, fun _ => ?_⟩
  have nothing : owed.filter (· != udp) = [] := by
    refine List.filter_eq_nil_iff.2 fun i hi => ?_
    simpa [Grip.after] using ho i hi
  cases relayed <;> exact nothing

/-- An attempt sees the end of the start that it has handed in, or gives it up. -/
theorem careful_attempt (limits : Limits) (config : TunnelConfig) (host : String) (port : UInt16)
    (probing : Bool) (ending : Option Time) :
    Careful {} (Program.attempt limits config host port probing ending) := by
  refine ⟨trivial, fun (start : UnitId) => ⟨List.mem_cons_self, fun joined => ?_⟩⟩
  have nothing : [start].filter (· != start) = [] := by simp
  cases joined with
  | timedOut => exact ⟨trivial, fun _ => nothing⟩
  | panicked | refused => exact nothing
  | value started =>
      cases started with
      | false => exact nothing
      | true =>
          cases probing with
          | false => exact nothing
          | true =>
              refine .of_nothing nothing ?_
              refine .bind (p := Program.proxyAddress) ⟨trivial, fun _ => rfl⟩ fun proxy => ?_
              exact .bind (careful_probe _ _ _ _ _) fun _ => rfl

theorem careful_startProxy (limits : Limits) (config : TunnelConfig) (probing : Bool) :
    Careful {} (Program.startProxy limits config probing) := by
  unfold Program.startProxy
  cases config.endpoint with
  | error e => rfl
  | ok endpoint =>
      exact .bind ⟨trivial, fun _ => rfl⟩ fun start =>
        .bind (careful_attempt _ _ _ _ _ _) fun _ => rfl

theorem careful_activeId : Careful {} Program.activeId := ⟨trivial, fun _ => rfl⟩

theorem careful_stopMonitoring : Careful {} Program.stopMonitoring := by
  refine .bind ⟨trivial, fun _ => rfl⟩ fun session => ?_
  split
  · exact .bind ⟨trivial, fun _ => rfl⟩ fun _ => .bind ⟨trivial, fun _ => rfl⟩ fun _ => rfl
  · rfl

theorem careful_startMonitoring : Careful {} Program.startMonitoring := by
  refine .bind ⟨trivial, fun _ => rfl⟩ fun session => ?_
  split
  · refine .bind ⟨trivial, fun _ => rfl⟩ fun registered => ?_
    split
    · exact .bind ⟨trivial, fun _ => rfl⟩ fun _ => ⟨trivial, fun _ => rfl⟩
    · rfl
  · rfl

theorem careful_tearDown : Careful {} Program.tearDown := by
  refine .bind (.slowly trivial) fun _ => .bind (.slowly trivial) fun _ => ?_
  refine .bind (.slowly trivial) fun _ => .bind ⟨trivial, fun _ => rfl⟩ fun _ => ?_
  refine .bind ⟨trivial, fun _ => ⟨trivial, fun _ => rfl⟩⟩ fun _ =>
    .bind careful_stopMonitoring fun _ => ?_
  exact .bind ⟨trivial, fun _ => rfl⟩ fun _ => ⟨trivial, fun _ => rfl⟩

theorem careful_failStart (code : ErrorCode) : Careful {} (Program.failStart code) :=
  .bind careful_activeId fun _ => .bind ⟨trivial, fun _ => rfl⟩ fun _ =>
    .bind careful_tearDown fun _ => rfl

/-- The interface is connected to the address that the proxy has just told. -/
theorem careful_connectOver (d : Descriptor) (code : ErrorCode) (udp : Bool) :
    Careful {} (Program.connectOver d code udp) := by
  have write : ∀ u, Careful {} (Program.write u) := fun _ => ⟨trivial, fun _ => rfl⟩
  refine .proxyAddress_bind fun proxy => .connect_bind rfl rfl fun connected => ?_
  cases connected with
  | false => exact careful_failStart _
  | true =>
      refine .bind careful_activeId fun _ => .bind ⟨trivial, fun _ => rfl⟩ fun _ => ?_
      refine .bind ⟨trivial, fun _ => rfl⟩ fun _ => .bind ⟨trivial, fun _ => rfl⟩ fun _ => ?_
      exact .bind (.bind (write _) fun _ => .bind (write _) fun _ => write _) fun _ => rfl

theorem careful_connectTunnel (d : Descriptor) (auto : Bool) (code : ErrorCode) :
    Careful {} (Program.connectTunnel d auto code) := by
  cases auto with
  | true => exact .bind ⟨trivial, fun _ => rfl⟩ (careful_connectOver d code)
  | false => exact careful_connectOver d code _

theorem careful_launch (limits : Limits) (d : Descriptor) (auto restart : Bool) :
    Careful {} (Program.launch limits d auto restart) := by
  refine .bind (careful_startProxy _ _ _) fun code => ?_
  split
  · exact careful_failStart _
  split
  · exact .bind (.slowly trivial) fun _ => careful_connectTunnel _ _ _
  · refine .bind (.slowly trivial) fun up => ?_
    cases up with
    | true => exact .bind careful_startMonitoring fun _ => careful_connectTunnel _ _ _
    | false => exact careful_failStart _

/-- **A start of a tunnel is careful.** -/
theorem careful_startLocked (limits : Limits) (d : Descriptor) (auto : Bool) :
    Careful {} (Program.startLocked limits d auto) := by
  have opened : ∀ restart, Careful {} (Program.setActive (some d) >>= fun _ =>
      Program.publishStatus .connecting >>= fun _ => Program.launch limits d auto restart) :=
    fun restart => .bind ⟨trivial, fun _ => ⟨trivial, fun _ => rfl⟩⟩ fun _ =>
      .bind ⟨trivial, fun _ => rfl⟩ fun _ => careful_launch limits d auto restart
  refine .bind ⟨trivial, fun _ => rfl⟩ fun session => ?_
  cases session.active with
  | none => exact opened false
  | some old =>
      exact .bind careful_activeId fun _ => .bind ⟨trivial, fun _ => rfl⟩ fun _ =>
        .bind ⟨trivial, fun _ => rfl⟩ fun _ => opened true

/-! ### Whole programs -/

/-- **A steady program** asks for nothing that it has not at hand, but may ask for the lock and give
it back. -/
def Steady : Grip → Program α → Prop
  | _, .done _ => True
  | g, .ask q next => (q ≠ .lock → q ≠ .unlock → g.Permits q) ∧ ∀ a, Steady (g.after q a) (next a)

theorem Careful.steady {g : Grip} {p : Program α} (hp : Careful g p) : Steady g p := by
  induction p generalizing g with
  | done a => trivial
  | ask q next ih => exact ⟨fun _ _ => hp.1, fun a => ih a (hp.2 a)⟩

namespace Steady

theorem mono {g g' : Grip} {p : Program α} (hg : g.Within g') (hp : Steady g p) :
    Steady g' p := by
  induction p generalizing g g' with
  | done a => trivial
  | ask q next ih =>
      exact ⟨fun hl hu => hg.permits (hp.1 hl hu), fun a => ih a (hg.after q a) (hp.2 a)⟩

theorem bind {f : α → Program β} {g : Grip} {p : Program α} (hp : Steady g p)
    (hf : ∀ a, Steady {} (f a)) : Steady g (p.bind f) := by
  induction p generalizing g with
  | done a => exact (hf a).mono g.nothing_within
  | ask q next ih => exact ⟨hp.1, fun a => ih a (hp.2 a)⟩

/-- A question that needs nothing at hand, or is about the lock. -/
theorem question {q : Ask} (hq : q ≠ .lock → q ≠ .unlock → Grip.Permits {} q) :
    Steady {} (Dialogue.question q) :=
  ⟨hq, fun _ => trivial⟩

theorem lock : Steady {} Program.lock := .question fun h => absurd rfl h

theorem unlock : Steady {} Program.unlock := .question fun _ h => absurd rfl h

/-- A question that needs nothing at hand. -/
theorem asks {q : Ask} (hq : Grip.Permits {} q) : Steady {} (Dialogue.question q) :=
  .question fun _ _ => hq

end Steady

theorem steady_start (limits : Limits) (id : String) (config : TunnelConfig) :
    Steady {} (Program.start limits id config) := by
  unfold Program.start
  split
  · trivial
  split
  · trivial
  refine .bind .lock fun _ => .bind (careful_startLocked _ _ _).steady fun _ => ?_
  exact .bind .unlock fun _ => trivial

theorem steady_stop (id : String) : Steady {} (Program.stop id) := by
  unfold Program.stop
  split
  · trivial
  refine .bind .lock fun _ => .bind careful_activeId.steady fun active => ?_
  split
  · refine .bind careful_activeId.steady fun _ => .bind (.asks trivial) fun _ => ?_
    exact .bind careful_tearDown.steady fun _ => .bind .unlock fun _ => trivial
  · exact .bind .unlock fun _ => trivial

theorem steady_resume (limits : Limits) : Steady {} (Program.resume limits) := by
  refine .bind .lock fun _ => .bind (.asks trivial) fun loaded => ?_
  have left : Steady {} (Program.call .requestExit >>= fun _ => Program.unlock >>= fun _ =>
      pure (none : Option ErrorCode)) :=
    .bind (.asks trivial) fun _ => .bind .unlock fun _ => trivial
  cases Program.resumable? loaded with
  | none => exact left
  | some d =>
      refine .bind (.asks trivial) fun prepared => ?_
      cases prepared with
      | false => exact left
      | true =>
          refine .bind (.asks trivial) fun _ => .bind (careful_startLocked _ _ _).steady fun _ => ?_
          exact .bind .unlock fun _ => trivial

theorem steady_revoke : Steady {} Program.revoke :=
  .bind .lock fun _ => .bind careful_activeId.steady fun _ => .bind (.asks trivial) fun _ =>
    .bind careful_tearDown.steady fun _ => .unlock

theorem steady_destroy : Steady {} Program.destroy :=
  .bind .lock fun _ => .bind careful_tearDown.steady fun _ => .unlock

theorem steady_isActive (id : String) : Steady {} (Program.isActive id) := by
  unfold Program.isActive
  split
  · trivial
  · exact .bind (.asks trivial) fun _ => trivial

theorem steady_overview (id : Option String) : Steady {} (Program.overview id) := by
  refine .bind ?_ fun active => ?_
  · cases id with
    | none => trivial
    | some id => exact .bind (steady_isActive id) fun _ => trivial
  · cases active with
    | error e => trivial
    | ok active =>
        exact .bind (.asks trivial) fun _ => .bind (.asks trivial) fun _ =>
          .bind (.asks trivial) fun _ => trivial

/-- **The operations of the service are steady.** -/
theorem Operation.steady (limits : Limits) (op : Operation) : Steady {} (op.program limits) := by
  cases op with
  | start id config => exact .bind (steady_start limits id config) fun _ => trivial
  | stop id => exact .bind (steady_stop id) fun _ => trivial
  | isActive id => exact .bind (steady_isActive id) fun _ => trivial
  | overview id => exact .bind (steady_overview id) fun _ => trivial
  | resume => exact .bind (steady_resume limits) fun _ => trivial
  | revoke => exact .bind steady_revoke fun _ => trivial
  | destroy => exact .bind steady_destroy fun _ => trivial

theorem steady_reportStatus (status : Status) : Steady {} (Program.reportStatus status) := by
  refine .bind .lock fun _ => .bind (.asks trivial) fun session => ?_
  cases session.active with
  | none => exact .bind .unlock fun _ => trivial
  | some d =>
      exact .bind (.asks trivial) fun _ => .bind (.asks trivial) fun _ =>
        .bind (.asks trivial) fun _ => .bind .unlock fun _ => trivial

theorem steady_recordUdp (d : Descriptor) (udp : Bool) : Steady {} (Program.recordUdp d udp) := by
  refine .bind .lock fun _ => .bind (.asks trivial) fun session => ?_
  split
  · exact .bind (.asks trivial) fun _ => .bind ⟨fun _ _ => trivial, fun _ => trivial⟩ fun _ =>
      .bind .unlock fun _ => trivial
  · exact .bind .unlock fun _ => trivial

theorem steady_restartIfActive (limits : Limits) (d : Descriptor) :
    Steady {} (Program.restartIfActive limits d) := by
  refine .bind .lock fun _ => .bind (.asks trivial) fun session => ?_
  split
  · exact .bind (careful_startLocked _ _ _).steady fun _ => .bind .unlock fun _ => trivial
  · exact .bind .unlock fun _ => trivial

theorem steady_probeUdp (span : Option Time) (proxy : SocketAddress) :
    Steady {} (Program.probeUdp span proxy) :=
  (careful_probeUdp span proxy).steady

theorem steady_recheckUdp (limits : Limits) (d : Descriptor) :
    Steady {} (Program.recheckUdp limits d) := by
  refine .bind (.asks trivial) fun proxy => .bind (steady_probeUdp _ _) fun udp => ?_
  refine .bind (steady_recordUdp d udp) fun previous => ?_
  cases previous with
  | none => trivial
  | some previous =>
      dsimp only
      split
      · exact .bind (steady_restartIfActive limits d) fun _ => trivial
      · trivial

/-- **What a reactor does about an event is steady.** -/
theorem steady_react (limits : Limits) (e : NetworkEvent) : Steady {} (Program.react limits e) := by
  cases e with
  | available network =>
      refine .bind (.asks trivial) fun state => ?_
      split
      · refine .bind (steady_reportStatus .connected) fun active => ?_
        cases active with
        | none => trivial
        | some d => exact .bind (.asks trivial) fun _ => steady_recheckUdp limits d
      · trivial
  | lost network =>
      refine .bind (.asks trivial) fun state => ?_
      split
      · trivial
      · refine .bind (steady_reportStatus .reconnecting) fun active => ?_
        split
        · exact .bind (.asks trivial) fun _ => trivial
        · trivial

end TunnelKeeper.Service
