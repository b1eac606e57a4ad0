import TunnelKeeper.Proofs.Service.Probing

/-!
# Applying — the checks of a probe ask for workers

A check asks for a worker when it first gets its turn, some time after it was handed in, and others
may ask before it that were handed in later.  No time passes before all checks have asked.  The
probe may well be answered meanwhile, but then it gives up the checks that are left, so it is not
done before they have asked or are given up (`Timed.Minds`).  So each run comes to a point at which
all checks have asked (`Machine.Applies`), and that is where permits are set aside for them or not.

* `Timed.Minds.step`: a task that minds its units goes on to do so.
* `Timed.Minds.cut`: a run goes through a point at which they have all asked, or can come to one.
* `Machine.beginsProbe`: how a probe begins.
-/

namespace TunnelKeeper.Service

variable {α : Type} {s : Machine} {t : TaskId} {l : Label} {labels : List Label} {id : UnitId}
  {ids : List UnitId} {courses : UnitId → Course} {limit : Option Time} {proxy : SocketAddress}
  {host : String} {port : UInt16}

/-! ### Units that a task minds -/

/-- What a task has handed in stays with it. -/
theorem Units.isSome_after {units : Units} (h : (units id).isSome = true) (q : Ask) (a : q.Answer) :
    (units.after q a id).isSome = true := by
  cases q with
  | spawn work =>
      show (units.add a work id).isSome = true
      unfold Units.add
      split
      · rfl
      · exact h
  | _ => exact h

/-- **A task minds the units** `ids`: they are its own, and it is not done before it has seen the
end of each or given it up. -/
structure Timed.Minds (t : TaskId) (ids : List UnitId) (x : Timed α) : Prop where
  own : ∀ id ∈ ids, (unitsOf x.machine.pool t id).isSome = true
  owes : ∃ g : Grip, Tidy g x.program ∧ ∀ id ∈ ids, x.machine.Owes t id → id ∈ g.owed

namespace Timed.Minds

variable {x y z : Timed α}

/-- **No step makes a task forget its units.** -/
theorem step (h : Minds t ids x) (hs : x.step? courses t l = some y) : Minds t ids y := by
  obtain ⟨g, htidy, howes⟩ := h.owes
  have hown := h.own
  have hstep := (step?_eq_some.1 hs).1
  obtain ⟨⟨s, p⟩, since⟩ := x
  obtain ⟨y, since'⟩ := y
  cases p with
  | done a => exact absurd hstep Passage.not_step?_done
  | ask q next =>
      obtain ⟨around, a, s', -, hr, rfl⟩ | ⟨s', hl, -, hs', rfl⟩ := Passage.step?_cases hstep
      · refine ⟨fun id hid => ?_, g.after q a, htidy a, fun id hid =>
          Machine.Owes.respond (howes id hid) hr⟩
        show (unitsOf s'.pool t id).isSome = true
        rw [unitsOf_respond hr, if_pos rfl]
        exact Units.isSome_after (hown id hid) q a
      · have hl := Passage.turnOf?_eq_none.1 hl
        refine ⟨fun id hid => ?_, g, htidy, fun id hid ho => howes id hid (ho.of_step hs' hl)⟩
        show (unitsOf s'.pool t id).isSome = true
        rw [unitsOf_step hs' hl]
        exact hown id hid

/-- As long as one of them has not asked, the task is not done, and so the unit can ask. -/
theorem exists_ask (courses : UnitId → Course) (h : Minds t ids x) (hid : id ∈ ids)
    (hf : id ∈ x.machine.pool.fresh) :
    ∃ y, x.step? courses t (.ask id) = some y ∧ y.machine.world.clock = x.machine.world.clock ∧
      y.machine.pool.fresh = x.machine.pool.fresh.filter (· != id) := by
  obtain ⟨g, htidy, howes⟩ := h.owes
  obtain ⟨work, hwork⟩ := Option.isSome_iff_exists.1 (h.own id hid)
  obtain ⟨pool, ha⟩ := Pool.exists_ask hf
  obtain ⟨⟨s, p⟩, since⟩ := x
  cases p with
  | done a =>
      have howed : g.owed = [] := htidy
      obtain ⟨u, hu, hw⟩ := (Option.any_eq_true ..).1 (Pool.mem_fresh.1 hf).1
      exact absurd (howed ▸ howes id hid ⟨⟨work, hwork⟩, u, hu, .inl hw⟩) List.not_mem_nil
  | ask q next =>
      have hs : s.step? (.ask id) = some { s with pool } := Option.map_eq_some_iff.2 ⟨_, ha, rfl⟩
      have hkept : ∀ i, pool.stage? i = some .dropped → s.pool.stage? i = some .dropped := by
        obtain ⟨-, -, -, -, rfl⟩ := Pool.ask?_inv ha
        exact fun _ hd => hd
      exact ⟨_, step?_other rfl rfl hs rfl hkept rfl, rfl, Pool.fresh_asks ha⟩

/-- **They can all ask at once.** -/
theorem exists_asked (h : Minds t ids x) :
    ∃ more y, x.run? courses t more = some y ∧ y.machine.world.clock = x.machine.world.clock ∧
      ∀ id ∈ ids, id ∉ y.machine.pool.fresh := by
  suffices hall : ∀ todo : List UnitId, (∀ id ∈ todo, id ∈ ids) → ∀ {x : Timed α}, Minds t ids x →
      ∃ more y, x.run? courses t more = some y ∧ y.machine.world.clock = x.machine.world.clock ∧
        (∀ i ∈ y.machine.pool.fresh, i ∈ x.machine.pool.fresh) ∧
          ∀ id ∈ todo, id ∉ y.machine.pool.fresh by
    obtain ⟨more, y, hrun, hclock, -, hasked⟩ := hall ids (fun _ => id) h
    exact ⟨more, y, hrun, hclock, hasked⟩
  intro todo
  induction todo with
  | nil => exact fun _ x _ => ⟨[], x, rfl, rfl, fun _ => id, nofun⟩
  | cons id todo ih =>
      intro htodo x h
      obtain ⟨hid, htodo⟩ := List.forall_mem_cons.1 htodo
      by_cases hf : id ∈ x.machine.pool.fresh
      · obtain ⟨x₁, hs, hclock₁, hfresh⟩ := h.exists_ask courses hid hf
        obtain ⟨more, y, hrun, hclock, hless, hasked⟩ := ih htodo (h.step hs)
        rw [hfresh] at hless
        refine ⟨.ask id :: more, y, run?_cons hs hrun, hclock.trans hclock₁,
          fun i hi => (List.mem_filter.1 (hless i hi)).1,
          List.forall_mem_cons.2 ⟨fun hi => ?_, hasked⟩⟩
        simpa using (List.mem_filter.1 (hless id hi)).2
      · obtain ⟨more, y, hrun, hclock, hless, hasked⟩ := ih htodo h
        exact ⟨more, y, hrun, hclock, hless,
          List.forall_mem_cons.2 ⟨fun hi => hf (hless id hi), hasked⟩⟩

/-- **A run goes through a point at which they have all asked**, or can come to one; no time passes
before. -/
theorem cut (h : Minds t ids x) (hrun : x.run? courses t labels = some z) :
    z.machine.world.clock = x.machine.world.clock ∧
        (∃ more y, z.run? courses t more = some y ∧
          y.machine.world.clock = x.machine.world.clock ∧ ∀ id ∈ ids, id ∉ y.machine.pool.fresh) ∨
      ∃ asking after y, labels = asking ++ after ∧ x.run? courses t asking = some y ∧
        y.machine.world.clock = x.machine.world.clock ∧
        (∀ id ∈ ids, id ∉ y.machine.pool.fresh) ∧ y.run? courses t after = some z := by
  induction labels generalizing x with
  | nil =>
      obtain rfl := Option.some.inj hrun
      obtain ⟨more, y, hmore, hclock, hasked⟩ := h.exists_asked
      exact .inl ⟨rfl, more, y, hmore, hclock, hasked⟩
  | cons l labels ih =>
      by_cases hall : ∀ id ∈ ids, id ∉ x.machine.pool.fresh
      · exact .inr ⟨[], _, x, rfl, rfl, rfl, hall, hrun⟩
      obtain ⟨x₁, hs, hrun⟩ := Option.bind_eq_some_iff.1 hrun
      have hclock : x₁.machine.world.clock = x.machine.world.clock := by
        have hclock := clock_timed hs
        cases l with
        | elapse span =>
            -- Whoever has not asked has a turn to take.
            obtain ⟨hsettled, -⟩ := keeps_elapse.1 (step?_eq_some.1 hs).2.1
            refine absurd (fun id _ => ?_) hall
            exact (Pool.settled_iff.1 hsettled).1 ▸ List.not_mem_nil
        | _ => exact hclock
      obtain ⟨hz, more, y, hmore, hy, hasked⟩ |
        ⟨asking, after, y, rfl, hasking, hy, hasked, hafter⟩ := ih (h.step hs) hrun
      · exact .inl ⟨hz.trans hclock, more, y, hmore, hy.trans hclock, hasked⟩
      · exact .inr ⟨l :: asking, after, y, rfl, run?_cons hs hasking, hy.trans hclock, hasked,
          hafter⟩

end Timed.Minds

/-! ### Checks that have asked -/

/-- **All checks of a probe have asked for workers** after the steps `before`, or are given up or
done already.  No time has passed since it began in the machine `s`. -/
structure Machine.Applies (s : Machine) (t : TaskId) (courses : UnitId → Course)
    (since : UnitId → Time) (limit : Option Time) (proxy : SocketAddress) (host : String)
    (port : UInt16) (before : List Label) (udp server credentials : UnitId)
    (y : Timed (Option ProbeResult)) : Prop where
  handsIn : ∃ handing asking x, before = handing ++ asking ∧
    s.HandsIn t courses since limit proxy host port handing udp server credentials x ∧
    x.run? courses t asking = some y
  clock : y.machine.world.clock = s.world.clock
  asked : ∀ id ∈ [udp, server, credentials], id ∉ y.machine.pool.fresh

variable {since : UnitId → Time} {x y z : Timed (Option ProbeResult)}
  {udp server credentials : UnitId} {before : List Label}

/-- A probe minds its checks. -/
theorem Machine.HandsIn.minds
    (h : s.HandsIn t courses since limit proxy host port before udp server credentials x) :
    x.Minds t [udp, server, credentials] := by
  refine ⟨fun id hid => (h.own hid).2, ⟨[credentials, server, udp], none, [credentials, server, udp]⟩,
    ?_, fun id hid _ => ?_⟩
  · have hcareful := (((careful_probe limit none proxy host port).2 udp).2 server).2 credentials
    rw [h.program]
    exact (show Careful _ (Program.finishProbe limit udp server credentials) from hcareful).tidy
  · simp only [List.mem_cons, List.not_mem_nil, or_false] at hid ⊢
    obtain rfl | rfl | rfl := hid <;> simp

/-- The pool has moved until all checks have asked. -/
theorem Machine.Applies.moves
    (h : s.Applies t courses since limit proxy host port before udp server credentials y) :
    ∃ moves, s.pool.run? moves = some y.machine.pool := by
  obtain ⟨handing, asking, x, rfl, hx, hrun⟩ := h.handsIn
  obtain ⟨first, hfirst⟩ : ∃ moves, s.pool.run? moves = some x.machine.pool :=
    Timed.pool_timed_run hx.run
  obtain ⟨more, hmore⟩ := Timed.pool_timed_run hrun
  refine ⟨first ++ more, ?_⟩
  rw [Pool.run?_append, hfirst]
  exact hmore

/-- A check that waits when all have asked stands in the queue. -/
theorem Machine.Applies.mem_queue
    (h : s.Applies t courses since limit proxy host port before udp server credentials y)
    (hid : id ∈ [udp, server, credentials]) (hw : y.machine.pool.stage? id = some .waiting) :
    id ∈ y.machine.pool.queue :=
  Decidable.byContradiction fun hn =>
    h.asked id hid (Pool.mem_fresh.2 ⟨Pool.any_isWaiting_iff.2 hw, hn⟩)

/-- The checks are there when they have asked. -/
theorem Machine.Applies.known
    (h : s.Applies t courses since limit proxy host port before udp server credentials y)
    (hid : id ∈ [udp, server, credentials]) : id < y.machine.pool.units.length := by
  obtain ⟨handing, asking, x, rfl, hx, hrun⟩ := h.handsIn
  obtain ⟨more, hmore⟩ := Timed.pool_timed_run hrun
  exact Nat.lt_of_lt_of_le (lt_of_unitsOf (hx.own hid).2) (Pool.length_le_run hmore)

/-- **Checks that are handed in come to ask**, and no time passes before. -/
theorem Machine.HandsIn.applies
    (h : s.HandsIn t courses since limit proxy host port before udp server credentials x)
    (hrun : x.run? courses t labels = some z) :
    z.machine.world.clock = s.world.clock ∧
        (∃ more y, z.run? courses t more = some y ∧ s.Applies t courses since limit proxy host port
          (before ++ labels ++ more) udp server credentials y) ∨
      ∃ asking after y, labels = asking ++ after ∧ s.Applies t courses since limit proxy host port
        (before ++ asking) udp server credentials y ∧ y.run? courses t after = some z := by
  obtain ⟨hz, more, y, hmore, hy, hasked⟩ | ⟨asking, after, y, rfl, hasking, hy, hasked, hafter⟩ :=
    h.minds.cut hrun
  · refine .inl ⟨hz.trans h.clock, more, y, hmore, ⟨before, labels ++ more, x, ?_, h, ?_⟩,
      hy.trans h.clock, hasked⟩
    · rw [List.append_assoc]
    · rw [Timed.run?_append, hrun]
      exact hmore
  · exact .inr ⟨asking, after, y, rfl, ⟨⟨before, asking, x, rfl, h, hasking⟩, hy.trans h.clock,
      hasked⟩, hafter⟩

/-- **How a probe begins**, while all units of work keep to their courses and anything else happens.
`s` is the machine in which the task `t` comes to probe the proxy. -/
structure Machine.BeginsProbe (s : Machine) (t : TaskId) (courses : UnitId → Course)
    (since : UnitId → Time) (limit : Option Time) (proxy : SocketAddress) (host : String)
    (port : UInt16) : Prop where
  /-- Whatever the task goes on with, what happens until then are steps of the machine. -/
  genuine : ∀ labels y k,
    (Timed.probing s since limit proxy host port).run? courses t labels = some y →
      (s.goOn t ((Program.probe limit none proxy host port).bind k)).run? labels =
        some (y.whole t k)
  /-- As long as the checks are not all handed in, no time passes, and they can be handed in; and
  once they are, the run goes on from there. -/
  hands_in : ∀ labels y,
    (Timed.probing s since limit proxy host port).run? courses t labels = some y →
      y.machine.world.clock = s.world.clock ∧ (∃ work next, y.program = .ask (.spawn work) next) ∧
        (∃ more udp server credentials x, y.run? courses t more = some x ∧
          s.HandsIn t courses since limit proxy host port (labels ++ more) udp server credentials
            x) ∨
      ∃ before after udp server credentials x, labels = before ++ after ∧
        s.HandsIn t courses since limit proxy host port before udp server credentials x ∧
        x.run? courses t after = some y
  /-- As long as they have not all asked for workers, no time passes, and they can ask; and once they
  have, the run goes on from there. -/
  asks : ∀ before udp server credentials x labels z,
    s.HandsIn t courses since limit proxy host port before udp server credentials x →
      x.run? courses t labels = some z →
        z.machine.world.clock = s.world.clock ∧
            (∃ more y, z.run? courses t more = some y ∧
              s.Applies t courses since limit proxy host port (before ++ labels ++ more) udp server
                credentials y) ∨
          ∃ asking after y, labels = asking ++ after ∧
            s.Applies t courses since limit proxy host port (before ++ asking) udp server
              credentials y ∧ y.run? courses t after = some z

/-- **A probe hands in its checks, and they ask for workers**, in a pool that is open. -/
theorem Machine.beginsProbe {task : Task} (htask : s.tasks[t]? = some task)
    (ha : task.alive = true) (hopen : s.pool.closed = false) :
    s.BeginsProbe t courses since limit proxy host port where
  genuine _ _ k h := (Passage.run?_whole htask ha k (Timed.run?_passage h)).1
  hands_in _ _ := s.hands_in hopen
  asks _ _ _ _ _ _ _ h := h.applies

end TunnelKeeper.Service
