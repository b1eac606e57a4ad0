import TunnelKeeper.Proofs.Service.Applying

/-!
# Verdicts — what the courses of its checks tell of a probe

A probe waits for its checks one after the other, with a limit that begins anew with each wait.  So
what it answers depends on how long each check takes and not only on what it finds, and a check may
be given up that would have ended within the limit of a later wait.  If all three checks begin
together, their courses tell what the probe answers and when (`timedVerdict`).

What a program comes to can be told from the courses of the units that it waits for (`Foretold`).

* `timedVerdict_le`, `timedVerdict_eq_none_iff`: how late a probe answers, and whether it ever does.
* `Foretold.checks`: what is foretold of a probe.
-/

namespace TunnelKeeper.Service

open Pool (Joined)

variable {α : Type} {s : Machine} {id : UnitId} {courses : UnitId → Course} {start clock : Time}
  {limit : Option Time}

/-! ### Verdicts in time -/

/-- What a wait for a check gives, and when it is over.  The check has begun at `start`, the wait
begins at `clock`; there is no result where the check ends abnormally, or too late. -/
def Course.await (c : Course) (limit : Option Time) (start clock : Time) :
    Option (Option Bool × Time) :=
  match c.due? start, limit with
  | none, none => none
  | none, some span => some (none, clock + span)
  | some due, none => some (c.result, max clock due)
  | some due, some span =>
    if due ≤ clock + span then some (c.result, max clock due) else some (none, clock + span)

/-- **What a probe answers, and when**, if its checks begin at `start` and each wait has a limit; it
never does if one of its waits is never over. -/
def timedVerdict (limit : Option Time) (start : Time) (udp server credentials : Course) :
    Option (ProbeResult × Time) :=
  match udp.await limit start start with
  | none => none
  | some (none, time) => some (.unreachable, time)
  | some (some true, time) => some (.usable, time)
  | some (some false, time) =>
    match server.await limit start time with
    | none => none
    | some (none, time) => some (.unreachable, time)
    | some (some reachable, time) =>
      match credentials.await limit start time with
      | none => none
      | some (none, time) => some (.unreachable, time)
      | some (some true, time) => some (.usableNoUdp, time)
      | some (some false, time) =>
        some (if reachable then .invalidCredentials else .unreachable, time)

/-- A check does not end at the very time at which the wait for it does. -/
def Course.Apart (c : Course) (limit : Option Time) (start clock : Time) : Prop :=
  ∀ span, limit = some span → c.due? start ≠ some (clock + span)

/-- **No check of a probe ends at the very time** at which the wait for it does. -/
structure AllApart (limit : Option Time) (start : Time) (udp server credentials : Course) :
    Prop where
  first : udp.Apart limit start start
  second : ∀ time, udp.await limit start start = some (some false, time) →
    server.Apart limit start time
  third : ∀ time reachable later, udp.await limit start start = some (some false, time) →
    server.await limit start time = some (some reachable, later) →
      credentials.Apart limit start later

/-- No wait with a limit takes longer. -/
theorem Course.await_le (c : Course) (span start clock : Time) :
    ∃ result time, c.await (some span) start clock = some (result, time) ∧ time ≤ clock + span := by
  unfold Course.await
  cases c.due? start with
  | none => exact ⟨_, _, rfl, Nat.le_refl _⟩
  | some due =>
      by_cases h : due ≤ clock + span
      · exact ⟨_, _, if_pos h, Nat.max_le.2 ⟨Nat.le_add_right .., h⟩⟩
      · exact ⟨_, _, if_neg h, Nat.le_refl _⟩

/-- A wait without a limit is never over for a check that never ends, and for no other one. -/
theorem Course.await_eq_none_iff {c : Course} :
    c.await limit start clock = none ↔ limit = none ∧ c.span = none := by
  unfold Course.await Course.due?
  cases c.span with
  | none => cases limit <;> simp
  | some span =>
      cases limit with
      | none => simp
      | some limit =>
          simp only [Option.map_some, reduceCtorEq, and_self, iff_false]
          split <;> nofun

/-- A wait without a limit tells the result. -/
theorem Course.await_none {c : Course} {span : Time} (h : c.span = some span) (start clock : Time) :
    c.await none start clock = some (c.result, max clock (start + span)) := by
  simp only [Course.await, Course.due?, h, Option.map_some]

/-- **With a limit a probe answers after at most three of its spans.** -/
theorem timedVerdict_le (span start : Time) (udp server credentials : Course) :
    ∃ r time, timedVerdict (some span) start udp server credentials = some (r, time) ∧
      time ≤ start + 3 * span := by
  unfold timedVerdict
  obtain ⟨result, time₁, h, h₁⟩ := udp.await_le span start start
  rw [h]
  cases result with
  | none => exact ⟨_, _, rfl, by grind⟩
  | some relayed =>
      cases relayed with
      | true => exact ⟨_, _, rfl, by grind⟩
      | false =>
          obtain ⟨result, time₂, h, h₂⟩ := server.await_le span start time₁
          simp only [h]
          cases result with
          | none => exact ⟨_, _, rfl, by grind⟩
          | some reachable =>
              obtain ⟨result, time₃, h, h₃⟩ := credentials.await_le span start time₂
              simp only [h]
              cases result with
              | none => exact ⟨_, _, rfl, by grind⟩
              | some valid => cases valid <;> exact ⟨_, _, rfl, by grind⟩

/-- **A probe never answers** only without a limit, and only if a check never ends for which it
waits. -/
theorem timedVerdict_eq_none_iff {udp server credentials : Course} :
    timedVerdict limit start udp server credentials = none ↔ limit = none ∧
      (udp.span = none ∨ udp.result = some false ∧
        (server.span = none ∨ server.result ≠ none ∧ credentials.span = none)) := by
  cases limit with
  | some span =>
      obtain ⟨r, time, h, -⟩ := timedVerdict_le span start udp server credentials
      simp [h]
  | none =>
      rw [and_iff_right rfl, timedVerdict]
      cases hu : udp.span with
      | none => simp [Course.await_eq_none_iff.2 ⟨rfl, hu⟩]
      | some span =>
          rw [udp.await_none hu]
          obtain hu | hu | hu : udp.result = none ∨ udp.result = some true ∨
              udp.result = some false := by
            cases udp.result with
            | none => exact .inl rfl
            | some b => cases b <;> simp
          · simp [hu]
          · simp [hu]
          · rw [hu]
            cases hs : server.span with
            | none => simp [Course.await_eq_none_iff.2 ⟨rfl, hs⟩]
            | some span =>
                dsimp only
                rw [server.await_none hs]
                cases hr : server.result with
                | none => simp
                | some reachable =>
                    cases hc : credentials.span with
                    | none => simp [Course.await_eq_none_iff.2 ⟨rfl, hc⟩]
                    | some span =>
                        simp only [credentials.await_none hc]
                        cases credentials.result with
                        | none => simp
                        | some valid => cases valid <;> simp

/-! ### What is foretold -/

/-- **What a program comes to, and when**, is foretold from a time on, if the units `ids` begin at
`start` and keep to their courses, whatever else happens.  Nothing is foretold but waits, and what
follows them. -/
inductive Foretold (courses : UnitId → Course) (start : Time) (ids : List UnitId) :
    Time → Program α → Option (α × Time) → Prop where
  | settled {clock : Time} {p : Program α} {out : α} (h : GivesUp out p) :
      Foretold courses start ids clock p (some (out, clock))
  | now {clock : Time} {next : Time → Program α} {o : Option (α × Time)}
      (h : Foretold courses start ids clock (next clock) o) :
      Foretold courses start ids clock (.ask .now next) o
  | join {clock : Time} {id : UnitId} {limit : Option Time} {next : Joined Bool → Program α}
      {o : Option (α × Time)} (hid : id ∈ ids)
      (ends : ∀ due, (courses id).due? start = some due →
        (∀ time, limit = some time → due ≤ max clock time) →
          Foretold courses start ids (max clock due) (next (courses id).joined) o)
      (late : ∀ time, limit = some time →
        (∀ due, (courses id).due? start = some due → max clock time ≤ due) →
          Foretold courses start ids (max clock time) (next .timedOut) o)
      (never : limit = none → (courses id).due? start = none → o = none) :
      Foretold courses start ids clock (.ask (.join id limit) next) o

namespace Foretold

variable {ids : List UnitId} {o : Option (α × Time)}

/-- What is foretold is foretold of a time to come. -/
theorem clock_le {p : Program α} {out : α × Time} (h : Foretold courses start ids clock p o)
    (ho : o = some out) : clock ≤ out.2 := by
  induction h with
  | settled => exact Option.some.inj ho ▸ Nat.le_refl _
  | now _ ih => exact ih ho
  | @join clock id limit next o _ _ _ never ends late =>
      cases hdue : (courses id).due? start with
      | none =>
          cases limit with
          | none => exact nomatch (never rfl hdue).symm.trans ho
          | some time =>
              have hlate := late time rfl (fun due h => nomatch hdue.symm.trans h) ho
              exact Nat.le_trans (Nat.le_max_left ..) hlate
      | some due =>
          by_cases hends : ∀ time, limit = some time → due ≤ max clock time
          · exact Nat.le_trans (Nat.le_max_left ..) (ends due hdue hends ho)
          · simp only [not_forall, Nat.not_le] at hends
            obtain ⟨time, htime, hlt⟩ := hends
            have hlate := late time htime
              (fun due' h => Option.some.inj (hdue.symm.trans h) ▸ Nat.le_of_lt hlt) ho
            exact Nat.le_trans (Nat.le_max_left ..) hlate

/-- **What is foretold of a wait** for a check is what follows it. -/
theorem wait {f : Waited → Program α} (hid : id ∈ ids)
    (hapart : (courses id).Apart limit start clock)
    (never : (courses id).await limit start clock = none → o = none)
    (gives : ∀ result time, (courses id).await limit start clock = some (result, time) →
      Foretold courses start ids time (f (waited result)) o) :
    Foretold courses start ids clock ((Program.waitFor id limit none).bind f) o := by
  refine .now ?_
  show Foretold courses start ids clock
    (.ask (.join id (earlier (limit.map (clock + ·)) none)) _) o
  rw [earlier_none]
  refine .join hid (fun due hdue hin => ?_) (fun time htime hout => ?_) fun hl hdue => never ?_
  · have hgives := gives (courses id).result (max clock due) (by
      simp only [Course.await, hdue]
      cases limit with
      | none => rfl
      | some span =>
          refine if_pos (Nat.le_trans (hin _ rfl) ?_)
          exact Nat.max_le.2 ⟨Nat.le_add_right .., Nat.le_refl _⟩)
    unfold Course.joined
    cases hr : (courses id).result <;> rw [hr] at hgives <;> exact hgives
  · obtain ⟨span, rfl, rfl⟩ := Option.map_eq_some_iff.1 htime
    have hmax : max clock (clock + span) = clock + span := Nat.max_eq_right (Nat.le_add_right ..)
    rw [hmax] at hout ⊢
    have hgives := gives none (clock + span) (by
      simp only [Course.await]
      cases hdue : (courses id).due? start with
      | none => rfl
      | some due =>
          refine if_neg fun hle => hapart span rfl ?_
          rw [hdue, Nat.le_antisymm hle (hout due hdue)])
    exact hgives
  · simp only [Course.await, hdue, Option.map_eq_none_iff.1 hl]

/-- A wait may take its time. -/
theorem later {later : Time} {next : Joined Bool → Program α}
    (h : Foretold courses start ids clock (.ask (.join id limit) next) o) (hle : clock ≤ later)
    (hdue : ∀ due, (courses id).due? start = some due → later ≤ due)
    (hlimit : ∀ time, limit = some time → later ≤ time) :
    Foretold courses start ids later (.ask (.join id limit) next) o := by
  have same : ∀ {time}, later ≤ time → max later time = max clock time := fun h =>
    (Nat.max_eq_right h).trans (Nat.max_eq_right (Nat.le_trans hle h)).symm
  cases h with
  | settled h => cases h
  | join hid ends late never =>
      refine .join hid (fun due hd hin => ?_) (fun time ht hout => ?_) never
      · rw [same (hdue due hd)]
        exact ends due hd fun time ht => same (hlimit time ht) ▸ hin time ht
      · rw [same (hlimit time ht)] at hout ⊢
        exact late time ht hout

/-- A task that joins a unit is answered as is foretold. -/
theorem answered {next : Joined Bool → Program α} {joined : Joined Bool} {since : Time}
    (h : Foretold courses start ids s.world.clock (.ask (.join id limit) next) o)
    (habreast : Abreast (courses id) start s.world.clock since (s.pool.stage? id))
    (hj : s.pool.joined? id = some joined ∨ s.pool.joined? id = none ∧ joined = .timedOut ∧
      ∃ time, limit = some time ∧ time ≤ s.world.clock) :
    Foretold courses start ids s.world.clock (next joined) o := by
  cases h with
  | settled h => cases h
  | join _ ends late _ =>
      obtain hj | ⟨hj, rfl, time, htime, hle⟩ := hj
      · obtain ⟨rfl, due, hdue, hle⟩ := habreast.joined hj
        have hends := ends due hdue fun time _ => Nat.le_trans hle (Nat.le_max_left ..)
        exact Nat.max_eq_left hle ▸ hends
      · have hmax : max s.world.clock time = s.world.clock := Nat.max_eq_left hle
        have hlate := late time htime fun due hdue => hmax.symm ▸ (habreast.unjoined hj).2 due hdue
        exact hmax ▸ hlate

end Foretold

/-- **What is foretold of a probe** whose checks have just been handed in. -/
theorem Foretold.checks {udp server credentials : UnitId}
    (hapart : AllApart limit start (courses udp) (courses server) (courses credentials)) :
    Foretold courses start [udp, server, credentials] start
      (Program.finishProbe limit udp server credentials)
      ((timedVerdict limit start (courses udp) (courses server) (courses credentials)).map
        fun out => (some out.1, out.2)) := by
  have hu : udp ∈ [udp, server, credentials] := by simp
  have hs : server ∈ [udp, server, credentials] := by simp
  have hc : credentials ∈ [udp, server, credentials] := by simp
  have settled : ∀ {clock r o}, o = some (r, clock) → Foretold courses start
      [udp, server, credentials] clock (Program.settle udp server credentials (some r))
        (o.map fun out : ProbeResult × Time => (some out.1, out.2)) := by
    rintro clock r _ rfl
    exact .settled (givesUp_settle ..)
  refine .wait hu hapart.first (fun h => by simp [timedVerdict, h]) fun result time h₁ => ?_
  match result with
  | none => exact settled (by simp only [timedVerdict, h₁])
  | some true => exact settled (by simp only [timedVerdict, h₁])
  | some false =>
    show Foretold courses start _ time ((Program.judge server credentials limit none).bind
      (Program.settle udp server credentials)) _
    rw [Program.judge, Program.bind_eq, Dialogue.bind_assoc]
    refine .wait hs (hapart.second time h₁) (fun h => by simp [timedVerdict, h₁, h])
      fun result later h₂ => ?_
    cases result with
    | none => exact settled (by simp only [timedVerdict, h₁, h₂])
    | some reachable =>
        show Foretold courses start _ later ((Program.waitFor credentials limit none >>= _).bind _) _
        rw [Program.bind_eq, Dialogue.bind_assoc]
        refine .wait hc (hapart.third time reachable later h₁ h₂)
          (fun h => by simp [timedVerdict, h₁, h₂, h]) fun result last h₃ => ?_
        match result with
        | none => exact settled (by simp only [timedVerdict, h₁, h₂, h₃])
        | some true => exact settled (by simp only [timedVerdict, h₁, h₂, h₃])
        | some false => exact settled (by simp only [timedVerdict, h₁, h₂, h₃])

end TunnelKeeper.Service
