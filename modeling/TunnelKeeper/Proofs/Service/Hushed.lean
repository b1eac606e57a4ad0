import TunnelKeeper.Proofs.Service.Isolation

/-!
# Hushed — what starts no tunnel leaves none

Where no tunnel is active, and everybody can see so, the custody is hushed (`Hushed`).  Stopping,
revoking and the end of the service keep it so, and whenever the lock is free, everybody sees
whether a tunnel is active (`disclosing`).

* `Operation.hushed`: what starts no tunnel keeps it so.
* `kept_disclosing`: what is visible at rest is what is so.
-/

namespace TunnelKeeper.Service

variable {α : Type}

/-! ### Without a tunnel -/

/-- **No tunnel is active**, everybody can see so, and the proxy has been started so many times. -/
structure Hushed (starts : Nat) (c : Custody) : Prop where
  session : c.session.active = none
  active : c.visibleActive = none
  status : c.visibleStatus = .disconnected
  starts : c.deeds.countP Deed.isBegan = starts

/-- It stays so at all times. -/
def hushed (starts : Nat) : Terms where
  always := Hushed starts
  rest := Hushed starts

/-- Whether an act brings no tunnel back. -/
def Act.isHushed : Act → Bool
  | .deed x => !x.isBegan
  | .setMonitored _ => true
  | .setActive active | .publishActive active => active.isNone
  | .publishStatus status => status == .disconnected

variable {n : Nat} {c : Custody}

theorem Hushed.after (h : Hushed n c) {x : Act} (hx : x.isHushed = true) : Hushed n (c.after x) := by
  obtain ⟨hs, ha, hv, hn⟩ := h
  cases x with
  | deed x =>
      refine ⟨hs, ha, hv, ?_⟩
      have hx : x.isBegan = false := by simpa [Act.isHushed] using hx
      show (c.deeds ++ [x]).countP Deed.isBegan = n
      rw [List.countP_append, hn, List.countP_singleton, hx]
      rfl
  | setActive active => exact ⟨Option.isNone_iff_eq_none.1 hx, ha, hv, hn⟩
  | setMonitored monitored => exact ⟨hs, ha, hv, hn⟩
  | publishActive active => exact ⟨hs, Option.isNone_iff_eq_none.1 hx, hv, hn⟩
  | publishStatus status => exact ⟨hs, ha, beq_iff_eq.1 hx, hn⟩

theorem Hushed.along (h : Hushed n c) {acts : List Act} (ha : acts.all Act.isHushed = true) :
    (hushed n).Along acts (Hushed n) c := by
  induction acts generalizing c with
  | nil => exact h
  | cons x acts ih =>
      rw [List.all_cons, Bool.and_eq_true] at ha
      exact ⟨h.after ha.1, ih (h.after ha.1) ha.2⟩

/-! ### Operations that start no tunnel -/

/-- An operation that may bring a tunnel up. -/
def Operation.starts : Operation → Bool
  | .start _ _ | .resume => true
  | _ => false

/-- What is down is taken down. -/
theorem Hushed.tearDown (hc : Hushed n c) :
    (hushed n).Secures (fun _ c => Hushed n c) none Program.tearDown c := by
  refine .tearDown fun unregistered written _ => hc.along ?_
  cases c.session.monitored <;> rfl

theorem hushed_stop (id : String) : Lawful (hushed n) none (Program.stop id) := by
  unfold Program.stop
  split
  · rfl
  refine .lock fun c hc _ => .held (.bind (.session ⟨rfl, ?_⟩))
  rw [hc.session]
  exact ⟨hc, rfl⟩

theorem hushed_revoke : Lawful (hushed n) none Program.revoke := by
  refine .lock fun c hc _ => .held (.bind (.session ⟨rfl, .held (.call fun a _ => ?_)⟩))
  let told := Call.emit (.changed (c.session.active.map (·.id)) .disconnected)
  have hushed : (hushed n).Along (Act.ofCall told a) (Hushed n) c := hc.along rfl
  exact hushed.mono fun c hc => .held (hc.tearDown.mono fun _ c hc => ⟨hc, rfl⟩)

theorem hushed_destroy : Lawful (hushed n) none Program.destroy :=
  .lock fun _ hc _ => .held (hc.tearDown.mono fun _ _ hc => ⟨hc, rfl⟩)

/-- **What starts no tunnel brings none back.** -/
theorem Operation.hushed (limits : Limits) {op : Operation} (h : op.starts = false) :
    Lawful (hushed n) none (op.program limits) := by
  cases op with
  | stop id => exact .bind (hushed_stop id) fun _ => rfl
  | isActive id => exact .bind (lawful_isActive id) fun _ => rfl
  | overview id => exact .bind (lawful_overview id) fun _ => rfl
  | revoke => exact .bind hushed_revoke fun _ => rfl
  | destroy => exact .bind hushed_destroy fun _ => rfl
  | start | resume => cases h

/-! ### What is visible at rest -/

/-- Whenever nobody has the lock and no tunnel is active, everybody can see so. -/
def disclosing : Terms where
  rest c := c.session.active = none → c.visibleActive = none ∧ c.visibleStatus = .disconnected

theorem Attempt.disclosed {T : Terms} {d : Descriptor} {auto : Bool} {acts : List Act}
    {code : ErrorCode} (h : Attempt T c d auto acts code) :
    (c.afterAll acts).session.active = none →
      (c.afterAll acts).visibleActive = none ∧ (c.afterAll acts).visibleStatus = .disconnected := by
  intro hn
  have hends := h.ends
  split at hends
  · exact absurd (hn.symm.trans hends.1) nofun
  · exact hends.2

theorem disclosing_lasting : disclosing.Lasting where
  met := ⟨{}, trivial⟩
  kept c acts _ hr h := by
    refine (Terms.along_of_always fun _ => trivial).2 ?_
    cases h with
    | looked | unloaded | unprepared | recorded => exact hr
    | started h => exact h.disclosed
    | resumed d acts code loaded h =>
        rw [Custody.afterAll_append]
        exact h.disclosed
    | stopped | revoked =>
        rw [← List.singleton_append, Custody.afterAll_append, afterAll_tearDownActs]
        exact fun _ => ⟨rfl, rfl⟩
    | destroyed =>
        rw [afterAll_tearDownActs]
        exact fun _ => ⟨rfl, rfl⟩
    | reported hd => exact fun hn => absurd (hn.symm.trans hd) nofun

theorem kept_disclosing (limits : Limits) (poolSize : Nat) (store : Store.Persisted) :
    Kept disclosing (Machine.fresh limits poolSize store) none :=
  .fresh limits poolSize store trivial fun _ => ⟨rfl, rfl⟩

end TunnelKeeper.Service
