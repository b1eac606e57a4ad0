import TunnelKeeper.Proofs.Service.Addresses
import TunnelKeeper.Proofs.Service.Questions
import TunnelKeeper.Proofs.Service.Standing

/-!
# Reactions — what a reactor does, and to which tunnel

A reactor gets the lock three times for one event: to report, to record what it has measured, and to
restart the tunnel.  In between, and long after its own session, the tunnel may be another one.  All
that ties the three together is that the tunnel is compared with the one that was reported.  What
follows from this is read off the log (`Account`): whatever a reactor does under the lock, it does
while a tunnel stands, and it records and restarts only where that tunnel is the same as the one it
last reported (`Account.Reacts`).  That the session is the same does not follow.

* `Heeds`: what a reactor knows while it carries out its program, and what it does with it.
* `heeds_react`: whatever a reactor does about an event, it goes by what it knows.
-/

namespace TunnelKeeper.Service

/-! ### What the log tells -/

/-- Whether an event says that the tunnel it names has a status. -/
def Call.tells (k : Call) (status : Status) : Bool :=
  match k with
  | .emit e => e.action == .statusChange && e.status == some status
  | _ => false

/-- What the log tells of the session under way, of reports, and of a tunnel that is replaced. -/
structure Account where
  session : Recalled := {}
  /-- The tunnel that stood when a task last reported that it is connected. -/
  reported : TaskId → Option Descriptor := fun _ => none
  /-- The task that has told that the tunnel is disconnected, as long as it alone does anything under
  the lock and reports nothing. -/
  replacing : Option TaskId := none

namespace Account

/-- The tunnel that stands. -/
def standing (v : Account) : Option Descriptor := v.session.connected

/-- What is known after an entry. -/
def after (v : Account) : Entry → Account
  | .called t k a =>
    if k.isGuarded then
      { session := v.session.follow (.called k a)
        reported := fun i => if k.tells .connected && i == t then v.standing else v.reported i
        replacing :=
          if k.tells .disconnected then some t
          else if k.isReport then none
          else v.replacing.filter (· == t) }
    else v
  | e => { v with session := e.deed?.elim v.session v.session.follow }

end Account

/-- What is known after a log. -/
def account (log : List Entry) : Account := log.foldl Account.after {}

/-- **What a reactor may do under the lock.** -/
inductive Account.Reacts (v : Account) (t : TaskId) : Call → Prop where
  /-- It reports on the tunnel that stands, -/
  | reports {d : Descriptor} {status : Status} (hd : v.standing = some d)
      (hs : status = .connected ∨ status = .reconnecting) :
      Reacts v t (.emit (.changed (some d.id) status))
  | shows {d : Descriptor} {status : Status} (hd : v.standing = some d)
      (hs : status = .connected ∨ status = .reconnecting) :
      Reacts v t (.present (.display d.config.serverName status))
  /-- records what it has measured, if that is the same tunnel as the one that it has reported, -/
  | records {d reported : Descriptor} (udp : Bool) (hd : v.standing = some d)
      (hr : v.reported t = some reported) (h : Descriptor.isSame (some d) reported = true) :
      Reacts v t (.write (.udpSupported udp))
  /-- or begins to restart it, if that is so, -/
  | restarts {d reported : Descriptor} (hd : v.standing = some d)
      (hr : v.reported t = some reported) (h : Descriptor.isSame (some d) reported = true) :
      Reacts v t (.emit (.changed (some d.id) .disconnected))
  /-- and goes on with that. -/
  | goesOn {k : Call} (h : v.replacing = some t) (hk : k.isReport = false) : Reacts v t k

namespace Account

theorem after_unguarded (v : Account) {k : Call} (hk : k.isGuarded = false) (t : TaskId)
    (a : k.Answer) : v.after (.called t k a) = v := by
  simp [after, hk]

/-- A report is a task's own. -/
theorem reported_after (v : Account) (e : Entry) {i : TaskId}
    (h : ∀ k a, e = .called i k a → k.isGuarded = false) :
    (v.after e).reported i = v.reported i := by
  cases e with
  | began | ended => rfl
  | called t k a =>
      cases hk : k.isGuarded with
      | false => rw [v.after_unguarded hk]
      | true =>
          have hne : i ≠ t := by
            rintro rfl
            exact absurd ((h k a rfl).symm.trans hk) nofun
          simp [after, hk, hne]

/-- Only who tells that a tunnel is connected reports it. -/
theorem reported_called (v : Account) {k : Call} (hk : k.tells .connected = false) (t : TaskId)
    (a : k.Answer) : (v.after (.called t k a)).reported = v.reported := by
  cases hg : k.isGuarded with
  | false => rw [v.after_unguarded hg]
  | true => simp [after, hg, hk]

/-- Nobody else does anything under the lock, so a tunnel is still being replaced. -/
theorem replacing_after (v : Account) (e : Entry)
    (h : ∀ t k a, e = .called t k a → k.isGuarded = false) :
    (v.after e).replacing = v.replacing := by
  cases e with
  | began | ended => rfl
  | called t k a => rw [v.after_unguarded (h t k a rfl)]

/-- Whoever replaces the tunnel goes on with it. -/
theorem replacing_called {v : Account} {t : TaskId} (h : v.replacing = some t) {k : Call}
    (hk : k.isReport = false) (a : k.Answer) : (v.after (.called t k a)).replacing = some t := by
  cases hg : k.isGuarded with
  | false => rw [v.after_unguarded hg, h]
  | true =>
      simp only [after, hg, if_true, hk, h, Bool.false_eq_true, if_false]
      split
      · rfl
      · simp

/-- The session is what the deeds tell of it. -/
theorem session_after (v : Account) (e : Entry) :
    (v.after e).session = v.session.followAll e.deed?.toList := by
  cases e with
  | began | ended =>
      show Option.elim _ _ _ = _
      cases Entry.deed? _ <;> rfl
  | called t k a =>
      cases hg : k.isGuarded with
      | false => simp [after, Entry.deed?, hg, Recalled.followAll]
      | true => simp [after, Entry.deed?, hg, Recalled.followAll]

end Account

theorem account_append (log : List Entry) (e : Option Entry) :
    account (log ++ e.toList) = e.elim (account log) (account log).after := by
  cases e <;> simp [account]

/-- What stands by the log stands by the deeds. -/
theorem standing_account (log : List Entry) :
    (account log).standing = standing (log.filterMap Entry.deed?) := by
  have h : ∀ v : Account, (log.foldl Account.after v).session =
      v.session.followAll (log.filterMap Entry.deed?) := by
    induction log with
    | nil => exact fun _ => rfl
    | cons e log ih =>
        intro v
        rw [List.foldl_cons, ih, v.session_after, ← Recalled.followAll_append, List.filterMap_cons]
        cases e.deed? <;> rfl
  exact congrArg Recalled.connected (h {})

/-! ### What a reactor knows -/

/-- **What a reactor knows** while it carries out its program. -/
inductive Sight where
  /-- It has not the lock, and has last reported a tunnel, which it may know. -/
  | apart (reported : Option Descriptor)
  /-- It has got the lock. -/
  | entered (reported : Option Descriptor)
  /-- It has looked which tunnel is active. -/
  | seeing (reported active : Option Descriptor)
  /-- It restarts the tunnel. -/
  | restarting

/-- What it may call while it sees a tunnel, and what it knows then. -/
inductive Sight.Calls (reported : Option Descriptor) (d : Descriptor) : Call → Sight → Prop where
  | looks {k : Call} (hk : k.isGuarded = false) : Calls reported d k (.seeing reported (some d))
  | connected : Calls reported d (.emit (.changed (some d.id) .connected)) (.seeing (some d) (some d))
  | reconnecting : Calls reported d (.emit (.changed (some d.id) .reconnecting))
      (.seeing reported (some d))
  | shows {status : Status} (hs : status = .connected ∨ status = .reconnecting) :
      Calls reported d (.present (.display d.config.serverName status)) (.seeing reported (some d))
  | records (udp : Bool) {known : Descriptor} (hr : reported = some known)
      (h : Descriptor.isSame (some d) known = true) :
      Calls reported d (.write (.udpSupported udp)) (.seeing reported (some d))
  | restarts {known : Descriptor} (hr : reported = some known)
      (h : Descriptor.isSame (some d) known = true) :
      Calls reported d (.emit (.changed (some d.id) .disconnected)) .restarting

/-- What a reactor may ask, so that `K` holds of the answer and of what it knows then. -/
def Sight.Poses : Sight → (q : Ask) → (q.Answer → Sight → Prop) → Prop
  | .apart reported, .lock, K => K () (.entered reported)
  | .apart reported, q, K => q.isFree = true ∧ ∀ a, K a (.apart reported)
  | .entered reported, .session, K =>
      ∀ session : Session, K session (.seeing reported session.active)
  | .entered _, _, _ => False
  | .seeing reported _, .unlock, K => K () (.apart reported)
  | .seeing reported active, .session, K =>
    ∀ session : Session, session.active = active → K session (.seeing reported active)
  | .seeing reported active, .publishStatus _, K =>
    active.isSome = true ∧ K () (.seeing reported active)
  | .seeing reported active, .call k, K =>
    ∃ d sight, active = some d ∧ Sight.Calls reported d k sight ∧ ∀ a, K a sight
  | .seeing _ _, _, _ => False
  | .restarting, .lock, _ => False
  | .restarting, .unlock, K => K () (.apart none)
  | .restarting, .call k, K => k.isReport = false ∧ ∀ a, K a .restarting
  | .restarting, _, K => ∀ a, K a .restarting

theorem Sight.Poses.mono {m : Sight} {q : Ask} {K L : q.Answer → Sight → Prop}
    (h : ∀ a m, K a m → L a m) (hK : m.Poses q K) : m.Poses q L := by
  cases m with
  | apart reported =>
      cases q with
      | lock => exact h _ _ hK
      | _ => exact ⟨hK.1, fun a => h _ _ (hK.2 a)⟩
  | entered reported =>
      cases q with
      | session => exact fun session => h _ _ (hK session)
      | _ => exact hK
  | seeing reported active =>
      cases q with
      | unlock => exact h _ _ hK
      | publishStatus => exact ⟨hK.1, h _ _ hK.2⟩
      | session => exact fun session hs => h _ _ (hK session hs)
      | call k =>
          obtain ⟨d, sight, hd, hc, hK⟩ := hK
          exact ⟨d, sight, hd, hc, fun a => h _ _ (hK a)⟩
      | _ => exact hK
  | restarting =>
      cases q with
      | lock => exact hK
      | unlock => exact h _ _ hK
      | call k => exact ⟨hK.1, fun a => h _ _ (hK.2 a)⟩
      | _ => exact fun a => h _ _ (hK a)

/-- Apart from the lock, only what leaves alone what it guards is asked besides. -/
theorem Sight.Poses.free {reported : Option Descriptor} {q : Ask} {K : q.Answer → Sight → Prop}
    (h : (Sight.apart reported).Poses q K) (hq : q ≠ .lock) :
    q.isFree = true ∧ ∀ a, K a (.apart reported) := by
  cases q with
  | lock => exact absurd rfl hq
  | _ => exact h

variable {α β : Type}

/-- **A reactor heeds what it knows**, and ends in `post`. -/
def Heeds (post : α → Sight → Prop) : Sight → Program α → Prop
  | m, .done a => post a m
  | m, .ask q next => m.Poses q fun a m => Heeds post m (next a)

theorem Heeds.mono {post post' : α → Sight → Prop} (h : ∀ a m, post a m → post' a m) {m : Sight}
    {p : Program α} (hp : Heeds post m p) : Heeds post' m p := by
  induction p generalizing m with
  | done a => exact h a m hp
  | ask q next ih => exact Sight.Poses.mono (fun a m => ih a) hp

theorem Heeds.bind {post : β → Sight → Prop} {f : α → Program β} {m : Sight} {p : Program α}
    (hp : Heeds (fun a m => Heeds post m (f a)) m p) : Heeds post m (p.bind f) := by
  induction p generalizing m with
  | done a => exact hp
  | ask q next ih => exact Sight.Poses.mono (fun a m => ih a) hp

/-! ### The programs of a reactor -/

/-- Whatever is asked, nothing is called that reports. -/
theorem Heeds.restarting {post : α → Sight → Prop} {may : Work → Bool} {p : Program α}
    (hp : StartAsks may true p) (h : ∀ a, post a .restarting) : Heeds post .restarting p := by
  induction p with
  | done a => exact h a
  | ask q next ih =>
      have next : ∀ a, Heeds post .restarting (next a) := fun a => ih a (hp.2 a)
      cases q with
      | lock | unlock => exact absurd hp.1 nofun
      | call k =>
          refine ⟨?_, next⟩
          have hk : k.isOfStart = true := hp.1
          cases k with
          | emit e => simpa [Call.isOfStart] using hk
          | _ => rfl
      | _ => exact next

/-- A question that leaves alone what the lock guards. -/
theorem Heeds.free {q : Ask} (hq : q.isFree = true) {post : q.Answer → Sight → Prop}
    {reported : Option Descriptor} (h : ∀ a, post a (.apart reported)) :
    Heeds post (.apart reported) (Dialogue.question q) := by
  cases q with
  | lock => cases hq
  | _ => exact ⟨hq, h⟩

/-- A start that replaces the tunnel it sees first tells that this one is disconnected. -/
theorem heeds_startLocked (limits : Limits) {d known next : Descriptor} (auto : Bool)
    (h : Descriptor.isSame (some d) known = true) :
    Heeds (fun _ m => m = .restarting) (.seeing (some known) (some d))
      (Program.startLocked limits next auto) := by
  have asks := asks_startLocked limits next auto
  rintro ⟨active, monitored⟩ rfl
  rintro ⟨active, monitored'⟩ rfl
  refine ⟨d, .restarting, rfl, .restarts rfl h, fun a => ?_⟩
  exact .restarting (((asks.2 ⟨some d, monitored⟩).2 ⟨some d, monitored'⟩).2 a) fun _ => rfl

theorem heeds_reportStatus {status : Status} (hs : status = .connected ∨ status = .reconnecting)
    (reported : Option Descriptor) :
    Heeds (fun active m => ∃ reported, m = .apart reported ∧
      (status = .connected → ∀ d, active = some d → reported = some d)) (.apart reported)
      (Program.reportStatus status) := by
  rintro ⟨active, monitored⟩
  cases active with
  | none => exact ⟨reported, rfl, fun _ _ hd => absurd hd nofun⟩
  | some d =>
      rcases hs with rfl | rfl
      · refine ⟨d, _, rfl, .connected, fun _ => ⟨d, _, rfl, .shows (.inl rfl), fun _ => ?_⟩⟩
        exact ⟨rfl, some d, rfl, fun _ _ hd => hd⟩
      · refine ⟨d, _, rfl, .reconnecting, fun _ => ⟨d, _, rfl, .shows (.inr rfl), fun _ => ?_⟩⟩
        exact ⟨rfl, reported, rfl, nofun⟩

theorem heeds_recordUdp (d : Descriptor) (udp : Bool) :
    Heeds (fun _ m => m = .apart (some d)) (.apart (some d)) (Program.recordUdp d udp) := by
  rintro ⟨active, monitored⟩
  show Heeds _ _ (if Descriptor.isSame active d then _ else _)
  split
  case isTrue h =>
    cases active with
    | none => cases h
    | some active =>
        refine ⟨active, _, rfl, .looks rfl, fun previous => ?_⟩
        exact ⟨active, _, rfl, .records udp rfl h, fun _ => rfl⟩
  case isFalse => exact rfl

theorem heeds_restartIfActive (limits : Limits) (d : Descriptor) :
    Heeds (fun _ m => ∃ reported, m = .apart reported) (.apart (some d))
      (Program.restartIfActive limits d) := by
  rintro ⟨active, monitored⟩
  show Heeds _ _ (if Descriptor.isSame active d then _ else _)
  split
  case isTrue h =>
    cases active with
    | none => cases h
    | some active =>
        refine .bind ((heeds_startLocked limits false h).mono fun code m hm => ?_)
        subst hm
        exact ⟨none, rfl⟩
  case isFalse => exact ⟨_, rfl⟩

/-- A measurement leaves alone what the lock guards. -/
theorem heeds_probeUdp (span : Option Time) (proxy : SocketAddress) (reported : Option Descriptor) :
    Heeds (fun _ m => m = .apart reported) (.apart reported) (Program.probeUdp span proxy) := by
  refine .bind (.free rfl fun udp => .bind ?_)
  refine ⟨rfl, fun start => ⟨rfl, fun joined => ?_⟩⟩
  cases (joined : Pool.Joined Bool) <;> exact ⟨rfl, fun _ => rfl⟩

theorem heeds_recheckUdp (limits : Limits) (d : Descriptor) :
    Heeds (fun _ m => ∃ reported, m = .apart reported) (.apart (some d))
      (Program.recheckUdp limits d) := by
  refine .bind (.free rfl fun proxy => .bind ((heeds_probeUdp _ _ _).mono fun udp m hm => ?_))
  subst hm
  refine .bind ((heeds_recordUdp d udp).mono fun previous m hm => ?_)
  subst hm
  cases previous with
  | none => exact ⟨_, rfl⟩
  | some previous =>
      dsimp only
      split
      · exact .bind ((heeds_restartIfActive limits d).mono fun code m hm => hm)
      · exact ⟨_, rfl⟩

/-- **A reactor heeds what it knows**, whatever the event. -/
theorem heeds_react (limits : Limits) (e : NetworkEvent) :
    Heeds (fun _ m => ∃ reported, m = .apart reported) (.apart none) (Program.react limits e) := by
  cases e with
  | available network =>
      refine .bind (.free rfl fun state => ?_)
      split
      case isFalse => exact ⟨_, rfl⟩
      case isTrue =>
        refine .bind ((heeds_reportStatus (.inl rfl) none).mono fun active m hm => ?_)
        obtain ⟨reported, rfl, hr⟩ := hm
        cases active with
        | none => exact ⟨_, rfl⟩
        | some d =>
            rw [hr rfl d rfl]
            exact .bind (.free rfl fun _ => heeds_recheckUdp limits d)
  | lost network =>
      refine .bind (.free rfl fun state => ?_)
      split
      case isTrue => exact ⟨_, rfl⟩
      case isFalse =>
        refine .bind ((heeds_reportStatus (.inr rfl) none).mono fun active m hm => ?_)
        obtain ⟨reported, rfl, -⟩ := hm
        cases active with
        | none => exact ⟨_, rfl⟩
        | some d => exact .bind (.free rfl fun _ => ⟨_, rfl⟩)

end TunnelKeeper.Service
