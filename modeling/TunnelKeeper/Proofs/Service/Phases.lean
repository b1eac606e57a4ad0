import TunnelKeeper.Proofs.Service.Publishing

/-!
# Phases — how a start replaces a tunnel

A start that finds a tunnel active goes through phases (`Handover`).  Everybody sees the old tunnel,
then the new one, and no tunnel only where the start takes everything down, which it does after it
has announced that it failed.

* `HandsOver old d post x p`: the program `p` keeps to the phases from `x` on.
* `HandsOver.startLocked`: every start does, and shows the new tunnel if it can go on.
-/

namespace TunnelKeeper.Service

variable {α β : Type} {old : Option Descriptor} {d : Descriptor}

/-! ### Phases -/

/-- How far a start has come. -/
inductive Handover where
  /-- The old tunnel is active still, -/
  | before
  /-- and in the session only, while everybody sees the new one. -/
  | ahead
  /-- The new tunnel is active. -/
  | shown
  /-- It is, and the host knows that the start has failed. -/
  | failed
  /-- Everybody sees that there is no tunnel, which is in the session still. -/
  | fading
  /-- There is no tunnel. -/
  | gone

namespace Handover

/-- What everybody sees. -/
def visible (old : Option Descriptor) (d : Descriptor) : Handover → Option Descriptor
  | before => old
  | ahead | shown | failed => some d
  | fading | gone => none

/-- What is in the session. -/
def active (old : Option Descriptor) (d : Descriptor) : Handover → Option Descriptor
  | before | ahead => old
  | shown | failed | fading => some d
  | gone => none

/-- Phases in which different tunnels are seen, in order. -/
def rank : Handover → Nat
  | before => 0
  | ahead | shown | failed => 1
  | fading | gone => 2

/-- Whether the host knows that the start has failed. -/
def isTold : Handover → Bool
  | before | ahead | shown => false
  | failed | fading | gone => true

end Handover

/-- An event that tells that the start of a tunnel has failed. -/
def TellsFailure (d : Descriptor) (e : Event) : Prop :=
  ∃ code : ErrorCode, e = .started (some d.id) code ∧ code.isContinuable = false

/-- What may be asked in a phase, so that `K` holds of the answer and of the phase then. -/
def Handover.Poses (old : Option Descriptor) (d : Descriptor) : Handover → (q : Ask) →
    (q.Answer → Handover → Prop) → Prop
  | x, .session, K => ∀ session : Session, session.active = x.active old d → K session x
  | .before, .publishActive active, K => active = some d ∧ K () .ahead
  | .ahead, .setActive active, K => active = some d ∧ K () .shown
  | .shown, .call (.emit e), K => K () .shown ∨ (TellsFailure d e ∧ K () .failed)
  | .failed, .publishActive active, K => active = none ∧ K () .fading
  | .fading, .setActive active, K => active = none ∧ K () .gone
  | x, q, K => q.isMild = true ∧ ∀ a, K a x

/-- **A program keeps to the phases**, and ends in one in which `post` holds. -/
def HandsOver (old : Option Descriptor) (d : Descriptor) (post : α → Handover → Prop) :
    Handover → Program α → Prop
  | x, .done a => post a x
  | x, .ask q next => x.Poses old d q fun a x => HandsOver old d post x (next a)

namespace HandsOver

variable {post : α → Handover → Prop} {x : Handover}

theorem poses_mono {q : Ask} {K L : q.Answer → Handover → Prop} (h : ∀ a x, K a x → L a x)
    (hK : x.Poses old d q K) : x.Poses old d q L := by
  cases q with
  | session => exact fun session hs => h _ _ (hK session hs)
  | publishActive | setActive =>
      cases x <;> first | exact ⟨hK.1, h _ _ hK.2⟩ | exact ⟨hK.1, fun a => h _ _ (hK.2 a)⟩
  | call k =>
      cases k with
      | emit e =>
          cases x with
          | shown => exact hK.imp (h _ _) fun hK => ⟨hK.1, h _ _ hK.2⟩
          | _ => exact ⟨hK.1, fun a => h _ _ (hK.2 a)⟩
      | _ => cases x <;> exact ⟨hK.1, fun a => h _ _ (hK.2 a)⟩
  | _ => cases x <;> exact ⟨hK.1, fun a => h _ _ (hK.2 a)⟩

theorem bind {post : β → Handover → Prop} {f : α → Program β} {p : Program α}
    (hp : HandsOver old d (fun a x => HandsOver old d post x (f a)) x p) :
    HandsOver old d post x (p.bind f) := by
  induction p generalizing x with
  | done a => exact hp
  | ask q next ih => exact poses_mono (fun a _ => ih a) hp

/-- What is tacit is no matter. -/
theorem poses_tacit {q : Ask} {K : q.Answer → Handover → Prop} (hq : q.isTacit = true)
    (h : ∀ a, K a x) : x.Poses old d q K := by
  cases q with
  | lock | unlock | publishActive | setActive => cases hq
  | session => exact fun session _ => h session
  | call k =>
      cases k with
      | emit e => cases hq
      | _ => cases x <;> exact ⟨rfl, h⟩
  | _ => cases x <;> exact ⟨rfl, h⟩

theorem tacit {p : Program α} (hp : Tacit p) (h : ∀ a, post a x) : HandsOver old d post x p := by
  induction p with
  | done a => exact h a
  | ask q next ih => exact poses_tacit hp.1 fun a => ih a (hp.2 a)

/-- What comes after a part that is no matter. -/
theorem after {post : β → Handover → Prop} {f : α → Program β} {p : Program α} (hp : Tacit p)
    (h : ∀ a, HandsOver old d post x (f a)) : HandsOver old d post x (p.bind f) :=
  .bind (.tacit hp h)

/-- Everything is taken down, once the host knows. -/
theorem tearDown {post : Unit → Handover → Prop} (h : post () .gone) :
    HandsOver old d post .failed Program.tearDown := by
  refine .after (tacit_slowly rfl) fun _ => .after (tacit_slowly rfl) fun _ => ?_
  refine .after (tacit_slowly rfl) fun _ => .after (.question rfl) fun _ => ?_
  refine .bind ⟨rfl, rfl, ?_⟩
  refine .after tacit_stopMonitoring fun _ => .after (.question rfl) fun _ => ?_
  exact .tacit (tacit_write _) fun _ => h

theorem activeId {post : Option String → Handover → Prop}
    (h : post ((x.active old d).map (·.id)) x) : HandsOver old d post x Program.activeId := by
  intro session hs
  rw [← hs] at h
  exact h

theorem failStart {post : ErrorCode → Handover → Prop} {code : ErrorCode}
    (hc : code.isContinuable = false) (h : post code .gone) :
    HandsOver old d post .shown (Program.failStart code) := by
  refine .bind (.activeId (.bind ?_))
  exact .inr ⟨⟨code, rfl, hc⟩, .bind (.tearDown h)⟩

/-- A start that is not to fail ends with its tunnel active. -/
def Ends (code : ErrorCode) (x : Handover) : Prop := code.isContinuable = true → x = .shown

theorem failStart_ends {code : ErrorCode} (hc : code.isContinuable = false) :
    HandsOver old d Ends .shown (Program.failStart code) :=
  .failStart hc fun h => nomatch hc.symm.trans h

theorem connectOver (code : ErrorCode) (udp : Bool) :
    HandsOver old d Ends .shown (Program.connectOver d code udp) := by
  refine .after (.question rfl) fun proxy => .after (tacit_slowly rfl) fun connected => ?_
  cases connected with
  | false => exact failStart_ends rfl
  | true =>
      refine .bind (.activeId (.bind (.inl ?_)))
      refine .after (.question rfl) fun _ => .after (.question rfl) fun _ => ?_
      exact .after (tacit_storeActive d udp) fun _ _ => rfl

theorem connectTunnel (auto : Bool) (code : ErrorCode) :
    HandsOver old d Ends .shown (Program.connectTunnel d auto code) := by
  cases auto with
  | true => exact .after (.question rfl) (connectOver code)
  | false => exact connectOver code _

theorem launch (limits : Limits) (auto restart : Bool) :
    HandsOver old d Ends .shown (Program.launch limits d auto restart) := by
  refine .after (tacit_startProxy _ _ _) fun code => ?_
  split
  case isTrue hc => exact failStart_ends (by simpa using hc)
  split
  · exact .after (tacit_slowly rfl) fun _ => connectTunnel _ _
  · refine .after (tacit_slowly rfl) fun up => ?_
    cases up with
    | true => exact .after tacit_startMonitoring fun _ => connectTunnel _ _
    | false => exact failStart_ends rfl

/-- **A start keeps to the phases.** -/
theorem startLocked (limits : Limits) (auto : Bool) :
    HandsOver old d Ends .before (Program.startLocked limits d auto) := by
  have opened : ∀ restart, HandsOver old d Ends .before (Program.setActive (some d) >>= fun _ =>
      Program.publishStatus .connecting >>= fun _ => Program.launch limits d auto restart) := by
    intro restart
    refine .bind ⟨rfl, rfl, ?_⟩
    exact .after (.question rfl) fun _ => launch limits auto restart
  refine .after (.question rfl) fun session => ?_
  cases session.active with
  | none => exact opened false
  | some _ =>
      refine .after tacit_activeId fun _ => .bind ⟨rfl, fun _ => ?_⟩
      exact .after (.question rfl) fun _ => opened true

end HandsOver

end TunnelKeeper.Service
