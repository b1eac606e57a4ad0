import TunnelKeeper.Proofs.Service.Kept
import TunnelKeeper.Proofs.Service.Questions

/-!
# Assuming — what a program achieves, told from its text

A program that gets the lock more than once may find another session each time.  While nobody else
gets the lock, what a task leaves behind in one section it finds in the next one, so that it can be
told from the text of a program what the program has achieved when it is done.  How collaborators
answer, and what units of work come to, may be assumed (`Assumption`).

* `Given A post units p`: the result of `p`, and the units that it has handed in, are in `post`.
* `Achieves A post units m c p`: from the custody `c`, with the lock or without it, `p` ends without
  the lock, and in `post`.
* `Achieves.held`: what a section secures, and what is given of its result, goes on to hold.
-/

namespace TunnelKeeper.Service

variable {α β : Type}

/-! ### What is assumed -/

/-- What is assumed of the answers that a task gets. -/
structure Assumption where
  /-- How collaborators answer. -/
  rely : Surroundings → Prop := fun _ => True
  /-- What units of work give to whoever waits for them, where that is assumed. -/
  outcome : Work → Option Bool := fun _ => none

/-- The units of work that a task has handed in. -/
abbrev Units := UnitId → Option Work

/-- One more unit. -/
def Units.add (units : Units) (id : UnitId) (work : Work) : Units :=
  fun i => if i = id then some work else units i

/-- The units that a task has handed in after an answer. -/
def Units.after (units : Units) : (q : Ask) → q.Answer → Units
  | .spawn work, id => units.add id work
  | _, _ => units

/-- A task that has handed in `units` may be answered so. -/
def Assumption.Allows (A : Assumption) (units : Units) : (q : Ask) → q.Answer → Prop
  | .spawn _, id => units id = none
  | .join id _, joined => ∀ work b, units id = some work → A.outcome work = some b →
    joined = .value b
  | .call k, a => ∃ c : Custody, ∃ around, A.rely around ∧ c.answer around k = a
  | _, _ => True

/-- **What is given of a program**: it ends in `post`, where all its answers are as assumed. -/
def Given (A : Assumption) (post : Units → α → Prop) : Units → Program α → Prop
  | units, .done a => post units a
  | units, .ask q next => ∀ a, A.Allows units q a → Given A post (units.after q a) (next a)

/-- What a question of a task demands, with the lock or without it, so that `K` holds of the answer,
of what is pending then, and of the custody. -/
def Assumption.Poses (A : Assumption) (units : Units) : Option (Option Pending) → Custody →
    (q : Ask) → (q.Answer → Option (Option Pending) → Custody → Prop) → Prop
  | none, c, .lock, K => K () (some none) c
  | none, c, q, K => q.isFree = true ∧ ∀ a, A.Allows units q a → K a none c
  | some none, c, .unlock, K => K () none c
  | some none, c, q, K =>
    Terms.loose.Asked none c q fun a o c => A.Allows units q a → K a (some o) c
  | some (some p), c, q, K => q.isAbout p.id = true ∧ ∀ o₁ c₁, Drifts (some p) c o₁ c₁ →
    Terms.loose.Asked o₁ c₁ q fun a o c => A.Allows units q a → K a (some o) c

/-- **What a program achieves**, without the lock or with it and what is pending then. -/
def Achieves (A : Assumption) (post : Units → α → Custody → Prop) :
    Units → Option (Option Pending) → Custody → Program α → Prop
  | units, m, c, .done a => m = none ∧ post units a c
  | units, m, c, .ask q next =>
    A.Poses units m c q fun a m c => Achieves A post (units.after q a) m c (next a)

variable {A : Assumption} {units : Units}

theorem Assumption.Poses.mono {m : Option (Option Pending)} {c : Custody} {q : Ask}
    {K L : q.Answer → Option (Option Pending) → Custody → Prop} (h : ∀ a m c, K a m c → L a m c)
    (hK : A.Poses units m c q K) : A.Poses units m c q L := by
  match m with
  | none =>
      cases q with
      | lock => exact h _ _ _ hK
      | _ => exact ⟨hK.1, fun a ha => h _ _ _ (hK.2 a ha)⟩
  | some none =>
      cases q with
      | lock => exact hK.elim
      | unlock => exact h _ _ _ hK
      | _ =>
          exact Terms.Asked.mono (T := .loose) (o := none)
            (K := fun a o c => A.Allows units _ a → K a (some o) c)
            (fun a o c hK ha => h _ _ _ (hK ha)) hK
  | some (some p) =>
      exact ⟨hK.1, fun o₁ c₁ hd =>
        Terms.Asked.mono (fun a o c hK ha => h _ _ _ (hK ha)) (hK.2 o₁ c₁ hd)⟩

namespace Given

theorem mono {post post' : Units → α → Prop} (h : ∀ units a, post units a → post' units a)
    {p : Program α} (hp : Given A post units p) : Given A post' units p := by
  induction p generalizing units with
  | done a => exact h units a hp
  | ask q next ih => exact fun a ha => ih a (hp a ha)

/-- Of a program that asks only what is allowed, the units that it hands in are given. -/
theorem of_asks {allowed : Ask → Prop} {p : Program α} (hp : Asks allowed p) :
    Given A (fun units' _ => ∀ id work, units' id = some work →
      units id = some work ∨ allowed (.spawn work)) units p := by
  induction p generalizing units with
  | done a => exact fun id work h => .inl h
  | ask q next ih =>
      refine fun a _ => (ih a (hp.2 a)).mono fun units' _ h id work hw => ?_
      rcases h id work hw with h | h
      · cases q with
        | spawn work' =>
            have h : units.add a work' id = some work := h
            unfold Units.add at h
            split at h
            · cases h
              exact .inr hp.1
            · exact .inl h
        | _ => exact .inl h
      · exact .inr h

/-- One program after the other. -/
theorem bind {post : Units → β → Prop} {f : α → Program β} {p : Program α}
    (hp : Given A (fun units a => Given A post units (f a)) units p) :
    Given A post units (p.bind f) := by
  induction p generalizing units with
  | done a => exact hp
  | ask q next ih => exact fun a ha => ih a (hp a ha)

/-- What hands nothing in makes no difference to what is given. -/
theorem skip {post : Units → β → Prop} {f : α → Program β} {p : Program α}
    (hp : StartAsks (fun _ => false) true p) (hf : ∀ a, Given A post units (f a)) :
    Given A post units (p.bind f) := by
  induction p with
  | done a => exact hf a
  | ask q next ih =>
      intro a _
      have next : Given A post units ((next a).bind f) := ih a (hp.2 a)
      cases q with
      | spawn => exact absurd hp.1 nofun
      | _ => exact next

end Given

namespace Achieves

variable {post : Units → α → Custody → Prop} {c : Custody}

theorem lock {f : Unit → Program α} (h : Achieves A post units (some none) c (f ())) :
    Achieves A post units none c (Program.lock.bind f) :=
  h

theorem unlock {f : Unit → Program α} (h : Achieves A post units none c (f ())) :
    Achieves A post units (some none) c (Program.unlock.bind f) :=
  h

theorem mono {post' : Units → α → Custody → Prop}
    (h : ∀ units a c, post units a c → post' units a c) {m : Option (Option Pending)}
    {p : Program α} (hp : Achieves A post units m c p) : Achieves A post' units m c p := by
  induction p generalizing units m c with
  | done a => exact ⟨hp.1, h units a c hp.2⟩
  | ask q next ih => exact Assumption.Poses.mono (fun a _ _ => ih a) hp

/-- A question apart from the lock. -/
theorem free {q : Ask} {f : q.Answer → Program α} (hq : q.isFree = true)
    (h : ∀ a, A.Allows units q a → Achieves A post (units.after q a) none c (f a)) :
    Achieves A post units none c ((Dialogue.question q).bind f) := by
  cases q with
  | lock => cases hq
  | _ => exact ⟨hq, h⟩

theorem session {f : Session → Program α} (h : Achieves A post units (some none) c (f c.session)) :
    Achieves A post units (some none) c (Program.session.bind f) :=
  fun _ => h

/-- A call of a collaborator, which answers as assumed. -/
theorem call {k : Call} {f : k.Answer → Program α}
    (h : ∀ a, Terms.loose.Answers c k a → A.Allows units (.call k) a →
      Achieves A post units (some none) (c.afterAll (Act.ofCall k a)) (f a)) :
    Achieves A post units (some none) c ((Program.call k).bind f) :=
  fun a ha => (Terms.along_of_always fun _ => trivial).2 (h a ha)

theorem publishStatus {status : Status} {f : Unit → Program α}
    (h : Achieves A post units (some none) (c.after (.publishStatus status)) (f ())) :
    Achieves A post units (some none) c ((Program.publishStatus status).bind f) :=
  ⟨trivial, fun _ => h⟩

/-- One program after the other, without the lock between them. -/
theorem bind {post : Units → β → Custody → Prop} {f : α → Program β}
    {m : Option (Option Pending)} {p : Program α}
    (hp : Achieves A (fun units a c => Achieves A post units none c (f a)) units m c p) :
    Achieves A post units m c (p.bind f) := by
  induction p generalizing units m c with
  | done a =>
      obtain ⟨rfl, h⟩ := hp
      exact h
  | ask q next ih => exact Assumption.Poses.mono (fun a _ _ => ih a) hp

/-- **What a section secures, and what is given of it**, the program goes on with. -/
theorem held {post : Units → β → Custody → Prop} {secured : α → Custody → Prop}
    {given : Units → α → Prop} {f : α → Program β} {o : Option Pending} {p : Program α}
    (hs : Terms.loose.Secures secured o p c) (hg : Given A given units p)
    (h : ∀ a c units, secured a c → given units a → Achieves A post units (some none) c (f a)) :
    Achieves A post units (some o) c (p.bind f) := by
  induction p generalizing o units c with
  | done a =>
      obtain ⟨rfl, hs⟩ := hs
      exact h a c units hs hg
  | ask q next ih =>
      cases o with
      | none =>
          cases q with
          | unlock => exact hs.elim
          | _ =>
              exact Terms.Asked.mono (T := .loose) (o := none) (c := c)
                (K := fun a o c => Terms.loose.Secures secured o (next a) c)
                (fun a o c hs ha => ih a hs (hg a ha)) hs
      | some p =>
          exact ⟨hs.1, fun o₁ c₁ hd =>
            Terms.Asked.mono (fun a o c hs ha => ih a hs (hg a ha)) (hs.2 o₁ c₁ hd).2⟩

/-- **Drifting loses nothing.** -/
theorem of_drift {o o' : Option Pending} {p : Program α} {c' : Custody}
    (hp : Achieves A post units (some o) c p) (hd : Drifts o c o' c') :
    Achieves A post units (some o') c' p := by
  cases o with
  | none =>
      obtain ⟨rfl, rfl⟩ := hd.none_inv
      exact hp
  | some u =>
      obtain ⟨u', rfl, hu⟩ := hd.some_inv
      cases p with
      | done a => exact absurd hp.1 nofun
      | ask q next => exact ⟨hu ▸ hp.1, fun o₁ c₁ hd' => hp.2 o₁ c₁ (hd.trans hd')⟩

end Achieves

end TunnelKeeper.Service
