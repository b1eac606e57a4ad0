import TunnelKeeper.Check.Scene

/-!
# Streams — what an exchange reads, and what it leaves

Nothing is sent while an exchange only reads.  So what it finds on the stream is settled when it
begins (`Scene.coming`), and all that it does to the scene is to leave less of that
(`Scene.leave`).  An exchange may be known to read exactly some bytes (`Reads`): it stops behind
them, whatever follows, and where only a part of them comes in it finds the stream too short.

* `play_receive`: what reading so many bytes finds.
* `Reads.bind`: what one exchange leaves is what the next one finds.
* `play_bind_ok`: an exchange of two parts goes well only if both do.
-/

namespace TunnelKeeper.Check

variable {α β : Type} {s s' : Scene}

namespace Scene

/-! ### What comes in -/

/-- What there is to read as long as nothing is sent. -/
def coming (s : Scene) : List UInt8 := s.incoming ++ (ready s.sent.length s.parts).1

/-- The same scene with other bytes to read. -/
def leave (s : Scene) (rest : List UInt8) : Scene :=
  { s with incoming := rest, parts := (ready s.sent.length s.parts).2 }

/-- Why whoever wants more than there is to read does not get it. -/
def shortage (s : Scene) : Error :=
  if (ready s.sent.length s.parts).2.isEmpty && s.closes then .endOfStream else .timedOut

/-- What is not ready yet stays so as long as nothing is sent. -/
theorem ready_ready (got : Nat) (parts : List (Nat × List UInt8)) :
    ready got (ready got parts).2 = ([], (ready got parts).2) := by
  induction parts with
  | nil => rfl
  | cons part parts ih =>
      obtain ⟨least, bytes⟩ := part
      by_cases h : least ≤ got
      · simpa only [ready, if_pos h] using ih
      · simp only [ready, if_neg h]

@[simp] theorem coming_leave (s : Scene) (rest : List UInt8) : (s.leave rest).coming = rest := by
  simp only [coming, leave, ready_ready, List.append_nil]

@[simp] theorem leave_leave (s : Scene) (rest rest' : List UInt8) :
    (s.leave rest).leave rest' = s.leave rest' := by
  simp only [leave, ready_ready]

@[simp] theorem shortage_leave (s : Scene) (rest : List UInt8) :
    (s.leave rest).shortage = s.shortage := by
  simp only [shortage, leave, ready_ready]

/-! ### Reading -/

/-- The shortest part of so many bytes has just so many. -/
theorem splitAt_length (count : Nat) (bytes : List UInt8) : ∀ seen : List UInt8,
    seen.length ≤ count → splitAt (fun bytes => count ≤ bytes.length) seen bytes =
      if count ≤ seen.length + bytes.length then
        some (seen.reverse ++ bytes.take (count - seen.length), bytes.drop (count - seen.length))
      else none := by
  induction bytes with
  | nil =>
      intro seen hle
      simp [splitAt]
  | cons b bytes ih =>
      intro seen hle
      by_cases h : count ≤ seen.length
      · have hzero : count - seen.length = 0 := Nat.sub_eq_zero_of_le h
        simp [splitAt, h, hzero, Nat.le_add_right_of_le h]
      · have hlt : seen.length + 1 ≤ count := Nat.lt_of_not_le h
        have hrest : count - seen.length = count - (seen.length + 1) + 1 := by omega
        have hstep := ih (b :: seen) hlt
        simp only [splitAt, List.length_reverse, h, decide_false, Bool.false_eq_true, if_false]
        rw [hstep, List.length_cons, List.length_cons, hrest, Nat.add_right_comm, ← Nat.add_assoc]
        simp

/-- **What reading so many bytes finds.** -/
theorem play_receive (s : Scene) (count : Nat) : s.play (Exchange.receive count) =
    if count ≤ s.coming.length then
      (.ok (s.coming.take count), s.leave (s.coming.drop count))
    else (.error s.shortage, s.leave []) := by
  have hsplit := splitAt_length count s.coming [] (Nat.zero_le _)
  rw [List.length_nil, Nat.zero_add, Nat.sub_zero, List.reverse_nil, List.nil_append] at hsplit
  show s.receive (fun bytes => count ≤ bytes.length) = _
  unfold receive
  by_cases h : count ≤ s.coming.length
  · rw [if_pos h] at hsplit ⊢
    unfold coming at hsplit
    simp only [hsplit]
    rfl
  · rw [if_neg h] at hsplit ⊢
    unfold coming at hsplit
    simp only [hsplit]
    rfl

theorem play_receive_ok {count : Nat} {bytes : List UInt8} :
    s.play (Exchange.receive count) = (.ok bytes, s') ↔
      bytes.length = count ∧ ∃ rest, s.coming = bytes ++ rest ∧ s' = s.leave rest := by
  rw [play_receive]
  constructor
  · intro h
    split at h
    case isTrue hle =>
      cases h
      refine ⟨List.length_take_of_le hle, s.coming.drop count, ?_, rfl⟩
      exact (List.take_append_drop count s.coming).symm
    case isFalse => cases h
  · rintro ⟨rfl, rest, hs, rfl⟩
    rw [hs, if_pos (by simp), List.take_left, List.drop_left]

/-! ### One exchange after the other -/

theorem play_bind (s : Scene) (e : Exchange α) (f : α → Exchange β) :
    s.play (e >>= f) = match s.play e with
      | (.ok a, s') => s'.play (f a)
      | (.error error, s') => (.error error, s') := by
  refine (Dialogue.run_bind respond s e.run (ExceptT.bindCont f)).trans ?_
  unfold play
  generalize e.run.run respond s = first
  obtain ⟨_ | a, s'⟩ := first <;> rfl

/-- An exchange of two parts goes well only if both do. -/
theorem play_bind_ok {e : Exchange α} {f : α → Exchange β} {b : β} :
    s.play (e >>= f) = (.ok b, s') ↔
      ∃ a between, s.play e = (.ok a, between) ∧ between.play (f a) = (.ok b, s') := by
  rw [play_bind]
  rcases s.play e with ⟨_ | a, between⟩
  · exact ⟨nofun, fun ⟨_, _, h, _⟩ => nomatch h⟩
  · refine ⟨fun h => ⟨a, between, rfl, h⟩, fun ⟨_, _, h, hrest⟩ => ?_⟩
    cases h
    exact hrest

end Scene

/-! ### Exact readers -/

/-- **An exchange reads exactly some bytes**, and makes a result of them. -/
structure Reads (e : Exchange α) (bytes : List UInt8) (a : α) : Prop where
  /-- It leaves what follows them, -/
  whole : ∀ (s : Scene) rest, s.coming = bytes ++ rest → s.play e = (.ok a, s.leave rest)
  /-- and it does not get along with a part of them. -/
  part : ∀ s : Scene, s.coming <+: bytes → s.coming ≠ bytes →
    s.play e = (.error s.shortage, s.leave [])

namespace Reads

variable {e : Exchange α} {bytes bytes' : List UInt8} {a : α} {b : β}

theorem receive {count : Nat} (h : bytes.length = count) :
    Reads (Exchange.receive count) bytes bytes where
  whole _ rest hs := Scene.play_receive_ok.2 ⟨h, rest, hs, rfl⟩
  part s hs hne := by
    have hlt : s.coming.length < count :=
      h ▸ Nat.lt_of_le_of_ne hs.length_le fun he => hne (hs.eq_of_length he)
    rw [Scene.play_receive, if_neg (Nat.not_le_of_lt hlt)]

/-- **What one exchange leaves is what the next one finds.** -/
theorem bind {f : α → Exchange β} (h : Reads e bytes a) (hf : Reads (f a) bytes' b) :
    Reads (e >>= f) (bytes ++ bytes') b where
  whole s rest hs := by
    have hfirst := h.whole s (bytes' ++ rest) (hs.trans (List.append_assoc ..))
    have hsecond := hf.whole _ rest (s.coming_leave (bytes' ++ rest))
    rw [Scene.play_bind, hfirst]
    simpa only [Scene.leave_leave] using hsecond
  part s hs hne := by
    rw [Scene.play_bind]
    by_cases hb : bytes <+: s.coming
    · obtain ⟨rest, hrest⟩ := hb
      have hshort : rest <+: bytes' := (List.prefix_append_right_inj bytes).1 (hrest ▸ hs)
      have hsecond := hf.part (s.leave rest) (by rwa [Scene.coming_leave]) fun he =>
        hne (by rw [← hrest, ← he, Scene.coming_leave])
      rw [h.whole s rest hrest.symm]
      simpa only [Scene.leave_leave, Scene.shortage_leave] using hsecond
    · have hshort : s.coming <+: bytes :=
        (List.prefix_or_prefix_of_prefix hs (List.prefix_append bytes bytes')).resolve_right hb
      rw [h.part s hshort fun he => hb (he ▸ List.prefix_rfl)]

/-- What is made of the result needs no more bytes. -/
theorem result (h : Reads e bytes a) {f : α → Exchange β} (hf : f a = pure b) :
    Reads (e >>= f) bytes b where
  whole s rest hs := by
    rw [Scene.play_bind, h.whole s rest hs]
    exact congrArg (s.leave rest).play hf
  part s hs hne := by rw [Scene.play_bind, h.part s hs hne]

end Reads

end TunnelKeeper.Check
