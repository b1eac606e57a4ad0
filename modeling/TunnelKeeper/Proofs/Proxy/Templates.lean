import Mathlib.Data.List.Infix
import TunnelKeeper.Proxy.Arguments

/-!
# Templates — names and other letters

A template is read once, from left to right: a name that stands in it is one piece, and so is every
other letter (`Template.scan`).  To fill it in is to spell its pieces, each name by what it stands
for (`Template.fill`).

* `Template.spell_scan`: a template whose names stand for themselves is itself.
* `Template.replace_eq_fill`: to replace one name is to fill it in alone.
-/

namespace TunnelKeeper.Template

/-! ### Templates and their names -/

/-- What a template can name. -/
inductive Name where
  | host
  | port
  | password
  | method
  | localAddr
  | localPort
deriving DecidableEq, Repr

namespace Name

/-- How a name is written. -/
def pattern : Name → List Char
  | host => braced "host"
  | port => braced "port"
  | password => braced "password"
  | method => braced "method"
  | localAddr => braced "local_addr"
  | localPort => braced "local_port"

/-- All names, in the order in which they are filled in. -/
def all : List Name := [host, port, password, method, localAddr, localPort]

/-- The names that are filled in after one. -/
def later : Name → List Name
  | host => [port, password, method, localAddr, localPort]
  | port => [password, method, localAddr, localPort]
  | password => [method, localAddr, localPort]
  | method => [localAddr, localPort]
  | localAddr => [localPort]
  | localPort => []

/-- The name that a text begins with, of some names. -/
def at? (names : List Name) (s : List Char) : Option Name :=
  names.find? fun n => n.pattern.isPrefixOf s

end Name

/-- A piece of a template. -/
inductive Piece where
  | letter (c : Char)
  | name (n : Name)
deriving DecidableEq, Repr

/-- The pieces of a template in which some names are known; `skip` more letters belong to the name
that was found last. -/
def scanFrom (names : List Name) : (skip : Nat) → List Char → List Piece
  | _, [] => []
  | skip + 1, _ :: rest => scanFrom names skip rest
  | 0, c :: rest =>
    match Name.at? names (c :: rest) with
    | some n => .name n :: scanFrom names (n.pattern.length - 1) rest
    | none => .letter c :: scanFrom names 0 rest

/-- The pieces of a template, which is read once from left to right. -/
def scan (names : List Name) (s : List Char) : List Piece := scanFrom names 0 s

/-- What pieces spell where each name stands for a text. -/
def spell (values : Name → List Char) : List Piece → List Char
  | [] => []
  | .letter c :: pieces => c :: spell values pieces
  | .name n :: pieces => values n ++ spell values pieces

/-- **A template filled in**: each name in it gives way to what it stands for, all at once. -/
def fill (names : List Name) (values : Name → List Char) (s : List Char) : List Char :=
  spell values (scan names s)

/-- The next name of a template, the letters up to it with what it stands for, and the pieces that
follow it. -/
def next? (values : Name → List Char) : List Piece → Option (Name × List Char × List Piece)
  | [] => none
  | .letter c :: pieces => (next? values pieces).map fun (m, front, after) => (m, c :: front, after)
  | .name m :: pieces => some (m, values m, pieces)

/-- **A text makes no name**: the name does not stand at its front, nor is the text the beginning of
the name where pieces follow that could complete it. -/
def Apart (text : List Char) (after : List Piece) (n : Name) : Prop :=
  ¬n.pattern <+: text ∧ (after ≠ [] → ¬text <+: n.pattern)

instance (text : List Char) (after : List Piece) (n : Name) : Decidable (Apart text after n) :=
  inferInstanceAs (Decidable (_ ∧ _))

/-- **What is put into a template makes no later name**, neither by itself, nor with the letters in
front of it. -/
def Harmless (values : Name → List Char) : List Piece → Prop
  | [] => True
  | .letter c :: pieces =>
    (∀ found ∈ next? values pieces, ∀ n ∈ found.1.later, Apart (c :: found.2.1) found.2.2 n) ∧
      Harmless values pieces
  | .name m :: pieces =>
    (∀ tail ∈ (values m).tails, tail ≠ [] → ∀ n ∈ m.later, Apart tail pieces n) ∧
      Harmless values pieces

instance decidableHarmless (values : Name → List Char) :
    ∀ pieces, Decidable (Harmless values pieces)
  | [] => .isTrue trivial
  | .letter _ :: pieces =>
    have := decidableHarmless values pieces
    inferInstanceAs (Decidable (_ ∧ _))
  | .name _ :: pieces =>
    have := decidableHarmless values pieces
    inferInstanceAs (Decidable (_ ∧ _))

/-! ### Names -/

/-- A name is written with a brace in front, and no other. -/
theorem Name.pattern_eq (n : Name) :
    n.pattern = '\x7b' :: n.pattern.tail ∧ '\x7b' ∉ n.pattern.tail := by
  cases n <;> decide

theorem Name.pattern_ne_nil (n : Name) : n.pattern ≠ [] := by
  rw [n.pattern_eq.1]
  nofun

theorem Name.mem_all (n : Name) : n ∈ all := by
  cases n <;> decide

/-- Of two names, one is filled in later. -/
theorem Name.later_or {m n : Name} (h : m ∉ n :: n.later) : n ∈ m.later := by
  revert h
  cases m <;> cases n <;> decide

theorem Name.not_later_self (n : Name) : n ∉ n.later := by
  cases n <;> decide

/-- No other name stands in a name, nor begins in it. -/
theorem Name.apart {m n : Name} (h : m ≠ n) :
    ∀ tail, tail <:+ m.pattern → tail ≠ [] → ¬n.pattern <+: tail ∧ ¬tail <+: n.pattern := by
  simp only [← List.mem_tails]
  revert h
  cases m <;> cases n <;> decide

/-! ### Reading templates -/

variable {names : List Name} {values : Name → List Char} {s : List Char}

theorem scanFrom_append (names : List Name) (skipped rest : List Char) :
    scanFrom names skipped.length (skipped ++ rest) = scan names rest := by
  induction skipped with
  | nil => rfl
  | cons c skipped ih => exact ih

theorem scan_letter {c : Char} (h : Name.at? names (c :: s) = none) :
    scan names (c :: s) = .letter c :: scan names s := by
  simp only [scan, scanFrom, h]

theorem scan_name {n : Name} (h : Name.at? names (n.pattern ++ s) = some n) :
    scan names (n.pattern ++ s) = .name n :: scan names s := by
  obtain ⟨c, letters, hn⟩ := List.exists_cons_of_ne_nil n.pattern_ne_nil
  have hskip := scanFrom_append names letters s
  rw [hn] at h ⊢
  simp only [scan, scanFrom, List.cons_append] at h hskip ⊢
  rw [h]
  simp only [hn, List.length_cons, Nat.add_sub_cancel, hskip]

/-- **What a template begins with**: a name, or a letter with which no name begins. -/
theorem scan_cases (names : List Name) (s : List Char) :
    s = [] ∨
    (∃ n rest, n ∈ names ∧ s = n.pattern ++ rest ∧ scan names s = .name n :: scan names rest) ∨
    ∃ c rest, s = c :: rest ∧ Name.at? names s = none ∧
      scan names s = .letter c :: scan names rest := by
  cases s with
  | nil => exact .inl rfl
  | cons c rest =>
      cases h : Name.at? names (c :: rest) with
      | none => exact .inr (.inr ⟨c, rest, rfl, rfl, scan_letter h⟩)
      | some n =>
          have hfound : n.pattern.isPrefixOf (c :: rest) = true :=
            List.find?_some (p := fun n : Name => n.pattern.isPrefixOf (c :: rest)) h
          obtain ⟨after, hs⟩ := List.isPrefixOf_iff_prefix.1 hfound
          refine .inr (.inl ⟨n, after, List.mem_of_find?_eq_some h, hs.symm, ?_⟩)
          rw [← hs] at h ⊢
          exact scan_name h

/-- Templates are read from their front. -/
theorem scan_induction {P : List Char → Prop} (names : List Name) (nil : P [])
    (name : ∀ n rest, n ∈ names → scan names (n.pattern ++ rest) = .name n :: scan names rest →
      P rest → P (n.pattern ++ rest))
    (letter : ∀ c rest, Name.at? names (c :: rest) = none →
      scan names (c :: rest) = .letter c :: scan names rest → P rest → P (c :: rest))
    (s : List Char) : P s := by
  induction hk : s.length using Nat.strong_induction_on generalizing s with
  | _ k ih =>
      subst hk
      obtain rfl | ⟨n, rest, hn, rfl, hscan⟩ | ⟨c, rest, rfl, hat, hscan⟩ := scan_cases names s
      · exact nil
      · refine name n rest hn hscan (ih _ ?_ rest rfl)
        rw [List.length_append]
        exact Nat.lt_add_of_pos_left (List.length_pos_of_ne_nil n.pattern_ne_nil)
      · exact letter c rest hat hscan (ih _ (Nat.lt_succ_self _) rest rfl)

/-- Nothing of a template gets lost. -/
theorem spell_scan (names : List Name) (s : List Char) :
    spell Name.pattern (scan names s) = s := by
  induction s using scan_induction names with
  | nil => rfl
  | name n rest _ hscan ih => rw [hscan, spell, ih]
  | letter c rest _ hscan ih => rw [hscan, spell, ih]

/-- No name stands where a letter was read. -/
theorem not_name_of_letter {c : Char} {before after : List Piece}
    (h : scan names s = before ++ .letter c :: after) {n : Name} (hn : n ∈ names) :
    ¬n.pattern <+: c :: spell Name.pattern after := by
  induction s using scan_induction names generalizing before with
  | nil => cases before <;> cases h
  | name m rest _ hscan ih =>
      rw [hscan] at h
      cases before with
      | nil => cases h
      | cons piece before => exact ih (List.cons.inj h).2
  | letter d rest hat hscan ih =>
      rw [hscan] at h
      cases before with
      | nil =>
          obtain ⟨hd, rfl⟩ := List.cons.inj h
          cases hd
          rw [spell_scan]
          intro hp
          have hfound := List.find?_eq_none.1 hat n hn
          exact hfound (List.isPrefixOf_iff_prefix.2 hp)
      | cons piece before => exact ih (List.cons.inj h).2

/-! ### Replacing -/

variable {pattern value : List Char}

theorem replaceFrom_append (pattern value skipped rest : List Char) :
    replaceFrom pattern value skipped.length (skipped ++ rest) = replace pattern value rest := by
  induction skipped with
  | nil => rfl
  | cons c skipped ih => exact ih

/-- A pattern that is found gives way to the value, -/
theorem replace_found (h : pattern ≠ []) (value rest : List Char) :
    replace pattern value (pattern ++ rest) = value ++ replace pattern value rest := by
  obtain ⟨c, letters, rfl⟩ := List.exists_cons_of_ne_nil h
  have hskip := replaceFrom_append (c :: letters) value letters rest
  have hp : (c :: letters).isPrefixOf (c :: (letters ++ rest)) = true :=
    List.isPrefixOf_iff_prefix.2 ⟨rest, rfl⟩
  simp only [replace, List.cons_append, replaceFrom, hp, if_true, List.length_cons,
    Nat.add_sub_cancel, hskip]

/-- and a letter with which it does not begin is kept. -/
theorem replace_letter {c : Char} {rest : List Char} (h : ¬pattern <+: c :: rest)
    (value : List Char) :
    replace pattern value (c :: rest) = c :: replace pattern value rest := by
  have hp : pattern.isPrefixOf (c :: rest) = false := by
    rw [← Bool.not_eq_true, List.isPrefixOf_iff_prefix]
    exact h
  simp only [replace, replaceFrom, hp, Bool.false_eq_true, if_false]

/-- So is a text in which it does not begin, whatever follows it. -/
theorem replace_quiet {text rest : List Char}
    (h : ∀ tail, tail <:+ text → tail ≠ [] → ¬pattern <+: tail ++ rest) (value : List Char) :
    replace pattern value (text ++ rest) = text ++ replace pattern value rest := by
  induction text with
  | nil => rfl
  | cons c text ih =>
      have hhere : ¬pattern <+: c :: (text ++ rest) := h _ (List.suffix_refl _) nofun
      have hrest := ih fun tail ht => h tail (ht.trans (List.suffix_cons c text))
      rw [List.cons_append, replace_letter hhere, hrest, List.cons_append]

/-- **To replace one name is to fill it in**, and no other. -/
theorem replace_eq_fill (values : Name → List Char) (n : Name) (s : List Char) :
    replace n.pattern (values n) s = fill [n] values s := by
  unfold fill
  induction s using scan_induction [n] with
  | nil => rfl
  | name m rest hm hscan ih =>
      obtain rfl := List.mem_singleton.1 hm
      rw [hscan, replace_found m.pattern_ne_nil, ih, spell]
  | letter c rest hat hscan ih =>
      have hnot : ¬n.pattern <+: c :: rest := fun hp =>
        List.find?_eq_none.1 hat n List.mem_cons_self (List.isPrefixOf_iff_prefix.2 hp)
      rw [hscan, replace_letter hnot, ih, spell]

end TunnelKeeper.Template
