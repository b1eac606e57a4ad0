import TunnelKeeper.Proofs.Proxy.Templates
import TunnelKeeper.Proofs.Text.Numerals
import TunnelKeeper.Proxy.Arguments

/-!
# Filling in — one name after the other

The arguments of the proxy are not filled in at once, but six times, each time for one name.  In
between, what was put in for one name is read as a template for the next.  This comes to the same if
what is put in makes no later name, neither by itself nor with letters of the template in front of
it (`Template.Harmless`).  Then at every time the names that can be found are the names of the
template that are still to be filled in (`Template.replace_midway`).

* `Template.foldl_fill`: to fill in one name after the other, where nothing makes a later name.
* `Template.spell_injective`: what is spelled tells what a name of the template stands for.
* `ProxySettings.default_arguments`: the arguments where the settings give none.
* `ProxySettings.arguments_filled_in`: what becomes of any arguments for a tunnel.
* `ProxySettings.password_read_as_template`: they are not always the template filled in at once.
-/

namespace TunnelKeeper

namespace Template

variable {names : List Name} {values : Name → List Char} {s : List Char}

/-! ### One name after the other -/

/-- What names stand for while some of them are still to be filled in. -/
def midway (values : Name → List Char) (missing : List Name) (n : Name) : List Char :=
  if n ∈ missing then n.pattern else values n

/-- A text in front of others has a name in front only where it makes that name. -/
theorem Apart.absent {text rest : List Char} {after : List Piece} {n : Name}
    (h : Apart text after n) (hrest : after = [] → rest = []) : ¬n.pattern <+: text ++ rest := by
  intro hp
  obtain hfound | hbegun := List.prefix_or_prefix_of_prefix hp (List.prefix_append text rest)
  · exact h.1 hfound
  · by_cases hafter : after = []
    · rw [hrest hafter, List.append_nil] at hp
      exact h.1 hp
    · exact h.2 hafter hbegun

/-- What is found midway through a template and has no brace stands there from the beginning, or a
name that has been filled in is next. -/
theorem prefix_midway {missing : List Name} {letters : List Char} (hbrace : '\x7b' ∉ letters)
    {pieces : List Piece} (h : letters <+: spell (midway values missing) pieces) :
    letters <+: spell Name.pattern pieces ∨
      ∃ m front after, next? values pieces = some (m, front, after) ∧ m ∉ missing ∧
        letters <+: front ++ spell (midway values missing) after := by
  induction pieces generalizing letters with
  | nil => exact .inl h
  | cons piece pieces ih =>
      cases letters with
      | nil => exact .inl List.nil_prefix
      | cons c letters =>
          cases piece with
          | letter d =>
              obtain ⟨rfl, hrest⟩ := List.cons_prefix_cons.1 h
              obtain hrest | ⟨m, front, after, hnext, hin, hrest⟩ :=
                ih (fun hc => hbrace (List.mem_cons_of_mem _ hc)) hrest
              · exact .inl (List.cons_prefix_cons.2 ⟨rfl, hrest⟩)
              · refine .inr ⟨m, c :: front, after, ?_, hin, List.cons_prefix_cons.2 ⟨rfl, hrest⟩⟩
                rw [next?, hnext, Option.map_some]
          | name m =>
              rw [spell, midway] at h
              split at h
              case isTrue =>
                -- The name begins with a brace.
                rw [m.pattern_eq.1, List.cons_append, List.cons_prefix_cons] at h
                exact absurd (h.1 ▸ List.mem_cons_self) hbrace
              case isFalse hm => exact .inr ⟨m, _, _, rfl, hm, h⟩

/-- **A name that is filled in is found where the template has it**, and nowhere else. -/
theorem replace_midway (n : Name) {pieces : List Piece} (hscan : pieces <:+ scan Name.all s)
    (hharmless : Harmless values pieces) :
    replace n.pattern (values n) (spell (midway values (n :: n.later)) pieces) =
      spell (midway values n.later) pieces := by
  have hend : ∀ {after : List Piece}, after = [] → spell (midway values (n :: n.later)) after = [] :=
    fun h => h ▸ rfl
  induction pieces with
  | nil => rfl
  | cons piece pieces ih =>
      have hrest := ih ((List.suffix_cons piece pieces).trans hscan)
      cases piece with
      | letter c =>
          obtain ⟨hhere, hafter⟩ := hharmless
          have hnot : ¬n.pattern <+: c :: spell (midway values (n :: n.later)) pieces := by
            intro hp
            obtain ⟨hn, hbrace⟩ := n.pattern_eq
            rw [hn, List.cons_prefix_cons] at hp
            obtain ⟨rfl, hp⟩ := hp
            obtain hp | ⟨m, front, after, hnext, hin, hp⟩ := prefix_midway hbrace hp
            · obtain ⟨before, hs⟩ := hscan
              refine not_name_of_letter hs.symm n.mem_all ?_
              rw [hn]
              exact List.cons_prefix_cons.2 ⟨rfl, hp⟩
            · refine (hhere _ hnext n (Name.later_or hin)).absent hend ?_
              rw [hn]
              exact List.cons_prefix_cons.2 ⟨rfl, hp⟩
          rw [spell, replace_letter hnot, hrest hafter, spell]
      | name m =>
          obtain ⟨hhere, hafter⟩ := hharmless
          by_cases hm : m = n
          · subst hm
            rw [spell, midway, if_pos List.mem_cons_self, replace_found m.pattern_ne_nil,
              hrest hafter, spell, midway, if_neg m.not_later_self]
          · have hsame : midway values (n :: n.later) m = midway values n.later m := by
              simp only [midway, List.mem_cons, hm, false_or]
            have hquiet : ∀ tail, tail <:+ midway values n.later m → tail ≠ [] →
                ¬n.pattern <+: tail ++ spell (midway values (n :: n.later)) pieces := by
              intro tail htail hne hp
              unfold midway at htail
              split at htail
              case isTrue =>
                obtain ⟨hfound, hbegun⟩ := Name.apart hm tail htail hne
                exact (List.prefix_or_prefix_of_prefix hp (List.prefix_append _ _)).elim hfound hbegun
              case isFalse hin =>
                have hlater : n ∈ m.later :=
                  Name.later_or fun h => (List.mem_cons.1 h).elim hm hin
                exact (hhere tail ((List.mem_tails _ _).2 htail) hne n hlater).absent hend hp
            rw [spell, hsame, replace_quiet hquiet, hrest hafter, spell]

/-- **To fill in one name after the other is to fill in all at once**, where nothing that is put in
makes a later name. -/
theorem foldl_fill (h : Harmless values (scan Name.all s)) :
    Name.all.foldl (fun text n => fill [n] values text) s = fill Name.all values s := by
  -- The template while some names are missing: at first all are, in the end none.
  let text (missing : List Name) := spell (midway values missing) (scan Name.all s)
  have first : text Name.all = s := by
    have hall : midway values Name.all = Name.pattern := funext fun n => if_pos n.mem_all
    simp only [text, hall, spell_scan]
  have step (n : Name) : fill [n] values (text (n :: n.later)) = text n.later :=
    (replace_eq_fill values n _).symm.trans (replace_midway n (List.suffix_refl _) h)
  have run : ∀ missing n, n :: n.later = missing →
      missing.foldl (fun text n => fill [n] values text) (text missing) = text [] := by
    intro missing
    induction missing with
    | nil => nofun
    | cons m missing ih =>
        intro n h
        obtain ⟨rfl, rfl⟩ := List.cons.inj h
        rw [List.foldl_cons, step]
        cases n with
        | localPort => rfl
        | host => exact ih .port rfl
        | port => exact ih .password rfl
        | password => exact ih .method rfl
        | method => exact ih .localAddr rfl
        | localAddr => exact ih .localPort rfl
  have whole := run Name.all .host rfl
  rwa [first] at whole

/-! ### Values -/

variable {values' : Name → List Char}

theorem length_spell_le (h : ∀ m, (values m).length ≤ (values' m).length) (pieces : List Piece) :
    (spell values pieces).length ≤ (spell values' pieces).length := by
  induction pieces with
  | nil => exact Nat.le_refl _
  | cons piece pieces ih =>
      cases piece with
      | letter c => exact Nat.succ_le_succ ih
      | name m =>
          simp only [spell, List.length_append]
          exact Nat.add_le_add (h m) ih

/-- A longer value makes a longer text where the template has its name. -/
theorem length_spell_lt (h : ∀ m, (values m).length ≤ (values' m).length) {n : Name}
    (hn : (values n).length < (values' n).length) {pieces : List Piece} (hin : .name n ∈ pieces) :
    (spell values pieces).length < (spell values' pieces).length := by
  induction pieces with
  | nil => cases hin
  | cons piece pieces ih =>
      obtain rfl | hrest := List.mem_cons.1 hin
      · simp only [spell, List.length_append]
        exact Nat.add_lt_add_of_lt_of_le hn (length_spell_le h pieces)
      · cases piece with
        | letter c => exact Nat.succ_lt_succ (ih hrest)
        | name m =>
            simp only [spell, List.length_append]
            exact Nat.add_lt_add_of_le_of_lt (h m) (ih hrest)

/-- So where two texts are the same, neither value is longer. -/
theorem length_le_of_spell {n : Name} (hsame : ∀ m, m ≠ n → values m = values' m)
    {pieces : List Piece} (hin : .name n ∈ pieces)
    (h : spell values pieces = spell values' pieces) :
    (values' n).length ≤ (values n).length := by
  by_contra hlt
  have hle : ∀ m, (values m).length ≤ (values' m).length := by
    intro m
    by_cases hm : m = n
    · exact hm ▸ (not_le.1 hlt).le
    · exact (congrArg List.length (hsame m hm)).le
  exact (length_spell_lt hle (not_le.1 hlt) hin).ne (congrArg List.length h)

/-- **The text tells what a name stands for** where the template has the name and the other values
are known. -/
theorem spell_injective {n : Name} (hsame : ∀ m, m ≠ n → values m = values' m)
    {pieces : List Piece} (hin : .name n ∈ pieces)
    (h : spell values pieces = spell values' pieces) : values n = values' n := by
  have hlength : (values n).length = (values' n).length := Nat.le_antisymm
    (length_le_of_spell (fun m hm => (hsame m hm).symm) hin h.symm) (length_le_of_spell hsame hin h)
  induction pieces with
  | nil => cases hin
  | cons piece pieces ih =>
      cases piece with
      | letter c =>
          obtain hc | hrest := List.mem_cons.1 hin
          · cases hc
          · exact ih hrest (List.cons.inj h).2
      | name m =>
          obtain hm | hrest := List.mem_cons.1 hin
          · cases hm
            exact List.append_inj_left h hlength
          · have hmlength : (values m).length = (values' m).length := by
              by_cases hm : m = n
              · exact hm ▸ hlength
              · rw [hsame m hm]
            exact ih hrest (List.append_inj_right h hmlength)

/-- A text without braces is no template. -/
theorem fill_plain (h : '\x7b' ∉ s) (values : Name → List Char) (n : Name) :
    fill [n] values s = s := by
  have hquiet : ∀ tail, tail <:+ s → tail ≠ [] → ¬n.pattern <+: tail ++ [] := by
    intro tail htail _ hp
    rw [n.pattern_eq.1, List.append_nil] at hp
    exact h (htail.subset (hp.subset List.mem_cons_self))
  have hkept := replace_quiet hquiet (values n)
  rwa [List.append_nil, replace_eq_fill, show replace n.pattern (values n) [] = [] from rfl,
    List.append_nil] at hkept

/-- A name that stands alone makes no later name unless its value holds one. -/
theorem harmless_alone {m : Name} (h : ∀ n ∈ m.later, ¬n.pattern <:+: values m) :
    Harmless values [.name m] := by
  refine ⟨fun tail htail _ n hn => ⟨fun hp => h n hn ?_, fun hafter => absurd rfl hafter⟩, trivial⟩
  exact hp.isInfix.trans ((List.mem_tails _ _).1 htail).isInfix

end Template

namespace Settings.ProxySettings

open Template

/-! ### The arguments of the proxy -/

/-- What the names of the arguments stand for. -/
def standFor (s : ProxySettings) (host : String) (port : UInt16) (password : String)
    (method? : Option String) : Name → List Char
  | .host => host.toList
  | .port => Digits.ofNat port.toNat
  | .password => password.toList
  | .method => (method?.getD s.defaultMethod).toList
  | .localAddr => s.localAddr.ip.chars
  | .localPort => Digits.ofNat s.localAddr.port.toNat

variable {config : TunnelConfig} {host password : String} {port : UInt16}

/-- The arguments are filled in for one name after the other. -/
theorem renderArgs_eq (s : ProxySettings) (hhost : config.host = .ok host)
    (hport : config.port = .ok port) (hpassword : config.password = .ok password) :
    s.renderArgs config = .ok (s.args.map fun arg => String.ofList (Name.all.foldl
      (fun text n => fill [n] (s.standFor host port password config.method?) text) arg.toList)) := by
  simp only [renderArgs, substitutions, hhost, hport, hpassword, ← replace_eq_fill]
  rfl

/-- A numeral holds no name. -/
theorem not_infix_numeral (k : Nat) (n : Name) : ¬n.pattern <:+: Digits.ofNat k := by
  intro h
  have hbrace : '\x7b' ∈ n.pattern := n.pattern_eq.1 ▸ List.mem_cons_self
  exact absurd (Digits.isDigit_of_mem_ofNat (h.subset hbrace)) (by decide)

/-- **The arguments without settings of their own** are the parts of the tunnel as they are, unless
one of them holds a later name. -/
theorem default_arguments (hhost : config.host = .ok host) (hport : config.port = .ok port)
    (hpassword : config.password = .ok password)
    (hquiet : ∀ m ∈ [Name.host, .password, .method], ∀ n ∈ m.later,
      ¬n.pattern <:+: standFor {} host port password config.method? m) :
    ({} : ProxySettings).renderArgs config = .ok
      ["-s", host, "-p", Digits.text port.toNat, "-k", password,
       "-m", config.method?.getD "chacha20-ietf-poly1305", "-b", "127.0.0.1", "-l", "1081", "-u"] := by
  have hall : ∀ m : Name, ∀ n ∈ m.later,
      ¬n.pattern <:+: standFor {} host port password config.method? m := by
    intro m
    cases m with
    | host | password | method => exact hquiet _ (by decide)
    | port => exact fun n _ => not_infix_numeral _ n
    | localAddr => exact (by decide : ∀ n ∈ Name.localAddr.later, ¬n.pattern <:+: "127.0.0.1".toList)
    | localPort => nofun
  let filled (text : List Char) : List Char :=
    Name.all.foldl (fun text n => fill [n] (standFor {} host port password config.method?) text) text
  have hvalue (m : Name) :
      filled m.pattern = standFor {} host port password config.method? m := by
    have hscan : scan Name.all m.pattern = [.name m] := by cases m <;> decide
    simp only [filled]
    rw [foldl_fill (hscan ▸ harmless_alone (hall m)), fill, hscan, spell, spell, List.append_nil]
  have hflag {flag : List Char} (h : '\x7b' ∉ flag) : filled flag = flag := by
    simp only [filled, Name.all, List.foldl_cons, List.foldl_nil, fill_plain h]
  have hargs : ({} : ProxySettings).args.map String.toList =
      ["-s".toList, Name.host.pattern, "-p".toList, Name.port.pattern, "-k".toList,
       Name.password.pattern, "-m".toList, Name.method.pattern, "-b".toList, Name.localAddr.pattern,
       "-l".toList, Name.localPort.pattern, "-u".toList] := by decide
  have hmap : ({} : ProxySettings).args.map (fun arg => String.ofList (filled arg.toList)) =
      (({} : ProxySettings).args.map String.toList).map fun text => String.ofList (filled text) := by
    rw [List.map_map]
    rfl
  rw [renderArgs_eq {} hhost hport hpassword]
  refine congrArg Except.ok (hmap.trans ?_)
  rw [hargs]
  simp (disch := decide) only [List.map_cons, List.map_nil, hvalue, hflag, String.ofList_toList,
    standFor]
  rfl

/-- **What becomes of the arguments for a tunnel.**  For a tunnel with a host, a port and a password
there always are arguments: each is filled in for one name after the other.  Where what is put in
makes no later name, this is the argument with each name that it has replaced by what the name
stands for, and everything else kept.  An argument of this kind that has the password in it differs
for two tunnels that differ in the password alone. -/
theorem arguments_filled_in (s : ProxySettings) (hhost : config.host = .ok host)
    (hport : config.port = .ok port) (hpassword : config.password = .ok password) :
    s.renderArgs config = .ok (s.args.map fun arg => String.ofList (Name.all.foldl
      (fun text n => fill [n] (s.standFor host port password config.method?) text) arg.toList)) ∧
    (∀ arg : String,
      Harmless (s.standFor host port password config.method?) (scan Name.all arg.toList) →
      Name.all.foldl (fun text n => fill [n] (s.standFor host port password config.method?) text)
        arg.toList = fill Name.all (s.standFor host port password config.method?) arg.toList) ∧
    ∀ (other : TunnelConfig) (secret : String), other.host = .ok host → other.port = .ok port →
      other.method? = config.method? → other.password = .ok secret → secret ≠ password →
      (∃ arg ∈ s.args, .name .password ∈ scan Name.all arg.toList ∧
        Harmless (s.standFor host port password config.method?) (scan Name.all arg.toList) ∧
        Harmless (s.standFor host port secret config.method?) (scan Name.all arg.toList)) →
      s.renderArgs other ≠ s.renderArgs config := by
  refine ⟨s.renderArgs_eq hhost hport hpassword, fun arg => foldl_fill, ?_⟩
  rintro other secret hohost hoport homethod hopassword hsecret ⟨arg, harg, hin, hhere, hthere⟩ hsame
  rw [s.renderArgs_eq hhost hport hpassword, s.renderArgs_eq hohost hoport hopassword, homethod,
    Except.ok.injEq] at hsame
  have htext := String.ofList_injective (List.map_inj_left.1 hsame arg harg)
  rw [foldl_fill hhere, foldl_fill hthere] at htext
  have hvalue : secret.toList = password.toList := spell_injective (n := .password) (fun m hm => by
    cases m <;> first | rfl | exact absurd rfl hm) hin htext
  exact hsecret (String.toList_injective hvalue)

/-- The tunnel with a host, a port and a password. -/
def plainTunnel (password : String) : TunnelConfig :=
  ⟨[("host", .text "1.2.3.4"), ("port", .number (.natural 8388)), ("password", .text password)]⟩

/-- The proxy with one argument. -/
def oneArgument (arg : String) : ProxySettings := { args := [arg] }

/-- Braces and earlier names in a password are kept, and tell it from another one. -/
theorem odd_password_kept :
    (oneArgument "\x7bpassword\x7d@\x7bhost\x7d").renderArgs (plainTunnel "\x7bport\x7d\x7b-") =
      .ok ["\x7bport\x7d\x7b-@1.2.3.4"] ∧
    (oneArgument "\x7bpassword\x7d@\x7bhost\x7d").renderArgs (plainTunnel "8388\x7b-") ≠
      (oneArgument "\x7bpassword\x7d@\x7bhost\x7d").renderArgs
        (plainTunnel "\x7bport\x7d\x7b-") := by
  obtain ⟨hargs, hfill, hdiffer⟩ := arguments_filled_in
    (oneArgument "\x7bpassword\x7d@\x7bhost\x7d")
    (show (plainTunnel "\x7bport\x7d\x7b-").host = .ok "1.2.3.4" from rfl)
    (show (plainTunnel "\x7bport\x7d\x7b-").port = .ok 8388 from rfl)
    (show (plainTunnel "\x7bport\x7d\x7b-").password = .ok "\x7bport\x7d\x7b-" from rfl)
  constructor
  · rw [hargs]
    decide
  · exact hdiffer _ "8388\x7b-" rfl rfl rfl rfl (by decide)
      ⟨_, List.mem_cons_self, by decide, by decide, by decide⟩

/-- **What a password holds is read as a template**: a password that is the name of the method is
replaced by the method, and is lost. -/
theorem password_read_as_template :
    (plainTunnel "\x7bmethod\x7d").password ≠ (plainTunnel "chacha20-ietf-poly1305").password ∧
    (oneArgument "\x7bpassword\x7d").renderArgs (plainTunnel "\x7bmethod\x7d") =
      .ok ["chacha20-ietf-poly1305"] ∧
    (oneArgument "\x7bpassword\x7d").renderArgs (plainTunnel "chacha20-ietf-poly1305") =
      .ok ["chacha20-ietf-poly1305"] ∧
    fill Name.all ((oneArgument "\x7bpassword\x7d").standFor "1.2.3.4" 8388 "\x7bmethod\x7d" none)
      "\x7bpassword\x7d".toList = "\x7bmethod\x7d".toList := by
  decide

end Settings.ProxySettings

end TunnelKeeper
