import TunnelKeeper.Daemon.Startup
import TunnelKeeper.Proofs.Settings.Acceptance
import TunnelKeeper.Proofs.Text.Utf8
import TunnelKeeper.Proofs.Workers.Conservation
import TunnelKeeper.Proofs.Workers.Permits

/-!
# Assembling — which accepted settings a service can be built from

A service is built from a pool of as many workers as the settings say, the limits they give, and a
timer that looks at the route.  Accepted settings have no timer without a span and no pool that is
too small, since both are checked; so what is left to go wrong is a pool that is too large
(`assemble?_eq_none_iff`), which is not checked.

* `Assembly.Serves`: what is built serves the settings.  Its pool has as many workers as they say,
  no more and no less: all permits are free or held, in whatever is made of the pool, and where work
  waits although nobody has a turn to take, all of them are at work.
* `Startup.prepare_eq_broken_iff`: of all that a command line can lead to, the daemon ends because
  the service cannot be built exactly if the settings name a pool that is too large.
* `accepted_settings_assemble`: both, for a text that is accepted and a command line that names it.

`enormous_pool_breaks` is an accepted text that the daemon ends over.
-/

namespace TunnelKeeper.Pool

variable {ω α : Type} {size : Nat} {labels : List (Label ω α)} {p : Pool ω α}

/-- A size that is large enough is taken as it is. -/
theorem ofSize?_of_le (hleast : leastSize ≤ size) (hgreatest : size ≤ greatestSize) :
    (ofSize? size : Option (Pool ω α)) = some (ofSize size) := by
  rw [ofSize?, Nat.max_eq_left hleast, if_pos hgreatest]

theorem ofSize?_of_lt (h : greatestSize < size) : (ofSize? size : Option (Pool ω α)) = none :=
  if_neg (Nat.not_le.2 (Nat.lt_of_lt_of_le h (Nat.le_max_left size leastSize)))

/-- In whatever is made of a pool, its permits are free or held. -/
theorem free_add_running (hleast : leastSize ≤ size)
    (h : (ofSize size : Pool ω α).run? labels = some p) : p.free + p.running = size := by
  have hsize : p.size = size := (size_run h).trans (Nat.max_eq_left hleast)
  exact ((Sound.ofSize size).run h).permits.trans hsize

end TunnelKeeper.Pool

namespace TunnelKeeper.Daemon

open Files (Directory Path)
open Settings (ServiceSettings Format)
open Store (FileStore)

variable {s : ServiceSettings} {f : Format} {text : String} {dir : Directory} {words : List String}

/-- What is built from settings does what they say. -/
structure Assembly.Serves (a : Assembly) (s : ServiceSettings) : Prop where
  limits : a.limits = ⟨s.proxyStartTimeoutMs, s.probeTimeoutMs⟩
  pollMs : a.pollMs = s.route.intervalMs
  /-- No worker is missing, and there are no others. -/
  workers : ∀ {labels p}, a.pool.run? labels = some p → p.free + p.running = s.poolSize
  /-- Once nobody has a turn to take, work waits only where all workers are busy. -/
  busy : ∀ {labels p id}, a.pool.run? labels = some p → p.Settled →
    p.stage? id = some .waiting → p.running = s.poolSize

/-! ### Building -/

/-- From valid settings whose pool is not too large a service can be built. -/
theorem exists_assembly (h : s.Valid) (hgreatest : s.poolSize ≤ Pool.greatestSize) :
    ∃ a, assemble? s = some a ∧ a.Serves s := by
  refine ⟨⟨.ofSize s.poolSize, ⟨s.proxyStartTimeoutMs, s.probeTimeoutMs⟩, s.route.intervalMs,
    h.interval⟩, ?_, rfl, rfl, Pool.free_add_running h.poolSize, ?_⟩
  · rw [assemble?, Pool.ofSize?_of_le h.poolSize hgreatest]
    simp [h.interval]
  · intro labels p id hrun hsettled hwaiting
    have hfree := ((Pool.Sound.ofSize s.poolSize).run hrun).no_permit hsettled hwaiting
    have hpermits := Pool.free_add_running h.poolSize hrun
    omega

theorem assemble?_of_lt (h : Pool.greatestSize < s.poolSize) : assemble? s = none := by
  rw [assemble?, Pool.ofSize?_of_lt h]
  rfl

/-- A pool that is too large is all that a service cannot be built for. -/
theorem assemble?_eq_none_iff (h : s.Valid) :
    assemble? s = none ↔ Pool.greatestSize < s.poolSize := by
  refine ⟨fun hnone => Nat.not_le.1 fun hle => ?_, assemble?_of_lt⟩
  obtain ⟨a, ha, -⟩ := exists_assembly h hle
  rw [hnone] at ha
  cases ha

/-! ### Starting -/

namespace Startup

theorem valid_default : ({} : ServiceSettings).Valid := ⟨by decide, by decide, by decide⟩

/-- The settings of a file are those of a text in one of the formats, and so they are valid. -/
theorem valid_of_ofFile {name : String} {content : Option (List UInt8)}
    (h : ServiceSettings.ofFile name content = .ok s) : s.Valid := by
  unfold ServiceSettings.ofFile at h
  split at h
  · cases h
  · split at h <;> exact (ServiceSettings.accept_eq_ok_iff.1 h).2

/-- The settings of a command line are valid: those of a file were checked, and so are the
defaults. -/
theorem valid_of_settings? {a : Arguments} (h : settings? a dir = some s) : s.Valid := by
  suffices hread : ∃ read : ServiceSettings, read.Valid ∧
      s = { read with controlAddr := a.control.getD read.controlAddr } by
    obtain ⟨read, hvalid, rfl⟩ := hread
    exact ⟨hvalid.poolSize, hvalid.program, hvalid.interval⟩
  unfold settings? at h
  cases hconfig : a.config with
  | none =>
      rw [hconfig] at h
      exact ⟨{}, valid_default, (Option.some.inj h).symm⟩
  | some name =>
      cases hfile : ServiceSettings.ofFile name (dir.read (Path.ofText name)).toOption with
      | ok read =>
          simp only [hconfig, hfile] at h
          exact ⟨read, valid_of_ofFile hfile, (Option.some.inj h).symm⟩
      | error e =>
          simp only [hconfig, hfile] at h
          cases h

/-- **The daemon breaks exactly over a pool that is too large**, once it has settings and a
store. -/
theorem prepare_eq_broken_iff {binds : SocketAddress → Bool} :
    prepare words dir binds = .error .broken ↔
      ∃ a s store, Arguments.read words = .ok a ∧ settings? a dir = some s ∧
        FileStore.open? dir (Path.ofText s.statePath) = .ok store ∧
        Pool.greatestSize < s.poolSize := by
  have hthrow : ∀ {α : Type} (e : Ending), (throw e : Except Ending α) = .error e := fun _ => rfl
  cases hread : Arguments.read words with
  | error e => cases e <;> simp [prepare, hread, hthrow, bind, Except.bind]
  | ok a =>
      cases hsettings : settings? a dir with
      | none => simp [prepare, hread, hsettings, hthrow]
      | some s =>
          cases hstore : FileStore.open? dir (Path.ofText s.statePath) with
          | error e => simp [prepare, hread, hsettings, hstore, hthrow]
          | ok store =>
              have hbroken := assemble?_eq_none_iff (valid_of_settings? hsettings)
              cases hassembly : assemble? s with
              | none =>
                  simp [prepare, hread, hsettings, hstore, hassembly, hbroken.1 hassembly, hthrow]
              | some assembly =>
                  have hle : ¬Pool.greatestSize < s.poolSize := fun hgreat => by
                    rw [hbroken.2 hgreat] at hassembly
                    cases hassembly
                  cases hbinds : binds s.controlAddr <;>
                    simp [prepare, hread, hsettings, hstore, hassembly, hle, hbinds, hthrow,
                      bind, Except.bind, pure, Except.pure]

/-- A command line names a file that holds a text in a format. -/
def Names (words : List String) (dir : Directory) (f : Format) (text : String) (a : Arguments) :
    Prop :=
  Arguments.read words = .ok a ∧ ∃ name, a.config = some name ∧
    (ServiceSettings.isJsonName name.toList = true ↔ f = .json) ∧
    dir.read (Path.ofText name) = .ok (Utf8.ofText text)

theorem settings?_of_names {a : Arguments} (hnames : Names words dir f text a)
    (h : f.read text = .ok s) :
    settings? a dir = some { s with controlAddr := a.control.getD s.controlAddr } := by
  obtain ⟨-, name, hconfig, hname, hfile⟩ := hnames
  have hread : ServiceSettings.ofFile name (dir.read (Path.ofText name)).toOption = .ok s := by
    have hcontent : (some (Utf8.ofText text)).bind Utf8.text? = some text := Utf8.text?_ofText text
    rw [hfile, Except.toOption, ServiceSettings.ofFile, hcontent]
    cases f with
    | json => simpa [Format.read, hname.2 rfl] using h
    | toml =>
        have hother : ServiceSettings.isJsonName name.toList = false :=
          Bool.eq_false_iff.2 fun hjson => nomatch hname.1 hjson
        simpa [Format.read, hother] using h
  simp [settings?, hconfig, hread]

end Startup

/-- **Accepted settings can be started**, as long as there can be a pool of their size: what is
built from them serves them.  Otherwise nothing can be built, and a daemon that is given them
breaks. -/
theorem accepted_settings_assemble (h : f.read text = .ok s) :
    (s.poolSize ≤ Pool.greatestSize → ∃ a, assemble? s = some a ∧ a.Serves s) ∧
      (Pool.greatestSize < s.poolSize → assemble? s = none) ∧
      ∀ {words dir binds a}, Startup.Names words dir f text a →
        (Startup.prepare words dir binds = .error .broken ↔
          (∃ store, FileStore.open? dir (Path.ofText s.statePath) = .ok store) ∧
            Pool.greatestSize < s.poolSize) := by
  have hvalid := (ServiceSettings.read_eq_ok_iff.1 h).2
  refine ⟨exists_assembly hvalid, assemble?_of_lt, fun {words dir binds a} hnames => ?_⟩
  have hsettings := Startup.settings?_of_names hnames h
  rw [Startup.prepare_eq_broken_iff]
  constructor
  · rintro ⟨a', s', store, hread, hsettings', hstore, hgreat⟩
    cases hnames.1.symm.trans hread
    cases hsettings.symm.trans hsettings'
    exact ⟨⟨store, hstore⟩, hgreat⟩
  · rintro ⟨⟨store, hstore⟩, hgreat⟩
    exact ⟨a, _, store, hnames.1, hsettings, hstore, hgreat⟩

/-! ### The greatest pool -/

/-- A directory with nothing but settings. -/
def configured (text : String) : Directory := ⟨[(["c.json"], .file (Utf8.ofText text))]⟩

/-- The name of the settings is a path of one name. -/
theorem ofText_configName : Path.ofText "c.json" = ["c.json"] := by
  have hsplit : "c.json".splitOn "/" = ["c.json"] := by
    rw [String.splitOn, if_neg (by decide)]
    iterate 6 rw [String.splitOnAux, if_neg (by decide +kernel), if_neg (by decide +kernel)]
    rw [String.splitOnAux, if_pos (by decide +kernel)]
    decide +kernel
  rw [Path.ofText, hsplit]
  decide +kernel

/-- So is the name of the state. -/
theorem ofText_stateName : Path.ofText "s" = ["s"] := by
  have hsplit : "s".splitOn "/" = ["s"] := by
    rw [String.splitOn, if_neg (by decide), String.splitOnAux, if_neg (by decide +kernel),
      if_neg (by decide +kernel), String.splitOnAux, if_pos (by decide +kernel)]
    decide +kernel
  rw [Path.ofText, hsplit]
  decide +kernel

theorem names_configured (text : String) :
    Startup.Names ["--config", "c.json"] (configured text) .json text
      { config := some "c.json" } := by
  refine ⟨rfl, "c.json", rfl, ⟨fun _ => rfl, fun _ => rfl⟩, ?_⟩
  rw [ofText_configName]
  rfl

/-- There is no state yet, so the store opens with an empty one. -/
theorem open?_configured (text : String) :
    FileStore.open? (configured text) (Path.ofText "s") = .ok ⟨["s"], {}⟩ := by
  rw [ofText_stateName]
  rfl

/-- Settings with as many workers as there can be. -/
def greatestSettings : ServiceSettings where
  poolSize := 2305843009213693951
  statePath := "s"

def greatestText : String := "\x7b\"pool_size\": 2305843009213693951, \"state_path\": \"s\"\x7d"

theorem greatest_pool_assembles :
    Format.json.read greatestText = .ok greatestSettings ∧
      (∃ a, assemble? greatestSettings = some a ∧ a.Serves greatestSettings) ∧
      Startup.prepare ["--config", "c.json"] (configured greatestText) (fun _ => true) ≠
        .error .broken := by
  have hread : Format.json.read greatestText = .ok greatestSettings := by decide +kernel
  have hgreatest : greatestSettings.poolSize ≤ Pool.greatestSize := by decide
  obtain ⟨hassembles, -, hbroken⟩ := accepted_settings_assemble hread
  refine ⟨hread, hassembles hgreatest, fun h => ?_⟩
  exact absurd ((hbroken (names_configured _)).1 h).2 (Nat.not_lt.2 hgreatest)

/-- Settings with one worker more. -/
def enormousSettings : ServiceSettings where
  poolSize := 2305843009213693952
  statePath := "s"

def enormousText : String := "\x7b\"pool_size\": 2305843009213693952, \"state_path\": \"s\"\x7d"

/-- **Accepted settings can break the daemon.** -/
theorem enormous_pool_breaks :
    Format.json.read enormousText = .ok enormousSettings ∧
      assemble? enormousSettings = none ∧
      Startup.prepare ["--config", "c.json"] (configured enormousText) (fun _ => true) =
        .error .broken := by
  have hread : Format.json.read enormousText = .ok enormousSettings := by decide +kernel
  have hgreat : Pool.greatestSize < enormousSettings.poolSize := by decide
  have hnames := names_configured enormousText
  exact ⟨hread, assemble?_of_lt hgreat, Startup.prepare_eq_broken_iff.2
    ⟨_, _, _, hnames.1, Startup.settings?_of_names hnames hread, open?_configured _, hgreat⟩⟩

end TunnelKeeper.Daemon
