import TunnelKeeper.Proofs.Net.Rereading
import TunnelKeeper.Settings.Service

/-!
# Acceptance — what is known of settings that were accepted

Both formats are brought to a node and read from there (`ServiceSettings.read_eq_ok_iff`).  Settings
are read from the fields of a record one by one, and each value is what a field gives or the default
of a field that is not there (`ReadFrom`, one for each part).  So what every field gives and every
default has is true of accepted settings: their addresses can be named by texts
(`ServiceSettings.properAddresses_of_ofNode?`).  A record that is written with known names, each
once, has the fields it is written with (`known?_eq_self`).
-/

namespace TunnelKeeper.Settings

/-- The formats that settings are written in. -/
inductive Format where
  | toml
  | json
deriving DecidableEq, Repr

namespace Format

/-- The settings of a text. -/
def read : Format → String → Except SettingsError ServiceSettings
  | .toml => ServiceSettings.ofToml
  | .json => ServiceSettings.ofJson

/-- The node of a text. -/
def node? : Format → String → Option Node
  | .toml, text => (Toml.read? text).map fun entries => .table (Node.ofTomlEntries entries)
  | .json, text => (Json.Document.read? text).map Node.ofDocument

theorem read_eq (f : Format) (text : String) :
    f.read text = ServiceSettings.accept (f.node? text) := by
  cases f <;> rfl

end Format

/-! ### Validity -/

/-- What is checked of settings once they are read. -/
structure ServiceSettings.Valid (s : ServiceSettings) : Prop where
  poolSize : Pool.leastSize ≤ s.poolSize
  program : s.proxy.program ≠ ""
  interval : 0 < s.route.intervalMs

namespace ServiceSettings

variable {s : ServiceSettings} {node : Option Node}

theorem validate_eq_ok_iff : s.validate = .ok () ↔ s.Valid := by
  simp only [validate, String.isEmpty_iff, beq_iff_eq]
  constructor
  · intro h
    by_cases hpool : s.poolSize < Pool.leastSize
    · simp [hpool] at h
    by_cases hprogram : s.proxy.program = ""
    · simp [hpool, hprogram] at h
    by_cases hinterval : s.route.intervalMs = 0
    · simp [hpool, hprogram, hinterval] at h
    exact ⟨Nat.le_of_not_lt hpool, hprogram, Nat.pos_of_ne_zero hinterval⟩
  · rintro ⟨hpool, hprogram, hinterval⟩
    rw [if_neg (Nat.not_lt.2 hpool), if_neg hprogram, if_neg (Nat.ne_of_gt hinterval)]

/-- Accepted settings are those that a node gives and that are valid. -/
theorem accept_eq_ok_iff : accept node = .ok s ↔ node.bind ofNode? = some s ∧ s.Valid := by
  cases hnode : node.bind ofNode? with
  | none => simp [accept, hnode]
  | some settings =>
      have haccept : accept node = settings.validate.map fun _ => settings := by
        simp only [accept, hnode]
        cases settings.validate <;> rfl
      rw [Option.some.injEq, ← validate_eq_ok_iff, haccept]
      cases hvalid : settings.validate with
      | error e =>
          refine ⟨nofun, ?_⟩
          rintro ⟨rfl, hok⟩
          rw [hvalid] at hok
          cases hok
      | ok =>
          refine ⟨?_, ?_⟩
          · rintro ⟨⟩
            exact ⟨rfl, hvalid⟩
          · rintro ⟨rfl, -⟩
            rfl

theorem accept_of_eq_none (h : node.bind ofNode? = none) : accept node = .error .malformed := by
  rw [accept, h]

theorem read_eq_ok_iff {f : Format} {text : String} :
    f.read text = .ok s ↔ (f.node? text).bind ofNode? = some s ∧ s.Valid := by
  rw [Format.read_eq, accept_eq_ok_iff]

end ServiceSettings

/-! ### Fields -/

namespace Node

variable {α : Type} {fields : Fields} {names : List String} {name : String} {node : Node}
  {read? : Node → Option α} {fallback value : α}

theorem Fields.mem_of_find? (h : fields.find? name = some node) : (name, node) ∈ fields := by
  obtain ⟨before, after, heq, -⟩ := List.lookup_eq_some_iff.1 h
  simp [show fields = before ++ (name, node) :: after from heq]

/-- A field that may be left out has its default or what a node under its name gives. -/
theorem Fields.get_eq_some (h : fields.get name read? fallback = some value) :
    value = fallback ∨ ∃ node, (name, node) ∈ fields ∧ read? node = some value := by
  rw [Fields.get] at h
  split at h
  · next node hfind =>
    exact .inr ⟨node, Fields.mem_of_find? hfind, h⟩
  · exact .inl (Option.some.inj h).symm

/-- Fields with known names, each there once, are all there is. -/
theorem known?_eq_self (hknown : ∀ field ∈ fields, field.1 ∈ names)
    (honce : (fields.map (·.1)).Nodup) : known? names fields = some fields := by
  induction fields with
  | nil => rfl
  | cons field fields ih =>
      obtain ⟨name, node⟩ := field
      obtain ⟨hname, hknown⟩ := List.forall_mem_cons.1 hknown
      obtain ⟨hnew, honce⟩ := List.nodup_cons.1 honce
      have hother : fields.any (·.1 == name) = false := by
        refine Bool.eq_false_iff.2 fun h => hnew ?_
        obtain ⟨field, hmem, heq⟩ := List.any_eq_true.1 h
        exact List.mem_map.2 ⟨field, hmem, beq_iff_eq.1 heq⟩
      simp only [known?, ih hknown honce, List.contains_iff_mem.2 hname, hother, Bool.not_true,
        Bool.false_eq_true, if_false, Option.bind_eq_bind, Option.bind_some, Option.pure_def]

/-- What stands for the fields of a record, in order or under their names. -/
def parts : Node → List Node
  | .list _ items => items
  | .table fields => fields.map (·.2)
  | _ => []

theorem mem_of_known? {known : Fields} (h : known? names fields = some known)
    {field : String × Node} (hfield : field ∈ known) : field ∈ fields := by
  induction fields generalizing known with
  | nil =>
      obtain rfl := Option.some.inj h
      exact hfield
  | cons first fields ih =>
      simp only [known?, Option.bind_eq_bind, Option.bind_eq_some_iff] at h
      obtain ⟨more, hmore, h⟩ := h
      split at h
      · obtain rfl := Option.some.inj h
        exact List.mem_cons_of_mem _ (ih hmore hfield)
      · split at h
        · cases h
        · obtain rfl := Option.some.inj h
          rcases List.mem_cons.1 hfield with rfl | hfield
          · exact List.mem_cons_self
          · exact List.mem_cons_of_mem _ (ih hmore hfield)

theorem mem_of_inOrder? {exact : Bool} {items : List Node}
    (h : inOrder? exact names items = some fields) {field : String × Node}
    (hfield : field ∈ fields) : field.2 ∈ items := by
  induction names generalizing items fields with
  | nil =>
      cases items with
      | nil =>
          obtain rfl := Option.some.inj h
          cases hfield
      | cons item items =>
          simp only [inOrder?, Option.ite_none_left_eq_some, Option.some.injEq] at h
          obtain ⟨-, rfl⟩ := h
          cases hfield
  | cons name names ih =>
      cases items with
      | nil =>
          obtain rfl := Option.some.inj h
          cases hfield
      | cons item items =>
          obtain ⟨more, hmore, rfl⟩ := Option.map_eq_some_iff.1 h
          rcases List.mem_cons.1 hfield with rfl | hfield
          · exact List.mem_cons_self
          · exact List.mem_cons_of_mem _ (ih hmore hfield)

/-- What a record has under a name is part of the node. -/
theorem mem_parts_of_record? (h : node.record? names = some fields) {field : String × Node}
    (hfield : field ∈ fields) : field.2 ∈ node.parts := by
  cases node with
  | table all => exact List.mem_map_of_mem (mem_of_known? h hfield)
  | list exact items => exact mem_of_inOrder? h hfield
  | _ => cases h

theorem proper_of_address? {address : SocketAddress} (h : node.address? = some address) :
    address.Proper := by
  cases node with
  | text s => exact SocketAddress.proper_of_read? h
  | _ => cases h

end Node

/-! ### Settings of a record -/

open Node (Fields)

/-- The settings of the proxy that some fields give. -/
structure ProxySettings.ReadFrom (fields : Fields) (s : ProxySettings) : Prop where
  program : fields.required "program" Node.text? = some s.program
  args : fields.required "args" Node.texts? = some s.args
  localAddr :
    fields.get "local_addr" Node.address? ({} : ProxySettings).localAddr = some s.localAddr
  readyTimeoutMs :
    fields.get "ready_timeout_ms" (Node.natural? 64) ({} : ProxySettings).readyTimeoutMs =
      some s.readyTimeoutMs
  defaultMethod :
    fields.get "default_method" Node.text? ({} : ProxySettings).defaultMethod =
      some s.defaultMethod

theorem ProxySettings.ofNode?_eq_some_iff {node : Node} {s : ProxySettings} :
    ofNode? node = some s ↔
      ∃ fields, node.record? fieldNames = some fields ∧ s.ReadFrom fields := by
  simp only [ofNode?, Option.bind_eq_bind, Option.bind_eq_some_iff, Option.pure_def,
    Option.some.injEq]
  constructor
  · rintro ⟨fields, hfields, _, h₁, _, h₂, _, h₃, _, h₄, _, h₅, rfl⟩
    exact ⟨fields, hfields, h₁, h₂, h₃, h₄, h₅⟩
  · rintro ⟨fields, hfields, h₁, h₂, h₃, h₄, h₅⟩
    exact ⟨fields, hfields, _, h₁, _, h₂, _, h₃, _, h₄, _, h₅, rfl⟩

/-- The settings of the checks that some fields give. -/
structure CheckSettings.ReadFrom (fields : Fields) (s : CheckSettings) : Prop where
  dnsServer :
    fields.get "dns_server" Node.address? ({} : CheckSettings).dnsServer = some s.dnsServer
  dnsQueryName :
    fields.get "dns_query_name" Node.text? ({} : CheckSettings).dnsQueryName =
      some s.dnsQueryName
  httpProbeHost :
    fields.get "http_probe_host" Node.text? ({} : CheckSettings).httpProbeHost =
      some s.httpProbeHost
  httpProbePort :
    fields.get "http_probe_port" Node.port? ({} : CheckSettings).httpProbePort =
      some s.httpProbePort
  ioTimeoutMs :
    fields.get "io_timeout_ms" (Node.natural? 64) ({} : CheckSettings).ioTimeoutMs =
      some s.ioTimeoutMs

theorem CheckSettings.ofNode?_eq_some_iff {node : Node} {s : CheckSettings} :
    ofNode? node = some s ↔
      ∃ fields, node.record? fieldNames = some fields ∧ s.ReadFrom fields := by
  simp only [ofNode?, Option.bind_eq_bind, Option.bind_eq_some_iff, Option.pure_def,
    Option.some.injEq]
  constructor
  · rintro ⟨fields, hfields, _, h₁, _, h₂, _, h₃, _, h₄, _, h₅, rfl⟩
    exact ⟨fields, hfields, h₁, h₂, h₃, h₄, h₅⟩
  · rintro ⟨fields, hfields, h₁, h₂, h₃, h₄, h₅⟩
    exact ⟨fields, hfields, _, h₁, _, h₂, _, h₃, _, h₄, _, h₅, rfl⟩

/-- The settings of the route that some fields give. -/
structure RouteSettings.ReadFrom (fields : Fields) (s : RouteSettings) : Prop where
  target : fields.get "target" Node.address? ({} : RouteSettings).target = some s.target
  intervalMs :
    fields.get "interval_ms" (Node.natural? 64) ({} : RouteSettings).intervalMs =
      some s.intervalMs

theorem RouteSettings.ofNode?_eq_some_iff {node : Node} {s : RouteSettings} :
    ofNode? node = some s ↔
      ∃ fields, node.record? fieldNames = some fields ∧ s.ReadFrom fields := by
  simp only [ofNode?, Option.bind_eq_bind, Option.bind_eq_some_iff, Option.pure_def,
    Option.some.injEq]
  constructor
  · rintro ⟨fields, hfields, _, h₁, _, h₂, rfl⟩
    exact ⟨fields, hfields, h₁, h₂⟩
  · rintro ⟨fields, hfields, h₁, h₂⟩
    exact ⟨fields, hfields, _, h₁, _, h₂, rfl⟩

/-- The settings of the service that some fields give. -/
structure ServiceSettings.ReadFrom (fields : Fields) (s : ServiceSettings) : Prop where
  poolSize :
    fields.get "pool_size" (Node.natural? 64) ({} : ServiceSettings).poolSize = some s.poolSize
  statePath :
    fields.get "state_path" Node.text? ({} : ServiceSettings).statePath = some s.statePath
  controlAddr :
    fields.get "control_addr" Node.address? ({} : ServiceSettings).controlAddr =
      some s.controlAddr
  logLevel : fields.get "log_level" Node.text? ({} : ServiceSettings).logLevel = some s.logLevel
  probeTimeoutMs :
    fields.get "probe_timeout_ms" Node.limit? ({} : ServiceSettings).probeTimeoutMs =
      some s.probeTimeoutMs
  proxyStartTimeoutMs :
    fields.get "proxy_start_timeout_ms" Node.limit? ({} : ServiceSettings).proxyStartTimeoutMs =
      some s.proxyStartTimeoutMs
  proxy : fields.get "proxy" ProxySettings.ofNode? ({} : ServiceSettings).proxy = some s.proxy
  checks : fields.get "checks" CheckSettings.ofNode? ({} : ServiceSettings).checks = some s.checks
  route : fields.get "route" RouteSettings.ofNode? ({} : ServiceSettings).route = some s.route

theorem ServiceSettings.ofNode?_eq_some_iff {node : Node} {s : ServiceSettings} :
    ofNode? node = some s ↔
      ∃ fields, node.record? fieldNames = some fields ∧ s.ReadFrom fields := by
  simp only [ofNode?, Option.bind_eq_bind, Option.bind_eq_some_iff, Option.pure_def,
    Option.some.injEq]
  constructor
  · rintro ⟨fields, hfields, _, h₁, _, h₂, _, h₃, _, h₄, _, h₅, _, h₆, _, h₇, _, h₈, _, h₉, rfl⟩
    exact ⟨fields, hfields, h₁, h₂, h₃, h₄, h₅, h₆, h₇, h₈, h₉⟩
  · rintro ⟨fields, hfields, h₁, h₂, h₃, h₄, h₅, h₆, h₇, h₈, h₉⟩
    exact ⟨fields, hfields, _, h₁, _, h₂, _, h₃, _, h₄, _, h₅, _, h₆, _, h₇, _, h₈, _, h₉, rfl⟩

/-! ### Addresses -/

theorem Node.Fields.proper_of_get {fields : Fields} {name : String}
    {fallback address : SocketAddress} (hfallback : fallback.Proper)
    (h : fields.get name Node.address? fallback = some address) : address.Proper := by
  rcases Fields.get_eq_some h with rfl | ⟨node, -, hread⟩
  · exact hfallback
  · exact Node.proper_of_address? hread

/-- The addresses of settings can be named by texts. -/
structure ServiceSettings.ProperAddresses (s : ServiceSettings) : Prop where
  control : s.controlAddr.Proper
  listen : s.proxy.localAddr.Proper
  dns : s.checks.dnsServer.Proper
  target : s.route.target.Proper

theorem ServiceSettings.properAddresses_default : ({} : ServiceSettings).ProperAddresses :=
  ⟨fun _ => rfl, fun _ => rfl, fun _ => rfl, fun _ => rfl⟩

/-- **Settings that a node gives have proper addresses.** -/
theorem ServiceSettings.properAddresses_of_ofNode? {node : Node} {s : ServiceSettings}
    (h : ofNode? node = some s) : s.ProperAddresses := by
  obtain ⟨fields, -, hread⟩ := ofNode?_eq_some_iff.1 h
  obtain ⟨hcontrol, hlisten, hdns, htarget⟩ := properAddresses_default
  refine ⟨Fields.proper_of_get hcontrol hread.controlAddr, ?_, ?_, ?_⟩
  · rcases Fields.get_eq_some hread.proxy with heq | ⟨part, -, hpart⟩
    · exact heq ▸ hlisten
    · obtain ⟨inner, -, hinner⟩ := ProxySettings.ofNode?_eq_some_iff.1 hpart
      exact Fields.proper_of_get hlisten hinner.localAddr
  · rcases Fields.get_eq_some hread.checks with heq | ⟨part, -, hpart⟩
    · exact heq ▸ hdns
    · obtain ⟨inner, -, hinner⟩ := CheckSettings.ofNode?_eq_some_iff.1 hpart
      exact Fields.proper_of_get hdns hinner.dnsServer
  · rcases Fields.get_eq_some hread.route with heq | ⟨part, -, hpart⟩
    · exact heq ▸ htarget
    · obtain ⟨inner, -, hinner⟩ := RouteSettings.ofNode?_eq_some_iff.1 hpart
      exact Fields.proper_of_get htarget hinner.target

end TunnelKeeper.Settings
