import TunnelKeeper.Proofs.Settings.Pruning

/-!
# Resetting — settings that have lost some of their keys

Settings that are read from pruned fields are those that were read from all of them, with the
defaults of what is left out (`ServiceSettings.reset`).  It would be all of it if every field had a
default, but the program of the proxy and its arguments must be there once the proxy is configured
at all, so fields that lose one of them while the proxy stays cannot be read
(`ServiceSettings.ofNode?_pruned_eq_none`).
-/

namespace TunnelKeeper.Settings

open Node (Fields)

/-! ### Parts without some of their keys -/

/-- The settings with the defaults of what is left out. -/
def ProxySettings.reset (gone : String → Bool) (s : ProxySettings) : ProxySettings :=
  let fallback : ProxySettings := {}
  { program := if gone "program" then fallback.program else s.program
    args := if gone "args" then fallback.args else s.args
    localAddr := if gone "local_addr" then fallback.localAddr else s.localAddr
    readyTimeoutMs := if gone "ready_timeout_ms" then fallback.readyTimeoutMs else s.readyTimeoutMs
    defaultMethod := if gone "default_method" then fallback.defaultMethod else s.defaultMethod }

def CheckSettings.reset (gone : String → Bool) (s : CheckSettings) : CheckSettings :=
  let fallback : CheckSettings := {}
  { dnsServer := if gone "dns_server" then fallback.dnsServer else s.dnsServer
    dnsQueryName := if gone "dns_query_name" then fallback.dnsQueryName else s.dnsQueryName
    httpProbeHost := if gone "http_probe_host" then fallback.httpProbeHost else s.httpProbeHost
    httpProbePort := if gone "http_probe_port" then fallback.httpProbePort else s.httpProbePort
    ioTimeoutMs := if gone "io_timeout_ms" then fallback.ioTimeoutMs else s.ioTimeoutMs }

def RouteSettings.reset (gone : String → Bool) (s : RouteSettings) : RouteSettings :=
  let fallback : RouteSettings := {}
  { target := if gone "target" then fallback.target else s.target
    intervalMs := if gone "interval_ms" then fallback.intervalMs else s.intervalMs }

def ServiceSettings.reset (o : Omission) (s : ServiceSettings) : ServiceSettings :=
  let fallback : ServiceSettings := {}
  { poolSize := if o.top "pool_size" then fallback.poolSize else s.poolSize
    statePath := if o.top "state_path" then fallback.statePath else s.statePath
    controlAddr := if o.top "control_addr" then fallback.controlAddr else s.controlAddr
    logLevel := if o.top "log_level" then fallback.logLevel else s.logLevel
    probeTimeoutMs := if o.top "probe_timeout_ms" then fallback.probeTimeoutMs else s.probeTimeoutMs
    proxyStartTimeoutMs :=
      if o.top "proxy_start_timeout_ms" then fallback.proxyStartTimeoutMs
      else s.proxyStartTimeoutMs
    proxy := if o.top "proxy" then fallback.proxy else s.proxy.reset (o.inside "proxy")
    checks := if o.top "checks" then fallback.checks else s.checks.reset (o.inside "checks")
    route := if o.top "route" then fallback.route else s.route.reset (o.inside "route") }

section

variable {gone : String → Bool} {node : Node}

theorem ProxySettings.reset_default : ({} : ProxySettings).reset gone = {} := by
  simp [reset]

theorem CheckSettings.reset_default : ({} : CheckSettings).reset gone = {} := by
  simp [reset]

theorem RouteSettings.reset_default : ({} : RouteSettings).reset gone = {} := by
  simp [reset]

/-- A proxy that keeps its program and its arguments can lose any of its other keys. -/
theorem ProxySettings.ofNode?_leaveOut {s : ProxySettings}
    (hlist : ∀ exact items, node ≠ .list exact items) (hprogram : gone "program" = false)
    (hargs : gone "args" = false) (h : ofNode? node = some s) :
    ofNode? (node.leaveOut gone) = some (s.reset gone) := by
  obtain ⟨fields, hfields, hread⟩ := ofNode?_eq_some_iff.1 h
  refine ofNode?_eq_some_iff.2 ⟨_, Node.record?_leaveOut hlist hfields, ?_, ?_,
    Fields.get_prune_same (fun _ => rfl) hread.localAddr,
    Fields.get_prune_same (fun _ => rfl) hread.readyTimeoutMs,
    Fields.get_prune_same (fun _ => rfl) hread.defaultMethod⟩
  · rw [Fields.required_prune_same (fun _ => rfl) hprogram, hread.program]
    simp [reset, hprogram]
  · rw [Fields.required_prune_same (fun _ => rfl) hargs, hread.args]
    simp [reset, hargs]

/-- One that loses either of them is none. -/
theorem ProxySettings.ofNode?_leaveOut_eq_none {s : ProxySettings}
    (hlist : ∀ exact items, node ≠ .list exact items)
    (hgone : gone "program" = true ∨ gone "args" = true) (h : ofNode? node = some s) :
    ofNode? (node.leaveOut gone) = none := by
  obtain ⟨fields, hfields, -⟩ := ofNode?_eq_some_iff.1 h
  refine Option.eq_none_iff_forall_ne_some.2 fun s' hs' => ?_
  obtain ⟨left, hleft, hread⟩ := ofNode?_eq_some_iff.1 hs'
  cases (Node.record?_leaveOut hlist hfields).symm.trans hleft
  rcases hgone with hgone | hgone
  · exact absurd hread.program (by simp [Fields.required_prune_gone hgone])
  · exact absurd hread.args (by simp [Fields.required_prune_gone hgone])

theorem CheckSettings.ofNode?_leaveOut {s : CheckSettings}
    (hlist : ∀ exact items, node ≠ .list exact items) (h : ofNode? node = some s) :
    ofNode? (node.leaveOut gone) = some (s.reset gone) := by
  obtain ⟨fields, hfields, hread⟩ := ofNode?_eq_some_iff.1 h
  exact ofNode?_eq_some_iff.2 ⟨_, Node.record?_leaveOut hlist hfields,
    Fields.get_prune_same (fun _ => rfl) hread.dnsServer,
    Fields.get_prune_same (fun _ => rfl) hread.dnsQueryName,
    Fields.get_prune_same (fun _ => rfl) hread.httpProbeHost,
    Fields.get_prune_same (fun _ => rfl) hread.httpProbePort,
    Fields.get_prune_same (fun _ => rfl) hread.ioTimeoutMs⟩

theorem RouteSettings.ofNode?_leaveOut {s : RouteSettings}
    (hlist : ∀ exact items, node ≠ .list exact items) (h : ofNode? node = some s) :
    ofNode? (node.leaveOut gone) = some (s.reset gone) := by
  obtain ⟨fields, hfields, hread⟩ := ofNode?_eq_some_iff.1 h
  exact ofNode?_eq_some_iff.2 ⟨_, Node.record?_leaveOut hlist hfields,
    Fields.get_prune_same (fun _ => rfl) hread.target,
    Fields.get_prune_same (fun _ => rfl) hread.intervalMs⟩

end

/-! ### Whole settings -/

/-- No part is written as a list of its fields in order. -/
def PartsByName (fields : Fields) : Prop :=
  ∀ field ∈ fields, field.1 ∈ partNames → ∀ exact items, field.2 ≠ .list exact items

namespace ServiceSettings

variable {o : Omission} {fields : Fields} {s : ServiceSettings}

/-- The fields of settings without what is left out. -/
def pruned (o : Omission) (fields : Fields) : Fields :=
  prune some o.top (o.change Node.leaveOut) fields

/-- Settings whose proxy keeps its program and its arguments, if it stays at all, are read without
what is left out, which has its defaults. -/
theorem ofNode?_pruned (hparts : PartsByName fields) (h : ofNode? (.table fields) = some s)
    (hkept : "proxy" ∈ fields.map (·.1) → o.top "proxy" = false →
      o.inside "proxy" "program" = false ∧ o.inside "proxy" "args" = false) :
    ofNode? (.table (pruned o fields)) = some (s.reset o) := by
  obtain ⟨known, hknown, hread⟩ := ofNode?_eq_some_iff.1 h
  have hsame : ∀ {name}, name ∉ partNames → ∀ node, o.change Node.leaveOut name node = node :=
    fun hname _ => if_neg hname
  have hlist : ∀ {name node}, name ∈ partNames → known.find? name = some node →
      ∀ exact items, node ≠ .list exact items := fun hname hfind =>
    hparts _ (Node.mem_of_known? hknown (Fields.mem_of_find? hfind)) hname
  refine ofNode?_eq_some_iff.2 ⟨_, Node.known?_prune hknown,
    Fields.get_prune_same (hsame (by decide)) hread.poolSize,
    Fields.get_prune_same (hsame (by decide)) hread.statePath,
    Fields.get_prune_same (hsame (by decide)) hread.controlAddr,
    Fields.get_prune_same (hsame (by decide)) hread.logLevel,
    Fields.get_prune_same (hsame (by decide)) hread.probeTimeoutMs,
    Fields.get_prune_same (hsame (by decide)) hread.proxyStartTimeoutMs, ?_, ?_, ?_⟩
  · by_cases hgone : o.top "proxy" = true
    · rw [Fields.get_prune_gone hgone, reset, if_pos hgone]
    · refine Fields.get_prune hread.proxy (fun node hfind hnode => ?_) fun h => ?_
      · have hmem := Node.mem_of_known? hknown (Fields.mem_of_find? hfind)
        obtain ⟨hprogram, hargs⟩ := hkept (List.mem_map_of_mem hmem) (Bool.eq_false_iff.2 hgone)
        exact ProxySettings.ofNode?_leaveOut (hlist (by decide) hfind) hprogram hargs hnode
      · rw [h]
        exact ProxySettings.reset_default
  · refine Fields.get_prune hread.checks (fun node hfind hnode => ?_) fun h => ?_
    · exact CheckSettings.ofNode?_leaveOut (hlist (by decide) hfind) hnode
    · rw [h]
      exact CheckSettings.reset_default
  · refine Fields.get_prune hread.route (fun node hfind hnode => ?_) fun h => ?_
    · exact RouteSettings.ofNode?_leaveOut (hlist (by decide) hfind) hnode
    · rw [h]
      exact RouteSettings.reset_default

/-- Settings whose proxy stays and loses its program or its arguments are none. -/
theorem ofNode?_pruned_eq_none (hparts : PartsByName fields)
    (h : ofNode? (.table fields) = some s) (hproxy : "proxy" ∈ fields.map (·.1))
    (hstays : o.top "proxy" = false)
    (hlost : o.inside "proxy" "program" = true ∨ o.inside "proxy" "args" = true) :
    ofNode? (.table (pruned o fields)) = none := by
  obtain ⟨known, hknown, hread⟩ := ofNode?_eq_some_iff.1 h
  refine Option.eq_none_iff_forall_ne_some.2 fun s' hs' => ?_
  obtain ⟨left, hleft, hread'⟩ := ofNode?_eq_some_iff.1 hs'
  cases (Node.known?_prune hknown).symm.trans hleft
  obtain ⟨node, hfind⟩ : ∃ node, known.find? "proxy" = some node := by
    obtain ⟨field, hmem, hname⟩ := List.mem_map.1 hproxy
    rw [Node.find?_of_known? hknown (by decide)]
    exact Option.isSome_iff_exists.1 (List.lookup_isSome_iff.2 ⟨field, hmem, by simp [hname]⟩)
  have hnode := hread.proxy
  have hleftNode := hread'.proxy
  have hleftFind : Fields.find? (prune some o.top (o.change Node.leaveOut) known) "proxy" =
      some (node.leaveOut (o.inside "proxy")) := by
    rw [Node.find?_prune, hstays, if_neg Bool.false_ne_true, hfind]
    rfl
  rw [Fields.get_of_find? hfind] at hnode
  rw [Fields.get_of_find? hleftFind] at hleftNode
  have hlist := hparts _ (Node.mem_of_known? hknown (Fields.mem_of_find? hfind))
    (show "proxy" ∈ partNames by decide)
  rw [ProxySettings.ofNode?_leaveOut_eq_none hlist hlost hnode] at hleftNode
  cases hleftNode

/-- Settings stay valid when some of them are reset, as the defaults are valid. -/
theorem Valid.reset (h : s.Valid) : (s.reset o).Valid := by
  obtain ⟨hpool, hprogram, hinterval⟩ := h
  refine ⟨?_, ?_, ?_⟩
  · show Pool.leastSize ≤ if o.top "pool_size" = true then Pool.defaultSize else s.poolSize
    split
    · decide
    · exact hpool
  · show (if o.top "proxy" = true then {} else s.proxy.reset (o.inside "proxy")).program ≠ ""
    split
    · decide
    · show (if o.inside "proxy" "program" = true then "ss-local" else s.proxy.program) ≠ ""
      split
      · decide
      · exact hprogram
  · show 0 < (if o.top "route" = true then {} else s.route.reset (o.inside "route")).intervalMs
    split
    · decide
    · show 0 < if o.inside "route" "interval_ms" = true then 2000 else s.route.intervalMs
      split
      · decide
      · exact hinterval

end ServiceSettings

end TunnelKeeper.Settings
