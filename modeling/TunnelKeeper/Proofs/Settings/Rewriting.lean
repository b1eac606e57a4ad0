import TunnelKeeper.Proofs.Settings.Acceptance
import TunnelKeeper.Proofs.Toml.Magnitudes
import TunnelKeeper.Proofs.Toml.Sheets

/-!
# Rewriting — settings that are written out and read again

Settings are written as a sheet and read again from its text.  The two sides have different ranges:
a setting is a number of sixty-four bits, and a document holds numbers of sixty-three bits and a
sign.  So there are two cases.

* Where no number is too great (`ServiceSettings.Writable`), the sheet has a text, that text is read
  as the table the sheet stands for, and each setting is what its key gives there
  (`ofNode?_document`).  For the addresses it matters that they were read from texts, too.
* Where a number is too great, there is no text, and what is written instead is the empty one, from
  which the defaults are read (`toToml_of_not_writable`).

Settings that were read from such a document themselves have no number that is too great
(`writable_of_ofNode?`).  The main statement is `written_settings_come_back`;
`crowded_settings_are_lost` is what it leaves open.
-/

namespace TunnelKeeper.Settings

open Node (Fields)
open Toml (Entry Sheet linesValues)
open Toml.Written (greatest)

/-- No number of the settings is greater than the greatest that can be written. -/
structure ServiceSettings.Writable (s : ServiceSettings) : Prop where
  poolSize : s.poolSize ≤ greatest
  probeTimeoutMs : ∀ n ∈ s.probeTimeoutMs, n ≤ greatest
  proxyStartTimeoutMs : ∀ n ∈ s.proxyStartTimeoutMs, n ≤ greatest
  readyTimeoutMs : s.proxy.readyTimeoutMs ≤ greatest
  ioTimeoutMs : s.checks.ioTimeoutMs ≤ greatest
  intervalMs : s.route.intervalMs ≤ greatest

theorem ServiceSettings.fits_limitEntry_iff (key : String) {limit : Option Nat} :
    (∀ line ∈ limitEntry key limit, line.2.Fits) ↔ ∀ n ∈ limit, n ≤ greatest := by
  cases limit <;> simp [limitEntry, Entry.Fits]

theorem ProxySettings.fits_toSheet_iff (s : ProxySettings) :
    (∀ line ∈ s.toSheet, line.2.Fits) ↔ s.readyTimeoutMs ≤ greatest := by
  simp [toSheet, Entry.Fits]

/-- A port is never too great. -/
theorem CheckSettings.fits_toSheet_iff (s : CheckSettings) :
    (∀ line ∈ s.toSheet, line.2.Fits) ↔ s.ioTimeoutMs ≤ greatest := by
  have hport : s.httpProbePort.toNat ≤ greatest :=
    Nat.le_trans (Nat.le_of_lt s.httpProbePort.toNat_lt) (by decide)
  simp [toSheet, Entry.Fits, hport]

theorem RouteSettings.fits_toSheet_iff (s : RouteSettings) :
    (∀ line ∈ s.toSheet, line.2.Fits) ↔ s.intervalMs ≤ greatest := by
  simp [toSheet, Entry.Fits]

/-- Settings have a text exactly if no number of them is too great. -/
theorem ServiceSettings.isSome_text?_iff (s : ServiceSettings) :
    s.toSheet.text?.isSome = true ↔ s.Writable := by
  have htop : (∀ line ∈ s.toSheet.entries, line.2.Fits) ↔
      s.poolSize ≤ greatest ∧ (∀ n ∈ s.probeTimeoutMs, n ≤ greatest) ∧
        ∀ n ∈ s.proxyStartTimeoutMs, n ≤ greatest := by
    rw [← fits_limitEntry_iff "probe_timeout_ms",
      ← fits_limitEntry_iff "proxy_start_timeout_ms"]
    simp [toSheet, or_imp, forall_and, Entry.Fits]
  have hparts : (∀ table ∈ s.toSheet.tables, ∀ line ∈ table.2, line.2.Fits) ↔
      s.proxy.readyTimeoutMs ≤ greatest ∧ s.checks.ioTimeoutMs ≤ greatest ∧
        s.route.intervalMs ≤ greatest := by
    rw [← ProxySettings.fits_toSheet_iff, ← CheckSettings.fits_toSheet_iff,
      ← RouteSettings.fits_toSheet_iff, toSheet, List.forall_mem_cons, List.forall_mem_cons,
      List.forall_mem_singleton]
  rw [Sheet.isSome_text?_iff, htop, hparts]
  constructor
  · rintro ⟨⟨hpool, hprobe, hstart⟩, hready, hio, hinterval⟩
    exact ⟨hpool, hprobe, hstart, hready, hio, hinterval⟩
  · rintro ⟨hpool, hprobe, hstart, hready, hio, hinterval⟩
    exact ⟨⟨hpool, hprobe, hstart⟩, hready, hio, hinterval⟩

/-- The keys of settings are bare and told apart. -/
theorem ServiceSettings.clear_toSheet (s : ServiceSettings) : s.toSheet.Clear := by
  refine ⟨?_, ?_⟩
  · obtain ⟨_, _, _, _, probe, start, _, _, _⟩ := s
    cases probe <;> cases start
    all_goals
      simp only [toSheet, limitEntry, List.map_cons, List.map_nil, List.cons_append,
        List.nil_append, List.append_nil]
      decide
  · refine List.forall_mem_cons.2 ⟨?_, List.forall_mem_cons.2 ⟨?_, List.forall_mem_singleton.2 ?_⟩⟩
    · show Toml.ClearKeys ProxySettings.fieldNames
      decide
    · show Toml.ClearKeys CheckSettings.fieldNames
      decide
    · show Toml.ClearKeys RouteSettings.fieldNames
      decide

/-! ### Reading back -/

namespace Node

theorem natural?_integer {n : Nat} (h : n ≤ greatest) : natural? 64 (.integer n) = some n :=
  if_pos (Nat.lt_of_le_of_lt h (by decide))

theorem limit?_integer {n : Nat} (h : n ≤ greatest) : limit? (.integer n) = some (some n) := by
  rw [limit?, natural?_integer h]
  · rfl
  · exact nofun

theorem port?_integer (port : UInt16) : port? (.integer port.toNat) = some port := by
  have hnatural : natural? 16 (.integer port.toNat) = some port.toNat := if_pos port.toNat_lt
  rw [port?, hnatural, Option.map_some, Nat.toUInt16_eq, UInt16.ofNat_toNat]

theorem texts?_list (exact : Bool) (items : List String) :
    texts? (.list exact (ofTomlItems (items.map .text))) = some items := by
  rw [texts?]
  induction items with
  | nil => rfl
  | cons item items ih => simp [ofTomlItems, ofToml, text?, ih]

theorem map_fst_ofTomlEntries (values : List (String × Toml.Value)) :
    (ofTomlEntries values).map (·.1) = values.map (·.1) := by
  induction values with
  | nil => rfl
  | cons entry values ih => rw [ofTomlEntries, List.map_cons, ih, List.map_cons]

theorem find?_ofTomlEntries (values : List (String × Toml.Value)) (name : String) :
    Fields.find? (ofTomlEntries values) name = (values.lookup name).map ofToml := by
  rw [Fields.find?]
  induction values with
  | nil => rfl
  | cons entry values ih =>
      obtain ⟨key, value⟩ := entry
      rw [ofTomlEntries, List.lookup_cons, List.lookup_cons, ih]
      cases name == key <;> rfl

variable {α : Type} {values : List (String × Toml.Value)} {names : List String} {name : String}
  {value : Toml.Value} {read? : Node → Option α} {fallback a : α}

theorem Fields.get_written (h : values.lookup name = some value)
    (hread : read? (ofToml value) = some a) :
    Fields.get (ofTomlEntries values) name read? fallback = some a := by
  rw [get, find?_ofTomlEntries, h, Option.map_some]
  exact hread

theorem Fields.required_written (h : values.lookup name = some value)
    (hread : read? (ofToml value) = some a) :
    Fields.required (ofTomlEntries values) name read? = some a := by
  rw [required, find?_ofTomlEntries, h, Option.map_some, Option.bind_some, hread]

theorem Fields.get_missing (h : values.lookup name = none) :
    Fields.get (ofTomlEntries values) name read? fallback = some fallback := by
  rw [get, find?_ofTomlEntries, h, Option.map_none]

/-- A table with known keys, each there once, has the fields it was written with. -/
theorem record?_written (values : List (String × Toml.Value))
    (hknown : ∀ key ∈ values.map (·.1), key ∈ names) (honce : (values.map (·.1)).Nodup) :
    record? names (.table (ofTomlEntries values)) = some (ofTomlEntries values) := by
  refine known?_eq_self (fun field hfield => ?_) (by rwa [map_fst_ofTomlEntries])
  refine hknown field.1 ?_
  rw [← map_fst_ofTomlEntries]
  exact List.mem_map_of_mem hfield

/-- So has a part that is written with all its keys. -/
theorem record?_lines {lines : List (String × Entry)} (hnames : lines.map (·.1) = names)
    (honce : names.Nodup) : record? names (ofToml (.table (linesValues lines))) =
      some (ofTomlEntries (linesValues lines)) := by
  have hkeys : (linesValues lines).map (·.1) = names :=
    (Toml.map_fst_linesValues lines).trans hnames
  exact record?_written _ (fun key hkey => hkeys ▸ hkey) (hkeys.symm ▸ honce)

end Node

theorem ProxySettings.ofNode?_toSheet {s : ProxySettings} (hlisten : s.localAddr.Proper)
    (hready : s.readyTimeoutMs ≤ greatest) :
    ofNode? (Node.ofToml (.table (linesValues s.toSheet))) = some s :=
  ofNode?_eq_some_iff.2 ⟨_, Node.record?_lines rfl (by decide),
    Fields.required_written rfl rfl, Fields.required_written rfl (Node.texts?_list _ _),
    Fields.get_written rfl (SocketAddress.read?_text hlisten),
    Fields.get_written rfl (Node.natural?_integer hready), Fields.get_written rfl rfl⟩

theorem CheckSettings.ofNode?_toSheet {s : CheckSettings} (hdns : s.dnsServer.Proper)
    (hio : s.ioTimeoutMs ≤ greatest) :
    ofNode? (Node.ofToml (.table (linesValues s.toSheet))) = some s :=
  ofNode?_eq_some_iff.2 ⟨_, Node.record?_lines rfl (by decide),
    Fields.get_written rfl (SocketAddress.read?_text hdns), Fields.get_written rfl rfl,
    Fields.get_written rfl rfl, Fields.get_written rfl (Node.port?_integer _),
    Fields.get_written rfl (Node.natural?_integer hio)⟩

theorem RouteSettings.ofNode?_toSheet {s : RouteSettings} (htarget : s.target.Proper)
    (hinterval : s.intervalMs ≤ greatest) :
    ofNode? (Node.ofToml (.table (linesValues s.toSheet))) = some s :=
  ofNode?_eq_some_iff.2 ⟨_, Node.record?_lines rfl (by decide),
    Fields.get_written rfl (SocketAddress.read?_text htarget),
    Fields.get_written rfl (Node.natural?_integer hinterval)⟩

namespace ServiceSettings

/-- A limit is read back, and where there is none, nothing is written. -/
theorem get_limit {s : ServiceSettings} {name : String} {limit : Option Nat}
    (hlimit : ∀ n ∈ limit, n ≤ greatest)
    (h : s.toSheet.document.lookup name = limit.map fun n => .integer n) :
    Fields.get (Node.ofTomlEntries s.toSheet.document) name Node.limit? none = some limit := by
  cases limit with
  | none => exact Fields.get_missing h
  | some n => exact Fields.get_written h (Node.limit?_integer (hlimit n rfl))

/-- What is written under the keys that are not always there, and under those after them. -/
theorem lookup_document (s : ServiceSettings) :
    s.toSheet.document.lookup "probe_timeout_ms" = s.probeTimeoutMs.map (fun n => .integer n) ∧
    s.toSheet.document.lookup "proxy_start_timeout_ms" =
      s.proxyStartTimeoutMs.map (fun n => .integer n) ∧
    s.toSheet.document.lookup "proxy" = some (.table (linesValues s.proxy.toSheet)) ∧
    s.toSheet.document.lookup "checks" = some (.table (linesValues s.checks.toSheet)) ∧
    s.toSheet.document.lookup "route" = some (.table (linesValues s.route.toSheet)) := by
  obtain ⟨_, _, _, _, probe, start, _, _, _⟩ := s
  cases probe <;> cases start <;> exact ⟨rfl, rfl, rfl, rfl, rfl⟩

theorem keys_document (s : ServiceSettings) :
    ∀ key ∈ s.toSheet.document.map (·.1), key ∈ fieldNames := by
  obtain ⟨_, _, _, _, probe, start, _, _, _⟩ := s
  rw [Sheet.map_fst_document]
  cases probe <;> cases start
  all_goals
    simp only [toSheet, limitEntry, List.map_cons, List.map_nil, List.cons_append,
      List.nil_append, List.append_nil]
    decide

/-- **Settings are what the table gives that they are written as.** -/
theorem ofNode?_document {s : ServiceSettings} (haddresses : s.ProperAddresses)
    (hwritable : s.Writable) :
    ofNode? (.table (Node.ofTomlEntries s.toSheet.document)) = some s := by
  obtain ⟨hprobe, hstart, hproxy, hchecks, hroute⟩ := s.lookup_document
  have honce : (s.toSheet.document.map (·.1)).Nodup := by
    rw [Sheet.map_fst_document]
    exact s.clear_toSheet.top.2
  refine ofNode?_eq_some_iff.2 ⟨_, Node.record?_written _ s.keys_document honce,
    Fields.get_written rfl (Node.natural?_integer hwritable.poolSize),
    Fields.get_written rfl rfl,
    Fields.get_written rfl (SocketAddress.read?_text haddresses.control),
    Fields.get_written rfl rfl,
    get_limit hwritable.probeTimeoutMs hprobe, get_limit hwritable.proxyStartTimeoutMs hstart,
    Fields.get_written hproxy ?_, Fields.get_written hchecks ?_, Fields.get_written hroute ?_⟩
  · exact ProxySettings.ofNode?_toSheet haddresses.listen hwritable.readyTimeoutMs
  · exact CheckSettings.ofNode?_toSheet haddresses.dns hwritable.ioTimeoutMs
  · exact RouteSettings.ofNode?_toSheet haddresses.target hwritable.intervalMs

/-- What a table is read as that is the text of settings. -/
theorem ofToml_toToml {s : ServiceSettings} (haddresses : s.ProperAddresses) (hvalid : s.Valid)
    (hwritable : s.Writable) : ofToml s.toToml = .ok s := by
  obtain ⟨text, htext⟩ := Option.isSome_iff_exists.1 (s.isSome_text?_iff.2 hwritable)
  have hread : Toml.read? text = some s.toSheet.document :=
    Sheet.read?_text s.clear_toSheet htext
  rw [toToml, htext, Option.getD_some, ofToml, accept_eq_ok_iff, hread]
  exact ⟨ofNode?_document haddresses hwritable, hvalid⟩

/-- Settings with a number that is too great have the empty text, which leaves all to the
defaults. -/
theorem toToml_of_not_writable {s : ServiceSettings} (h : ¬s.Writable) : s.toToml = "" := by
  have hnone : s.toSheet.text? = none :=
    Option.not_isSome_iff_eq_none.1 (mt s.isSome_text?_iff.1 h)
  rw [toToml, hnone, Option.getD_none]

theorem ofToml_empty : ofToml "" = .ok {} := rfl

theorem writable_default : ({} : ServiceSettings).Writable where
  poolSize := by decide
  probeTimeoutMs := nofun
  proxyStartTimeoutMs := nofun
  readyTimeoutMs := by decide
  ioTimeoutMs := by decide
  intervalMs := by decide

end ServiceSettings

/-! ### Numbers of a document -/

namespace Node

/-- No number of a node is greater than the greatest that can be written. -/
inductive Fits : Node → Prop where
  | text {s : String} : Fits (.text s)
  | integer {n : Int} (le : n ≤ greatest) : Fits (.integer n)
  | list {exact : Bool} {items : List Node} (all : ∀ item ∈ items, item.Fits) :
      Fits (.list exact items)
  | table {fields : List (String × Node)} (all : ∀ field ∈ fields, field.2.Fits) :
      Fits (.table fields)
  | null : Fits .null
  | other : Fits .other

mutual

theorem fits_ofToml : ∀ {value : Toml.Value}, value.Fits → (ofToml value).Fits
  | .text _, _ => .text
  | .integer _, .integer le => .integer le
  | .float _, _ => .other
  | .bool _, _ => .other
  | .date _, _ => .table nofun
  | .list items, .list all => .list (fits_ofTomlItems items all)
  | .table entries, .table all => .table (fits_ofTomlEntries entries all)

theorem fits_ofTomlItems : ∀ (items : List Toml.Value), (∀ item ∈ items, item.Fits) →
    ∀ item ∈ ofTomlItems items, item.Fits
  | [], _ => nofun
  | _ :: items, h => by
      obtain ⟨hitem, h⟩ := List.forall_mem_cons.1 h
      exact List.forall_mem_cons.2 ⟨fits_ofToml hitem, fits_ofTomlItems items h⟩

theorem fits_ofTomlEntries : ∀ (entries : List (String × Toml.Value)),
    (∀ entry ∈ entries, entry.2.Fits) → ∀ field ∈ ofTomlEntries entries, field.2.Fits
  | [], _ => nofun
  | (_, _) :: entries, h => by
      obtain ⟨hentry, h⟩ := List.forall_mem_cons.1 h
      exact List.forall_mem_cons.2 ⟨fits_ofToml hentry, fits_ofTomlEntries entries h⟩

end

variable {node : Node} {fields : Fields} {n fallback : Nat}

theorem Fits.of_record? {names : List String} (h : node.Fits)
    (hfields : node.record? names = some fields) : ∀ field ∈ fields, field.2.Fits := by
  intro field hfield
  have hpart := mem_parts_of_record? hfields hfield
  cases h with
  | list all => exact all _ hpart
  | table all =>
      obtain ⟨whole, hwhole, heq⟩ := List.mem_map.1 hpart
      exact heq ▸ all whole hwhole
  | _ => cases hpart

theorem Fits.natural? (h : node.Fits) {bits : Nat} (hread : node.natural? bits = some n) :
    n ≤ greatest := by
  cases h with
  | @integer m le =>
      cases m with
      | ofNat m =>
          simp only [Node.natural?, Option.ite_none_right_eq_some, Option.some.injEq] at hread
          obtain ⟨-, rfl⟩ := hread
          exact Int.ofNat_le.1 le
      | negSucc m => cases hread
  | _ => cases hread

theorem Fits.limit? (h : node.Fits) {limit : Option Nat} (hread : node.limit? = some limit) :
    ∀ n ∈ limit, n ≤ greatest := by
  rintro n rfl
  unfold Node.limit? at hread
  split at hread
  · cases hread
  · obtain ⟨m, hm, heq⟩ := Option.map_eq_some_iff.1 hread
    cases heq
    exact h.natural? hm

/-- A number that a field gives is not too great where the default is not. -/
theorem Fields.le_of_get {name : String} (hfields : ∀ field ∈ fields, field.2.Fits)
    (hfallback : fallback ≤ greatest)
    (h : fields.get name (Node.natural? 64) fallback = some n) : n ≤ greatest := by
  rcases get_eq_some h with rfl | ⟨node, hmem, hread⟩
  · exact hfallback
  · exact (hfields _ hmem).natural? hread

end Node

namespace ServiceSettings

/-- Settings that are read from numbers which are not too great can be written. -/
theorem writable_of_ofNode? {node : Node} {s : ServiceSettings} (hnode : node.Fits)
    (h : ofNode? node = some s) : s.Writable := by
  obtain ⟨fields, hfields, hread⟩ := ofNode?_eq_some_iff.1 h
  have hfits := hnode.of_record? hfields
  have hlimit : ∀ {name limit}, fields.get name Node.limit? none = some limit →
      ∀ n ∈ limit, n ≤ greatest := fun {name limit} hget => by
    rcases Fields.get_eq_some hget with rfl | ⟨part, hmem, hpart⟩
    · exact nofun
    · exact (hfits _ hmem).limit? hpart
  refine ⟨Fields.le_of_get hfits writable_default.poolSize hread.poolSize,
    hlimit hread.probeTimeoutMs, hlimit hread.proxyStartTimeoutMs, ?_, ?_, ?_⟩
  · rcases Fields.get_eq_some hread.proxy with heq | ⟨part, hmem, hpart⟩
    · exact heq ▸ writable_default.readyTimeoutMs
    · obtain ⟨inner, hinner, hproxy⟩ := ProxySettings.ofNode?_eq_some_iff.1 hpart
      exact Fields.le_of_get ((hfits _ hmem).of_record? hinner) (by decide) hproxy.readyTimeoutMs
  · rcases Fields.get_eq_some hread.checks with heq | ⟨part, hmem, hpart⟩
    · exact heq ▸ writable_default.ioTimeoutMs
    · obtain ⟨inner, hinner, hchecks⟩ := CheckSettings.ofNode?_eq_some_iff.1 hpart
      exact Fields.le_of_get ((hfits _ hmem).of_record? hinner) (by decide) hchecks.ioTimeoutMs
  · rcases Fields.get_eq_some hread.route with heq | ⟨part, hmem, hpart⟩
    · exact heq ▸ writable_default.intervalMs
    · obtain ⟨inner, hinner, hroute⟩ := RouteSettings.ofNode?_eq_some_iff.1 hpart
      exact Fields.le_of_get ((hfits _ hmem).of_record? hinner) (by decide) hroute.intervalMs

/-- **Accepted settings come back from the text they are written as exactly if no number of them is
too great for it.** -/
theorem written_settings_come_back {f : Format} {text : String} {s : ServiceSettings}
    (h : f.read text = .ok s) :
    (ofToml s.toToml = .ok s ↔ s.Writable) ∧
      (¬s.Writable → s.toToml = "" ∧ ofToml s.toToml = .ok {}) ∧
      (f = .toml → s.Writable) := by
  obtain ⟨hread, hvalid⟩ := read_eq_ok_iff.1 h
  obtain ⟨node, hnode, hread⟩ := Option.bind_eq_some_iff.1 hread
  have hlost : ¬s.Writable → s.toToml = "" ∧ ofToml s.toToml = .ok {} := fun hgreat => by
    rw [toToml_of_not_writable hgreat]
    exact ⟨rfl, ofToml_empty⟩
  refine ⟨⟨fun hback => ?_, ofToml_toToml (properAddresses_of_ofNode? hread) hvalid⟩, hlost, ?_⟩
  · by_contra hgreat
    rw [(hlost hgreat).2] at hback
    cases hback
    exact hgreat writable_default
  · rintro rfl
    obtain ⟨table, htable, rfl⟩ := Option.map_eq_some_iff.1 hnode
    exact writable_of_ofNode? (.table (Node.fits_ofTomlEntries table (Toml.fits_of_read? htable)))
      hread

/-- A document whose texts take most of the forms that a text can be written in. -/
def oddText : String :=
  "\x7b\"state_path\": \"a'b\\\"c\\\\d\\ne\\u0000\", \"control_addr\": \"[fe80::1%3]:70\", " ++
    "\"proxy\": \x7b\"program\": \"x\\ty\", \"args\": [\"\", \"'''\", \"\\\"\"]\x7d\x7d"

def oddSettings : ServiceSettings where
  statePath := "a'b\"c\\d\ne\x00"
  controlAddr := ⟨.v6 ⟨[0xFE80, 0, 0, 0, 0, 0, 0, 1], rfl⟩, 70, 3⟩
  proxy := { program := "x\ty", args := ["", "'''", "\""] }

theorem odd_settings_come_back :
    Format.json.read oddText = .ok oddSettings ∧ oddSettings.Writable ∧
      ofToml oddSettings.toToml = .ok oddSettings := by
  have hread : Format.json.read oddText = .ok oddSettings := by decide +kernel
  have hwritable : oddSettings.Writable :=
    ⟨by decide, nofun, nofun, by decide, by decide, by decide⟩
  exact ⟨hread, hwritable, (written_settings_come_back hread).1.2 hwritable⟩

/-- Settings with one worker more than can be written. -/
def crowdedSettings : ServiceSettings where
  poolSize := 9223372036854775808

/-- **Accepted settings can be lost when they are written.** -/
theorem crowded_settings_are_lost :
    Format.json.read "\x7b\"pool_size\": 9223372036854775808\x7d" = .ok crowdedSettings ∧
      crowdedSettings.toToml = "" ∧ ofToml crowdedSettings.toToml ≠ .ok crowdedSettings := by
  decide +kernel

end ServiceSettings

end TunnelKeeper.Settings
