import TunnelKeeper.Proofs.Settings.Resetting
import TunnelKeeper.Proofs.Toml.Sheets

/-!
# Omissions — settings without some of their keys

Both formats are brought to a node, and what is left out of a document is left out of its node
(`Contents.node_leaveOut`); so the settings can be compared there.  An omission that takes the
program or the arguments from a proxy that stays (`Omission.Strips`) makes the document unreadable,
and every other one resets what it leaves out (`omitted_keys_are_reset`).
`program_cannot_be_omitted` is a document of the first kind.
-/

namespace TunnelKeeper.Settings

open Node (Fields)

/-! ### Documents without some of their keys -/

namespace Node

variable {gone : String → Bool}

theorem ofTomlEntries_prune {change : String → Toml.Value → Toml.Value}
    {change' : String → Node → Node}
    (h : ∀ key value, ofToml (change key value) = change' key (ofToml value))
    (entries : List (String × Toml.Value)) :
    ofTomlEntries (prune some gone change entries) =
      prune some gone change' (ofTomlEntries entries) := by
  induction entries with
  | nil => rfl
  | cons entry entries ih =>
      obtain ⟨key, value⟩ := entry
      rw [ofTomlEntries]
      by_cases hgone : gone key = true
      · rw [prune_cons_of_gone (by simpa using hgone), prune_cons_of_gone (by simpa using hgone),
          ih]
      · rw [prune_cons_of_kept (by simpa using hgone), prune_cons_of_kept (by simpa using hgone),
          ofTomlEntries, ih]
        simp [h]

theorem ofToml_leaveOut (value : Toml.Value) :
    ofToml (value.leaveOut gone) = (ofToml value).leaveOut gone := by
  cases value with
  | table entries =>
      exact congrArg Node.table (ofTomlEntries_prune (fun _ _ => rfl) entries)
  | _ => rfl

theorem ofFields?_prune {change : String → Json.Document → Json.Document}
    {change' : String → Node → Node}
    (h : ∀ key document, ofDocument (change key document) = change' key (ofDocument document))
    (fields : List (Option String × Json.Document)) :
    ofFields? (prune id gone change fields) = (ofFields? fields).map (prune some gone change') := by
  induction fields with
  | nil => rfl
  | cons field fields ih =>
      obtain ⟨key, document⟩ := field
      cases key with
      | none =>
          rw [prune_cons_of_kept rfl]
          rfl
      | some key =>
          rw [ofFields?]
          by_cases hgone : gone key = true
          · rw [prune_cons_of_gone (by simpa using hgone), ih, Option.map_map]
            congr 1
            funext fields
            exact (prune_cons_of_gone (by simpa using hgone)).symm
          · rw [prune_cons_of_kept (by simpa using hgone)]
            simp only [id, ofFields?, ih, Option.map_map]
            congr 1
            funext fields
            simp [prune_cons_of_kept, hgone, h]

theorem ofDocument_leaveOut (document : Json.Document) :
    ofDocument (document.leaveOut gone) = (ofDocument document).leaveOut gone := by
  cases document with
  | object fields =>
      have hprune : ofFields? (prune id gone (fun _ document => document) fields) =
          (ofFields? fields).map (prune some gone fun _ node => node) :=
        ofFields?_prune (fun _ _ => rfl) fields
      rw [Json.Document.leaveOut, ofDocument, ofDocument, hprune]
      cases ofFields? fields <;> rfl
  | number n =>
      simp only [Json.Document.leaveOut, ofDocument]
      split <;> rfl
  | text t => cases t <;> rfl
  | _ => rfl

/-- The fields of a table are those of its node. -/
theorem mem_ofTomlEntries {entries : List (String × Toml.Value)} {field : String × Node} :
    field ∈ ofTomlEntries entries ↔
      ∃ value, (field.1, value) ∈ entries ∧ ofToml value = field.2 := by
  induction entries with
  | nil => simp [ofTomlEntries]
  | cons entry entries ih =>
      obtain ⟨key, value⟩ := entry
      obtain ⟨name, node⟩ := field
      rw [ofTomlEntries, List.mem_cons, ih]
      constructor
      · rintro (heq | ⟨other, hmem, hother⟩)
        · cases heq
          exact ⟨value, List.mem_cons_self, rfl⟩
        · exact ⟨other, List.mem_cons_of_mem _ hmem, hother⟩
      · rintro ⟨other, hmem, rfl⟩
        rcases List.mem_cons.1 hmem with heq | hmem
        · cases heq
          exact .inl rfl
        · exact .inr ⟨other, hmem, rfl⟩

theorem mem_of_ofFields? {fields : List (Option String × Json.Document)} {named : Fields}
    (h : ofFields? fields = some named) {field : String × Node} :
    field ∈ named ↔
      ∃ document, (some field.1, document) ∈ fields ∧ ofDocument document = field.2 := by
  induction fields generalizing named with
  | nil =>
      obtain rfl := Option.some.inj h
      simp
  | cons first fields ih =>
      obtain ⟨key, document⟩ := first
      obtain ⟨name, node⟩ := field
      cases key with
      | none => cases h
      | some key =>
          obtain ⟨more, hmore, rfl⟩ := Option.map_eq_some_iff.1 h
          rw [List.mem_cons, ih hmore]
          constructor
          · rintro (heq | ⟨other, hmem, hother⟩)
            · cases heq
              exact ⟨document, List.mem_cons_self, rfl⟩
            · exact ⟨other, List.mem_cons_of_mem _ hmem, hother⟩
          · rintro ⟨other, hmem, rfl⟩
            rcases List.mem_cons.1 hmem with heq | hmem
            · cases heq
              exact .inl rfl
            · exact .inr ⟨other, hmem, rfl⟩

/-- A table whose values are no lists has a node that is none. -/
theorem ofToml_ne_list {value : Toml.Value} {inner : List (String × Toml.Value)}
    (h : value = .table inner) (exact : Bool) (items : List Node) :
    ofToml value ≠ .list exact items := by
  subst h
  exact nofun

theorem ofDocument_ne_list {document : Json.Document}
    {inner : List (Option String × Json.Document)} (h : document = .object inner) (exact : Bool)
    (items : List Node) : ofDocument document ≠ .list exact items := by
  subst h
  rw [ofDocument]
  split <;> exact nofun

end Node

namespace Contents

variable {o : Omission} {d : Contents} {fields : Fields}

/-- **What is left out of a document is left out of its node.** -/
theorem node_leaveOut (h : d.node = .table fields) :
    (d.leaveOut o).node = .table (ServiceSettings.pruned o fields) := by
  cases d with
  | toml entries =>
      cases h
      refine congrArg Node.table (Node.ofTomlEntries_prune (fun key value => ?_) entries)
      rw [Omission.change, Omission.change]
      split
      · exact Node.ofToml_leaveOut value
      · rfl
  | json fields =>
      have hchange : ∀ key document,
          Node.ofDocument (o.change Json.Document.leaveOut key document) =
            o.change Node.leaveOut key (Node.ofDocument document) := fun key document => by
        rw [Omission.change, Omission.change]
        split
        · exact Node.ofDocument_leaveOut document
        · rfl
      rw [node, Node.ofDocument] at h
      rw [leaveOut, node, Node.ofDocument, Node.ofFields?_prune hchange]
      split at h
      · next hfields =>
        cases h
        rw [hfields]
        rfl
      · cases h

/-- The fields of a table or an object have its keys. -/
theorem names_iff (h : d.node = .table fields) {key : String} :
    d.Names key ↔ key ∈ fields.map (·.1) := by
  cases d with
  | toml entries =>
      cases h
      simp only [Names, List.mem_map, Prod.exists, exists_and_right, exists_eq_right,
        Node.mem_ofTomlEntries]
      exact ⟨fun ⟨value, hmem⟩ => ⟨_, value, hmem, rfl⟩, fun ⟨_, value, hmem, _⟩ => ⟨value, hmem⟩⟩
  | json all =>
      rw [node, Node.ofDocument] at h
      split at h
      · next hfields =>
        cases h
        simp only [Names, List.mem_map, Prod.exists, exists_and_right, exists_eq_right,
          Node.mem_of_ofFields? hfields]
        exact ⟨fun ⟨document, hmem⟩ => ⟨_, document, hmem, rfl⟩,
          fun ⟨_, document, hmem, _⟩ => ⟨document, hmem⟩⟩
      · cases h

theorem partsByName (h : d.node = .table fields) (hparts : d.PartsAreTables) :
    PartsByName fields := by
  rintro ⟨name, part⟩ hmem hname
  cases d with
  | toml entries =>
      cases h
      obtain ⟨value, hvalue, rfl⟩ := Node.mem_ofTomlEntries.1 hmem
      obtain ⟨inner, hinner⟩ := hparts _ hvalue hname
      exact Node.ofToml_ne_list hinner
  | json all =>
      rw [node, Node.ofDocument] at h
      split at h
      · next hfields =>
        cases h
        obtain ⟨document, hdocument, rfl⟩ := (Node.mem_of_ofFields? hfields).1 hmem
        obtain ⟨inner, hinner⟩ := hparts _ hdocument _ hname rfl
        exact Node.ofDocument_ne_list hinner
      · cases h

/-- Contents that settings are read from have their node by names. -/
theorem exists_fields {s : ServiceSettings} (h : ServiceSettings.ofNode? d.node = some s) :
    ∃ fields, d.node = .table fields := by
  cases d with
  | toml entries => exact ⟨_, rfl⟩
  | json all =>
      rw [node, Node.ofDocument] at h ⊢
      split
      · exact ⟨_, rfl⟩
      · next hfields =>
        rw [hfields] at h
        cases h

end Contents

/-- An omission takes the program or the arguments away from a proxy that stays. -/
def Omission.Strips (o : Omission) (d : Contents) : Prop :=
  d.Names "proxy" ∧ o.top "proxy" = false ∧
    (o.inside "proxy" "program" = true ∨ o.inside "proxy" "args" = true)

namespace ServiceSettings

variable {o : Omission} {d : Contents} {s : ServiceSettings}

/-- **Every key may be left out but the program of the proxy and its arguments**, once there is a
proxy: what is left out has its default, and all else is as it was. -/
theorem omitted_keys_are_reset (hparts : d.PartsAreTables) {text rest : String}
    (htext : d.WrittenAs text) (hrest : (d.leaveOut o).WrittenAs rest)
    (hread : d.format.read text = .ok s) :
    (¬o.Strips d → d.format.read rest = .ok (s.reset o)) ∧
      (o.Strips d → d.format.read rest = .error .malformed) := by
  obtain ⟨hnode, hvalid⟩ := read_eq_ok_iff.1 hread
  rw [htext.node?_eq, Option.bind_some] at hnode
  obtain ⟨fields, hfields⟩ := Contents.exists_fields hnode
  have hbyName := Contents.partsByName hfields hparts
  rw [hfields] at hnode
  have hleft : d.format.node? rest = some (.table (pruned o fields)) := by
    rw [← Contents.node_leaveOut hfields, ← hrest.node?_eq]
    cases d <;> rfl
  constructor
  · intro hkept
    refine read_eq_ok_iff.2 ⟨?_, hvalid.reset⟩
    rw [hleft, Option.bind_some]
    refine ofNode?_pruned hbyName hnode fun hproxy hstays => ?_
    simp only [Omission.Strips, Contents.names_iff hfields, not_and, not_or, Bool.not_eq_true]
      at hkept
    exact hkept hproxy hstays
  · rintro ⟨hproxy, hstays, hlost⟩
    rw [Format.read_eq]
    refine accept_of_eq_none ?_
    rw [hleft, Option.bind_some]
    exact ofNode?_pruned_eq_none hbyName hnode ((Contents.names_iff hfields).1 hproxy) hstays hlost

end ServiceSettings

/-! ### Sheets -/

/-- The contents of a sheet. -/
def Contents.ofSheet (sheet : Toml.Sheet) : Contents := .toml sheet.document

theorem Contents.writtenAs_ofSheet {sheet : Toml.Sheet} (h : sheet.Clear) {text : String}
    (htext : sheet.text? = some text) : (ofSheet sheet).WrittenAs text :=
  Toml.Sheet.read?_text h htext

namespace ServiceSettings

/-- A sheet with keys at the top and in two parts. -/
def fullSheet : Toml.Sheet where
  entries := [("pool_size", .natural 7), ("log_level", .text "debug")]
  tables :=
    [("proxy", [("program", .text "x"), ("args", .texts ["-v"]), ("ready_timeout_ms", .natural 9)]),
     ("route", [("interval_ms", .natural 3)])]

def fullText : String :=
  "pool_size = 7\nlog_level = \"debug\"\n\n[proxy]\nprogram = \"x\"\nargs = [\"-v\"]\n" ++
    "ready_timeout_ms = 9\n\n[route]\ninterval_ms = 3\n"

/-- The same sheet without a key at the top and one in each part. -/
def sparseSheet : Toml.Sheet where
  entries := [("log_level", .text "debug")]
  tables := [("proxy", [("program", .text "x"), ("args", .texts ["-v"])]), ("route", [])]

def sparseText : String :=
  "log_level = \"debug\"\n\n[proxy]\nprogram = \"x\"\nargs = [\"-v\"]\n\n[route]\n"

/-- Leaves these keys out. -/
def sparing : Omission where
  top key := key == "pool_size"
  inside _ key := key == "ready_timeout_ms" || key == "interval_ms"

theorem sparse_sheet_is_reset :
    (Contents.ofSheet fullSheet).PartsAreTables ∧
      (Contents.ofSheet fullSheet).WrittenAs fullText ∧
      ((Contents.ofSheet fullSheet).leaveOut sparing).WrittenAs sparseText ∧
      ¬sparing.Strips (.ofSheet fullSheet) ∧
      Format.toml.read fullText =
        .ok { poolSize := 7, logLevel := "debug", route := { intervalMs := 3 },
              proxy := { program := "x", args := ["-v"], readyTimeoutMs := 9 } } ∧
      Format.toml.read sparseText =
        .ok { logLevel := "debug", proxy := { program := "x", args := ["-v"] } } := by
  have hparts : (Contents.ofSheet fullSheet).PartsAreTables := by
    rintro entry hentry hname
    simp only [Toml.Sheet.document, fullSheet, Toml.linesValues, List.map_cons, List.map_nil,
      List.cons_append, List.nil_append, List.mem_cons, List.not_mem_nil, or_false] at hentry
    rcases hentry with rfl | rfl | rfl | rfl
    · exact absurd hname (by decide)
    · exact absurd hname (by decide)
    · exact ⟨_, rfl⟩
    · exact ⟨_, rfl⟩
  have hfull : (Contents.ofSheet fullSheet).WrittenAs fullText :=
    Contents.writtenAs_ofSheet ⟨by decide, by decide⟩ (by decide +kernel)
  have hleaveOut : (Contents.ofSheet fullSheet).leaveOut sparing = .ofSheet sparseSheet := rfl
  have hsparse : ((Contents.ofSheet fullSheet).leaveOut sparing).WrittenAs sparseText := by
    rw [hleaveOut]
    exact Contents.writtenAs_ofSheet ⟨by decide, by decide⟩ (by decide +kernel)
  have hread : Format.toml.read fullText =
      .ok { poolSize := 7, logLevel := "debug", route := { intervalMs := 3 },
            proxy := { program := "x", args := ["-v"], readyTimeoutMs := 9 } } := by
    decide +kernel
  have hkept : ¬sparing.Strips (.ofSheet fullSheet) := by
    rintro ⟨-, -, hlost | hlost⟩ <;> exact absurd hlost (by decide)
  exact ⟨hparts, hfull, hsparse, hkept, hread,
    (omitted_keys_are_reset hparts hfull hsparse hread).1 hkept⟩

/-- A sheet with a proxy that has no arguments. -/
def plainSheet : Toml.Sheet where
  entries := []
  tables := [("proxy", [("program", .text "x"), ("args", .texts [])])]

/-- The same sheet without the program. -/
def namelessSheet : Toml.Sheet where
  entries := []
  tables := [("proxy", [("args", .texts [])])]

/-- **The program has no default.**  A document that configures a proxy is accepted, and without the
program it is not. -/
theorem program_cannot_be_omitted :
    (Contents.ofSheet plainSheet).WrittenAs "\n[proxy]\nprogram = \"x\"\nargs = []\n" ∧
      Format.toml.read "\n[proxy]\nprogram = \"x\"\nargs = []\n" =
        .ok { proxy := { program := "x", args := [] } } ∧
      (Contents.ofSheet plainSheet).leaveOut ⟨fun _ => false, fun _ key => key == "program"⟩ =
        .ofSheet namelessSheet ∧
      (Contents.ofSheet namelessSheet).WrittenAs "\n[proxy]\nargs = []\n" ∧
      Format.toml.read "\n[proxy]\nargs = []\n" = .error .malformed := by
  have hplain : (Contents.ofSheet plainSheet).WrittenAs "\n[proxy]\nprogram = \"x\"\nargs = []\n" :=
    Contents.writtenAs_ofSheet ⟨by decide, by decide⟩ (by decide +kernel)
  have hnameless : (Contents.ofSheet namelessSheet).WrittenAs "\n[proxy]\nargs = []\n" :=
    Contents.writtenAs_ofSheet ⟨by decide, by decide⟩ (by decide +kernel)
  exact ⟨hplain, by decide +kernel, rfl, hnameless, by decide +kernel⟩

end ServiceSettings

end TunnelKeeper.Settings
