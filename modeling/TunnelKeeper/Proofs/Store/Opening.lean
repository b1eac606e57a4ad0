import TunnelKeeper.Proofs.Store.Documents
import TunnelKeeper.Proofs.Store.Reopening

/-!
# Opening — what a store makes of any file

The bytes of a file are a text, the text is a document, and the document describes a state; each of
these may fail.  A text that fails is no obstacle: where it describes no state, the store is empty,
and where only the tunnel's entry is no tunnel, the status and the flag are read all the same and
loading tells so.  Bytes that are no text are an obstacle: the store does not open
(`open?_of_text`, `open?_of_no_text`).

What was opened is written again with every update.  Then it opens as the state it was with the
update, as far as the doubles in the tunnel's entry are read from their texts as they were
(`open?_after_update`).
-/

namespace TunnelKeeper.Store

open Files (Directory Path Cut)
open Json (Document)

variable {dir dir' : Directory} {path : Path} {content : List UInt8} {store store' : FileStore}
  {s : String} {document : Document} {state : Persisted}

/-- A text describes a state. -/
def TextDescribes (s : String) (state : Persisted) : Prop :=
  ∃ document, Document.read? s = some document ∧ Describes document state

theorem ofText_of_describes (h : TextDescribes s state) : Persisted.ofText s = state := by
  obtain ⟨document, hread, hdescribes⟩ := h
  rw [Persisted.ofText, hread, Option.bind_some, ofDocument?_eq_some.2 hdescribes, Option.getD_some]

/-- The text of a state describes it. -/
theorem describes_text (h : state.Legible) (hnesting : state.toJson.nesting ≤ Document.depthLimit) :
    TextDescribes state.text state := by
  refine ⟨state.toJson.document, Json.read?_pretty h.rereads, ofDocument?_eq_some.1 ?_⟩
  rw [Persisted.ofDocument?_document h, if_pos hnesting]

/-- A text that describes no state counts as the empty state. -/
theorem ofText_of_not_describes (h : ∀ state, ¬TextDescribes s state) :
    Persisted.ofText s = {} := by
  have hnone : (Document.read? s).bind Persisted.ofDocument? = none := by
    rw [Option.eq_none_iff_forall_ne_some]
    intro state hstate
    obtain ⟨document, hread, hdocument⟩ := Option.bind_eq_some_iff.1 hstate
    exact h state ⟨document, hread, ofDocument?_eq_some.1 hdocument⟩
  rw [Persisted.ofText, hnone, Option.getD_none]

theorem open?_of_text (hread : dir.read path = .ok (Utf8.ofText s)) :
    FileStore.open? dir path = .ok ⟨path, Persisted.ofText s⟩ := by
  rw [FileStore.open?, hread]
  simp only [Utf8.text?_ofText]

theorem open?_of_no_text (hread : dir.read path = .ok content)
    (h : ∀ s, content ≠ Utf8.ofText s) : FileStore.open? dir path = .error .io := by
  have hnone : Utf8.text? content = none := by
    rw [Option.eq_none_iff_forall_ne_some]
    exact fun s hs => h s (Utf8.text?_eq_some.1 hs)
  rw [FileStore.open?, hread]
  simp only [hnone]

/-- What a text gives is spelled by its own text, as far as its doubles are. -/
theorem legible_ofText (h : Rereadable (Persisted.ofText s)) : (Persisted.ofText s).Legible := by
  by_cases hs : ∃ state, TextDescribes s state
  · obtain ⟨state, hstate⟩ := hs
    rw [ofText_of_describes hstate] at h ⊢
    obtain ⟨document, -, hdescribes⟩ := hstate
    exact hdescribes.legible h
  · rw [ofText_of_not_describes (not_exists.1 hs)]
    nofun

theorem nesting_ofText (s : String) :
    (Persisted.ofText s).toJson.nesting ≤ Document.depthLimit := by
  by_cases hs : ∃ state, TextDescribes s state
  · obtain ⟨state, hstate⟩ := hs
    rw [ofText_of_describes hstate]
    obtain ⟨document, -, hdescribes⟩ := hstate
    exact hdescribes.nesting_le
  · rw [ofText_of_not_describes (not_exists.1 hs)]
    decide

/-- The state of a store that was opened from a file is what its text gives. -/
theorem exists_text_of_open? (hread : dir.read path = .ok content)
    (hopen : FileStore.open? dir path = .ok store) :
    ∃ s, content = Utf8.ofText s ∧ store = ⟨path, Persisted.ofText s⟩ := by
  by_cases h : ∃ s, content = Utf8.ofText s
  · obtain ⟨s, rfl⟩ := h
    rw [open?_of_text hread] at hopen
    cases hopen
    exact ⟨s, rfl, rfl⟩
  · rw [open?_of_no_text hread (not_exists.1 h)] at hopen
    cases hopen

/-- **An update of what was opened is there again.**  It keeps the tunnel's entry as it was, and so
the file opens as the updated state. -/
theorem open?_after_update {change : Update} {cut : Option Cut} {before after : Directory}
    (hread : dir.read path = .ok content) (hopen : FileStore.open? dir path = .ok store)
    (hdoubles : Rereadable store.state)
    (hchange : (store.state.apply change).tunnel = store.state.tunnel)
    (hrun : store.update change cut before = (after, .ok store')) :
    FileStore.open? after path = .ok ⟨path, store.state.apply change⟩ := by
  have hnil := FileStore.ne_nil_of_open? hopen
  obtain ⟨s, -, rfl⟩ := exists_text_of_open? hread hopen
  obtain ⟨-, hwritten⟩ := FileStore.read_of_update hnil hrun
  have hlegible : ((Persisted.ofText s).apply change).Legible := fun json hjson =>
    legible_ofText hdoubles json (hchange ▸ hjson)
  have hnesting : ((Persisted.ofText s).apply change).toJson.nesting ≤ Document.depthLimit := by
    rw [Persisted.nesting_toJson, hchange, ← Persisted.nesting_toJson]
    exact nesting_ofText s
  rw [open?_of_read hlegible hwritten, if_pos hnesting]

/-! ### Any content -/

/-- **What a store makes of a file**, by the content of the file. -/
structure Opening (dir : Directory) (path : Path) (content : List UInt8) : Prop where
  /-- Bytes that are no text are refused. -/
  refused : (∀ s, content ≠ Utf8.ofText s) → FileStore.open? dir path = .error .io
  /-- A text that describes a state opens.  Its status and its flag are reported, and loading tells
  what the tunnel's entry stands for, or that it stands for no tunnel. -/
  reported : ∀ {s : String} {state : Persisted}, content = Utf8.ofText s → TextDescribes s state →
    ∃ store loaded, FileStore.open? dir path = .ok store ∧ Loads state.tunnel loaded ∧
      store.state.answers = (loaded, state.status, state.udpSupported)
  /-- A text that describes none opens as the empty store. -/
  empty : ∀ {s : String}, content = Utf8.ofText s → (∀ state, ¬TextDescribes s state) →
    ∃ store, FileStore.open? dir path = .ok store ∧
      store.state.answers = (.ok none, .disconnected, false)
  /-- A status that was set is there when the store is opened again, where nothing else has
  changed; -/
  statusKept : ∀ {store store' : FileStore} {status : Status} {cut : Option Cut}
    {before after : Directory}, FileStore.open? dir path = .ok store → Rereadable store.state →
      store.update (.status status) cut before = (after, .ok store') →
        FileStore.open? after path = .ok ⟨path, { store.state with status }⟩
  /-- and so is a flag. -/
  flagKept : ∀ {store store' : FileStore} {udpSupported : Bool} {cut : Option Cut}
    {before after : Directory}, FileStore.open? dir path = .ok store → Rereadable store.state →
      store.update (.udpSupported udpSupported) cut before = (after, .ok store') →
        FileStore.open? after path = .ok ⟨path, { store.state with udpSupported }⟩

/-- **A file is opened by what it holds.**  Whatever text it is, the store opens and degrades layer
by layer: with the state the text describes, with a tunnel that loading reports as malformed, or
empty; and what is set then is there when the store is opened again. -/
theorem file_opened_by_content (hread : dir.read path = .ok content) :
    Opening dir path content where
  refused h := open?_of_no_text hread h
  reported {s state} hs hdescribes := by
    subst hs
    have hstate := ofText_of_describes hdescribes
    refine ⟨⟨path, Persisted.ofText s⟩, state.load, open?_of_text hread, load_eq_iff.1 rfl, ?_⟩
    rw [hstate]
    rfl
  empty hs hnone := by
    subst hs
    refine ⟨_, open?_of_text hread, ?_⟩
    rw [ofText_of_not_describes hnone]
    rfl
  statusKept hopen hdoubles hrun := open?_after_update hread hopen hdoubles rfl hrun
  flagKept hopen hdoubles hrun := open?_after_update hread hopen hdoubles rfl hrun

/-- A directory with a file in it. -/
def holding (content : List UInt8) : Directory := ⟨[(["state.json"], .file content)]⟩

theorem read_holding (content : List UInt8) :
    (holding content).read ["state.json"] = .ok content := rfl

/-- A state whose tunnel is a number. -/
def numbered : Persisted := ⟨some (.number (.natural 42)), .connected, false⟩

theorem numbered_legible : numbered.Legible := by
  rintro json ⟨⟩
  refine ⟨nofun, trivial, fun n hn => ?_⟩
  cases List.mem_singleton.1 hn
  exact Json.Number.rereads_of_inRange (show (42 : Nat) < 2 ^ 64 by decide) nofun

theorem rereadable_numbered : Rereadable numbered := by
  rintro json ⟨⟩ d hd
  cases List.mem_singleton.1 hd

/-- The number is reported as a malformed tunnel beside the status, and it is still so when a flag
was set and the store is opened again. -/
theorem numbered_tunnel_reported :
    (holding (FileStore.content numbered)).read ["state.json"] = .ok (FileStore.content numbered) ∧
      ∃ store, FileStore.open? (holding (FileStore.content numbered)) ["state.json"] = .ok store ∧
        store.state.answers = (.error .malformed, .connected, false) ∧
        ∃ after store',
          store.update (.udpSupported true) none (holding (FileStore.content numbered)) =
            (after, .ok store') ∧
          FileStore.open? after ["state.json"] =
            .ok ⟨["state.json"], { numbered with udpSupported := true }⟩ := by
  have opening := file_opened_by_content (read_holding (FileStore.content numbered))
  have hnesting : numbered.toJson.nesting ≤ Document.depthLimit := by decide
  have hdescribes : TextDescribes numbered.text numbered := describes_text numbered_legible hnesting
  have hopen : FileStore.open? (holding (FileStore.content numbered)) ["state.json"] =
      .ok ⟨["state.json"], numbered⟩ := by
    rw [open?_of_read numbered_legible (read_holding _), if_pos hnesting]
  obtain ⟨store, loaded, hstore, hloads, hanswers⟩ := opening.reported rfl hdescribes
  have hloaded : loaded = .error .malformed := by
    rw [← load_eq_iff.2 hloads]
    rfl
  cases hopen.symm.trans hstore
  have hrun : FileStore.update ⟨["state.json"], numbered⟩ (.udpSupported true) none
      (holding (FileStore.content numbered)) = (_, .ok _) := rfl
  exact ⟨rfl, _, hopen, hanswers.trans (hloaded ▸ rfl), _, _, hrun,
    opening.flagKept hopen rereadable_numbered hrun⟩

/-- The number under a key of the configuration that is loaded. -/
def loadedNumber? (state : Persisted) (key : String) : Option Json.Number :=
  match state.load with
  | .ok (some d) =>
    match Json.Entries.find? key d.config.entries with
    | some (.number n) => some n
    | _ => none
  | _ => none

/-- The text of a state whose tunnel has a double in its configuration that does not reread. -/
def drifting : String :=
  "\x7b\"tunnel\":\x7b\"id\":\"a\",\"config\":\x7b\"x\":1e-30\x7d\x7d\x7d"

/-- A byte that is no text keeps the store from opening; and a double that does not reread is
another one after a status was set and the store was opened again. -/
theorem byte_refused_double_drifts :
    FileStore.open? (holding [0xFF]) ["state.json"] = .error .io ∧
      ∃ store after store' again,
        FileStore.open? (holding (Utf8.ofText drifting)) ["state.json"] = .ok store ∧
        store.update (.status .connected) none (holding (Utf8.ofText drifting)) =
          (after, .ok store') ∧
        FileStore.open? after ["state.json"] = .ok again ∧
        loadedNumber? store.state "x" = some (.double ⟨false, 5708990770823839, -152⟩) ∧
        loadedNumber? again.state "x" = some (.double ⟨false, 5708990770823840, -152⟩) := by
  have hrun : FileStore.update ⟨["state.json"], Persisted.ofText drifting⟩ (.status .connected) none
      (holding (Utf8.ofText drifting)) = (_, .ok _) := rfl
  have hwritten := (FileStore.read_of_update (List.cons_ne_nil _ _) hrun).2
  refine ⟨by rfl, _, _, _, _, open?_of_text (read_holding _), hrun, open?_of_text hwritten, ?_, ?_⟩
  · decide +kernel
  · decide +kernel

end TunnelKeeper.Store
