import TunnelKeeper.Proofs.Store.Atomic
import TunnelKeeper.Proofs.Store.Texts
import TunnelKeeper.Proofs.Text.Utf8

/-!
# Reopening — a file store beside one that is kept in memory

A file store whose updates all succeed is closed and opened again at any points (`Calls`).  It
answers as a store that is given the same updates and is kept in memory, because at every point its
file would open as the state it has (`Calls.kept`).

A tunnel comes from outside where some document denotes its configuration (`Admitted`); then the
text of the state spells it.  It fits where its configuration is nested at most two levels less than
a text may be.  A configuration may come from outside that does not fit: it is remembered, and
forgotten when the store is opened again (`deep_tunnel_is_forgotten`).
-/

namespace TunnelKeeper.Store

open Files (Directory Path Cut)
open Json (Document)

/-! ### Updates that come from outside -/

/-- A configuration that some document denotes, as one does that is read from a text, and whose
doubles reread. -/
structure Admitted (config : TunnelConfig) : Prop where
  denoted : ∃ (document : Document) (depth : Nat), document.value? depth = some config.toJson
  doubles : ∀ d, .double d ∈ config.toJson.numbers → (Json.Number.double d).Rereads

theorem Admitted.of_read? {config : TunnelConfig} {s : String}
    (h : Json.read? s = some config.toJson)
    (hdoubles : ∀ d, .double d ∈ config.toJson.numbers → (Json.Number.double d).Rereads) :
    Admitted config := by
  obtain ⟨document, -, hvalue⟩ := Option.bind_eq_some_iff.1 h
  exact ⟨⟨document, Document.depthLimit, hvalue⟩, hdoubles⟩

/-- The tunnel that an update remembers, if it remembers one, has a configuration that comes from
outside. -/
def Update.Admitted : Update → Prop
  | .tunnel d => Store.Admitted d.config
  | .status _ | .udpSupported _ => True

/-- The tunnel that an update remembers, if it remembers one, leaves room for the two objects that
stand around its configuration in the text of a state. -/
def Update.Fits : Update → Prop
  | .tunnel d => d.config.toJson.nesting + 2 ≤ Document.depthLimit
  | .status _ | .udpSupported _ => True

namespace Persisted

variable {state : Persisted} {d : Descriptor}

/-- A tunnel whose configuration comes from outside is one that the text of the state spells. -/
theorem Legible.apply_tunnel (state : Persisted) (h : Admitted d.config) :
    (state.apply (.tunnel d)).Legible := by
  intro json hjson
  cases hjson
  obtain ⟨document, depth, hvalue⟩ := h.denoted
  obtain ⟨hordered, hrange⟩ := Json.Document.ordered_of_value? document hvalue
  refine ⟨nofun, ⟨?_, hordered, trivial, trivial⟩, fun n hn => ?_⟩
  · exact List.pairwise_pair.2 (show "config" < "id" by decide)
  · have hconfig : n ∈ d.config.toJson.numbers := by
      simpa [Descriptor.toJson, Json.numbers, Json.entryNumbers] using hn
    exact Json.Number.rereads_of_inRange (hrange n hconfig) fun double heq =>
      heq ▸ h.doubles double (heq ▸ hconfig)

theorem Legible.apply {change : Update} (h : state.Legible) (hchange : change.Admitted) :
    (state.apply change).Legible := by
  cases change with
  | tunnel d => exact Legible.apply_tunnel state hchange
  | status s => exact h
  | udpSupported supported => exact h

theorem nesting_apply {change : Update} (h : state.toJson.nesting ≤ Document.depthLimit)
    (hchange : change.Fits) : (state.apply change).toJson.nesting ≤ Document.depthLimit := by
  cases change with
  | tunnel d => exact (nesting_apply_tunnel state d).trans_le hchange
  | status s => exact h
  | udpSupported supported => exact h

end Persisted

/-! ### Calls -/

/-- The state of a store that is kept in memory, after updates. -/
def memory (calls : List Update) : Persisted := calls.foldl Persisted.apply {}

/-- The updates of a store at a path, none of which failed, since it was opened without a state; it
has been opened again at any points. -/
inductive Calls (path : Path) : Directory → FileStore → List Update → Prop where
  | opened {dir : Directory} {store : FileStore} (h : FileStore.open? dir path = .ok store)
      (hempty : store.state = {}) : Calls path dir store []
  | updated {dir dir' : Directory} {store store' : FileStore} {calls : List Update}
      (h : Calls path dir store calls) (change : Update) (cut : Option Cut)
      (hrun : store.update change cut dir = (dir', .ok store')) :
      Calls path dir' store' (calls ++ [change])
  | reopened {dir : Directory} {store store' : FileStore} {calls : List Update}
      (h : Calls path dir store calls) (hopen : FileStore.open? dir path = .ok store') :
      Calls path dir store' calls

theorem memory_append (calls : List Update) (change : Update) :
    memory (calls ++ [change]) = (memory calls).apply change := by
  simp [memory]

/-- Where admitted tunnels were remembered, the state in memory is legible. -/
theorem legible_memory {calls : List Update} (h : ∀ change ∈ calls, change.Admitted) :
    (memory calls).Legible := by
  induction calls using List.reverseRecOn with
  | nil => nofun
  | append_singleton calls change ih =>
      obtain ⟨hcalls, hchange⟩ := List.forall_mem_append.1 h
      rw [memory_append]
      exact (ih hcalls).apply (hchange change List.mem_cons_self)

theorem nesting_memory {calls : List Update} (h : ∀ change ∈ calls, change.Fits) :
    (memory calls).toJson.nesting ≤ Document.depthLimit := by
  induction calls using List.reverseRecOn with
  | nil => decide
  | append_singleton calls change ih =>
      obtain ⟨hcalls, hchange⟩ := List.forall_mem_append.1 h
      rw [memory_append]
      exact Persisted.nesting_apply (ih hcalls) (hchange change List.mem_cons_self)

/-- A file that holds the text of a legible state opens as that state, or as none where lists and
objects are nested too deep in it. -/
theorem open?_of_read {dir : Directory} {path : Path} {state : Persisted} (h : state.Legible)
    (hread : dir.read path = .ok (FileStore.content state)) :
    FileStore.open? dir path =
      .ok ⟨path, if state.toJson.nesting ≤ Document.depthLimit then state else {}⟩ := by
  rw [FileStore.open?, hread]
  simp only [FileStore.content, Utf8.text?_ofText, Persisted.ofText_text h]

variable {dir : Directory} {path : Path} {store : FileStore} {calls : List Update}

/-- The store is at its path, it has the state of a store in memory, and it would open again as it
is. -/
theorem Calls.kept (h : Calls path dir store calls) (hadmitted : ∀ change ∈ calls, change.Admitted)
    (hfits : ∀ change ∈ calls, change.Fits) :
    store = ⟨path, memory calls⟩ ∧ FileStore.open? dir path = .ok store := by
  induction h with
  | @opened _ store hopen hempty =>
      obtain ⟨_, _⟩ := store
      cases FileStore.path_open? hopen
      cases hempty
      exact ⟨rfl, hopen⟩
  | @updated _ dir' _ _ calls _ change _ hrun ih =>
      obtain ⟨rfl, hopen⟩ := ih (List.forall_mem_append.1 hadmitted).1
        (List.forall_mem_append.1 hfits).1
      obtain ⟨rfl, hread⟩ := FileStore.read_of_update (FileStore.ne_nil_of_open? hopen) hrun
      rw [← memory_append] at hread ⊢
      refine ⟨rfl, ?_⟩
      rw [open?_of_read (legible_memory hadmitted) hread, if_pos (nesting_memory hfits)]
  | reopened _ hopen ih =>
      obtain ⟨rfl, hsame⟩ := ih hadmitted hfits
      cases hsame.symm.trans hopen
      exact ⟨rfl, hopen⟩

/-- A store whose updates all succeeded answers as one that is kept in memory, whenever it is asked,
and so it does when it is opened again, which it always can be.  The tunnels it was given have
configurations that come from outside and leave room for two objects around them. -/
theorem reopened_store_answers (h : Calls path dir store calls)
    (hadmitted : ∀ change ∈ calls, change.Admitted) (hfits : ∀ change ∈ calls, change.Fits) :
    store.state.answers = (memory calls).answers ∧
      ∃ store', FileStore.open? dir path = .ok store' ∧
        store'.state.answers = (memory calls).answers := by
  obtain ⟨rfl, hopen⟩ := h.kept hadmitted hfits
  exact ⟨rfl, _, hopen, rfl⟩

/-- A tunnel with a text, a whole number and a double in its configuration. -/
def weighted : Descriptor :=
  ⟨"a", ⟨[("host", .text "h"), ("port", .number (.natural 8388)),
    ("weight", .number (.double ⟨false, 4503599627370496, -53⟩))]⟩⟩

theorem number?_half :
    Json.Numeral.number? ⟨false, ['0'], ['5'], none⟩ =
      some (.double ⟨false, 4503599627370496, -53⟩) := by
  decide +kernel

theorem number?_port :
    Json.Numeral.number? ⟨false, ['8', '3', '8', '8'], [], none⟩ = some (.natural 8388) := by
  decide +kernel

theorem rereads_half : (Json.Number.double ⟨false, 4503599627370496, -53⟩).Rereads := by
  refine Json.Number.rereads_of_numeral _ (fun fuel => ?_) number?_half
  have hchars : Json.Number.chars (.double ⟨false, 4503599627370496, -53⟩) = ['0', '.', '5'] := by
    decide
  rw [hchars]
  rfl

theorem weighted_admitted : Admitted weighted.config where
  denoted := by
    refine ⟨.object [(some "host", .text (some "h")),
      (some "port", .number ⟨false, ['8', '3', '8', '8'], [], none⟩),
      (some "weight", .number ⟨false, ['0'], ['5'], none⟩)], 1, ?_⟩
    have hsorted : Json.Entries.Sorted weighted.config.entries := by
      unfold Json.Entries.Sorted
      decide
    have hentries := Json.Entries.ofList_of_sorted hsorted
    simp only [weighted] at hentries
    simp [Document.value?, Document.entries?, number?_half, number?_port, hentries, weighted,
      TunnelConfig.toJson]
  doubles d hd := by
    have heq : d = ⟨false, 4503599627370496, -53⟩ := by
      simpa [weighted, TunnelConfig.toJson, Json.numbers, Json.entryNumbers] using hd
    exact heq ▸ rereads_half

/-- A tunnel is remembered, the store is opened again and told a status, and opened once more. -/
theorem weighted_tunnel_comes_back :
    ∃ dir store, Calls ["run", "state.json"] dir store [.tunnel weighted, .status .connected] ∧
      (∀ change ∈ [Update.tunnel weighted, .status .connected], change.Admitted) ∧
      (∀ change ∈ [Update.tunnel weighted, .status .connected], change.Fits) ∧
      ∃ store', FileStore.open? dir ["run", "state.json"] = .ok store' ∧
        store'.state.answers = (.ok (some weighted), .connected, false) := by
  have hadmitted : ∀ change ∈ [Update.tunnel weighted, .status .connected], change.Admitted := by
    simp [Update.Admitted, weighted_admitted]
  have hfits : ∀ change ∈ [Update.tunnel weighted, .status .connected], change.Fits := by
    simp [Update.Fits, weighted, TunnelConfig.toJson, Json.nesting, Json.entryNesting,
      Document.depthLimit]
  have hopened : Calls ["run", "state.json"] .empty ⟨["run", "state.json"], {}⟩ [] :=
    .opened rfl rfl
  have hsaved := hopened.updated (.tunnel weighted) none rfl
  have hsame :=
    (hsaved.kept (List.forall_mem_append.1 hadmitted).1 (List.forall_mem_append.1 hfits).1).2
  have htold := (hsaved.reopened hsame).updated (.status .connected) none rfl
  obtain ⟨-, store', hopen, hanswers⟩ := reopened_store_answers htold hadmitted hfits
  refine ⟨_, _, htold, hadmitted, hfits, store', hopen, hanswers.trans ?_⟩
  have hload : (memory [.tunnel weighted, .status .connected]).load = .ok (some weighted) :=
    Persisted.load_of_tunnel rfl
  rw [Persisted.answers, show memory ([] ++ [.tunnel weighted] ++ [.status .connected]) =
    memory [.tunnel weighted, .status .connected] from rfl, hload]
  rfl

/-! ### Tunnels that do not fit -/

/-- Lists within lists, so many of them. -/
def lists : Nat → Json
  | 0 => .null
  | n + 1 => .list [lists n]

theorem numbers_lists (n : Nat) : (lists n).numbers = [] := by
  induction n with
  | zero => rfl
  | succ n ih => simp [lists, Json.numbers, Json.itemNumbers, ih]

theorem ordered_lists (n : Nat) : (lists n).Ordered := by
  induction n with
  | zero => trivial
  | succ n ih => exact ⟨ih, trivial⟩

theorem nesting_lists (n : Nat) : (lists n).nesting = n := by
  induction n with
  | zero => rfl
  | succ n ih => simp [lists, Json.nesting, Json.itemNesting, ih]

/-- A tunnel with lists within lists in its configuration. -/
def deep (n : Nat) : Descriptor := ⟨"a", ⟨[("x", lists n)]⟩⟩

theorem numbers_deep (n : Nat) : (deep n).config.toJson.numbers = [] := by
  simp [deep, TunnelConfig.toJson, Json.numbers, Json.entryNumbers, numbers_lists]

theorem nesting_deep (n : Nat) : (deep n).config.toJson.nesting = n + 1 := by
  simp [deep, TunnelConfig.toJson, Json.nesting, Json.entryNesting, nesting_lists]

theorem ordered_deep (n : Nat) : (deep n).config.toJson.Ordered :=
  ⟨List.pairwise_singleton _ _, ordered_lists n, trivial⟩

/-- The configuration of a deep tunnel is read from a text, as long as that text itself is not
nested too deep. -/
theorem read?_deep {n : Nat} (h : n + 1 ≤ Document.depthLimit) :
    Json.read? (deep n).config.toJson.pretty = some (deep n).config.toJson := by
  have hnumbers : ∀ m ∈ (deep n).config.toJson.numbers, m.Rereads := by simp [numbers_deep]
  rw [Json.read?, Json.read?_pretty hnumbers]
  show (deep n).config.toJson.document.value? Document.depthLimit = _
  rw [Json.value?_document _ (ordered_deep n) hnumbers, nesting_deep, if_pos h]

theorem deep_admitted {n : Nat} (h : n + 1 ≤ Document.depthLimit) : Admitted (deep n).config :=
  .of_read? (read?_deep h) (by simp [numbers_deep])

/-- A configuration is read from a text, there are no doubles in it, and remembering its tunnel
succeeds; but opened again the store has no tunnel, because its file is nested deeper than a text
may be. -/
theorem deep_tunnel_is_forgotten :
    Json.read? (deep 125).config.toJson.pretty = some (deep 125).config.toJson ∧
      (deep 125).config.toJson.numbers = [] ∧
      ∃ dir store, Calls ["state.json"] dir store [.tunnel (deep 125)] ∧
        store.state.answers = (.ok (some (deep 125)), .disconnected, false) ∧
        ∃ store', FileStore.open? dir ["state.json"] = .ok store' ∧
          store'.state.answers = (.ok none, .disconnected, false) := by
  refine ⟨read?_deep (by decide), numbers_deep _, ?_⟩
  have hopened : Calls ["state.json"] .empty ⟨["state.json"], {}⟩ [] := .opened rfl rfl
  have hrun : FileStore.update ⟨["state.json"], {}⟩ (.tunnel (deep 125)) none .empty =
    (_, .ok _) := rfl
  have hread := (FileStore.read_of_update (List.cons_ne_nil _ _) hrun).2
  have hlegible := Persisted.Legible.apply_tunnel {} (deep_admitted (n := 125) (by decide))
  have hdeep : ¬ (Persisted.apply {} (.tunnel (deep 125))).toJson.nesting ≤
      Document.depthLimit := by
    rw [Persisted.nesting_apply_tunnel, nesting_deep]
    decide
  refine ⟨_, _, hopened.updated _ _ hrun, ?_, _, open?_of_read hlegible hread, ?_⟩
  · exact congrArg (·, _, _) (Persisted.load_apply_tunnel {} (deep 125))
  · rw [if_neg hdeep]
    rfl

end TunnelKeeper.Store
