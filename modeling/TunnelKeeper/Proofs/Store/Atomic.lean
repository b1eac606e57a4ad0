import TunnelKeeper.Proofs.Files.Replacing
import TunnelKeeper.Store.FileStore

/-!
# Atomic updates — a file store that is cut short

A file store is opened, updated and opened again, in any order, and any of its updates is refused or
cut short (`Usage`).  What its file gives when it is read is told by the last update that was
carried out, and by nothing else: an update that was not leaves the file and the answers as they
were, wherever it stopped and whatever it left beside the file.

This needs the draft to be another file.  A path that ends in the ending of drafts is its own draft;
there the file is emptied before it is written, and an update that stops in between loses both texts
(`own_draft_is_torn`).
-/

namespace TunnelKeeper.Store

open Files (Directory Path Step Cut)

variable {dir dir' : Directory} {path : Path} {store store' : FileStore}
  {committed : Except Directory.ReadError (List UInt8)}

/-- What a store answers: the last tunnel, the status and whether datagrams worked. -/
def Persisted.answers (state : Persisted) :
    Except StoreError (Option Descriptor) × Status × Bool :=
  (state.load, state.status, state.udpSupported)

namespace FileStore

/-- The text of a state as the bytes of its file. -/
def content (state : Persisted) : List UInt8 := Utf8.ofText state.text

/-- The text of a state is never empty. -/
theorem content_ne_nil (state : Persisted) : [] ≠ content state := by
  have hbrace : state.text.toList ≠ [] := by
    simp [Persisted.text, Persisted.toJson, Json.pretty, Json.prettyChars]
  obtain ⟨c, rest, hchars⟩ := List.exists_cons_of_ne_nil hbrace
  rw [content, Utf8.ofText, hchars, Utf8.encode, List.flatMap_cons]
  intro hnil
  have hchar := (List.append_eq_nil_iff.1 hnil.symm).1
  unfold Utf8.encodeChar at hchar
  grind

/-- The store that goes on to answer after an update, which is the one before where it failed. -/
def next (store : FileStore) : Except StoreError FileStore → FileStore
  | .ok store' => store'
  | .error _ => store

theorem path_open? (h : open? dir path = .ok store) : store.path = path := by
  unfold open? at h
  split at h
  · split at h <;> cases h
    rfl
  · cases h
    rfl
  · cases h

/-- There is no store in the place of the directory itself. -/
theorem ne_nil_of_open? (h : open? dir path = .ok store) : path ≠ [] := by
  rintro rfl
  cases h

/-- Whether an update succeeds is whether all of its steps were carried out. -/
theorem update_eq {change : Update} {cut : Option Cut} {result : Except StoreError FileStore}
    (h : store.update change cut dir = (dir', result)) :
    ∃ finished, Files.runSteps cut (store.writeSteps (store.state.apply change)) dir =
        (dir', finished) ∧
      result = if finished then .ok { store with state := store.state.apply change }
        else .error .io := by
  simp only [update, Prod.mk.injEq] at h
  exact ⟨_, Prod.ext h.1 rfl, h.2.symm⟩

theorem draftPath_ne_nil (h : store.path ≠ []) : store.draftPath ≠ [] := by
  intro hnil
  have hlen := Path.length_withEnding "tmp" store.path
  rw [show store.path.withEnding "tmp" = [] from hnil] at hlen
  exact h (List.length_eq_zero_iff.1 hlen.symm)

/-- An update that succeeds leaves the text of its state in the file. -/
theorem read_of_update {change : Update} {cut : Option Cut} (hnil : store.path ≠ [])
    (h : store.update change cut dir = (dir', .ok store')) :
    store' = { store with state := store.state.apply change } ∧
      dir'.read store.path = .ok (content (store.state.apply change)) := by
  obtain ⟨finished, hsteps, hresult⟩ := update_eq h
  cases finished with
  | false => cases hresult
  | true =>
      cases hresult
      obtain ⟨cut₁, dir₁, hdraft⟩ := Files.runSteps_finished hsteps
      exact ⟨rfl, Files.read_of_draft_moved hnil (draftPath_ne_nil hnil) hdraft⟩

/-- An update that fails leaves the file alone, where its draft is another file. -/
theorem read_of_failure {change : Update} {cut : Option Cut} {e : StoreError}
    (hnil : store.path ≠ []) (hdraft : ¬ Path.HasEnding "tmp" store.path)
    (h : store.update change cut dir = (dir', .error e)) :
    dir'.read store.path = dir.read store.path := by
  have hne : store.draftPath ≠ store.path := fun heq =>
    ((Path.withEnding_eq_self_iff (by decide)).1 heq).elim hnil hdraft
  obtain ⟨finished, hsteps, hresult⟩ := update_eq h
  cases finished with
  | true => cases hresult
  | false =>
      obtain ⟨dir₁, hread, hstop | ⟨cut₁, hgo⟩⟩ := Files.runSteps_sparing
        (fun _ => Files.spares_of_mem_folderSteps store.path) cut
        [.write store.draftPath (content (store.state.apply change)),
          .move store.draftPath store.path] dir
      · cases hstop.symm.trans hsteps
        exact hread
      · exact (Files.read_of_draft_left (Path.length_withEnding _ _) hne
          (hgo.symm.trans hsteps)).trans hread

end FileStore

open FileStore (content)

/-- The use of a store at a path; `committed` is what reading the file gives by the last update that
was carried out, or by what was there at first. -/
inductive Usage (path : Path) :
    Directory → FileStore → Except Directory.ReadError (List UInt8) → Prop where
  | opened {dir : Directory} {store : FileStore} (h : FileStore.open? dir path = .ok store) :
      Usage path dir store (dir.read path)
  | updated {dir dir' : Directory} {store store' : FileStore} {committed}
      (h : Usage path dir store committed) (change : Update) (cut : Option Cut)
      (hrun : store.update change cut dir = (dir', .ok store')) :
      Usage path dir' store' (.ok (content store'.state))
  | failed {dir dir' : Directory} {store : FileStore} {committed e}
      (h : Usage path dir store committed) (change : Update) (cut : Option Cut)
      (hrun : store.update change cut dir = (dir', .error e)) :
      Usage path dir' store committed
  | reopened {dir : Directory} {store store' : FileStore} {committed}
      (h : Usage path dir store committed)
      (hopen : FileStore.open? dir path = .ok store') : Usage path dir store' committed

namespace Usage

theorem ne_nil (h : Usage path dir store committed) : path ≠ [] := by
  induction h with
  | opened hopen => exact FileStore.ne_nil_of_open? hopen
  | updated _ _ _ _ ih | failed _ _ _ _ ih | reopened _ _ ih => exact ih

theorem path_eq (h : Usage path dir store committed) : store.path = path := by
  induction h with
  | opened hopen | reopened _ hopen => exact FileStore.path_open? hopen
  | failed _ _ _ _ ih => exact ih
  | updated h _ _ hrun ih => exact (FileStore.read_of_update (ih ▸ h.ne_nil) hrun).1 ▸ ih

/-- The file holds what was committed. -/
theorem read_eq (hdraft : ¬ path.HasEnding "tmp") (h : Usage path dir store committed) :
    dir.read path = committed := by
  induction h with
  | opened => rfl
  | updated h _ _ hrun =>
      obtain ⟨rfl, hread⟩ := FileStore.read_of_update (h.path_eq ▸ h.ne_nil) hrun
      exact h.path_eq ▸ hread
  | failed h _ _ hrun ih =>
      have hread := FileStore.read_of_failure (h.path_eq ▸ h.ne_nil) (h.path_eq ▸ hdraft) hrun
      rw [h.path_eq] at hread
      exact hread.trans ih
  | reopened _ _ ih => exact ih

end Usage

/-- At a path that is no draft, and after any use of a store there, the file holds the last state
that was committed.  The next update, wherever it is refused or cut short, leaves that state or the
complete text of the new one: the new one where it succeeds, and where it fails the file and the
answers are as they were before. -/
theorem updates_are_atomic (hdraft : ¬ path.HasEnding "tmp") (h : Usage path dir store committed)
    (change : Update) (cut : Option Cut) :
    dir.read path = committed ∧
      match store.update change cut dir with
      | (dir', .ok store') => store'.state = store.state.apply change ∧
          dir'.read path = .ok (content (store.state.apply change))
      | (dir', .error e) => dir'.read path = committed ∧
          (store.next (.error e)).state.answers = store.state.answers := by
  have hnil : store.path ≠ [] := h.path_eq ▸ h.ne_nil
  refine ⟨h.read_eq hdraft, ?_⟩
  split
  · next dir' store' hrun =>
    obtain ⟨rfl, hread⟩ := FileStore.read_of_update hnil hrun
    exact ⟨rfl, h.path_eq ▸ hread⟩
  · next dir' e hrun =>
    have hread := FileStore.read_of_failure hnil (h.path_eq ▸ hdraft) hrun
    rw [h.path_eq] at hread
    exact ⟨hread.trans (h.read_eq hdraft), rfl⟩

/-- A first update stops while it writes its draft, a second one succeeds, and a third one stops
before its draft is moved: the file still holds the state of the second. -/
theorem third_update_stops_before_move :
    ¬ Path.HasEnding "tmp" ["run", "state.json"] ∧
      ∃ dir store, Usage ["run", "state.json"] dir store (.ok (content ⟨none, .connected, false⟩)) ∧
        ∃ dir', store.update (.udpSupported true) (some ⟨2, none⟩) dir = (dir', .error .io) ∧
          dir'.read ["run", "state.json"] = .ok (content ⟨none, .connected, false⟩) := by
  have hdraft : ¬ Path.HasEnding "tmp" ["run", "state.json"] := fun h =>
    absurd ((Path.withEnding_eq_self_iff (by decide)).2 (.inr h)) (by decide)
  have hopened : Usage ["run", "state.json"] .empty ⟨["run", "state.json"], {}⟩ _ := .opened rfl
  have hfailed := hopened.failed (.status .connecting) (some ⟨1, some 3⟩) rfl
  have hupdated := hfailed.updated (.status .connected) none rfl
  exact ⟨hdraft, _, _, hupdated, _, rfl,
    (updates_are_atomic hdraft hupdated (.udpSupported true) (some ⟨2, none⟩)).2.1⟩

/-- At a path that is its own draft, an update that stops once it has emptied the file leaves
neither the state that was committed nor the new one. -/
theorem own_draft_is_torn :
    ∃ dir store, Usage ["state.tmp"] dir store (.ok (content ⟨none, .connected, false⟩)) ∧
      ∃ dir', store.update (.udpSupported true) (some ⟨0, some 0⟩) dir = (dir', .error .io) ∧
        dir'.read ["state.tmp"] = .ok [] ∧
        [] ≠ content ⟨none, .connected, false⟩ ∧
        [] ≠ content (store.state.apply (.udpSupported true)) := by
  have hopened : Usage ["state.tmp"] .empty ⟨["state.tmp"], {}⟩ _ := .opened rfl
  have hupdated := hopened.updated (.status .connected) none rfl
  exact ⟨_, _, hupdated, _, rfl, rfl, FileStore.content_ne_nil _, FileStore.content_ne_nil _⟩

end TunnelKeeper.Store
