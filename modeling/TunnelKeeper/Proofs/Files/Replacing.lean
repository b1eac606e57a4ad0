import TunnelKeeper.Files.Directory

/-!
# Replacing — a file that is written beside another and moved into its place

A step spares a file where reading it gives the same before and after the step, and also where the
step stops early (`Step.Spares`).  Making the folders on the way to a file spares it, and so does
writing another file beside it.  A list of steps that all spare a file does so wherever it is cut
short; so a file that is replaced by moving a draft into its place is read as the whole of the draft
(`read_of_draft_moved`), or as it was (`read_of_draft_left`).

* `read_put_other`: what is put elsewhere, and is no file on the way.
* `runSteps_sparing`: steps that spare a file come before other ones.
* `Path.withEnding_eq_self_iff`: which paths are their own drafts.
-/

namespace TunnelKeeper.Files

variable {dir dir' : Directory} {path other : Path} {node : Node}

/-! ### Paths -/

namespace Path

/-- The last name of the path is another name, a point and an ending. -/
def HasEnding (ending : String) (path : Path) : Prop :=
  ∃ parent name, name ≠ "" ∧ path = parent ++ [name ++ "." ++ ending]

theorem stem_ne_nil {name : List Char} (h : name ≠ []) : stem name ≠ [] := by
  unfold stem
  split
  · exact h
  · next hrest => exact fun hnil => hrest (List.reverse_eq_nil_iff.1 hnil)

theorem stem_append {front back : List Char} (hfront : front ≠ []) (hback : '.' ∉ back) :
    stem (front ++ '.' :: back) = front := by
  have hpoint : ∀ c ∈ back.reverse, (c != '.') = true := by
    rintro c hc
    rw [bne_iff_ne]
    rintro rfl
    exact hback (List.mem_reverse.1 hc)
  have hrest : ((front ++ '.' :: back).reverse.dropWhile (· != '.')).drop 1 = front.reverse := by
    rw [List.reverse_append, List.reverse_cons, List.append_assoc,
      List.dropWhile_append_of_pos hpoint]
    rfl
  unfold stem
  rw [hrest]
  split
  · next hnil => exact absurd (List.reverse_eq_nil_iff.1 hnil) hfront
  · exact List.reverse_reverse front

theorem withEnding_concat (ending : String) (parent : Path) (last : String) :
    withEnding ending (parent ++ [last]) =
      parent ++ [String.ofList (stem last.toList) ++ "." ++ ending] := by
  rw [withEnding, List.getLast?_concat]
  simp only [List.dropLast_concat]
  congr 2
  apply String.toList_inj.1
  simp

/-- A path is given an ending in vain where it has that ending already. -/
theorem withEnding_eq_self_iff {ending : String} {path : Path} (h : '.' ∉ ending.toList) :
    path.withEnding ending = path ↔ path = [] ∨ path.HasEnding ending := by
  obtain rfl | ⟨parent, last, rfl⟩ := List.eq_nil_or_concat path
  · simp [withEnding]
  · rw [List.concat_eq_append, withEnding_concat]
    constructor
    · intro heq
      have hlast : String.ofList (stem last.toList) ++ "." ++ ending = last := by
        simpa using heq
      refine .inr ⟨parent, String.ofList (stem last.toList), fun hnil => ?_, by rw [hlast]⟩
      have hempty : last.toList = [] := by
        refine Classical.byContradiction fun hne => stem_ne_nil hne ?_
        simpa using congrArg String.toList hnil
      have hlist := congrArg String.toList hlast
      rw [hnil, hempty] at hlist
      simp at hlist
    · rintro (hnil | ⟨parent', name, hname, heq⟩)
      · simp at hnil
      · obtain ⟨rfl, hlast⟩ := List.append_inj' heq rfl
        cases hlast
        have hstem : stem (name ++ "." ++ ending).toList = name.toList := by
          rw [String.toList_append, String.toList_append, List.append_assoc]
          exact stem_append (by simpa using hname) h
        rw [hstem, String.ofList_toList]

theorem length_of_mem_ways {path way : Path} (h : way ∈ ways path) :
    0 < way.length ∧ way.length ≤ path.length := by
  induction path generalizing way with
  | nil => cases h
  | cons name rest ih =>
      rcases List.mem_cons.1 h with rfl | h
      · simp
      · obtain ⟨inner, hinner, rfl⟩ := List.mem_map.1 h
        have := ih hinner
        simp only [List.length_cons]
        omega

theorem ne_nil_of_mem_ways {path way : Path} (h : way ∈ ways path) : way ≠ [] :=
  List.ne_nil_of_length_pos (length_of_mem_ways h).1

/-- Nothing as long as a path is on the way to it. -/
theorem not_mem_ways_parent {path other : Path} (h : path.length ≤ other.length) :
    other ∉ ways path.parent := by
  intro hmem
  have := length_of_mem_ways hmem
  rw [parent, List.length_dropLast] at this
  omega

theorem length_withEnding (ending : String) (path : Path) :
    (path.withEnding ending).length = path.length := by
  unfold withEnding
  cases h : path.getLast? with
  | none => rfl
  | some name =>
      have hpos : 0 < path.length := List.length_pos_iff.2 (by rintro rfl; cases h)
      simp only [List.length_append, List.length_dropLast, List.length_singleton]
      omega

end Path

/-! ### Nodes -/

theorem lookup_filter_ne {nodes : List (Path × Node)} (h : path ≠ other) :
    (nodes.filter (·.1 != other)).lookup path = nodes.lookup path := by
  induction nodes with
  | nil => rfl
  | cons x nodes ih =>
      obtain ⟨p, n⟩ := x
      rw [List.filter_cons]
      by_cases hp : p = other
      · have hb : (path == p) = false := by simpa [hp] using h
        simp only [hp, bne_self_eq_false, Bool.false_eq_true, if_false, ih]
        rw [List.lookup_cons, ← hp, hb]
      · have hb : (p != other) = true := by simpa using hp
        simp only [hb, if_true]
        rw [List.lookup_cons, List.lookup_cons, ih]

namespace Directory

theorem node?_put_self (dir : Directory) (node : Node) (h : path ≠ []) :
    (dir.put path node).node? path = some node := by
  have he : path.isEmpty = false := by simpa using h
  rw [node?, he]
  exact List.lookup_cons_self

theorem node?_put_other (dir : Directory) (node : Node) (h : path ≠ other) :
    (dir.put other node).node? path = dir.node? path := by
  unfold node?
  split
  · rfl
  · have hb : (path == other) = false := by simpa using h
    show List.lookup path ((other, node) :: _) = _
    rw [List.lookup_cons, hb]
    exact lookup_filter_ne h

/-- A file is read alike where the same is at its path, and the same files are on the way to it. -/
theorem read_congr (hn : dir'.node? path = dir.node? path)
    (hw : dir'.isBlocked path = dir.isBlocked path) : dir'.read path = dir.read path := by
  rw [read, read, hn, hw]

/-- A path is blocked by a file on the way to it. -/
theorem isBlocked_iff :
    dir.isBlocked path = true ↔
      ∃ way ∈ Path.ways path.parent, ∃ content, dir.node? way = some (.file content) := by
  rw [isBlocked, List.any_eq_true]
  refine exists_congr fun way => and_congr_right fun _ => ?_
  cases dir.node? way with
  | none => simp
  | some node => cases node <;> simp

/-- What is put elsewhere makes no difference to a file, unless it is a file on the way to it. -/
theorem read_put_other (h : path ≠ other)
    (hw : other ∈ Path.ways path.parent → node = .folder ∧ dir.node? other = none) :
    (dir.put other node).read path = dir.read path := by
  refine read_congr (dir.node?_put_other node h) ?_
  rw [Bool.eq_iff_iff, isBlocked_iff, isBlocked_iff]
  refine exists_congr fun way => and_congr_right fun hway => ?_
  by_cases hwo : way = other
  · subst hwo
    obtain ⟨rfl, hnone⟩ := hw hway
    rw [dir.node?_put_self .folder (Path.ne_nil_of_mem_ways hway), hnone]
    simp
  · rw [dir.node?_put_other node hwo]

theorem read_put_file (dir : Directory) (content : List UInt8) (h : path ≠ []) :
    (dir.put path (.file content)).read path = .ok content := by
  rw [read, dir.node?_put_self _ h]

end Directory

/-! ### Steps -/

/-- The step makes no difference to a file, nor does it where it stops early. -/
structure Step.Spares (path : Path) (step : Step) : Prop where
  after : ∀ {dir dir'}, step.after? dir = some dir' → dir'.read path = dir.read path
  begun : ∀ (dir : Directory) (written : Option Nat),
    (step.begun dir written).read path = dir.read path

/-- A folder is made on the way to a file where there was nothing. -/
theorem Step.spares_folder (h : path ≠ other) : (Step.folder other).Spares path where
  begun _ _ := rfl
  after {dir dir'} hafter := by
    simp only [after?] at hafter
    cases hnode : dir.node? other with
    | none =>
        simp only [hnode, Option.ite_none_right_eq_some, Option.some.injEq] at hafter
        rw [← hafter.2]
        exact Directory.read_put_other h fun _ => ⟨rfl, hnode⟩
    | some node =>
        cases node with
        | file content => simp [hnode] at hafter
        | folder =>
            simp only [hnode, Option.some.injEq] at hafter
            rw [hafter]

theorem Step.after?_write {content : List UInt8}
    (h : (Step.write other content).after? dir = some dir') :
    dir' = dir.put other (.file content) := by
  simp only [after?, Option.ite_none_right_eq_some, Option.some.injEq] at h
  exact h.2.symm

theorem Step.after?_move {source target : Path} (hne : source ≠ target)
    (h : (Step.move source target).after? dir = some dir') :
    ∃ content, dir.node? source = some (.file content) ∧
      dir' = (dir.remove source).put target (.file content) := by
  simp only [after?, beq_iff_eq, hne, if_false] at h
  split at h
  · next content hnode =>
    simp only [Option.ite_none_right_eq_some, Option.some.injEq] at h
    exact ⟨content, hnode, h.2.symm⟩
  · cases h

/-- A file that is not on the way to another is written without a difference to that one. -/
theorem Step.spares_write (h : path ≠ other) (hw : other ∉ Path.ways path.parent)
    (content : List UInt8) : (Step.write other content).Spares path where
  after hafter := by
    rw [after?_write hafter]
    exact Directory.read_put_other h fun hmem => absurd hmem hw
  begun dir written := by
    cases written with
    | none => rfl
    | some n =>
        simp only [begun]
        cases hafter : (Step.write other (content.take n)).after? dir with
        | none => rfl
        | some dir' =>
            rw [Option.getD_some, after?_write hafter]
            exact Directory.read_put_other h fun hmem => absurd hmem hw

/-- The folders of a path are none of the files in it. -/
theorem spares_of_mem_folderSteps (path : Path) {step : Step} (h : step ∈ folderSteps path.parent) :
    step.Spares path := by
  obtain ⟨way, hway, rfl⟩ := List.mem_map.1 h
  refine Step.spares_folder fun heq => ?_
  exact Path.not_mem_ways_parent (Nat.le_of_eq (congrArg List.length heq)) hway

/-! ### Lists of steps -/

/-- The first of the steps is cut short, or refused, or carried out before the others. -/
theorem runSteps_cons (cut : Option Cut) (step : Step) (rest : List Step) (dir : Directory) :
    (∃ written, runSteps cut (step :: rest) dir = (step.begun dir written, false)) ∨
      runSteps cut (step :: rest) dir = (dir, false) ∨
      ∃ dir₁ cut₁, step.after? dir = some dir₁ ∧
        runSteps cut (step :: rest) dir = runSteps cut₁ rest dir₁ := by
  match cut with
  | some ⟨0, written⟩ => exact .inl ⟨written, rfl⟩
  | none =>
      rw [runSteps]
      cases step.after? dir with
      | none => exact .inr (.inl rfl)
      | some dir₁ => exact .inr (.inr ⟨dir₁, none, rfl, rfl⟩)
  | some ⟨done + 1, written⟩ =>
      rw [runSteps]
      cases step.after? dir with
      | none => exact .inr (.inl rfl)
      | some dir₁ => exact .inr (.inr ⟨dir₁, some ⟨done, written⟩, rfl, rfl⟩)

/-- Steps that spare a file come before other ones: the whole is cut short among them, or goes on
with the others, and the file is as it was until then. -/
theorem runSteps_sparing {steps : List Step} (h : ∀ step ∈ steps, step.Spares path)
    (cut : Option Cut) (rest : List Step) (dir : Directory) :
    ∃ dir', dir'.read path = dir.read path ∧
      (runSteps cut (steps ++ rest) dir = (dir', false) ∨
        ∃ cut', runSteps cut (steps ++ rest) dir = runSteps cut' rest dir') := by
  induction steps generalizing cut dir with
  | nil => exact ⟨dir, rfl, .inr ⟨cut, rfl⟩⟩
  | cons step steps ih =>
      have hstep := h step List.mem_cons_self
      have hsteps := fun s hs => h s (List.mem_cons_of_mem _ hs)
      rw [List.cons_append]
      obtain ⟨written, hrun⟩ | hrun | ⟨dir₁, cut₁, hafter, hrun⟩ :=
        runSteps_cons cut step (steps ++ rest) dir
      · exact ⟨_, hstep.begun dir written, .inl hrun⟩
      · exact ⟨dir, rfl, .inl hrun⟩
      · obtain ⟨dir', hread, hout⟩ := ih hsteps cut₁ dir₁
        rw [hrun]
        exact ⟨dir', hread.trans (hstep.after hafter), hout⟩

/-- Where all steps are carried out, so are the last ones of them. -/
theorem runSteps_finished {steps rest : List Step} {cut : Option Cut}
    (h : runSteps cut (steps ++ rest) dir = (dir', true)) :
    ∃ cut₁ dir₁, runSteps cut₁ rest dir₁ = (dir', true) := by
  induction steps generalizing cut dir with
  | nil => exact ⟨cut, dir, h⟩
  | cons step steps ih =>
      rw [List.cons_append] at h
      obtain ⟨written, hrun⟩ | hrun | ⟨dir₁, cut₁, -, hrun⟩ :=
        runSteps_cons cut step (steps ++ rest) dir
      · cases hrun.symm.trans h
      · cases hrun.symm.trans h
      · exact ih (hrun.symm.trans h)

variable {draft : Path} {content : List UInt8} {cut : Option Cut}

/-- A draft that is moved into the place of a file is the whole of that file then. -/
theorem read_of_draft_moved (hpath : path ≠ []) (hdraft : draft ≠ [])
    (h : runSteps cut [.write draft content, .move draft path] dir = (dir', true)) :
    dir'.read path = .ok content := by
  obtain ⟨written, hrun⟩ | hrun | ⟨dir₁, cut₁, hwrite, hrun⟩ :=
    runSteps_cons cut (.write draft content) [.move draft path] dir <;> rw [hrun] at h
  · cases h
  · cases h
  obtain ⟨written, hrun⟩ | hrun | ⟨dir₂, cut₂, hmove, hrun⟩ :=
    runSteps_cons cut₁ (.move draft path) [] dir₁ <;> rw [hrun] at h
  · cases h
  · cases h
  rw [runSteps] at h
  cases h
  rw [Step.after?_write hwrite] at hmove
  by_cases hne : draft = path
  · subst hne
    simp only [Step.after?, dir.node?_put_self _ hdraft, beq_self_eq_true, if_true,
      Option.some.injEq] at hmove
    rw [← hmove, Directory.read_put_file _ _ hpath]
  · -- What is moved is what has just been written.
    obtain ⟨moved, hnode, rfl⟩ := Step.after?_move hne hmove
    rw [dir.node?_put_self _ hdraft] at hnode
    cases hnode
    exact Directory.read_put_file _ _ hpath

/-- A draft beside a file that is not moved into its place leaves the file alone. -/
theorem read_of_draft_left (hlen : draft.length = path.length) (hne : draft ≠ path)
    (h : runSteps cut [.write draft content, .move draft path] dir = (dir', false)) :
    dir'.read path = dir.read path := by
  have hwrite := Step.spares_write hne.symm (Path.not_mem_ways_parent (Nat.le_of_eq hlen.symm))
    content
  obtain ⟨written, hrun⟩ | hrun | ⟨dir₁, cut₁, hafter, hrun⟩ :=
    runSteps_cons cut (.write draft content) [.move draft path] dir <;> rw [hrun] at h
  · cases h
    exact hwrite.begun dir written
  · cases h
    rfl
  obtain ⟨written, hrun⟩ | hrun | ⟨dir₂, cut₂, hmove, hrun⟩ :=
    runSteps_cons cut₁ (.move draft path) [] dir₁ <;> rw [hrun] at h
  · cases h
    exact hwrite.after hafter
  · cases h
    exact hwrite.after hafter
  · rw [runSteps] at h
    cases h

end TunnelKeeper.Files
