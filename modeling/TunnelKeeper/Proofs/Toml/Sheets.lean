import Mathlib.Data.List.Nodup
import TunnelKeeper.Proofs.Toml.Statements

/-!
# Sheets — a document of one level of tables is read back

A sheet whose keys are bare and told apart (`Sheet.Clear`) is read from its text as the table of
what it holds (`Sheet.read?_text`).  Its statements put the entries into the table one after the
other, since a key that is not there yet goes to the end: first those of the sheet itself, then,
after each header, those of its table, which is then the last one (`apply_assign_last`).

A sheet has a text exactly if all its numbers can be written (`Sheet.isSome_text?_iff`).
-/

namespace TunnelKeeper.Toml

open Written (entryChars? lineChars? linesChars? tablesChars? greatest)

variable {fuel : Nat} {key name : String} {s chars rest : List Char} {statements : List Statement}

/-! ### What statements fill -/

namespace Branches

variable {entries : Branches} {branch : Branch}

theorem find?_eq_none (h : key ∉ entries.map (·.1)) : find? key entries = none := by
  induction entries with
  | nil => rfl
  | cons entry entries ih =>
      obtain ⟨hne, h⟩ := not_or.1 (mt List.mem_cons.2 h)
      rw [find?, if_neg (Ne.symm hne), ih h]

/-- A key that is not there yet goes to the end. -/
theorem set_of_not_mem (h : key ∉ entries.map (·.1)) :
    set key branch entries = entries ++ [(key, branch)] := by
  induction entries with
  | nil => rfl
  | cons entry entries ih =>
      obtain ⟨hne, h⟩ := not_or.1 (mt List.mem_cons.2 h)
      rw [set, if_neg (Ne.symm hne), ih h, List.cons_append]

theorem find?_last (h : key ∉ entries.map (·.1)) :
    find? key (entries ++ [(key, branch)]) = some branch := by
  rw [← set_of_not_mem h, find?_set_self]

theorem set_last {old : Branch} (h : key ∉ entries.map (·.1)) :
    set key branch (entries ++ [(key, old)]) = entries ++ [(key, branch)] := by
  induction entries with
  | nil => simp [set]
  | cons entry entries ih =>
      obtain ⟨hne, h⟩ := not_or.1 (mt List.mem_cons.2 h)
      rw [List.cons_append, set, if_neg (Ne.symm hne), ih h, List.cons_append]

end Branches

/-- What a value is while its table is being filled. -/
def leaves (values : List (String × Value)) : Branches :=
  values.map fun (key, value) => (key, .value value)

theorem map_fst_leaves (values : List (String × Value)) :
    (leaves values).map (·.1) = values.map (·.1) := by
  simp [leaves]

/-- Among keys that differ, one is not among those before it. -/
theorem not_mem_of_nodup {front more : List String} (h : (front ++ key :: more).Nodup) :
    key ∉ front := fun hmem =>
  (List.nodup_cons.1 (List.nodup_middle.1 h)).1 (List.mem_append_left _ hmem)

theorem closeEntries_append (front more : Branches) :
    closeEntries (front ++ more) = closeEntries front ++ closeEntries more := by
  induction front with
  | nil => rfl
  | cons entry front ih => rw [List.cons_append, closeEntries, ih, closeEntries, List.cons_append]

theorem closeEntries_leaves (values : List (String × Value)) :
    closeEntries (leaves values) = values := by
  induction values with
  | nil => rfl
  | cons entry values ih =>
      rw [leaves, List.map_cons, closeEntries, Branch.close]
      exact congrArg _ ih

namespace Draft

variable {root inner : Branches} {value : Value} {values : List (String × Value)}

/-- Before any header, an assignment goes to the end of the document. -/
theorem apply_assign_top (h : key ∉ root.map (·.1)) :
    apply ⟨root, []⟩ (.assign [] key value) = some ⟨root ++ [(key, .value value)], []⟩ := by
  simp [apply, Branches.modify, Branches.assign, Branches.add, Branches.find?_eq_none h,
    Branches.set_of_not_mem h]

/-- After a header, it goes to the end of the table the header opened, which is the last one. -/
theorem apply_assign_last (hname : name ∉ root.map (·.1)) (h : key ∉ inner.map (·.1)) :
    apply ⟨root ++ [(name, .table .header inner)], [name]⟩ (.assign [] key value) =
      some ⟨root ++ [(name, .table .header (inner ++ [(key, .value value)]))], [name]⟩ := by
  simp [apply, Branches.modify, Branches.assign, Branches.add, Branches.find?_last hname,
    Branches.find?_eq_none h, Branches.set_of_not_mem h, Branches.set_last hname]

/-- A header opens its table at the end of the document. -/
theorem apply_table {current : List String} (h : name ∉ root.map (·.1)) :
    apply ⟨root, current⟩ (.table [] name) =
      some ⟨root ++ [(name, .table .header [])], [name]⟩ := by
  simp [apply, Branches.modify, Branches.openTable, Branches.find?_eq_none h,
    Branches.set_of_not_mem h]

theorem foldlM_assigns_top (h : (root.map (·.1) ++ values.map (·.1)).Nodup) :
    (assigns values).foldlM apply ⟨root, []⟩ = some ⟨root ++ leaves values, []⟩ := by
  induction values generalizing root with
  | nil => simp [assigns, leaves]
  | cons entry values ih =>
      obtain ⟨key, value⟩ := entry
      have hkey := not_mem_of_nodup h
      have hmore : (assigns values).foldlM apply ⟨root ++ [(key, .value value)], []⟩ =
          some ⟨(root ++ [(key, .value value)]) ++ leaves values, []⟩ := ih (by simpa using h)
      rw [assigns, List.map_cons, List.foldlM_cons, apply_assign_top hkey]
      exact hmore.trans (by simp [leaves])

theorem foldlM_assigns_last (hname : name ∉ root.map (·.1))
    (h : (inner.map (·.1) ++ values.map (·.1)).Nodup) :
    (assigns values).foldlM apply ⟨root ++ [(name, .table .header inner)], [name]⟩ =
      some ⟨root ++ [(name, .table .header (inner ++ leaves values))], [name]⟩ := by
  induction values generalizing inner with
  | nil => simp [assigns, leaves]
  | cons entry values ih =>
      obtain ⟨key, value⟩ := entry
      have hkey := not_mem_of_nodup h
      have hmore := @ih (inner ++ [(key, .value value)]) (by simpa using h)
      rw [assigns, List.map_cons, List.foldlM_cons, apply_assign_last hname hkey]
      exact hmore.trans (by simp [leaves])

/-- Each table goes to the end of the document, whichever table is open before. -/
theorem foldlM_opens {tables : List (String × List (String × Entry))} {current : List String}
    (h : (root.map (·.1) ++ tables.map (·.1)).Nodup)
    (hinner : ∀ table ∈ tables, (table.2.map (·.1)).Nodup) :
    ∃ last, (opens tables).foldlM apply ⟨root, current⟩ =
      some ⟨root ++ tables.map fun table =>
        (table.1, .table .header (leaves (linesValues table.2))), last⟩ := by
  induction tables generalizing root current with
  | nil => exact ⟨current, by simp [opens]⟩
  | cons table tables ih =>
      obtain ⟨name, lines⟩ := table
      obtain ⟨hlines, hinner⟩ := List.forall_mem_cons.1 hinner
      have hname := not_mem_of_nodup h
      have hfill : (assigns (linesValues lines)).foldlM apply
            ⟨root ++ [(name, .table .header [])], [name]⟩ =
          some ⟨root ++ [(name, .table .header (leaves (linesValues lines)))], [name]⟩ :=
        foldlM_assigns_last hname (by simpa [map_fst_linesValues] using hlines)
      obtain ⟨last, hmore⟩ := @ih (root ++ [(name, .table .header (leaves (linesValues lines)))])
        [name] (by simpa using h) hinner
      refine ⟨last, ?_⟩
      have hopens : opens ((name, lines) :: tables) =
          .table [] name :: (assigns (linesValues lines) ++ opens tables) := rfl
      rw [hopens, List.foldlM_cons, apply_table hname, Option.bind_eq_bind, Option.bind_some,
        List.foldlM_append, hfill, Option.bind_eq_bind, Option.bind_some, hmore]
      simp

end Draft

theorem closeEntries_tables (tables : List (String × List (String × Entry))) :
    closeEntries (tables.map fun table =>
        (table.1, Branch.table .header (leaves (linesValues table.2)))) =
      tables.map fun table => (table.1, .table (linesValues table.2)) := by
  induction tables with
  | nil => rfl
  | cons table tables ih =>
      rw [List.map_cons, closeEntries, Branch.close, closeEntries_leaves, ih, List.map_cons]

/-- The statements of a clear sheet fill the table it stands for. -/
theorem Sheet.Clear.ofStatements?_eq {sheet : Sheet} (h : sheet.Clear) :
    ofStatements? (assigns (linesValues sheet.entries) ++ opens sheet.tables) =
      some sheet.document := by
  have hnodup := h.top.2
  have htop : (assigns (linesValues sheet.entries)).foldlM Draft.apply ⟨[], []⟩ =
      some ⟨leaves (linesValues sheet.entries), []⟩ :=
    Draft.foldlM_assigns_top (by simpa [map_fst_linesValues] using (List.nodup_append.1 hnodup).1)
  have hkeys : ((leaves (linesValues sheet.entries)).map (·.1) ++
      sheet.tables.map (·.1)).Nodup := by rwa [map_fst_leaves, map_fst_linesValues]
  obtain ⟨last, htables⟩ := @Draft.foldlM_opens (leaves (linesValues sheet.entries)) sheet.tables
    [] hkeys fun table ht => (h.inner table ht).2
  simp only [ofStatements?, List.foldlM_append, Draft.empty, htop, Option.bind_eq_bind,
    Option.bind_some, htables, Option.pure_def, closeEntries_append, closeEntries_leaves,
    closeEntries_tables, Sheet.document]

/-! ### Whole sheets -/

theorem stops_linesChars {p : Char → Bool} (hp : ∀ c, isBare c = true → p c = false)
    {lines : List (String × Entry)} (hkeys : ∀ key ∈ lines.map (·.1), IsBareKey key)
    (h : linesChars? lines = some chars) (hrest : Stops p rest) : Stops p (chars ++ rest) := by
  cases lines with
  | nil =>
      obtain rfl := Option.some.inj h
      exact hrest
  | cons line lines =>
      obtain ⟨front, hfront, more, -, rfl⟩ := linesChars?_cons_eq_some.1 h
      obtain ⟨value, -, rfl⟩ := Option.map_eq_some_iff.1 hfront
      simp only [List.append_assoc]
      exact (hkeys _ List.mem_cons_self).stops _ hp

theorem stops_tablesChars {p : Char → Bool} (hp : p '\n' = false)
    {tables : List (String × List (String × Entry))} (h : tablesChars? tables = some chars) :
    Stops p chars := by
  cases tables with
  | nil =>
      obtain rfl := Option.some.inj h
      exact .nil
  | cons table tables =>
      obtain ⟨front, -, more, -, rfl⟩ := tablesChars?_cons_eq_some.1 h
      exact .cons hp

/-- The byte order mark, which is dropped at the front of a text. -/
def isByteOrderMark (c : Char) : Bool := c.toNat == 0xFEFF

theorem afterMark_of_stops (h : Stops isByteOrderMark s) : afterMark s = s := by
  cases s with
  | nil => rfl
  | cons c s =>
      have hc : (c.toNat == 0xFEFF) = false := h c rfl
      rw [afterMark, hc]
      rfl

theorem isByteOrderMark_of_isBare {c : Char} (hc : isBare c = true) :
    isByteOrderMark c = false := by
  refine Bool.eq_false_iff.2 fun hmark => ?_
  have heq : c = '\uFEFF' := by
    rw [← Char.ofNat_toNat c, beq_iff_eq.1 hmark]
  exact ne_of_isBare hc _ (by decide) heq

/-- **A clear sheet is read from its text as the table it stands for.** -/
theorem Sheet.read?_text {sheet : Sheet} (h : sheet.Clear) {text : String}
    (htext : sheet.text? = some text) : read? text = some sheet.document := by
  obtain ⟨chars, hchars, rfl⟩ := Option.map_eq_some_iff.1 htext
  simp only [Sheet.chars?, Option.bind_eq_bind, Option.bind_eq_some_iff, Option.pure_def,
    Option.some.injEq] at hchars
  obtain ⟨front, hfront, more, hmore, rfl⟩ := hchars
  have hkeys : ∀ key ∈ sheet.entries.map (·.1), IsBareKey key := fun key hkey =>
    h.top.1 key (List.mem_append_left _ hkey)
  have hnames : ∀ name ∈ sheet.tables.map (·.1), IsBareKey name := fun name hname =>
    h.top.1 name (List.mem_append_right _ hname)
  have hsays := (Says.tables hnames (fun table ht => (h.inner table ht).1) hmore).lines hkeys hfront
  -- A sheet starts with a bare key or with an empty line.
  have hmark : afterMark (front ++ more) = front ++ more :=
    afterMark_of_stops (stops_linesChars (fun _ => isByteOrderMark_of_isBare) hkeys hfront
      (stops_tablesChars (by decide) hmore))
  have hread := hsays _ (Nat.lt_succ_self _)
  rw [read?, readChars?, String.toList_ofList, hmark]
  simp only [hread, Option.bind_eq_bind, Option.bind_some, h.ofStatements?_eq]

/-! ### Sheets that can be written -/

/-- What a document can hold under a key: any text, and numbers up to the greatest. -/
def Entry.Fits : Entry → Prop
  | .natural n => n ≤ greatest
  | _ => True

theorem isSome_lineChars?_iff (line : String × Entry) :
    (lineChars? line).isSome = true ↔ line.2.Fits := by
  obtain ⟨key, entry⟩ := line
  cases entry <;> simp [lineChars?, entryChars?, Entry.Fits]

theorem isSome_linesChars?_iff (lines : List (String × Entry)) :
    (linesChars? lines).isSome = true ↔ ∀ line ∈ lines, line.2.Fits := by
  induction lines with
  | nil => simp [linesChars?]
  | cons line lines ih =>
      rw [List.forall_mem_cons, ← ih, ← isSome_lineChars?_iff, linesChars?]
      cases lineChars? line <;> cases linesChars? lines <;> simp

theorem isSome_tablesChars?_iff (tables : List (String × List (String × Entry))) :
    (tablesChars? tables).isSome = true ↔ ∀ table ∈ tables, ∀ line ∈ table.2, line.2.Fits := by
  induction tables with
  | nil => simp [tablesChars?]
  | cons table tables ih =>
      obtain ⟨name, lines⟩ := table
      rw [List.forall_mem_cons, ← ih, ← isSome_linesChars?_iff, tablesChars?]
      cases linesChars? lines <;> cases tablesChars? tables <;> simp

/-- **A sheet has a text exactly if everything in it can be written.** -/
theorem Sheet.isSome_text?_iff (sheet : Sheet) :
    sheet.text?.isSome = true ↔
      (∀ line ∈ sheet.entries, line.2.Fits) ∧
        ∀ table ∈ sheet.tables, ∀ line ∈ table.2, line.2.Fits := by
  rw [← isSome_linesChars?_iff, ← isSome_tablesChars?_iff, Sheet.text?, Sheet.chars?]
  cases linesChars? sheet.entries <;> cases tablesChars? sheet.tables <;> simp

end TunnelKeeper.Toml
