import TunnelKeeper.Proofs.Toml.Values

/-!
# Statements — the text of a sheet says what its lines say

The text of a sheet is read into one statement a line: a key and what stands for it assigns it, and
a header opens its table (`Says`).  That takes keys that are bare and told apart (`ClearKeys`).

* `readStatement_line`, `readStatement_header`: a line is read as what it says.
* `Says.lines`, `Says.tables`: so are all lines of a table, and all tables.
-/

namespace TunnelKeeper.Toml

open Written (entryChars? lineChars? linesChars? tablesChars? greatest)

variable {fuel : Nat} {key name : String} {s chars rest : List Char} {statements : List Statement}

/-- The entries that lines stand for. -/
def linesValues (lines : List (String × Entry)) : List (String × Value) :=
  lines.map fun line => (line.1, line.2.value)

theorem map_fst_linesValues (lines : List (String × Entry)) :
    (linesValues lines).map (·.1) = lines.map (·.1) := by
  simp [linesValues]

/-- The table that a sheet stands for. -/
def Sheet.document (sheet : Sheet) : List (String × Value) :=
  linesValues sheet.entries ++
    sheet.tables.map fun table => (table.1, .table (linesValues table.2))

theorem Sheet.map_fst_document (sheet : Sheet) :
    sheet.document.map (·.1) = sheet.entries.map (·.1) ++ sheet.tables.map (·.1) := by
  rw [document, List.map_append, map_fst_linesValues, List.map_map]
  rfl

/-- A key that is written without quotes. -/
def IsBareKey (key : String) : Prop := key.toList ≠ [] ∧ ∀ c ∈ key.toList, isBare c = true

-- A quantifier over characters would be decided by trying them all.
instance (key : String) : Decidable (IsBareKey key) :=
  decidable_of_iff (key.toList ≠ [] ∧ key.toList.all isBare = true)
    (and_congr_right fun _ => List.all_eq_true)

/-- Keys that are bare and differ from one another. -/
def ClearKeys (keys : List String) : Prop := (∀ key ∈ keys, IsBareKey key) ∧ keys.Nodup

instance (keys : List String) : Decidable (ClearKeys keys) := inferInstanceAs (Decidable (_ ∧ _))

/-- The keys of a sheet and of each of its tables can be written bare and are told apart. -/
structure Sheet.Clear (sheet : Sheet) : Prop where
  top : ClearKeys (sheet.entries.map (·.1) ++ sheet.tables.map (·.1))
  inner : ∀ table ∈ sheet.tables, ClearKeys (table.2.map (·.1))

/-! ### Keys -/

/-- A character that is none of those a bare key has. -/
theorem ne_of_isBare {c : Char} (hc : isBare c = true) (mark : Char)
    (hmark : isBare mark = false) : c ≠ mark := by
  rintro rfl
  rw [hmark] at hc
  cases hc

theorem isGap_of_isBare {c : Char} (hc : isBare c = true) : isGap c = false := by
  simp [isGap, isBlank, isLineEnd, ne_of_isBare hc ' ' (by decide),
    ne_of_isBare hc '\t' (by decide), ne_of_isBare hc '#' (by decide),
    ne_of_isBare hc '\n' (by decide), ne_of_isBare hc '\r' (by decide)]

/-- A bare key starts with a bare character. -/
theorem IsBareKey.stops (hkey : IsBareKey key) (rest : List Char) {p : Char → Bool}
    (hp : ∀ c, isBare c = true → p c = false) : Stops p (key.toList ++ rest) := by
  obtain ⟨c, t, ht⟩ := List.exists_cons_of_ne_nil hkey.1
  rw [ht]
  exact .cons (hp c (hkey.2 c (ht ▸ List.mem_cons_self)))

theorem IsBareKey.stops_gap (hkey : IsBareKey key) (rest : List Char) :
    Stops isGap (key.toList ++ rest) :=
  hkey.stops rest fun _ => isGap_of_isBare

theorem readSimpleKey_bare (hkey : IsBareKey key) (hrest : Stops isBare rest) :
    readSimpleKey (key.toList ++ rest) = some (key, rest) := by
  obtain ⟨hne, hbare⟩ := hkey
  have htake := hrest.takeWhile_append hbare
  have hdrop := hrest.dropWhile_append hbare
  obtain ⟨c, t, ht⟩ := List.exists_cons_of_ne_nil hne
  have hc : isBare c = true := hbare c (ht ▸ List.mem_cons_self)
  unfold readSimpleKey
  split
  · next heq =>
    rw [ht] at heq
    exact absurd (List.cons.inj heq).1 (ne_of_isBare hc _ (by decide))
  · next heq =>
    rw [ht] at heq
    exact absurd (List.cons.inj heq).1 (ne_of_isBare hc _ (by decide))
  · have hfull : key.toList.isEmpty = false := by rw [ht]; rfl
    simp only [htake, hdrop, hfull, Bool.false_eq_true, if_false, String.ofList_toList]

/-- A bare key is read alone where no point follows it. -/
theorem readKey_bare (hkey : IsBareKey key) (hrest : Stops isBare rest)
    (hpoint : Stops (· == '.') (skipBlanks rest)) :
    readKey (key.toList ++ rest) = some (([], key), skipBlanks rest) := by
  have hblank : skipBlanks (key.toList ++ rest) = key.toList ++ rest :=
    skipBlanks_of_stops ((hkey.stops_gap rest).mono fun c hc => by simp [isGap, hc])
  have hparts : readKeyParts ((key.toList ++ rest).length + 1) (key.toList ++ rest) =
      some ([key], skipBlanks rest) := by
    rw [readKeyParts, hblank, readSimpleKey_bare hkey hrest]
    simp only [Option.bind_eq_bind, Option.bind_some]
    split
    · next heq => exact absurd (hpoint '.' (heq ▸ rfl)) (by decide)
    · rfl
  rw [readKey, hparts]
  rfl

/-! ### Lines -/

theorem endLine_newline (rest : List Char) : endLine ('\n' :: rest) = some rest := rfl

/-- What stands for a key does not start with a blank. -/
theorem stops_entryChars {entry : Entry} (h : entryChars? entry = some chars) :
    Stops isBlank (chars ++ '\n' :: rest) := by
  cases entry with
  | text t =>
      obtain rfl := Option.some.inj h
      exact stops_textChars rfl rfl _ _
  | natural n =>
      simp only [entryChars?, Option.ite_none_right_eq_some, Option.some.injEq] at h
      obtain ⟨-, rfl⟩ := h
      obtain ⟨c, t, hchars, hc⟩ := exists_ofNat_eq_cons n ('\n' :: rest)
      rw [hchars]
      refine .cons (Bool.eq_false_iff.2 fun hblank => ?_)
      simp only [isBlank, Bool.or_eq_true, beq_iff_eq] at hblank
      rcases hblank with rfl | rfl <;> cases hc
  | texts items =>
      obtain rfl := Option.some.inj h
      obtain _ | ⟨first, _ | ⟨second, items⟩⟩ := items
      all_goals exact .cons rfl

/-- A line is read as the assignment it stands for. -/
theorem readStatement_line {line : String × Entry} (hkey : IsBareKey line.1)
    (h : lineChars? line = some chars) :
    readStatement (chars ++ rest) = some (.assign [] line.1 line.2.value, rest) := by
  obtain ⟨value, hvalue, rfl⟩ := Option.map_eq_some_iff.1 h
  have hchars : line.1.toList ++ [' ', '=', ' '] ++ value ++ ['\n'] ++ rest =
      line.1.toList ++ (' ' :: '=' :: ' ' :: (value ++ '\n' :: rest)) := by simp
  have hread : readKey (line.1.toList ++ ' ' :: '=' :: ' ' :: (value ++ '\n' :: rest)) =
      some (([], line.1), '=' :: ' ' :: (value ++ '\n' :: rest)) :=
    readKey_bare hkey (.cons rfl) (.cons rfl)
  have hskip : skipBlanks (' ' :: (value ++ '\n' :: rest)) = value ++ '\n' :: rest :=
    (skipBlanks_of_stops (stops_entryChars hvalue) :)
  have hvalue : readValue (2 * (value ++ '\n' :: rest).length + 2) 0 (value ++ '\n' :: rest) =
      some (line.2.value, '\n' :: rest) := by
    refine readValue_entryChars hvalue ?_
    rw [List.length_append, List.length_cons]
    omega
  have hbracket := hkey.stops (' ' :: '=' :: ' ' :: (value ++ '\n' :: rest)) (p := (· == '['))
    fun c hc => by simpa using ne_of_isBare hc _ (by decide)
  rw [hchars]
  unfold readStatement
  split
  · next heq => exact absurd (hbracket '[' (heq ▸ rfl)) (by decide)
  · next heq => exact absurd (hbracket '[' (heq ▸ rfl)) (by decide)
  · have hequals : after? '=' ('=' :: ' ' :: (value ++ '\n' :: rest)) =
        some (' ' :: (value ++ '\n' :: rest)) := rfl
    simp only [hread, hequals, hskip, hvalue, endLine_newline, Option.bind_eq_bind,
      Option.bind_some]
    rfl

/-- A header is read as the table it opens. -/
theorem readStatement_header (hname : IsBareKey name) :
    readStatement ('[' :: (name.toList ++ ']' :: '\n' :: rest)) = some (.table [] name, rest) := by
  have hread : readKey (name.toList ++ ']' :: '\n' :: rest) =
      some (([], name), ']' :: '\n' :: rest) := readKey_bare hname (.cons rfl) (.cons rfl)
  have hbracket := hname.stops (']' :: '\n' :: rest) (p := (· == '['))
    fun c hc => by simpa using ne_of_isBare hc _ (by decide)
  have hclose : after? ']' (']' :: '\n' :: rest) = some ('\n' :: rest) := rfl
  unfold readStatement
  split
  · next heq => exact absurd (hbracket '[' ((List.cons.inj heq).2 ▸ rfl)) (by decide)
  · next heq =>
    obtain ⟨-, rfl⟩ := List.cons.inj heq
    simp only [hread, hclose, endLine_newline, Option.bind_eq_bind, Option.bind_some]
    rfl
  · next hother => exact absurd rfl (hother _)

/-! ### Texts of statements -/

theorem linesChars?_cons_eq_some {line : String × Entry} {lines : List (String × Entry)} :
    linesChars? (line :: lines) = some chars ↔
      ∃ front, lineChars? line = some front ∧
        ∃ more, linesChars? lines = some more ∧ front ++ more = chars := by
  simp only [linesChars?, Option.bind_eq_bind, Option.bind_eq_some_iff, Option.pure_def,
    Option.some.injEq]

theorem tablesChars?_cons_eq_some {lines : List (String × Entry)}
    {tables : List (String × List (String × Entry))} :
    tablesChars? ((name, lines) :: tables) = some chars ↔
      ∃ front, linesChars? lines = some front ∧
        ∃ more, tablesChars? tables = some more ∧
          ['\n', '['] ++ name.toList ++ [']', '\n'] ++ front ++ more = chars := by
  simp only [tablesChars?, Option.bind_eq_bind, Option.bind_eq_some_iff, Option.pure_def,
    Option.some.injEq]

/-- A text says some statements where they are read from it, however much fuel there is. -/
def Says (s : List Char) (statements : List Statement) : Prop :=
  ∀ fuel, s.length < fuel → readStatements fuel s = some statements

theorem Says.nil : Says [] [] := by
  intro fuel hfuel
  obtain ⟨fuel, rfl⟩ : ∃ f, fuel = f + 1 := ⟨fuel - 1, by simp at hfuel; omega⟩
  rfl

/-- An empty line says nothing. -/
theorem Says.newline (h : Says s statements) : Says ('\n' :: s) statements := by
  intro fuel hfuel
  obtain ⟨fuel, rfl⟩ : ∃ f, fuel = f + 1 := ⟨fuel - 1, by omega⟩
  exact h fuel (by simpa using hfuel)

/-- A statement is read where it starts, and then what follows it. -/
theorem Says.statement {statement : Statement} (h : Says rest statements)
    (hread : readStatement (chars ++ rest) = some (statement, rest)) (hne : chars ≠ [])
    (hstops : Stops isGap (chars ++ rest)) : Says (chars ++ rest) (statement :: statements) := by
  intro fuel hfuel
  obtain ⟨fuel, rfl⟩ : ∃ f, fuel = f + 1 := ⟨fuel - 1, by omega⟩
  obtain ⟨c, t, rfl⟩ := List.exists_cons_of_ne_nil hne
  have hmore := h fuel (by simp only [List.length_append, List.length_cons] at hfuel; omega)
  have hc : isGap c = false := hstops c rfl
  simp only [isGap, isLineEnd, Bool.or_eq_false_iff, beq_eq_false_iff_ne] at hc
  obtain ⟨⟨hblank, hmark⟩, hline, hreturn⟩ := hc
  rw [List.cons_append] at hread ⊢
  have hskip : skipBlanks (c :: (t ++ rest)) = c :: (t ++ rest) :=
    skipBlanks_of_stops (.cons hblank)
  simp [readStatements, hskip, hline, hreturn, hread, hmore]

/-- What the lines of some values say. -/
def assigns (values : List (String × Value)) : List Statement :=
  values.map fun (key, value) => .assign [] key value

/-- What tables say. -/
def opens (tables : List (String × List (String × Entry))) : List Statement :=
  tables.flatMap fun (name, lines) => .table [] name :: assigns (linesValues lines)

theorem Says.lines {lines : List (String × Entry)} (hkeys : ∀ key ∈ lines.map (·.1), IsBareKey key)
    (hchars : linesChars? lines = some chars) (h : Says rest statements) :
    Says (chars ++ rest) (assigns (linesValues lines) ++ statements) := by
  induction lines generalizing chars with
  | nil =>
      obtain rfl := Option.some.inj hchars
      exact h
  | cons line lines ih =>
      obtain ⟨hkey, hkeys⟩ := List.forall_mem_cons.1 hkeys
      obtain ⟨front, hfront, more, hmore, rfl⟩ := linesChars?_cons_eq_some.1 hchars
      have hread : readStatement (front ++ (more ++ rest)) =
          some (.assign [] line.1 line.2.value, more ++ rest) := readStatement_line hkey hfront
      obtain ⟨value, -, rfl⟩ := Option.map_eq_some_iff.1 hfront
      rw [List.append_assoc]
      refine (ih hkeys hmore).statement hread (by simp [hkey.1]) ?_
      simp only [List.append_assoc]
      exact hkey.stops_gap _

theorem Says.tables {tables : List (String × List (String × Entry))}
    (hnames : ∀ name ∈ tables.map (·.1), IsBareKey name)
    (hkeys : ∀ table ∈ tables, ∀ key ∈ table.2.map (·.1), IsBareKey key)
    (hchars : tablesChars? tables = some chars) : Says chars (opens tables) := by
  induction tables generalizing chars with
  | nil =>
      obtain rfl := Option.some.inj hchars
      exact .nil
  | cons table tables ih =>
      obtain ⟨name, lines⟩ := table
      obtain ⟨hname, hnames⟩ := List.forall_mem_cons.1 hnames
      obtain ⟨hlines, hkeys⟩ := List.forall_mem_cons.1 hkeys
      obtain ⟨front, hfront, more, hmore, rfl⟩ := tablesChars?_cons_eq_some.1 hchars
      have hsays := (ih hnames hkeys hmore).lines hlines hfront
      have hheader : Says (('[' :: name.toList ++ [']', '\n']) ++ (front ++ more))
          (.table [] name :: (assigns (linesValues lines) ++ opens tables)) := by
        have hchars : ('[' :: name.toList ++ [']', '\n']) ++ (front ++ more) =
            '[' :: (name.toList ++ ']' :: '\n' :: (front ++ more)) := by simp
        refine hsays.statement ?_ (by simp) (.cons rfl)
        rw [hchars]
        exact readStatement_header hname
      simpa [opens] using hheader.newline

end TunnelKeeper.Toml
