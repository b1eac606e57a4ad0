import TunnelKeeper.Proofs.Json.Spelling

/-!
# Denoting — which values documents denote

The value of a document has the entries of every object in the order of their keys, and only numbers
that documents can denote (`Document.ordered_of_value?`), and it is nested no deeper than the
document may be (`Document.nesting_of_value?`).  Of such a value the document that spells it denotes
the value again, exactly where lists and objects may be nested as deep as they are in it
(`value?_document`).

Setting the fields of an object one after the other gives sorted entries, all of them among the
fields, and leaves fields alone that are sorted already (`Entries.sorted_ofList`,
`Entries.mem_ofList`, `Entries.ofList_of_sorted`).
-/

namespace TunnelKeeper.Json

/-! ### Entries in the order of their keys -/

namespace Entries

/-- The keys are in order, each of them once. -/
def Sorted (entries : Entries) : Prop := entries.Pairwise fun a b => a.1 < b.1

variable {key : String} {value : Json} {entries : Entries}

theorem mem_insert {entry : String × Json} (h : entry ∈ entries.insert key value) :
    entry = (key, value) ∨ entry ∈ entries := by
  induction entries with
  | nil => exact .inl (List.mem_singleton.1 h)
  | cons first rest ih =>
      obtain ⟨k, v⟩ := first
      rw [insert] at h
      split at h
      · exact List.mem_cons.1 h
      split at h
      · obtain h | h := List.mem_cons.1 h
        · exact .inl h
        · exact .inr (List.mem_cons_of_mem _ h)
      · obtain h | h := List.mem_cons.1 h
        · exact .inr (h ▸ List.mem_cons_self)
        · exact (ih h).imp_right (List.mem_cons_of_mem _)

theorem Sorted.insert (h : entries.Sorted) (key : String) (value : Json) :
    (entries.insert key value).Sorted := by
  induction entries with
  | nil => exact List.pairwise_singleton _ _
  | cons first rest ih =>
      obtain ⟨k, v⟩ := first
      obtain ⟨hfirst, hrest⟩ := List.pairwise_cons.1 h
      rw [Entries.insert]
      split
      · next hlt =>
        refine List.pairwise_cons.2 ⟨fun entry hentry => ?_, h⟩
        obtain rfl | hentry := List.mem_cons.1 hentry
        · exact hlt
        · exact String.lt_trans hlt (hfirst entry hentry)
      split
      · next heq =>
        subst heq
        exact List.pairwise_cons.2 ⟨hfirst, hrest⟩
      · next hnlt hne =>
        refine List.pairwise_cons.2 ⟨fun entry hentry => ?_, ih hrest⟩
        obtain rfl | hentry := mem_insert hentry
        · exact String.not_le.1 fun hle => hne (String.le_antisymm hle (String.not_lt.1 hnlt))
        · exact hfirst entry hentry

/-- An entry behind all others is set at the end. -/
theorem insert_of_forall_lt (h : ∀ entry ∈ entries, entry.1 < key) :
    entries.insert key value = entries ++ [(key, value)] := by
  induction entries with
  | nil => rfl
  | cons first rest ih =>
      obtain ⟨k, v⟩ := first
      have hlt : k < key := h _ List.mem_cons_self
      rw [insert, if_neg (String.lt_asymm hlt), if_neg fun heq => String.lt_irrefl _ (heq ▸ hlt),
        ih fun entry hentry => h entry (List.mem_cons_of_mem _ hentry), List.cons_append]

variable {fields : List (String × Json)}

theorem sorted_foldl_insert (h : entries.Sorted) :
    Sorted (fields.foldl (fun entries field => insert field.1 field.2 entries) entries) := by
  induction fields generalizing entries with
  | nil => exact h
  | cons field fields ih => exact ih (h.insert _ _)

theorem mem_foldl_insert {entry : String × Json}
    (h : entry ∈ fields.foldl (fun entries field => insert field.1 field.2 entries) entries) :
    entry ∈ entries ∨ entry ∈ fields := by
  induction fields generalizing entries with
  | nil => exact .inl h
  | cons field fields ih =>
      obtain h | h := ih h
      · obtain rfl | h := mem_insert h
        · exact .inr List.mem_cons_self
        · exact .inl h
      · exact .inr (List.mem_cons_of_mem _ h)

theorem foldl_insert_of_sorted (h : Sorted (entries ++ fields)) :
    fields.foldl (fun entries field => insert field.1 field.2 entries) entries =
      entries ++ fields := by
  induction fields generalizing entries with
  | nil => simp
  | cons field fields ih =>
      have hlt : ∀ entry ∈ entries, entry.1 < field.1 := fun entry hentry =>
        (List.pairwise_append.1 h).2.2 entry hentry field List.mem_cons_self
      rw [List.foldl_cons, insert_of_forall_lt hlt]
      have happend : entries ++ [(field.1, field.2)] ++ fields = entries ++ field :: fields := by
        simp
      rw [ih (happend ▸ h), happend]

theorem sorted_ofList (fields : List (String × Json)) : (ofList fields).Sorted :=
  sorted_foldl_insert List.Pairwise.nil

theorem mem_ofList {entry : String × Json} (h : entry ∈ ofList fields) : entry ∈ fields :=
  (mem_foldl_insert h).resolve_left (List.not_mem_nil)

/-- Entries that are in order are what they were given as. -/
theorem ofList_of_sorted (h : entries.Sorted) : ofList entries = entries :=
  foldl_insert_of_sorted (show Sorted ([] ++ entries) from h)

end Entries

/-! ### Ordered values -/

mutual

/-- How deep lists and objects are nested in each other. -/
def nesting : Json → Nat
  | .list items => itemNesting items + 1
  | .object entries => entryNesting entries + 1
  | _ => 0

/-- How deep the items of a list are nested. -/
def itemNesting : List Json → Nat
  | [] => 0
  | item :: items => max (nesting item) (itemNesting items)

/-- How deep the entries of an object are nested. -/
def entryNesting : List (String × Json) → Nat
  | [] => 0
  | (_, value) :: entries => max (nesting value) (entryNesting entries)

end

mutual

/-- The entries of every object are in the order of their keys. -/
def Ordered : Json → Prop
  | .list items => ItemsOrdered items
  | .object entries => Entries.Sorted entries ∧ EntriesOrdered entries
  | _ => True

/-- Every item is ordered. -/
def ItemsOrdered : List Json → Prop
  | [] => True
  | item :: items => Ordered item ∧ ItemsOrdered items

/-- Every value of an entry is ordered. -/
def EntriesOrdered : List (String × Json) → Prop
  | [] => True
  | (_, value) :: entries => Ordered value ∧ EntriesOrdered entries

end

theorem entriesOrdered_iff {entries : List (String × Json)} :
    EntriesOrdered entries ↔ ∀ entry ∈ entries, entry.2.Ordered := by
  induction entries with
  | nil => simp [EntriesOrdered]
  | cons entry entries ih => simp [EntriesOrdered, ih]

theorem mem_entryNumbers {entries : List (String × Json)} {n : Number} :
    n ∈ entryNumbers entries ↔ ∃ entry ∈ entries, n ∈ entry.2.numbers := by
  induction entries with
  | nil => simp [entryNumbers]
  | cons entry entries ih => simp [entryNumbers, ih]

mutual

/-- The document that spells an ordered value denotes it, where it may be nested so deep. -/
theorem value?_document (json : Json) (hordered : json.Ordered)
    (hnumbers : ∀ n ∈ json.numbers, n.Rereads) (depth : Nat) :
    json.document.value? depth = if json.nesting ≤ depth then some json else none := by
  match json, depth with
  | .null, _ | .bool _, _ | .text _, _ => simp [document, Document.value?, nesting]
  | .number n, _ =>
      have hn := (hnumbers n (by simp [numbers])).readChars?.2
      simp [document, Document.value?, nesting, hn]
  | .list items, 0 | .object entries, 0 => simp [document, Document.value?, nesting]
  | .list items, depth + 1 =>
      have hitems := values?_itemDocuments items hordered hnumbers depth
      simp only [document, Document.value?, nesting, hitems, Nat.add_le_add_iff_right]
      split <;> rfl
  | .object entries, depth + 1 =>
      have hentries := entries?_fieldDocuments entries hordered.2 hnumbers depth
      simp only [document, Document.value?, nesting, hentries, Nat.add_le_add_iff_right]
      split
      · simp [Entries.ofList_of_sorted hordered.1]
      · rfl

theorem values?_itemDocuments (items : List Json) (hordered : ItemsOrdered items)
    (hnumbers : ∀ n ∈ itemNumbers items, n.Rereads) (depth : Nat) :
    Document.values? depth (itemDocuments items) =
      if itemNesting items ≤ depth then some items else none := by
  match items with
  | [] => simp [itemDocuments, Document.values?, itemNesting]
  | item :: items =>
      obtain ⟨hfirst, hrest⟩ := List.forall_mem_append.1 hnumbers
      have hitem := value?_document item hordered.1 hfirst depth
      have hitems := values?_itemDocuments items hordered.2 hrest depth
      simp only [itemDocuments, Document.values?, itemNesting, hitem, hitems, Nat.max_le]
      by_cases h : item.nesting ≤ depth <;> by_cases h' : itemNesting items ≤ depth <;> simp [h, h']

theorem entries?_fieldDocuments (entries : List (String × Json)) (hordered : EntriesOrdered entries)
    (hnumbers : ∀ n ∈ entryNumbers entries, n.Rereads) (depth : Nat) :
    Document.entries? depth (fieldDocuments entries) =
      if entryNesting entries ≤ depth then some entries else none := by
  match entries with
  | [] => simp [fieldDocuments, Document.entries?, entryNesting]
  | (key, value) :: entries =>
      obtain ⟨hfirst, hrest⟩ := List.forall_mem_append.1 hnumbers
      have hvalue := value?_document value hordered.1 hfirst depth
      have hentries := entries?_fieldDocuments entries hordered.2 hrest depth
      simp only [fieldDocuments, Document.entries?, entryNesting, hvalue, hentries, Nat.max_le]
      by_cases h : value.nesting ≤ depth <;> by_cases h' : entryNesting entries ≤ depth <;>
        simp [h, h']

end

/-! ### What documents denote -/

theorem inRange_of_number? {numeral : Numeral} {n : Number} (h : numeral.number? = some n) :
    n.InRange := by
  simp only [Numeral.number?] at h
  split at h
  · next hnatural =>
    cases h
    simp only [Bool.and_eq_true, decide_eq_true_eq] at hnatural
    exact hnatural.2
  split at h
  · next hnegative =>
    cases h
    simp only [Bool.and_eq_true, decide_eq_true_eq] at hnegative
    exact ⟨hnegative.1.2, hnegative.2⟩
  · obtain ⟨d, -, rfl⟩ := Option.map_eq_some_iff.1 h
    trivial

mutual

/-- What a document denotes is ordered, and its numbers are in their range. -/
theorem Document.ordered_of_value? (document : Document) {depth : Nat} {json : Json}
    (h : document.value? depth = some json) : json.Ordered ∧ ∀ n ∈ json.numbers, n.InRange := by
  match document, depth with
  | .null, _ | .bool _, _ =>
      cases h
      exact ⟨trivial, by simp [numbers]⟩
  | .text s, _ =>
      obtain ⟨t, -, rfl⟩ := Option.map_eq_some_iff.1 h
      exact ⟨trivial, by simp [numbers]⟩
  | .number numeral, _ =>
      obtain ⟨n, hn, rfl⟩ := Option.map_eq_some_iff.1 h
      exact ⟨trivial, by simpa [numbers] using inRange_of_number? hn⟩
  | .list _, 0 | .object _, 0 => simp [Document.value?] at h
  | .list items, depth + 1 =>
      obtain ⟨values, hvalues, rfl⟩ := Option.map_eq_some_iff.1 h
      exact Document.ordered_of_values? items hvalues
  | .object fields, depth + 1 =>
      obtain ⟨entries, hentries, rfl⟩ := Option.map_eq_some_iff.1 h
      obtain ⟨hordered, hrange⟩ := Document.ordered_of_entries? fields hentries
      -- Setting the fields one after the other keeps only entries that are there.
      refine ⟨⟨Entries.sorted_ofList entries, entriesOrdered_iff.2 fun entry hentry =>
        entriesOrdered_iff.1 hordered entry (Entries.mem_ofList hentry)⟩, fun n hn => ?_⟩
      obtain ⟨entry, hentry, hn⟩ := mem_entryNumbers.1 hn
      exact hrange n (mem_entryNumbers.2 ⟨entry, Entries.mem_ofList hentry, hn⟩)

theorem Document.ordered_of_values? (documents : List Document) {depth : Nat} {items : List Json}
    (h : Document.values? depth documents = some items) :
    ItemsOrdered items ∧ ∀ n ∈ itemNumbers items, n.InRange := by
  match documents with
  | [] =>
      cases h
      exact ⟨trivial, by simp [itemNumbers]⟩
  | document :: documents =>
      obtain ⟨value, hvalue, h⟩ := Option.bind_eq_some_iff.1 h
      obtain ⟨values, hvalues, h⟩ := Option.bind_eq_some_iff.1 h
      cases h
      obtain ⟨hordered, hrange⟩ := Document.ordered_of_value? document hvalue
      obtain ⟨hordereds, hranges⟩ := Document.ordered_of_values? documents hvalues
      exact ⟨⟨hordered, hordereds⟩, List.forall_mem_append.2 ⟨hrange, hranges⟩⟩

theorem Document.ordered_of_entries? (fields : List (Option String × Document)) {depth : Nat}
    {entries : List (String × Json)} (h : Document.entries? depth fields = some entries) :
    EntriesOrdered entries ∧ ∀ n ∈ entryNumbers entries, n.InRange := by
  match fields with
  | [] =>
      cases h
      exact ⟨trivial, by simp [entryNumbers]⟩
  | (key, document) :: fields =>
      obtain ⟨key, -, h⟩ := Option.bind_eq_some_iff.1 h
      obtain ⟨value, hvalue, h⟩ := Option.bind_eq_some_iff.1 h
      obtain ⟨entries, hentries, h⟩ := Option.bind_eq_some_iff.1 h
      cases h
      obtain ⟨hordered, hrange⟩ := Document.ordered_of_value? document hvalue
      obtain ⟨hordereds, hranges⟩ := Document.ordered_of_entries? fields hentries
      exact ⟨⟨hordered, hordereds⟩, List.forall_mem_append.2 ⟨hrange, hranges⟩⟩

end

/-! ### How deep it is nested, what a document denotes -/

theorem entryNesting_le {entries : List (String × Json)} {depth : Nat} :
    entryNesting entries ≤ depth ↔ ∀ entry ∈ entries, entry.2.nesting ≤ depth := by
  induction entries with
  | nil => simp [entryNesting]
  | cons entry entries ih => rw [entryNesting, Nat.max_le, ih, List.forall_mem_cons]

mutual

/-- What a document denotes is nested no deeper than it may be. -/
theorem Document.nesting_of_value? (document : Document) {depth : Nat} {json : Json}
    (h : document.value? depth = some json) : json.nesting ≤ depth := by
  match document, depth with
  | .null, _ | .bool _, _ =>
      cases h
      exact Nat.zero_le _
  | .text _, _ | .number _, _ =>
      obtain ⟨_, -, rfl⟩ := Option.map_eq_some_iff.1 h
      exact Nat.zero_le _
  | .list _, 0 | .object _, 0 => simp [Document.value?] at h
  | .list items, depth + 1 =>
      obtain ⟨values, hvalues, rfl⟩ := Option.map_eq_some_iff.1 h
      exact Nat.succ_le_succ (Document.nesting_of_values? items hvalues)
  | .object fields, depth + 1 =>
      obtain ⟨entries, hentries, rfl⟩ := Option.map_eq_some_iff.1 h
      have hnesting := entryNesting_le.1 (Document.nesting_of_entries? fields hentries)
      exact Nat.succ_le_succ
        (entryNesting_le.2 fun entry hentry => hnesting entry (Entries.mem_ofList hentry))

theorem Document.nesting_of_values? (documents : List Document) {depth : Nat} {items : List Json}
    (h : Document.values? depth documents = some items) : itemNesting items ≤ depth := by
  match documents with
  | [] =>
      cases h
      exact Nat.zero_le _
  | document :: documents =>
      obtain ⟨value, hvalue, h⟩ := Option.bind_eq_some_iff.1 h
      obtain ⟨values, hvalues, h⟩ := Option.bind_eq_some_iff.1 h
      cases h
      exact Nat.max_le.2 ⟨Document.nesting_of_value? document hvalue,
        Document.nesting_of_values? documents hvalues⟩

theorem Document.nesting_of_entries? (fields : List (Option String × Document)) {depth : Nat}
    {entries : List (String × Json)} (h : Document.entries? depth fields = some entries) :
    entryNesting entries ≤ depth := by
  match fields with
  | [] =>
      cases h
      exact Nat.zero_le _
  | (key, document) :: fields =>
      obtain ⟨key, -, h⟩ := Option.bind_eq_some_iff.1 h
      obtain ⟨value, hvalue, h⟩ := Option.bind_eq_some_iff.1 h
      obtain ⟨entries, hentries, h⟩ := Option.bind_eq_some_iff.1 h
      cases h
      exact Nat.max_le.2 ⟨Document.nesting_of_value? document hvalue,
        Document.nesting_of_entries? fields hentries⟩

end

/-- Only null denotes null. -/
theorem Document.eq_null_of_value? {document : Document} {depth : Nat}
    (h : document.value? depth = some .null) : document = .null := by
  match document, depth with
  | .null, _ => rfl
  | .bool _, _ => cases h
  | .text _, _ | .number _, _ =>
      obtain ⟨_, -, heq⟩ := Option.map_eq_some_iff.1 h
      cases heq
  | .list _, 0 | .object _, 0 => simp [Document.value?] at h
  | .list _, depth + 1 | .object _, depth + 1 =>
      obtain ⟨_, -, heq⟩ := Option.map_eq_some_iff.1 h
      cases heq

end TunnelKeeper.Json
