import TunnelKeeper.Proofs.Json.Reading
import TunnelKeeper.Proofs.Text.Numerals

/-!
# Spelling — the document that a value is printed as

A value has a document that spells it (`Json.document`): the same tree, with numerals for its
numbers.  The text of the value over several lines is read as that document (`read?_pretty`), where
every number in the value rereads (`Number.Rereads`): its text, on its own, is read as the number.
Whole numbers that 64 bits hold do so (`Number.rereads_of_inRange`); of doubles it has to be known.

The induction follows the printer.  It carries the level, which makes no difference, and the fuel of
the reader: twice the length of the text is enough, since each level of the reader takes two units
and its own brackets or comma.
-/

namespace TunnelKeeper.Json

open Document (skipGap Ends)

/-- The text of a number, read on its own, is the number. -/
def Number.Rereads (n : Number) : Prop := Json.read? (String.ofList n.chars) = some (.number n)

/-- What the text of a number is read as. -/
def Number.numeral (n : Number) : Numeral :=
  match Document.readChars? n.chars with
  | some (.number numeral) => numeral
  | _ => ⟨false, [], [], none⟩

mutual

/-- The numbers in a value. -/
def numbers : Json → List Number
  | .number n => [n]
  | .list items => itemNumbers items
  | .object entries => entryNumbers entries
  | _ => []

/-- The numbers in the items of a list. -/
def itemNumbers : List Json → List Number
  | [] => []
  | item :: items => numbers item ++ itemNumbers items

/-- The numbers in the entries of an object. -/
def entryNumbers : List (String × Json) → List Number
  | [] => []
  | (_, value) :: entries => numbers value ++ entryNumbers entries

end

mutual

/-- The document that spells a value. -/
def document : Json → Document
  | .null => .null
  | .bool b => .bool b
  | .number n => .number n.numeral
  | .text s => .text (some s)
  | .list items => .list (itemDocuments items)
  | .object entries => .object (fieldDocuments entries)

/-- The documents that spell the items of a list. -/
def itemDocuments : List Json → List Document
  | [] => []
  | item :: items => document item :: itemDocuments items

/-- The fields that spell the entries of an object. -/
def fieldDocuments : List (String × Json) → List (Option String × Document)
  | [] => []
  | (key, value) :: entries => (some key, document value) :: fieldDocuments entries

end

/-- The text of a number that rereads is read as its numeral. -/
theorem Number.Rereads.readChars? {n : Number} (h : n.Rereads) :
    Document.readChars? n.chars = some (.number n.numeral) ∧ n.numeral.number? = some n := by
  obtain ⟨document, hread, hvalue⟩ := Option.bind_eq_some_iff.1 h
  rw [Document.read?, String.toList_ofList] at hread
  cases document with
  | number numeral =>
      obtain ⟨n', hn', heq⟩ := Option.map_eq_some_iff.1 hvalue
      cases heq
      simp [Number.numeral, hread, hn']
  | null | bool => cases hvalue
  | text | list | object => simp [Document.value?, Document.depthLimit] at hvalue

/-! ### Values -/

/-- Reading a value leaves what follows it, but for a gap. -/
def Reads (fuel : Nat) (s : List Char) (document : Document) (rest : List Char) : Prop :=
  ∃ left, Document.readValue fuel s = some (document, left) ∧ skipGap left = skipGap rest

variable {fuel : Nat} {s rest : List Char}

theorem Reads.congr {s' : List Char} {document : Document} (h : Reads fuel s document rest)
    (hs : skipGap s' = skipGap s) : Reads fuel s' document rest := by
  obtain ⟨left, hread, hleft⟩ := h
  exact ⟨left, (Document.readValue_congr hs fuel).trans hread, hleft⟩

theorem reads_number {n : Number} (h : n.Rereads) (hend : Ends rest) :
    Reads (fuel + 1) (n.chars ++ rest) (.number n.numeral) rest := by
  have hread := h.readChars?.1
  unfold Document.readChars? at hread
  split at hread
  · next document left hvalue =>
    simp only [Option.ite_none_right_eq_some, Option.some.injEq, List.isEmpty_iff] at hread
    obtain ⟨hleft, rfl⟩ := hread
    refine ⟨left ++ rest, Document.readValue_number_append hend hvalue, ?_⟩
    rw [skipGap, List.dropWhile_append, show left.dropWhile Document.isGap = [] from hleft]
    rfl
  · cases hread

/-- A text between quotes is read back. -/
theorem readString_quoted (t : String) (rest : List Char) :
    Document.readString .start (t.toList.flatMap escape ++ '"' :: rest) = some (some t, rest) := by
  rw [Document.Unit16.start, Document.readString_escaped, List.reverse_nil, List.nil_append,
    String.ofList_toList]

theorem quoted_append (t : String) (rest : List Char) :
    quoted t ++ rest = '"' :: (t.toList.flatMap escape ++ '"' :: rest) := by
  simp [quoted]

theorem reads_text (t : String) : Reads (fuel + 1) (quoted t ++ rest) (.text (some t)) rest := by
  refine ⟨rest, ?_, rfl⟩
  rw [quoted_append, Document.readValue_quote, readString_quoted, Option.map_some]

theorem ends_newLine (level : Nat) (s : List Char) : Ends (newLine level ++ s) := by
  intro c hc
  cases hc
  rfl

theorem ends_comma (s : List Char) : Ends (',' :: s) := by
  intro c hc
  cases hc
  rfl

mutual

/-- The text of a value is read as the document that spells it. -/
theorem reads_prettyChars (json : Json) (hnumbers : ∀ n ∈ json.numbers, n.Rereads)
    (level fuel : Nat) (hfuel : 2 * (json.prettyChars level).length < fuel) {rest : List Char}
    (hend : Ends rest) : Reads fuel (json.prettyChars level ++ rest) json.document rest := by
  obtain ⟨fuel, rfl⟩ : ∃ f, fuel = f + 1 := ⟨fuel - 1, by omega⟩
  match json with
  | .null => exact ⟨rest, rfl, rfl⟩
  | .bool true => exact ⟨rest, rfl, rfl⟩
  | .bool false => exact ⟨rest, rfl, rfl⟩
  | .number n => exact reads_number (hnumbers n (by simp [numbers])) hend
  | .text t => exact reads_text t
  | .list [] => exact ⟨rest, rfl, rfl⟩
  | .list (item :: items) =>
      simp only [prettyChars, List.length_append, List.length_cons] at hfuel
      have hitems := readItems_prettyItems (item :: items) (by simp) hnumbers (level + 1)
        fuel (by omega) (Document.skipGap_newLine level (']' :: rest))
        (ends_newLine level _)
      exact ⟨rest, by simpa [prettyChars, document] using Document.readValue_list hitems, rfl⟩
  | .object [] => exact ⟨rest, rfl, rfl⟩
  | .object (entry :: entries) =>
      simp only [prettyChars, List.length_append, List.length_cons] at hfuel
      have hfields := readFields_prettyEntries (entry :: entries) (by simp) hnumbers (level + 1)
        fuel (by omega) (Document.skipGap_newLine level ('}' :: rest))
        (ends_newLine level _)
      exact ⟨rest, by simpa [prettyChars, document] using Document.readValue_object hfields, rfl⟩

/-- Items on lines of their own are read as the documents that spell them. -/
theorem readItems_prettyItems (items : List Json) (hnil : items ≠ [])
    (hnumbers : ∀ n ∈ itemNumbers items, n.Rereads) (level fuel : Nat)
    (hfuel : 2 * (prettyItems level items).length + 2 ≤ fuel) {close rest : List Char}
    (hclose : skipGap close = ']' :: rest) (hend : Ends close) :
    Document.readItems fuel (prettyItems level items ++ close) =
      some (itemDocuments items, rest) := by
  obtain ⟨fuel, rfl⟩ : ∃ f, fuel = f + 1 := ⟨fuel - 1, by omega⟩
  match items with
  | [] => exact absurd rfl hnil
  | [item] =>
      obtain ⟨hitem, -⟩ := List.forall_mem_append.1 hnumbers
      simp only [prettyItems, List.length_append] at hfuel
      obtain ⟨left, hread, hleft⟩ :=
        (reads_prettyChars item hitem level fuel (by omega) hend).congr
          (Document.skipGap_newLine level _)
      rw [prettyItems, List.append_assoc]
      exact Document.readItems_last hread (hleft.trans hclose)
  | item :: next :: items =>
      obtain ⟨hitem, hitems⟩ := List.forall_mem_append.1 hnumbers
      simp only [prettyItems, List.length_append, List.length_cons] at hfuel
      obtain ⟨left, hread, hleft⟩ :=
        (reads_prettyChars item hitem level fuel (by omega) (ends_comma _)).congr
          (Document.skipGap_newLine level _)
      have hmore := readItems_prettyItems (next :: items) (List.cons_ne_nil _ _) hitems level fuel
        (by omega) hclose hend
      rw [prettyItems, List.append_assoc, List.append_assoc, List.cons_append]
      · exact Document.readItems_more hread hleft hmore
      · simp

/-- Entries on lines of their own are read as the fields that spell them. -/
theorem readFields_prettyEntries (entries : List (String × Json)) (hnil : entries ≠ [])
    (hnumbers : ∀ n ∈ entryNumbers entries, n.Rereads) (level fuel : Nat)
    (hfuel : 2 * (prettyEntries level entries).length + 2 ≤ fuel) {close rest : List Char}
    (hclose : skipGap close = '}' :: rest) (hend : Ends close) :
    Document.readFields fuel (prettyEntries level entries ++ close) =
      some (fieldDocuments entries, rest) := by
  obtain ⟨fuel, rfl⟩ : ∃ f, fuel = f + 1 := ⟨fuel - 1, by omega⟩
  match entries with
  | [] => exact absurd rfl hnil
  | [(key, value)] =>
      obtain ⟨hvalue, -⟩ := List.forall_mem_append.1 hnumbers
      simp only [prettyEntries, List.length_append, List.length_cons] at hfuel
      obtain ⟨left, hread, hleft⟩ :=
        (reads_prettyChars value hvalue level fuel (by omega) hend).congr (Document.skipGap_blank _)
      exact Document.readFields_last
        (by simp [prettyEntries, Document.skipGap_newLine, quoted_append, Document.skipGap_quote])
        (readString_quoted key _) hread (hleft.trans hclose)
  | (key, value) :: next :: entries =>
      obtain ⟨hvalue, hentries⟩ := List.forall_mem_append.1 hnumbers
      simp only [prettyEntries, List.length_append, List.length_cons] at hfuel
      obtain ⟨left, hread, hleft⟩ :=
        (reads_prettyChars value hvalue level fuel (by omega) (ends_comma _)).congr
          (Document.skipGap_blank _)
      have hmore := readFields_prettyEntries (next :: entries) (List.cons_ne_nil _ _) hentries level
        fuel (by omega) hclose hend
      exact Document.readFields_more
        (by simp [prettyEntries, Document.skipGap_newLine, quoted_append, Document.skipGap_quote])
        (readString_quoted key _) hread hleft hmore

end

/-- The text of a value is a document, where every number in it rereads. -/
theorem read?_pretty {json : Json} (h : ∀ n ∈ json.numbers, n.Rereads) :
    Document.read? json.pretty = some json.document := by
  have hend : Ends [] := by simp [Document.Ends]
  obtain ⟨left, hread, hleft⟩ := reads_prettyChars json h 0
    (2 * (json.prettyChars 0).length + 2) (by omega) hend
  rw [List.append_nil] at hread
  have hempty : (skipGap left).isEmpty = true := by
    rw [hleft]
    rfl
  rw [Document.read?, pretty, String.toList_ofList, Document.readChars?, hread]
  simp only [hempty, if_true]

/-! ### Whole numbers -/

/-- The numbers that a document can denote. -/
def Number.InRange : Number → Prop
  | .natural n => n < Nat.pow 2 64
  | .negative size => 0 < size ∧ size ≤ Nat.pow 2 63
  | .double _ => True

theorem readUnsigned_ofNat (negative : Bool) (n : Nat) :
    Document.readUnsigned negative (Digits.ofNat n) =
      some (⟨negative, Digits.ofNat n, [], none⟩, []) := by
  have hdigits : Document.digits (Digits.ofNat n) = (Digits.ofNat n, []) := by
    rw [Document.digits, List.span_eq_takeWhile_dropWhile,
      List.takeWhile_eq_self_iff.2 fun _ => Digits.isDigit_of_mem_ofNat,
      List.dropWhile_eq_nil_iff.2 fun _ => Digits.isDigit_of_mem_ofNat]
  have hnil : (Digits.ofNat n).isEmpty = false := by simpa using Digits.ofNat_ne_nil n
  have hzero : ((Digits.ofNat n).head? == some '0' &&
      decide (1 < (Digits.ofNat n).length)) = false := by
    rw [Bool.and_eq_false_iff, decide_eq_false_iff_not]
    by_cases hhead : (Digits.ofNat n).head? = some '0'
    · exact .inr (by rw [Digits.length_ofNat_of_head?_zero hhead]; decide)
    · exact .inl (by simpa using hhead)
  rw [Document.readUnsigned, hdigits]
  simp only [hnil, hzero]
  rfl

theorem skipGap_ofNat (n : Nat) : skipGap (Digits.ofNat n) = Digits.ofNat n := by
  obtain ⟨c, rest, heq⟩ := List.exists_cons_of_ne_nil (Digits.ofNat_ne_nil n)
  have hdigit : Digits.isDigit c = true :=
    Digits.isDigit_of_mem_ofNat (n := n) (by rw [heq]; exact List.mem_cons_self)
  have hgap : Document.isGap c = false := by
    cases hc : Document.isGap c with
    | false => rfl
    | true =>
        simp only [Document.isGap, Bool.or_eq_true, beq_iff_eq] at hc
        obtain ((rfl | rfl) | rfl) | rfl := hc <;> cases hdigit
  rw [heq, skipGap, List.dropWhile_cons_of_neg (by rw [hgap]; decide)]

theorem Number.rereads_of_numeral {n : Number} (numeral : Numeral)
    (hread : ∀ fuel, Document.readValue (fuel + 1) n.chars = some (.number numeral, []))
    (hnumber : numeral.number? = some n) : n.Rereads := by
  have hchars : Document.readChars? n.chars = some (.number numeral) := by
    rw [Document.readChars?, hread]
    rfl
  simp [Rereads, Json.read?, Document.read?, hchars, Document.value?, hnumber]

/-- A whole number that 64 bits hold rereads. -/
theorem Number.rereads_of_inRange {n : Number} (h : n.InRange)
    (hdouble : ∀ d, n = .double d → n.Rereads) : n.Rereads := by
  cases n with
  | double d => exact hdouble d rfl
  | natural n =>
      refine rereads_of_numeral ⟨false, Digits.ofNat n, [], none⟩ (fun fuel => ?_) ?_
      · refine Document.readValue_unsigned ?_
        rw [chars, skipGap_ofNat, readUnsigned_ofNat]
      · simp only [InRange] at h
        simp [Numeral.number?, Numeral.isWhole, Digits.value_ofNat, h]
  | negative size =>
      refine rereads_of_numeral ⟨true, Digits.ofNat size, [], none⟩ (fun fuel => ?_) ?_
      · exact Document.readValue_negative rfl (readUnsigned_ofNat true size)
      · simp only [InRange] at h
        simp [Numeral.number?, Numeral.isWhole, Digits.value_ofNat, h]

end TunnelKeeper.Json
