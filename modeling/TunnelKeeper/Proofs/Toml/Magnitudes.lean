import TunnelKeeper.Toml.Printer
import TunnelKeeper.Toml.Reader

/-!
# Magnitudes — a document holds no number that it cannot write

The numbers of a document are read with a sign into sixty-four bits, so none of them is greater than
the greatest that can be written (`Value.Fits`).  It is said of what is read at the leaves, and what
is built from such values keeps it: lists and inline tables while they are read, and the document's
table while its statements fill it (`fits_of_read?`).
-/

namespace TunnelKeeper.Toml

open Written (greatest)

variable {fuel depth : Nat} {key : String} {path : List String} {s rest : List Char} {value : Value}
  {origin : Origin} {entries result : Branches}

/-- No number of a value is greater than the greatest that can be written. -/
inductive Value.Fits : Value → Prop where
  | text {s : String} : Fits (.text s)
  | integer {n : Int} (le : n ≤ greatest) : Fits (.integer n)
  | float {written : String} : Fits (.float written)
  | bool {b : Bool} : Fits (.bool b)
  | date {written : String} : Fits (.date written)
  | list {items : List Value} (all : ∀ item ∈ items, item.Fits) : Fits (.list items)
  | table {entries : List (String × Value)} (all : ∀ entry ∈ entries, entry.2.Fits) :
      Fits (.table entries)

/-- None of the values at a place and below it has a greater number. -/
inductive Branch.Fits : Branch → Prop where
  | value {v : Value} (fits : v.Fits) : Fits (.value v)
  | table {origin : Origin} {entries : List (String × Branch)}
      (all : ∀ entry ∈ entries, entry.2.Fits) : Fits (.table origin entries)
  | tables {tables : List (List (String × Branch))}
      (all : ∀ table ∈ tables, ∀ entry ∈ table, entry.2.Fits) : Fits (.tables tables)

/-! ### Numbers -/

theorem fits_of_integer? {negative : Bool} {size : Nat} (h : integer? negative size = some value) :
    value.Fits := by
  have hgreatest : Nat.pow 2 63 = greatest + 1 := by decide
  unfold integer? at h
  split at h
  all_goals
    simp only [Option.ite_none_right_eq_some, Option.some.injEq] at h
    obtain ⟨hsize, rfl⟩ := h
    exact .integer (by omega)

theorem fits_of_readBased {base : Nat} (h : readBased base s = some (value, rest)) :
    value.Fits := by
  simp only [readBased, Option.bind_eq_bind, Option.bind_eq_some_iff, Option.pure_def,
    Option.some.injEq, Prod.mk.injEq] at h
  obtain ⟨_, -, _, hinteger, rfl, -⟩ := h
  exact fits_of_integer? hinteger

theorem fits_of_readDecimal {negative : Bool} (h : readDecimal negative s = some (value, rest)) :
    value.Fits := by
  simp only [readDecimal, Option.bind_eq_bind, Option.bind_eq_some_iff] at h
  obtain ⟨_, -, h⟩ := h
  -- What follows is the same whether there is a fraction or not.
  split at h
  all_goals
    simp only [Option.bind_eq_some_iff] at h
    obtain ⟨_, -, _, -, h⟩ := h
    split at h
    · simp only [Option.bind_eq_some_iff, Option.pure_def, Option.some.injEq, Prod.mk.injEq] at h
      obtain ⟨_, hinteger, rfl, -⟩ := h
      exact fits_of_integer? hinteger
    split at h
    · cases h
    · simp only [Option.pure_def, Option.some.injEq, Prod.mk.injEq] at h
      obtain ⟨rfl, -⟩ := h
      exact .float

theorem fits_of_readNamed (h : readNamed s = some (value, rest)) : value.Fits := by
  unfold readNamed at h
  split at h
  · obtain ⟨_, -, heq⟩ := Option.map_eq_some_iff.1 h
    cases heq
    exact .float
  · obtain ⟨_, -, heq⟩ := Option.map_eq_some_iff.1 h
    cases heq
    exact .float
  · cases h

theorem fits_of_readSigned {negative : Bool} (h : readSigned negative s = some (value, rest)) :
    value.Fits := by
  unfold readSigned at h
  split at h
  · next hnamed =>
    obtain rfl := Option.some.inj h
    exact fits_of_readNamed hnamed
  · exact fits_of_readDecimal h

theorem fits_of_readNumber (h : readNumber s = some (value, rest)) : value.Fits := by
  unfold readNumber at h
  split at h
  iterate 3
    exact fits_of_readBased h
  all_goals exact fits_of_readSigned h

theorem fits_of_readDateOrNumber (h : readDateOrNumber s = some (value, rest)) : value.Fits := by
  unfold readDateOrNumber at h
  split at h
  · split at h
    · simp only [Option.bind_eq_bind, Option.bind_eq_some_iff, Option.pure_def, Option.some.injEq,
        Prod.mk.injEq] at h
      obtain ⟨_, -, _, -, rfl, -⟩ := h
      exact .date
    · exact fits_of_readNumber h
  · split at h
    · split at h
      · simp only [Option.bind_eq_bind, Option.bind_eq_some_iff, Option.pure_def,
          Option.some.injEq, Prod.mk.injEq] at h
        obtain ⟨_, -, rfl, -⟩ := h
        exact .date
      · cases h
    · exact fits_of_readNumber h
  · exact fits_of_readNumber h

/-! ### Tables that are being filled -/

namespace Branches

/-- None of the values of a table has a greater number. -/
def Fits (entries : Branches) : Prop := ∀ entry ∈ entries, entry.2.Fits

theorem Fits.nil : Fits [] := nofun

theorem Fits.find? (h : entries.Fits) {branch : Branch} (hfind : find? key entries = some branch) :
    branch.Fits := by
  induction entries with
  | nil => cases hfind
  | cons entry entries ih =>
      obtain ⟨hentry, h⟩ := List.forall_mem_cons.1 h
      rw [Branches.find?] at hfind
      split at hfind
      · obtain rfl := Option.some.inj hfind
        exact hentry
      · exact ih h hfind

theorem Fits.set (h : entries.Fits) {branch : Branch} (hbranch : branch.Fits) :
    (set key branch entries).Fits := by
  induction entries with
  | nil => exact List.forall_mem_cons.2 ⟨hbranch, nofun⟩
  | cons entry entries ih =>
      obtain ⟨hentry, h⟩ := List.forall_mem_cons.1 h
      rw [Branches.set]
      split
      · exact List.forall_mem_cons.2 ⟨hbranch, h⟩
      · exact List.forall_mem_cons.2 ⟨hentry, ih h⟩

/-- Where a change keeps the bound, so does the change at the end of a path. -/
theorem Fits.modify {dotted : Bool} {change : Origin → Branches → Option Branches}
    (hchange : ∀ {origin inner result}, Fits inner → change origin inner = some result →
      Fits result)
    (h : entries.Fits) (hmodify : modify dotted change path origin entries = some result) :
    result.Fits := by
  induction path generalizing origin entries result with
  | nil => exact hchange h hmodify
  | cons key path ih =>
      rw [Branches.modify] at hmodify
      split at hmodify
      · obtain ⟨inner, hinner, rfl⟩ := Option.map_eq_some_iff.1 hmodify
        exact h.set (.table (ih .nil hinner))
      · cases hmodify
      · next hfind =>
        split at hmodify
        · cases hmodify
        · obtain ⟨inner, hinner, rfl⟩ := Option.map_eq_some_iff.1 hmodify
          cases h.find? hfind with
          | table all => exact h.set (.table (ih all hinner))
      · cases hmodify
      · next hfind =>
        obtain ⟨last, hlast, rfl⟩ := Option.map_eq_some_iff.1 hmodify
        cases h.find? hfind with
        | tables all =>
            obtain ⟨hfirst, hearlier⟩ := List.forall_mem_cons.1 all
            exact h.set (.tables (List.forall_mem_cons.2 ⟨ih hfirst hlast, hearlier⟩))

theorem Fits.assign (h : entries.Fits) (hvalue : value.Fits)
    (hassign : assign path key value origin entries = some result) : result.Fits := by
  refine h.modify (fun {origin inner result} hinner hchange => ?_) hassign
  split at hchange
  · cases hchange
  · rw [add] at hchange
    split at hchange
    · obtain rfl := Option.some.inj hchange
      exact hinner.set (.value hvalue)
    · cases hchange

theorem Fits.openTable (h : entries.Fits) (hopen : openTable key entries = some result) :
    result.Fits := by
  rw [Branches.openTable] at hopen
  split at hopen
  · obtain rfl := Option.some.inj hopen
    exact h.set (.table nofun)
  · next hfind =>
    obtain rfl := Option.some.inj hopen
    cases h.find? hfind with
    | table all => exact h.set (.table all)
  · cases hopen

theorem Fits.openElement (h : entries.Fits) (hopen : openElement key entries = some result) :
    result.Fits := by
  rw [Branches.openElement] at hopen
  split at hopen
  · obtain rfl := Option.some.inj hopen
    exact h.set (.tables (List.forall_mem_singleton.2 nofun))
  · next hfind =>
    obtain rfl := Option.some.inj hopen
    cases h.find? hfind with
    | tables all => exact h.set (.tables (List.forall_mem_cons.2 ⟨nofun, all⟩))
  · cases hopen

end Branches

mutual

theorem Branch.Fits.close : ∀ {branch : Branch}, branch.Fits → branch.close.Fits
  | .value _, .value h => h
  | .table _ entries, .table h => .table (fits_closeEntries entries h)
  | .tables tables, .tables h => .list (fits_closeTables tables h)

theorem fits_closeEntries : ∀ (entries : List (String × Branch)),
    (∀ entry ∈ entries, entry.2.Fits) → ∀ entry ∈ closeEntries entries, entry.2.Fits
  | [], _ => nofun
  | (key, branch) :: entries, h => by
      obtain ⟨hbranch, h⟩ := List.forall_mem_cons.1 h
      exact List.forall_mem_cons.2 ⟨Branch.Fits.close hbranch, fits_closeEntries entries h⟩

theorem fits_closeTables : ∀ (tables : List (List (String × Branch))),
    (∀ table ∈ tables, ∀ entry ∈ table, entry.2.Fits) → ∀ item ∈ closeTables tables, item.Fits
  | [], _ => nofun
  | last :: earlier, h => by
      obtain ⟨hlast, h⟩ := List.forall_mem_cons.1 h
      refine List.forall_mem_append.2 ⟨fits_closeTables earlier h, ?_⟩
      exact List.forall_mem_singleton.2 (.table (fits_closeEntries last hlast))

end

/-! ### Reading -/

/-- What is read with some fuel keeps the bound. -/
structure FitsUpTo (fuel : Nat) : Prop where
  value : ∀ {depth s value rest}, readValue fuel depth s = some (value, rest) → value.Fits
  items : ∀ {depth s items rest}, readItems fuel depth s = some (items, rest) →
    ∀ item ∈ items, item.Fits
  pairs : ∀ {depth s rest} {entries result : Branches}, entries.Fits →
    readPairs fuel depth entries s = some (result, rest) → result.Fits

theorem FitsUpTo.value_succ (ih : FitsUpTo fuel)
    (h : readValue (fuel + 1) depth s = some (value, rest)) : value.Fits := by
  unfold readValue at h
  split at h
  · obtain ⟨_, -, heq⟩ := Option.map_eq_some_iff.1 h
    cases heq
    exact .text
  · obtain ⟨_, -, heq⟩ := Option.map_eq_some_iff.1 h
    cases heq
    exact .text
  · split at h
    · cases h
    · obtain ⟨_, hitems, heq⟩ := Option.map_eq_some_iff.1 h
      cases heq
      exact .list (ih.items hitems)
  · split at h
    · cases h
    split at h
    · cases h
      exact .table nofun
    · obtain ⟨⟨entries, _⟩, hpairs, heq⟩ := Option.map_eq_some_iff.1 h
      cases heq
      exact .table (fits_closeEntries entries (ih.pairs .nil hpairs))
  · obtain ⟨_, -, heq⟩ := Option.map_eq_some_iff.1 h
    cases heq
    exact .bool
  · obtain ⟨_, -, heq⟩ := Option.map_eq_some_iff.1 h
    cases heq
    exact .bool
  · exact fits_of_readNamed h
  · exact fits_of_readNamed h
  · exact fits_of_readDateOrNumber h

theorem FitsUpTo.items_succ (ih : FitsUpTo fuel) {items : List Value}
    (h : readItems (fuel + 1) depth s = some (items, rest)) : ∀ item ∈ items, item.Fits := by
  unfold readItems at h
  split at h
  · cases h
    exact nofun
  · obtain ⟨⟨item, _⟩, hitem, h⟩ := Option.bind_eq_some_iff.1 h
    have hfits := ih.value hitem
    dsimp only at h
    split at h
    · cases h
      exact List.forall_mem_singleton.2 hfits
    · obtain ⟨⟨more, _⟩, hmore, h⟩ := Option.bind_eq_some_iff.1 h
      cases h
      exact List.forall_mem_cons.2 ⟨hfits, ih.items hmore⟩
    · cases h

theorem FitsUpTo.pairs_succ (ih : FitsUpTo fuel) (hentries : entries.Fits)
    (h : readPairs (fuel + 1) depth entries s = some (result, rest)) : result.Fits := by
  simp only [readPairs, Option.bind_eq_bind, Option.bind_eq_some_iff] at h
  obtain ⟨_, -, _, -, ⟨value, _⟩, hvalue, more, hassign, h⟩ := h
  have hmore := hentries.assign (ih.value hvalue) hassign
  split at h
  · cases h
    exact hmore
  · exact ih.pairs hmore h
  · cases h

theorem fitsUpTo : ∀ fuel, FitsUpTo fuel
  | 0 => ⟨nofun, nofun, fun _ => nofun⟩
  | fuel + 1 =>
      have ih := fitsUpTo fuel
      ⟨ih.value_succ, ih.items_succ, ih.pairs_succ⟩

/-- A statement assigns no greater number. -/
def Statement.Fits : Statement → Prop
  | .assign _ _ value => value.Fits
  | _ => True

theorem fits_of_readStatement {statement : Statement}
    (h : readStatement s = some (statement, rest)) : statement.Fits := by
  unfold readStatement at h
  split at h
  · simp only [Option.bind_eq_bind, Option.bind_eq_some_iff, Option.pure_def, Option.some.injEq,
      Prod.mk.injEq] at h
    obtain ⟨_, -, _, -, _, -, _, -, rfl, -⟩ := h
    trivial
  · simp only [Option.bind_eq_bind, Option.bind_eq_some_iff, Option.pure_def, Option.some.injEq,
      Prod.mk.injEq] at h
    obtain ⟨_, -, _, -, _, -, rfl, -⟩ := h
    trivial
  · simp only [Option.bind_eq_bind, Option.bind_eq_some_iff, Option.pure_def, Option.some.injEq,
      Prod.mk.injEq] at h
    obtain ⟨_, -, _, -, ⟨value, _⟩, hvalue, _, -, rfl, -⟩ := h
    exact (fitsUpTo _).value hvalue

theorem fits_of_readStatements {statements : List Statement}
    (h : readStatements fuel s = some statements) : ∀ statement ∈ statements, statement.Fits := by
  induction fuel generalizing s statements with
  | zero => cases h
  | succ fuel ih =>
      simp only [readStatements] at h
      split at h
      · cases h
        exact nofun
      · obtain ⟨_, -, h⟩ := Option.bind_eq_some_iff.1 h
        exact ih h
      · split at h
        · obtain ⟨_, -, h⟩ := Option.bind_eq_some_iff.1 h
          exact ih h
        · obtain ⟨⟨statement, _⟩, hread, h⟩ := Option.bind_eq_some_iff.1 h
          obtain ⟨more, hmore, h⟩ := Option.bind_eq_some_iff.1 h
          cases h
          exact List.forall_mem_cons.2 ⟨fits_of_readStatement hread, ih hmore⟩

theorem Draft.fits_of_apply {draft result : Draft} {statement : Statement}
    (hdraft : draft.root.Fits) (hstatement : statement.Fits)
    (h : draft.apply statement = some result) : result.root.Fits := by
  unfold Draft.apply at h
  split at h
  all_goals
    obtain ⟨root, hroot, heq⟩ := Option.bind_eq_some_iff.1 h
    cases heq
  · exact hdraft.modify (fun hinner hopen => hinner.openTable hopen) hroot
  · exact hdraft.modify (fun hinner hopen => hinner.openElement hopen) hroot
  · exact hdraft.modify (fun hinner hassign => hinner.assign hstatement hassign) hroot

theorem Draft.fits_of_foldlM {draft result : Draft} {statements : List Statement}
    (hdraft : draft.root.Fits) (hstatements : ∀ statement ∈ statements, statement.Fits)
    (h : statements.foldlM Draft.apply draft = some result) : result.root.Fits := by
  induction statements generalizing draft with
  | nil =>
      cases h
      exact hdraft
  | cons statement statements ih =>
      obtain ⟨hstatement, hstatements⟩ := List.forall_mem_cons.1 hstatements
      rw [List.foldlM_cons] at h
      obtain ⟨next, hnext, h⟩ := Option.bind_eq_some_iff.1 h
      exact ih (fits_of_apply hdraft hstatement hnext) hstatements h

/-- **No number of a document is greater than the greatest that can be written.** -/
theorem fits_of_read? {text : String} {table : List (String × Value)}
    (h : read? text = some table) : ∀ entry ∈ table, entry.2.Fits := by
  rw [read?, readChars?] at h
  obtain ⟨statements, hstatements, h⟩ := Option.bind_eq_some_iff.1 h
  obtain ⟨draft, hdraft, h⟩ := Option.bind_eq_some_iff.1 h
  cases h
  have hempty : Branches.Fits Draft.empty.root := .nil
  exact fits_closeEntries draft.root
    (Draft.fits_of_foldlM hempty (fits_of_readStatements hstatements) hdraft)

end TunnelKeeper.Toml
