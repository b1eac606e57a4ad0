import TunnelKeeper.Proofs.Settings.Acceptance

/-!
# Pruning — fields without some of their keys

An omission says which keys are left out of a document, at the top and inside each part
(`Omission`).  Fields are pruned by leaving out those that are gone and changing what stands for the
others (`prune`).  A field that is left out then has its default, and all others are as they were.

* `Contents.leaveOut`: what a document holds under its keys, without those that are left out.
* `Node.find?_prune`: what is found in pruned fields.
* `Node.record?_leaveOut`: a record without some keys is one with fewer fields.
* `Node.Fields.get_prune`, `Node.Fields.required_prune_gone`: what is read of pruned fields.
-/

namespace TunnelKeeper.Settings

open Node (Fields)

/-- The keys of the settings that stand for tables. -/
def partNames : List String := ["proxy", "checks", "route"]

/-- Which keys are left out: at the top, and inside each part. -/
structure Omission where
  top : String → Bool
  inside : String → String → Bool

/-- Fields without those whose name is gone, and with what stands for the others changed. -/
def prune {κ α : Type} (name : κ → Option String) (gone : String → Bool) (change : String → α → α)
    (fields : List (κ × α)) : List (κ × α) :=
  (fields.filter fun field => !(name field.1).any gone).map fun field =>
    (field.1, (name field.1).elim field.2 fun key => change key field.2)

/-- What an omission does to what stands for a key at the top. -/
def Omission.change {α : Type} (o : Omission) (leaveOut : (String → Bool) → α → α) (key : String)
    (value : α) : α :=
  if key ∈ partNames then leaveOut (o.inside key) value else value

/-! ### Documents -/

/-- A table without some keys. -/
def Node.leaveOut (gone : String → Bool) : Node → Node
  | .table fields => .table (prune some gone (fun _ node => node) fields)
  | node => node

end TunnelKeeper.Settings

namespace TunnelKeeper

/-- A table without some keys. -/
def Toml.Value.leaveOut (gone : String → Bool) : Toml.Value → Toml.Value
  | .table entries => .table (Settings.prune some gone (fun _ value => value) entries)
  | value => value

/-- An object without some keys. -/
def Json.Document.leaveOut (gone : String → Bool) : Json.Document → Json.Document
  | .object fields => .object (Settings.prune id gone (fun _ document => document) fields)
  | document => document

end TunnelKeeper

namespace TunnelKeeper.Settings

open Node (Fields)

/-- What a document holds under its keys. -/
inductive Contents where
  | toml (entries : List (String × Toml.Value))
  | json (fields : List (Option String × Json.Document))

namespace Contents

def format : Contents → Format
  | toml _ => .toml
  | json _ => .json

/-- A text is read as these contents. -/
def WrittenAs : Contents → String → Prop
  | toml entries, text => Toml.read? text = some entries
  | json fields, text => Json.Document.read? text = some (.object fields)

/-- There is such a key. -/
def Names : Contents → String → Prop
  | toml entries, key => key ∈ entries.map (·.1)
  | json fields, key => some key ∈ fields.map (·.1)

/-- The parts of the settings are written as tables, not as lists of their fields in order. -/
def PartsAreTables : Contents → Prop
  | toml entries => ∀ entry ∈ entries, entry.1 ∈ partNames → ∃ inner, entry.2 = .table inner
  | json fields =>
      ∀ field ∈ fields, ∀ key ∈ partNames, field.1 = some key → ∃ inner, field.2 = .object inner

/-- The contents without what is left out. -/
def leaveOut (o : Omission) : Contents → Contents
  | toml entries => toml (prune some o.top (o.change Toml.Value.leaveOut) entries)
  | json fields => json (prune id o.top (o.change Json.Document.leaveOut) fields)

/-- The node of a document with these contents. -/
def node : Contents → Node
  | toml entries => .table (Node.ofTomlEntries entries)
  | json fields => Node.ofDocument (.object fields)

theorem WrittenAs.node?_eq {d : Contents} {text : String} (h : d.WrittenAs text) :
    d.format.node? text = some d.node := by
  cases d with
  | toml entries =>
      change (Toml.read? text).map _ = _
      rw [show Toml.read? text = some entries from h]
      rfl
  | json fields =>
      change (Json.Document.read? text).map _ = _
      rw [show Json.Document.read? text = some (.object fields) from h]
      rfl

end Contents

/-! ### What is left out of a node -/

namespace Node

variable {gone : String → Bool} {change : String → Node → Node} {names : List String}
  {fields : Fields}

theorem prune_cons_of_gone {κ α : Type} {name : κ → Option String} {change : String → α → α}
    {field : κ × α} {fields : List (κ × α)} (h : (name field.1).any gone = true) :
    prune name gone change (field :: fields) = prune name gone change fields := by
  simp [prune, h]

theorem prune_cons_of_kept {κ α : Type} {name : κ → Option String} {change : String → α → α}
    {field : κ × α} {fields : List (κ × α)} (h : (name field.1).any gone = false) :
    prune name gone change (field :: fields) =
      (field.1, (name field.1).elim field.2 fun key => change key field.2) ::
        prune name gone change fields := by
  simp [prune, h]

/-- What stands under a key that is gone is not there, and all else is changed. -/
theorem find?_prune (fields : Fields) (name : String) :
    Fields.find? (prune some gone change fields) name =
      if gone name = true then none else (fields.find? name).map (change name) := by
  simp only [Fields.find?]
  induction fields with
  | nil => simp [prune]
  | cons field fields ih =>
      obtain ⟨key, node⟩ := field
      by_cases hkey : name = key
      · subst hkey
        by_cases hgone : gone name = true
        · rw [prune_cons_of_gone (by simpa using hgone), ih, if_pos hgone, if_pos hgone]
        · rw [prune_cons_of_kept (by simpa using hgone), if_neg hgone]
          simp
      · have hne : (name == key) = false := beq_eq_false_iff_ne.2 hkey
        rw [List.lookup_cons, hne]
        by_cases hgone : gone key = true
        · rw [prune_cons_of_gone (by simpa using hgone), ih]
        · rw [prune_cons_of_kept (by simpa using hgone), List.lookup_cons, hne]
          exact ih

/-- A name that is kept is there as often as it was. -/
theorem any_prune (fields : Fields) {name : String} (hkept : gone name = false) :
    (prune some gone change fields).any (·.1 == name) = fields.any (·.1 == name) := by
  induction fields with
  | nil => rfl
  | cons field fields ih =>
      obtain ⟨key, node⟩ := field
      by_cases hgone : gone key = true
      · have hne : (key == name) = false := by
          refine beq_eq_false_iff_ne.2 ?_
          rintro rfl
          rw [hgone] at hkept
          cases hkept
        rw [prune_cons_of_gone (by simpa using hgone), ih, List.any_cons, hne, Bool.false_or]
      · rw [prune_cons_of_kept (by simpa using hgone), List.any_cons, List.any_cons, ih]

/-- The known fields of what is left are what is left of the known fields. -/
theorem known?_prune {known : Fields} (h : known? names fields = some known) :
    known? names (prune some gone change fields) = some (prune some gone change known) := by
  induction fields generalizing known with
  | nil =>
      obtain rfl := Option.some.inj h
      rfl
  | cons field fields ih =>
      obtain ⟨key, node⟩ := field
      simp only [known?, Option.bind_eq_bind, Option.bind_eq_some_iff] at h
      obtain ⟨more, hmore, h⟩ := h
      have hprune := ih hmore
      by_cases hgone : gone key = true
      · rw [prune_cons_of_gone (by simpa using hgone), hprune]
        split at h
        · exact congrArg _ (congrArg _ (Option.some.inj h))
        split at h
        · cases h
        · obtain rfl := Option.some.inj h
          rw [prune_cons_of_gone (by simpa using hgone)]
      · have hkept : gone key = false := Bool.eq_false_iff.2 hgone
        rw [prune_cons_of_kept (by simpa using hgone), known?, hprune, Option.bind_eq_bind,
          Option.bind_some, any_prune _ hkept]
        split at h
        · next hname =>
          rw [if_pos hname]
          exact congrArg _ (congrArg _ (Option.some.inj h))
        · next hname =>
          rw [if_neg hname]
          split at h
          · cases h
          · next hany =>
            obtain rfl := Option.some.inj h
            rw [if_neg hany, prune_cons_of_kept (by simpa using hgone)]
            rfl

/-- The known fields have the first of what stands under a known name. -/
theorem find?_of_known? {known : Fields} (h : known? names fields = some known) {name : String}
    (hname : name ∈ names) : known.find? name = Fields.find? fields name := by
  simp only [Fields.find?]
  induction fields generalizing known with
  | nil =>
      obtain rfl := Option.some.inj h
      rfl
  | cons field fields ih =>
      obtain ⟨key, node⟩ := field
      simp only [known?, Option.bind_eq_bind, Option.bind_eq_some_iff] at h
      obtain ⟨more, hmore, h⟩ := h
      split at h
      · next hunknown =>
        obtain rfl := Option.some.inj h
        have hne : (name == key) = false := by
          refine beq_eq_false_iff_ne.2 ?_
          rintro rfl
          simp [hname] at hunknown
        rw [ih hmore, List.lookup_cons, hne]
      · split at h
        · cases h
        · obtain rfl := Option.some.inj h
          rw [List.lookup_cons, List.lookup_cons, ih hmore]

/-- A record written as a table has what is left of its fields. -/
theorem record?_leaveOut {node : Node} (hlist : ∀ exact items, node ≠ .list exact items)
    (h : node.record? names = some fields) :
    (node.leaveOut gone).record? names = some (prune some gone (fun _ node => node) fields) := by
  cases node with
  | table all => exact known?_prune h
  | list exact items => exact absurd rfl (hlist exact items)
  | _ => cases h

variable {α : Type} {name : String} {read? : Node → Option α} {fallback value value' : α}

theorem Fields.get_of_find? {node : Node} (h : fields.find? name = some node) :
    fields.get name read? fallback = read? node := by
  rw [Fields.get, h]

theorem Fields.get_prune_gone (hgone : gone name = true) :
    Fields.get (prune some gone change fields) name read? fallback = some fallback := by
  rw [Fields.get, find?_prune, if_pos hgone]

/-- A field that is left out has its default; one that stays is read from what it is changed to,
where there is such a field. -/
theorem Fields.get_prune (h : fields.get name read? fallback = some value)
    (hthere : ∀ node, fields.find? name = some node → read? node = some value →
      read? (change name node) = some value')
    (hdefault : value = fallback → value' = fallback) :
    Fields.get (prune some gone change fields) name read? fallback =
      some (if gone name = true then fallback else value') := by
  by_cases hgone : gone name = true
  · rw [get_prune_gone hgone, if_pos hgone]
  · rw [Fields.get] at h ⊢
    rw [find?_prune, if_neg hgone, if_neg hgone]
    cases hfind : fields.find? name with
    | none =>
        rw [hfind] at h
        rw [hdefault (Option.some.inj h).symm]
        rfl
    | some node =>
        rw [hfind] at h
        exact hthere node hfind h

/-- A field that is not changed is left out or as it was. -/
theorem Fields.get_prune_same (hsame : ∀ node, change name node = node)
    (h : fields.get name read? fallback = some value) :
    Fields.get (prune some gone change fields) name read? fallback =
      some (if gone name = true then fallback else value) :=
  get_prune h (fun node _ hread => by rwa [hsame]) id

theorem Fields.required_prune_same (hsame : ∀ node, change name node = node)
    (hkept : gone name = false) :
    Fields.required (prune some gone change fields) name read? = fields.required name read? := by
  have hmap : (fields.find? name).map (change name) = fields.find? name := by
    cases fields.find? name with
    | none => rfl
    | some node => rw [Option.map_some, hsame]
  rw [Fields.required, find?_prune, hkept, if_neg Bool.false_ne_true, hmap, Fields.required]

theorem Fields.required_prune_gone (hgone : gone name = true) :
    Fields.required (prune some gone change fields) name read? = none := by
  rw [Fields.required, find?_prune, if_pos hgone, Option.bind_none]

end Node

end TunnelKeeper.Settings
