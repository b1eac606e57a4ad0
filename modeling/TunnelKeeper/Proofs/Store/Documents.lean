import TunnelKeeper.Proofs.Json.Denoting
import TunnelKeeper.Proofs.Store.Texts

/-!
# Documents of states — which documents describe a state, and which values a tunnel

What a file store reads is told without its reader.  A document holds the entries of a state under
their names, or in their order (`Holds`); of each entry it is said what it may be and what it means
where it is left out (`TunnelEntry`, `StatusEntry`, `FlagEntry`); and a document that holds three
such entries describes a state (`Describes`).  The tunnel's entry may denote any value here: whether
that value is a tunnel is asked when it is loaded (`Loads`).

* `ofDocument?_eq_some`: the reader finds exactly the state that a document describes.
* `load_eq_iff`: loading gives exactly what the tunnel's entry says.
* `Describes.legible`: such a state is spelled by its own text, as far as its doubles are.
-/

namespace TunnelKeeper.Store

open Json (Document)

/-! ### Entries of a state -/

/-- An object has at most one field of a name, with a document or none. -/
inductive Under (name : String) : List (Option String × Document) → Option Document → Prop where
  | absent {fields : List (Option String × Document)} (h : ∀ field ∈ fields, field.1 ≠ some name) :
      Under name fields none
  | once {before after : List (Option String × Document)} {document : Document}
      (left : ∀ field ∈ before, field.1 ≠ some name)
      (right : ∀ field ∈ after, field.1 ≠ some name) :
      Under name (before ++ (some name, document) :: after) (some document)

/-- A document holds the entries of a state: as an object whose names spell texts, whatever else it
holds; or as a list, whose last items may be left out. -/
inductive Holds : Document → (tunnel status udp : Option Document) → Prop where
  | object {fields : List (Option String × Document)} {tunnel status udp : Option Document}
      (spelled : ∀ field ∈ fields, field.1.isSome = true)
      (tunnelUnder : Under "tunnel" fields tunnel) (statusUnder : Under "status" fields status)
      (udpUnder : Under "udp_supported" fields udp) :
      Holds (.object fields) tunnel status udp
  | list {items : List Document} (short : items.length ≤ 3) :
      Holds (.list items) items[0]? items[1]? items[2]?

/-- The entry of the tunnel: none, or a value that is nested within the state. -/
inductive TunnelEntry : Option Document → Option Json → Prop where
  | absent : TunnelEntry none none
  | null : TunnelEntry (some .null) none
  | value {document : Document} {json : Json} (there : json ≠ .null)
      (denotes : document.value? (Document.depthLimit - 1) = some json) :
      TunnelEntry (some document) (some json)

/-- The entry of the status: its name, alone or as the key of null. -/
inductive StatusEntry : Option Document → Status → Prop where
  | absent : StatusEntry none .disconnected
  | name (s : Status) : StatusEntry (some (.text (some s.name))) s
  | key (s : Status) : StatusEntry (some (.object [(some s.name, .null)])) s

/-- The entry that says whether datagrams worked. -/
inductive FlagEntry : Option Document → Bool → Prop where
  | absent : FlagEntry none false
  | bool (b : Bool) : FlagEntry (some (.bool b)) b

/-- **A document describes a state.** -/
inductive Describes (document : Document) : Persisted → Prop where
  | entries {tunnel status udp : Option Document} {value : Option Json} {s : Status} {b : Bool}
      (holds : Holds document tunnel status udp) (ofTunnel : TunnelEntry tunnel value)
      (ofStatus : StatusEntry status s) (ofFlag : FlagEntry udp b) :
      Describes document ⟨value, s, b⟩

/-! ### The reader finds what is described -/

variable {name : String} {fields : List (Option String × Document)} {entry : Option Document}
  {document : Document} {state : Persisted}

theorem named_eq_nil (h : ∀ field ∈ fields, field.1 ≠ some name) :
    Document.named name fields = [] := by
  have hfilter : fields.filter (·.1 == some name) = [] :=
    List.filter_eq_nil_iff.2 fun field hfield => by simpa using h field hfield
  rw [Document.named, hfilter, List.map_nil]

theorem field?_eq_some : Document.field? fields name = some entry ↔ Under name fields entry := by
  constructor
  · intro h
    have absent {l : List (Option String × Document)} (hnil : l.filter (·.1 == some name) = []) :
        ∀ field ∈ l, field.1 ≠ some name := fun field hfield => by
      simpa using List.filter_eq_nil_iff.1 hnil field hfield
    rw [Document.field?, Document.named] at h
    split at h
    · next hnil =>
      cases h
      exact .absent (absent (List.map_eq_nil_iff.1 hnil))
    · next value hone =>
      cases h
      obtain ⟨⟨key, document⟩, hfilter, rfl⟩ := List.map_eq_singleton_iff.1 hone
      obtain ⟨before, after, rfl, hbefore, hkey, hafter⟩ := List.filter_eq_cons_iff.1 hfilter
      cases eq_of_beq hkey
      exact .once (fun field hfield => by simpa using hbefore field hfield) (absent hafter)
    · cases h
  · intro h
    cases h with
    | absent h => rw [Document.field?, named_eq_nil h]
    | @once before after document left right =>
        have hnamed :
            Document.named name (before ++ (some name, document) :: after) = [document] := by
          rw [Document.named, List.filter_append, List.map_append, ← Document.named,
            named_eq_nil left, List.nil_append, List.filter_cons_of_pos (by simp), List.map_cons,
            ← Document.named, named_eq_nil right]
        rw [Document.field?, hnamed]

theorem mapM_field?_eq_some {tunnel status udp : Option Document} :
    Persisted.fieldNames.mapM (Document.field? fields) = some [tunnel, status, udp] ↔
      Under "tunnel" fields tunnel ∧ Under "status" fields status ∧
        Under "udp_supported" fields udp := by
  simp only [Persisted.fieldNames, List.mapM_cons, List.mapM_nil, Option.bind_eq_bind,
    Option.pure_def, Option.bind_eq_some_iff, Option.some.injEq, field?_eq_some]
  constructor
  · rintro ⟨_, htunnel, _, ⟨_, hstatus, _, ⟨_, hudp, _, rfl, rfl⟩, rfl⟩, heq⟩
    cases heq
    exact ⟨htunnel, hstatus, hudp⟩
  · rintro ⟨htunnel, hstatus, hudp⟩
    exact ⟨_, htunnel, _, ⟨_, hstatus, _, ⟨_, hudp, _, rfl, rfl⟩, rfl⟩, rfl⟩

theorem inOrder_eq_some {items : List Document} {tunnel status udp : Option Document} :
    Json.inOrder Persisted.fieldNames items = some [tunnel, status, udp] ↔
      items.length ≤ 3 ∧ items[0]? = tunnel ∧ items[1]? = status ∧ items[2]? = udp := by
  match items with
  | [] | [_] | [_, _] | [_, _, _] => simp [Json.inOrder, Persisted.fieldNames]
  | _ :: _ :: _ :: _ :: _ => simp [Json.inOrder, Persisted.fieldNames]

theorem record?_eq_some {tunnel status udp : Option Document} :
    document.record? Persisted.fieldNames = some [tunnel, status, udp] ↔
      Holds document tunnel status udp := by
  constructor
  · intro h
    cases document with
    | object fields =>
        simp only [Document.record?, Option.ite_none_right_eq_some, List.all_eq_true] at h
        obtain ⟨htunnel, hstatus, hudp⟩ := mapM_field?_eq_some.1 h.2
        exact .object h.1 htunnel hstatus hudp
    | list items =>
        obtain ⟨hshort, rfl, rfl, rfl⟩ := inOrder_eq_some.1 h
        exact .list hshort
    | null | bool | number | text => cases h
  · intro h
    cases h with
    | object spelled tunnelUnder statusUnder udpUnder =>
        rw [Document.record?, if_pos (List.all_eq_true.2 spelled)]
        exact mapM_field?_eq_some.2 ⟨tunnelUnder, statusUnder, udpUnder⟩
    | list short => exact inOrder_eq_some.2 ⟨short, rfl, rfl, rfl⟩

theorem tunnelOf?_eq_some {value : Option Json} :
    Persisted.tunnelOf? entry = some value ↔ TunnelEntry entry value := by
  constructor
  · intro h
    cases entry with
    | none =>
        cases h
        exact .absent
    | some document =>
        by_cases hnull : document = .null
        · subst hnull
          cases h
          exact .null
        · rw [Persisted.tunnelOf?_of_ne_null hnull] at h
          obtain ⟨json, hjson, rfl⟩ := Option.map_eq_some_iff.1 h
          refine .value ?_ hjson
          rintro rfl
          exact hnull (Document.eq_null_of_value? hjson)
  · intro h
    cases h with
    | absent | null => rfl
    | @value document json there denotes =>
        have hnull : document ≠ .null := by
          rintro rfl
          cases denotes
          exact there rfl
        rw [Persisted.tunnelOf?_of_ne_null hnull, denotes, Option.map_some]

theorem ofName?_eq_some {s : Status} : Status.ofName? name = some s ↔ name = s.name := by
  constructor
  · intro h
    have hname := @List.find?_some _ (fun s : Status => s.name == name) s Status.all h
    exact (eq_of_beq hname).symm
  · rintro rfl
    cases s <;> decide

theorem statusOf?_eq_some {s : Status} :
    Persisted.fieldOf? Status.ofDocument? .disconnected entry = some s ↔ StatusEntry entry s := by
  constructor
  · intro h
    cases entry with
    | none =>
        cases h
        exact .absent
    | some document =>
        simp only [Persisted.fieldOf?, Status.ofDocument?, Document.choice?] at h
        split at h
        · rw [ofName?_eq_some.1 h]
          exact .name s
        · rw [ofName?_eq_some.1 h]
          exact .key s
        · cases h
  · intro h
    cases h with
    | absent => rfl
    | name | key => exact ofName?_eq_some.2 rfl

theorem flagOf?_eq_some {b : Bool} :
    Persisted.fieldOf? Document.bool? false entry = some b ↔ FlagEntry entry b := by
  constructor
  · intro h
    match entry with
    | none =>
        cases h
        exact .absent
    | some (.bool _) =>
        cases h
        exact .bool b
    | some .null | some (.number _) | some (.text _) | some (.list _) | some (.object _) => cases h
  · intro h
    cases h with
    | absent | bool => rfl

/-- **The reader finds exactly the state that a document describes.** -/
theorem ofDocument?_eq_some :
    Persisted.ofDocument? document = some state ↔ Describes document state := by
  constructor
  · intro h
    obtain ⟨entries, hrecord, h⟩ := Option.bind_eq_some_iff.1 h
    split at h
    case h_2 => cases h
    case h_1 tunnel status udp =>
      obtain ⟨value, htunnel, h⟩ := Option.bind_eq_some_iff.1 h
      obtain ⟨s, hstatus, h⟩ := Option.bind_eq_some_iff.1 h
      obtain ⟨b, hflag, h⟩ := Option.bind_eq_some_iff.1 h
      cases h
      exact .entries (record?_eq_some.1 hrecord) (tunnelOf?_eq_some.1 htunnel)
        (statusOf?_eq_some.1 hstatus) (flagOf?_eq_some.1 hflag)
  · rintro ⟨holds, ofTunnel, ofStatus, ofFlag⟩
    simp only [Persisted.ofDocument?, record?_eq_some.2 holds, tunnelOf?_eq_some.2 ofTunnel,
      statusOf?_eq_some.2 ofStatus, flagOf?_eq_some.2 ofFlag, Option.bind_eq_bind, Option.bind_some,
      Option.pure_def]

/-! ### What is loaded -/

/-- A value stands for a tunnel: an object with a text and an object under its two names, whatever
else it holds, or a list of the two. -/
inductive StandsFor : Json → Descriptor → Prop where
  | object {entries config : Json.Entries} {id : String}
      (ofId : Json.Entries.find? "id" entries = some (.text id))
      (ofConfig : Json.Entries.find? "config" entries = some (.object config)) :
      StandsFor (.object entries) ⟨id, ⟨config⟩⟩
  | list (id : String) (config : Json.Entries) :
      StandsFor (.list [.text id, .object config]) ⟨id, ⟨config⟩⟩

/-- What is loaded: no tunnel, the tunnel that the entry stands for, or that it stands for none. -/
inductive Loads : Option Json → Except StoreError (Option Descriptor) → Prop where
  | absent : Loads none (.ok none)
  | tunnel {json : Json} {d : Descriptor} (h : StandsFor json d) : Loads (some json) (.ok (some d))
  | malformed {json : Json} (h : ∀ d, ¬StandsFor json d) : Loads (some json) (.error .malformed)

theorem ofJson?_eq_some {json : Json} {d : Descriptor} :
    Descriptor.ofJson? json = some d ↔ StandsFor json d := by
  constructor
  · intro h
    obtain ⟨entries, hrecord, h⟩ := Option.bind_eq_some_iff.1 h
    split at h
    case h_2 => cases h
    case h_1 id config =>
      cases h
      match json with
      | .object entries =>
          simp only [Json.record?, Descriptor.fieldNames, List.map_cons, List.map_nil,
            Option.some.injEq, List.cons.injEq, and_true] at hrecord
          exact .object hrecord.1 hrecord.2
      | .list [_, _] =>
          cases hrecord
          exact .list id config
      | .list [] | .list [_] => cases hrecord
      | .list (_ :: _ :: _ :: _) => cases hrecord
      | .null | .bool _ | .number _ | .text _ => cases hrecord
  · intro h
    cases h with
    | object ofId ofConfig =>
        simp only [Descriptor.ofJson?, Json.record?, Descriptor.fieldNames, List.map_cons,
          List.map_nil, ofId, ofConfig, Option.bind_eq_bind, Option.bind_some]
    | list => rfl

/-- **Loading gives exactly what the tunnel's entry says.** -/
theorem load_eq_iff {loaded : Except StoreError (Option Descriptor)} :
    state.load = loaded ↔ Loads state.tunnel loaded := by
  unfold Persisted.load
  cases state.tunnel with
  | none =>
      constructor
      · rintro rfl
        exact .absent
      · rintro ⟨⟩
        rfl
  | some json =>
      cases hd : Descriptor.ofJson? json with
      | none =>
          have hnone (d : Descriptor) : ¬StandsFor json d := fun h => by
            rw [ofJson?_eq_some.2 h] at hd
            cases hd
          simp only [hd]
          constructor
          · rintro rfl
            exact .malformed hnone
          · intro h
            cases h with
            | tunnel h => exact absurd h (hnone _)
            | malformed => rfl
      | some d =>
          simp only [hd]
          constructor
          · rintro rfl
            exact .tunnel (ofJson?_eq_some.1 hd)
          · intro h
            cases h with
            | tunnel h =>
                rw [ofJson?_eq_some.2 h] at hd
                cases hd
                rfl
            | malformed h => exact absurd (ofJson?_eq_some.1 hd) (h d)

/-! ### Described states are legible -/

/-- Every double of the tunnel's entry is read from its text as it was. -/
def Rereadable (state : Persisted) : Prop :=
  ∀ json, state.tunnel = some json →
    ∀ d, .double d ∈ json.numbers → (Json.Number.double d).Rereads

/-- A described state is spelled by its text, as far as its doubles are. -/
theorem Describes.legible (h : Describes document state) (hdoubles : Rereadable state) :
    state.Legible := by
  obtain ⟨holds, ofTunnel, ofStatus, ofFlag⟩ := h
  rintro json rfl
  cases ofTunnel with
  | value there denotes =>
      obtain ⟨hordered, hrange⟩ := Document.ordered_of_value? _ denotes
      refine ⟨there, hordered, fun n hn => ?_⟩
      exact Json.Number.rereads_of_inRange (hrange n hn) fun d heq =>
        heq ▸ hdoubles json rfl d (heq ▸ hn)

/-- Its text is nested no deeper than a text may be. -/
theorem Describes.nesting_le (h : Describes document state) :
    state.toJson.nesting ≤ Document.depthLimit := by
  obtain ⟨holds, ofTunnel, ofStatus, ofFlag⟩ := h
  rw [Persisted.nesting_toJson]
  cases ofTunnel with
  | absent | null => exact Nat.le_of_ble_eq_true rfl
  | value there denotes => exact Nat.succ_le_succ (Document.nesting_of_value? _ denotes)

end TunnelKeeper.Store
