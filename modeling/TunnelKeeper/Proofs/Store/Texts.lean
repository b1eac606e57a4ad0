import TunnelKeeper.Proofs.Json.Denoting
import TunnelKeeper.Store.Persisted

/-!
# Texts of states — what a file store reads of what it wrote

A state is written as an object of three entries, the tunnel among them as the value it is.  Its own
text is read as the state again, as long as lists and objects are nested in it no deeper than a text
may have them; beyond that nothing is read of it, and it counts as the empty state
(`Persisted.ofText_text`).  A tunnel stands two objects deep in that text (`nesting_apply_tunnel`),
so a configuration that is read from a text on its own may be too deep for the text of a state.
-/

namespace TunnelKeeper.Store

open Json (Document)

namespace Persisted

/-- The tunnel entry of the state is one that its own text spells. -/
def Legible (state : Persisted) : Prop :=
  ∀ json, state.tunnel = some json →
    json ≠ .null ∧ json.Ordered ∧ ∀ n ∈ json.numbers, n.Rereads

variable {state : Persisted}

theorem nesting_toJson (state : Persisted) :
    state.toJson.nesting = (state.tunnel.getD .null).nesting + 1 := by
  simp [toJson, Json.nesting, Json.entryNesting]

/-- A tunnel is nested twice in the text of a state. -/
theorem nesting_apply_tunnel (state : Persisted) (d : Descriptor) :
    (state.apply (.tunnel d)).toJson.nesting = d.config.toJson.nesting + 2 := by
  rw [nesting_toJson]
  simp [apply, Descriptor.toJson, Json.nesting, Json.entryNesting]

theorem numbers_toJson (state : Persisted) :
    state.toJson.numbers = (state.tunnel.getD .null).numbers := by
  simp [toJson, Json.numbers, Json.entryNumbers]

theorem Legible.rereads (h : state.Legible) : ∀ n ∈ state.toJson.numbers, n.Rereads := by
  rw [numbers_toJson]
  cases htunnel : state.tunnel with
  | none => simp [Json.numbers]
  | some json => exact (h json htunnel).2.2

/-- Every tunnel entry but null is taken as the value it denotes. -/
theorem tunnelOf?_of_ne_null {document : Document} (h : document ≠ .null) :
    tunnelOf? (some document) = (document.value? (Document.depthLimit - 1)).map some := by
  cases document with
  | null => exact absurd rfl h
  | bool | number | text | list | object => rfl

/-- The entry of a tunnel is read from its document, where it may be nested so deep. -/
theorem tunnelOf?_document (h : state.Legible) :
    tunnelOf? (some (state.tunnel.getD .null).document) =
      if state.toJson.nesting ≤ Document.depthLimit then some state.tunnel else none := by
  rw [nesting_toJson]
  cases htunnel : state.tunnel with
  | none => simp [Json.document, tunnelOf?, Json.nesting, Document.depthLimit]
  | some json =>
      obtain ⟨hnull, hordered, hnumbers⟩ := h json htunnel
      have hvalue := Json.value?_document json hordered hnumbers (Document.depthLimit - 1)
      have hle : json.nesting ≤ Document.depthLimit - 1 ↔
          json.nesting + 1 ≤ Document.depthLimit := by
        rw [Document.depthLimit]
        omega
      have hdocument : json.document ≠ .null := by
        cases json with
        | null => exact absurd rfl hnull
        | bool | number | text | list | object => simp [Json.document]
      rw [Option.getD_some, tunnelOf?_of_ne_null hdocument, hvalue]
      simp only [hle]
      split <;> rfl

theorem ofDocument?_name (s : Status) : Status.ofDocument? (.text (some s.name)) = some s := by
  cases s <;> decide

/-- A state is read from the document that spells it, unless lists and objects are nested too deep
in it. -/
theorem ofDocument?_document (h : state.Legible) :
    ofDocument? state.toJson.document =
      if state.toJson.nesting ≤ Document.depthLimit then some state else none := by
  have hrecord : Document.record? fieldNames state.toJson.document =
      some [some (state.tunnel.getD .null).document, some (.text (some state.status.name)),
        some (.bool state.udpSupported)] := rfl
  simp only [ofDocument?, hrecord, Option.bind_eq_bind, Option.bind_some, tunnelOf?_document h,
    fieldOf?, ofDocument?_name, Document.bool?]
  split <;> rfl

/-- A state is read from its text as it was, unless lists and objects are nested too deep in it;
then nothing is. -/
theorem ofText_text (h : state.Legible) :
    ofText state.text = if state.toJson.nesting ≤ Document.depthLimit then state else {} := by
  rw [ofText, text, Json.read?_pretty h.rereads, Option.bind_some, ofDocument?_document h]
  split <;> rfl

end Persisted

end TunnelKeeper.Store
