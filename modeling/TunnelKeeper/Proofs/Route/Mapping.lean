import TunnelKeeper.Proofs.Route.Numbering

/-!
# Mapping — numbers of networks in a map, and the whole of what events tell

`RouteMap` is the bookkeeping of a route table with a map from addresses to numbers and a counter,
whose states are found by going through the map.  It shows what the table shows (`RouteMap.Shows`),
whatever the order of the map is, because no number is given twice.

* `RouteMap.Follows.shows`: the map and the table give the same events and states.
* `route_events_tell_route`: what the events tell, for every run of a fresh table.
-/

namespace TunnelKeeper

/-! ### A map and a counter -/

/-- Networks as a map from addresses to numbers, in the order in which it is gone through, with
the last number given. -/
structure RouteMap where
  entries : List (IpAddress × NetworkId) := []
  last : NetworkId := 0
  current : Option IpAddress := none

namespace RouteMap

/-- The number of an address, a new one if it has none. -/
def numberFor (map : RouteMap) (ip : IpAddress) : RouteMap × NetworkId :=
  match map.entries.find? (·.1 == ip) with
  | some e => (map, e.2)
  | none =>
    ({ map with entries := (ip, map.last + 1) :: map.entries, last := map.last + 1 }, map.last + 1)

/-- The number of the address of a route, if there is a route. -/
def numberOf (map : RouteMap) : Option IpAddress → RouteMap × Option NetworkId
  | some ip => ((map.numberFor ip).1, some (map.numberFor ip).2)
  | none => (map, none)

/-- Moves to the next route; gives the events that tell the change. -/
def transition (map : RouteMap) (next : Option IpAddress) : RouteMap × List NetworkEvent :=
  if next = map.current then (map, [])
  else
    let gained := map.numberOf next
    let gone := gained.1.numberOf map.current
    ({ gone.1 with current := next }, tidings gone.2 gained.2)

/-- How a network stands, by the first entry with its number. -/
def stateOf (map : RouteMap) (id : NetworkId) : Option NetworkState :=
  (map.entries.find? (·.2 == id)).map fun e =>
    if map.current = some e.1 then .connected else .disconnected

/-- **What a map gives along routes**, its entries in any order at any time. -/
inductive Follows : List (Option IpAddress) → RouteMap → List NetworkEvent → Prop where
  | fresh : Follows [] {} []
  | move {routes map events} (h : Follows routes map events) (next : Option IpAddress) :
      Follows (routes ++ [next]) (map.transition next).1 (events ++ (map.transition next).2)
  | reorder {routes map events entries} (h : Follows routes map events)
      (ho : entries.Perm map.entries) : Follows routes { map with entries } events

/-- **A map shows a table**: it has the addresses known with their numbers. -/
structure Shows (map : RouteMap) (table : RouteTable) : Prop where
  entries : ∀ ip id, (ip, id) ∈ map.entries ↔ ip ∈ table.known ∧ table.idOf ip = id
  last : map.last = table.known.length
  current : map.current = table.current

namespace Shows

variable {map : RouteMap} {table : RouteTable}

/-- An address has a number in the map if the table knows it. -/
theorem find (h : map.Shows table) (ip : IpAddress) :
    map.entries.find? (·.1 == ip) =
      if ip ∈ table.known then some (ip, table.idOf ip) else none := by
  cases hf : map.entries.find? (·.1 == ip) with
  | none =>
      refine (if_neg fun hip => ?_).symm
      exact absurd (List.find?_eq_none.1 hf _ ((h.entries _ _).2 ⟨hip, rfl⟩)) (by simp)
  | some e =>
      obtain ⟨ip', id⟩ := e
      have hip : ip' = ip := by simpa using List.find?_some hf
      obtain ⟨hmem, hid⟩ := (h.entries _ _).1 (List.mem_of_find?_eq_some hf)
      rw [hip] at hmem hid ⊢
      rw [if_pos hmem, hid]

theorem numberFor (h : map.Shows table) (ip : IpAddress) :
    (map.numberFor ip).1.Shows (table.learn ip) ∧
      (map.numberFor ip).2 = (table.learn ip).idOf ip := by
  rw [RouteMap.numberFor, h.find, RouteTable.learn]
  by_cases hip : ip ∈ table.known
  · rw [if_pos hip, if_pos (List.contains_iff_mem.2 hip)]
    exact ⟨h, rfl⟩
  · rw [if_neg hip, if_neg fun hc => hip (List.contains_iff_mem.1 hc)]
    have hnew : (table.known ++ [ip]).idxOf ip = table.known.length := by
      rw [List.idxOf_append_of_notMem hip]
      simp
    refine ⟨⟨fun ip' id => ?_, ?_, h.current⟩, ?_⟩
    · by_cases hip' : ip' ∈ table.known
      · have hne : ip' ≠ ip := fun hc => hip (hc ▸ hip')
        simp [h.entries, hip', hne, RouteTable.idOf, List.idxOf_append_of_mem hip']
      · have hold : (ip', id) ∉ map.entries := fun hm => hip' ((h.entries _ _).1 hm).1
        rcases eq_or_ne ip' ip with rfl | hne
        · simp [hold, RouteTable.idOf, hnew, h.last, eq_comm]
        · simp [hold, hip', hne]
    · simp [h.last]
    · simp [RouteTable.idOf, hnew, h.last]

theorem numberOf (h : map.Shows table) (route : Option IpAddress) :
    (map.numberOf route).1.Shows (route.elim table table.learn) ∧
      (map.numberOf route).2 = route.map (route.elim table table.learn).idOf := by
  cases route with
  | none => exact ⟨h, rfl⟩
  | some ip => exact ⟨(h.numberFor ip).1, congrArg some (h.numberFor ip).2⟩

theorem transition (h : map.Shows table) (hc : ∀ ip, table.current = some ip → ip ∈ table.known)
    (next : Option IpAddress) :
    (map.transition next).1.Shows (table.transition next).1 ∧
      (map.transition next).2 = (table.transition next).2 := by
  unfold RouteMap.transition RouteTable.transition
  rw [h.current]
  by_cases hnext : next = table.current
  · rw [if_pos hnext, if_pos hnext]
    exact ⟨h, rfl⟩
  rw [if_neg hnext, if_neg hnext]
  obtain ⟨hgained, hnew⟩ := h.numberOf next
  obtain ⟨hgone, hold⟩ := hgained.numberOf table.current
  -- Nothing is learned from the old address, for it is known.
  have hsame : table.current.elim (next.elim table table.learn)
      (next.elim table table.learn).learn = next.elim table table.learn := by
    cases hcur : table.current with
    | none => rfl
    | some old =>
        refine if_pos (List.contains_iff_mem.2 ?_)
        cases next with
        | none => exact hc old hcur
        | some ip => exact table.known_subset_learn ip (hc old hcur)
  rw [hsame] at hgone hold
  refine ⟨⟨hgone.entries, hgone.last, rfl⟩, ?_⟩
  show tidings _ _ = _
  rw [hold, hnew]
  cases next <;> cases table.current <;> rfl

/-- A search finds the one entry with the number. -/
theorem stateOf (h : map.Shows table) (hn : table.known.Nodup) (id : NetworkId) :
    map.stateOf id = table.stateOf id := by
  rw [RouteMap.stateOf, h.current]
  cases hf : map.entries.find? (·.2 == id) with
  | none =>
      cases id with
      | zero => rfl
      | succ n =>
          have hnone : table.known[n]? = none := Option.eq_none_iff_forall_ne_some.2 fun ip hip =>
            absurd (List.find?_eq_none.1 hf _ ((h.entries _ _).2 ((table.getElem?_known hn).1 hip)))
              (by simp)
          rw [RouteTable.stateOf, hnone]
          rfl
  | some e =>
      obtain ⟨ip, id'⟩ := e
      obtain rfl : id' = id := by simpa using List.find?_some hf
      have hip := (h.entries _ _).1 (List.mem_of_find?_eq_some hf)
      obtain ⟨n, rfl⟩ : ∃ n, id' = n + 1 := ⟨_, hip.2.symm⟩
      rw [RouteTable.stateOf, (RouteTable.getElem?_known hn).2 hip]
      rfl

end Shows

/-- **Every run of a map is that of the table.** -/
theorem Follows.shows {routes : List (Option IpAddress)} {map : RouteMap}
    {events : List NetworkEvent} (h : Follows routes map events) :
    map.Shows (RouteTable.follow {} routes).1 ∧ events = (RouteTable.follow {} routes).2 := by
  induction h with
  | fresh => exact ⟨⟨by simp [RouteTable.follow], rfl, rfl⟩, rfl⟩
  | @move routes map events h next ih =>
      obtain ⟨hs, he⟩ := ih
      have hn := RouteTable.numbered_follow routes
      obtain ⟨hs', he'⟩ := hs.transition (fun _ => hn.current_mem) next
      rw [RouteTable.follow_concat]
      exact ⟨hs', by rw [he, he']⟩
  | reorder h ho ih =>
      obtain ⟨hs, he⟩ := ih
      exact ⟨⟨fun ip id => ho.mem_iff.trans (hs.entries ip id), hs.last, hs.current⟩, he⟩

end RouteMap

/-! ### The result -/

/-- **The events of a route tell the route.**  After any routes that a fresh table is moved along,
its numbers are one, two, three and so on for the addresses in the order in which they were first
seen, no two share one, none changes later, and the present address, that of the last route, has
one.  A switch to another address tells the new network and then the old one; the events of each
network take turns, and all events together leave the present network and no other.  The present
network is connected, the others with a number are not, and nothing is said of other numbers.  A
map and a counter give the same events and states in whatever order the map is gone through. -/
theorem route_events_tell_route (routes : List (Option IpAddress)) :
    let table := (RouteTable.follow {} routes).1
    let events := (RouteTable.follow {} routes).2
    (table.known = seen routes ∧ table.known.map table.idOf = List.range' 1 table.known.length) ∧
    (∀ ip ∈ table.known, ∀ ip' ∈ table.known, table.idOf ip = table.idOf ip' → ip = ip') ∧
    (∀ ip ∈ table.known, ∀ more,
      (RouteTable.follow {} (routes ++ more)).1.idOf ip = table.idOf ip) ∧
    (table.current = routes.getLast?.join ∧ ∀ ip ∈ table.current, ip ∈ table.known) ∧
    (∀ old new, table.current = some old → new ≠ old →
      ∃ id ≠ table.idOf old, (table.transition (some new)).1.idOf new = id ∧
        (table.transition (some new)).2 = [.available id, .lost (table.idOf old)]) ∧
    (∀ id, ∃ n, about id events = turns id n) ∧
    replay ∅ events = (table.current.map table.idOf).toFinset ∧
    (∀ id, table.stateOf id =
      if table.current.map table.idOf = some id then some .connected
      else if 1 ≤ id ∧ id ≤ table.known.length then some .disconnected else none) ∧
    ∀ map told, RouteMap.Follows routes map told →
      told = events ∧ map.Shows table ∧ ∀ id, map.stateOf id = table.stateOf id := by
  intro table events
  have hn : Numbered routes table := RouteTable.numbered_follow routes
  have hheard : Heard (table.current.map table.idOf) events := RouteTable.heard_follow routes
  refine ⟨⟨hn.known, hn.numbers⟩, ?_, ?_, ⟨hn.current, fun ip => hn.current_mem⟩, ?_,
    fun id => (hheard.turns id).imp fun _ => And.left, hheard.replay,
    table.stateOf_eq hn.nodup fun _ => hn.current_mem, ?_⟩
  · intro ip hip ip' _ hid
    rw [hn.idOf, hn.idOf] at hid
    exact (numberIn_inj (hn.known ▸ hip)).1 hid
  · intro ip hip more
    rw [(RouteTable.numbered_follow (routes ++ more)).idOf, hn.idOf]
    exact numberIn_append (hn.known ▸ hip) more
  · intro old new hold hne
    have hnext : some new ≠ table.current := fun hc => hne (Option.some.inj (hc.trans hold))
    obtain ⟨hn', htold⟩ := hn.told (some new)
    have hmoves := hn.moves hnext
    rw [if_neg hnext] at htold
    rw [hold] at hmoves htold
    refine ⟨_, fun hc => hmoves (congrArg some (hc.trans (hn.idOf old))), hn'.idOf new, ?_⟩
    rw [htold, hn.idOf]
    rfl
  · intro map told hm
    obtain ⟨hs, rfl⟩ := hm.shows
    exact ⟨rfl, hs, hs.stateOf hn.nodup⟩

/-- A network that comes, is replaced by another and goes. -/
example (a b : IpAddress) (h : a ≠ b) :
    (RouteTable.follow {} [some a, some a, some b, none]).2 =
      [.available 1, .available 2, .lost 1, .lost 2] := by
  simp [RouteTable.follow, RouteTable.transition, RouteTable.learn, RouteTable.idOf, h.symm,
    List.idxOf_cons, beq_false_of_ne h]

end TunnelKeeper
